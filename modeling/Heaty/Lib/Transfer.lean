import Mathlib.Tactic

/-! Texts that arrive in packets. A packet whose last character is the delimiter
ends its transfer, and the receiver then processes what it has collected. However
a text is cut into packets, a receiver processes it once and as a whole. -/

namespace Transfer

/-- A receiver's state: the text it has collected, and what a packet does to it. -/
structure Collector (σ α : Type) where
  text : σ → List α
  count : σ → ℕ → σ
  collect : σ → List α → σ
  text_count : ∀ s n, text (count s n) = text s
  text_collect : ∀ s cs, text (collect s cs) = text s ++ cs

variable {σ α ρ : Type}

/-- Hand packets to a receiver in order, and list the results. -/
def run (step : σ → List α → σ × Option ρ) : σ → List (List α) → σ × List ρ
  | s, [] => (s, [])
  | s, packet :: packets =>
      let r := step s packet
      let t := run step r.1 packets
      (t.1, r.2.toList ++ t.2)

section Run

variable {step : σ → List α → σ × Option ρ} {s : σ}

@[simp] theorem run_nil : run step s [] = (s, []) := rfl

@[simp] theorem run_cons (packet : List α) (packets : List (List α)) :
    run step s (packet :: packets) =
      ((run step (step s packet).1 packets).1,
        (step s packet).2.toList ++ (run step (step s packet).1 packets).2) := rfl

theorem run_append (packets packets' : List (List α)) :
    run step s (packets ++ packets') =
      ((run step (run step s packets).1 packets').1,
        (run step s packets).2 ++ (run step (run step s packets).1 packets').2) := by
  induction packets generalizing s with
  | nil => simp
  | cons packet packets ih => simp [ih]

end Run

variable [DecidableEq α]

/-- A packet ends a transfer. -/
def Ends (delim : α) (packet : List α) : Prop := packet.getLast? = some delim

instance (delim : α) (packet : List α) : Decidable (Ends delim packet) := by
  unfold Ends
  infer_instance

/-- Take a packet, with the result of processing the text if it ended one. -/
def receive (C : Collector σ α) (delim : α) (process : σ → σ × ρ) (s : σ) (packet : List α) :
    σ × Option ρ :=
  let s := C.count s packet.length
  match packet.getLast? with
  | none => (s, none)
  | some last =>
      if last = delim then
        let r := process (C.collect s packet.dropLast)
        (r.1, some r.2)
      else (C.collect s packet, none)

variable (C : Collector σ α) {delim : α} (process : σ → σ × ρ) (s : σ)

theorem receive_of_ends {packet : List α} (h : Ends delim packet) :
    receive C delim process s packet =
      ((process (C.collect (C.count s packet.length) packet.dropLast)).1,
        some (process (C.collect (C.count s packet.length) packet.dropLast)).2) := by
  simp only [receive, show packet.getLast? = some delim from h, if_true]

/-- A packet that ends nothing is collected. -/
theorem receive_of_not_ends {packet : List α} (h : ¬ Ends delim packet) :
    C.text (receive C delim process s packet).1 = C.text s ++ packet ∧
      (receive C delim process s packet).2 = none := by
  unfold receive
  split
  · rename_i hlast
    simp [List.getLast?_eq_none_iff.1 hlast, C.text_count]
  · rename_i last hlast
    have hne : last ≠ delim := by
      rintro rfl
      exact h hlast
    simp [hne, C.text_collect, C.text_count]

/-- It changes only what counting and collecting change. -/
theorem receive_keeps {I : σ → Prop} (hcount : ∀ t n, I t → I (C.count t n))
    (hcollect : ∀ t cs, I t → I (C.collect t cs)) {packet : List α} (h : ¬ Ends delim packet)
    (hs : I s) : I (receive C delim process s packet).1 := by
  unfold receive
  split
  · exact hcount s _ hs
  · rename_i last hlast
    have hne : last ≠ delim := by
      rintro rfl
      exact h hlast
    rw [if_neg hne]
    exact hcollect _ _ (hcount s _ hs)

variable (delim) in
theorem run_of_flatten_eq_nil {packets : List (List α)} (h : packets.flatten = []) :
    C.text (run (receive C delim process) s packets).1 = C.text s ∧
      (run (receive C delim process) s packets).2 = [] := by
  induction packets generalizing s with
  | nil => simp
  | cons packet packets ih =>
    rw [List.flatten_cons, List.append_eq_nil_iff] at h
    obtain ⟨rfl, h⟩ := h
    have hends : ¬ Ends delim [] := by simp [Ends]
    obtain ⟨htext, hnone⟩ := receive_of_not_ends C process s hends
    obtain ⟨htext', hnil⟩ := ih (receive C delim process s []).1 h
    rw [run_cons, htext', htext, hnone, hnil]
    simp

omit [DecidableEq α] in
/-- The packet that brings the delimiter brings the rest of the text. -/
theorem cut_of_ends {init body rest : List α} (hbody : delim ∉ body)
    (h : init ++ [delim] ++ rest = body ++ [delim]) : init = body ∧ rest = [] := by
  rw [List.append_assoc, List.append_eq_append_iff] at h
  rcases h with ⟨mid, rfl, hmid⟩ | ⟨mid, rfl, hmid⟩
  · cases mid with
    | nil => simpa using hmid
    | cons c mid =>
      simp only [List.cons_append, List.nil_append, List.cons.injEq] at hmid
      simp [hmid.1] at hbody
  · cases mid with
    | nil => simpa using hmid.symm
    | cons c mid => simp at hmid

omit [DecidableEq α] in
/-- Any other packet brings a part of it. -/
theorem cut_of_not_ends {packet body rest : List α} (hends : ¬ Ends delim packet)
    (h : packet ++ rest = body ++ [delim]) :
    ∃ more, body = packet ++ more ∧ rest = more ++ [delim] := by
  rw [List.append_eq_append_iff] at h
  rcases h with ⟨more, hbody, hrest⟩ | ⟨more, hpacket, hrest⟩
  · exact ⟨more, hbody, hrest⟩
  · cases more with
    | nil => exact ⟨[], by simpa using hpacket.symm, by simpa using hrest.symm⟩
    | cons c more =>
      simp only [List.cons_append, List.cons.injEq, List.nil_eq, List.append_eq_nil_iff] at hrest
      obtain ⟨rfl, rfl, -⟩ := hrest
      exact absurd (show Ends delim packet by simp [Ends, hpacket]) hends

/-- However a text and its delimiter are cut into packets, the text is processed
once, after what had been collected before. -/
theorem run_transfer {I : σ → Prop} (hcount : ∀ t n, I t → I (C.count t n))
    (hcollect : ∀ t cs, I t → I (C.collect t cs)) (hs : I s) {packets : List (List α)}
    {body : List α} (hbody : delim ∉ body) (h : packets.flatten = body ++ [delim]) :
    ∃ t, I t ∧ C.text t = C.text s ++ body ∧
      C.text (run (receive C delim process) s packets).1 = C.text (process t).1 ∧
      (run (receive C delim process) s packets).2 = [(process t).2] := by
  induction packets generalizing s body with
  | nil => simp at h
  | cons packet packets ih =>
    rw [List.flatten_cons] at h
    by_cases hends : Ends delim packet
    · obtain ⟨init, rfl⟩ := List.getLast?_eq_some_iff.1 hends
      obtain ⟨rfl, hrest⟩ := cut_of_ends hbody h
      obtain ⟨htext, hnil⟩ := run_of_flatten_eq_nil C delim process
        (receive C delim process s (init ++ [delim])).1 hrest
      refine ⟨C.collect (C.count s (init ++ [delim]).length) init,
        hcollect _ _ (hcount s _ hs), ?_, ?_, ?_⟩
      · rw [C.text_collect, C.text_count]
      · rw [run_cons, htext, receive_of_ends C process s hends, List.dropLast_concat]
      · rw [run_cons, hnil, receive_of_ends C process s hends, List.dropLast_concat]
        rfl
    · obtain ⟨rest, rfl, hrest⟩ := cut_of_not_ends hends h
      obtain ⟨htext, hnone⟩ := receive_of_not_ends C process s hends
      have hkept := receive_keeps C process s hcount hcollect hends hs
      obtain ⟨t, hkeep, ht, hend, hresults⟩ := ih (receive C delim process s packet).1 hkept
        (fun hmem => hbody (List.mem_append_right _ hmem)) hrest
      refine ⟨t, hkeep, ?_, ?_, ?_⟩
      · rw [ht, htext, List.append_assoc]
      · rw [run_cons, hend]
      · rw [run_cons, hresults, hnone]
        rfl

/-- The end of every transfer among the packets leaves nothing collected. -/
def Emptied (C : Collector σ α) (delim : α) (step : σ → List α → σ × Option ρ) (s : σ)
    (packets : List (List α)) : Prop :=
  ∀ pre packet, pre ++ [packet] <+: packets → Ends delim packet →
    C.text (run step s (pre ++ [packet])).1 = []

/-- The text of every transfer that the packets end has a property. -/
def AllTexts (C : Collector σ α) (delim : α) (step : σ → List α → σ × Option ρ) (s : σ)
    (packets : List (List α)) (P : List α → Prop) : Prop :=
  ∀ pre packet, pre ++ [packet] <+: packets → Ends delim packet →
    P (C.text (run step s pre).1 ++ packet.dropLast)

/-- Transfers leave nothing behind just when processing their texts does not. -/
theorem emptied_iff {P : List α → Prop} (hP : ∀ t, C.text (process t).1 = [] ↔ P (C.text t))
    {packets : List (List α)} :
    Emptied C delim (receive C delim process) s packets ↔
      AllTexts C delim (receive C delim process) s packets P := by
  have hstep (pre : List (List α)) {packet : List α} (h : Ends delim packet) :
      C.text (run (receive C delim process) s (pre ++ [packet])).1 = [] ↔
        P (C.text (run (receive C delim process) s pre).1 ++ packet.dropLast) := by
    simp only [run_append, run_cons, run_nil, receive_of_ends C process _ h, hP, C.text_collect,
      C.text_count]
  constructor
  · intro h pre packet hprefix hends
    exact (hstep pre hends).1 (h pre packet hprefix hends)
  · intro h pre packet hprefix hends
    exact (hstep pre hends).2 (h pre packet hprefix hends)

end Transfer
