import Mathlib.Tactic

/-! Tables of guarded actions. One loop tries every entry in the state that the entries
before it have left; another takes the first entry that applies and stops. -/

namespace Table

variable {σ τ α ε : Type*} {guard : σ → α → Prop} [∀ s a, Decidable (guard s a)]
  {act : σ → α → σ} {table : List α} {s : σ} {a : α}

/-- Every entry is tried. -/
def tryAll (guard : σ → α → Prop) [∀ s a, Decidable (guard s a)] (act : σ → α → σ)
    (table : List α) (s : σ) : σ :=
  table.foldl (fun s a => if guard s a then act s a else s) s

/-- The first entry that applies. -/
def first (guard : σ → α → Prop) [∀ s a, Decidable (guard s a)] (table : List α) (s : σ) :
    Option α :=
  table.find? (guard s ·)

/-- Only the first entry that applies is taken. -/
def takeFirst (guard : σ → α → Prop) [∀ s a, Decidable (guard s a)] (act : σ → α → σ)
    (table : List α) (s : σ) : σ :=
  match first guard table s with
  | none => s
  | some a => act s a

/-- Once the first entry has been taken, no other one behind it applies. -/
def Settles (guard : σ → α → Prop) (act : σ → α → σ) : List α → σ → Prop
  | [], _ => True
  | a :: rest, s =>
      (guard s a → ∀ b ∈ rest, ¬ guard (act s a) b) ∧ (¬ guard s a → Settles guard act rest s)

/-! ## One table -/

theorem tryAll_cons_pos (h : guard s a) :
    tryAll guard act (a :: table) s = tryAll guard act table (act s a) := by
  simp [tryAll, h]

theorem tryAll_cons_neg (h : ¬ guard s a) :
    tryAll guard act (a :: table) s = tryAll guard act table s := by
  simp [tryAll, h]

theorem takeFirst_cons_pos (h : guard s a) : takeFirst guard act (a :: table) s = act s a := by
  simp [takeFirst, first, h]

theorem takeFirst_cons_neg (h : ¬ guard s a) :
    takeFirst guard act (a :: table) s = takeFirst guard act table s := by
  simp [takeFirst, first, h]

theorem tryAll_of_forall_not (h : ∀ a ∈ table, ¬ guard s a) : tryAll guard act table s = s := by
  induction table with
  | nil => rfl
  | cons a rest ih =>
    rw [List.forall_mem_cons] at h
    rw [tryAll_cons_neg h.1, ih h.2]

theorem tryAll_of_settles (h : Settles guard act table s) :
    tryAll guard act table s = takeFirst guard act table s := by
  induction table with
  | nil => rfl
  | cons a rest ih =>
    by_cases ha : guard s a
    · rw [tryAll_cons_pos ha, takeFirst_cons_pos ha]
      exact tryAll_of_forall_not (h.1 ha)
    · rw [tryAll_cons_neg ha, takeFirst_cons_neg ha]
      exact ih (h.2 ha)

/-- What one entry or none makes of a state. -/
theorem takeFirst_cases (guard : σ → α → Prop) [∀ s a, Decidable (guard s a)]
    (act : σ → α → σ) (table : List α) (s : σ) :
    takeFirst guard act table s = s ∨
      ∃ a ∈ table, guard s a ∧ takeFirst guard act table s = act s a := by
  unfold takeFirst
  cases h : first guard table s with
  | none => exact Or.inl rfl
  | some a => exact Or.inr ⟨a, List.mem_of_find?_eq_some h, by simpa using List.find?_some h, rfl⟩

section Measure

variable (size : σ → ℕ) (hsize : ∀ s a, guard s a → size s < size (act s a))

include hsize

theorem size_le_tryAll (table : List α) (s : σ) : size s ≤ size (tryAll guard act table s) := by
  induction table generalizing s with
  | nil => exact le_rfl
  | cons a rest ih =>
    by_cases ha : guard s a
    · rw [tryAll_cons_pos ha]
      exact (hsize s a ha).le.trans (ih _)
    · rw [tryAll_cons_neg ha]
      exact ih s

theorem size_lt_tryAll (h : ∃ a ∈ table, guard s a) : size s < size (tryAll guard act table s) := by
  induction table with
  | nil => simp at h
  | cons a rest ih =>
    by_cases ha : guard s a
    · rw [tryAll_cons_pos ha]
      exact (hsize s a ha).trans_le (size_le_tryAll size hsize rest _)
    · rw [List.exists_mem_cons_iff] at h
      rw [tryAll_cons_neg ha]
      exact ih (h.resolve_left ha)

/-- Where an action leaves a trace, the two loops agree just on the tables that settle. -/
theorem tryAll_eq_takeFirst_iff :
    tryAll guard act table s = takeFirst guard act table s ↔ Settles guard act table s := by
  refine ⟨fun h => ?_, tryAll_of_settles⟩
  induction table with
  | nil => trivial
  | cons a rest ih =>
    refine ⟨fun ha => ?_, fun ha => ?_⟩
    · rw [tryAll_cons_pos ha, takeFirst_cons_pos ha] at h
      by_contra hlater
      push Not at hlater
      exact absurd (congrArg size h) (size_lt_tryAll size hsize hlater).ne'
    · rw [tryAll_cons_neg ha, takeFirst_cons_neg ha] at h
      exact ih h

end Measure

omit [∀ s a, Decidable (guard s a)] in
/-- A table settles where no entry leads to another one behind it. -/
theorem settles_of_pairwise (h : table.Pairwise fun a b => ∀ s, guard s a → ¬ guard (act s a) b) :
    Settles guard act table s := by
  induction table with
  | nil => trivial
  | cons a rest ih =>
    obtain ⟨hhead, htail⟩ := List.pairwise_cons.1 h
    exact ⟨fun ha b hb => hhead b hb s ha, fun _ => ih htail⟩

omit [∀ s a, Decidable (guard s a)] in
/-- Settling can be read off a view of the state that the guards and actions respect. -/
theorem settles_view {guard' : τ → α → Prop} {act' : τ → α → τ} (view : σ → τ)
    (hguard : ∀ s a, guard s a ↔ guard' (view s) a)
    (hact : ∀ s a, guard s a → view (act s a) = act' (view s) a) :
    Settles guard act table s ↔ Settles guard' act' table (view s) := by
  induction table with
  | nil => exact Iff.rfl
  | cons a rest ih =>
    simp only [Settles, hguard s a, ih]
    refine and_congr_left fun _ => forall_congr' fun ha => forall₂_congr fun b _ => ?_
    rw [hguard (act s a) b, hact s a ((hguard s a).2 ha)]

/-- So can what the first entry makes of the view. -/
theorem takeFirst_view {guard' : τ → α → Prop} [∀ s a, Decidable (guard' s a)]
    {act' : τ → α → τ} (view : σ → τ) (hguard : ∀ s a, guard s a ↔ guard' (view s) a)
    (hact : ∀ s a, guard s a → view (act s a) = act' (view s) a) :
    view (takeFirst guard act table s) = takeFirst guard' act' table (view s) := by
  induction table with
  | nil => rfl
  | cons a rest ih =>
    by_cases ha : guard s a
    · rw [takeFirst_cons_pos ha, takeFirst_cons_pos ((hguard s a).1 ha), hact s a ha]
    · rw [takeFirst_cons_neg ha, takeFirst_cons_neg (mt (hguard s a).2 ha), ih]

/-! ## Many events -/

/-- Two ways to handle an event agree all through a list of events just where they agree
on every event in the state it is met in. -/
theorem foldl_agree_iff (f g : σ → ε → σ) (evs : List ε) (s : σ) :
    (∀ pre, pre <+: evs → pre.foldl f s = pre.foldl g s) ↔
      ∀ pre e, pre ++ [e] <+: evs → f (pre.foldl g s) e = g (pre.foldl g s) e := by
  constructor
  · intro h pre e hpre
    have hbefore := h pre ((List.prefix_append pre [e]).trans hpre)
    have hafter := h (pre ++ [e]) hpre
    rw [List.foldl_concat, List.foldl_concat, hbefore] at hafter
    exact hafter
  · intro h pre
    induction pre using List.reverseRecOn with
    | nil => intro _; rfl
    | append_singleton pre e ih =>
      intro hpre
      rw [List.foldl_concat, List.foldl_concat, ih ((List.prefix_append pre [e]).trans hpre)]
      exact h pre e hpre

end Table
