import Heaty.Lib.Framing
import Heaty.Spec.McuExchange

/-! What `uart_rx_handler` makes of a stream of characters. A full buffer starts
over at its first byte, so that of a frame the buffer cannot hold there remains
what is left after whole buffers were thrown away. That remainder is delivered
as if it were a frame of its own. -/

namespace Heaty.Mcu

open Framing

variable {B : ℕ}

/-! ## The buffer -/

/-- What the buffer holds of a frame: the bytes since it last overflowed. -/
def kept (B : ℕ) (frame : Bytes) : Bytes := frame.drop (frame.length / B * B)

theorem length_kept (frame : Bytes) : (kept B frame).length = frame.length % B := by
  have h := Nat.div_add_mod frame.length B
  rw [mul_comm] at h
  rw [kept, List.length_drop]
  omega

theorem kept_of_lt {frame : Bytes} (h : frame.length < B) : kept B frame = frame := by
  rw [kept, Nat.div_eq_of_lt h, zero_mul, List.drop_zero]

theorem kept_snoc (hB : 0 < B) (frame : Bytes) (c : UInt8) :
    kept B (frame ++ [c]) = if frame.length % B + 1 = B then [] else kept B frame ++ [c] := by
  have hmod := Nat.mod_lt frame.length hB
  have hdiv := Nat.div_add_mod frame.length B
  rw [mul_comm] at hdiv
  rw [kept, List.length_append, List.length_singleton]
  split_ifs with h
  · have hnext : (frame.length + 1) / B = frame.length / B + 1 :=
      Nat.div_eq_of_lt_le (by rw [add_mul]; omega) (by rw [add_mul, add_mul]; omega)
    rw [hnext, List.drop_eq_nil_iff, List.length_append, List.length_singleton, add_mul]
    omega
  · have hsame : (frame.length + 1) / B = frame.length / B :=
      Nat.div_eq_of_lt_le (by omega) (by rw [add_mul]; omega)
    rw [hsame, List.drop_append_of_le_length (by omega), kept]

/-- The handler's state after the bytes `cur` of an unfinished frame. -/
structure Holds (B : ℕ) (rx : Rx) (cur : Bytes) : Prop where
  size : rx.uartBuf.length = B
  pos : rx.bufPos = cur.length % B
  held : rx.uartBuf.take rx.bufPos = kept B cur

theorem Holds.start : Holds B (Rx.start B) [] :=
  ⟨by simp [Rx.start], by simp [Rx.start], by simp [Rx.start, kept]⟩

theorem Holds.bufPos_lt {rx : Rx} {cur : Bytes} (h : Holds B rx cur) (hB : 0 < B) :
    rx.bufPos < B := by
  rw [h.pos]
  exact Nat.mod_lt _ hB

theorem take_set_succ {buf : Bytes} {pos : ℕ} (c : UInt8) (h : pos < buf.length) :
    (buf.set pos c).take (pos + 1) = buf.take pos ++ [c] := by
  rw [List.take_add_one, List.take_set_of_le le_rfl]
  simp [h]

theorem Holds.char {rx : Rx} {cur : Bytes} (h : Holds B rx cur) (hB : 0 < B) {c : UInt8}
    (hc : c ≠ 0) (garbage : Bool) :
    (uartRxHandler rx garbage c).2 = none ∧
      Holds B (uartRxHandler rx garbage c).1 (cur ++ [c]) := by
  have hlt := h.bufPos_lt hB
  have hsize := h.size
  have hpos := h.pos
  have hkept := kept_snoc hB cur c
  simp only [uartRxHandler, if_neg hc, List.length_set, hsize]
  split_ifs with hfull
  · refine ⟨rfl, by simp [hsize], ?_, ?_⟩
    · have hlen := length_kept (B := B) (cur ++ [c])
      rw [hkept, if_pos (by omega)] at hlen
      exact hlen
    · rw [hkept, if_pos (by omega), List.take_zero]
  · refine ⟨rfl, by simp [hsize], ?_, ?_⟩
    · have hlen := length_kept (B := B) (cur ++ [c])
      rw [hkept, if_neg (by omega), List.length_append, List.length_singleton, length_kept] at hlen
      simp only [← hlen, hpos]
    · rw [hkept, if_neg (by omega), take_set_succ c (by omega), h.held]

/-- The terminator delivers what was kept, if anything. -/
theorem Holds.terminator {rx : Rx} {cur : Bytes} (h : Holds B rx cur) (hB : 0 < B)
    (garbage : Bool) :
    (uartRxHandler rx garbage 0).2 =
        (if B ∣ cur.length then none else some ⟨.dataReady, garbage, kept B cur ++ [0]⟩) ∧
      Holds B (uartRxHandler rx garbage 0).1 [] := by
  have hlt := h.bufPos_lt hB
  have hsize := h.size
  simp only [uartRxHandler, if_true]
  refine ⟨?_, by simp [hsize], by simp, by simp [kept]⟩
  rw [take_set_succ 0 (by omega), h.held, h.pos]
  simp only [Nat.dvd_iff_mod_eq_zero]

/-! ## Streams -/

def payloads (events : List ModuleEvent) : List (EventType × Bytes) :=
  events.map fun e => (e.type, e.data)

/-- The events of a stream, and the buffer after it: each frame that does not fill
whole buffers delivers what was kept of it. -/
theorem isr_spec (hB : 0 < B) (input : List (UInt8 × Bool)) :
    ∀ (rx : Rx) (cur : Bytes), Holds B rx cur →
      payloads (isr rx input).2 = ((frames 0 cur (input.map Prod.fst)).filter fun f =>
          ¬ B ∣ f.length).map (fun f => (.dataReady, kept B f ++ [0])) ∧
        Holds B (isr rx input).1 (pending 0 cur (input.map Prod.fst)) := by
  induction input with
  | nil => exact fun rx cur h => ⟨rfl, h⟩
  | cons p rest ih =>
    intro rx cur h
    obtain ⟨c, garbage⟩ := p
    simp only [isr, List.map_cons, frames, pending, payloads, List.map_append]
    split_ifs with hc
    · subst hc
      obtain ⟨hevent, hnext⟩ := h.terminator hB garbage
      obtain ⟨hrest, hholds⟩ := ih _ _ hnext
      refine ⟨?_, hholds⟩
      rw [payloads] at hrest
      rw [hrest, hevent]
      by_cases hdvd : B ∣ cur.length <;> simp [hdvd]
    · obtain ⟨hevent, hnext⟩ := h.char hB hc garbage
      obtain ⟨hrest, hholds⟩ := ih _ _ hnext
      refine ⟨?_, hholds⟩
      rw [payloads] at hrest
      rw [hrest, hevent]
      rfl

theorem isr_messages (hB : 0 < B) {texts : List Bytes}
    (htexts : ∀ t ∈ texts, 0 ∉ t ∧ t ≠ [] ∧ t.length < B) {input : List (UInt8 × Bool)}
    (hinput : input.map Prod.fst = texts.flatMap (· ++ [0])) :
    payloads (isr (Rx.start B) input).2 = texts.map fun t => (.dataReady, t ++ [0]) := by
  obtain ⟨hevents, -⟩ := isr_spec hB input _ _ Holds.start
  have hshort : ∀ t ∈ texts, decide (¬ B ∣ t.length) = true := by
    intro t ht
    obtain ⟨-, hne, hlt⟩ := htexts t ht
    have hpos := List.length_pos_iff.2 hne
    exact decide_eq_true (Nat.not_dvd_of_pos_of_lt hpos hlt)
  rw [hevents, hinput, frames_flatMap fun t ht => (htexts t ht).1, List.filter_eq_self.2 hshort]
  refine List.map_congr_left fun t ht => ?_
  rw [kept_of_lt (htexts t ht).2.2]

/-- The frames of a stream that fit into the buffer with their terminator. -/
def fitting (B : ℕ) (stream : Bytes) : List Bytes :=
  (frames 0 [] stream).filter fun f => f ≠ [] ∧ f.length ≤ B - 1

/-- The events of a stream are exactly its fitting frames, each with its terminator,
and every character is stored inside the buffer. -/
structure Delivers (B : ℕ) (input : List (UInt8 × Bool)) : Prop where
  events : payloads (isr (Rx.start B) input).2 =
    (fitting B (input.map Prod.fst)).map fun f => (.dataReady, f ++ [0])
  inside : ∀ pre, pre <+: input →
    (isr (Rx.start B) pre).1.uartBuf.length = B ∧ (isr (Rx.start B) pre).1.bufPos < B

/-- A filter that keeps as many elements as a weaker one keeps the same. -/
theorem filter_agrees {α : Type*} {p q : α → Bool} (hpq : ∀ a, p a → q a) {l : List α}
    (h : (l.filter p).length = (l.filter q).length) : ∀ a ∈ l, q a → p a := by
  have hsame : (l.filter q).filter p = l.filter p := by
    rw [List.filter_filter]
    refine List.filter_congr fun a _ => ?_
    cases hp : p a with
    | false => rfl
    | true => simp [hpq a hp]
  have hall := List.length_filter_eq_length_iff.1 (hsame ▸ h)
  exact fun a ha hq => hall a (List.mem_filter.2 ⟨ha, hq⟩)

theorem not_dvd_of_fits {f : Bytes} (hne : f ≠ []) (hle : f.length ≤ B - 1) : ¬ B ∣ f.length := by
  have hpos := List.length_pos_iff.2 hne
  intro hdvd
  have := Nat.le_of_dvd hpos hdvd
  omega

/-- The frames of a stream are delivered as they should be exactly when none of
those too long for the buffer leaves a remainder in it. -/
theorem uartRxHandler_delivers_iff (hB : 2 ≤ B) (input : List (UInt8 × Bool)) :
    Delivers B input ↔
      ∀ f ∈ frames 0 [] (input.map Prod.fst), f.length < B ∨ B ∣ f.length := by
  obtain ⟨hevents, -⟩ := isr_spec (by omega) input _ _ (Holds.start (B := B))
  constructor
  · rintro ⟨hdeliver, -⟩ f hf
    rw [hevents] at hdeliver
    have hlen := congrArg List.length hdeliver
    simp only [List.length_map] at hlen
    -- more frames are delivered than fit unless every delivered one fits
    have hagree := filter_agrees (fun f hf => ?_) hlen.symm f hf
    · by_contra hlong
      push Not at hlong
      have hfits := hagree (by simpa using hlong.2)
      simp only [ne_eq, decide_eq_true_eq] at hfits
      omega
    · simp only [ne_eq, decide_eq_true_eq] at hf
      simpa using not_dvd_of_fits hf.1 hf.2
  · intro hall
    refine ⟨?_, fun pre _ => ?_⟩
    · rw [hevents, fitting]
      have hsame : ∀ f ∈ frames 0 [] (input.map Prod.fst),
          decide (¬ B ∣ f.length) = decide (f ≠ [] ∧ f.length ≤ B - 1) := by
        intro f hf
        rw [decide_eq_decide]
        constructor
        · intro hdvd
          have hlt := (hall f hf).resolve_right hdvd
          refine ⟨?_, by omega⟩
          rintro rfl
          exact hdvd (dvd_zero B)
        · exact fun h => not_dvd_of_fits h.1 h.2
      rw [List.filter_congr hsame]
      refine List.map_congr_left fun f hf => ?_
      have hfits := (List.mem_filter.1 hf).2
      simp only [ne_eq, decide_eq_true_eq] at hfits
      rw [kept_of_lt (by omega)]
    · obtain ⟨-, hholds⟩ := isr_spec (by omega) pre _ _ (Holds.start (B := B))
      exact ⟨hholds.size, hholds.bufPos_lt (by omega)⟩

/-- Three payload bytes, an empty frame, one byte, and a frame of one whole buffer. -/
theorem uartRxHandler_delivers_short :
    Delivers 4 [(97, true), (98, false), (99, true), (0, true), (0, false), (100, true), (0, false),
      (97, true), (98, true), (99, true), (100, true), (0, true)] :=
  (uartRxHandler_delivers_iff (by decide) _).2 (by decide)

/-- The fifth byte of an over-long frame starts the buffer over and is delivered. -/
theorem uartRxHandler_delivers_tail :
    payloads (isr (Rx.start 4) [(97, false), (98, false), (99, false), (100, false), (101, false),
        (0, false)]).2 = [(.dataReady, [101, 0])] ∧
      ¬ Delivers 4 [(97, false), (98, false), (99, false), (100, false), (101, false),
        (0, false)] := by
  have hevents : payloads (isr (Rx.start 4) [(97, false), (98, false), (99, false), (100, false),
      (101, false), (0, false)]).2 = [(.dataReady, [101, 0])] := by decide
  refine ⟨hevents, fun hdeliver => ?_⟩
  have hevents' := hdeliver.events
  rw [hevents] at hevents'
  exact absurd hevents' (by decide)

end Heaty.Mcu
