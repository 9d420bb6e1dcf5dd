import Heaty.Spec.TimeService

/-! The device sets the time that the companion has sent. -/

namespace Heaty.Time

open LittleEndian (value)

variable {buf : Bytes} {i : ℕ} {val v : ℤ}

theorem value_drop (h : i < buf.length) :
    (value (buf.drop i) : ℤ) = (buf.getD i 0).toNat + 256 * value (buf.drop (i + 1)) := by
  have hget : buf.getD i 0 = buf[i] := by simp [h]
  rw [List.drop_eq_getElem_cons h, LittleEndian.value_cons, hget]
  push_cast
  rfl

/-- The loop goes from the bytes above an index to those above the lowest one. -/
theorem setTimeLoop_value (h : i < buf.length) :
    (setTimeLoop buf i (256 * value (buf.drop (i + 1)))).1 = 256 * value (buf.drop 1) := by
  induction i with
  | zero => rfl
  | succ i ih =>
    have hadded := value_drop h
    rw [setTimeLoop]
    dsimp only
    rw [add_comm, ← hadded, mul_comm]
    exact ih (Nat.lt_of_succ_lt h)

theorem setTimeLoop_grows (buf : Bytes) (i : ℕ) (hval : 0 ≤ val) :
    val ≤ (setTimeLoop buf i val).1 ∧
      ∀ v ∈ (setTimeLoop buf i val).2, 0 ≤ v ∧ v ≤ (setTimeLoop buf i val).1 := by
  induction i generalizing val with
  | zero => exact ⟨le_refl _, by simp [setTimeLoop]⟩
  | succ i ih =>
    simp only [setTimeLoop]
    have hadded : val ≤ val + (buf.getD (i + 1) 0).toNat := by omega
    have hshifted :
        val + (buf.getD (i + 1) 0).toNat ≤ (val + (buf.getD (i + 1) 0).toNat) * 256 := by omega
    obtain ⟨hgrows, hvalues⟩ :=
      @ih ((val + (buf.getD (i + 1) 0).toNat) * 256) (by omega)
    refine ⟨by omega, ?_⟩
    rw [List.forall_mem_cons, List.forall_mem_cons]
    exact ⟨by omega, by omega, hvalues⟩

theorem setTimeLoop_eight (h : buf.length = 8) :
    (setTimeLoop buf 7 0).1 + (buf.getD 0 0).toNat = value buf := by
  have hseven : 7 < buf.length := by omega
  have hzero : 0 < buf.length := by omega
  have hloop := setTimeLoop_value hseven
  have hempty : buf.drop 8 = [] := List.drop_eq_nil_of_le (by omega)
  rw [hempty, LittleEndian.value_nil, Nat.cast_zero, mul_zero] at hloop
  have hfirst := value_drop hzero
  rw [List.drop_zero] at hfirst
  rw [hloop, hfirst, add_comm]

theorem writeSetTime_eight (h : buf.length = 8) :
    (writeSetTime true buf).called = some (value buf : ℤ) := by
  simp only [writeSetTime, h, and_self, if_true, setTimeLoop_eight h]

theorem writeSetTime_values (h : buf.length = 8) :
    ∀ v ∈ (writeSetTime true buf).values, 0 ≤ v ∧ v ≤ value buf := by
  obtain ⟨hgrows, hvalues⟩ := setTimeLoop_grows buf 7 (le_refl 0)
  have hval := setTimeLoop_eight h
  simp only [writeSetTime, h, and_self, if_true, List.cons_append, List.forall_mem_cons,
    List.forall_mem_append]
  refine ⟨by omega, fun v hv => ?_, by omega, by simp⟩
  have hv := hvalues v hv
  omega

theorem last_mem_values (h : buf.length = 8) :
    (value buf : ℤ) ∈ (writeSetTime true buf).values := by
  simp only [writeSetTime, h, and_self, if_true, setTimeLoop_eight h]
  exact List.mem_append_right _ (List.mem_singleton_self _)

/-- `val` stays in its range just where the highest byte has no sign bit. -/
theorem writeSetTime_inRange_iff (low : Bytes) (high : UInt8) (h : low.length = 7) :
    (∀ v ∈ (writeSetTime true (low ++ [high])).values, IsInt64 v) ↔ high.toNat < 128 := by
  have hlength : (low ++ [high]).length = 8 := by simp [h]
  have hhigh := LittleEndian.value_concat_lt_iff low high 128
  rw [h] at hhigh
  rw [← hhigh]
  constructor
  · intro hrange
    have hlast := (hrange _ (last_mem_values hlength)).2
    omega
  · intro hlt v hv
    have hv := writeSetTime_values hlength v hv
    exact ⟨by omega, by omega⟩

theorem value_setTimeBytes {timestamp : ℤ} (hlo : 0 ≤ timestamp) (hhi : IsInt64 timestamp) :
    (value (setTimeBytes timestamp) : ℤ) = timestamp := by
  rw [setTimeBytes, LittleEndian.value_bytes]
  exact Int.emod_eq_of_lt hlo (hhi.2.trans (by norm_num))

/-- A time that is not negative arrives as it was sent, in range all the way, and a buffer
of another length sets none. -/
theorem writeSetTime_setTime (setTimeCb : Bool) :
    (∀ timestamp, 0 ≤ timestamp → IsInt64 timestamp →
      (writeSetTime setTimeCb (setTimeBytes timestamp)).called =
          (if setTimeCb then some timestamp else none) ∧
        ∀ v ∈ (writeSetTime setTimeCb (setTimeBytes timestamp)).values, IsInt64 v) ∧
      ∀ buf, buf.length ≠ 8 → (writeSetTime setTimeCb buf).called = none := by
  refine ⟨fun timestamp hlo hhi => ?_, fun buf hbuf => by simp [writeSetTime, hbuf]⟩
  cases setTimeCb with
  | false => simp [writeSetTime]
  | true =>
    have hlength : (setTimeBytes timestamp).length = 8 := LittleEndian.length_bytes 8 timestamp
    have hvalue := value_setTimeBytes hlo hhi
    refine ⟨?_, fun v hv => ?_⟩
    · rw [writeSetTime_eight hlength, hvalue, if_pos rfl]
    · have hv := writeSetTime_values hlength v hv
      rw [hvalue] at hv
      exact ⟨by omega, hv.2.trans_lt hhi.2⟩

/-- The time of a summer evening in 2022. -/
theorem writeSetTime_setTime_evening :
    (writeSetTime true (setTimeBytes 1660000000)).called = some 1660000000 :=
  ((writeSetTime_setTime true).1 1660000000 (by decide) (by decide)).1

end Heaty.Time
