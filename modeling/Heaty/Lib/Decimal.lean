import Mathlib.Tactic

/-! Decimal numbers as byte texts: the conversions `%d`, `%u` and their
zero-padded forms, and a reader for them. -/

namespace Decimal

/-- The digits of a natural number, without leading zeros. -/
def digits (n : ℕ) : List UInt8 := (Nat.toDigits 10 n).map fun c => UInt8.ofNat c.toNat

def isDigit (c : UInt8) : Bool := 48 ≤ c ∧ c ≤ 57

/-- The number a text of digits stands for. -/
def value (text : List UInt8) : ℕ := text.foldl (fun acc c => 10 * acc + (c.toNat - 48)) 0

theorem digits_ne_nil (n : ℕ) : digits n ≠ [] := by
  simp [digits]

theorem toNat_of_isDigit {c : Char} (h : c.isDigit) :
    (UInt8.ofNat c.toNat).toNat = c.toNat ∧ 48 ≤ c.toNat ∧ c.toNat ≤ 57 := by
  obtain ⟨hlo, hhi⟩ := Char.isDigit_iff_toNat.1 h
  have hlo' : 48 ≤ c.toNat := hlo
  have hhi' : c.toNat ≤ 57 := hhi
  refine ⟨?_, hlo', hhi'⟩
  rw [UInt8.toNat_ofNat']
  omega

theorem isDigit_of_mem {n : ℕ} {c : UInt8} (h : c ∈ digits n) : isDigit c = true := by
  obtain ⟨d, hd, rfl⟩ := List.mem_map.1 h
  obtain ⟨htoNat, hlo, hhi⟩ :=
    toNat_of_isDigit (Nat.isDigit_of_mem_toDigits (by decide) (by decide) hd)
  simp only [isDigit, UInt8.le_iff_toNat_le, htoNat, decide_eq_true_eq]
  exact ⟨hlo, hhi⟩

theorem value_digits (n : ℕ) : value (digits n) = n := by
  have hfold : ∀ (l : List Char) (acc : ℕ), (∀ c ∈ l, c.isDigit) →
      (l.map fun c => UInt8.ofNat c.toNat).foldl (fun acc c => 10 * acc + (c.toNat - 48)) acc =
        Nat.ofDigitChars 10 l acc := by
    intro l
    induction l with
    | nil => simp
    | cons c l ih =>
      intro acc hl
      simp only [List.forall_mem_cons] at hl
      rw [List.map_cons, List.foldl_cons, ih _ hl.2, Nat.ofDigitChars_cons,
        (toNat_of_isDigit hl.1).1]
      rfl
  have hdigits : ∀ c ∈ Nat.toDigits 10 n, c.isDigit := fun c hc =>
    Nat.isDigit_of_mem_toDigits (by decide) (by decide) hc
  rw [value, digits, hfold _ _ hdigits, Nat.ofDigitChars_ten_toDigits]

theorem length_digits_le {n k : ℕ} (hk : 0 < k) (h : n < 10 ^ k) : (digits n).length ≤ k := by
  rw [digits, List.length_map]
  exact (Nat.length_toDigits_le_iff (by decide) hk).2 h

/-- `%d`. -/
def int (z : ℤ) : List UInt8 := if z < 0 then 45 :: digits z.natAbs else digits z.natAbs

theorem mem_int {z : ℤ} {c : UInt8} (h : c ∈ int z) : c = 45 ∨ isDigit c = true := by
  unfold int at h
  split_ifs at h
  · exact (List.mem_cons.1 h).imp_right isDigit_of_mem
  · exact Or.inr (isDigit_of_mem h)

/-- `%0wu`. -/
def padded (w n : ℕ) : List UInt8 := List.replicate (w - (digits n).length) 48 ++ digits n

/-- `%0wd`. -/
def paddedInt (w : ℕ) (z : ℤ) : List UInt8 :=
  if z < 0 then 45 :: padded (w - 1) z.natAbs else padded w z.natAbs

theorem length_padded {w n : ℕ} (hw : 0 < w) (h : n < 10 ^ w) : (padded w n).length = w := by
  have hle := length_digits_le hw h
  simp only [padded, List.length_append, List.length_replicate]
  omega

theorem length_padded_le {w n k : ℕ} (hk : 0 < k) (hwk : w ≤ k) (h : n < 10 ^ k) :
    (padded w n).length ≤ k := by
  have hle := length_digits_le hk h
  simp only [padded, List.length_append, List.length_replicate]
  omega

theorem isDigit_of_mem_padded {w n : ℕ} {c : UInt8} (h : c ∈ padded w n) : isDigit c = true := by
  rcases List.mem_append.1 h with h | h
  · rw [List.eq_of_mem_replicate h]
    decide
  · exact isDigit_of_mem h

theorem value_padded (w n : ℕ) : value (padded w n) = n := by
  have hzeros : ∀ k, (List.replicate k (48 : UInt8)).foldl
      (fun acc c => 10 * acc + (c.toNat - 48)) 0 = 0 := by
    intro k
    induction k with
    | zero => rfl
    | succ k ih => rw [List.replicate_succ, List.foldl_cons]; exact ih
  have h := value_digits n
  rw [value] at h
  rw [value, padded, List.foldl_append, hzeros, h]

/-- A padded text determines its number. -/
theorem padded_injective (w : ℕ) : Function.Injective (padded w) := by
  intro m n h
  rw [← value_padded w m, h, value_padded]

/-! ## Reading -/

/-- Read the digits at the start of a text. -/
def readNat (text : List UInt8) : Option (ℕ × List UInt8) :=
  let ds := text.takeWhile isDigit
  if ds = [] then none else some (value ds, text.dropWhile isDigit)

/-- What follows a number does not continue it. -/
def Stops (rest : List UInt8) : Prop := ∀ c tail, rest = c :: tail → isDigit c = false

theorem takeWhile_digits {ds rest : List UInt8} (hds : ∀ c ∈ ds, isDigit c = true)
    (hrest : Stops rest) :
    (ds ++ rest).takeWhile isDigit = ds ∧ (ds ++ rest).dropWhile isDigit = rest := by
  induction ds with
  | nil =>
    cases rest with
    | nil => simp
    | cons c tail => simp [hrest c tail rfl]
  | cons d ds ih =>
    simp only [List.forall_mem_cons] at hds
    simp [hds.1, ih hds.2]

theorem readNat_digits (n : ℕ) {rest : List UInt8} (h : Stops rest) :
    readNat (digits n ++ rest) = some (n, rest) := by
  have hds : ∀ c ∈ digits n, isDigit c = true := fun c hc => isDigit_of_mem hc
  obtain ⟨htake, hdrop⟩ := takeWhile_digits hds h
  simp only [readNat, htake, hdrop, digits_ne_nil, if_false, value_digits]

def readInt (text : List UInt8) : Option (ℤ × List UInt8) :=
  match text with
  | 45 :: rest => (readNat rest).map fun r => (-(r.1 : ℤ), r.2)
  | _ => (readNat text).map fun r => ((r.1 : ℤ), r.2)

theorem readInt_int (z : ℤ) {rest : List UInt8} (h : Stops rest) :
    readInt (int z ++ rest) = some (z, rest) := by
  by_cases hz : z < 0
  · simp only [int, if_pos hz, List.cons_append, readInt, readNat_digits _ h, Option.map_some,
      Option.some.injEq, Prod.mk.injEq, and_true]
    omega
  · have hne : ∀ tail, digits z.natAbs ++ rest ≠ 45 :: tail := by
      intro tail he
      cases hd : digits z.natAbs with
      | nil => exact digits_ne_nil _ hd
      | cons c ds =>
        have hc : isDigit c = true := isDigit_of_mem (hd ▸ List.mem_cons_self)
        rw [hd, List.cons_append, List.cons.injEq] at he
        rw [he.1] at hc
        exact absurd hc (by decide)
    rw [int, if_neg hz, readInt.eq_2 _ hne, readNat_digits _ h]
    simp only [Option.map_some, Option.some.injEq, Prod.mk.injEq, and_true]
    omega

end Decimal
