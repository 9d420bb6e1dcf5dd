import Mathlib.Tactic

/-! Integers as bytes, the lowest first. -/

namespace LittleEndian

variable {b : UInt8} {bs : List UInt8}

/-- The number that bytes stand for. -/
def value (bs : List UInt8) : ℕ := Nat.ofDigits 256 (bs.map UInt8.toNat)

/-- The lowest bytes of an integer, in two's complement. -/
def bytes (k : ℕ) (n : ℤ) : List UInt8 := (List.range k).map fun i => UInt8.ofInt (n / 256 ^ i)

@[simp] theorem value_nil : value [] = 0 := rfl

@[simp] theorem value_cons (b : UInt8) (bs : List UInt8) :
    value (b :: bs) = b.toNat + 256 * value bs := by
  rw [value, List.map_cons, Nat.ofDigits_cons, value]

theorem value_concat (bs : List UInt8) (b : UInt8) :
    value (bs ++ [b]) = value bs + 256 ^ bs.length * b.toNat := by
  simp [value, Nat.ofDigits_append]

@[simp] theorem length_bytes (k : ℕ) (n : ℤ) : (bytes k n).length = k := by simp [bytes]

theorem toNat_ofInt (n : ℤ) : ((UInt8.ofInt n).toNat : ℤ) = n % 256 := by
  rw [UInt8.ofInt, UInt8.toNat_ofNat']
  omega

/-- As many bytes as there are tell a number apart. -/
theorem value_lt (bs : List UInt8) : value bs < 256 ^ bs.length := by
  have h := Nat.ofDigits_lt_base_pow_length (b := 256) (l := bs.map UInt8.toNat) (by decide)
    fun d hd => by
      obtain ⟨b, -, rfl⟩ := List.mem_map.1 hd
      exact b.toNat_lt
  rwa [List.length_map] at h

/-- The highest byte is below a bound just where the number is. -/
theorem value_concat_lt_iff (bs : List UInt8) (b : UInt8) (m : ℕ) :
    value (bs ++ [b]) < 256 ^ bs.length * m ↔ b.toNat < m := by
  have hlow := value_lt bs
  rw [value_concat]
  constructor
  · intro h
    exact Nat.lt_of_mul_lt_mul_left (lt_of_le_of_lt (Nat.le_add_left _ _) h)
  · intro h
    calc value bs + 256 ^ bs.length * b.toNat
        < 256 ^ bs.length + 256 ^ bs.length * b.toNat := Nat.add_lt_add_right hlow _
      _ = 256 ^ bs.length * (b.toNat + 1) := by ring
      _ ≤ 256 ^ bs.length * m := Nat.mul_le_mul_left _ h

/-- A remainder is found in two steps. -/
theorem emod_mul {p q : ℤ} (n : ℤ) (hp : 0 < p) (hq : 0 < q) :
    n % (p * q) = n % p + p * (n / p % q) := by
  have hlow := Int.emod_lt_of_pos n hp
  have hlow' := Int.emod_nonneg n hp.ne'
  have hhigh := Int.emod_lt_of_pos (n / p) hq
  have hhigh' := Int.emod_nonneg (n / p) hq.ne'
  have hle : p * (n / p % q) ≤ p * (q - 1) := Int.mul_le_mul_of_nonneg_left (by omega) hp.le
  have hsum : n % p + p * (n / p % q) + p * q * (n / p / q) = n := by
    calc n % p + p * (n / p % q) + p * q * (n / p / q)
        = n % p + p * (n / p % q + q * (n / p / q)) := by ring
      _ = n := by rw [Int.emod_add_mul_ediv, Int.emod_add_mul_ediv]
  refine ((Int.ediv_emod_unique (mul_pos hp hq)).2 ⟨hsum, ?_, ?_⟩).2
  · exact add_nonneg hlow' (mul_nonneg hp.le hhigh')
  · linarith

/-- The bytes of a number stand for it, as far as they go. -/
theorem value_bytes (k : ℕ) (n : ℤ) : (value (bytes k n) : ℤ) = n % 256 ^ k := by
  induction k with
  | zero => simp [bytes]
  | succ k ih =>
    have hbytes : bytes (k + 1) n = bytes k n ++ [UInt8.ofInt (n / 256 ^ k)] := by
      simp [bytes, List.range_succ]
    rw [hbytes, value_concat, Nat.cast_add, ih, length_bytes, Nat.cast_mul, toNat_ofInt,
      Nat.cast_pow, Nat.cast_ofNat, pow_succ, emod_mul n (by positivity) (by norm_num)]

end LittleEndian
