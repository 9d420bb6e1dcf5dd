import Mathlib.Tactic

/-! Base64 with the standard alphabet and mandatory padding, over byte lists.
Texts are lists of character codes. The concatenation rule at the end is the
one a sender needs that encodes a long payload piece by piece. -/

namespace Base64

/-- The padding character. -/
def pad : UInt8 := 61

/-- The character of a six-bit value. -/
def char (v : ℕ) : UInt8 :=
  if v < 26 then UInt8.ofNat (v + 65)
  else if v < 52 then UInt8.ofNat (v + 71)
  else if v < 62 then UInt8.ofNat (v - 4)
  else if v = 62 then 43
  else 47

/-- The six-bit value of a character, if it is in the alphabet. -/
def value (c : UInt8) : Option ℕ :=
  if 65 ≤ c ∧ c ≤ 90 then some (c.toNat - 65)
  else if 97 ≤ c ∧ c ≤ 122 then some (c.toNat - 71)
  else if 48 ≤ c ∧ c ≤ 57 then some (c.toNat + 4)
  else if c = 43 then some 62
  else if c = 47 then some 63
  else none

theorem value_char : ∀ v : Fin 64, value (char v) = some v.val := by decide

theorem value_char_of_lt {v : ℕ} (h : v < 64) : value (char v) = some v :=
  value_char ⟨v, h⟩

/-- Three bytes as one 24-bit number. -/
def word (a b c : UInt8) : ℕ := a.toNat * 65536 + b.toNat * 256 + c.toNat

def encode : List UInt8 → List UInt8
  | [] => []
  | [a] => [char (word a 0 0 / 262144), char (word a 0 0 / 4096 % 64), pad, pad]
  | [a, b] =>
      [char (word a b 0 / 262144), char (word a b 0 / 4096 % 64), char (word a b 0 / 64 % 64), pad]
  | a :: b :: c :: rest =>
      char (word a b c / 262144) :: char (word a b c / 4096 % 64) ::
        char (word a b c / 64 % 64) :: char (word a b c % 64) :: encode rest

/-- Decode a text of whole quadruples whose padding, if any, is at its end. -/
def decode : List UInt8 → Option (List UInt8)
  | [] => some []
  | w :: x :: y :: z :: rest =>
      match value w, value x, value y, value z with
      | some w', some x', some y', some z' =>
          let n := w' * 262144 + x' * 4096 + y' * 64 + z'
          (decode rest).map fun bs =>
            UInt8.ofNat (n / 65536) :: UInt8.ofNat (n / 256 % 256) :: UInt8.ofNat (n % 256) :: bs
      | some w', some x', some y', none =>
          let n := w' * 262144 + x' * 4096 + y' * 64
          if z = pad ∧ rest = [] then
            some [UInt8.ofNat (n / 65536), UInt8.ofNat (n / 256 % 256)]
          else none
      | some w', some x', none, none =>
          let n := w' * 262144 + x' * 4096
          if y = pad ∧ z = pad ∧ rest = [] then some [UInt8.ofNat (n / 65536)] else none
      | _, _, _, _ => none
  | _ => none

theorem value_pad : value pad = none := by decide

theorem word_lt (a b c : UInt8) : word a b c < 16777216 := by
  have ha := a.toNat_lt
  have hb := b.toNat_lt
  have hc := c.toNat_lt
  unfold word
  omega

/-- The four six-bit digits of a number put it together again. -/
theorem digits_sum (n : ℕ) :
    n / 262144 * 262144 + n / 4096 % 64 * 4096 + n / 64 % 64 * 64 + n % 64 = n := by
  omega

theorem digits_sum_three {n : ℕ} (h : n % 64 = 0) :
    n / 262144 * 262144 + n / 4096 % 64 * 4096 + n / 64 % 64 * 64 = n := by
  omega

theorem digits_sum_two {n : ℕ} (h : n % 4096 = 0) :
    n / 262144 * 262144 + n / 4096 % 64 * 4096 = n := by
  omega

theorem word_mod_two (a b : UInt8) : word a b 0 % 64 = 0 := by
  simp only [word, UInt8.toNat_zero]
  omega

theorem word_mod_one (a : UInt8) : word a 0 0 % 4096 = 0 := by
  simp only [word, UInt8.toNat_zero]
  omega

theorem word_first (a b c : UInt8) : UInt8.ofNat (word a b c / 65536) = a := by
  have hb := b.toNat_lt
  have hc := c.toNat_lt
  have h : word a b c / 65536 = a.toNat := by unfold word; omega
  rw [h, UInt8.ofNat_toNat]

theorem word_second (a b c : UInt8) : UInt8.ofNat (word a b c / 256 % 256) = b := by
  have hb := b.toNat_lt
  have hc := c.toNat_lt
  have h : word a b c / 256 % 256 = b.toNat := by unfold word; omega
  rw [h, UInt8.ofNat_toNat]

theorem word_third (a b c : UInt8) : UInt8.ofNat (word a b c % 256) = c := by
  have hc := c.toNat_lt
  have h : word a b c % 256 = c.toNat := by unfold word; omega
  rw [h, UInt8.ofNat_toNat]

theorem digits_lt (a b c : UInt8) :
    word a b c / 262144 < 64 ∧ word a b c / 4096 % 64 < 64 ∧ word a b c / 64 % 64 < 64 ∧
      word a b c % 64 < 64 := by
  have := word_lt a b c
  omega

theorem decode_encode (bs : List UInt8) : decode (encode bs) = some bs := by
  induction bs using encode.induct with
  | case1 => rfl
  | case2 a =>
    obtain ⟨h1, h2, -, -⟩ := digits_lt a 0 0
    simp only [encode, decode, value_char_of_lt h1, value_char_of_lt h2, value_pad, and_self,
      if_true, digits_sum_two (word_mod_one a), word_first]
  | case3 a b =>
    obtain ⟨h1, h2, h3, -⟩ := digits_lt a b 0
    simp only [encode, decode, value_char_of_lt h1, value_char_of_lt h2, value_char_of_lt h3,
      value_pad, and_self, if_true, digits_sum_three (word_mod_two a b), word_first, word_second]
  | case4 a b c rest ih =>
    obtain ⟨h1, h2, h3, h4⟩ := digits_lt a b c
    simp only [encode, decode, value_char_of_lt h1, value_char_of_lt h2, value_char_of_lt h3,
      value_char_of_lt h4, ih, Option.map_some, digits_sum, word_first, word_second, word_third]

theorem encode_length (bs : List UInt8) : (encode bs).length = 4 * ((bs.length + 2) / 3) := by
  induction bs using encode.induct with
  | case1 => rfl
  | case2 a => simp [encode]
  | case3 a b => simp [encode]
  | case4 a b c rest ih =>
    simp only [encode, List.length_cons, ih]
    omega

/-- A piece of whole triples is encoded without padding, so its text can be
followed by the text of the next piece. -/
theorem encode_append (as bs : List UInt8) (h : 3 ∣ as.length) :
    encode (as ++ bs) = encode as ++ encode bs := by
  induction as using encode.induct with
  | case1 => rfl
  | case2 a => simp at h
  | case3 a b =>
    simp only [List.length_cons, List.length_nil] at h
    omega
  | case4 a b c rest ih =>
    have h' : 3 ∣ rest.length := by simp only [List.length_cons] at h; omega
    simp only [List.cons_append, encode, ih h']

/-- What holds of the padding and of the alphabet holds of every character of a
text. -/
theorem forall_mem_encode {P : UInt8 → Prop} (hpad : P pad) (hchar : ∀ v : Fin 64, P (char v))
    (bs : List UInt8) : ∀ c ∈ encode bs, P c := by
  have hlt {v : ℕ} (h : v < 64) : P (char v) := hchar ⟨v, h⟩
  induction bs using encode.induct with
  | case1 => simp [encode]
  | case2 a =>
    obtain ⟨h1, h2, -, -⟩ := digits_lt a 0 0
    simp only [encode, List.forall_mem_cons]
    exact ⟨hlt h1, hlt h2, hpad, hpad, by simp⟩
  | case3 a b =>
    obtain ⟨h1, h2, h3, -⟩ := digits_lt a b 0
    simp only [encode, List.forall_mem_cons]
    exact ⟨hlt h1, hlt h2, hlt h3, hpad, by simp⟩
  | case4 a b c rest ih =>
    obtain ⟨h1, h2, h3, h4⟩ := digits_lt a b c
    simp only [encode, List.forall_mem_cons]
    exact ⟨hlt h1, hlt h2, hlt h3, hlt h4, ih⟩

theorem zero_notMem_encode (bs : List UInt8) : 0 ∉ encode bs := by
  intro h
  exact forall_mem_encode (P := (· ≠ 0)) (by decide) (by decide) bs 0 h rfl

theorem pad_notMem_encode {bs : List UInt8} (h : 3 ∣ bs.length) : pad ∉ encode bs := by
  have hchar : ∀ v : Fin 64, pad ≠ char v := by decide
  have hlt {v : ℕ} (hv : v < 64) : pad ≠ char v := hchar ⟨v, hv⟩
  induction bs using encode.induct with
  | case1 => simp [encode]
  | case2 a => simp at h
  | case3 a b =>
    simp only [List.length_cons, List.length_nil] at h
    omega
  | case4 a b c rest ih =>
    have h' : 3 ∣ rest.length := by simp only [List.length_cons] at h; omega
    obtain ⟨h1, h2, h3, h4⟩ := digits_lt a b c
    simp only [encode, List.mem_cons, not_or]
    exact ⟨hlt h1, hlt h2, hlt h3, hlt h4, ih h'⟩

end Base64
