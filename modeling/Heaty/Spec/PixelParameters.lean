import Mathlib.Tactic
import Heaty.Spec.Mlx90640

/-! `ExtractKtaPixelParameters` and `ExtractKvPixelParameters` of MLX90640_API.cpp: the
coefficients of the pixels are read from the EEPROM and scaled so that they are stored in
`int8_t`. They have few enough bits that every `float` of it is exact. -/

namespace Heaty.Mlx90640

/-- The bits of a word from `shift` on, `bits` of them, with a sign. -/
def signedField (word shift bits : ℕ) : ℤ :=
  let field : ℤ := word / 2 ^ shift % 2 ^ bits
  if field > 2 ^ (bits - 1) - 1 then field - 2 ^ bits else field

/-- `split`: which of the four coefficients a pixel has by its line and column. -/
def split (p : ℕ) : ℕ := 2 * (p / 32 - p / 64 * 2) + p % 2

/-- `KtaRC`. -/
def ktaRC (eeData : ℕ → ℕ) : ℕ → ℤ
  | 0 => signedField (eeData 54) 8 8
  | 1 => signedField (eeData 55) 8 8
  | 2 => signedField (eeData 54) 0 8
  | _ => signedField (eeData 55) 0 8

/-- `ktaTemp`. -/
def ktaTemp (eeData : ℕ → ℕ) (p : ℕ) : ℚ :=
  let ktaScale1 := eeData 56 / 2 ^ 4 % 2 ^ 4 + 8
  let ktaScale2 := eeData 56 % 2 ^ 4
  (ktaRC eeData (split p) + signedField (eeData (64 + p)) 1 3 * 2 ^ ktaScale2) / 2 ^ ktaScale1

/-- `KvT`. -/
def kvT (eeData : ℕ → ℕ) : ℕ → ℤ
  | 0 => signedField (eeData 52) 12 4
  | 1 => signedField (eeData 52) 4 4
  | 2 => signedField (eeData 52) 8 4
  | _ => signedField (eeData 52) 0 4

/-- `kvTemp`. -/
def kvTemp (eeData : ℕ → ℕ) (p : ℕ) : ℚ :=
  let kvScale := eeData 56 / 2 ^ 8 % 2 ^ 4
  kvT eeData (split p) / 2 ^ kvScale

/-- The loop that looks for the largest magnitude. -/
def largest (temps : ℕ → ℚ) : ℚ :=
  (List.range' 1 (pixelCount - 1)).foldl
    (fun temp i => if |temps i| > temp then |temps i| else temp) |temps 0|

/-- The loop that doubles it, `none` while it goes on; the scale is a `uint8_t`. -/
def scaleLoop : ℕ → ℚ → ℕ → Option ℕ
  | 0, _, _ => none
  | rounds + 1, temp, scale =>
      if temp < 63.4 then scaleLoop rounds (temp * 2) ((scale + 1) % 256) else some scale

/-- A floating point number as an integer. -/
def truncate (x : ℚ) : ℤ := if x < 0 then ⌈x⌉ else ⌊x⌋

/-- The number that is stored for a coefficient, before it is an `int8_t`. -/
def rounded (x : ℚ) : ℤ := if x < 0 then truncate (x - 0.5) else truncate (x + 0.5)

/-- `kta` and `ktaScale`, or `kv` and `kvScale`. -/
structure PixelScale where
  values : ℕ → ℤ
  scale : ℕ

/-- How the extraction of a coefficient ends: it is still in the loop that doubles, or a
number does not fit into an `int8_t`, which C leaves undefined, or it is done. -/
inductive Extraction
  | doubling
  | undefined
  | done (stored : PixelScale)

/-- What the two functions do with the coefficients. -/
def storeScaled (rounds : ℕ) (temps : ℕ → ℚ) : Extraction :=
  match scaleLoop rounds (largest temps) 0 with
  | none => .doubling
  | some scale =>
      let values p := rounded (temps p * 2 ^ scale)
      if ∀ p < pixelCount, -128 ≤ values p ∧ values p ≤ 127 then .done ⟨values, scale⟩
      else .undefined

/-- `ExtractKtaPixelParameters`. -/
def extractKtaPixelParameters (rounds : ℕ) (eeData : ℕ → ℕ) : Extraction :=
  storeScaled rounds (ktaTemp eeData)

/-- `ExtractKvPixelParameters`. -/
def extractKvPixelParameters (rounds : ℕ) (eeData : ℕ → ℕ) : Extraction :=
  storeScaled rounds (kvTemp eeData)

end Heaty.Mlx90640
