import Heaty.Spec.DeviatingPixels

/-! What `ExtractDeviatingPixels` accepts: at most four pixels of the sensor deviate, and no
two of them are near each other. -/

namespace Heaty.Mlx90640

variable {eeData : ℕ → ℕ} {p q : ℕ}

def Broken (eeData : ℕ → ℕ) (pixel : ℕ) : Prop := eeData (pixel + 64) = 0

def Outlier (eeData : ℕ → ℕ) (pixel : ℕ) : Prop := eeData (pixel + 64) % 2 = 1

def Deviates (eeData : ℕ → ℕ) (pixel : ℕ) : Prop := Broken eeData pixel ∨ Outlier eeData pixel

instance : DecidablePred (Broken eeData) := fun _ => inferInstanceAs (Decidable (_ = _))

instance : DecidablePred (Outlier eeData) := fun _ => inferInstanceAs (Decidable (_ = _))

instance : DecidablePred (Deviates eeData) := fun _ => inferInstanceAs (Decidable (_ ∨ _))

def Adjacent (pix1 pix2 : ℕ) : Prop :=
  let distance := max pix1 pix2 - min pix1 pix2
  distance ≤ 1 ∨ 31 ≤ distance ∧ distance ≤ 33

instance : Decidable (Adjacent p q) := inferInstanceAs (Decidable (_ ∨ _))

/-- Two pixels touch on the sensor: by a side or by a corner. -/
def Touch (pix1 pix2 : ℕ) : Prop :=
  (pix1 / 32 ≤ pix2 / 32 + 1 ∧ pix2 / 32 ≤ pix1 / 32 + 1) ∧
    pix1 % 32 ≤ pix2 % 32 + 1 ∧ pix2 % 32 ≤ pix1 % 32 + 1

theorem Touch.adjacent (h : Touch p q) : Adjacent p q := by
  unfold Touch at h
  unfold Adjacent
  omega

theorem Adjacent.symm (h : Adjacent p q) : Adjacent q p := by
  unfold Adjacent at h ⊢
  omega

/-! ## The scan -/

def brokenBelow (eeData : ℕ → ℕ) (k : ℕ) : List ℕ := (List.range k).filter (Broken eeData ·)

def outliersBelow (eeData : ℕ → ℕ) (k : ℕ) : List ℕ := (List.range k).filter (Outlier eeData ·)

theorem mem_brokenBelow {k : ℕ} : p ∈ brokenBelow eeData k ↔ p < k ∧ Broken eeData p := by
  simp [brokenBelow]

theorem mem_outliersBelow {k : ℕ} : p ∈ outliersBelow eeData k ↔ p < k ∧ Outlier eeData p := by
  simp [outliersBelow]

def stored (pixels : List ℕ) : List ℕ := pixels ++ List.replicate (5 - pixels.length) noPixel

theorem stored_set {pixels : List ℕ} (pixel : ℕ) (h : pixels.length < 5) :
    (stored pixels).set pixels.length pixel = stored (pixels ++ [pixel]) := by
  obtain ⟨n, hn⟩ : ∃ n, 5 - pixels.length = n + 1 := ⟨4 - pixels.length, by omega⟩
  have hlen : 5 - (pixels ++ [pixel]).length = n := by
    simp
    omega
  rw [stored, stored, hn, hlen, List.set_append_right _ _ (le_refl _), Nat.sub_self,
    List.replicate_succ, List.set_cons_zero]
  simp

theorem getD_stored {pixels : List ℕ} {i : ℕ} (h : i < pixels.length) :
    (stored pixels).getD i 0 = pixels[i] := by
  rw [stored, List.getD_eq_getElem?_getD, List.getElem?_append_left h]
  simp [h]

/-- The loop's variables once it has looked at `k` pixels. -/
def scanned (eeData : ℕ → ℕ) (k : ℕ) : Scan where
  pixCnt := k
  brokenPixCnt := (brokenBelow eeData k).length
  outlierPixCnt := (outliersBelow eeData k).length
  pixels := ⟨stored (brokenBelow eeData k), stored (outliersBelow eeData k)⟩

theorem scanned_brokenPixCnt (eeData : ℕ → ℕ) (k : ℕ) :
    (scanned eeData k).brokenPixCnt = (brokenBelow eeData k).length := rfl

theorem scanned_outlierPixCnt (eeData : ℕ → ℕ) (k : ℕ) :
    (scanned eeData k).outlierPixCnt = (outliersBelow eeData k).length := rfl

theorem scanned_pixels (eeData : ℕ → ℕ) (k : ℕ) : (scanned eeData k).pixels =
    ⟨stored (brokenBelow eeData k), stored (outliersBelow eeData k)⟩ := rfl

theorem scanned_next {k : ℕ} (hbroken : (brokenBelow eeData k).length < 5)
    (houtliers : (outliersBelow eeData k).length < 5) :
    (scanned eeData k).next eeData = scanned eeData (k + 1) := by
  have hodd : ∀ n : ℕ, n &&& 1 ≠ 0 ↔ n % 2 = 1 := fun n => by
    rw [Nat.and_one_is_mod]
    omega
  have hrange := List.range_succ (n := k)
  simp only [Scan.next, scanned, hodd]
  split_ifs with hzero hbit
  · have hb : brokenBelow eeData (k + 1) = brokenBelow eeData k ++ [k] := by
      simp [brokenBelow, hrange, Broken, hzero]
    have ho : outliersBelow eeData (k + 1) = outliersBelow eeData k := by
      simp [outliersBelow, hrange, Outlier, hzero]
    rw [hb, ho, stored_set k hbroken, List.length_append, List.length_singleton]
  · have hb : brokenBelow eeData (k + 1) = brokenBelow eeData k := by
      simp [brokenBelow, hrange, Broken, hzero]
    have ho : outliersBelow eeData (k + 1) = outliersBelow eeData k ++ [k] := by
      simp [outliersBelow, hrange, Outlier, hbit]
    rw [hb, ho, stored_set k houtliers, List.length_append, List.length_singleton]
  · have hb : brokenBelow eeData (k + 1) = brokenBelow eeData k := by
      simp [brokenBelow, hrange, Broken, hzero]
    have ho : outliersBelow eeData (k + 1) = outliersBelow eeData k := by
      simp [outliersBelow, hrange, Outlier, hbit]
    rw [hb, ho]

theorem length_brokenBelow_mono (eeData : ℕ → ℕ) {k l : ℕ} (h : k ≤ l) :
    (brokenBelow eeData k).length ≤ (brokenBelow eeData l).length :=
  ((List.range_sublist.2 h).filter _).length_le

theorem length_outliersBelow_mono (eeData : ℕ → ℕ) {k l : ℕ} (h : k ≤ l) :
    (outliersBelow eeData k).length ≤ (outliersBelow eeData l).length :=
  ((List.range_sublist.2 h).filter _).length_le

/-- How many of each kind the loop has counted: of the five that end it, at most of one. -/
def Counted (eeData : ℕ → ℕ) (k : ℕ) : Prop :=
  (brokenBelow eeData k).length ≤ 4 ∧ (outliersBelow eeData k).length ≤ 4 ∨
    (brokenBelow eeData k).length = 5 ∧ (outliersBelow eeData k).length ≤ 4 ∨
    (brokenBelow eeData k).length ≤ 4 ∧ (outliersBelow eeData k).length = 5

theorem counted_succ {k : ℕ} (hbroken : (brokenBelow eeData k).length < 5)
    (houtliers : (outliersBelow eeData k).length < 5) : Counted eeData (k + 1) := by
  have hrange := List.range_succ (n := k)
  have hnot : Broken eeData k → ¬ Outlier eeData k := by
    intro hb ho
    rw [Broken] at hb
    simp [Outlier, hb] at ho
  unfold Counted
  by_cases hb : Broken eeData k
  · have ho := hnot hb
    simp only [brokenBelow, outliersBelow, hrange, List.filter_append, List.length_append] at *
    simp [hb, ho]
    omega
  · simp only [brokenBelow, outliersBelow, hrange, List.filter_append, List.length_append] at *
    by_cases ho : Outlier eeData k <;> simp [hb, ho] <;> omega

/-- Where the loop ends: behind the last pixel, or at the fifth of a kind. -/
theorem scanned_run (rounds : ℕ) :
    ∀ k, k + rounds = 768 → Counted eeData k →
      ∃ l ≤ 768, (scanned eeData k).run eeData rounds = scanned eeData l ∧ Counted eeData l ∧
        (l = 768 ∨ (brokenBelow eeData l).length = 5 ∨ (outliersBelow eeData l).length = 5) := by
  induction rounds with
  | zero =>
    intro k hk hcounted
    exact ⟨k, by omega, rfl, hcounted, .inl (by omega)⟩
  | succ rounds ih =>
    intro k hk hcounted
    by_cases hgo : (brokenBelow eeData k).length < 5 ∧ (outliersBelow eeData k).length < 5
    · obtain ⟨l, hl, hrun, hrest⟩ :=
        ih (k + 1) (by omega) (counted_succ hgo.1 hgo.2)
      refine ⟨l, hl, ?_, hrest⟩
      have hround : k < 768 ∧ (brokenBelow eeData k).length < 5 ∧
          (outliersBelow eeData k).length < 5 := ⟨by omega, hgo⟩
      rw [← hrun, ← scanned_next hgo.1 hgo.2]
      exact if_pos hround
    · refine ⟨k, by omega, if_neg fun h => hgo h.2, hcounted, .inr ?_⟩
      unfold Counted at hcounted
      omega

theorem start_run (eeData : ℕ → ℕ) :
    ∃ k ≤ 768, Scan.start.run eeData 768 = scanned eeData k ∧ Counted eeData k ∧
      (k = 768 ∨ (brokenBelow eeData k).length = 5 ∨ (outliersBelow eeData k).length = 5) := by
  have hstart : Scan.start = scanned eeData 0 := by
    simp [Scan.start, scanned, brokenBelow, outliersBelow, stored]
  rw [hstart]
  exact scanned_run 768 0 rfl (.inl (by simp [brokenBelow, outliersBelow]))

/-! ## The pairs -/

theorem checkAdjacentPixels_eq (pix1 pix2 : ℕ) :
    checkAdjacentPixels pix1 pix2 = if Adjacent pix1 pix2 then -6 else 0 := by
  simp only [checkAdjacentPixels, Adjacent]
  split_ifs <;> omega

theorem firstWarn_eq_zero (pairs : List (ℕ × ℕ)) :
    firstWarn pairs = 0 ↔ ∀ pair ∈ pairs, ¬ Adjacent pair.1 pair.2 := by
  induction pairs with
  | nil => simp [firstWarn]
  | cons pair pairs ih =>
    by_cases h : Adjacent pair.1 pair.2 <;> simp [firstWarn, checkAdjacentPixels_eq, h, ih]

theorem firstWarn_eq_neg_six (pairs : List (ℕ × ℕ)) :
    firstWarn pairs = -6 ↔ ¬ firstWarn pairs = 0 := by
  induction pairs with
  | nil => simp [firstWarn]
  | cons pair pairs ih =>
    by_cases h : Adjacent pair.1 pair.2 <;> simp [firstWarn, checkAdjacentPixels_eq, h, ih]

theorem mem_pairsOf {pixels others : List ℕ} :
    (p, q) ∈ pairsOf (stored pixels) pixels.length (stored others) others.length ↔
      p ∈ pixels ∧ q ∈ others := by
  simp only [pairsOf, List.mem_flatMap, List.mem_map, List.mem_range, Prod.mk.injEq]
  constructor
  · rintro ⟨i, hi, j, hj, rfl, rfl⟩
    rw [getD_stored hi, getD_stored hj]
    exact ⟨List.getElem_mem hi, List.getElem_mem hj⟩
  · rintro ⟨hp, hq⟩
    obtain ⟨i, hi, rfl⟩ := List.getElem_of_mem hp
    obtain ⟨j, hj, rfl⟩ := List.getElem_of_mem hq
    exact ⟨i, hi, j, hj, getD_stored hi, getD_stored hj⟩

/-- Of a list in order the pairs are those of two different pixels. -/
theorem mem_pairsIn {pixels : List ℕ} (hsorted : pixels.Pairwise (· < ·)) :
    (p, q) ∈ pairsIn (stored pixels) pixels.length ↔ p ∈ pixels ∧ q ∈ pixels ∧ p < q := by
  simp only [pairsIn, List.mem_flatMap, List.mem_map, List.mem_range, List.mem_range'_1,
    Prod.mk.injEq]
  constructor
  · rintro ⟨i, hi, j, hj, rfl, rfl⟩
    have hjlen : j < pixels.length := by omega
    rw [getD_stored hi, getD_stored hjlen]
    exact ⟨List.getElem_mem hi, List.getElem_mem hjlen,
      List.pairwise_iff_getElem.1 hsorted i j hi hjlen (by omega)⟩
  · rintro ⟨hp, hq, hlt⟩
    obtain ⟨i, hi, rfl⟩ := List.getElem_of_mem hp
    obtain ⟨j, hj, rfl⟩ := List.getElem_of_mem hq
    have hij : i < j := by
      by_contra hle
      rcases Nat.lt_or_eq_of_le (not_lt.1 hle) with hji | rfl
      · exact absurd (List.pairwise_iff_getElem.1 hsorted j i hj hi hji) hlt.asymm
      · exact lt_irrefl _ hlt
    exact ⟨i, hi, j, ⟨by omega, by omega⟩, getD_stored hi, getD_stored hj⟩

theorem brokenBelow_sorted (k : ℕ) : (brokenBelow eeData k).Pairwise (· < ·) :=
  List.pairwise_lt_range.filter _

theorem outliersBelow_sorted (k : ℕ) : (outliersBelow eeData k).Pairwise (· < ·) :=
  List.pairwise_lt_range.filter _

/-! ## What is accepted -/

/-- No two pixels that the EEPROM marks are near each other. -/
def Apart (eeData : ℕ → ℕ) : Prop :=
  ∀ pix1 pix2, pix1 < pix2 → pix2 < 768 → Deviates eeData pix1 → Deviates eeData pix2 →
    ¬ Adjacent pix1 pix2

def deviating (eeData : ℕ → ℕ) : ℕ :=
  (brokenBelow eeData 768).length + (outliersBelow eeData 768).length

def comparedPairs (s : Scan) : List (ℕ × ℕ) :=
  pairsIn s.pixels.brokenPixels s.brokenPixCnt ++ pairsIn s.pixels.outlierPixels s.outlierPixCnt ++
    pairsOf s.pixels.brokenPixels s.brokenPixCnt s.pixels.outlierPixels s.outlierPixCnt

theorem mem_comparedPairs : (p, q) ∈ comparedPairs (scanned eeData 768) ↔
    (p < 768 ∧ Broken eeData p) ∧ (q < 768 ∧ Broken eeData q) ∧ p < q ∨
    (p < 768 ∧ Outlier eeData p) ∧ (q < 768 ∧ Outlier eeData q) ∧ p < q ∨
    (p < 768 ∧ Broken eeData p) ∧ q < 768 ∧ Outlier eeData q := by
  simp only [comparedPairs, scanned, List.mem_append, mem_pairsIn (brokenBelow_sorted _),
    mem_pairsIn (outliersBelow_sorted _), mem_pairsOf, mem_brokenBelow, mem_outliersBelow, or_assoc]

theorem Broken.not_outlier (h : Broken eeData p) : ¬ Outlier eeData p := by
  intro ho
  rw [Broken] at h
  simp [Outlier, h] at ho

theorem apart_iff : Apart eeData ↔ firstWarn (comparedPairs (scanned eeData 768)) = 0 := by
  rw [firstWarn_eq_zero]
  constructor
  · rintro h ⟨pix1, pix2⟩ hpair
    rcases mem_comparedPairs.1 hpair with ⟨hp, hq, hlt⟩ | ⟨hp, hq, hlt⟩ | ⟨hp, hq⟩
    · exact h pix1 pix2 hlt hq.1 (.inl hp.2) (.inl hq.2)
    · exact h pix1 pix2 hlt hq.1 (.inr hp.2) (.inr hq.2)
    · rcases lt_trichotomy pix1 pix2 with hlt | heq | hgt
      · exact h pix1 pix2 hlt hq.1 (.inl hp.2) (.inr hq.2)
      · exact absurd (heq ▸ hq.2) hp.2.not_outlier
      · exact fun hadj => h pix2 pix1 hgt hp.1 (.inr hq.2) (.inl hp.2) hadj.symm
  · intro h pix1 pix2 hlt hq hdev1 hdev2
    have hp : pix1 < 768 := hlt.trans hq
    rcases hdev1 with h1 | h1 <;> rcases hdev2 with h2 | h2
    · exact h (pix1, pix2) (mem_comparedPairs.2 (.inl ⟨⟨hp, h1⟩, ⟨hq, h2⟩, hlt⟩))
    · exact h (pix1, pix2) (mem_comparedPairs.2 (.inr (.inr ⟨⟨hp, h1⟩, hq, h2⟩)))
    · have hnot := h (pix2, pix1) (mem_comparedPairs.2 (.inr (.inr ⟨⟨hq, h2⟩, hp, h1⟩)))
      exact fun hadj => hnot hadj.symm
    · exact h (pix1, pix2) (mem_comparedPairs.2 (.inr (.inl ⟨⟨hp, h1⟩, ⟨hq, h2⟩, hlt⟩)))

theorem extractDeviatingPixels_eq {s : Scan} (hrun : Scan.start.run eeData 768 = s) :
    extractDeviatingPixels eeData =
      (if s.brokenPixCnt > 4 then -3
        else if s.outlierPixCnt > 4 then -4
        else if s.brokenPixCnt + s.outlierPixCnt > 4 then -5
        else firstWarn (comparedPairs s), s.pixels) := by
  subst hrun
  rfl

theorem extractDeviatingPixels_cases (eeData : ℕ → ℕ) :
    (∃ k ≤ 768, (brokenBelow eeData k).length = 5 ∧ (outliersBelow eeData k).length ≤ 4 ∧
      (extractDeviatingPixels eeData).1 = -3) ∨
    (∃ k ≤ 768, (brokenBelow eeData k).length ≤ 4 ∧ (outliersBelow eeData k).length = 5 ∧
      (extractDeviatingPixels eeData).1 = -4) ∨
    ((brokenBelow eeData 768).length ≤ 4 ∧ (outliersBelow eeData 768).length ≤ 4 ∧
      4 < deviating eeData ∧ (extractDeviatingPixels eeData).1 = -5) ∨
    (deviating eeData ≤ 4 ∧
      extractDeviatingPixels eeData =
        (firstWarn (comparedPairs (scanned eeData 768)), (scanned eeData 768).pixels)) := by
  obtain ⟨k, hk, hrun, hcounted, hend⟩ := start_run eeData
  rw [extractDeviatingPixels_eq hrun, scanned_brokenPixCnt, scanned_outlierPixCnt]
  rcases hcounted with ⟨hb, ho⟩ | ⟨hb, ho⟩ | ⟨hb, ho⟩
  · obtain rfl : k = 768 := by omega
    by_cases hfew : deviating eeData ≤ 4
    · have hsum := hfew
      unfold deviating at hsum
      rw [if_neg (by omega), if_neg (by omega), if_neg (by omega)]
      exact .inr (.inr (.inr ⟨hfew, rfl⟩))
    · have hsum := hfew
      unfold deviating at hsum
      rw [if_neg (by omega), if_neg (by omega), if_pos (by omega)]
      exact .inr (.inr (.inl ⟨hb, ho, not_le.1 hfew, rfl⟩))
  · rw [if_pos (by omega)]
    exact .inl ⟨k, hk, hb, ho, rfl⟩
  · rw [if_neg (by omega), if_pos (by omega)]
    exact .inr (.inl ⟨k, hk, hb, ho, rfl⟩)

/-- The fifth of one kind comes before the fifth of the other, or behind it. -/
theorem fifth_first {k l : ℕ} (hbk : (brokenBelow eeData k).length = 5)
    (hok : (outliersBelow eeData k).length ≤ 4) (hbl : (brokenBelow eeData l).length ≤ 4) :
    (outliersBelow eeData l).length ≤ 4 := by
  rcases le_total k l with hkl | hlk
  · have := length_brokenBelow_mono eeData hkl
    omega
  · exact (length_outliersBelow_mono eeData hlk).trans hok

theorem warn_broken {k : ℕ} (hk : k ≤ 768) (hb : (brokenBelow eeData k).length = 5)
    (ho : (outliersBelow eeData k).length ≤ 4) : (extractDeviatingPixels eeData).1 = -3 := by
  have hmono := length_brokenBelow_mono eeData hk
  rcases extractDeviatingPixels_cases eeData with ⟨l, -, -, -, hwarn⟩ | ⟨l, -, hbl, hol, -⟩ |
    ⟨hle, -, -, -⟩ | ⟨hfew, -⟩
  · exact hwarn
  · have := fifth_first hb ho hbl
    omega
  · omega
  · unfold deviating at hfew
    omega

theorem warn_outliers {k : ℕ} (hk : k ≤ 768) (hb : (brokenBelow eeData k).length ≤ 4)
    (ho : (outliersBelow eeData k).length = 5) : (extractDeviatingPixels eeData).1 = -4 := by
  have hmono := length_outliersBelow_mono eeData hk
  rcases extractDeviatingPixels_cases eeData with ⟨l, -, hbl, hol, -⟩ | ⟨l, -, -, -, hwarn⟩ |
    ⟨-, hle, -, -⟩ | ⟨hfew, -⟩
  · have := fifth_first hbl hol hb
    omega
  · exact hwarn
  · omega
  · unfold deviating at hfew
    omega

theorem warn_many (hb : (brokenBelow eeData 768).length ≤ 4)
    (ho : (outliersBelow eeData 768).length ≤ 4) (hmany : 4 < deviating eeData) :
    (extractDeviatingPixels eeData).1 = -5 := by
  rcases extractDeviatingPixels_cases eeData with ⟨l, hl, hbl, -, -⟩ | ⟨l, hl, -, hol, -⟩ |
    ⟨-, -, -, hwarn⟩ | ⟨hfew, -⟩
  · have := length_brokenBelow_mono eeData hl
    omega
  · have := length_outliersBelow_mono eeData hl
    omega
  · exact hwarn
  · omega

theorem extractDeviatingPixels_few (hfew : deviating eeData ≤ 4) :
    extractDeviatingPixels eeData =
      (firstWarn (comparedPairs (scanned eeData 768)), (scanned eeData 768).pixels) := by
  have hsum := hfew
  unfold deviating at hsum
  rcases extractDeviatingPixels_cases eeData with ⟨l, hl, hbl, -, -⟩ | ⟨l, hl, -, hol, -⟩ |
    ⟨-, -, hmany, -⟩ | ⟨-, hresult⟩
  · have := length_brokenBelow_mono eeData hl
    omega
  · have := length_outliersBelow_mono eeData hl
    omega
  · omega
  · exact hresult

theorem warn_few (hfew : deviating eeData ≤ 4) :
    (extractDeviatingPixels eeData).1 = firstWarn (comparedPairs (scanned eeData 768)) := by
  rw [extractDeviatingPixels_few hfew]

theorem isPixelBad_scanned (hfew : deviating eeData ≤ 4) (hp : p < 768) :
    isPixelBad p (scanned eeData 768).pixels = true ↔ Deviates eeData p := by
  have hmem : ∀ pixels : List ℕ, pixels.length ≤ 4 →
      ((∃ i < 5, p = (stored pixels).getD i 0) ↔ p ∈ pixels) := by
    intro pixels hlen
    constructor
    · rintro ⟨i, hi, heq⟩
      by_cases hin : i < pixels.length
      · rw [getD_stored hin] at heq
        exact heq ▸ List.getElem_mem hin
      · rw [stored, List.getD_eq_getElem?_getD, List.getElem?_append_right (by omega),
          List.getElem?_replicate, if_pos (by omega)] at heq
        simp [noPixel] at heq
        omega
    · intro hin
      obtain ⟨i, hi, rfl⟩ := List.getElem_of_mem hin
      exact ⟨i, by omega, (getD_stored hi).symm⟩
  unfold deviating at hfew
  have hb := hmem (brokenBelow eeData 768) (by omega)
  have ho := hmem (outliersBelow eeData 768) (by omega)
  rw [mem_brokenBelow] at hb
  rw [mem_outliersBelow] at ho
  rw [scanned_pixels]
  simp only [isPixelBad, List.any_eq_true, List.mem_range, decide_eq_true_eq]
  rw [Deviates]
  constructor
  · rintro ⟨i, hi, heq | heq⟩
    · exact .inr (ho.1 ⟨i, hi, heq⟩).2
    · exact .inl (hb.1 ⟨i, hi, heq⟩).2
  · rintro (hbroken | houtlier)
    · obtain ⟨i, hi, heq⟩ := hb.2 ⟨hp, hbroken⟩
      exact ⟨i, hi, .inr heq⟩
    · obtain ⟨i, hi, heq⟩ := ho.2 ⟨hp, houtlier⟩
      exact ⟨i, hi, .inl heq⟩

theorem accepted_pixels (h : (extractDeviatingPixels eeData).1 = 0) :
    deviating eeData ≤ 4 ∧ Apart eeData ∧
      (extractDeviatingPixels eeData).2 = (scanned eeData 768).pixels := by
  rcases extractDeviatingPixels_cases eeData with ⟨k, -, -, -, hwarn⟩ | ⟨k, -, -, -, hwarn⟩ |
    ⟨-, -, -, hwarn⟩ | ⟨hfew, hresult⟩
  · omega
  · omega
  · omega
  · refine ⟨hfew, ?_, by rw [hresult]⟩
    rw [apart_iff]
    simpa only [hresult] using h

/-- Which EEPROM `ExtractDeviatingPixels` returns which value for: an accepted one marks at
most four pixels, of which no two touch, and the lists hold these. Five pixels of one kind
are reported as that kind when the loop comes to its fifth before it comes to the fifth of
the other. -/
theorem extractDeviatingPixels_verdict (eeData : ℕ → ℕ) :
    ((extractDeviatingPixels eeData).1 = 0 ↔ deviating eeData ≤ 4 ∧ Apart eeData) ∧
    ((extractDeviatingPixels eeData).1 = -3 ↔
      ∃ k ≤ 768, (brokenBelow eeData k).length = 5 ∧ (outliersBelow eeData k).length ≤ 4) ∧
    ((extractDeviatingPixels eeData).1 = -4 ↔
      ∃ k ≤ 768, (brokenBelow eeData k).length ≤ 4 ∧ (outliersBelow eeData k).length = 5) ∧
    ((extractDeviatingPixels eeData).1 = -5 ↔
      (brokenBelow eeData 768).length ≤ 4 ∧ (outliersBelow eeData 768).length ≤ 4 ∧
        4 < deviating eeData) ∧
    ((extractDeviatingPixels eeData).1 = -6 ↔ deviating eeData ≤ 4 ∧ ¬ Apart eeData) ∧
    ((extractDeviatingPixels eeData).1 = 0 →
      (∀ pix1 < 768, ∀ pix2 < 768, Deviates eeData pix1 → Deviates eeData pix2 →
        Touch pix1 pix2 → pix1 = pix2) ∧
      (∀ pixel < 768,
        isPixelBad pixel (extractDeviatingPixels eeData).2 = true ↔ Deviates eeData pixel)) := by
  have hneg := firstWarn_eq_neg_six (comparedPairs (scanned eeData 768))
  have hcases := extractDeviatingPixels_cases eeData
  refine ⟨?_, ?_, ?_, ?_, ?_, ?_⟩
  · constructor
    · exact fun h => ⟨(accepted_pixels h).1, (accepted_pixels h).2.1⟩
    · rintro ⟨hfew, hapart⟩
      rw [warn_few hfew]
      exact apart_iff.1 hapart
  · constructor
    · intro h
      rcases hcases with ⟨k, hk, hb, ho, -⟩ | ⟨k, -, -, -, hwarn⟩ | ⟨-, -, -, hwarn⟩ | ⟨hfew, -⟩
      · exact ⟨k, hk, hb, ho⟩
      · omega
      · omega
      · rw [warn_few hfew] at h
        omega
    · rintro ⟨k, hk, hb, ho⟩
      exact warn_broken hk hb ho
  · constructor
    · intro h
      rcases hcases with ⟨k, -, -, -, hwarn⟩ | ⟨k, hk, hb, ho, -⟩ | ⟨-, -, -, hwarn⟩ | ⟨hfew, -⟩
      · omega
      · exact ⟨k, hk, hb, ho⟩
      · omega
      · rw [warn_few hfew] at h
        omega
    · rintro ⟨k, hk, hb, ho⟩
      exact warn_outliers hk hb ho
  · constructor
    · intro h
      rcases hcases with ⟨k, -, -, -, hwarn⟩ | ⟨k, -, -, -, hwarn⟩ | ⟨hb, ho, hmany, -⟩ | ⟨hfew, -⟩
      · omega
      · omega
      · exact ⟨hb, ho, hmany⟩
      · rw [warn_few hfew] at h
        omega
    · rintro ⟨hb, ho, hmany⟩
      exact warn_many hb ho hmany
  · rw [apart_iff]
    constructor
    · intro h
      rcases hcases with ⟨k, -, -, -, hwarn⟩ | ⟨k, -, -, -, hwarn⟩ | ⟨-, -, -, hwarn⟩ |
        ⟨hfew, -⟩
      · omega
      · omega
      · omega
      · rw [warn_few hfew] at h
        exact ⟨hfew, hneg.1 h⟩
    · rintro ⟨hfew, hnear⟩
      rw [warn_few hfew]
      exact hneg.2 hnear
  · intro h
    obtain ⟨hfew, hapart, hpixels⟩ := accepted_pixels h
    refine ⟨fun pix1 h1 pix2 h2 hdev1 hdev2 htouch => ?_, fun pixel hp => ?_⟩
    · rcases lt_trichotomy pix1 pix2 with hlt | heq | hgt
      · exact absurd htouch.adjacent (hapart pix1 pix2 hlt h2 hdev1 hdev2)
      · exact heq
      · exact absurd htouch.adjacent.symm (hapart pix2 pix1 hgt h1 hdev2 hdev1)
    · rw [hpixels]
      exact isPixelBad_scanned hfew hp

end Heaty.Mlx90640
