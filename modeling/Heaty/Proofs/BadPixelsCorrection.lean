import Heaty.Lib.ExchangeSort
import Heaty.Proofs.DeviatingPixels

/-! `MLX90640_BadPixelsCorrection` with the lists of an accepted EEPROM: every pixel that
deviates is made up from pixels that do not. -/

namespace Heaty.Mlx90640

variable {eeData : ℕ → ℕ} {p : ℕ}
variable {V : Type} {ops : FloatOps V} {toMap other : Fin pixelCount → V}

/-! ## The median -/

theorem sortValues_eq (ops : FloatOps V) (values : List V) :
    sortValues ops values = ExchangeSort.sort ops.lt values := rfl

theorem sortValues_get (ops : FloatOps V) {values : List V} {i : ℕ} (h : i < values.length) :
    ∃ value, (sortValues ops values)[i]? = some value := by
  have hlen := (ExchangeSort.sort_perm ops.lt values).length_eq
  rw [sortValues_eq]
  exact ⟨_, List.getElem?_eq_getElem (by omega)⟩

theorem getMedian_isSome (ops : FloatOps V) {values : List V} (h : values ≠ []) :
    ∃ median, getMedian ops values = some median := by
  have hpos : 0 < values.length := List.length_pos_iff.2 h
  obtain ⟨upper, hupper⟩ := sortValues_get ops (by omega : values.length / 2 < values.length)
  obtain ⟨lower, hlower⟩ := sortValues_get ops (by omega : values.length / 2 - 1 < values.length)
  simp only [getMedian, hupper, hlower]
  split_ifs <;> exact ⟨_, rfl⟩

/-- `GetMedian` of values that are in an order: the one in the middle of the values in that
order, or what is halfway between the two there. -/
theorem getMedian_middle [LinearOrder V] (ops : FloatOps V)
    (hlt : ∀ x y, ops.lt x y = true ↔ x < y) {values : List V} (hne : values ≠ []) :
    let sorted := values.insertionSort (· ≤ ·)
    let n := values.length
    ∃ median, getMedian ops values = some median ∧
      (n % 2 = 1 → sorted[n / 2]? = some median) ∧
      (n % 2 = 0 → ∃ lower upper, sorted[n / 2 - 1]? = some lower ∧
        sorted[n / 2]? = some upper ∧ lower ≤ upper ∧ median = ops.half (ops.add upper lower)) := by
  intro sorted n
  have hpos : 0 < n := List.length_pos_iff.2 hne
  have hsort : sortValues ops values = sorted := ExchangeSort.sort_eq_insertionSort hlt values
  obtain ⟨upper, hupper⟩ := sortValues_get ops (by omega : n / 2 < values.length)
  obtain ⟨lower, hlower⟩ := sortValues_get ops (by omega : n / 2 - 1 < values.length)
  rw [hsort] at hupper hlower
  have hcode : getMedian ops values =
      if n % 2 = 0 then some (ops.half (ops.add upper lower)) else some upper := by
    simp only [getMedian, hsort]
    rw [hupper, hlower]
    rfl
  rcases Nat.mod_two_eq_zero_or_one n with heven | hodd
  · refine ⟨_, hcode.trans (if_pos heven), by omega, fun _ => ?_⟩
    refine ⟨lower, upper, hlower, hupper, ?_, rfl⟩
    obtain ⟨hl, rfl⟩ := List.getElem?_eq_some_iff.1 hlower
    obtain ⟨hu, rfl⟩ := List.getElem?_eq_some_iff.1 hupper
    exact List.pairwise_iff_getElem.1 (List.pairwise_insertionSort (· ≤ ·) values) _ _ hl hu
      (by omega)
  · exact ⟨upper, hcode.trans (if_neg (by omega)), fun _ => hupper, by omega⟩

/-- Of four values, what is halfway between the second and the third. -/
theorem getMedian_four :
    let ops : FloatOps ℚ := ⟨fun x y => x < y, (· + ·), (· - ·), (· / 2), fun x => |x|⟩
    getMedian ops [20, 50, 10, 30] = some 25 := by
  intro ops
  obtain ⟨median, hmedian, -, heven⟩ :=
    getMedian_middle ops (fun x y => by simp [ops]) (List.cons_ne_nil 20 [50, 10, 30])
  obtain ⟨lower, upper, hlower, hupper, -, rfl⟩ := heven rfl
  have hsorted : ([20, 50, 10, 30] : List ℚ).insertionSort (· ≤ ·) = [10, 20, 30, 50] := by
    norm_num [List.insertionSort, List.orderedInsert]
  rw [hsorted] at hlower hupper
  obtain rfl : 20 = lower := Option.some.inj hlower
  obtain rfl : 30 = upper := Option.some.inj hupper
  rw [hmedian]
  norm_num [ops]

/-! ## The pixels that are read -/

def SameGood (eeData : ℕ → ℕ) (toMap other : Fin pixelCount → V) : Prop :=
  ∀ pixel, ¬ Deviates eeData pixel.val → other pixel = toMap pixel

def Good (eeData : ℕ → ℕ) (pixel : ℤ) : Prop :=
  (0 ≤ pixel ∧ pixel < 768) ∧ ¬ Deviates eeData pixel.toNat

theorem pixelAt_good (hsame : SameGood eeData toMap other) {pixel : ℤ} (h : Good eeData pixel) :
    ∃ value, pixelAt toMap pixel = some value ∧ pixelAt other pixel = some value := by
  refine ⟨toMap ⟨pixel.toNat, by have := h.1; unfold pixelCount; omega⟩, dif_pos h.1, ?_⟩
  rw [← hsame ⟨pixel.toNat, by have := h.1; unfold pixelCount; omega⟩ h.2]
  exact dif_pos h.1

theorem mean_good (hsame : SameGood eeData toMap other) {pixel pixel' : ℤ}
    (h : Good eeData pixel) (h' : Good eeData pixel') :
    ∃ value, mean ops toMap pixel pixel' = some value ∧
      mean ops other pixel pixel' = some value := by
  obtain ⟨a, ha, hother⟩ := pixelAt_good hsame h
  obtain ⟨b, hb, hother'⟩ := pixelAt_good hsame h'
  exact ⟨ops.half (ops.add a b), by simp [mean, ha, hb], by simp [mean, hother, hother']⟩

theorem near_good (hapart : Apart eeData) (hp : p < 768) (hdev : Deviates eeData p) {pixel : ℤ}
    (hmap : 0 ≤ pixel ∧ pixel < 768)
    (hnear : pixel = p + 1 ∨ pixel = p - 1 ∨ pixel = p + 31 ∨ pixel = p - 31 ∨ pixel = p + 33 ∨
      pixel = p - 33) : Good eeData pixel := by
  obtain ⟨n, rfl⟩ := Int.eq_ofNat_of_zero_le hmap.1
  refine ⟨hmap, fun hdeviates => ?_⟩
  rw [Int.toNat_natCast] at hdeviates
  have hadjacent : Adjacent n p := by
    unfold Adjacent
    omega
  rcases lt_trichotomy n p with hlt | heq | hgt
  · exact hapart n p hlt hp hdeviates hdev hadjacent
  · omega
  · exact hapart p n hgt (by omega) hdev hdeviates hadjacent.symm

theorem chessCorrected_good (hsame : SameGood eeData toMap other) (hapart : Apart eeData)
    (hp : p < 768) (hdev : Deviates eeData p) :
    ∃ value, chessCorrected ops toMap p (p / 32) (p % 32) = some value ∧
      chessCorrected ops other p (p / 32) (p % 32) = some value := by
  have hgood : ∀ pixel : ℤ, 0 ≤ pixel ∧ pixel < 768 → (pixel = p + 1 ∨ pixel = p - 1 ∨
      pixel = p + 31 ∨ pixel = p - 31 ∨ pixel = p + 33 ∨ pixel = p - 33) → Good eeData pixel :=
    fun _ hmap hnear => near_good hapart hp hdev hmap hnear
  simp only [chessCorrected]
  split_ifs
  · exact pixelAt_good hsame (hgood _ (by omega) (by omega))
  · exact pixelAt_good hsame (hgood _ (by omega) (by omega))
  · exact mean_good hsame (hgood _ (by omega) (by omega)) (hgood _ (by omega) (by omega))
  · exact pixelAt_good hsame (hgood _ (by omega) (by omega))
  · exact pixelAt_good hsame (hgood _ (by omega) (by omega))
  · exact mean_good hsame (hgood _ (by omega) (by omega)) (hgood _ (by omega) (by omega))
  · exact mean_good hsame (hgood _ (by omega) (by omega)) (hgood _ (by omega) (by omega))
  · exact mean_good hsame (hgood _ (by omega) (by omega)) (hgood _ (by omega) (by omega))
  · obtain ⟨ap0, h0, h0'⟩ := pixelAt_good hsame (hgood (p - 33) (by omega) (by omega))
    obtain ⟨ap1, h1, h1'⟩ := pixelAt_good hsame (hgood (p - 31) (by omega) (by omega))
    obtain ⟨ap2, h2, h2'⟩ := pixelAt_good hsame (hgood (p + 31) (by omega) (by omega))
    obtain ⟨ap3, h3, h3'⟩ := pixelAt_good hsame (hgood (p + 33) (by omega) (by omega))
    obtain ⟨median, hmedian⟩ :=
      getMedian_isSome ops (List.cons_ne_nil ap0 [ap1, ap2, ap3])
    exact ⟨median, by simp [h0, h1, h2, h3, hmedian], by simp [h0', h1', h2', h3', hmedian]⟩

theorem interleavedCorrected_good (hsame : SameGood eeData toMap other)
    (hfew : deviating eeData ≤ 4) (hapart : Apart eeData) (hp : p < 768)
    (hdev : Deviates eeData p) :
    ∃ value,
      interleavedCorrected ops (scanned eeData 768).pixels toMap p (p % 32) = some value ∧
      interleavedCorrected ops (scanned eeData 768).pixels other p (p % 32) = some value := by
  have hgood : ∀ pixel : ℤ, 0 ≤ pixel ∧ pixel < 768 → (pixel = p + 1 ∨ pixel = p - 1 ∨
      pixel = p + 31 ∨ pixel = p - 31 ∨ pixel = p + 33 ∨ pixel = p - 33) → Good eeData pixel :=
    fun _ hmap hnear => near_good hapart hp hdev hmap hnear
  simp only [interleavedCorrected]
  split_ifs with hfirst hside hlast hbad
  · exact pixelAt_good hsame (hgood _ (by omega) (by omega))
  · exact mean_good hsame (hgood _ (by omega) (by omega)) (hgood _ (by omega) (by omega))
  · exact pixelAt_good hsame (hgood _ (by omega) (by omega))
  · -- two pixels further on, the code looks itself whether a pixel is bad
    have hleft : Good eeData (p - 2 : ℤ) := by
      refine ⟨by omega, fun hdeviates => hbad.1 ?_⟩
      rw [isPixelBad_scanned hfew (by omega)]
      exact (by omega : ((p : ℤ) - 2).toNat = p - 2) ▸ hdeviates
    have hright : Good eeData (p + 2 : ℤ) := by
      refine ⟨by omega, fun hdeviates => hbad.2 ?_⟩
      rw [isPixelBad_scanned hfew (by omega)]
      exact (by omega : ((p : ℤ) + 2).toNat = p + 2) ▸ hdeviates
    obtain ⟨right, hr, hr'⟩ := pixelAt_good hsame (hgood (p + 1) (by omega) (by omega))
    obtain ⟨right2, hr2, hr2'⟩ := pixelAt_good hsame hright
    obtain ⟨left, hl, hl'⟩ := pixelAt_good hsame (hgood (p - 1) (by omega) (by omega))
    obtain ⟨left2, hl2, hl2'⟩ := pixelAt_good hsame hleft
    simp only [hr, hr', hr2, hr2', hl, hl', hl2, hl2', Option.bind_eq_bind, Option.bind_some]
    split_ifs <;> exact ⟨_, rfl, rfl⟩
  · exact mean_good hsame (hgood _ (by omega) (by omega)) (hgood _ (by omega) (by omega))

/-- What a pixel that deviates gets does not depend on what such pixels hold. -/
theorem corrected_good (ops : FloatOps V) (mode : ℕ) (hsame : SameGood eeData toMap other)
    (hfew : deviating eeData ≤ 4) (hapart : Apart eeData) (hp : p < 768)
    (hdev : Deviates eeData p) :
    ∃ value, corrected ops mode (scanned eeData 768).pixels toMap p = some value ∧
      corrected ops mode (scanned eeData 768).pixels other p = some value := by
  have hline : p / 32 % 256 = p / 32 := by omega
  have hcolumn : (p - 32 * (p / 32)) % 256 = p % 32 := by omega
  simp only [corrected, hline, hcolumn]
  split_ifs
  · exact chessCorrected_good hsame hapart hp hdev
  · exact interleavedCorrected_good hsame hfew hapart hp hdev

/-! ## The loop -/

/-- What is stored for a pixel, on a map that nothing has been stored in yet. -/
def made (ops : FloatOps V) (mode : ℕ) (eeData : ℕ → ℕ) (toMap : Fin pixelCount → V)
    (pixel : Fin pixelCount) : V :=
  (corrected ops mode (scanned eeData 768).pixels toMap pixel).getD (toMap pixel)

theorem corrected_eq_made (ops : FloatOps V) (mode : ℕ) (hsame : SameGood eeData toMap other)
    (hfew : deviating eeData ≤ 4) (hapart : Apart eeData) {pixel : Fin pixelCount}
    (hdev : Deviates eeData pixel) :
    corrected ops mode (scanned eeData 768).pixels other pixel =
      some (made ops mode eeData toMap pixel) := by
  obtain ⟨value, hmap, hother⟩ :=
    corrected_good ops mode hsame hfew hapart pixel.isLt hdev
  rw [made, hmap, hother, Option.getD_some]

def patched (ops : FloatOps V) (mode : ℕ) (eeData : ℕ → ℕ) (toMap : Fin pixelCount → V)
    (pixels : List ℕ) (current : Fin pixelCount → V) : Fin pixelCount → V := fun pixel =>
  if pixel.val ∈ pixels then made ops mode eeData toMap pixel else current pixel

theorem patched_cons (mode : ℕ) (pixel : Fin pixelCount) (pixels : List ℕ)
    (current : Fin pixelCount → V) :
    patched ops mode eeData toMap pixels
        (Function.update current pixel (made ops mode eeData toMap pixel)) =
      patched ops mode eeData toMap (pixel.val :: pixels) current := by
  funext q
  simp only [patched, List.mem_cons]
  by_cases hin : q.val ∈ pixels
  · simp [hin]
  · by_cases heq : q = pixel
    · simp [heq]
    · simp [hin, heq, Fin.val_inj]

/-- The induction is on the list; on the good pixels the map stays what it was. -/
theorem badPixelsCorrection_stored (mode : ℕ) (hfew : deviating eeData ≤ 4)
    (hapart : Apart eeData) {pixels : List ℕ} (n : ℕ) :
    ∀ {current : Fin pixelCount → V}, SameGood eeData toMap current →
      (∀ pixel ∈ pixels, pixel < pixelCount ∧ Deviates eeData pixel) →
      badPixelsCorrection ops mode (scanned eeData 768).pixels
          (pixels ++ List.replicate (n + 1) noPixel) current =
        some (patched ops mode eeData toMap pixels current) := by
  induction pixels with
  | nil =>
    intro current hsame hpixels
    simp [List.replicate_succ, badPixelsCorrection]
    rfl
  | cons pixel pixels ih =>
    intro current hsame hpixels
    obtain ⟨hp, hdev⟩ := hpixels pixel List.mem_cons_self
    have hstored : pixel ≠ noPixel := by
      unfold pixelCount at hp
      unfold noPixel
      omega
    have hdev' : Deviates eeData (⟨pixel, hp⟩ : Fin pixelCount) := hdev
    have hvalue := corrected_eq_made ops mode hsame hfew hapart hdev'
    have hsame' : SameGood eeData toMap
        (Function.update current ⟨pixel, hp⟩ (made ops mode eeData toMap ⟨pixel, hp⟩)) := by
      intro q hgood
      rw [Function.update_of_ne, hsame q hgood]
      rintro rfl
      exact hgood hdev
    simp only [List.cons_append, badPixelsCorrection, hvalue, Option.bind_eq_bind,
      Option.bind_some]
    rw [if_neg hstored, dif_pos hp,
      ih hsame' fun q hq => hpixels q (List.mem_cons_of_mem _ hq), patched_cons]

def allPatched (ops : FloatOps V) (mode : ℕ) (eeData : ℕ → ℕ) (toMap : Fin pixelCount → V) :
    Fin pixelCount → V := fun pixel =>
  if Deviates eeData pixel then made ops mode eeData toMap pixel else toMap pixel

theorem sameGood_patched (mode : ℕ) {pixels : List ℕ}
    (hpixels : ∀ pixel ∈ pixels, pixel < pixelCount ∧ Deviates eeData pixel) :
    SameGood eeData toMap (patched ops mode eeData toMap pixels toMap) := by
  intro pixel hgood
  exact if_neg fun hin => hgood (hpixels _ hin).2

theorem bind_badPixelsCorrection (mode : ℕ) (hfew : deviating eeData ≤ 4)
    (hapart : Apart eeData) {pixels others : List ℕ} (hlen : pixels.length ≤ 4)
    (hlen' : others.length ≤ 4)
    (hpixels : ∀ pixel, pixel ∈ pixels ∨ pixel ∈ others ↔
      pixel < pixelCount ∧ Deviates eeData pixel) :
    (badPixelsCorrection ops mode (scanned eeData 768).pixels (stored pixels) toMap >>=
      badPixelsCorrection ops mode (scanned eeData 768).pixels (stored others)) =
      some (allPatched ops mode eeData toMap) := by
  obtain ⟨n, hn⟩ : ∃ n, 5 - pixels.length = n + 1 := ⟨4 - pixels.length, by omega⟩
  obtain ⟨m, hm⟩ : ∃ m, 5 - others.length = m + 1 := ⟨4 - others.length, by omega⟩
  have hfirst : ∀ pixel ∈ pixels, pixel < pixelCount ∧ Deviates eeData pixel :=
    fun pixel hin => (hpixels pixel).1 (.inl hin)
  have hsecond : ∀ pixel ∈ others, pixel < pixelCount ∧ Deviates eeData pixel :=
    fun pixel hin => (hpixels pixel).1 (.inr hin)
  rw [stored, hn, badPixelsCorrection_stored mode hfew hapart n (fun _ _ => rfl) hfirst,
    Option.bind_eq_bind, Option.bind_some, stored, hm,
    badPixelsCorrection_stored mode hfew hapart m (sameGood_patched mode hfirst) hsecond]
  congr 1
  funext pixel
  have hin := hpixels pixel
  simp only [patched, allPatched]
  by_cases hdev : Deviates eeData pixel
  · rcases hin.2 ⟨pixel.isLt, hdev⟩ with h | h <;> simp [h, hdev]
  · have hnot : ¬ (pixel.val ∈ pixels ∨ pixel.val ∈ others) := fun h => hdev (hin.1 h).2
    rw [not_or] at hnot
    simp [hnot, hdev]

/-- With the lists of an accepted EEPROM the correction comes to its end within them and
within the map, and in either order of the lists makes the same map of it: the good pixels
stay, and the others get what the code works out from good ones alone. -/
theorem badPixelsCorrection_accepted (ops : FloatOps V) (mode : ℕ)
    (haccepted : (extractDeviatingPixels eeData).1 = 0) :
    let params := (extractDeviatingPixels eeData).2
    let correct := badPixelsCorrection ops mode params
    ∃ result : (Fin pixelCount → V) → Fin pixelCount → V, ∀ toMap,
      (correct params.brokenPixels toMap >>= correct params.outlierPixels) =
        some (result toMap) ∧
      (correct params.outlierPixels toMap >>= correct params.brokenPixels) =
        some (result toMap) ∧
      (∀ pixel : Fin pixelCount, ¬ Deviates eeData pixel → result toMap pixel = toMap pixel) ∧
      (∀ pixel : Fin pixelCount, Deviates eeData pixel →
        corrected ops mode params toMap pixel = some (result toMap pixel)) ∧
      ∀ other, SameGood eeData toMap other → result other = result toMap := by
  obtain ⟨hfew, hapart, hpixels⟩ := accepted_pixels haccepted
  have hsum := hfew
  unfold deviating at hsum
  have hmem : ∀ pixel, pixel ∈ brokenBelow eeData 768 ∨ pixel ∈ outliersBelow eeData 768 ↔
      pixel < pixelCount ∧ Deviates eeData pixel := by
    intro pixel
    rw [mem_brokenBelow, mem_outliersBelow, Deviates, pixelCount, and_or_left]
  dsimp only
  rw [hpixels, scanned_pixels]
  refine ⟨allPatched ops mode eeData, fun toMap => ⟨?_, ?_, fun pixel hgood => if_neg hgood,
    fun pixel hdev => ?_, fun other hsame => ?_⟩⟩
  · exact bind_badPixelsCorrection mode hfew hapart (by omega) (by omega) hmem
  · exact bind_badPixelsCorrection mode hfew hapart (by omega) (by omega)
      fun pixel => or_comm.trans (hmem pixel)
  · rw [allPatched, if_pos hdev]
    exact corrected_eq_made ops mode (fun _ _ => rfl) hfew hapart hdev
  · funext pixel
    by_cases hdev : Deviates eeData pixel
    · have hother := corrected_eq_made ops mode hsame hfew hapart hdev
      have hsame' : SameGood eeData other other := fun _ _ => rfl
      have hself := corrected_eq_made ops mode hsame' hfew hapart hdev
      rw [hself] at hother
      simpa [allPatched, hdev] using hother
    · rw [allPatched, allPatched, if_neg hdev, if_neg hdev, hsame pixel hdev]

/-- A broken pixel in a corner and an outlier inside. -/
theorem badPixelsCorrection_corner :
    let eeData : ℕ → ℕ := fun i => if i = 64 then 0 else if i = 164 then 3 else 2
    let params := (extractDeviatingPixels eeData).2
    let ops : FloatOps ℚ := ⟨fun x y => x < y, (· + ·), (· - ·), (· / 2), fun x => |x|⟩
    ∃ result, (badPixelsCorrection ops 1 params params.brokenPixels (fun _ => 20) >>=
      badPixelsCorrection ops 1 params params.outlierPixels) = some result ∧
      result ⟨1, by decide⟩ = 20 := by
  intro eeData params ops
  have haccepted : (extractDeviatingPixels eeData).1 = 0 := by decide +kernel
  obtain ⟨result, hresult⟩ := badPixelsCorrection_accepted ops 1 haccepted
  have hgood : ¬ Deviates eeData 1 := by decide
  exact ⟨result _, (hresult _).1, (hresult _).2.2.1 ⟨1, by decide⟩ hgood⟩

end Heaty.Mlx90640
