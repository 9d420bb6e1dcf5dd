import Mathlib.Data.Nat.Bitwise
import Heaty.Spec.Mlx90640

/-! Which two frames make up a whole heat map. -/

namespace Heaty.Mlx90640

variable {V : Type} {temperature : Frame → Fin pixelCount → V} {allocated : Bool}
  {garbage frameData : Frame} {bus first second : Bus} {m m' s s' : ℕ}

theorem ilPattern_lt_two (pixelNumber : ℕ) : ilPattern pixelNumber < 2 := by
  unfold ilPattern
  omega

theorem chessPattern_lt_two (pixelNumber : ℕ) : chessPattern pixelNumber < 2 :=
  Nat.xor_lt_two_pow (n := 1) (ilPattern_lt_two pixelNumber) (by omega)

theorem pattern_lt_two (mode pixelNumber : ℕ) : pattern mode pixelNumber < 2 := by
  unfold pattern
  split_ifs
  · exact ilPattern_lt_two pixelNumber
  · exact chessPattern_lt_two pixelNumber

/-- Two pixels of the first row and two of the second show every combination of the
patterns. -/
theorem pattern_corners (mode : ℕ) :
    pattern mode 0 = 0 ∧ pattern mode 33 = (if mode = 0 then 1 else 0) ∧
      pattern mode 32 = 1 ∧ pattern mode 1 = (if mode = 0 then 0 else 1) := by
  unfold pattern
  split_ifs <;> decide

theorem covers_iff (hs : s < 2) (hs' : s' < 2) :
    (∀ p : Fin pixelCount, pattern m p = s ∨ pattern m' p = s') ↔
      (m = 0 ↔ m' = 0) ∧ s ≠ s' := by
  constructor
  · intro h
    have h0 := h ⟨0, by decide⟩
    have h1 := h ⟨1, by decide⟩
    have h32 := h ⟨32, by decide⟩
    have h33 := h ⟨33, by decide⟩
    simp only [pattern_corners m, pattern_corners m'] at h0 h1 h32 h33
    by_cases hm : m = 0 <;> by_cases hm' : m' = 0 <;>
      simp only [hm, hm', if_true, if_false, true_and, iff_true, iff_false, not_true_eq_false,
        false_and] at h0 h1 h32 h33 ⊢ <;> omega
  · rintro ⟨hmode, hne⟩ p
    have hsame : pattern m' p = pattern m p := by simp only [pattern, hmode]
    have hlt := pattern_lt_two m p
    rw [hsame]
    omega

theorem mode_eq_zero_or (frameData : Frame) : mode frameData = 0 ∨ mode frameData = 128 := by
  have hbit : frameData controlWord &&& 0x1000 =
      ((frameData controlWord).testBit 12).toNat * 2 ^ 12 := Nat.and_two_pow _ 12
  unfold mode
  rw [hbit]
  cases (frameData controlWord).testBit 12
  · exact Or.inl rfl
  · exact Or.inr rfl

theorem mode_eq_iff (f g : Frame) : (mode f = 0 ↔ mode g = 0) ↔ mode f = mode g := by
  rcases mode_eq_zero_or f with hf | hf <;> rcases mode_eq_zero_or g with hg | hg <;> simp [hf, hg]

theorem validateFrameData_eq (frameData : Frame) :
    validateFrameData frameData = 0 ∨ validateFrameData frameData = -8 := by
  unfold validateFrameData
  split_ifs
  · exact Or.inr rfl
  · exact Or.inl rfl

theorem assemble_subPage (frameData : Frame) (pixels data : ℕ → ℕ)
    (controlRegister1 statusRegister : ℕ) :
    assemble frameData pixels data controlRegister1 statusRegister subPageWord =
      statusRegister % 2 := by
  unfold assemble
  split_ifs <;> simp [storeWords, subPageWord, pixelCount, auxCount]

theorem getFrameData_cases (bus : Bus) (frameData : Frame) :
    (getFrameData bus frameData).1 < 0 ∨ (getFrameData bus frameData).2 subPageWord < 2 := by
  obtain ⟨status, statusWritten, pixels, aux, control⟩ := bus
  rcases status with _ | status
  · exact Or.inl (by simp [getFrameData])
  rcases pixels with _ | pixels
  · exact Or.inl (by simp [getFrameData])
  rcases aux with _ | aux
  · exact Or.inl (by simp [getFrameData])
  rcases control with _ | control
  · exact Or.inl (by simp [getFrameData])
  simp only [getFrameData]
  split_ifs
  · right
    dsimp only
    rw [assemble_subPage]
    exact Nat.mod_lt _ two_pos
  · right
    dsimp only
    rw [assemble_subPage]
    exact Nat.mod_lt _ two_pos
  · exact Or.inl neg_one_lt_zero

def firstFrame (garbage : Frame) (first : Bus) : ℤ × Frame := getFrameData first garbage

def secondFrame (garbage : Frame) (first second : Bus) : ℤ × Frame :=
  getFrameData second (firstFrame garbage first).2

def BothRead (garbage : Frame) (first second : Bus) : Prop :=
  0 ≤ (firstFrame garbage first).1 ∧ 0 ≤ (secondFrame garbage first second).1

/-- The frames are the two halves of one pattern. -/
def Alternate (garbage : Frame) (first second : Bus) : Prop :=
  let f := (firstFrame garbage first).2
  let g := (secondFrame garbage first second).2
  mode f = mode g ∧ f subPageWord ≠ g subPageWord

/-- What is handed to the callback was measured in this run, all of it, or the size is 0,
as it is when a page fails. -/
structure Covered (temperature : Frame → Fin pixelCount → V) (allocated : Bool) (garbage : Frame)
    (first second : Bus) (notified : Notified V) : Prop where
  whole : notified.size ≠ 0 → ∃ heatMap, notified.heatMap = some heatMap ∧
    ∀ p, heatMap p = some (temperature (firstFrame garbage first).2 p) ∨
      heatMap p = some (temperature (secondFrame garbage first second).2 p)
  size : allocated = true → BothRead garbage first second → notified.size = heatMapDataSize
  failed : ¬ BothRead garbage first second → notified.size = 0

theorem readPages_failed
    (hfail : ¬ BothRead garbage first second) (heatMap : HeatMap V) :
    (readPages temperature [first, second] garbage heatMap).1 = false := by
  by_cases hfirst : (getFrameData first garbage).1 < 0
  · simp only [readPages, hfirst, if_true]
  · have hsecond : (getFrameData second (getFrameData first garbage).2).1 < 0 := by
      by_contra hsecond
      exact hfail ⟨not_lt.1 hfirst, not_lt.1 hsecond⟩
    simp only [readPages, hfirst, if_false, hsecond, if_true]

theorem readPages_read (hread : BothRead garbage first second) (heatMap : HeatMap V) :
    readPages temperature [first, second] garbage heatMap =
      (true, calculateTo temperature (secondFrame garbage first second).2
        (calculateTo temperature (firstFrame garbage first).2 heatMap)) := by
  obtain ⟨hfirst, hsecond⟩ := hread
  rw [firstFrame] at hfirst
  rw [secondFrame, firstFrame] at hsecond
  simp only [readPages, hfirst.not_gt, hsecond.not_gt, if_false, firstFrame, secondFrame]

theorem readHeatMap_read (hread : BothRead garbage first second) :
    readHeatMap temperature true garbage first second =
      ⟨some (calculateTo temperature (secondFrame garbage first second).2
        (calculateTo temperature (firstFrame garbage first).2 fun _ => none)),
        heatMapDataSize⟩ := by
  simp only [readHeatMap, if_true, readPages_read hread]

theorem readHeatMap_failed (hfail : ¬ BothRead garbage first second) :
    (readHeatMap temperature allocated garbage first second).size = 0 := by
  unfold readHeatMap
  split_ifs with halloc
  · simp [readPages_failed hfail]
  · rfl

/-- An entry that neither frame is about was not written. -/
theorem calculateTo_twice (f g : Frame) (p : Fin pixelCount) :
    calculateTo temperature g (calculateTo temperature f fun _ => none) p =
      if pattern (mode g) p = g subPageWord then some (temperature g p)
      else if pattern (mode f) p = f subPageWord then some (temperature f p)
      else none := rfl

theorem written_iff (temperature : Frame → Fin pixelCount → V)
    (hread : BothRead garbage first second) :
    (∀ p, calculateTo temperature (secondFrame garbage first second).2
        (calculateTo temperature (firstFrame garbage first).2 fun _ => none) p ≠ none) ↔
      Alternate garbage first second := by
  have hfirst : (firstFrame garbage first).2 subPageWord < 2 :=
    (getFrameData_cases first garbage).resolve_left (not_lt.2 hread.1)
  have hsecond : (secondFrame garbage first second).2 subPageWord < 2 :=
    (getFrameData_cases second _).resolve_left (not_lt.2 hread.2)
  unfold Alternate
  dsimp only
  rw [← mode_eq_iff, ← covers_iff hfirst hsecond]
  apply forall_congr'
  intro p
  rw [calculateTo_twice]
  split_ifs with hg hf
  · simp [hg]
  · simp [hf]
  · simp [hg, hf]

theorem readHeatMap_covered (h : allocated = true → BothRead garbage first second →
    Alternate garbage first second) :
    Covered temperature allocated garbage first second
      (readHeatMap temperature allocated garbage first second) := by
  refine ⟨fun hsize => ?_, fun halloc hread => ?_, readHeatMap_failed⟩
  · by_cases hread : BothRead garbage first second
    · cases allocated with
      | false => exact absurd rfl hsize
      | true =>
        have hwritten := (written_iff temperature hread).2 (h rfl hread)
        rw [readHeatMap_read hread]
        refine ⟨_, rfl, fun p => ?_⟩
        have hp := hwritten p
        rw [calculateTo_twice] at hp ⊢
        split_ifs at hp ⊢
        · exact Or.inr rfl
        · exact Or.inl rfl
        · exact absurd rfl hp
    · exact absurd (readHeatMap_failed hread) hsize
  · subst halloc
    rw [readHeatMap_read hread]

/-- A run hands over a whole heat map, or none, exactly when two frames that were read
are the two halves of one pattern. -/
theorem readHeatMap_covered_iff :
    Covered temperature allocated garbage first second
        (readHeatMap temperature allocated garbage first second) ↔
      (allocated = true → BothRead garbage first second → Alternate garbage first second) := by
  refine ⟨fun h halloc hread => ?_, readHeatMap_covered⟩
  subst halloc
  rw [readHeatMap_read hread] at h
  obtain ⟨heatMap, hmap, hwhole⟩ := h.whole (show heatMapDataSize ≠ 0 by decide)
  rw [← written_iff temperature hread]
  intro p
  rw [Option.some.inj hmap]
  rcases hwhole p with hp | hp <;> simp [hp]

theorem notifyHeatMapCb_submits :
    notifyHeatMapCb (readHeatMap temperature allocated garbage first second) = some (.error (-1)) ∨
      BothRead garbage first second ∧ ∃ heatMap,
        notifyHeatMapCb (readHeatMap temperature allocated garbage first second) =
          some (.heatMapDataReady heatMap) := by
  by_cases hread : BothRead garbage first second
  · cases allocated with
    | false => exact Or.inl rfl
    | true =>
      rw [readHeatMap_read hread]
      exact Or.inr ⟨hread, _, rfl⟩
  · left
    rw [notifyHeatMapCb, readHeatMap_failed hread]
    rfl

def evenPage : Bus where
  statusRegister := some 8
  statusWritten := true
  pixels := some fun _ => 1
  aux := some fun _ => 1
  controlRegister1 := some 0x1000

/-- Where a sub-page comes twice, the second pixel is handed over unwritten. -/
theorem same_subPage_not_covered :
    ((readHeatMap (fun _ _ => ()) true (fun _ => 0) evenPage evenPage).size = heatMapDataSize ∧
      (readHeatMap (fun _ _ => ()) true (fun _ => 0) evenPage evenPage).heatMap.map
        (fun heatMap => heatMap ⟨1, by decide⟩) = some none) ∧
      ¬ Covered (fun _ _ => ()) true (fun _ => 0) evenPage evenPage
        (readHeatMap (fun _ _ => ()) true (fun _ => 0) evenPage evenPage) := by
  have hsize : (readHeatMap (fun _ _ => ()) true (fun _ => 0) evenPage evenPage).size =
      heatMapDataSize := by decide
  have hunwritten : (readHeatMap (fun _ _ => ()) true (fun _ => 0) evenPage evenPage).heatMap.map
      (fun heatMap => heatMap ⟨1, by decide⟩) = some none := by decide
  refine ⟨⟨hsize, hunwritten⟩, fun h => ?_⟩
  obtain ⟨heatMap, hmap, hwhole⟩ := h.whole (by rw [hsize]; decide)
  rw [hmap, Option.map_some, Option.some.injEq] at hunwritten
  rcases hwhole ⟨1, by decide⟩ with hp | hp <;> rw [hp] at hunwritten <;> cases hunwritten

end Heaty.Mlx90640
