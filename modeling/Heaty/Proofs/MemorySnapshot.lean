import Heaty.Spec.MemoryHook

/-! `getMemoryStats`, which counts the records in one critical section and copies them in
another. -/

namespace Heaty.Memory

variable {s : Stats} {others : List MapStep} {obtained : Bool}

/-- The copy fits into the array, and fills what the caller is going to read. -/
structure Snapshot.Complete (snap : Snapshot) : Prop where
  fits : snap.copied ≤ snap.allocated
  filled : ∀ i < snap.size, i ∈ snap.written

theorem mapGetSize_lt (s : Stats) : s.mapGetSize < 65536 := Nat.mod_lt _ (by decide)

/-- As long as the index does not wrap around, the first records are written. -/
theorem mem_written_iff {n i : ℕ} (hn : n < 65536) :
    i ∈ (List.range n).map (· % 65536) ↔ i < n := by
  simp only [List.mem_map, List.mem_range]
  constructor
  · rintro ⟨j, hj, rfl⟩
    exact (Nat.mod_le j 65536).trans_lt hj
  · intro hi
    exact ⟨i, hi, Nat.mod_eq_of_lt (hi.trans hn)⟩

/-- A snapshot is complete exactly when the list is as long as it was counted to be when
it is copied, and there is an array for it. -/
theorem getMemoryStats_complete_iff :
    (s.getMemoryStats others obtained).Complete ↔
      (s.after others).length = s.mapGetSize ∧ (obtained = true ∨ s.mapGetSize = 0) := by
  have hlt := mapGetSize_lt s
  constructor
  · rintro ⟨hfits, hfilled⟩
    cases obtained with
    | true =>
      have hcopied : (s.after others).length ≤ s.mapGetSize := hfits
      refine ⟨le_antisymm hcopied ?_, Or.inl rfl⟩
      by_contra hshort
      have hwritten := hfilled _ (not_le.1 hshort)
      exact lt_irrefl _ ((mem_written_iff (hcopied.trans_lt hlt)).1 hwritten)
    | false =>
      have hzero : s.mapGetSize = 0 := by
        by_contra hpos
        exact absurd (hfilled 0 (Nat.pos_of_ne_zero hpos)) List.not_mem_nil
      have hcopied : (s.after others).length ≤ 0 := hfits
      exact ⟨by omega, Or.inr hzero⟩
  · rintro ⟨hlen, hobtained⟩
    cases obtained with
    | true => exact ⟨hlen.le, fun i hi => (mem_written_iff (hlen.trans_lt hlt)).2 (hlen ▸ hi)⟩
    | false =>
      have hzero := hobtained.resolve_left Bool.false_ne_true
      refine ⟨(hlen.trans hzero).le, fun i hi => ?_⟩
      have hi' : i < s.mapGetSize := hi
      omega

def oneRecord : Stats := Stats.start.mapPutStat 100 ⟨null, .cjson, 20⟩

/-- A record that is put into the list in between is copied past the end of the array,
and where one is removed, a record is returned that was not written. -/
theorem grown_and_shrunk_not_complete :
    ¬ (oneRecord.getMemoryStats [.put 200 ⟨null, .lodepng, 21⟩] true).Complete ∧
      ¬ (oneRecord.getMemoryStats [.remove 100] true).Complete := by
  constructor
  · intro h
    exact absurd h.fits (by decide)
  · intro h
    exact absurd (h.filled 0 (by decide)) (by decide)

end Heaty.Memory
