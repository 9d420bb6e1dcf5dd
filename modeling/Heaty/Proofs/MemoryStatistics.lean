import Heaty.Spec.MemoryHook

/-! What the statistics list says of the blocks that the hooks have given out. -/

namespace Heaty.Memory

open Keyed
open Utils (overwrite)

variable {h h' : Heap} {b : Block} {ptr : Addr} {size newSize : ℕ} {id : StatisticsId}
  {result : KMalloc} {data bytes : Bytes} {calls : List Call}

def Block.entry (b : Block) : MemoryStatList := ⟨b.addr, b.id, b.data.length % 65536⟩

def Block.shape (b : Block) : Addr × StatisticsId × ℕ := (b.addr, b.id, b.data.length)

def Stats.tracked (s : Stats) : List MemoryStatList := s.memoryStats.filter fun e => e.key ≠ null

/-- The counter is the sum of the records, and its peak the largest value it has had. -/
structure Stats.Ok (s : Stats) : Prop where
  lens : ∀ e ∈ s.memoryStats, e.len < 65536
  inUse : s.inUse = (s.memoryStats.map MemoryStatList.len).sum % 4294967296
  peak : s.inUsePeak ∈ s.seen ∧ ∀ n ∈ s.seen, n ≤ s.inUsePeak

/-- What holds of the heap and its statistics at all times: of every block there is just
one record. -/
structure Inv (h : Heap) : Prop where
  addrs : (h.live.map Block.addr).Nodup
  nonnull : null ∉ h.live.map Block.addr
  tracked : h.stats.tracked.Perm (h.live.map Block.entry)
  total : h.total < 4294967296
  stats : h.stats.Ok

theorem start_inv : Inv .start :=
  ⟨by simp [Heap.start], by simp [Heap.start], .refl _, by decide,
    ⟨by simp [Heap.start, Stats.start], rfl, by decide⟩⟩

/-! ## The list -/

section List

variable {s : Stats} {e : MemoryStatList} {key : Addr}

theorem count_peak (n : ℕ) (hpeak : s.inUsePeak ∈ s.seen ∧ ∀ n ∈ s.seen, n ≤ s.inUsePeak) :
    (s.count n).inUsePeak ∈ (s.count n).seen ∧
      ∀ m ∈ (s.count n).seen, m ≤ (s.count n).inUsePeak := by
  simp only [Stats.count, List.mem_cons]
  constructor
  · rcases le_total (n % 4294967296) s.inUsePeak with hle | hle
    · rw [max_eq_left hle]
      exact Or.inr hpeak.1
    · rw [max_eq_right hle]
      exact Or.inl rfl
  · rintro m (rfl | hm)
    · exact le_max_right _ _
    · exact (hpeak.2 m hm).trans (le_max_left _ _)

theorem mapPutStat_ok (h : s.Ok) (hlen : e.len < 65536) (key : Addr) : (s.mapPutStat key e).Ok := by
  refine ⟨fun e' he' => ?_, ?_, count_peak _ h.peak⟩
  · rcases List.mem_append.1 he' with he' | he'
    · exact h.lens e' he'
    · rw [List.mem_singleton.1 he']
      exact hlen
  · simp only [Stats.mapPutStat, Stats.count, List.map_append, List.map_cons, List.map_nil,
      List.sum_append, List.sum_cons, List.sum_nil, h.inUse]
    omega

theorem mapRemoveStat_of_some (hfound : lookup MemoryStatList.key key s.memoryStats = some e) :
    s.mapRemoveStat key = { s.count (s.inUse + 4294967296 - e.len) with
      memoryStats := remove MemoryStatList.key key s.memoryStats } := by
  simp only [Stats.mapRemoveStat, hfound]

theorem mapRemoveStat_of_none (hfound : lookup MemoryStatList.key key s.memoryStats = none) :
    s.mapRemoveStat key = s := by
  simp only [Stats.mapRemoveStat, hfound]

theorem mapRemoveStat_memoryStats (s : Stats) (key : Addr) :
    (s.mapRemoveStat key).memoryStats = remove MemoryStatList.key key s.memoryStats := by
  cases hfound : lookup MemoryStatList.key key s.memoryStats with
  | none => rw [mapRemoveStat_of_none hfound, remove_of_notMem (lookup_eq_none.1 hfound)]
  | some e => rw [mapRemoveStat_of_some hfound]

theorem mapRemoveStat_ok (h : s.Ok) (key : Addr) : (s.mapRemoveStat key).Ok := by
  cases hfound : lookup MemoryStatList.key key s.memoryStats with
  | none => rwa [mapRemoveStat_of_none hfound]
  | some e =>
    have hlen := h.lens e (lookup_mem hfound)
    have hsum := sum_remove MemoryStatList.len hfound
    have hinUse := h.inUse
    rw [mapRemoveStat_of_some hfound]
    refine ⟨fun e' he' => h.lens e' (mem_of_mem_remove he'), ?_, count_peak _ h.peak⟩
    simp only [Stats.count]
    omega

theorem mapPutStat_tracked_null (s : Stats) (e : MemoryStatList) :
    (s.mapPutStat null e).tracked = s.tracked := by
  simp [Stats.tracked, Stats.mapPutStat]

theorem mapPutStat_tracked (hkey : key ≠ null) (s : Stats) (e : MemoryStatList) :
    (s.mapPutStat key e).tracked = s.tracked ++ [{ e with key := key }] := by
  simp [Stats.tracked, Stats.mapPutStat, hkey]

theorem lookup_tracked (hkey : key ≠ null) (s : Stats) :
    lookup MemoryStatList.key key s.tracked = lookup MemoryStatList.key key s.memoryStats :=
  lookup_filter fun e he => by simpa [he] using hkey

theorem mapRemoveStat_tracked_null (s : Stats) : (s.mapRemoveStat null).tracked.Perm s.tracked := by
  cases hfound : lookup MemoryStatList.key null s.memoryStats with
  | none => rw [mapRemoveStat_of_none hfound]
  | some e =>
    have hperm := (perm_cons_remove hfound).filter fun e => e.key ≠ null
    rw [List.filter_cons_of_neg (by simp [lookup_key hfound])] at hperm
    rw [Stats.tracked, mapRemoveStat_memoryStats]
    exact hperm.symm

theorem mapRemoveStat_tracked (hkey : key ≠ null)
    (hfound : lookup MemoryStatList.key key s.memoryStats = some e) :
    s.tracked.Perm (e :: (s.mapRemoveStat key).tracked) := by
  have hperm := (perm_cons_remove hfound).filter fun e => e.key ≠ null
  rw [List.filter_cons_of_pos (by simpa [lookup_key hfound] using hkey)] at hperm
  rwa [Stats.tracked, Stats.tracked, mapRemoveStat_memoryStats]

end List

/-! ## Blocks and their records -/

theorem map_entry_key (l : List Block) :
    (l.map Block.entry).map MemoryStatList.key = l.map Block.addr := by
  rw [List.map_map]
  rfl

theorem addr_ne_null (hinv : Inv h) (hb : b ∈ h.live) : b.addr ≠ null :=
  fun heq => hinv.nonnull (heq ▸ List.mem_map_of_mem hb)

theorem tracked_nodup (hinv : Inv h) : (h.stats.tracked.map MemoryStatList.key).Nodup := by
  rw [(hinv.tracked.map MemoryStatList.key).nodup_iff, map_entry_key]
  exact hinv.addrs

theorem lookup_live (hinv : Inv h) (hb : b ∈ h.live) :
    lookup MemoryStatList.key b.addr h.stats.memoryStats = some b.entry := by
  rw [← lookup_tracked (addr_ne_null hinv hb)]
  exact lookup_of_mem (tracked_nodup hinv) (hinv.tracked.mem_iff.2 (List.mem_map_of_mem hb))

theorem lookup_not_live (hinv : Inv h) (hnull : ptr ≠ null) (hptr : ptr ∉ h.live.map Block.addr) :
    lookup MemoryStatList.key ptr h.stats.memoryStats = none := by
  rw [← lookup_tracked hnull, lookup_eq_none, (hinv.tracked.map MemoryStatList.key).mem_iff,
    map_entry_key]
  exact hptr

theorem lookup_block (hinv : Inv h) (hb : b ∈ h.live) :
    lookup Block.addr b.addr h.live = some b := lookup_of_mem hinv.addrs hb

/-! ## The hooks -/

theorem myMalloc_inv (hinv : Inv h) (hreturns : h.Returns size result) (id : StatisticsId) :
    Inv (h.myMalloc size id result).2 := by
  have hlen : size % 65536 < 65536 := Nat.mod_lt _ (by decide)
  rcases result with _ | ⟨ptr, data⟩
  · refine ⟨hinv.addrs, hinv.nonnull, ?_, hinv.total, mapPutStat_ok hinv.stats hlen _⟩
    simp only [Heap.myMalloc, mapPutStat_tracked_null]
    exact hinv.tracked
  · obtain ⟨hnull, hfresh, hdata, htotal⟩ := hreturns
    refine ⟨?_, ?_, ?_, ?_, mapPutStat_ok hinv.stats hlen _⟩
    · exact List.nodup_cons.2 ⟨hfresh, hinv.addrs⟩
    · simpa [Heap.myMalloc, eq_comm, hnull] using hinv.nonnull
    · simp only [Heap.myMalloc, mapPutStat_tracked hnull, List.map_cons]
      refine (List.perm_append_singleton _ _).trans ?_
      simp only [Block.entry, hdata]
      exact hinv.tracked.cons _
    · simp only [Heap.total, Heap.myMalloc, List.map_cons, List.sum_cons, hdata] at htotal ⊢
      omega

theorem myFree_null (hinv : Inv h) : (h.myFree null).live = h.live :=
  remove_of_notMem hinv.nonnull

theorem myFree_live_perm (hinv : Inv h) (hb : b ∈ h.live) :
    h.live.Perm (b :: (h.myFree b.addr).live) := perm_cons_remove (lookup_block hinv hb)

theorem myFree_inv (hinv : Inv h) (howned : h.Owned ptr) : Inv (h.myFree ptr) := by
  rcases howned with rfl | hptr
  · refine ⟨?_, ?_, ?_, ?_, mapRemoveStat_ok hinv.stats _⟩
    · rw [myFree_null hinv]
      exact hinv.addrs
    · rw [myFree_null hinv]
      exact hinv.nonnull
    · rw [myFree_null hinv]
      exact (mapRemoveStat_tracked_null _).trans hinv.tracked
    · rw [Heap.total, myFree_null hinv]
      exact hinv.total
  · obtain ⟨b, hb, rfl⟩ := List.mem_map.1 hptr
    have hlive := myFree_live_perm hinv hb
    refine ⟨nodup_remove hinv.addrs, ?_, ?_, ?_, mapRemoveStat_ok hinv.stats _⟩
    · exact fun hnull => hinv.nonnull (((remove_sublist _ _ _).map _).subset hnull)
    · have hremoved := mapRemoveStat_tracked (addr_ne_null hinv hb) (lookup_live hinv hb)
      have hrecords := hremoved.symm.trans (hinv.tracked.trans (hlive.map Block.entry))
      exact List.Perm.cons_inv hrecords
    · have hsum := (hlive.map (·.data.length)).sum_eq
      have htotal := hinv.total
      simp only [List.map_cons, List.sum_cons] at hsum
      unfold Heap.total at htotal ⊢
      omega

theorem inv_of_shape (hinv : Inv h) (hlive : h'.live.map Block.shape = h.live.map Block.shape)
    (hstats : h'.stats = h.stats) : Inv h' := by
  have haddrs : h'.live.map Block.addr = h.live.map Block.addr := by
    have hmap := congrArg (List.map Prod.fst) hlive
    rwa [List.map_map, List.map_map] at hmap
  have hentries : h'.live.map Block.entry = h.live.map Block.entry := by
    have hmap := congrArg (List.map fun shape : Addr × StatisticsId × ℕ =>
      (⟨shape.1, shape.2.1, shape.2.2 % 65536⟩ : MemoryStatList)) hlive
    rwa [List.map_map, List.map_map] at hmap
  have hsizes : h'.live.map (·.data.length) = h.live.map (·.data.length) := by
    have hmap := congrArg (List.map fun shape : Addr × StatisticsId × ℕ => shape.2.2) hlive
    rwa [List.map_map, List.map_map] at hmap
  refine ⟨?_, ?_, ?_, ?_, ?_⟩
  · rw [haddrs]
    exact hinv.addrs
  · rw [haddrs]
    exact hinv.nonnull
  · rw [hentries, hstats]
    exact hinv.tracked
  · rw [Heap.total, hsizes]
    exact hinv.total
  · rw [hstats]
    exact hinv.stats

theorem store_shape (hroom : ∀ b ∈ h.live, b.addr = ptr → bytes.length ≤ b.data.length) :
    (h.store ptr bytes).live.map Block.shape = h.live.map Block.shape := by
  simp only [Heap.store, List.map_map]
  apply List.map_congr_left
  intro b hb
  simp only [Function.comp_apply]
  split_ifs with haddr
  · have hlen := hroom b hb haddr
    simp only [Block.shape, Utils.length_overwrite hlen]
  · rfl

theorem store_inv (hinv : Inv h)
    (hroom : ∀ b ∈ h.live, b.addr = ptr → bytes.length ≤ b.data.length) :
    Inv (h.store ptr bytes) := inv_of_shape hinv (store_shape hroom) rfl

/-! ## my_realloc -/

theorem mapGetStat_live (hinv : Inv h) (hb : b ∈ h.live) : h.stats.mapGetStat b.addr = b.entry := by
  rw [Stats.mapGetStat, lookup_live hinv hb, Option.getD_some]

/-- The length that `my_realloc` takes a block to have. -/
def Block.knownLen (b : Block) : ℕ := b.data.length % 65536

theorem knownLen_le (b : Block) : b.knownLen ≤ b.data.length := Nat.mod_le _ _

theorem myRealloc_zero (h : Heap) (ptr : Addr) (id : StatisticsId) (result : KMalloc) :
    h.myRealloc ptr 0 id result = (null, h.myFree ptr) := rfl

theorem myRealloc_null (hsize : newSize ≠ 0) (h : Heap) (id : StatisticsId) (result : KMalloc) :
    h.myRealloc null newSize id result = h.myMalloc newSize id result := by
  simp [Heap.myRealloc, hsize]

theorem myRealloc_kept (hinv : Inv h) (hb : b ∈ h.live) (hsize : newSize ≠ 0)
    (hlen : newSize ≤ b.knownLen) : h.myRealloc b.addr newSize id result = (b.addr, h) := by
  have hlen' : newSize ≤ b.entry.len := hlen
  simp only [Heap.myRealloc, mapGetStat_live hinv hb, hsize, addr_ne_null hinv hb, hlen', if_false,
    if_true]

theorem myRealloc_failed (hinv : Inv h) (hb : b ∈ h.live) (hlen : b.knownLen < newSize) :
    h.myRealloc b.addr newSize id none = h.myMalloc newSize id none := by
  have hlen' : ¬ newSize ≤ b.entry.len := not_le.2 hlen
  have hsize : newSize ≠ 0 := by omega
  simp only [Heap.myRealloc, mapGetStat_live hinv hb, hsize, addr_ne_null hinv hb, hlen', if_false,
    Heap.myMalloc, ne_eq, not_true_eq_false]

/-- The heap between the copy and the release of the old block. -/
def Heap.copied (h : Heap) (b : Block) (newSize : ℕ) (id : StatisticsId) (ptr : Addr)
    (data : Bytes) : Heap :=
  (h.myMalloc newSize id (some (ptr, data))).2.store ptr (b.data.take b.knownLen)

theorem myRealloc_moved (hinv : Inv h) (hb : b ∈ h.live) (hlen : b.knownLen < newSize)
    (hreturns : h.Returns newSize (some (ptr, data))) :
    h.myRealloc b.addr newSize id (some (ptr, data)) =
      (ptr, (h.copied b newSize id ptr data).myFree b.addr) := by
  obtain ⟨hnull, hfresh, -, -⟩ := hreturns
  have hlen' : ¬ newSize ≤ b.entry.len := not_le.2 hlen
  have hsize : newSize ≠ 0 := by omega
  have hne : ptr ≠ b.addr := fun heq => hfresh (heq ▸ List.mem_map_of_mem hb)
  have hfound : lookup Block.addr b.addr (⟨ptr, id, data⟩ :: h.live) = some b := by
    have htail := lookup_block hinv hb
    simpa [lookup, hne] using htail
  have hload : (h.myMalloc newSize id (some (ptr, data))).2.load b.addr b.entry.len =
      b.data.take b.knownLen := by
    simp only [Heap.load, Heap.myMalloc, hfound]
    rfl
  simp only [Heap.myRealloc, mapGetStat_live hinv hb, hsize, addr_ne_null hinv hb, hlen', if_false,
    hload]
  simp only [Heap.myMalloc, hnull, ne_eq, not_false_eq_true, if_true, Heap.copied]

theorem copied_inv (hinv : Inv h) (hlen : b.knownLen < newSize)
    (hreturns : h.Returns newSize (some (ptr, data))) (id : StatisticsId) :
    Inv (h.copied b newSize id ptr data) := by
  have hfresh := hreturns.2.1
  have hdata := hreturns.2.2.1
  refine store_inv (myMalloc_inv hinv hreturns id) fun c hc haddr => ?_
  rcases List.mem_cons.1 hc with rfl | hc
  · simp only [List.length_take, hdata]
    omega
  · exact absurd (haddr ▸ List.mem_map_of_mem hc) hfresh

/-- The blocks then: the new one, with what was copied, before all others. -/
theorem copied_live (hreturns : h.Returns newSize (some (ptr, data))) (b : Block)
    (id : StatisticsId) :
    (h.copied b newSize id ptr data).live =
      ⟨ptr, id, overwrite (b.data.take b.knownLen) data⟩ :: h.live := by
  have hfresh := hreturns.2.1
  simp only [Heap.copied, Heap.store, Heap.myMalloc, List.map_cons, if_true]
  congr 1
  refine (List.map_congr_left fun c hc => ?_).trans (List.map_id _)
  exact if_neg fun haddr : c.addr = ptr => hfresh (haddr ▸ List.mem_map_of_mem hc)

def Heap.Allocates (h : Heap) (ptr : Addr) (newSize : ℕ) : Prop :=
  newSize ≠ 0 ∧ (ptr = null ∨ (h.stats.mapGetStat ptr).len < newSize)

instance (h : Heap) (ptr : Addr) (newSize : ℕ) : Decidable (h.Allocates ptr newSize) :=
  inferInstanceAs (Decidable (_ ∧ _))

theorem myRealloc_inv (hinv : Inv h) (howned : h.Owned ptr) (hreturns : h.Returns newSize result)
    (id : StatisticsId) : Inv (h.myRealloc ptr newSize id result).2 := by
  by_cases hsize : newSize = 0
  · subst hsize
    exact myFree_inv hinv howned
  rcases howned with rfl | hptr
  · rw [myRealloc_null hsize]
    exact myMalloc_inv hinv hreturns id
  · obtain ⟨b, hb, rfl⟩ := List.mem_map.1 hptr
    rcases le_or_gt newSize b.knownLen with hlen | hlen
    · rwa [myRealloc_kept hinv hb hsize hlen]
    · rcases result with _ | ⟨new, data⟩
      · rw [myRealloc_failed hinv hb hlen]
        exact myMalloc_inv hinv hreturns id
      · rw [myRealloc_moved hinv hb hlen hreturns]
        refine myFree_inv (copied_inv hinv hlen hreturns id) (Or.inr ?_)
        rw [copied_live hreturns]
        exact List.mem_map_of_mem (List.mem_cons_of_mem _ hb)

theorem step_inv {c : Call} (hinv : Inv h) (hstep : h.step c = some h') : Inv h' := by
  cases c with
  | malloc size id result =>
    simp only [Heap.step] at hstep
    split_ifs at hstep with hguard
    cases hstep
    exact myMalloc_inv hinv hguard.2 id
  | free ptr =>
    simp only [Heap.step] at hstep
    split_ifs at hstep with hguard
    cases hstep
    exact myFree_inv hinv hguard
  | realloc ptr newSize id result =>
    simp only [Heap.step] at hstep
    split_ifs at hstep with hguard
    cases hstep
    exact myRealloc_inv hinv hguard.2.1 hguard.2.2 id
  | store b bytes =>
    simp only [Heap.step] at hstep
    split_ifs at hstep with hguard
    cases hstep
    refine store_inv hinv fun c hc haddr => ?_
    rw [List.inj_on_of_nodup_map hinv.addrs hc hguard.1 haddr]
    exact hguard.2

theorem inv_of_run (h : heap.Run calls h') : Inv h' :=
  h.invariant Inv start_inv fun _ _ _ hinv _ hstep => step_inv hinv hstep

/-! ## When the statistics are right -/

/-- The statistics say what blocks there are and how large they are. -/
structure Accurate (h : Heap) : Prop where
  entries : h.stats.memoryStats.Perm (h.live.map fun b => ⟨b.addr, b.id, b.data.length⟩)
  keys : (h.stats.memoryStats.map MemoryStatList.key).Nodup
  found : ∀ b ∈ h.live, h.stats.mapGetStat b.addr = ⟨b.addr, b.id, b.data.length⟩
  missing : ∀ ptr, ptr ∉ h.live.map Block.addr → h.stats.mapGetStat ptr = .zero
  inUse : h.stats.inUse = (h.live.map (·.data.length)).sum
  peak : h.stats.inUsePeak ∈ h.stats.seen ∧ ∀ n ∈ h.stats.seen, n ≤ h.stats.inUsePeak

/-- No allocation has left a record, and every size fits into its record. -/
structure Fitting (h : Heap) : Prop where
  inv : Inv h
  keys : ∀ e ∈ h.stats.memoryStats, e.key ≠ null
  sizes : ∀ b ∈ h.live, b.data.length < 65536

theorem Fitting.tracked (hfit : Fitting h) : h.stats.tracked = h.stats.memoryStats :=
  List.filter_eq_self.2 fun e he => by simpa using hfit.keys e he

theorem Fitting.entry_eq (hfit : Fitting h) (hb : b ∈ h.live) :
    b.entry = ⟨b.addr, b.id, b.data.length⟩ := by
  rw [Block.entry, Nat.mod_eq_of_lt (hfit.sizes b hb)]

theorem accurate_of_fitting (hfit : Fitting h) : Accurate h := by
  have hinv := hfit.inv
  have hperm : h.stats.memoryStats.Perm (h.live.map Block.entry) := hfit.tracked ▸ hinv.tracked
  have hentries : h.live.map Block.entry =
      h.live.map fun b => (⟨b.addr, b.id, b.data.length⟩ : MemoryStatList) :=
    List.map_congr_left fun b hb => hfit.entry_eq hb
  have hsum : (h.stats.memoryStats.map MemoryStatList.len).sum = h.total := by
    rw [(hperm.map _).sum_eq, hentries, List.map_map]
    rfl
  refine ⟨hentries ▸ hperm, hfit.tracked ▸ tracked_nodup hinv, fun b hb => ?_, fun ptr hptr => ?_,
    ?_, hinv.stats.peak⟩
  · rw [mapGetStat_live hinv hb, hfit.entry_eq hb]
  · have hmissing : lookup MemoryStatList.key ptr h.stats.memoryStats = none := by
      rw [lookup_eq_none, (hperm.map _).mem_iff, map_entry_key]
      exact hptr
    rw [Stats.mapGetStat, hmissing, Option.getD_none]
  · rw [hinv.stats.inUse, hsum]
    exact Nat.mod_eq_of_lt hinv.total

theorem fitting_of_accurate (hinv : Inv h) (hacc : Accurate h) : Fitting h := by
  refine ⟨hinv, fun e he hnull => ?_, fun b hb => ?_⟩
  · obtain ⟨b, hb, rfl⟩ := List.mem_map.1 (hacc.entries.mem_iff.1 he)
    exact addr_ne_null hinv hb hnull
  · exact hinv.stats.lens _ (hacc.entries.mem_iff.2 (List.mem_map_of_mem hb))

/-- Every block that is asked for is obtained, and none is too large for its record. -/
def CallOk (h : Heap) : Call → Prop
  | .malloc size _ result => size < 65536 ∧ result ≠ none
  | .realloc ptr newSize _ result => h.Allocates ptr newSize → newSize < 65536 ∧ result ≠ none
  | .free _ | .store _ _ => True

instance (h : Heap) (c : Call) : Decidable (CallOk h c) := by
  cases c <;> unfold CallOk <;> infer_instance

theorem myMalloc_fitting (hfit : Fitting h) (hreturns : h.Returns size result)
    (hsize : size < 65536) (hresult : result ≠ none) (id : StatisticsId) :
    Fitting (h.myMalloc size id result).2 := by
  refine ⟨myMalloc_inv hfit.inv hreturns id, fun e he => ?_, fun b hb => ?_⟩
  all_goals
    rcases result with _ | ⟨ptr, data⟩
    · exact absurd rfl hresult
  · rcases List.mem_append.1 he with he | he
    · exact hfit.keys e he
    · rw [List.mem_singleton.1 he]
      exact hreturns.1
  · rcases List.mem_cons.1 hb with rfl | hb
    · exact hreturns.2.2.1 ▸ hsize
    · exact hfit.sizes b hb

theorem myFree_fitting (hfit : Fitting h) (howned : h.Owned ptr) : Fitting (h.myFree ptr) := by
  refine ⟨myFree_inv hfit.inv howned, fun e he => ?_,
    fun b hb => hfit.sizes b (mem_of_mem_remove hb)⟩
  simp only [Heap.myFree, mapRemoveStat_memoryStats] at he
  exact hfit.keys e (mem_of_mem_remove he)

theorem store_fitting (hfit : Fitting h)
    (hroom : ∀ b ∈ h.live, b.addr = ptr → bytes.length ≤ b.data.length) :
    Fitting (h.store ptr bytes) := by
  refine ⟨store_inv hfit.inv hroom, hfit.keys, fun b hb => ?_⟩
  have hshape : b.shape ∈ h.live.map Block.shape := store_shape hroom ▸ List.mem_map_of_mem hb
  obtain ⟨c, hc, hbc⟩ := List.mem_map.1 hshape
  have hlen : c.data.length = b.data.length := congrArg (·.2.2) hbc
  exact hlen ▸ hfit.sizes c hc

theorem allocates_live (hinv : Inv h) (hb : b ∈ h.live) :
    h.Allocates b.addr newSize ↔ b.knownLen < newSize := by
  have hlen : (h.stats.mapGetStat b.addr).len = b.knownLen := by
    rw [mapGetStat_live hinv hb]
    rfl
  simp only [Heap.Allocates, addr_ne_null hinv hb, hlen, false_or]
  omega

theorem myRealloc_fitting (hfit : Fitting h) (howned : h.Owned ptr)
    (hreturns : h.Returns newSize result)
    (hok : h.Allocates ptr newSize → newSize < 65536 ∧ result ≠ none) (id : StatisticsId) :
    Fitting (h.myRealloc ptr newSize id result).2 := by
  by_cases hsize : newSize = 0
  · subst hsize
    exact myFree_fitting hfit howned
  rcases howned with rfl | hptr
  · obtain ⟨hlt, hresult⟩ := hok ⟨hsize, Or.inl rfl⟩
    rw [myRealloc_null hsize]
    exact myMalloc_fitting hfit hreturns hlt hresult id
  · obtain ⟨b, hb, rfl⟩ := List.mem_map.1 hptr
    rcases le_or_gt newSize b.knownLen with hlen | hlen
    · rwa [myRealloc_kept hfit.inv hb hsize hlen]
    · obtain ⟨hlt, hresult⟩ := hok ((allocates_live hfit.inv hb).2 hlen)
      obtain ⟨⟨new, data⟩, rfl⟩ := Option.ne_none_iff_exists'.1 hresult
      rw [myRealloc_moved hfit.inv hb hlen hreturns]
      have hcopied : Fitting (h.copied b newSize id new data) := by
        refine store_fitting (myMalloc_fitting hfit hreturns hlt hresult id) fun c hc haddr => ?_
        rcases List.mem_cons.1 hc with rfl | hc
        · simp only [List.length_take, hreturns.2.2.1]
          omega
        · exact absurd (haddr ▸ List.mem_map_of_mem hc) hreturns.2.1
      refine myFree_fitting hcopied (Or.inr ?_)
      rw [copied_live hreturns]
      exact List.mem_map_of_mem (List.mem_cons_of_mem _ hb)

theorem step_fitting {c : Call} (hfit : Fitting h) (hok : CallOk h c) (hstep : h.step c = some h') :
    Fitting h' := by
  cases c with
  | malloc size id result =>
    simp only [Heap.step] at hstep
    split_ifs at hstep with hguard
    cases hstep
    exact myMalloc_fitting hfit hguard.2 hok.1 hok.2 id
  | free ptr =>
    simp only [Heap.step] at hstep
    split_ifs at hstep with hguard
    cases hstep
    exact myFree_fitting hfit hguard
  | realloc ptr newSize id result =>
    simp only [Heap.step] at hstep
    split_ifs at hstep with hguard
    cases hstep
    exact myRealloc_fitting hfit hguard.2.1 hguard.2.2 hok id
  | store b bytes =>
    simp only [Heap.step] at hstep
    split_ifs at hstep with hguard
    cases hstep
    refine store_fitting hfit fun c hc haddr => ?_
    rw [List.inj_on_of_nodup_map hfit.inv.addrs hc hguard.1 haddr]
    exact hguard.2

/-- An allocation that fails, or is too large, shows in the statistics at once. -/
theorem myMalloc_ok (hreturns : h.Returns size result)
    (hfit : Fitting (h.myMalloc size id result).2) : size < 65536 ∧ result ≠ none := by
  rcases result with _ | ⟨ptr, data⟩
  · exact absurd rfl (hfit.keys _ (List.mem_append_right _ (List.mem_singleton_self _)))
  · have hlt : data.length < 65536 := hfit.sizes ⟨ptr, id, data⟩ List.mem_cons_self
    exact ⟨hreturns.2.2.1 ▸ hlt, Option.some_ne_none _⟩

theorem myRealloc_ok (hinv : Inv h) (howned : h.Owned ptr) (hreturns : h.Returns newSize result)
    (hfit : Fitting (h.myRealloc ptr newSize id result).2) (halloc : h.Allocates ptr newSize) :
    newSize < 65536 ∧ result ≠ none := by
  rcases howned with rfl | hptr
  · rw [myRealloc_null halloc.1] at hfit
    exact myMalloc_ok hreturns hfit
  · obtain ⟨b, hb, rfl⟩ := List.mem_map.1 hptr
    have hlen := (allocates_live hinv hb).1 halloc
    rcases result with _ | ⟨new, data⟩
    · rw [myRealloc_failed hinv hb hlen] at hfit
      exact myMalloc_ok hreturns hfit
    · rw [myRealloc_moved hinv hb hlen hreturns] at hfit
      have hne : new ≠ b.addr := fun heq => hreturns.2.1 (heq ▸ List.mem_map_of_mem hb)
      have hlt := hfit.sizes ⟨new, id, overwrite (b.data.take b.knownLen) data⟩
        (mem_remove_of_ne (by rw [copied_live hreturns]; exact List.mem_cons_self) hne)
      have hdata := hreturns.2.2.1
      simp only [overwrite, List.length_append, List.length_drop] at hlt
      exact ⟨by omega, Option.some_ne_none _⟩

theorem callOk_of_fitting {c : Call} (hinv : Inv h) (hstep : h.step c = some h')
    (hfit : Fitting h') : CallOk h c := by
  cases c with
  | malloc size id result =>
    simp only [Heap.step] at hstep
    split_ifs at hstep with hguard
    cases hstep
    exact myMalloc_ok hguard.2 hfit
  | realloc ptr newSize id result =>
    simp only [Heap.step] at hstep
    split_ifs at hstep with hguard
    cases hstep
    exact myRealloc_ok hinv hguard.2.1 hguard.2.2 hfit
  | free ptr => trivial
  | store b bytes => trivial

/-- The statistics are right all through a run exactly when every block that is asked
for in it is obtained and fits into its record. -/
theorem statistics_accurate_iff (hrun : heap.Run calls h) :
    heap.Always Accurate calls ↔ heap.RunOf CallOk calls h :=
  hrun.always_iff (I := Fitting) ⟨start_inv, by simp [heap, Heap.start, Stats.start],
      by simp [heap, Heap.start]⟩ (fun _ => accurate_of_fitting)
    (fun _ _ _ hfit hok hstep => step_fitting hfit hok hstep)
    fun _ _ _ hfit hstep hacc =>
      callOk_of_fitting hfit.inv hstep (fitting_of_accurate (step_inv hfit.inv hstep) hacc)

def reuse : List Call :=
  [.malloc 2 .cjson (some (100, [1, 2])), .malloc 3 .lodepng (some (200, [0, 0, 0])), .free 100,
    .malloc 1 .bleData (some (100, [7]))]

theorem statistics_accurate_reuse : ∃ h, heap.Run reuse h ∧ h.stats.inUse = 4 ∧
    h.stats.inUsePeak = 5 ∧ heap.Always Accurate reuse :=
  ⟨_, Lts.run_of_exec rfl, rfl, rfl,
    (statistics_accurate_iff (Lts.run_of_exec rfl)).2 (Lts.runOf_of_exec rfl)⟩

def largeBlock : Block := ⟨100, .msgDyndata, List.replicate 65536 0⟩

def largeMalloc : Call := .malloc 65536 .msgDyndata (some (largeBlock.addr, largeBlock.data))

theorem largeMalloc_run :
    heap.Run [largeMalloc]
      (Heap.start.myMalloc 65536 .msgDyndata (some (100, largeBlock.data))).2 := by
  have hguard : 65536 < 4294967296 ∧ Heap.start.Returns 65536 (some (100, largeBlock.data)) := by
    refine ⟨by decide, by decide, by decide, ?_, by decide⟩
    exact List.length_replicate
  refine .snoc .nil trivial ?_
  simp only [heap, largeMalloc, Heap.step]
  exact if_pos hguard

/-- A failed allocation is counted, and a block of 65536 bytes is not. -/
theorem failed_and_large_not_accurate :
    (∃ h, heap.Run [.malloc 5 .cjson none] h ∧ h.live = [] ∧ h.stats.inUse = 5 ∧ ¬ Accurate h) ∧
      ∃ h, heap.Run [largeMalloc] h ∧ h.live = [largeBlock] ∧ h.stats.inUse = 0 ∧ ¬ Accurate h := by
  constructor
  · refine ⟨_, Lts.run_of_exec rfl, rfl, rfl, fun h => ?_⟩
    exact absurd h.inUse (by decide)
  · refine ⟨_, largeMalloc_run, rfl, rfl, fun h => ?_⟩
    have hfound : (⟨100, .msgDyndata, 0⟩ : MemoryStatList) =
        ⟨100, .msgDyndata, largeBlock.data.length⟩ := h.found largeBlock List.mem_cons_self
    rw [largeBlock, List.length_replicate] at hfound
    cases hfound

end Heaty.Memory
