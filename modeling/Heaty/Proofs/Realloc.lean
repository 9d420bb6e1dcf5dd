import Heaty.Proofs.MemoryStatistics

/-! When `my_realloc`, which looks the old length up in the statistics, does what
`realloc` is for. -/

namespace Heaty.Memory

open Keyed
open Utils (overwrite)

variable {h h' h'' : Heap} {b : Block} {ptr : Addr} {newSize least : ℕ} {id : StatisticsId}
  {result : KMalloc} {data : Bytes} {calls : List Call}

structure Released (h : Heap) (b : Block) (h' : Heap) : Prop where
  freed : h'.freed = b.addr :: h.freed
  live : b.addr ∉ h'.live.map Block.addr
  record : b.addr ∉ h'.stats.memoryStats.map MemoryStatList.key

/-- The contract of `realloc`, for a call on a block with its result and the heap it
leaves. -/
structure Reallocated (h : Heap) (b : Block) (newSize : ℕ) (call : Addr × Heap) : Prop where
  freed : newSize = 0 → call.1 = null ∧ Released h b call.2
  grown : newSize ≠ 0 → call.1 ≠ null → ∃ c ∈ call.2.live, c.addr = call.1 ∧
    newSize ≤ c.data.length ∧
      c.data.take (min b.data.length newSize) = b.data.take (min b.data.length newSize)
  moved : newSize ≠ 0 → call.1 ≠ null → call.1 ≠ b.addr → Released h b call.2
  stayed : newSize ≠ 0 → call.1 = b.addr → call.2.freed = h.freed
  failed : newSize ≠ 0 → call.1 = null → b ∈ call.2.live ∧ call.2.freed = h.freed ∧
    call.2.stats.mapGetStat b.addr = h.stats.mapGetStat b.addr
  others : ∀ c ∈ h.live, c ≠ b → c ∈ call.2.live

/-- The known length covers what is asked for, or the allocation fails, or what is not
copied is in the new block anyway. -/
def Copies (b : Block) (newSize : ℕ) (result : KMalloc) : Prop :=
  newSize ≤ b.knownLen ∨
    match result with
    | none => True
    | some (_, data) =>
        (data.take (min b.data.length newSize)).drop b.knownLen =
          (b.data.take (min b.data.length newSize)).drop b.knownLen

theorem copies_of_fits (hfits : b.data.length < 65536) (newSize : ℕ) (result : KMalloc) :
    Copies b newSize result := by
  have hknown : b.knownLen = b.data.length := Nat.mod_eq_of_lt hfits
  rcases le_or_gt newSize b.knownLen with hlen | hlen
  · exact Or.inl hlen
  · right
    rcases result with _ | ⟨ptr, data⟩
    · trivial
    · have hall {bs : Bytes} : (bs.take (min b.data.length newSize)).drop b.knownLen = [] :=
        List.drop_eq_nil_of_le (by simp [hknown])
      exact hall.trans hall.symm

theorem released_of_myFree (hinv : Inv h) (hb : b ∈ h.live) (hfreed : h.freed = h'.freed) :
    Released h' b (h.myFree b.addr) := by
  have hfree := myFree_inv hinv (Or.inr (List.mem_map_of_mem hb))
  have hlive : b.addr ∉ (h.myFree b.addr).live.map Block.addr := notMem_remove hinv.addrs
  exact ⟨congrArg (b.addr :: ·) hfreed, hlive,
    lookup_eq_none.1 (lookup_not_live hfree (addr_ne_null hinv hb) hlive)⟩

/-- What the copy leaves in the new block agrees with the old one exactly when what was
not copied does. -/
theorem overwrite_take_eq_iff {old data : Bytes} {len m : ℕ} (hlen : len ≤ old.length)
    (hm : len ≤ m) :
    (overwrite (old.take len) data).take m = old.take m ↔
      (data.take m).drop len = (old.take m).drop len := by
  have hfirst : (old.take len).length = len := by simp [hlen]
  have hnew : (overwrite (old.take len) data).take m = old.take len ++ (data.take m).drop len := by
    rw [overwrite, List.take_append, hfirst, List.take_of_length_le (hfirst.trans_le hm),
      List.drop_take]
  have hold : old.take m = old.take len ++ (old.take m).drop len := by
    conv_lhs => rw [← List.take_append_drop len (old.take m), List.take_take, Nat.min_eq_left hm]
  rw [hnew]
  conv_lhs => rw [hold]
  exact List.append_cancel_left_eq _ _ _ |>.to_iff

theorem reallocated_zero (hinv : Inv h) (hb : b ∈ h.live) (id : StatisticsId) (result : KMalloc) :
    Reallocated h b 0 (h.myRealloc b.addr 0 id result) := by
  rw [myRealloc_zero]
  refine ⟨fun _ => ⟨rfl, released_of_myFree hinv hb rfl⟩, by simp, by simp, by simp, by simp,
    fun c hc hne => mem_remove_of_ne hc fun haddr => hne ?_⟩
  exact List.inj_on_of_nodup_map hinv.addrs hc hb haddr

theorem reallocated_kept (hinv : Inv h) (hb : b ∈ h.live) (hsize : newSize ≠ 0)
    (hlen : newSize ≤ b.knownLen) (id : StatisticsId) (result : KMalloc) :
    Reallocated h b newSize (h.myRealloc b.addr newSize id result) := by
  rw [myRealloc_kept hinv hb hsize hlen]
  exact ⟨fun hzero => absurd hzero hsize,
    fun _ _ => ⟨b, hb, rfl, hlen.trans (knownLen_le b), rfl⟩,
    fun _ _ hmoved => absurd rfl hmoved, fun _ _ => rfl,
    fun _ hnull => absurd hnull (addr_ne_null hinv hb), fun c hc _ => hc⟩

theorem reallocated_failed (hinv : Inv h) (hb : b ∈ h.live) (hlen : b.knownLen < newSize)
    (id : StatisticsId) : Reallocated h b newSize (h.myRealloc b.addr newSize id none) := by
  have hsize : newSize ≠ 0 := by omega
  have hnull := addr_ne_null hinv hb
  have hrecord : (h.stats.mapPutStat null ⟨null, id, newSize % 65536⟩).mapGetStat b.addr =
      h.stats.mapGetStat b.addr := by
    rw [Stats.mapGetStat, Stats.mapGetStat, ← lookup_tracked hnull, mapPutStat_tracked_null,
      lookup_tracked hnull]
  rw [myRealloc_failed hinv hb hlen]
  exact ⟨fun hzero => absurd hzero hsize, fun _ hne => absurd rfl hne,
    fun _ hne => absurd rfl hne, fun _ hstay => absurd hstay.symm hnull,
    fun _ _ => ⟨hb, rfl, hrecord⟩, fun c hc _ => hc⟩

/-- Of a block that moves, the contents decide. -/
theorem reallocated_moved_iff (hinv : Inv h) (hb : b ∈ h.live) (hlen : b.knownLen < newSize)
    (hreturns : h.Returns newSize (some (ptr, data))) (id : StatisticsId) :
    Reallocated h b newSize (h.myRealloc b.addr newSize id (some (ptr, data))) ↔
      (data.take (min b.data.length newSize)).drop b.knownLen =
        (b.data.take (min b.data.length newSize)).drop b.knownLen := by
  have hnull := hreturns.1
  have hfresh := hreturns.2.1
  have hdata := hreturns.2.2.1
  have hsize : newSize ≠ 0 := by omega
  have hne : ptr ≠ b.addr := fun heq => hfresh (heq ▸ List.mem_map_of_mem hb)
  have hcopied := copied_inv hinv hlen hreturns id
  have hb' : b ∈ (h.copied b newSize id ptr data).live := by
    rw [copied_live hreturns]
    exact List.mem_cons_of_mem _ hb
  have hreleased : Released h b ((h.copied b newSize id ptr data).myFree b.addr) :=
    released_of_myFree hcopied hb' rfl
  set new : Block := ⟨ptr, id, overwrite (b.data.take b.knownLen) data⟩
  have hnew : new ∈ ((h.copied b newSize id ptr data).myFree b.addr).live :=
    mem_remove_of_ne (by rw [copied_live hreturns]; exact List.mem_cons_self) hne
  have hlength : new.data.length = newSize := by
    have hroom : (b.data.take b.knownLen).length ≤ data.length :=
      ((List.length_take_le _ _).trans hlen.le).trans hdata.ge
    exact (Utils.length_overwrite hroom).trans hdata
  rw [myRealloc_moved hinv hb hlen hreturns,
    ← overwrite_take_eq_iff (knownLen_le b) (le_min (knownLen_le b) hlen.le)]
  constructor
  · intro h
    obtain ⟨c, hc, haddr, -, htake⟩ := h.grown hsize hnull
    have hcnew : c = new := List.inj_on_of_nodup_map
      (myFree_inv hcopied (Or.inr (List.mem_map_of_mem hb'))).addrs hc hnew haddr
    rwa [hcnew] at htake
  · intro htake
    refine ⟨fun hzero => absurd hzero hsize, fun _ _ => ⟨new, hnew, rfl, hlength.ge, htake⟩,
      fun _ _ _ => hreleased, fun _ hstay => absurd hstay hne, fun _ hfail => absurd hfail hnull,
      fun c hc hcb => mem_remove_of_ne ?_ fun haddr => hcb ?_⟩
    · rw [copied_live hreturns]
      exact List.mem_cons_of_mem _ hc
    · exact List.inj_on_of_nodup_map hinv.addrs hc hb haddr

theorem reallocated_iff (hinv : Inv h) (hb : b ∈ h.live) (hreturns : h.Returns newSize result)
    (id : StatisticsId) :
    Reallocated h b newSize (h.myRealloc b.addr newSize id result) ↔ Copies b newSize result := by
  by_cases hsize : newSize = 0
  · subst hsize
    exact iff_of_true (reallocated_zero hinv hb id result) (Or.inl (Nat.zero_le _))
  · rcases le_or_gt newSize b.knownLen with hlen | hlen
    · exact iff_of_true (reallocated_kept hinv hb hsize hlen id result) (Or.inl hlen)
    · rcases result with _ | ⟨ptr, data⟩
      · exact iff_of_true (reallocated_failed hinv hb hlen id) (Or.inr trivial)
      · rw [reallocated_moved_iff hinv hb hlen hreturns]
        simp only [Copies, hlen.not_ge, false_or]

/-- Calls on a block one after another, each on what the last one gave, or on the same
pointer when it failed. `least` is the least size there was on the way. -/
inductive Resized (h : Heap) (b : Block) : ℕ → Heap → Addr → Prop
  | start : Resized h b b.data.length h b.addr
  | success {least newSize : ℕ} {h' : Heap} {ptr : Addr} {id : StatisticsId} {result : KMalloc} :
      Resized h b least h' ptr → newSize ≠ 0 → h'.Returns newSize result →
        (∀ c ∈ h'.live, c.addr = ptr → Copies c newSize result) →
        (h'.myRealloc ptr newSize id result).1 ≠ null →
        Resized h b (min least newSize) (h'.myRealloc ptr newSize id result).2
          (h'.myRealloc ptr newSize id result).1
  | failure {least newSize : ℕ} {h' : Heap} {ptr : Addr} {id : StatisticsId} {result : KMalloc} :
      Resized h b least h' ptr → newSize ≠ 0 → h'.Returns newSize result →
        (h'.myRealloc ptr newSize id result).1 = null →
        Resized h b least (h'.myRealloc ptr newSize id result).2 ptr

structure Descends (b : Block) (least : ℕ) (h : Heap) (ptr : Addr) (c : Block) : Prop where
  live : c ∈ h.live
  addr : c.addr = ptr
  room : least ≤ c.data.length
  kept : c.data.take least = b.data.take least

theorem take_of_take {a b : Bytes} {m n : ℕ} (h : a.take n = b.take n) (hmn : m ≤ n) :
    a.take m = b.take m := by
  have htake := congrArg (List.take m) h
  rwa [List.take_take, List.take_take, Nat.min_eq_left hmn] at htake

theorem resized_descends (hinv : Inv h) (hb : b ∈ h.live) (hresized : Resized h b least h' ptr) :
    Inv h' ∧ ∃ c, Descends b least h' ptr c := by
  induction hresized with
  | start => exact ⟨hinv, b, hb, rfl, le_rfl, rfl⟩
  | @success least newSize h' ptr id result _ hsize hreturns hcopies hne ih =>
    obtain ⟨hinv', c, hc, rfl, hroom, hkept⟩ := ih
    have hcall := (reallocated_iff hinv' hc hreturns id).2 (hcopies c hc rfl)
    obtain ⟨d, hd, haddr, hlen, htake⟩ := hcall.grown hsize hne
    refine ⟨myRealloc_inv hinv' (Or.inr (List.mem_map_of_mem hc)) hreturns id, d, hd, haddr,
      (min_le_right _ _).trans hlen, ?_⟩
    have hmin : min least newSize ≤ min c.data.length newSize := min_le_min_right _ hroom
    rw [take_of_take htake hmin]
    exact take_of_take hkept (min_le_left _ _)
  | @failure least newSize h' ptr id result _ hsize hreturns hnull ih =>
    obtain ⟨hinv', c, hc, rfl, hroom, hkept⟩ := ih
    have hstill : c ∈ (h'.myRealloc c.addr newSize id result).2.live := by
      rcases le_or_gt newSize c.knownLen with hlen | hlen
      · rwa [myRealloc_kept hinv' hc hsize hlen]
      · rcases result with _ | ⟨new, data⟩
        · rw [myRealloc_failed hinv' hc hlen]
          exact hc
        · rw [myRealloc_moved hinv' hc hlen hreturns] at hnull
          exact absurd hnull hreturns.1
    exact ⟨myRealloc_inv hinv' (Or.inr (List.mem_map_of_mem hc)) hreturns id, c, hstill, rfl,
      hroom, hkept⟩

/-- In every heap that the hooks can have led to, a call on a block is a `realloc` just
when it copies what it has to, and calls that do so follow on each other. -/
theorem myRealloc_contract_iff (hrun : heap.Run calls h) (hb : b ∈ h.live) :
    (∀ newSize id result, h.Returns newSize result →
      (Reallocated h b newSize (h.myRealloc b.addr newSize id result) ↔
        Copies b newSize result)) ∧
      ∀ least h' ptr, Resized h b least h' ptr → ∃ c, Descends b least h' ptr c :=
  ⟨fun _ id _ hreturns => reallocated_iff (inv_of_run hrun) hb hreturns id,
    fun _ _ _ hresized => (resized_descends (inv_of_run hrun) hb hresized).2⟩

/-- A block of three bytes that has to move to get longer. -/
theorem myRealloc_contract_three : ∃ h, heap.Run [.malloc 3 .lodepng (some (100, [1, 2, 3]))] h ∧
    Reallocated h ⟨100, .lodepng, [1, 2, 3]⟩ 5
      (h.myRealloc 100 5 .lodepng (some (200, [0, 0, 0, 0, 0]))) := by
  have hrun : heap.Run [.malloc 3 .lodepng (some (100, [1, 2, 3]))]
      (Heap.start.myMalloc 3 .lodepng (some (100, [1, 2, 3]))).2 := Lts.run_of_exec rfl
  refine ⟨_, hrun, ((myRealloc_contract_iff hrun List.mem_cons_self).1 5 .lodepng _ ?_).2 ?_⟩
  · decide
  · exact copies_of_fits (by decide) _ _

/-- Of a block of 65536 bytes nothing is copied. -/
theorem large_block_not_copied : ∃ h result, heap.Run [largeMalloc] h ∧ largeBlock ∈ h.live ∧
    h.Returns 70000 result ∧
      ¬ Reallocated h largeBlock 70000 (h.myRealloc largeBlock.addr 70000 .lodepng result) := by
  have hlive : largeBlock ∈ (Heap.start.myMalloc 65536 .msgDyndata
      (some (100, largeBlock.data))).2.live := List.mem_cons_self
  have hlength : largeBlock.data.length = 65536 := List.length_replicate
  have hreturns : (Heap.start.myMalloc 65536 .msgDyndata (some (100, largeBlock.data))).2.Returns
      70000 (some (200, List.replicate 70000 1)) := by
    refine ⟨by decide, by decide, List.length_replicate, ?_⟩
    simp [Heap.total, Heap.myMalloc, Heap.start, hlength]
  refine ⟨_, _, largeMalloc_run, hlive, hreturns, ?_⟩
  rw [reallocated_iff (inv_of_run largeMalloc_run) hlive hreturns]
  have hknown : largeBlock.knownLen = 0 := by rw [Block.knownLen, hlength]
  rw [Copies, hknown, not_or, hlength]
  refine ⟨by decide, fun hsame => ?_⟩
  rw [List.drop_zero, List.drop_zero, largeBlock, List.take_replicate, List.take_replicate,
    List.replicate_inj] at hsame
  rcases hsame.2 with hzero | hbyte
  · exact absurd hzero (by decide)
  · exact absurd hbyte (by decide)

end Heaty.Memory
