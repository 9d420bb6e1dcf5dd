import Mathlib.Tactic
import Mathlib.Data.Multiset.Count

/-! Blocks that are shared by counting. A pool gives out a free block with one reference to
it, and the block is free again when its last reference has gone: first the counter goes
down, and then the block goes back. -/

variable {β : Type*} [DecidableEq β]

/-- The blocks that are free, and for each block the counter of its references. -/
structure RefPool (β : Type*) where
  free : Finset β
  refs : β → ℤ

namespace RefPool

def alloc (p : RefPool β) (b : β) : RefPool β := ⟨p.free.erase b, Function.update p.refs b 1⟩

def ref (p : RefPool β) (b : β) : RefPool β :=
  { p with refs := Function.update p.refs b (p.refs b + 1) }

def dec (p : RefPool β) (b : β) : RefPool β :=
  { p with refs := Function.update p.refs b (p.refs b - 1) }

def release (p : RefPool β) (b : β) : RefPool β := { p with free := insert b p.free }

/-- One reference less, and without any the block goes back. -/
def unref (p : RefPool β) (b : β) : RefPool β :=
  if p.refs b = 1 then (p.dec b).release b else p.dec b

/-- The counters are right about the references that are held, and the blocks to which there
are none are free, but for those that are about to go back. -/
structure Counts (blocks : Finset β) (p : RefPool β) (held : Multiset β) (dying : Finset β) :
    Prop where
  refs : ∀ b ∈ blocks, b ∉ p.free → p.refs b = held.count b
  free : ∀ b, b ∈ p.free ↔ b ∈ blocks ∧ b ∉ held ∧ b ∉ dying
  mem_of_held : ∀ b ∈ held, b ∈ blocks
  mem_of_dying : ∀ b ∈ dying, b ∈ blocks ∧ b ∉ held

namespace Counts

variable {blocks dying : Finset β} {p : RefPool β} {held : Multiset β} {b c : β}

omit [DecidableEq β] in
theorem mem_cons_held (hb : b ∈ held) : c ∈ b ::ₘ held ↔ c ∈ held := by
  rw [Multiset.mem_cons]
  exact or_iff_right_of_imp fun heq => heq ▸ hb

theorem start (blocks : Finset β) (refs : β → ℤ) : Counts blocks ⟨blocks, refs⟩ 0 ∅ := by
  exact ⟨fun b hb hfree => absurd hb hfree, fun b => by simp, nofun, nofun⟩

theorem notMem_free (h : Counts blocks p held dying) (hb : b ∈ held) : b ∉ p.free :=
  fun hfree => ((h.free b).1 hfree).2.1 hb

theorem alloc (h : Counts blocks p held dying) (hb : b ∈ p.free) :
    Counts blocks (p.alloc b) (b ::ₘ held) dying := by
  obtain ⟨hmem, hheld, hdying⟩ := (h.free b).1 hb
  refine ⟨fun c hblock hc => ?_, fun c => ?_, ?_, fun c hc => ?_⟩
  · rcases eq_or_ne c b with rfl | hne
    · simp [RefPool.alloc, Multiset.count_eq_zero_of_notMem hheld]
    · have hc' : c ∉ p.free := fun hfree => hc (Finset.mem_erase.2 ⟨hne, hfree⟩)
      simp [RefPool.alloc, hne, h.refs c hblock hc', Multiset.count_cons_of_ne hne]
  · simp only [RefPool.alloc, Finset.mem_erase, h.free c, Multiset.mem_cons, not_or]
    tauto
  · intro c hc
    rcases Multiset.mem_cons.1 hc with rfl | hc
    · exact hmem
    · exact h.mem_of_held c hc
  · obtain ⟨hblock', hheld'⟩ := h.mem_of_dying c hc
    refine ⟨hblock', fun hmem => ?_⟩
    rcases Multiset.mem_cons.1 hmem with rfl | hmem
    · exact hdying hc
    · exact hheld' hmem

theorem ref (h : Counts blocks p held dying) (hb : b ∈ held) :
    Counts blocks (p.ref b) (b ::ₘ held) dying := by
  have hmem := fun c => mem_cons_held (c := c) hb
  refine ⟨fun c hblock hc => ?_, fun c => ?_, fun c hc => h.mem_of_held c ((hmem c).1 hc),
    fun c hc => ?_⟩
  · rcases eq_or_ne c b with rfl | hne
    · simp [RefPool.ref, h.refs c hblock hc]
    · simp [RefPool.ref, hne, h.refs c hblock hc, Multiset.count_cons_of_ne hne]
  · rw [hmem]
    exact h.free c
  · rw [hmem]
    exact h.mem_of_dying c hc

/-- The last reference goes. -/
theorem dec_last (h : Counts blocks p (b ::ₘ held) dying) (hlast : p.refs b = 1) :
    Counts blocks (p.dec b) held (insert b dying) := by
  have hb := Multiset.mem_cons_self b held
  have hcount := h.refs b (h.mem_of_held b hb) (h.notMem_free hb)
  have hnot : b ∉ held := by
    rw [hlast, Multiset.count_cons_self] at hcount
    rw [← Multiset.count_eq_zero]
    omega
  refine ⟨fun c hblock hc => ?_, fun c => ?_,
    fun c hc => h.mem_of_held c (Multiset.mem_cons_of_mem hc), ?_⟩
  · rcases eq_or_ne c b with rfl | hne
    · simp [RefPool.dec, hlast, Multiset.count_eq_zero_of_notMem hnot]
    · simp [RefPool.dec, hne, h.refs c hblock hc, Multiset.count_cons_of_ne hne]
  · have hfree := h.free c
    simp only [RefPool.dec, hfree, Multiset.mem_cons, Finset.mem_insert, not_or]
    tauto
  · intro c hc
    rcases Finset.mem_insert.1 hc with rfl | hc
    · exact ⟨h.mem_of_held c hb, hnot⟩
    · obtain ⟨hblock, hheld⟩ := h.mem_of_dying c hc
      exact ⟨hblock, fun hmem => hheld (Multiset.mem_cons_of_mem hmem)⟩

/-- Another reference is left. -/
theorem dec_more (h : Counts blocks p (b ::ₘ held) dying) (hmore : p.refs b ≠ 1) :
    Counts blocks (p.dec b) held dying := by
  have hself := Multiset.mem_cons_self b held
  have hcount := h.refs b (h.mem_of_held b hself) (h.notMem_free hself)
  have hb : b ∈ held := by
    rw [hcount, Multiset.count_cons_self] at hmore
    rw [← Multiset.count_pos]
    omega
  have hmem := fun c => mem_cons_held (c := c) hb
  refine ⟨fun c hblock hc => ?_, fun c => ?_, fun c hc => h.mem_of_held c ((hmem c).2 hc),
    fun c hc => ?_⟩
  · rcases eq_or_ne c b with rfl | hne
    · simp [RefPool.dec, hcount]
    · simp [RefPool.dec, hne, h.refs c hblock hc, Multiset.count_cons_of_ne hne]
  · rw [← hmem]
    exact h.free c
  · rw [← hmem]
    exact h.mem_of_dying c hc

theorem release (h : Counts blocks p held dying) (hb : b ∈ dying) :
    Counts blocks (p.release b) held (dying.erase b) := by
  obtain ⟨hblock, hheld⟩ := h.mem_of_dying b hb
  refine ⟨fun c hblock hc => h.refs c hblock fun hfree => hc (Finset.mem_insert_of_mem hfree),
    fun c => ?_, h.mem_of_held, fun c hc => h.mem_of_dying c (Finset.mem_of_mem_erase hc)⟩
  simp only [RefPool.release, Finset.mem_insert, h.free c, Finset.mem_erase]
  rcases eq_or_ne c b with rfl | hne
  · simp [hblock, hheld]
  · simp [hne]

theorem unref (h : Counts blocks p (b ::ₘ held) dying) (hb : b ∉ dying) :
    Counts blocks (p.unref b) held dying := by
  unfold RefPool.unref
  split_ifs with hlast
  · have hrelease := (h.dec_last hlast).release (Finset.mem_insert_self b dying)
    rwa [Finset.erase_insert hb] at hrelease
  · exact h.dec_more hlast

/-- Nothing leaks. -/
theorem free_eq (h : Counts blocks p 0 ∅) : p.free = blocks := by
  ext b
  simp [h.free b]

end Counts

end RefPool
