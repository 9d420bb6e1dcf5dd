import Mathlib.Tactic

/-! Blocks of memory, descriptors and the like that are taken over, used and freed.
A history is sound when nothing is taken over while it is held, and nothing is used
or freed unless it is. Soundness and the blocks still held together say that every
other block was freed exactly as often as it was taken over, and not used after. -/

namespace Ledger

/-- What can happen to a block. -/
inductive Op (β : Type*)
  | take (b : β)
  | use (b : β)
  | free (b : β)
  deriving DecidableEq

variable {β : Type*} [DecidableEq β]

/-- The blocks held after one more operation, `none` for an unsound one. -/
def apply (held : List β) : Op β → Option (List β)
  | .take b => if b ∈ held then none else some (b :: held)
  | .use b => if b ∈ held then some held else none
  | .free b => if b ∈ held then some (held.erase b) else none

/-- The blocks held after a history. -/
def exec (ops : List (Op β)) : Option (List β) := ops.foldlM apply []

/-- A sound history after which just these blocks are held. -/
def Holds (ops : List (Op β)) (blocks : List β) : Prop :=
  ∃ held, exec ops = some held ∧ held.Perm blocks

variable {ops : List (Op β)} {blocks blocks' held held' : List β} {b : β}

theorem apply_take : apply held (.take b) = some held' ↔ b ∉ held ∧ held' = b :: held := by
  by_cases hb : b ∈ held <;> simp [apply, hb, eq_comm]

theorem apply_use : apply held (.use b) = some held' ↔ b ∈ held ∧ held' = held := by
  by_cases hb : b ∈ held <;> simp [apply, hb, eq_comm]

theorem apply_free : apply held (.free b) = some held' ↔ b ∈ held ∧ held' = held.erase b := by
  by_cases hb : b ∈ held <;> simp [apply, hb, eq_comm]

theorem exec_concat (op : Op β) : exec (ops ++ [op]) = (exec ops).bind (apply · op) := by
  simp [exec, List.foldlM_append]

/-- An operation does the same however the blocks held are listed. -/
theorem apply_perm {op : Op β} (hperm : held.Perm blocks) (h : apply held op = some held') :
    ∃ blocks', apply blocks op = some blocks' ∧ held'.Perm blocks' := by
  cases op with
  | take b =>
    obtain ⟨hb, rfl⟩ := apply_take.1 h
    exact ⟨b :: blocks, apply_take.2 ⟨by rwa [← hperm.mem_iff], rfl⟩, hperm.cons b⟩
  | use b =>
    obtain ⟨hb, rfl⟩ := apply_use.1 h
    exact ⟨blocks, apply_use.2 ⟨hperm.mem_iff.1 hb, rfl⟩, hperm⟩
  | free b =>
    obtain ⟨hb, rfl⟩ := apply_free.1 h
    exact ⟨blocks.erase b, apply_free.2 ⟨hperm.mem_iff.1 hb, rfl⟩, hperm.erase b⟩

/-- A history grows by one operation. -/
theorem holds_concat {op : Op β} :
    Holds (ops ++ [op]) blocks ↔
      ∃ held, Holds ops held ∧ ∃ held', apply held op = some held' ∧ held'.Perm blocks := by
  simp only [Holds, exec_concat, Option.bind_eq_some_iff]
  constructor
  · rintro ⟨held', ⟨held, hexec, happly⟩, hperm⟩
    exact ⟨held, ⟨held, hexec, .refl _⟩, held', happly, hperm⟩
  · rintro ⟨blocks', ⟨held, hexec, hheld⟩, held', happly, hperm⟩
    obtain ⟨held'', happly', hperm'⟩ := apply_perm hheld.symm happly
    exact ⟨held'', ⟨held, hexec, happly'⟩, hperm'.symm.trans hperm⟩

theorem Holds.nil : Holds ([] : List (Op β)) [] := ⟨[], rfl, .refl _⟩

theorem Holds.perm (h : Holds ops blocks) (hperm : blocks.Perm blocks') : Holds ops blocks' := by
  obtain ⟨held, hexec, hheld⟩ := h
  exact ⟨held, hexec, hheld.trans hperm⟩

/-- The blocks held are determined by the history. -/
theorem Holds.unique (h : Holds ops blocks) (h' : Holds ops blocks') : blocks.Perm blocks' := by
  obtain ⟨held, hexec, hheld⟩ := h
  obtain ⟨held', hexec', hheld'⟩ := h'
  cases hexec.symm.trans hexec'
  exact hheld.symm.trans hheld'

theorem Holds.take (h : Holds ops blocks) (hb : b ∉ blocks) :
    Holds (ops ++ [.take b]) (b :: blocks) :=
  holds_concat.2 ⟨blocks, h, _, if_neg hb, .refl _⟩

theorem Holds.use (h : Holds ops blocks) (hb : b ∈ blocks) : Holds (ops ++ [.use b]) blocks :=
  holds_concat.2 ⟨blocks, h, _, if_pos hb, .refl _⟩

theorem Holds.free (h : Holds ops (b :: blocks)) : Holds (ops ++ [.free b]) blocks :=
  holds_concat.2 ⟨b :: blocks, h, blocks, apply_free.2 (by simp), .refl _⟩

/-- What was freed was held before. -/
theorem Holds.of_free (h : Holds (ops ++ [.free b]) blocks) : Holds ops (b :: blocks) := by
  obtain ⟨held, hheld, held', happly, hperm⟩ := holds_concat.1 h
  obtain ⟨hb, rfl⟩ := apply_free.1 happly
  exact hheld.perm ((List.perm_cons_erase hb).trans (hperm.cons b))

/-- No block is held twice. -/
theorem Holds.nodup (h : Holds ops blocks) : blocks.Nodup := by
  induction ops using List.reverseRecOn generalizing blocks with
  | nil =>
    rw [(h.unique .nil).eq_nil]
    exact List.nodup_nil
  | append_singleton ops op ih =>
    obtain ⟨held, hheld, held', happly, hperm⟩ := holds_concat.1 h
    have hnodup := ih hheld
    refine hperm.nodup_iff.1 ?_
    cases op with
    | take b =>
      obtain ⟨hb, rfl⟩ := apply_take.1 happly
      exact List.nodup_cons.2 ⟨hb, hnodup⟩
    | use b =>
      obtain ⟨-, rfl⟩ := apply_use.1 happly
      exact hnodup
    | free b =>
      obtain ⟨-, rfl⟩ := apply_free.1 happly
      exact hnodup.erase b

/-- A block is freed once for every time it was taken over, but for the last time
if it is still held. -/
theorem Holds.count (h : Holds ops blocks) (b : β) :
    ops.count (.take b) = ops.count (.free b) + blocks.count b := by
  induction ops using List.reverseRecOn generalizing blocks with
  | nil =>
    rw [(h.unique .nil).eq_nil]
    rfl
  | append_singleton ops op ih =>
    obtain ⟨held, hheld, held', happly, hperm⟩ := holds_concat.1 h
    have hcount := ih hheld
    rw [← hperm.count_eq b, List.count_append, List.count_append, hcount]
    cases op with
    | take c =>
      obtain ⟨-, rfl⟩ := apply_take.1 happly
      by_cases hbc : c = b
      · simp [hbc, add_assoc]
      · simp [hbc]
    | use c =>
      obtain ⟨-, rfl⟩ := apply_use.1 happly
      simp
    | free c =>
      obtain ⟨hc, rfl⟩ := apply_free.1 happly
      by_cases hbc : c = b
      · have hpos : 0 < held.count b := List.count_pos_iff.2 (hbc ▸ hc)
        simp only [hbc, List.count_erase_self, List.count_cons_self, List.count_nil, zero_add,
          List.count_cons_of_ne (show Op.free b ≠ Op.take b by simp), add_zero]
        omega
      · simp [hbc, List.count_erase_of_ne (Ne.symm hbc)]

end Ledger
