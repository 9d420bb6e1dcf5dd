import Mathlib.Tactic

/-! A table of slots searched from its start, as in a C loop that changes the
first slot it was looking for and breaks. `key` reads what a slot holds; the
keys are compared up to order. -/

namespace Slots

variable {α κ : Type*} {p : α → Bool} {f : α → α} {l : List α} {k : κ}

/-- Change the first slot that satisfies `p`. -/
def updateFirst (p : α → Bool) (f : α → α) : List α → List α
  | [] => []
  | a :: l => if p a then f a :: l else a :: updateFirst p f l

@[simp] theorem length_updateFirst : (updateFirst p f l).length = l.length := by
  induction l with
  | nil => rfl
  | cons a l ih => by_cases h : p a <;> simp [updateFirst, h, ih]

/-- A slot of the new table is an old one or the changed one. -/
theorem mem_updateFirst {x : α} (h : x ∈ updateFirst p f l) : x ∈ l ∨ ∃ a ∈ l, p a ∧ x = f a := by
  induction l with
  | nil => simp [updateFirst] at h
  | cons a l ih =>
    by_cases ha : p a
    · simp only [updateFirst, ha, if_true, List.mem_cons] at h
      rcases h with rfl | h
      · exact Or.inr ⟨a, by simp, ha, rfl⟩
      · exact Or.inl (by simp [h])
    · simp only [updateFirst, ha, Bool.false_eq_true, if_false, List.mem_cons] at h
      rcases h with rfl | h
      · exact Or.inl (by simp)
      · rcases ih h with h | ⟨b, hb, hpb, rfl⟩
        · exact Or.inl (by simp [h])
        · exact Or.inr ⟨b, by simp [hb], hpb, rfl⟩

/-- A property of all slots survives when the changed slot has it. -/
theorem forall_updateFirst {P : α → Prop} (h : ∀ a ∈ l, P a) (hf : ∀ a ∈ l, p a → P (f a)) :
    ∀ a ∈ updateFirst p f l, P a := by
  intro a ha
  rcases mem_updateFirst ha with h' | ⟨b, hb, hpb, rfl⟩
  · exact h a h'
  · exact hf b hb hpb

/-- A change that keeps the keys. -/
theorem keys_updateFirst_same (key : α → Option κ) (h : ∀ a ∈ l, p a → key (f a) = key a) :
    (updateFirst p f l).filterMap key = l.filterMap key := by
  induction l with
  | nil => rfl
  | cons a l ih =>
    simp only [List.forall_mem_cons] at h
    by_cases ha : p a
    · simp only [updateFirst, ha, if_true, List.filterMap_cons, h.1 ha]
    · simp only [updateFirst, ha, Bool.false_eq_true, if_false, List.filterMap_cons, ih h.2]

/-- Changing one slot exchanges its key and keeps the others. -/
theorem keys_updateFirst (key : α → Option κ) {old new : Option κ} (hex : ∃ a ∈ l, p a)
    (hold : ∀ a ∈ l, p a → key a = old) (hnew : ∀ a ∈ l, p a → key (f a) = new) :
    ∃ rest, (l.filterMap key).Perm (old.toList ++ rest) ∧
      ((updateFirst p f l).filterMap key).Perm (new.toList ++ rest) := by
  induction l with
  | nil => simp at hex
  | cons a l ih =>
    simp only [List.forall_mem_cons] at hold hnew
    by_cases ha : p a
    · refine ⟨l.filterMap key, ?_, ?_⟩
      · cases old <;> simp [hold.1 ha]
      · cases new <;> simp [updateFirst, ha, hnew.1 ha]
    · have hex' : ∃ a ∈ l, p a := by simpa [ha] using hex
      obtain ⟨rest, h1, h2⟩ := ih hex' hold.2 hnew.2
      simp only [updateFirst, ha, Bool.false_eq_true, if_false, List.filterMap_cons]
      cases hk : key a with
      | none => exact ⟨rest, h1, h2⟩
      | some k =>
        exact ⟨k :: rest, (h1.cons k).trans List.perm_middle.symm,
          (h2.cons k).trans List.perm_middle.symm⟩

/-- Filling a free slot adds one key. -/
theorem keys_updateFirst_insert (key : α → Option κ) (hex : ∃ a ∈ l, p a)
    (hfree : ∀ a ∈ l, p a → key a = none) (hset : ∀ a ∈ l, p a → key (f a) = some k) :
    ((updateFirst p f l).filterMap key).Perm (k :: l.filterMap key) := by
  obtain ⟨rest, h1, h2⟩ := keys_updateFirst key hex hfree hset
  exact h2.trans (h1.symm.cons k)

/-- Clearing a slot removes its key. -/
theorem keys_updateFirst_erase (key : α → Option κ) (hex : ∃ a ∈ l, p a)
    (hkey : ∀ a ∈ l, p a → key a = some k) (hclear : ∀ a ∈ l, p a → key (f a) = none) :
    (l.filterMap key).Perm (k :: (updateFirst p f l).filterMap key) := by
  obtain ⟨rest, h1, h2⟩ := keys_updateFirst key hex hkey hclear
  exact h1.trans (h2.symm.cons k)

/-- Filtering out the key of an entry removes just that entry when keys are
unique. -/
theorem perm_filter_ne {β : Type*} [DecidableEq β] (g : α → β) {x : α} {rest : List α}
    (hnodup : (l.map g).Nodup) (h : l.Perm (x :: rest)) :
    (l.filter fun a => g a ≠ g x).Perm rest := by
  have hnodup' : ((x :: rest).map g).Nodup := (h.map g).nodup_iff.1 hnodup
  rw [List.map_cons, List.nodup_cons] at hnodup'
  have hrest : (rest.filter fun a => g a ≠ g x) = rest := by
    rw [List.filter_eq_self]
    intro a ha
    simp only [ne_eq, decide_eq_true_eq]
    exact fun he => hnodup'.1 (he ▸ List.mem_map_of_mem ha)
  have hperm := h.filter fun a => g a ≠ g x
  rwa [List.filter_cons_of_neg (by simp), hrest] at hperm

/-- While fewer keys are held than there are slots, a slot is free. -/
theorem exists_free (key : α → Option κ) (h : (l.filterMap key).length < l.length) :
    ∃ a ∈ l, key a = none := by
  by_contra hno
  push Not at hno
  have hlen : (l.filterMap key).length = l.length := by
    rw [List.length_filterMap_eq_countP, List.countP_eq_length]
    intro a ha
    exact Option.isSome_iff_ne_none.2 (hno a ha)
  omega

end Slots
