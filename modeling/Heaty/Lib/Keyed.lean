import Mathlib.Tactic

/-! Lists of records that are looked up and removed by a key. -/

namespace Keyed

variable {α κ : Type*} [DecidableEq κ] {key : α → κ} {k : κ} {a : α} {l l' : List α}

/-- The first record with a key, and the list without it. -/
def lookup (key : α → κ) (k : κ) (l : List α) : Option α := l.find? (key · = k)

def remove (key : α → κ) (k : κ) (l : List α) : List α := l.eraseP (key · = k)

theorem lookup_eq_none : lookup key k l = none ↔ k ∉ l.map key := by
  simp [lookup]

theorem lookup_mem (h : lookup key k l = some a) : a ∈ l := List.mem_of_find?_eq_some h

theorem lookup_key (h : lookup key k l = some a) : key a = k := by
  simpa using List.find?_some h

/-- Where the keys differ, a record is found by its key. -/
theorem lookup_of_mem (hnodup : (l.map key).Nodup) (ha : a ∈ l) :
    lookup key (key a) l = some a := by
  cases hfound : lookup key (key a) l with
  | none => exact absurd (List.mem_map_of_mem ha) (lookup_eq_none.1 hfound)
  | some b =>
    have hinj := List.inj_on_of_nodup_map hnodup (lookup_mem hfound) ha (lookup_key hfound)
    rw [hinj]

theorem remove_of_notMem (h : k ∉ l.map key) : remove key k l = l := by
  apply List.eraseP_of_forall_not
  intro a ha hk
  rw [decide_eq_true_eq] at hk
  exact h (hk ▸ List.mem_map_of_mem ha)

/-- The record that is found is the one that is removed. -/
theorem perm_cons_remove (h : lookup key k l = some a) : l.Perm (a :: remove key k l) := by
  induction l with
  | nil => cases h
  | cons b l ih =>
    by_cases hb : key b = k
    · have hab : b = a := by simpa [lookup, hb] using h
      subst hab
      simp [remove, hb]
    · have hfound : lookup key k l = some a := by simpa [lookup, hb] using h
      have hremove : remove key k (b :: l) = b :: remove key k l := by simp [remove, hb]
      rw [hremove]
      exact ((ih hfound).cons b).trans (.swap _ _ _)

theorem remove_sublist (key : α → κ) (k : κ) (l : List α) : (remove key k l).Sublist l :=
  List.eraseP_sublist

theorem nodup_remove (h : (l.map key).Nodup) : ((remove key k l).map key).Nodup :=
  h.sublist ((remove_sublist key k l).map key)

theorem notMem_remove (h : (l.map key).Nodup) : k ∉ (remove key k l).map key := by
  cases hfound : lookup key k l with
  | none =>
    rw [lookup_eq_none] at hfound
    rwa [remove_of_notMem hfound]
  | some a =>
    have hperm := (perm_cons_remove hfound).map key
    have hnodup := hperm.nodup_iff.1 h
    rw [List.map_cons, lookup_key hfound] at hnodup
    exact (List.nodup_cons.1 hnodup).1

/-- The other records stay. -/
theorem mem_remove_of_ne (ha : a ∈ l) (hne : key a ≠ k) : a ∈ remove key k l :=
  (List.mem_eraseP_of_neg (by simpa using hne)).2 ha

theorem mem_of_mem_remove (ha : a ∈ remove key k l) : a ∈ l := (remove_sublist key k l).subset ha

/-- A sum over the records goes down by what the removed one counts for. -/
theorem sum_remove (f : α → ℕ) (h : lookup key k l = some a) :
    (l.map f).sum = f a + ((remove key k l).map f).sum := by
  rw [((perm_cons_remove h).map f).sum_eq, List.map_cons, List.sum_cons]

/-- A lookup passes over records that are filtered out for another key. -/
theorem lookup_filter {p : α → Bool} (hp : ∀ a, key a = k → p a = true) :
    lookup key k (l.filter p) = lookup key k l := by
  simp only [lookup, List.find?_filter]
  congr 1
  funext a
  by_cases hk : key a = k
  · simp [hk, hp a hk]
  · simp [hk]

end Keyed
