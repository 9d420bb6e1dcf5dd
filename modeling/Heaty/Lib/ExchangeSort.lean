import Mathlib.Data.List.Sort
import Mathlib.Tactic

/-! Sorting by exchange: each position is compared with all behind it, and two values that are
out of order change places. -/

namespace ExchangeSort

variable {α : Type*}

/-- Two values that are out of order change places. -/
def exchange (lt : α → α → Bool) (i : ℕ) (values : List α) (j : ℕ) : List α :=
  match values[i]?, values[j]? with
  | some x, some y => if lt y x then (values.set i y).set j x else values
  | _, _ => values

/-- The smallest of the values from a position on comes to it. -/
def settle (lt : α → α → Bool) (n i : ℕ) (values : List α) : List α :=
  (List.range' (i + 1) (n - (i + 1))).foldl (exchange lt i) values

def sort (lt : α → α → Bool) (values : List α) : List α :=
  (List.range (values.length - 1)).foldl (fun sorted i => settle lt values.length i sorted) values

theorem exchange_perm (lt : α → α → Bool) (i j : ℕ) (values : List α) :
    (exchange lt i values j).Perm values := by
  unfold exchange
  split
  · next x y hx hy =>
    obtain ⟨hi, rfl⟩ := List.getElem?_eq_some_iff.1 hx
    obtain ⟨hj, rfl⟩ := List.getElem?_eq_some_iff.1 hy
    split_ifs
    · exact List.set_set_perm hi hj
    · exact List.Perm.refl _
  · exact List.Perm.refl _

theorem foldl_exchange_perm (lt : α → α → Bool) (i : ℕ) (js : List ℕ) :
    ∀ values : List α, (js.foldl (exchange lt i) values).Perm values := by
  induction js with
  | nil => exact fun _ => List.Perm.refl _
  | cons j js ih => exact fun values => (ih _).trans (exchange_perm lt i j values)

theorem length_settle (lt : α → α → Bool) (n i : ℕ) (values : List α) :
    (settle lt n i values).length = values.length := (foldl_exchange_perm lt i _ values).length_eq

theorem sort_perm (lt : α → α → Bool) (values : List α) : (sort lt values).Perm values := by
  unfold sort
  generalize values.length = n
  generalize List.range (n - 1) = is
  induction is generalizing values with
  | nil => exact List.Perm.refl _
  | cons i is ih => exact (ih _).trans (foldl_exchange_perm lt i _ values)

section Order

variable [LinearOrder α] {lt : α → α → Bool} {values : List α} {i m : ℕ}

/-- The value at a position is not above the one at another. -/
def Le (values : List α) (a b : ℕ) : Prop :=
  ∀ x y, values[a]? = some x → values[b]? = some y → x ≤ y

/-- The first positions hold their values for good. -/
def SortedBelow (values : List α) (i : ℕ) : Prop := ∀ a < i, ∀ b, a < b → Le values a b

/-- What an exchange leaves where. -/
theorem getElem?_exchange (hlt : ∀ x y, lt x y = true ↔ x < y) (him : i < m) {x y : α}
    (hx : values[i]? = some x) (hy : values[m]? = some y) (k : ℕ) :
    (exchange lt i values m)[k]? =
      if k = i then some (min x y) else if k = m then some (max x y) else values[k]? := by
  obtain ⟨hi, -⟩ := List.getElem?_eq_some_iff.1 hx
  obtain ⟨hm, -⟩ := List.getElem?_eq_some_iff.1 hy
  simp only [exchange, hx, hy, hlt]
  by_cases hyx : y < x
  · rw [if_pos hyx, min_eq_right hyx.le, max_eq_left hyx.le]
    simp only [List.getElem?_set, List.length_set, hi, hm, if_true, eq_comm (b := k)]
    split_ifs <;> first | omega | rfl
  · rw [if_neg hyx, min_eq_left (not_lt.1 hyx), max_eq_right (not_lt.1 hyx)]
    split_ifs with hki hkm
    · rw [hki, hx]
    · rw [hkm, hy]
    · rfl

/-- One exchange: the positions in front stay as they are, and the position's value is not
above one more of those behind it. -/
theorem exchange_step (hlt : ∀ x y, lt x y = true ↔ x < y) (him : i < m)
    (hsorted : SortedBelow values i) (hle : ∀ b, i < b → b < m → Le values i b) :
    SortedBelow (exchange lt i values m) i ∧
      ∀ b, i < b → b < m + 1 → Le (exchange lt i values m) i b := by
  rcases hy : values[m]? with - | y
  · have hsame : exchange lt i values m = values := by
      simp [exchange, hy]
    rw [hsame]
    refine ⟨hsorted, fun b hib hbm => ?_⟩
    rcases Nat.lt_succ_iff_lt_or_eq.1 hbm with hlt' | rfl
    · exact hle b hib hlt'
    · intro x z _ hz
      rw [hy] at hz
      cases hz
  · obtain ⟨hm, -⟩ := List.getElem?_eq_some_iff.1 hy
    obtain ⟨x, hx⟩ : ∃ x, values[i]? = some x := ⟨values[i], List.getElem?_eq_getElem (by omega)⟩
    have hget := getElem?_exchange hlt him hx hy
    constructor
    · intro a hai b hab u v hu hv
      rw [hget, if_neg (by omega), if_neg (by omega)] at hu
      have hux := hsorted a hai i hai u x hu hx
      have huy := hsorted a hai m (by omega) u y hu hy
      rw [hget] at hv
      split_ifs at hv with hbi hbm
      · cases hv
        exact le_min hux huy
      · cases hv
        exact hux.trans (le_max_left x y)
      · exact hsorted a hai b hab u v hu hv
    · intro b hib hbm u v hu hv
      rw [hget, if_pos rfl] at hu
      cases hu
      rw [hget, if_neg (by omega)] at hv
      split_ifs at hv with hb
      · cases hv
        exact min_le_max
      · exact (min_le_left x y).trans (hle b hib (by omega) x v hx hv)

/-- The inner loop; the induction is on the positions that are left. -/
theorem foldl_exchange (hlt : ∀ x y, lt x y = true ↔ x < y) (count : ℕ) :
    ∀ {values : List α} {m : ℕ}, i < m → SortedBelow values i →
      (∀ b, i < b → b < m → Le values i b) →
      let settled := (List.range' m count).foldl (exchange lt i) values
      SortedBelow settled i ∧ ∀ b, i < b → b < m + count → Le settled i b := by
  induction count with
  | zero => exact fun him hsorted hle => ⟨hsorted, hle⟩
  | succ count ih =>
    intro values m him hsorted hle
    obtain ⟨hsorted', hle'⟩ := exchange_step hlt him hsorted hle
    have hrest := ih (by omega) hsorted' hle'
    rw [Nat.add_assoc, Nat.add_comm 1] at hrest
    exact hrest

theorem sortedBelow_settle (hlt : ∀ x y, lt x y = true ↔ x < y)
    (hsorted : SortedBelow values i) : SortedBelow (settle lt values.length i values) (i + 1) := by
  obtain ⟨hsorted', hle⟩ := foldl_exchange hlt (values.length - (i + 1)) (Nat.lt_succ_self i)
    hsorted fun b hib hbi => absurd hib (by omega)
  intro a ha b hab u v hu hv
  rcases Nat.lt_succ_iff_lt_or_eq.1 ha with hlt' | rfl
  · exact hsorted' a hlt' b hab u v hu hv
  · have hlen := (foldl_exchange_perm lt a (List.range' (a + 1) (values.length - (a + 1)))
      values).length_eq
    obtain ⟨hb, -⟩ := List.getElem?_eq_some_iff.1 hv
    unfold settle at hb
    exact hle b hab (by omega) u v hu hv

/-- Sorting leaves the values in order. -/
theorem sort_pairwise (hlt : ∀ x y, lt x y = true ↔ x < y) (values : List α) :
    (sort lt values).Pairwise (· ≤ ·) := by
  have hloop : ∀ k, SortedBelow ((List.range k).foldl
        (fun sorted i => settle lt values.length i sorted) values) k ∧
      ((List.range k).foldl (fun sorted i => settle lt values.length i sorted) values).length =
        values.length := by
    intro k
    induction k with
    | zero => exact ⟨fun a ha => absurd ha (Nat.not_lt_zero a), rfl⟩
    | succ k ih =>
      rw [List.range_succ, List.foldl_append, List.foldl_cons, List.foldl_nil]
      have hstep := sortedBelow_settle hlt ih.1
      rw [ih.2] at hstep
      exact ⟨hstep, by rw [length_settle, ih.2]⟩
  have hsorted := (hloop (values.length - 1)).1
  have hlen := (sort_perm lt values).length_eq
  rw [List.pairwise_iff_getElem]
  intro a b ha hb hab
  exact hsorted a (by omega) b hab _ _ (List.getElem?_eq_getElem ha) (List.getElem?_eq_getElem hb)

/-- It is the list in order that comes out, whatever was exchanged on the way. -/
theorem sort_eq_insertionSort (hlt : ∀ x y, lt x y = true ↔ x < y) (values : List α) :
    sort lt values = values.insertionSort (· ≤ ·) := by
  have hperm : (sort lt values).Perm (values.insertionSort (· ≤ ·)) :=
    (sort_perm lt values).trans (List.perm_insertionSort (· ≤ ·) values).symm
  exact hperm.eq_of_pairwise (fun a b _ _ => le_antisymm) (sort_pairwise hlt values)
    (List.pairwise_insertionSort (· ≤ ·) values)

end Order

end ExchangeSort
