import Mathlib.Tactic

/-! A queue in a ring of cells. A reader claims cells that lie in one run, and then gives
some of them up. -/

variable {α : Type*}

/-- A ring: its cells, the one that the queue starts at, how long the queue is, and how much
of its front is claimed. -/
structure RingQueue (α : Type*) where
  capacity : ℕ
  cells : ℕ → α
  first : ℕ
  used : ℕ
  claimed : ℕ
  used_le : used ≤ capacity
  claimed_le : claimed ≤ used
  first_lt : 0 < capacity → first < capacity

namespace RingQueue

/-- The ring without a queue. -/
def declare (capacity : ℕ) (cells : ℕ → α) : RingQueue α where
  capacity := capacity
  cells := cells
  first := 0
  used := 0
  claimed := 0
  used_le := Nat.zero_le _
  claimed_le := le_refl _
  first_lt := id

variable (r : RingQueue α) {n : ℕ} {xs : List α}

/-- The queue. -/
def contents : List α :=
  (List.range r.used).map fun i => r.cells ((r.first + i) % r.capacity)

def space : ℕ := r.capacity - r.used

/-- One more element, as long as there is room. -/
def push (x : α) : RingQueue α :=
  if h : r.used < r.capacity then
    { r with
      cells := Function.update r.cells ((r.first + r.used) % r.capacity) x
      used := r.used + 1
      used_le := h
      claimed_le := Nat.le_succ_of_le r.claimed_le }
  else r

def put (xs : List α) : RingQueue α := xs.foldl push r

/-- The cells of the queue that lie in one run behind those that are claimed. -/
def run : ℕ := min (r.used - r.claimed) (r.capacity - (r.first + r.claimed) % r.capacity)

/-- Claim so many cells, as far as the run goes. -/
def claim (n : ℕ) : RingQueue α :=
  { r with
    claimed := r.claimed + min n r.run
    claimed_le := by
      have hrun : r.run ≤ r.used - r.claimed := min_le_left _ _
      have hle := r.claimed_le
      omega }

/-- Give up so many of the claimed cells, and keep the others; nothing happens when there are
fewer. -/
def finish (n : ℕ) : RingQueue α :=
  if n ≤ r.claimed then
    { r with
      first := (r.first + n) % r.capacity
      used := r.used - n
      claimed := 0
      used_le := (Nat.sub_le _ _).trans r.used_le
      claimed_le := Nat.zero_le _
      first_lt := fun hpos => Nat.mod_lt _ hpos }
  else r

@[simp] theorem length_contents : r.contents.length = r.used := by simp [contents]

/-- Cells within a turn are not the same. -/
theorem mod_ne {first i j capacity : ℕ} (hij : i < j) (hj : j < capacity) :
    (first + i) % capacity ≠ (first + j) % capacity := by
  intro heq
  have hmod : i % capacity = j % capacity := Nat.ModEq.add_left_cancel' first heq
  rw [Nat.mod_eq_of_lt (hij.trans hj), Nat.mod_eq_of_lt hj] at hmod
  omega

theorem contents_push (x : α) :
    (r.push x).contents = if r.used < r.capacity then r.contents ++ [x] else r.contents := by
  unfold push
  split_ifs with hroom
  · simp only [contents, List.range_succ, List.map_append, List.map_singleton,
      Function.update_self]
    congr 1
    apply List.map_congr_left
    intro i hi
    exact Function.update_of_ne (mod_ne (List.mem_range.1 hi) hroom) _ _
  · rfl

/-- What an element leaves as it was. -/
theorem push_frame (x : α) :
    (r.push x).capacity = r.capacity ∧ (r.push x).first = r.first ∧
      (r.push x).claimed = r.claimed := by
  unfold push
  split_ifs <;> exact ⟨rfl, rfl, rfl⟩

theorem put_frame (xs : List α) :
    (r.put xs).capacity = r.capacity ∧ (r.put xs).first = r.first ∧
      (r.put xs).claimed = r.claimed := by
  induction xs generalizing r with
  | nil => exact ⟨rfl, rfl, rfl⟩
  | cons x xs ih =>
    obtain ⟨hcapacity, hfirst, hclaimed⟩ := r.push_frame x
    obtain ⟨hcapacity', hfirst', hclaimed'⟩ := ih (r.push x)
    exact ⟨hcapacity'.trans hcapacity, hfirst'.trans hfirst, hclaimed'.trans hclaimed⟩

/-- As much is put as there is room for. -/
theorem contents_put (xs : List α) : (r.put xs).contents = r.contents ++ xs.take r.space := by
  induction xs generalizing r with
  | nil => simp [put]
  | cons x xs ih =>
    have hpush := r.contents_push x
    have hused := congrArg List.length hpush
    have hput : r.put (x :: xs) = (r.push x).put xs := rfl
    rw [hput, ih (r.push x), hpush, space, (r.push_frame x).1]
    split_ifs at hused ⊢ with hroom
    · simp only [length_contents, List.length_append, List.length_singleton] at hused
      obtain ⟨space, hspace⟩ : ∃ space, r.capacity - r.used = space + 1 :=
        ⟨r.capacity - r.used - 1, by omega⟩
      have hrest : r.capacity - (r.push x).used = space := by omega
      rw [hrest, RingQueue.space, hspace, List.take_succ_cons, List.append_assoc, List.singleton_append]
    · simp only [length_contents] at hused
      have hnone : r.capacity - r.used = 0 := by omega
      rw [hused, RingQueue.space, hnone, List.take_zero, List.take_zero]

/-- With nothing claimed, a claim starts at the front. -/
theorem claimed_claim (h : r.claimed = 0) (n : ℕ) :
    (r.claim n).claimed = min n (min r.contents.length (r.capacity - r.first)) := by
  have hrun : r.run = min r.used (r.capacity - r.first) := by
    rcases Nat.eq_zero_or_pos r.capacity with hzero | hpos
    · have hused : r.used = 0 := Nat.le_zero.1 (hzero ▸ r.used_le)
      simp [run, hused]
    · rw [run, h, Nat.sub_zero, add_zero, Nat.mod_eq_of_lt (r.first_lt hpos)]
  have hclaimed : (r.claim n).claimed = r.claimed + min n r.run := rfl
  rw [hclaimed, h, zero_add, hrun, length_contents]

theorem contents_finish (h : n ≤ r.claimed) : (r.finish n).contents = r.contents.drop n := by
  have hle := h.trans r.claimed_le
  rw [finish, if_pos h, contents, contents]
  apply List.ext_getElem
  · simp
  · intro i hi hi'
    simp only [List.getElem_map, List.getElem_range, List.getElem_drop, Nat.mod_add_mod,
      add_assoc]

theorem first_finish (h : n ≤ r.claimed) : (r.finish n).first = (r.first + n) % r.capacity := by
  rw [finish, if_pos h]

theorem claimed_finish (h : n ≤ r.claimed) : (r.finish n).claimed = 0 := by
  rw [finish, if_pos h]

theorem capacity_finish (n : ℕ) : (r.finish n).capacity = r.capacity := by
  unfold finish
  split_ifs <;> rfl

end RingQueue
