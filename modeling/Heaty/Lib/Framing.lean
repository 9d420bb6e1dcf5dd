import Mathlib.Tactic

/-! Streams of frames, each ended by a delimiter. `frames` lists those a stream
completes and `pending` is what comes after the last delimiter. Frames that are
put into a stream come out of it again. -/

namespace Framing

variable {α : Type*} [DecidableEq α] {delim : α}

/-- The frames completed by a stream that continues the unfinished frame `cur`. -/
def frames (delim : α) (cur : List α) : List α → List (List α)
  | [] => []
  | c :: rest => if c = delim then cur :: frames delim [] rest else frames delim (cur ++ [c]) rest

/-- The frame left unfinished. -/
def pending (delim : α) (cur : List α) : List α → List α
  | [] => cur
  | c :: rest => if c = delim then pending delim [] rest else pending delim (cur ++ [c]) rest

/-- A frame and its delimiter complete that frame. -/
theorem frames_frame {f : List α} (hf : delim ∉ f) (cur rest : List α) :
    frames delim cur (f ++ delim :: rest) = (cur ++ f) :: frames delim [] rest := by
  induction f generalizing cur with
  | nil => simp [frames]
  | cons c f ih =>
    simp only [List.mem_cons, not_or] at hf
    rw [List.cons_append, frames, if_neg (fun h => hf.1 h.symm), ih hf.2]
    simp

/-- The frames of a stream made of frames. -/
theorem frames_flatMap {fs : List (List α)} (hfs : ∀ f ∈ fs, delim ∉ f) :
    frames delim [] (fs.flatMap (· ++ [delim])) = fs := by
  induction fs with
  | nil => rfl
  | cons f fs ih =>
    rw [List.forall_mem_cons] at hfs
    rw [List.flatMap_cons, List.append_assoc, List.singleton_append, frames_frame hfs.1, ih hfs.2,
      List.nil_append]

/-- A stream in two parts: the second continues what the first left unfinished. -/
theorem frames_append (cur a b : List α) :
    frames delim cur (a ++ b) = frames delim cur a ++ frames delim (pending delim cur a) b := by
  induction a generalizing cur with
  | nil => rfl
  | cons c a ih =>
    rw [List.cons_append, frames, frames, pending]
    split_ifs
    · rw [ih, List.cons_append]
    · exact ih _

theorem pending_append (cur a b : List α) :
    pending delim cur (a ++ b) = pending delim (pending delim cur a) b := by
  induction a generalizing cur with
  | nil => rfl
  | cons c a ih =>
    rw [List.cons_append, pending, pending]
    split_ifs
    · exact ih _
    · exact ih _

/-- A part of a stream completes the first of its frames. -/
theorem frames_prefix {a b : List α} (h : a <+: b) :
    frames delim [] a <+: frames delim [] b := by
  obtain ⟨rest, rfl⟩ := h
  rw [frames_append]
  exact List.prefix_append _ _

end Framing
