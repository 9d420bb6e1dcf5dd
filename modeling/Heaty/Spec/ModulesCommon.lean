import Mathlib.Data.Int.Notation
import Mathlib.Data.List.Basic

/-! modules_common.c and the macros of modules_common.h that every module's event
handler goes through to put a message on the module's queue. -/

namespace Heaty.Common

variable {Msg : Type}

/-- What `k_msgq_put` can return for a queue of `count` entries: with `K_FOREVER` it
waits for room before it returns 0. -/
def putReturns (count : ℕ) (queue : List Msg) (err : ℤ) : Prop :=
  err = 0 → queue.length < count

instance (count : ℕ) (queue : List Msg) (err : ℤ) : Decidable (putReturns count queue err) :=
  inferInstanceAs (Decidable (_ → _))

/-- `module_enqueue_msg` when `k_msgq_put` returns `err`: the queue it leaves. -/
def moduleEnqueueMsg (queue : List Msg) (msg : Msg) (err : ℤ) : List Msg :=
  if err ≠ 0 then [] else queue ++ [msg]

end Heaty.Common
