import Heaty.Lib.Table

/-! statemachine.dart: a machine for any states, events and transitions. States and events
are compared by identity. A callback is what it does up to its first await, to whatever it
can reach; one that throws is left out. -/

namespace Heaty.Machine

variable {S E σ : Type}

/-- `Transition`. -/
structure Transition (S E σ : Type) where
  trigger : E
  src : S
  dst : S
  onTransition : Option (σ → σ)

/-- `onEnter` and `onExit` of the states. -/
structure Callbacks (S σ : Type) where
  onEnter : S → Option (σ → σ)
  onExit : S → Option (σ → σ)

/-- What is called on the way: the callbacks, and `stateChangeNotifier.add`. -/
inductive Call (S : Type)
  | onExit (s : S)
  | onTransition (src dst : S)
  | notify (s : S)
  | onEnter (s : S)
  deriving DecidableEq

/-- `Statemachine`, with the calls it has made and what its callbacks can reach. -/
structure Statemachine (S σ : Type) where
  currentState : S
  calls : List (Call S)
  env : σ

/-- `if (callback != null) callback!()`. -/
def Statemachine.run (m : Statemachine S σ) (call : Call S) :
    Option (σ → σ) → Statemachine S σ
  | none => m
  | some callback => { m with calls := m.calls ++ [call], env := callback m.env }

/-- The constructor. -/
def Statemachine.create (callbacks : Callbacks S σ) (initState : S) (env : σ) :
    Statemachine S σ :=
  Statemachine.run ⟨initState, [], env⟩ (.onEnter initState) (callbacks.onEnter initState)

/-- The body of the loop in `_handleEvent` for a transition that applies. -/
def Statemachine.take (callbacks : Callbacks S σ) (m : Statemachine S σ)
    (t : Transition S E σ) : Statemachine S σ :=
  let m := m.run (.onExit m.currentState) (callbacks.onExit m.currentState)
  let m := { m with currentState := t.dst }
  let m := m.run (.onTransition t.src t.dst) t.onTransition
  let m := { m with calls := m.calls ++ [Call.notify m.currentState] }
  m.run (.onEnter m.currentState) (callbacks.onEnter m.currentState)

/-- `ev == t.trigger && _currentState == t.from`. -/
def Transition.Applies (t : Transition S E σ) (ev : E) (s : S) : Prop :=
  ev = t.trigger ∧ s = t.src

variable [DecidableEq S] [DecidableEq E]

instance (t : Transition S E σ) (ev : E) (s : S) : Decidable (t.Applies ev s) :=
  inferInstanceAs (Decidable (_ ∧ _))

/-- `_handleEvent`: the loop goes on after a transition, in the state it has led to. -/
def Statemachine.handleEvent (callbacks : Callbacks S σ) (transitions : List (Transition S E σ))
    (m : Statemachine S σ) (ev : E) : Statemachine S σ :=
  Table.tryAll (fun (m : Statemachine S σ) (t : Transition S E σ) => t.Applies ev m.currentState)
    (Statemachine.take callbacks) transitions m

/-- The loop of `start` over the events of the stream. -/
def Statemachine.handleEvents (callbacks : Callbacks S σ)
    (transitions : List (Transition S E σ)) (m : Statemachine S σ) (evs : List E) :
    Statemachine S σ :=
  evs.foldl (Statemachine.handleEvent callbacks transitions) m

end Heaty.Machine
