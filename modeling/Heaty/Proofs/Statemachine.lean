import Heaty.Proofs.BleTarget
import Heaty.Spec.Statemachine

/-! When an event takes one transition only, the first that applies, and the companion's
machine as an instance. -/

namespace Heaty.Machine

variable {S E σ : Type} {callbacks : Callbacks S σ} {transitions : List (Transition S E σ)}
  {m : Statemachine S σ} {t : Transition S E σ} {ev : E} {evs : List E} {s : S}

/-! ## One transition -/

/-- The calls that belong to a transition: one of each kind, where there is a callback. -/
def Transition.calls (callbacks : Callbacks S σ) (t : Transition S E σ) : List (Call S) :=
  ((callbacks.onExit t.src).toList.map fun _ => .onExit t.src) ++
    (t.onTransition.toList.map fun _ => .onTransition t.src t.dst) ++
    [.notify t.dst] ++
    (callbacks.onEnter t.dst).toList.map fun _ => .onEnter t.dst

@[simp] theorem run_currentState (m : Statemachine S σ) (call : Call S)
    (callback : Option (σ → σ)) : (m.run call callback).currentState = m.currentState := by
  cases callback <;> rfl

@[simp] theorem run_calls (m : Statemachine S σ) (call : Call S) (callback : Option (σ → σ)) :
    (m.run call callback).calls = m.calls ++ callback.toList.map fun _ => call := by
  cases callback <;> simp [Statemachine.run]

@[simp] theorem take_currentState (m : Statemachine S σ) (t : Transition S E σ) :
    (m.take callbacks t).currentState = t.dst := by
  simp [Statemachine.take]

theorem take_calls (h : t.Applies ev m.currentState) :
    (m.take callbacks t).calls = m.calls ++ t.calls callbacks := by
  simp [Statemachine.take, Transition.calls, h.2]

theorem calls_length_lt (h : t.Applies ev m.currentState) :
    m.calls.length < (m.take callbacks t).calls.length := by
  rw [take_calls h]
  simp [Transition.calls]

/-- Behind the first transition that an event triggers from a state, no other one that it
triggers starts where that one ends. -/
def NoChain (transitions : List (Transition S E σ)) (s : S) (ev : E) : Prop :=
  Table.Settles (fun s (t : Transition S E σ) => t.Applies ev s) (fun _ t => t.dst)
    transitions s

/-- No transition is chained in a table where none leads to where another one behind it with the
same trigger starts. -/
theorem noChain_of_pairwise
    (h : transitions.Pairwise fun t u => u.trigger = t.trigger → u.src ≠ t.dst) (s : S) (ev : E) :
    NoChain transitions s ev := by
  refine Table.settles_of_pairwise (h.imp fun {t u} htu s ht hu => ?_)
  exact htu (hu.1.symm.trans ht.1) hu.2.symm

variable [DecidableEq S] [DecidableEq E]

/-! ## The function that takes one step -/

def first (transitions : List (Transition S E σ)) (s : S) (ev : E) :
    Option (Transition S E σ) :=
  Table.first (fun s (t : Transition S E σ) => t.Applies ev s) transitions s

def next (transitions : List (Transition S E σ)) (s : S) (ev : E) : S :=
  Table.takeFirst (fun s (t : Transition S E σ) => t.Applies ev s) (fun _ t => t.dst)
    transitions s

/-- What the machine should do with an event: take the first transition that it triggers
from the state it was in. -/
def oneStep (callbacks : Callbacks S σ) (transitions : List (Transition S E σ))
    (m : Statemachine S σ) (ev : E) : Statemachine S σ :=
  match first transitions m.currentState ev with
  | none => m
  | some t => m.take callbacks t

def path (transitions : List (Transition S E σ)) : S → List E → List (Transition S E σ)
  | _, [] => []
  | s, ev :: evs =>
      (first transitions s ev).toList ++ path transitions (next transitions s ev) evs

/-- The machine handles events one step at a time: after each of them it is where the
one-step function leads, having made the calls of the steps taken. -/
def StepsOnce (callbacks : Callbacks S σ) (transitions : List (Transition S E σ))
    (m : Statemachine S σ) (evs : List E) : Prop :=
  ∀ pre, pre <+: evs →
    m.handleEvents callbacks transitions pre = pre.foldl (oneStep callbacks transitions) m ∧
      (m.handleEvents callbacks transitions pre).calls =
        m.calls ++ (path transitions m.currentState pre).flatMap (Transition.calls callbacks)

theorem first_applies (h : first transitions s ev = some t) : t.Applies ev s := by
  simpa using List.find?_some h

theorem oneStep_eq (callbacks : Callbacks S σ) (transitions : List (Transition S E σ))
    (m : Statemachine S σ) (ev : E) :
    oneStep callbacks transitions m ev =
      Table.takeFirst (fun (m : Statemachine S σ) t => t.Applies ev m.currentState)
        (Statemachine.take callbacks) transitions m := by
  have hfirst : Table.first (fun (m : Statemachine S σ) (t : Transition S E σ) =>
      t.Applies ev m.currentState) transitions m = first transitions m.currentState ev := rfl
  rw [oneStep, Table.takeFirst, hfirst]
  cases first transitions m.currentState ev <;> rfl

theorem oneStep_currentState (callbacks : Callbacks S σ) (transitions : List (Transition S E σ))
    (m : Statemachine S σ) (ev : E) :
    (oneStep callbacks transitions m ev).currentState =
      next transitions m.currentState ev := by
  rw [oneStep_eq, next]
  exact Table.takeFirst_view Statemachine.currentState (fun _ _ => Iff.rfl)
    fun m t _ => take_currentState m t

theorem oneStep_calls (callbacks : Callbacks S σ) (transitions : List (Transition S E σ))
    (m : Statemachine S σ) (ev : E) :
    (oneStep callbacks transitions m ev).calls =
      m.calls ++
        (first transitions m.currentState ev).toList.flatMap (Transition.calls callbacks) := by
  unfold oneStep
  cases h : first transitions m.currentState ev with
  | none => simp
  | some t => simp [take_calls (first_applies h)]

theorem foldl_oneStep_currentState (callbacks : Callbacks S σ)
    (transitions : List (Transition S E σ)) (m : Statemachine S σ) (evs : List E) :
    (evs.foldl (oneStep callbacks transitions) m).currentState =
      evs.foldl (next transitions) m.currentState := by
  induction evs generalizing m with
  | nil => rfl
  | cons ev evs ih => rw [List.foldl_cons, List.foldl_cons, ih, oneStep_currentState]

theorem foldl_oneStep_calls (callbacks : Callbacks S σ) (transitions : List (Transition S E σ))
    (m : Statemachine S σ) (evs : List E) :
    (evs.foldl (oneStep callbacks transitions) m).calls =
      m.calls ++ (path transitions m.currentState evs).flatMap (Transition.calls callbacks) := by
  induction evs generalizing m with
  | nil => simp [path]
  | cons ev evs ih =>
    rw [List.foldl_cons, ih, oneStep_calls, oneStep_currentState, path, List.flatMap_append,
      List.append_assoc]

/-! ## The loop of the source -/

theorem handleEvent_eq_iff :
    m.handleEvent callbacks transitions ev = oneStep callbacks transitions m ev ↔
      NoChain transitions m.currentState ev := by
  rw [Statemachine.handleEvent, oneStep_eq,
    Table.tryAll_eq_takeFirst_iff (fun m => m.calls.length) fun m t h => calls_length_lt h]
  exact Table.settles_view Statemachine.currentState (fun _ _ => Iff.rfl)
    fun m t _ => take_currentState m t

theorem handleEvents_eq_iff :
    (∀ pre, pre <+: evs →
      m.handleEvents callbacks transitions pre = pre.foldl (oneStep callbacks transitions) m) ↔
      ∀ pre ev, pre ++ [ev] <+: evs →
        NoChain transitions (pre.foldl (next transitions) m.currentState) ev := by
  have hfolds := Table.foldl_agree_iff (Statemachine.handleEvent callbacks transitions)
    (oneStep callbacks transitions) evs m
  simp only [handleEvent_eq_iff, foldl_oneStep_currentState] at hfolds
  exact hfolds

theorem stepsOnce_of_noChain
    (h : ∀ pre ev, pre ++ [ev] <+: evs →
      NoChain transitions (pre.foldl (next transitions) m.currentState) ev) :
    StepsOnce callbacks transitions m evs := by
  intro pre hpre
  have heq : m.handleEvents callbacks transitions pre =
      pre.foldl (oneStep callbacks transitions) m := handleEvents_eq_iff.2 h pre hpre
  exact ⟨heq, by rw [heq, foldl_oneStep_calls]⟩

/-- Events are handled one step at a time just where none of them chains in the state the
steps before it lead to. -/
theorem handleEvents_stepsOnce_iff :
    StepsOnce callbacks transitions m evs ↔
      ∀ pre ev, pre ++ [ev] <+: evs →
        NoChain transitions (pre.foldl (next transitions) m.currentState) ev :=
  ⟨fun h => handleEvents_eq_iff.1 fun pre hpre => (h pre hpre).1, stepsOnce_of_noChain⟩

def toAndFro : List (Transition Bool Unit Unit) :=
  [⟨(), false, true, none⟩, ⟨(), true, false, none⟩]

/-- One event goes through both. -/
theorem toAndFro_chains :
    (Statemachine.handleEvents ⟨fun _ => none, fun _ => none⟩ toAndFro ⟨false, [], ()⟩
        [()]).calls = [.notify true, .notify false] ∧
      ¬ StepsOnce ⟨fun _ => none, fun _ => none⟩ toAndFro ⟨false, [], ()⟩ [()] := by
  refine ⟨rfl, fun h => ?_⟩
  have hcalls := (h [()] (List.prefix_refl _)).2
  revert hcalls
  decide

end Heaty.Machine

namespace Heaty.Ble

open Machine (Callbacks Statemachine)

variable {Device : Type} [DecidableEq Device] {s : BleStatemachine Device}
  {m : Statemachine State (BleStatemachine Device)} {t : Transition} {ev : Event}

/-! ## The companion's machine -/

omit [DecidableEq Device] in
def callbacks : Callbacks State (BleStatemachine Device) where
  onEnter state := some fun s => { s with currentState := state }.onEnter
  onExit _ := none

def Transition.general (t : Transition) :
    Machine.Transition State Event (BleStatemachine Device) where
  trigger := t.trigger
  src := t.src
  dst := t.dst
  onTransition :=
    if t.resetAll then some fun s => { s with currentState := t.dst }.resetAll else none

/-- The general machine is in the state of the companion's, which its callbacks work on. -/
structure Reflects (m : Statemachine State (BleStatemachine Device))
    (s : BleStatemachine Device) : Prop where
  env : m.env = s
  currentState : m.currentState = s.currentState

omit [DecidableEq Device] in
theorem goto_self {state : State} (h : s.currentState = state) :
    ({ s with currentState := state } : BleStatemachine Device) = s := by
  subst h
  rfl

theorem take_reflects (h : Reflects m s) :
    Reflects
      (m.take callbacks (t.general : Machine.Transition State Event (BleStatemachine Device)))
      (s.take t) := by
  refine ⟨?_, by rw [Machine.take_currentState, BleStatemachine.take_currentState]; rfl⟩
  by_cases hr : t.resetAll = true
  · have hself := goto_self (BleStatemachine.resetAll_currentState { s with currentState := t.dst })
    simp only [Statemachine.take, Statemachine.run, callbacks, Transition.general,
      BleStatemachine.take, hr, if_true, h.env, hself]
  · simp [Statemachine.take, Statemachine.run, callbacks, Transition.general,
      BleStatemachine.take, hr, h.env]

/-- The companion's machine is the general one over its table and its callbacks. -/
theorem handleEvent_reflects (h : Reflects m s) (ev : Event) :
    Reflects (m.handleEvent callbacks (transitions.map Transition.general) ev)
      (s.handleEvent ev) := by
  rw [Statemachine.handleEvent, Table.tryAll, List.foldl_map, BleStatemachine.handleEvent]
  refine List.foldl_rel h fun t _ m s h => ?_
  have hiff :
      (t.general : Machine.Transition State Event (BleStatemachine Device)).Applies ev
          m.currentState ↔ ev = t.trigger ∧ s.currentState = t.src := by
    rw [Machine.Transition.Applies, h.currentState]
    rfl
  by_cases happlies : ev = t.trigger ∧ s.currentState = t.src
  · rw [if_pos (hiff.2 happlies), if_pos happlies]
    exact take_reflects h
  · rw [if_neg (mt hiff.1 happlies), if_neg happlies]
    exact h

/-- None of its events chains, so that it handles them one step at a time. -/
theorem transitions_stepsOnce (m : Statemachine State (BleStatemachine Device))
    (evs : List Event) :
    Machine.StepsOnce callbacks (transitions.map Transition.general) m evs := by
  refine Machine.stepsOnce_of_noChain fun pre ev _ => ?_
  exact Machine.noChain_of_pairwise
    (List.pairwise_map.2 BleStatemachine.transitions_pairwise) _ ev

end Heaty.Ble
