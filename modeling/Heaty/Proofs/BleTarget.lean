import Heaty.Lib.Table
import Heaty.Spec.BleStatemachine
import Mathlib.Data.Bool.AllAny

/-! When the companion's machine has the device it works on: as long as nothing clears
`targetDevice` that another body, a listener or the state itself still needs. -/

namespace Heaty.Ble

variable {Device : Type}

def State.needsTarget : State → Bool
  | .connecting | .connected | .discovering => true
  | _ => false

def Task.needsTarget : Task → Bool
  | .connecting _ | .discovering _ => true
  | _ => false

namespace BleStatemachine

variable {s s' : BleStatemachine Device} {evs : List (AppEvent Device)}

/-- In the three states there is a target, in Connecting an attempt to connect, and no
`targetDevice!` has thrown. -/
structure HasTarget (s : BleStatemachine Device) : Prop where
  target : s.currentState.needsTarget = true → s.targetDevice.isSome = true
  attempt : s.currentState = .connecting → s.attempts ≠ []
  checks : s.nullCheckFailed = false

/-- The state, a suspended body or the listener of Connecting relies on the target. -/
def needsTarget (s : BleStatemachine Device) : Bool :=
  s.currentState.needsTarget || s.tasks.any Task.needsTarget ||
    s.listening.any fun sub => sub.source = .state

theorem needsTarget_of_task {task : Task} (h : task ∈ s.tasks) (hneeds : task.needsTarget = true) :
    s.needsTarget = true := by
  have hany : s.tasks.any Task.needsTarget = true := List.any_eq_true.2 ⟨task, h, hneeds⟩
  simp [needsTarget, hany]

theorem needsTarget_of_listening {sub : Subscription} (h : sub ∈ s.listening)
    (hsource : sub.source = .state) : s.needsTarget = true := by
  have hany : (s.listening.any fun sub => sub.source = .state) = true :=
    List.any_eq_true.2 ⟨sub, h, by simpa using hsource⟩
  simp only [needsTarget, hany, Bool.or_true]

def connects (s : BleStatemachine Device) : AppEvent Device → Bool
  | .handle => s.eventHandler.head? = some .connect &&
      (s.currentState = .idle || s.currentState = .scanning)
  | _ => false

def clearsTarget (s : BleStatemachine Device) : AppEvent Device → Bool
  | .handle => s.eventHandler.head? = some .scan && s.currentState = .idle
  | .resume i .done =>
      match s.tasks[i]? with
      | some (.resetAll rest) => rest.all fun source => (s.subscription source).isNone
      | _ => false
  | _ => false

/-- Connect finds a target, and the target is not cleared while anything needs it. -/
def Guarded (s : BleStatemachine Device) (e : AppEvent Device) : Prop :=
  (s.connects e = true → s.targetDevice.isSome = true) ∧
    (s.clearsTarget e = true → s.needsTarget = false)

instance (s : BleStatemachine Device) (e : AppEvent Device) : Decidable (Guarded s e) :=
  inferInstanceAs (Decidable (_ ∧ _))

/-- A target comes from the listener of Scanning, whose subscription is never dropped. -/
structure Inv (s : BleStatemachine Device) : Prop where
  target : s.needsTarget = true → s.targetDevice.isSome = true
  attempt : s.currentState = .connecting → s.attempts ≠ []
  checks : s.nullCheckFailed = false
  scan : s.scanSubscription = none →
    s.targetDevice = none ∧ ∀ sub ∈ s.listening, sub.source ≠ .scan

theorem Inv.hasTarget (h : s.Inv) : s.HasTarget where
  target hstate := h.target (by simp [needsTarget, hstate])
  attempt := h.attempt
  checks := h.checks

theorem Inv.start : (start : BleStatemachine Device).Inv where
  target := by simp [needsTarget, BleStatemachine.start, State.needsTarget, Task.needsTarget]
  attempt := by simp [BleStatemachine.start]
  checks := rfl
  scan _ := by simp [BleStatemachine.start]

/-- A body that leaves the target alone and that nothing is left to rely on it. -/
structure Keeps (s s' : BleStatemachine Device) : Prop where
  state : s'.currentState = s.currentState
  target : s'.targetDevice = s.targetDevice
  attempts : s'.attempts = s.attempts
  checks : s'.nullCheckFailed = s.nullCheckFailed
  scan : s'.scanSubscription = s.scanSubscription
  tasks : ∀ task ∈ s'.tasks, task.needsTarget = true → task ∈ s.tasks
  listening : ∀ sub ∈ s'.listening,
    sub.source = .scan ∨ sub.source = .state → sub ∈ s.listening

theorem Keeps.refl (s : BleStatemachine Device) : Keeps s s :=
  ⟨rfl, rfl, rfl, rfl, rfl, fun _ h _ => h, fun _ h _ => h⟩

theorem Keeps.trans {s'' : BleStatemachine Device} (h : Keeps s s') (h' : Keeps s' s'') :
    Keeps s s'' where
  state := h'.state.trans h.state
  target := h'.target.trans h.target
  attempts := h'.attempts.trans h.attempts
  checks := h'.checks.trans h.checks
  scan := h'.scan.trans h.scan
  tasks task ht hneeds := h.tasks task (h'.tasks task ht hneeds) hneeds
  listening sub hs hsource := h.listening sub (h'.listening sub hs hsource) hsource

theorem Keeps.needsTarget (h : Keeps s s') (hneeds : s'.needsTarget = true) :
    s.needsTarget = true := by
  simp only [BleStatemachine.needsTarget, Bool.or_eq_true, List.any_eq_true, decide_eq_true_eq,
    h.state] at hneeds ⊢
  rcases hneeds with (hstate | ⟨task, ht, htask⟩) | ⟨sub, hs, hsub⟩
  · exact .inl (.inl hstate)
  · exact .inl (.inr ⟨task, h.tasks task ht htask, htask⟩)
  · exact .inr ⟨sub, h.listening sub hs (.inr hsub), hsub⟩

theorem Keeps.inv (hkeeps : Keeps s s') (h : s.Inv) : s'.Inv where
  target hneeds := by rw [hkeeps.target]; exact h.target (hkeeps.needsTarget hneeds)
  attempt := by rw [hkeeps.state, hkeeps.attempts]; exact h.attempt
  checks := hkeeps.checks.trans h.checks
  scan hnone := by
    rw [hkeeps.scan] at hnone
    rw [hkeeps.target]
    refine ⟨(h.scan hnone).1, fun sub hs hsource => ?_⟩
    exact (h.scan hnone).2 sub (hkeeps.listening sub hs (.inl hsource)) hsource

theorem add_keeps (s : BleStatemachine Device) (ev : Event) : Keeps s (s.add ev) :=
  { Keeps.refl s with }

theorem suspend_keeps (s : BleStatemachine Device) {task : Task} (h : task.needsTarget = false) :
    Keeps s (s.suspend task) where
  state := rfl
  target := rfl
  attempts := rfl
  checks := rfl
  scan := rfl
  tasks task' ht hneeds := by
    rcases List.mem_append.1 ht with ht | ht
    · exact ht
    · rw [List.mem_singleton.1 ht, h] at hneeds
      cases hneeds
  listening _ hs _ := hs

theorem filter_keeps (s : BleStatemachine Device) (p : Subscription → Bool) :
    Keeps s { s with listening := s.listening.filter p } :=
  { Keeps.refl s with listening := fun _ hs _ => (List.mem_filter.1 hs).1 }

theorem listen_keeps (s : BleStatemachine Device) {source : Source} (hscan : source ≠ .scan)
    (hstate : source ≠ .state) : Keeps s (s.listen source) := by
  cases source
  case scan => exact absurd rfl hscan
  case state => exact absurd rfl hstate
  all_goals
    refine ⟨rfl, rfl, rfl, rfl, rfl, fun _ h _ => h, fun sub hs hsource => ?_⟩
    rcases List.mem_cons.1 hs with rfl | hs
    · simp at hsource
    · exact hs

theorem cancelEach_cases (task : List Source → Task)
    (body : BleStatemachine Device → BleStatemachine Device) (sources : List Source)
    (s : BleStatemachine Device) :
    (∃ rest p, cancelEach task body sources s =
      { s with listening := s.listening.filter p }.suspend (task rest)) ∨
    ((∀ source ∈ sources, s.subscription source = none) ∧
      cancelEach task body sources s = body s) := by
  induction sources with
  | nil => exact .inr ⟨by simp, rfl⟩
  | cons source rest ih =>
    cases hsub : s.subscription source with
    | some sub =>
      left
      exact ⟨rest, fun other => other ≠ sub, by simp only [cancelEach, hsub]⟩
    | none =>
      simp only [cancelEach, hsub]
      rcases ih with ih | ⟨hnone, heq⟩
      · exact .inl ih
      · exact .inr ⟨by simpa [hsub] using hnone, heq⟩

theorem cancelEach_keeps {task : List Source → Task}
    {body : BleStatemachine Device → BleStatemachine Device} {sources : List Source}
    (htask : ∀ rest, (task rest).needsTarget = false) (hbody : Keeps s (body s)) :
    Keeps s (cancelEach task body sources s) := by
  rcases cancelEach_cases task body sources s with ⟨rest, p, heq⟩ | ⟨-, heq⟩
  · rw [heq]
    exact (filter_keeps s p).trans (suspend_keeps _ (htask rest))
  · rw [heq]
    exact hbody

/-- With a target there is nothing a body can miss. -/
theorem Inv.of_isSome (h : s.Inv) (htarget : s.targetDevice.isSome = true)
    (hsame : s'.targetDevice = s.targetDevice) (hchecks : s'.nullCheckFailed = s.nullCheckFailed)
    (hscan : s'.scanSubscription = s.scanSubscription)
    (hattempt : s'.currentState = .connecting → s'.attempts ≠ []) : s'.Inv where
  target _ := by rw [hsame]; exact htarget
  attempt := hattempt
  checks := hchecks.trans h.checks
  scan hnone := by
    rw [(h.scan (hscan.symm.trans hnone)).1] at htarget
    cases htarget

theorem withTarget_of_isSome {body : BleStatemachine Device → BleStatemachine Device}
    (htarget : s.targetDevice.isSome = true) : withTarget body s = body s := by
  obtain ⟨device, hdevice⟩ := Option.isSome_iff_exists.1 htarget
  simp only [withTarget, hdevice]

theorem connectingFrom_inv {rest : List Source} (h : s.Inv)
    (htarget : s.targetDevice.isSome = true) : (connectingFrom rest s).Inv := by
  rcases cancelEach_cases .connecting (withTarget fun s => s.listen .state) rest s with
    ⟨rest', p, heq⟩ | ⟨-, heq⟩
  · rw [connectingFrom, heq]
    exact h.of_isSome htarget rfl rfl rfl h.attempt
  · rw [connectingFrom, heq, withTarget_of_isSome htarget]
    exact h.of_isSome htarget rfl rfl rfl h.attempt

theorem discoveringFrom_inv {rest : List Source} (h : s.Inv)
    (htarget : s.targetDevice.isSome = true) : (discoveringFrom rest s).Inv := by
  rcases cancelEach_cases .discovering (withTarget fun s => s.suspend .discoverServices) rest s with
    ⟨rest', p, heq⟩ | ⟨-, heq⟩
  · rw [discoveringFrom, heq]
    exact h.of_isSome htarget rfl rfl rfl h.attempt
  · rw [discoveringFrom, heq, withTarget_of_isSome htarget]
    exact h.of_isSome htarget rfl rfl rfl h.attempt

theorem clearTarget_inv (h : s.Inv) (hneeds : s.needsTarget = false) : s.clearTarget.Inv where
  target hneeds' := absurd (hneeds.symm.trans hneeds') (by simp)
  attempt := h.attempt
  checks := h.checks
  scan hnone := ⟨rfl, (h.scan hnone).2⟩

/-- What a `resetAll` does from one await to the next. -/
theorem resetFrom_inv {rest : List Source} (h : s.Inv)
    (hclear : (∀ source ∈ rest, s.subscription source = none) → s.needsTarget = false) :
    (resetFrom rest s).Inv := by
  rcases cancelEach_cases .resetAll clearTarget rest s with ⟨rest', p, heq⟩ | ⟨hnone, heq⟩
  · rw [resetFrom, heq]
    exact ((filter_keeps s p).trans (suspend_keeps _ rfl)).inv h
  · rw [resetFrom, heq]
    exact clearTarget_inv h (hclear hnone)

theorem scanningFrom_inv {rest : List Source} (h : s.Inv) : (scanningFrom rest s).Inv :=
  (cancelEach_keeps (fun _ => rfl) (suspend_keeps s rfl)).inv h

theorem listenScan_inv (h : s.Inv) : (s.listen .scan).Inv where
  target hneeds := h.target (by simpa [needsTarget, listen] using hneeds)
  attempt := h.attempt
  checks := h.checks
  scan hnone := by cases hnone

theorem notify_keeps {source : Source} (hscan : source ≠ .scan) (hstate : source ≠ .state)
    (found : Bool) (hnone : Keeps s s') : Keeps s (if found then s.listen source else s') := by
  cases found with
  | true => exact listen_keeps s hscan hstate
  | false => exact hnone

theorem resume_inv {task : Task} {completion : Completion} (h : s.Inv)
    (htask : task.needsTarget = true → s.targetDevice.isSome = true)
    (hclear : ∀ rest, task = .resetAll rest → completion = .done →
      (∀ source ∈ rest, s.subscription source = none) → s.needsTarget = false)
    (hresume : s.resume task completion = some s') : s'.Inv := by
  cases completion with
  | error =>
    simp only [resume, Option.some.injEq] at hresume
    exact hresume ▸ h
  | isOn on =>
    cases task <;> simp only [resume, Option.some.injEq, reduceCtorEq] at hresume
    subst hresume
    cases on with
    | true => exact (add_keeps s _).inv h
    | false => exact ((add_keeps s _).trans (suspend_keeps _ rfl)).inv h
  | services services =>
    cases task <;> simp only [resume, Option.some.injEq, reduceCtorEq] at hresume
    subst hresume
    have hkeeps : Keeps s { s with allServices := services } := { Keeps.refl s with }
    exact (hkeeps.trans (suspend_keeps _ rfl)).inv h
  | done =>
    cases task <;> simp only [resume, Option.some.injEq, reduceCtorEq] at hresume <;> subst hresume
    case reinit => exact (add_keeps s _).inv h
    case resetAll rest => exact resetFrom_inv h (hclear rest rfl rfl)
    case scanning rest => exact scanningFrom_inv h
    case isScanning => exact listenScan_inv h
    case connecting rest => exact connectingFrom_inv h (htask rfl)
    case discovering rest => exact discoveringFrom_inv h (htask rfl)
    case notifyHeatMap found =>
      have hkeeps : Keeps s { s with heatMapTxSubscription := none } := { Keeps.refl s with }
      exact ((notify_keeps (by simp) (by simp) found hkeeps).trans (suspend_keeps _ rfl)).inv h
    case notifyCameraImage found =>
      have hkeeps : Keeps s { s with cameraImageTxSubscription := none } := { Keeps.refl s with }
      exact ((notify_keeps (by simp) (by simp) found hkeeps).trans (add_keeps _ _)).inv h

theorem Inv.enter (h : s.Inv) {dst : State} (hdst : dst.needsTarget = false) :
    Inv { s with currentState := dst } where
  target hneeds := by
    refine h.target ?_
    simp only [needsTarget, hdst, Bool.false_or, Bool.or_eq_true] at hneeds ⊢
    exact hneeds.imp_left .inr
  attempt hstate := by
    rw [show dst = .connecting from hstate] at hdst
    cases hdst
  checks := h.checks
  scan := h.scan

theorem deviceState_inv {state : BluetoothDeviceState} (h : s.Inv)
    (htarget : s.targetDevice.isSome = true) : (s.deviceState state).Inv := by
  cases state with
  | connected =>
    have hcheck : (s.add .connected).targetDevice.isSome = true := htarget
    rw [deviceState, withTarget_of_isSome hcheck]
    exact (add_keeps s _).inv h
  | disconnected => exact (add_keeps s _).inv h
  | connecting | disconnecting => exact h

theorem scanResult_inv {result : ScanResult Device} (h : s.Inv)
    (hscan : s.scanSubscription ≠ none) : (s.scanResult result).Inv := by
  unfold scanResult
  split_ifs
  · exact ⟨fun _ => rfl, h.attempt, h.checks, fun hnone => absurd hnone hscan⟩
  · exact h

theorem scanResults_inv {results : List (ScanResult Device)} (h : s.Inv)
    (hscan : s.scanSubscription ≠ none) : (results.foldl scanResult s).Inv := by
  induction results generalizing s with
  | nil => exact h
  | cons result results ih =>
    refine ih (scanResult_inv h hscan) ?_
    unfold scanResult
    split_ifs <;> exact hscan

variable [DecidableEq Device]

/-- The part of a `resetAll` that runs in the transition itself leaves the target, since a
subscription to cancel comes with it. -/
theorem resetAll_inv (h : s.Inv) (hstate : s.currentState.needsTarget = false) :
    s.resetAll.Inv := by
  have hidle (attempts : List Device) : Inv { s with attempts := attempts, allServices := [] } := by
    refine ⟨h.target, fun hconnecting => ?_, h.checks, h.scan⟩
    rw [show s.currentState = .connecting from hconnecting] at hstate
    cases hstate
  refine resetFrom_inv (hidle _) fun hnone => ?_
  have htarget : s.targetDevice = none := (h.scan (hnone .scan (by simp))).1
  by_contra hneeds
  have hsome : s.targetDevice.isSome = true := h.target (eq_true_of_ne_false hneeds)
  simp [htarget] at hsome

omit [DecidableEq Device] in
theorem cancelEach_currentState {task : List Source → Task} {sources : List Source}
    {body : BleStatemachine Device → BleStatemachine Device}
    (hbody : (body s).currentState = s.currentState) :
    (cancelEach task body sources s).currentState = s.currentState := by
  rcases cancelEach_cases task body sources s with ⟨rest, p, heq⟩ | ⟨-, heq⟩
  · rw [heq]
    rfl
  · rw [heq, hbody]

theorem resetAll_currentState (s : BleStatemachine Device) :
    s.resetAll.currentState = s.currentState := cancelEach_currentState rfl

omit [DecidableEq Device] in
theorem withTarget_currentState {body : BleStatemachine Device → BleStatemachine Device}
    (hbody : (body s).currentState = s.currentState) :
    (withTarget body s).currentState = s.currentState := by
  cases htarget : s.targetDevice with
  | some device => simp only [withTarget, htarget, hbody]
  | none => simp only [withTarget, htarget]

omit [DecidableEq Device] in
theorem onEnter_currentState (s : BleStatemachine Device) :
    s.onEnter.currentState = s.currentState := by
  unfold onEnter
  split
  · rfl
  · rfl
  · exact cancelEach_currentState rfl
  · split
    · exact cancelEach_currentState (withTarget_currentState rfl)
    · rfl
  · split_ifs <;> rfl
  · exact cancelEach_currentState (withTarget_currentState rfl)

theorem take_currentState (s : BleStatemachine Device) (t : Transition) :
    (s.take t).currentState = t.dst := by
  rw [take, onEnter_currentState]
  split_ifs
  · rw [resetAll_currentState]
  · rfl

/-- No event takes two transitions, since none leads to where another one starts. -/
theorem transitions_pairwise :
    transitions.Pairwise fun t u => u.trigger = t.trigger → u.src ≠ t.dst := by decide

theorem handleEvent_cases (s : BleStatemachine Device) (ev : Event) :
    s.handleEvent ev = s ∨ ∃ t ∈ transitions, ev = t.trigger ∧ s.currentState = t.src ∧
      s.handleEvent ev = s.take t := by
  have hsettles : Table.Settles (fun (s : BleStatemachine Device) (t : Transition) =>
      ev = t.trigger ∧ s.currentState = t.src) take transitions s := by
    refine Table.settles_of_pairwise (transitions_pairwise.imp fun {t u} htu s ht hu => ?_)
    rw [take_currentState] at hu
    exact htu (hu.1.symm.trans ht.1) hu.2.symm
  have hone : s.handleEvent ev = _ := Table.tryAll_of_settles hsettles
  rw [hone]
  rcases Table.takeFirst_cases (fun (s : BleStatemachine Device) (t : Transition) =>
    ev = t.trigger ∧ s.currentState = t.src) take transitions s with h | ⟨t, ht, hguard, h⟩
  · exact .inl h
  · exact .inr ⟨t, ht, hguard.1, hguard.2, h⟩

/-- A `resetAll` goes to Init or Idle; Connected and Discovering follow on a state that
has a target. -/
theorem transitions_dst : ∀ t ∈ transitions, (t.resetAll = true → t.dst = .init ∨ t.dst = .idle) ∧
    (t.dst = .connected ∨ t.dst = .discovering → t.src.needsTarget = true) ∧
    (t.dst = .connecting → t.trigger = .connect ∧ (t.src = .idle ∨ t.src = .scanning)) ∧
    (t.dst = .scanning → t.trigger = .scan ∧ t.src = .idle) :=
  List.all_iff_forall_prop.1 (by decide)

omit [DecidableEq Device] in
/-- Entering a state keeps the invariant; for Connecting it need not hold before. -/
theorem onEnter_inv (h : s.currentState ≠ .connecting → s.Inv)
    (hconnecting : s.currentState = .connecting → s.targetDevice.isSome = true ∧
      ∀ device, Inv { s with attempts := device :: s.attempts })
    (hscanning : s.currentState = .scanning → s.needsTarget = false) : s.onEnter.Inv := by
  unfold onEnter
  split
  case h_1 hstate => exact (suspend_keeps s rfl).inv (h (by simp [hstate]))
  case h_2 hstate => exact h (by simp [hstate])
  case h_3 hstate =>
    have hinv := h (by simp [hstate])
    exact scanningFrom_inv (clearTarget_inv hinv (hscanning hstate))
  case h_4 hstate =>
    obtain ⟨htarget, hinv⟩ := hconnecting hstate
    split
    case h_1 device _ => exact connectingFrom_inv (hinv device) htarget
    case h_2 hnone => simp [hnone] at htarget
  case h_5 hstate =>
    have hinv := h (by simp [hstate])
    split_ifs
    · exact (add_keeps s _).inv hinv
    · exact hinv
  case h_6 hstate =>
    have hinv := h (by simp [hstate])
    have hkeeps : Keeps s { s with allServices := [] } := { Keeps.refl s with }
    refine discoveringFrom_inv (hkeeps.inv hinv) (hinv.target ?_)
    simp [needsTarget, hstate, State.needsTarget]

omit [DecidableEq Device] in
/-- The state before a transition that does not reset, with the new state in it. -/
theorem Inv.goto (h : s.Inv) {dst : State} (hdst : dst ≠ .connecting)
    (htarget : dst.needsTarget = true → s.targetDevice.isSome = true) :
    Inv { s with currentState := dst } := by
  cases hneeds : dst.needsTarget with
  | false => exact h.enter hneeds
  | true => exact h.of_isSome (htarget hneeds) rfl rfl rfl fun hstate => absurd hstate hdst

theorem take_inv {t : Transition} (ht : t ∈ transitions) (hsrc : s.currentState = t.src)
    (h : s.Inv) (hconnect : t.dst = .connecting → s.targetDevice.isSome = true)
    (hscan : t.dst = .scanning → s.needsTarget = false) : (s.take t).Inv := by
  obtain ⟨hreset, hneeds, -, -⟩ := transitions_dst t ht
  by_cases hr : t.resetAll = true
  · have hquiet : t.dst.needsTarget = false := by
      rcases hreset hr with hdst | hdst <;> rw [hdst] <;> rfl
    have hstate : (resetAll { s with currentState := t.dst }).currentState = t.dst :=
      resetAll_currentState _
    simp only [take, if_pos hr]
    refine onEnter_inv (fun _ => resetAll_inv (h.enter hquiet) hquiet) ?_ ?_
    all_goals
      intro hdst
      rw [hstate] at hdst
      rcases hreset hr with hdst' | hdst' <;> simp [hdst'] at hdst
  · simp only [take, if_neg hr]
    refine onEnter_inv (fun hdst => h.goto hdst fun hdst' => h.target ?_) (fun hdst => ?_)
      fun hdst => ?_
    · have hnext : t.dst = .connected ∨ t.dst = .discovering := by
        cases hd : t.dst <;> simp_all [State.needsTarget]
      simp [needsTarget, hsrc, hneeds hnext]
    · exact ⟨hconnect hdst, fun device => h.of_isSome (hconnect hdst) rfl rfl rfl (by simp)⟩
    · have hfree := hscan hdst
      simp only [needsTarget, Bool.or_eq_false_iff] at hfree ⊢
      exact ⟨⟨by rw [show t.dst = .scanning from hdst]; rfl, hfree.1.2⟩, hfree.2⟩

theorem handle_inv {ev : Event} {rest : List Event} (h : s.Inv) (hok : s.Guarded .handle)
    (hqueue : s.eventHandler = ev :: rest) :
    Inv (handleEvent { s with eventHandler := rest } ev) := by
  have hpop : Inv { s with eventHandler := rest } := { h with }
  rcases handleEvent_cases { s with eventHandler := rest } ev with
    hsame | ⟨t, ht, hev, hsrc, htake⟩
  · rw [hsame]
    exact hpop
  · rw [htake]
    obtain ⟨-, -, hconnecting, hscanning⟩ := transitions_dst t ht
    refine take_inv ht hsrc hpop (fun hdst => hok.1 ?_) fun hdst => hok.2 ?_
    · obtain ⟨htrigger, hfrom⟩ := hconnecting hdst
      have hstate : s.currentState = .idle ∨ s.currentState = .scanning := by
        rw [show s.currentState = t.src from hsrc]
        exact hfrom
      simpa [connects, hqueue, hev, htrigger] using hstate
    · obtain ⟨htrigger, hfrom⟩ := hscanning hdst
      have hstate : s.currentState = .idle := hfrom ▸ hsrc
      simp [clearsTarget, hqueue, hev, htrigger, hstate]

omit [DecidableEq Device] in
theorem resumeTask_inv {i : ℕ} {task : Task} {completion : Completion} (h : s.Inv)
    (hok : s.Guarded (.resume i completion)) (htask : s.tasks[i]? = some task)
    (hresume : resume { s with tasks := s.tasks.eraseIdx i } task completion = some s') :
    s'.Inv := by
  have hkeeps : Keeps s { s with tasks := s.tasks.eraseIdx i } :=
    { Keeps.refl s with tasks := fun _ ht _ => List.mem_of_mem_eraseIdx ht }
  refine resume_inv (hkeeps.inv h) (fun hneeds => h.target ?_)
    (fun rest hreset hdone hnone => ?_) hresume
  · exact needsTarget_of_task (List.mem_of_getElem? htask) hneeds
  · have hnone' : ∀ source ∈ rest, s.subscription source = none := fun source hs => by
      rw [← hnone source hs]
      cases source <;> rfl
    have hclear : s.needsTarget = false :=
      hok.2 (by simpa [clearsTarget, htask, hreset, hdone] using hnone')
    by_contra hne
    exact absurd (hkeeps.needsTarget (eq_true_of_ne_false hne)) (by simp [hclear])

theorem step_inv {e : AppEvent Device} (h : s.Inv) (hok : s.Guarded e)
    (hstep : s.step e = some s') : s'.Inv := by
  cases e with
  | user ev =>
    simp only [step] at hstep
    split_ifs at hstep
    cases hstep
    exact (add_keeps s ev).inv h
  | handle =>
    cases hqueue : s.eventHandler with
    | nil => simp [step, hqueue] at hstep
    | cons ev rest =>
      simp only [step, hqueue, Option.some.injEq] at hstep
      subst hstep
      exact handle_inv h hok hqueue
  | resume i completion =>
    cases htask : s.tasks[i]? with
    | none => simp [step, htask] at hstep
    | some task =>
      simp only [step, htask] at hstep
      exact resumeTask_inv h hok htask hstep
  | scanResults sub results =>
    simp only [step] at hstep
    split_ifs at hstep with hsub
    cases hstep
    exact scanResults_inv h fun hnone => (h.scan hnone).2 sub hsub.1 hsub.2
  | deviceState sub state =>
    simp only [step] at hstep
    split_ifs at hstep with hsub
    cases hstep
    exact deviceState_inv h (h.target (needsTarget_of_listening hsub.1 hsub.2))

/-- As long as its steps are guarded, a run never lacks the target. -/
theorem hasTarget_of_guarded (h : (bleStatemachine Device).RunOf Guarded evs s) :
    (bleStatemachine Device).Always HasTarget evs :=
  h.always Inv .start (fun _ => Inv.hasTarget) fun _ _ _ => step_inv

def foundRun : List (AppEvent ℕ) :=
  [.resume 0 (.isOn true), .handle, .user .scan, .handle, .resume 0 .done,
    .scanResults ⟨.scan, 0⟩ [⟨7, targetName⟩], .handle]

def connectedRun : List (AppEvent ℕ) :=
  foundRun ++ [.user .connect, .handle, .deviceState ⟨.state, 1⟩ .connected, .handle, .handle,
    .resume 0 (.services [⟨heatyServiceUuid, [heatMapTxUuid]⟩]), .resume 0 .done, .resume 0 .done,
    .handle]

def disconnectedRun : List (AppEvent ℕ) :=
  connectedRun ++ [.user .disconnect, .handle, .resume 0 .done, .resume 0 .done, .resume 0 .done]

theorem hasTarget_of_guarded_disconnected :
    ∃ s, (bleStatemachine ℕ).Run disconnectedRun s ∧ s.currentState = .idle ∧ s.tasks = [] ∧
      s.targetDevice = none ∧ (bleStatemachine ℕ).Always HasTarget disconnectedRun := by
  obtain ⟨s, hrun, hstate⟩ : ∃ s, (bleStatemachine ℕ).RunOf Guarded disconnectedRun s ∧
      s.currentState = .idle ∧ s.tasks = [] ∧ s.targetDevice = none :=
    ⟨_, Lts.runOf_of_exec rfl, rfl, rfl, rfl⟩
  exact ⟨s, hrun.run, hstate.1, hstate.2.1, hstate.2.2, hasTarget_of_guarded hrun⟩

def blindRun : List (AppEvent ℕ) :=
  [.resume 0 (.isOn true), .handle, .user .connect, .handle]

/-- The user connects, disconnects, and connects again before `resetAll` has come further
than its first await. -/
def hastyRun : List (AppEvent ℕ) :=
  foundRun ++ [.user .connect, .handle, .user .disconnect, .handle, .user .connect, .handle]

/-- Connecting has been entered, then `resetAll` clears the target. -/
def lateResetRun : List (AppEvent ℕ) :=
  hastyRun ++ [.resume 1 .done, .resume 0 .done, .resume 0 .done]

/-- `resetAll` clears the target, then the entry of Connecting goes on. -/
def lateEntryRun : List (AppEvent ℕ) :=
  hastyRun ++ [.resume 0 .done, .resume 1 .done, .resume 0 .done]

def rescanRun : List (AppEvent ℕ) :=
  foundRun ++ [.user .connect, .handle, .deviceState ⟨.state, 1⟩ .disconnected, .handle,
    .user .scan, .handle, .deviceState ⟨.state, 1⟩ .connected, .resume 0 .done, .resume 0 .done,
    .resume 0 .done, .resume 0 .done]

/-- With no body left suspended, Connecting has no target, or a `targetDevice!` has
thrown. -/
theorem target_missing :
    (∃ s, (bleStatemachine ℕ).Run blindRun s ∧ s.tasks = [] ∧ ¬ s.HasTarget) ∧
    (∃ s, (bleStatemachine ℕ).Run lateResetRun s ∧ s.tasks = [] ∧ ¬ s.HasTarget) ∧
    (∃ s, (bleStatemachine ℕ).Run lateEntryRun s ∧ s.tasks = [] ∧ ¬ s.HasTarget) ∧
    ∃ s, (bleStatemachine ℕ).Run rescanRun s ∧ s.tasks = [] ∧ ¬ s.HasTarget := by
  refine ⟨⟨_, Lts.run_of_exec rfl, rfl, ?_⟩, ⟨_, Lts.run_of_exec rfl, rfl, ?_⟩,
    ⟨_, Lts.run_of_exec rfl, rfl, ?_⟩, ⟨_, Lts.run_of_exec rfl, rfl, ?_⟩⟩
  · exact fun h => absurd (h.target rfl) (by decide)
  · exact fun h => absurd (h.target rfl) (by decide)
  · exact fun h => absurd h.checks (by decide)
  · exact fun h => absurd h.checks (by decide)

end BleStatemachine

end Heaty.Ble
