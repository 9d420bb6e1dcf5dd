import Heaty.Spec.Advertising

/-! When the state tells whether the controller advertises: the handlers that switch it
on and those that find or leave it off must not overlap between what they do at the
controller and their `state_set`. -/

namespace Heaty.Bt

variable {Conn : Type} {cfg : Config} {s s' : AdvSys Conn} {evs : List (AdvEvent Conn)}

structure AdvSys.Quiet (s : AdvSys Conn) : Prop where
  work : s.work = .idle
  ready : s.ready = .idle
  completed : s.completed = []
  leaving : s.leaving = none
  stop : s.stop = .idle

/-- Whenever no handler is in progress, the state tells whether the controller
advertises. -/
def AdvSys.Agrees (s : AdvSys Conn) : Prop :=
  s.Quiet → (s.bt.state.isAdvertising = true ↔ s.advertising = true)

/-- `advertise` is between `bt_le_adv_start` and its `state_set`. -/
def AdvSys.turnsOn (s : AdvSys Conn) : Bool :=
  match s.work with
  | .started | .setting _ => true
  | _ => false

@[simp] def StopPc.isSetting : StopPc → Bool
  | .setting _ => true
  | _ => false

@[simp] def StopPc.isStopping : StopPc → Bool
  | .stopping _ => true
  | _ => false

/-- `bt_ready`, `connected` or a toggle has yet to set a state that is not advertising. -/
def AdvSys.turnsOff (s : AdvSys Conn) : Bool :=
  s.ready = .setting || !s.completed.isEmpty || s.stop.isSetting

def AdvSys.leavesLast (s : AdvSys Conn) : Bool :=
  s.leaving.isSome && s.bt.connCnt = 0

/-- What the steps that touch the controller or set a state without touching it find:
nothing to undo, and no handler about to set the opposite. -/
def Undisturbed (s : AdvSys Conn) : AdvEvent Conn → Prop
  | .work err => s.work = .starting → (err = 0 ∨ s.advertising = true) ∧ s.turnsOff = false
  | .btReady err nusErr => err = 0 → nusErr = 0 → s.advertising = false
  | .connected _ err => if err = 0 then s.turnsOn = false else s.advertising = false
  | .callback => s.leavesLast = true → s.advertising = true → s.turnsOn = true
  | .stop => s.stop.isStopping = true → s.turnsOn = false
  | .ready | .disconnected _ _ | .dequeue _ => True

instance (s : AdvSys Conn) : (e : AdvEvent Conn) → Decidable (Undisturbed s e)
  | .work err => inferInstanceAs (Decidable
      (s.work = .starting → (err = 0 ∨ s.advertising = true) ∧ s.turnsOff = false))
  | .btReady err nusErr => inferInstanceAs (Decidable
      (err = 0 → nusErr = 0 → s.advertising = false))
  | .connected _ err => inferInstanceAs (Decidable
      (if err = 0 then s.turnsOn = false else s.advertising = false))
  | .callback => inferInstanceAs (Decidable
      (s.leavesLast = true → s.advertising = true → s.turnsOn = true))
  | .stop => inferInstanceAs (Decidable (s.stop.isStopping = true → s.turnsOn = false))
  | .ready | .disconnected _ _ | .dequeue _ => inferInstanceAs (Decidable True)

/-- Every handler that has yet to set the state will set what the controller does. -/
structure AdvSys.Inv (s : AdvSys Conn) : Prop where
  on : s.turnsOn = true → s.advertising = true
  off : s.turnsOff = true → s.advertising = false
  settled : s.turnsOn = false → s.turnsOff = false → s.bt.state.isAdvertising = s.advertising
  work : ∀ state, s.work = .setting state → state.isAdvertising = true
  stop : ∀ state, s.stop = .stopping state ∨ s.stop = .setting state → state.isAdvertising = false

theorem AdvSys.Inv.agrees (h : s.Inv) : s.Agrees := by
  intro hquiet
  have hon : s.turnsOn = false := by simp [turnsOn, hquiet.work]
  have hoff : s.turnsOff = false := by
    simp [turnsOff, hquiet.ready, hquiet.completed, hquiet.stop]
  rw [h.settled hon hoff]

theorem AdvSys.Inv.start (cfg : Config) : (AdvSys.start cfg : AdvSys Conn).Inv where
  on := by simp [AdvSys.start, turnsOn]
  off := by simp [AdvSys.start, turnsOff]
  settled _ _ := rfl
  work := by simp [AdvSys.start]
  stop := by simp [AdvSys.start]

/-- Nothing else about the module matters. -/
theorem AdvSys.Inv.congr (h : s.Inv) (hstate : s'.bt.state = s.bt.state)
    (hadvertising : s'.advertising = s.advertising) (hon : s'.turnsOn = s.turnsOn)
    (hoff : s'.turnsOff = s.turnsOff)
    (hwork : ∀ state, s'.work = .setting state → s.work = .setting state)
    (hstop : s'.stop = s.stop) : s'.Inv where
  on := by rw [hon, hadvertising]; exact h.on
  off := by rw [hoff, hadvertising]; exact h.off
  settled := by rw [hon, hoff, hstate, hadvertising]; exact h.settled
  work state hs := h.work state (hwork state hs)
  stop state hs := h.stop state (by rwa [hstop] at hs)

/-- A handler that sets what the controller does. -/
theorem AdvSys.Inv.settle (h : s.Inv) (hset : s'.bt.state.isAdvertising = s.advertising)
    (hadvertising : s'.advertising = s.advertising) (hon : s'.turnsOn = true → s.turnsOn = true)
    (hoff : s'.turnsOff = true → s.turnsOff = true)
    (hwork : ∀ state, s'.work = .setting state → s.work = .setting state)
    (hstop : ∀ state, s'.stop = .stopping state ∨ s'.stop = .setting state →
      s.stop = .stopping state ∨ s.stop = .setting state) : s'.Inv where
  on hs := by rw [hadvertising]; exact h.on (hon hs)
  off hs := by rw [hadvertising]; exact h.off (hoff hs)
  settled _ _ := hset.trans hadvertising.symm
  work state hs := h.work state (hwork state hs)
  stop state hs := h.stop state (hstop state hs)

theorem workStep_inv {err : ℤ} (h : s.Inv) (hok : Undisturbed s (.work err))
    (hstep : s.workStep err = some s') : s'.Inv := by
  cases hwork : s.work with
  | idle =>
    simp only [AdvSys.workStep, hwork] at hstep
    split_ifs at hstep <;> cases hstep <;> exact h.congr rfl rfl (by simp [AdvSys.turnsOn, hwork])
      rfl (by simp) rfl
  | starting =>
    obtain ⟨herr, hoff⟩ := hok hwork
    have hstarted : s'.work = .started ∧ s'.advertising = true ∧ s'.turnsOff = s.turnsOff ∧
        s'.stop = s.stop := by
      simp only [AdvSys.workStep, hwork] at hstep
      split_ifs at hstep with hfailed
      · cases hstep
        exact ⟨rfl, herr.resolve_left hfailed, rfl, rfl⟩
      · cases hstep
        exact ⟨rfl, rfl, rfl, rfl⟩
    obtain ⟨hs, hadvertising, hsame, hstop⟩ := hstarted
    have hon : s'.turnsOn = true := by simp [AdvSys.turnsOn, hs]
    refine ⟨fun _ => hadvertising, ?_, ?_, by simp [hs], by rw [hstop]; exact h.stop⟩
    · simp [hsame, hoff]
    · simp [hon]
  | started =>
    simp only [AdvSys.workStep, hwork, Option.some.injEq] at hstep
    subst hstep
    have hon : s.turnsOn = true := by simp [AdvSys.turnsOn, hwork]
    refine ⟨fun _ => h.on hon, h.off, ?_, ?_, h.stop⟩
    · simp [AdvSys.turnsOn]
    · intro state hs
      cases hs
      split_ifs <;> rfl
  | setting state =>
    simp only [AdvSys.workStep, hwork, Option.some.injEq] at hstep
    subst hstep
    have hon : s.turnsOn = true := by simp [AdvSys.turnsOn, hwork]
    exact h.settle ((h.work state hwork).trans (h.on hon).symm) rfl (fun _ => hon) id
      (by simp) fun _ => id

/-- The parts of `advertise`, run one after the other, are the whole of it. -/
theorem workStep_alone {err : ℤ} (hidle : s.work = .idle) (hwork : s.bt.advertiseWork = true)
    (hstarts : s.bt.state.startsAdvertising = true) :
    (do (← (← (← s.workStep err).workStep err).workStep err).workStep err).map AdvSys.bt =
      some (s.bt.advertise err) := by
  have hstate : s.bt.state = .init ∨ s.bt.state = .disconnected ∨ s.bt.state = .connected := by
    cases hs : s.bt.state <;> simp_all [StateType.startsAdvertising]
  by_cases herr : err = 0 <;> by_cases hcnt : s.bt.connCnt > 0 <;>
    simp [AdvSys.workStep, hidle, hwork, hstarts, hstate, herr, hcnt, AdvSys.setState,
      Module.advertise, Module.submit]

theorem btReady_inv {err nusErr : ℤ} (h : s.Inv) (hok : Undisturbed s (.btReady err nusErr)) :
    (s.btReady cfg err nusErr).Inv := by
  unfold AdvSys.btReady
  split_ifs with herr hnus
  · exact h
  · exact h.congr rfl rfl rfl rfl (fun _ => id) rfl
  · have hadvertising := hok (not_not.1 herr) (not_not.1 hnus)
    refine ⟨h.on, fun _ => hadvertising, ?_, h.work, h.stop⟩
    simp [AdvSys.turnsOff]

theorem ready_inv (h : s.Inv) (hready : s.ready = .setting) :
    AdvSys.Inv { s.setState .disconnected with ready := .idle } := by
  have hoff : s.turnsOff = true := by simp [AdvSys.turnsOff, hready]
  exact h.settle (h.off hoff).symm rfl id (fun _ => hoff) (fun _ => id) fun _ => id

theorem onMessage_inv (msg : Msg) (h : s.Inv) (hidle : s.stop = .idle) :
    (s.onMessage msg).Inv := by
  have hsubmit : s.submitWork.Inv := h.congr rfl rfl rfl rfl (fun _ => id) rfl
  have hstop (state : StateType) (hstate : state.isAdvertising = false) :
      AdvSys.Inv { s with stop := .stopping state } := by
    have hsame : AdvSys.turnsOff { s with stop := .stopping state } = s.turnsOff := by
      simp [AdvSys.turnsOff, hidle]
    refine ⟨h.on, hsame ▸ h.off, hsame ▸ h.settled, h.work, ?_⟩
    rintro _ (hs | hs) <;> cases hs
    exact hstate
  cases msg with
  | startAdvertising =>
    cases hstate : s.bt.state <;> simp only [AdvSys.onMessage, hstate] <;> assumption
  | toggleAdvertising =>
    cases hstate : s.bt.state <;> simp only [AdvSys.onMessage, hstate]
    case init => exact h
    case advertising => exact hstop _ rfl
    case connectedAdvertising => exact hstop _ rfl
    all_goals exact hsubmit
  | mainReady | data | other =>
    cases hstate : s.bt.state <;> simp only [AdvSys.onMessage, hstate] <;> exact h

theorem stopStep_inv (h : s.Inv) (hok : Undisturbed s .stop) (hstep : s.stopStep = some s') :
    s'.Inv := by
  cases hstop : s.stop with
  | idle => simp [AdvSys.stopStep, hstop] at hstep
  | stopping state =>
    simp only [AdvSys.stopStep, hstop, Option.some.injEq] at hstep
    subst hstep
    have hon : s.turnsOn = false := hok (by simp [hstop])
    refine ⟨fun hs => absurd (hon.symm.trans hs) (by simp), fun _ => rfl, ?_, h.work, ?_⟩
    · simp [AdvSys.turnsOff]
    · rintro _ (hs | hs) <;> cases hs
      exact h.stop state (.inl hstop)
  | setting state =>
    simp only [AdvSys.stopStep, hstop, Option.some.injEq] at hstep
    subst hstep
    have hoff : s.turnsOff = true := by simp [AdvSys.turnsOff, hstop]
    exact h.settle ((h.stop state (.inr hstop)).trans (h.off hoff).symm) rfl id (fun _ => hoff)
      (fun _ => id) (by simp)

theorem connected_state (m : Module Conn) (conn : Conn) (err : UInt8) :
    (m.connected conn err).state = .connected := by
  unfold Module.connected
  split_ifs <;> rfl

variable [DecidableEq Conn]

theorem leave_state (m : Module Conn) (conn : Conn) :
    (m.leave conn).state = if m.connCnt = 0 then .disconnected else m.state := by
  unfold Module.leave
  split_ifs <;> rfl

theorem callbackStep_inv (h : s.Inv) (hok : Undisturbed s .callback)
    (hstep : s.callbackStep = some s') : s'.Inv := by
  cases hleaving : s.leaving with
  | some conn =>
    simp only [AdvSys.callbackStep, hleaving, Option.some.injEq] at hstep
    subst hstep
    by_cases hcnt : s.bt.connCnt = 0
    · -- the state is set without a look at the controller
      have hlast : s.leavesLast = true := by simp [AdvSys.leavesLast, hleaving, hcnt]
      refine ⟨h.on, h.off, fun hon _ => ?_, h.work, h.stop⟩
      have hadvertising : s.advertising = false := by
        by_contra hne
        exact absurd (hon.symm.trans (hok hlast (by simpa using hne))) (by simp)
      simp [leave_state, hcnt, hadvertising, StateType.isAdvertising]
    · exact h.congr (by simp [leave_state, hcnt]) rfl rfl rfl (fun _ => id) rfl
  | none =>
    cases hcompleted : s.completed with
    | nil => simp [AdvSys.callbackStep, hleaving, hcompleted] at hstep
    | cons attempt rest =>
      simp only [AdvSys.callbackStep, hleaving, hcompleted, Option.some.injEq] at hstep
      subst hstep
      have hoff : s.turnsOff = true := by simp [AdvSys.turnsOff, hcompleted]
      refine h.settle ?_ rfl id (fun _ => hoff) (fun _ => id) fun _ => id
      rw [connected_state, h.off hoff]
      rfl

theorem disconnected_eq (m : Module Conn) (conn : Conn) :
    m.disconnected conn = Module.leave { m with connCnt := m.connCnt - 1 } conn := rfl

theorem step_inv {e : AdvEvent Conn} (h : s.Inv) (hok : Undisturbed s e)
    (hstep : s.step cfg e = some s') : s'.Inv := by
  cases e with
  | work err => exact workStep_inv h hok hstep
  | btReady err nusErr =>
    cases hready : s.ready with
    | idle =>
      simp only [AdvSys.step, hready, Option.some.injEq] at hstep
      subst hstep
      exact btReady_inv h hok
    | setting => simp [AdvSys.step, hready] at hstep
  | ready =>
    cases hready : s.ready with
    | idle => simp [AdvSys.step, hready] at hstep
    | setting =>
      simp only [AdvSys.step, hready, Option.some.injEq] at hstep
      subst hstep
      exact ready_inv h hready
  | connected conn err =>
    simp only [AdvSys.step] at hstep
    split_ifs at hstep with _ herr <;> cases hstep
    · have hon : s.turnsOn = false := by simpa [Undisturbed, herr] using hok
      refine ⟨fun hs => absurd (hon.symm.trans hs) (by simp), fun _ => rfl, ?_, h.work, h.stop⟩
      simp [AdvSys.turnsOff]
    · have hadvertising : s.advertising = false := by simpa [Undisturbed, herr] using hok
      refine ⟨h.on, fun _ => hadvertising, ?_, h.work, h.stop⟩
      simp [AdvSys.turnsOff]
  | callback => exact callbackStep_inv h hok hstep
  | disconnected conn reason =>
    simp only [AdvSys.step] at hstep
    split_ifs at hstep
    cases hstep
    exact h.congr rfl rfl rfl rfl (fun _ => id) rfl
  | dequeue msg =>
    cases hstop : s.stop with
    | idle =>
      simp only [AdvSys.step, hstop, Option.some.injEq] at hstep
      subst hstep
      exact onMessage_inv msg h hstop
    | stopping state | setting state => simp [AdvSys.step, hstop] at hstep
  | stop => exact stopStep_inv h hok hstep

/-- In every run in which no handler disturbs another one, starts succeed, and the state
is not cleared under an advertising controller, it tells what the controller does. -/
theorem advertising_agrees (h : (advSys Conn cfg).RunOf Undisturbed evs s) :
    (advSys Conn cfg).Always AdvSys.Agrees evs :=
  h.always AdvSys.Inv (.start cfg) (fun _ => AdvSys.Inv.agrees) fun _ _ _ => step_inv

def startRun : List (AdvEvent ℕ) := [.btReady 0 0, .ready, .work 0, .work 0, .work 0, .work 0]

theorem advertising_agrees_start : ∃ s, s.bt.state = .connected ∧
    (advSys ℕ ⟨2, true⟩).Run (startRun ++ [.connected 0 0, .callback]) s ∧
    (advSys ℕ ⟨2, true⟩).Always AdvSys.Agrees (startRun ++ [.connected 0 0, .callback]) := by
  obtain ⟨s, hrun, hstate⟩ : ∃ s, (advSys ℕ ⟨2, true⟩).RunOf Undisturbed
      (startRun ++ [.connected 0 0, .callback]) s ∧ s.bt.state = .connected :=
    ⟨_, Lts.runOf_of_exec rfl, rfl⟩
  exact ⟨s, hstate, hrun.run, advertising_agrees hrun⟩

def failedStart : List (AdvEvent ℕ) :=
  [.btReady 0 0, .ready, .work 0, .work (-12), .work 0, .work 0]

def failedConnect : List (AdvEvent ℕ) := startRun ++ [.connected 0 62, .callback]

def lateReady : List (AdvEvent ℕ) := [.btReady 0 0, .work 0, .work 0, .work 0, .work 0, .ready]

def crossedConnect : List (AdvEvent ℕ) :=
  [.btReady 0 0, .ready, .work 0, .work 0, .connected 0 0, .callback, .work 0, .work 0]

theorem advertising_disagrees :
    (∃ s, (advSys ℕ ⟨2, true⟩).Run failedStart s ∧ ¬ s.Agrees) ∧
    (∃ s, (advSys ℕ ⟨2, true⟩).Run failedConnect s ∧ ¬ s.Agrees) ∧
    (∃ s, (advSys ℕ ⟨2, true⟩).Run lateReady s ∧ ¬ s.Agrees) ∧
    ∃ s, (advSys ℕ ⟨2, true⟩).Run crossedConnect s ∧ ¬ s.Agrees := by
  have hdisagrees {evs : List (AdvEvent ℕ)} {s : AdvSys ℕ}
      (h : (advSys ℕ ⟨2, true⟩).exec evs = some s) (hquiet : s.Quiet)
      (hne : s.bt.state.isAdvertising ≠ s.advertising) :
      ∃ s, (advSys ℕ ⟨2, true⟩).Run evs s ∧ ¬ s.Agrees :=
    ⟨s, Lts.run_of_exec h, fun hagrees => hne (Bool.eq_iff_iff.2 (hagrees hquiet))⟩
  refine ⟨?_, ?_, ?_, ?_⟩
  all_goals exact hdisagrees rfl ⟨rfl, rfl, rfl, rfl, rfl⟩ (by decide)

end Heaty.Bt
