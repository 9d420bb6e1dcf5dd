import Heaty.Spec.Mqtt

/-! When the state of the MQTT module tells what the connection is like. -/

namespace Heaty.Mqtt

variable {m m' : Module} {evs : List Event}

/-- A connected module has been accepted by the broker since the last disconnect and
has one `mqtt_poll` thread, and no module has two of them. -/
structure Module.Agrees (m : Module) : Prop where
  connected : m.state = .connected →
    m.lastConnack = some 0 ∧ m.disconnectSince = false ∧ m.polls = 1
  polls : m.polls ≤ 1

/-- A broker that is met accepts; a turn leaves the loop of `mqtt_poll` when the module
is not connected; a connect succeeds when no `mqtt_poll` thread runs. -/
def Orderly (m : Module) : Event → Prop
  | .connack result => result = 0
  | .poll turn => turn.leaves = true → m.state ≠ .connected
  | .connect connectErr fdsErr => connectErr = 0 ∧ fdsErr = 0 → m.polls = 0
  | _ => True

instance (m : Module) : (e : Event) → Decidable (Orderly m e)
  | .connack result => inferInstanceAs (Decidable (result = 0))
  | .poll turn => inferInstanceAs (Decidable (turn.leaves = true → m.state ≠ .connected))
  | .connect connectErr fdsErr =>
      inferInstanceAs (Decidable (connectErr = 0 ∧ fdsErr = 0 → m.polls = 0))
  | .deliver _ _ | .process _ _ | .dequeue _ | .disconnect _ | .received _ => .isTrue trivial

theorem submit_agrees (h : m.Agrees) (type : EventType) : (m.submit type).Agrees :=
  ⟨h.connected, h.polls⟩

theorem freeMessage_agrees (h : m.Agrees) (message : ℕ) : (m.freeMessage message).Agrees := by
  unfold Module.freeMessage
  split_ifs
  · exact ⟨h.connected, h.polls⟩
  · exact h

theorem eventHandler_agrees (h : m.Agrees) (msg : Msg) (err : ℤ) :
    (m.eventHandler msg err).Agrees := by
  unfold Module.eventHandler
  split_ifs <;> exact ⟨h.connected, h.polls⟩

theorem onStateInit_agrees (h : m.Agrees) (initErr : ℤ) (msg : Msg) :
    (m.onStateInit initErr msg).Agrees := by
  unfold Module.onStateInit
  split
  · split_ifs <;> exact ⟨by simp, h.polls⟩
  · exact freeMessage_agrees (submit_agrees h _) _
  · exact freeMessage_agrees (submit_agrees h _) _
  · exact h

theorem onStateConnected_agrees (h : m.Agrees) (msg : Msg) : (m.onStateConnected msg).Agrees := by
  unfold Module.onStateConnected
  split
  · split_ifs
    · exact h
    · exact ⟨h.connected, h.polls⟩
  · exact h

theorem onStateDisconnected_agrees (h : m.Agrees) (msg : Msg) :
    (m.onStateDisconnected msg).Agrees := by
  unfold Module.onStateDisconnected
  split
  · exact ⟨h.connected, h.polls⟩
  · exact freeMessage_agrees (submit_agrees h _) _
  · exact freeMessage_agrees (submit_agrees h _) _
  · exact h

/-- Nothing that the module thread does with a message concerns the connection. -/
theorem handle_agrees (h : m.Agrees) (initErr : ℤ) (msg : Msg) : (m.handle initErr msg).Agrees := by
  unfold Module.handle
  split
  · exact onStateInit_agrees h initErr msg
  · exact onStateConnected_agrees h msg
  · exact onStateDisconnected_agrees h msg
  · exact freeMessage_agrees h _

theorem connect_agrees {connectErr fdsErr : ℤ} (h : m.Agrees)
    (hok : Orderly m (.connect connectErr fdsErr)) : (m.connect connectErr fdsErr).Agrees := by
  unfold Module.connect
  split_ifs with herr
  · exact ⟨h.connected, h.polls⟩
  · have hnone : m.polls = 0 := hok (by simpa [not_or] using herr)
    refine ⟨fun hstate => ?_, by simp [hnone]⟩
    have hone := (h.connected hstate).2.2
    omega

theorem step_process {message : ℕ} {putErr : ℤ}
    (hstep : m.step (.process message putErr) = some m') :
    ∃ type rest, m.submitted = type :: rest ∧ type ≠ .send ∧
      m' = Module.eventHandler { m with submitted := rest } (.mqtt ⟨type, message⟩) putErr := by
  cases hsubmitted : m.submitted with
  | nil => simp [Module.step, hsubmitted] at hstep
  | cons type rest =>
    simp only [Module.step, hsubmitted] at hstep
    split_ifs at hstep with hguard
    exact ⟨type, rest, rfl, hguard.2, (Option.some.inj hstep).symm⟩

theorem step_dequeue {initErr : ℤ} (hstep : m.step (.dequeue initErr) = some m') :
    ∃ msg rest, m.thread = .idle ∧ m.queue = msg :: rest ∧
      m' = Module.handle { m with queue := rest } initErr msg := by
  simp only [Module.step] at hstep
  split at hstep
  · next msg rest hthread hqueue =>
    exact ⟨msg, rest, hthread, hqueue, (Option.some.inj hstep).symm⟩
  · cases hstep

theorem step_connect {connectErr fdsErr : ℤ}
    (hstep : m.step (.connect connectErr fdsErr) = some m') :
    m' = m.connect connectErr fdsErr := by
  simp only [Module.step] at hstep
  split at hstep
  · cases hstep
  · exact (Option.some.inj hstep).symm

theorem step_agrees {e : Event} (h : m.Agrees) (hok : Orderly m e) (hstep : m.step e = some m') :
    m'.Agrees := by
  cases e with
  | deliver msg putErr =>
    simp only [Module.step] at hstep
    split_ifs at hstep
    cases hstep
    exact eventHandler_agrees h _ _
  | process message putErr =>
    obtain ⟨type, rest, -, -, rfl⟩ := step_process hstep
    refine eventHandler_agrees ?_ _ _
    exact ⟨h.connected, h.polls⟩
  | dequeue initErr =>
    obtain ⟨msg, rest, -, -, rfl⟩ := step_dequeue hstep
    refine handle_agrees ?_ _ _
    exact ⟨h.connected, h.polls⟩
  | connect connectErr fdsErr =>
    obtain rfl := step_connect hstep
    exact connect_agrees h hok
  | connack result =>
    simp only [Module.step] at hstep
    split_ifs at hstep with hpolls
    cases hstep
    have hzero : result = 0 := hok
    have hone : m.polls = 1 := by have := h.polls; omega
    exact ⟨fun _ => ⟨congrArg some hzero, rfl, hone⟩, h.polls⟩
  | disconnect result =>
    simp only [Module.step] at hstep
    split_ifs at hstep
    cases hstep
    exact ⟨by simp [Module.disconnectedCb, Module.submit], h.polls⟩
  | received result =>
    simp only [Module.step] at hstep
    split_ifs at hstep
    cases hstep
    unfold Module.receivedCb
    split_ifs
    · exact h
    · exact submit_agrees h _
  | poll turn =>
    simp only [Module.step] at hstep
    split_ifs at hstep with hpolls hleaves
    · cases hstep
      refine ⟨fun hstate => absurd hstate (hok hleaves), ?_⟩
      have := h.polls
      simp only
      omega
    · cases hstep
      exact h

theorem orderly_of_agrees {e : Event} (h : m.Agrees) (hstep : m.step e = some m')
    (h' : m'.Agrees) : Orderly m e := by
  cases e with
  | connack result =>
    simp only [Module.step] at hstep
    split_ifs at hstep
    cases hstep
    exact Option.some.inj (h'.connected rfl).1
  | poll turn =>
    intro hleaves hstate
    simp only [Module.step, hleaves, if_true] at hstep
    split_ifs at hstep with hpolls
    cases hstep
    have hone := (h.connected hstate).2.2
    have hone' : m.polls - 1 = 1 := (h'.connected hstate).2.2
    omega
  | connect connectErr fdsErr =>
    rintro ⟨rfl, rfl⟩
    obtain rfl := step_connect hstep
    have := h'.polls
    simp only [Module.connect, ne_eq, not_true_eq_false, or_self, if_false] at this
    omega
  | deliver => trivial
  | process => trivial
  | dequeue => trivial
  | disconnect => trivial
  | received => trivial

/-- State and connection agree all through a run exactly when its steps are orderly. -/
theorem state_agrees_iff (h : mqttModule.Run evs m) :
    mqttModule.Always Module.Agrees evs ↔ mqttModule.RunOf Orderly evs m :=
  Lts.RunOf.always_iff ⟨by simp [mqttModule, Module.start], by simp [mqttModule, Module.start]⟩
    (fun _ hs => hs) (fun _ _ _ hs hok hstep => step_agrees hs hok hstep)
    (fun _ _ _ hs hstep hs' => orderly_of_agrees hs hstep hs') h

def connectRun : List Event := [.deliver (.moduleState true) 0, .dequeue 0, .connect 0 0]

theorem state_agrees_connected : ∃ m, mqttModule.Run (connectRun ++ [.connack 0]) m ∧
    m.state = .connected ∧ mqttModule.Always Module.Agrees (connectRun ++ [.connack 0]) := by
  obtain ⟨m, horderly, hstate⟩ : ∃ m, mqttModule.RunOf Orderly (connectRun ++ [.connack 0]) m ∧
      m.state = .connected := ⟨_, Lts.runOf_of_exec rfl, rfl⟩
  exact ⟨m, horderly.run, hstate, (state_agrees_iff horderly.run).2 horderly⟩

def brokenTurn : PollTurn := ⟨1, 0, false, 0, true, false⟩

/-- A broker that refuses leaves the module connected, a turn that fails leaves it
connected without a thread, and a connect before the CONNACK makes a second thread. -/
theorem state_disagrees :
    (∃ m, mqttModule.Run (connectRun ++ [.connack 5]) m ∧
      m.state = .connected ∧ m.lastConnack = some 5) ∧
    (∃ m, mqttModule.Run (connectRun ++ [.connack 0, .poll brokenTurn]) m ∧
      m.state = .connected ∧ m.polls = 0) ∧
    (∃ m, mqttModule.Run
        (connectRun ++ [.deliver (.mqtt ⟨.connect, 0⟩) 0, .dequeue 0, .connect 0 0]) m ∧
      m.polls = 2) ∧
    ¬ ∀ evs m, mqttModule.Run evs m → m.Agrees := by
  have hrefused : ∃ m, mqttModule.Run (connectRun ++ [.connack 5]) m ∧
      m.state = .connected ∧ m.lastConnack = some 5 := ⟨_, Lts.run_of_exec rfl, rfl, rfl⟩
  refine ⟨hrefused, ⟨_, Lts.run_of_exec rfl, rfl, rfl⟩, ⟨_, Lts.run_of_exec rfl, rfl⟩, fun h => ?_⟩
  obtain ⟨m, hrun, hstate, hconnack⟩ := hrefused
  have hzero := ((h _ m hrun).connected hstate).1
  rw [hconnack] at hzero
  exact absurd hzero (by decide)

end Heaty.Mqtt
