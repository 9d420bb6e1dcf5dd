import Heaty.Proofs.MqttState

/-! When the MQTT module frees every string it is handed once, and nothing else. -/

namespace Heaty.Mqtt

open Common (putReturns moduleEnqueueMsg)
open Ledger (Op Holds)

variable {m m' : Module} {evs : List Event} {msg : Msg} {b : ℕ}

/-- The strings that were handed over and not freed are those of the queued events,
and no string was used or freed without being one of these. -/
def Module.Owned (m : Module) : Prop := Holds m.memory m.strings

/-- A message without a string whose bytes this state's handler takes for one. -/
def Msg.strays (state : StateType) : Msg → Bool
  | .moduleState _ => false
  | .mqtt ⟨type, message⟩ =>
      message ≠ 0 ∧ type ≠ .send ∧ (state = .error ∨ type = .subscribe ∧ state ≠ .connected)

/-- `k_msgq_put` fails when no string is lost with the queue, and no message is
dequeued whose bytes are taken for a string. -/
def Tidy (m : Module) : Event → Prop
  | .deliver msg putErr => putErr ≠ 0 → msg.string = none ∧ m.strings = []
  | .process _ putErr => putErr ≠ 0 → m.strings = []
  | .dequeue _ => ∀ msg ∈ m.queue.head?, msg.strays m.state = false
  | _ => True

instance (m : Module) : (e : Event) → Decidable (Tidy m e)
  | .deliver msg putErr =>
      inferInstanceAs (Decidable (putErr ≠ 0 → msg.string = none ∧ m.strings = []))
  | .process _ putErr => inferInstanceAs (Decidable (putErr ≠ 0 → m.strings = []))
  | .dequeue _ => inferInstanceAs (Decidable (∀ msg ∈ m.queue.head?, msg.strays m.state = false))
  | .connect _ _ | .connack _ | .disconnect _ | .received _ | .poll _ => .isTrue trivial

theorem freeMessage_memory (m : Module) (w : ℕ) :
    (m.freeMessage w).memory = m.memory ++ if w ≠ 0 then [Op.free w] else [] := by
  unfold Module.freeMessage
  split_ifs
  · rfl
  · exact (List.append_nil _).symm

theorem freeMessage_queue (m : Module) (w : ℕ) : (m.freeMessage w).queue = m.queue := by
  unfold Module.freeMessage
  split_ifs <;> rfl

theorem handle_queue (m : Module) (initErr : ℤ) (msg : Msg) :
    (m.handle initErr msg).queue = m.queue := by
  rcases msg with mainReady | ⟨type, w⟩
  · cases mainReady <;> cases hstate : m.state <;>
      simp only [Module.handle, hstate, Module.onStateInit, Module.onStateConnected,
        Module.onStateDisconnected, Module.onStateError, freeMessage_queue]
    split_ifs <;> rfl
  · cases type <;> cases hstate : m.state <;>
      simp only [Module.handle, hstate, Module.onStateInit, Module.onStateConnected,
        Module.onStateDisconnected, Module.onStateError, freeMessage_queue, Module.submit]
    split_ifs <;> rfl

theorem handle_string (m : Module) (initErr : ℤ) (h : msg.string = some b) :
    (m.handle initErr msg).memory = m.memory ++ [.free b] ∨
      (m.handle initErr msg).memory = m.memory ++ [.use b] ++ [.free b] := by
  rcases msg with mainReady | ⟨type, w⟩
  · cases h
  · cases type <;> simp only [Msg.string, reduceCtorEq] at h
    split_ifs at h with hw
    cases h
    cases hstate : m.state <;>
      simp [Module.handle, hstate, Module.onStateInit, Module.onStateConnected,
        Module.onStateDisconnected, Module.onStateError, freeMessage_memory, Module.submit, hw,
        Msg.message, Module.free]

theorem handle_strays (m : Module) (initErr : ℤ) (h : msg.string = none) :
    (m.handle initErr msg).memory =
      m.memory ++ if msg.strays m.state then [.free msg.message] else [] := by
  rcases msg with mainReady | ⟨type, w⟩
  · cases mainReady <;> cases hstate : m.state <;>
      simp [Module.handle, hstate, Module.onStateInit, Module.onStateConnected,
        Module.onStateDisconnected, Module.onStateError, freeMessage_memory, Msg.strays,
        Msg.message]
    split_ifs <;> rfl
  · by_cases hw : w = 0
    · cases type <;> cases hstate : m.state <;>
        simp [Module.handle, hstate, Module.onStateInit, Module.onStateConnected,
          Module.onStateDisconnected, Module.onStateError, freeMessage_memory, Module.submit,
          Msg.strays, Msg.message, hw]
    · cases type <;> cases hstate : m.state <;>
        simp [Module.handle, hstate, Module.onStateInit, Module.onStateConnected,
          Module.onStateDisconnected, Module.onStateError, freeMessage_memory, Module.submit,
          Msg.strays, Msg.message, hw, Msg.string] at h ⊢

theorem string_of_ne_send {type : EventType} {w : ℕ} (h : type ≠ .send) :
    (Msg.mqtt ⟨type, w⟩).string = none := by
  cases type <;> first | rfl | contradiction

theorem take_owned (h : m.Owned) (hfresh : ∀ b ∈ msg.string, b ∉ m.strings) :
    Holds (m.memory ++ msg.string.toList.map .take) (m.strings ++ msg.string.toList) := by
  cases hstring : msg.string with
  | none => simpa [Module.Owned] using h
  | some b =>
    have htake := h.take (hfresh b hstring)
    exact htake.perm (List.perm_append_singleton b m.strings).symm

/-- Delivering a message keeps what is owned just when no string is lost. -/
theorem eventHandler_owned (h : m.Owned) (hfresh : ∀ b ∈ msg.string, b ∉ m.strings) (err : ℤ) :
    (m.eventHandler msg err).Owned ↔ (err ≠ 0 → msg.string = none ∧ m.strings = []) := by
  have htaken := take_owned h hfresh
  by_cases herr : err = 0
  · refine iff_of_true ?_ (absurd herr)
    have hstrings : (m.eventHandler msg err).strings = m.strings ++ msg.string.toList := by
      cases hstring : msg.string <;>
        simp [Module.strings, Module.eventHandler, herr, moduleEnqueueMsg, hstring]
    rw [Module.Owned, hstrings]
    simpa [Module.eventHandler, herr] using htaken
  · have howned : (m.eventHandler msg err).Owned ↔
        Holds (m.memory ++ msg.string.toList.map .take) [] := by
      simp [Module.Owned, Module.strings, Module.eventHandler, herr, moduleEnqueueMsg,
        Module.submit]
    rw [howned]
    constructor
    · intro hlost _
      have hnil := (htaken.unique hlost).eq_nil
      simpa [and_comm] using hnil
    · intro hnone
      obtain ⟨hstring, hstrings⟩ := hnone herr
      simpa [hstring, hstrings] using htaken

/-- A turn of the thread keeps what is owned just when it takes no bytes for a string. -/
theorem handle_owned {rest : List Msg} (h : m.Owned) (hqueue : m.queue = msg :: rest)
    (initErr : ℤ) :
    ({ m with queue := rest }.handle initErr msg).Owned ↔ msg.strays m.state = false := by
  have hstrings : ({ m with queue := rest }.handle initErr msg).strings =
      rest.filterMap Msg.string := by
    rw [Module.strings, handle_queue]
  rw [Module.Owned, hstrings]
  cases hstring : msg.string with
  | some b =>
    have hno : msg.strays m.state = false := by
      rcases msg with mainReady | ⟨type, w⟩
      · cases hstring
      · cases type <;> simp [Msg.string, Msg.strays] at hstring ⊢
    refine iff_of_true ?_ hno
    have hheld : Holds m.memory (b :: rest.filterMap Msg.string) := by
      simpa [Module.Owned, Module.strings, hqueue, hstring] using h
    rcases handle_string { m with queue := rest } initErr hstring with hmem | hmem <;> rw [hmem]
    · exact hheld.free
    · exact (hheld.use (by simp)).free
  | none =>
    have hheld : Holds m.memory (rest.filterMap Msg.string) := by
      simpa [Module.Owned, Module.strings, hqueue, hstring] using h
    rw [handle_strays _ _ hstring]
    cases hstrays : msg.strays m.state with
    | false => simpa using hheld
    | true =>
      refine iff_of_false (fun hfreed => ?_) (by simp)
      have hmore : Holds m.memory (msg.message :: rest.filterMap Msg.string) := hfreed.of_free
      simpa using (hheld.unique hmore).length_eq

theorem step_owned {e : Event} (h : m.Owned) (hstep : m.step e = some m') :
    m'.Owned ↔ Tidy m e := by
  cases e with
  | deliver msg putErr =>
    simp only [Module.step] at hstep
    split_ifs at hstep with hguard
    cases hstep
    exact eventHandler_owned h hguard.2 putErr
  | process message putErr =>
    obtain ⟨type, rest, -, htype, rfl⟩ := step_process hstep
    have hnone : (Msg.mqtt ⟨type, message⟩).string = none := string_of_ne_send htype
    have howned : Module.Owned { m with submitted := rest } := h
    have hdelivered := eventHandler_owned howned
      (show ∀ b ∈ (Msg.mqtt ⟨type, message⟩).string, b ∉ _ by simp [hnone]) putErr
    simp only [hnone, true_and] at hdelivered
    exact hdelivered
  | dequeue initErr =>
    obtain ⟨msg, rest, hthread, hqueue, rfl⟩ := step_dequeue hstep
    simpa [Tidy, hqueue, hthread] using handle_owned h hqueue initErr
  | connect connectErr fdsErr =>
    obtain rfl := step_connect hstep
    refine iff_of_true ?_ trivial
    unfold Module.connect
    split_ifs <;> exact h
  | connack result =>
    simp only [Module.step] at hstep
    split_ifs at hstep
    cases hstep
    exact iff_of_true h trivial
  | disconnect result =>
    simp only [Module.step] at hstep
    split_ifs at hstep
    cases hstep
    exact iff_of_true h trivial
  | received result =>
    simp only [Module.step] at hstep
    split_ifs at hstep
    cases hstep
    refine iff_of_true ?_ trivial
    unfold Module.receivedCb
    split_ifs <;> exact h
  | poll turn =>
    simp only [Module.step] at hstep
    split_ifs at hstep <;> cases hstep <;> exact iff_of_true h trivial

/-- The module frees every string once, after it was last used, and nothing else,
all through a run exactly when the run is tidy. -/
theorem strings_owned_iff (h : mqttModule.Run evs m) :
    mqttModule.Always Module.Owned evs ↔ mqttModule.RunOf Tidy evs m :=
  Lts.RunOf.always_iff Holds.nil (fun _ hs => hs)
    (fun _ _ _ hs hok hstep => (step_owned hs hstep).2 hok)
    (fun _ _ _ hs hstep hs' => (step_owned hs hstep).1 hs') h

/-- Once nothing is queued, every string was freed as often as it was handed over. -/
theorem Module.Owned.freed (h : m.Owned) (hqueue : m.queue = []) (b : ℕ) :
    m.memory.count (.free b) = m.memory.count (.take b) := by
  have hcount := h.count b
  simp only [Module.strings, hqueue, List.filterMap_nil, List.count_nil, add_zero] at hcount
  exact hcount.symm

def sendRun : List Event :=
  [.deliver (.moduleState true) 0, .dequeue 0, .connect 0 0, .connack 0,
    .deliver (.mqtt ⟨.send, 17⟩) 0, .dequeue 0, .disconnect 0,
    .deliver (.mqtt ⟨.send, 18⟩) 0, .dequeue 0]

theorem strings_owned_send : ∃ m, mqttModule.Run sendRun m ∧
    m.memory = [.take 17, .use 17, .free 17, .take 18, .free 18] ∧
    mqttModule.Always Module.Owned sendRun := by
  obtain ⟨m, htidy, hmemory⟩ : ∃ m, mqttModule.RunOf Tidy sendRun m ∧
      m.memory = [.take 17, .use 17, .free 17, .take 18, .free 18] :=
    ⟨_, Lts.runOf_of_exec rfl, rfl⟩
  exact ⟨m, htidy.run, hmemory, (strings_owned_iff htidy.run).2 htidy⟩

/-- A string refused in `STATE_INIT` makes the module send itself an error. When that
comes back after `mqtt_client_module_init` has failed, its unassigned bytes are freed. -/
def strayRun : List Event :=
  [.deliver (.mqtt ⟨.send, 17⟩) 0, .dequeue 0, .deliver (.moduleState true) 0, .dequeue (-10),
    .process 99 0, .dequeue 0]

def subscribeRun : List Event :=
  [.deliver (.mqtt ⟨.subscribe, 99⟩) 0, .dequeue 0]

def purgeRun : List Event :=
  [.deliver (.mqtt ⟨.send, 17⟩) 0, .deliver (.mqtt ⟨.connect, 0⟩) (-35)]

theorem strings_not_owned :
    (∃ m, mqttModule.Run strayRun m ∧ m.memory = [.take 17, .free 17, .free 99] ∧ ¬ m.Owned) ∧
    (∃ m, mqttModule.Run subscribeRun m ∧ m.memory = [.free 99] ∧ ¬ m.Owned) ∧
    ∃ m, mqttModule.Run purgeRun m ∧ m.memory = [.take 17] ∧ m.queue = [] ∧ ¬ m.Owned := by
  have hstray : ∃ m, mqttModule.Run strayRun m ∧ m.memory = [.take 17, .free 17, .free 99] :=
    ⟨_, Lts.run_of_exec rfl, rfl⟩
  have hsubscribe : ∃ m, mqttModule.Run subscribeRun m ∧ m.memory = [.free 99] :=
    ⟨_, Lts.run_of_exec rfl, rfl⟩
  have hpurge : ∃ m, mqttModule.Run purgeRun m ∧ m.memory = [.take 17] ∧ m.queue = [] :=
    ⟨_, Lts.run_of_exec rfl, rfl, rfl⟩
  refine ⟨hstray.imp fun m h => ⟨h.1, h.2, ?_⟩, hsubscribe.imp fun m h => ⟨h.1, h.2, ?_⟩,
    hpurge.imp fun m h => ⟨h.1, h.2.1, h.2.2, ?_⟩⟩
  · rintro ⟨held, hexec, -⟩
    rw [h.2] at hexec
    exact absurd hexec (by simp [Ledger.exec, Ledger.apply])
  · rintro ⟨held, hexec, -⟩
    rw [h.2] at hexec
    exact absurd hexec (by simp [Ledger.exec, Ledger.apply])
  · intro howned
    have hcount := howned.freed h.2.2 17
    rw [h.2.1] at hcount
    exact absurd hcount (by decide)

end Heaty.Mqtt
