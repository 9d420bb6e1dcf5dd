import Heaty.Proofs.HandleMessage
import Heaty.Spec.Exchange

/-! Which events cross the UART. The flag `received` is all that keeps a received
event from being sent back, and the type is all that keeps it from being handled
as a frame; both work in runs in which every event meant for the line is raised
with the flag clear, no frame carries the type of a raw frame, and none makes the
thread follow NULL, after which nothing is sent any more. -/

namespace Heaty.Mcu

open Utils

variable {base64 : Base64Api} {cjson : CJsonApi}

/-! ## One module -/

/-- A raised wire event is sent once or still waits for the thread, which runs; what was
sent is all that was written to the UART, and no received event was sent or handled as a
frame. -/
structure NodeOk (base64 : Base64Api) (cjson : CJsonApi) (n : Node) : Prop where
  running : n.halted = false
  once : n.raised = n.sent.map Prod.fst ++ n.queue.filter Queued.isLocalWire
  output : n.output = n.sent.flatMap fun x => x.2 ++ [0]
  encoded : ∀ x ∈ n.sent, ∃ env,
    encodeMessage base64 cjson env x.1.event.type.number x.1.event.data = some x.2
  noEcho : ∀ x ∈ n.sent, x.1.origin ≠ .handleMessage
  noLoop : ∀ q ∈ n.handled, q.origin ≠ .handleMessage

def QueuedOk (q : Queued) : Prop :=
  match q.origin with
  | .producer _ => q.event.type.isWire = true → q.event.received = false
  | .uartRxHandler => q.event.type = .dataReady
  | .handleMessage => q.event.received = true ∧ q.event.type ≠ .dataReady

structure NodeInv (base64 : Base64Api) (cjson : CJsonApi) (n : Node) : Prop
    extends NodeOk base64 cjson n where
  queued : ∀ q ∈ n.queue, QueuedOk q

theorem NodeInv.start (bufSize : ℕ) : NodeInv base64 cjson (Node.start bufSize) := by
  refine ⟨⟨rfl, rfl, rfl, ?_, ?_, ?_⟩, ?_⟩ <;> simp [Node.start]

/-- A submitted event is recorded as raised just when it will count as pending. -/
theorem NodeInv.submit {n : Node} (h : NodeInv base64 cjson n) {q : Queued} (hq : QueuedOk q) :
    NodeInv base64 cjson (n.submit q) := by
  refine ⟨⟨h.running, ?_, h.output, h.encoded, h.noEcho, h.noLoop⟩, ?_⟩
  · simp only [Node.submit, List.filter_append, List.filter_singleton]
    cases hw : q.isLocalWire with
    | false => simpa using h.once
    | true => simp [h.once]
  · intro q' hq'
    simp only [Node.submit, List.mem_append, List.mem_singleton] at hq'
    rcases hq' with hq' | rfl
    · exact h.queued q' hq'
    · exact hq

theorem NodeInv.setRx {n : Node} (h : NodeInv base64 cjson n) (rx : Rx) :
    NodeInv base64 cjson { n with rx := rx } :=
  ⟨⟨h.running, h.once, h.output, h.encoded, h.noEcho, h.noLoop⟩, h.queued⟩

theorem NodeInv.receive {n : Node} (h : NodeInv base64 cjson n) (garbage : Bool) (c : UInt8) :
    NodeInv base64 cjson (n.receive garbage c) := by
  have htype : ∀ event, (uartRxHandler n.rx garbage c).2 = some event →
      event.type = .dataReady := by
    intro event he
    simp only [uartRxHandler] at he
    split_ifs at he
    cases he
    rfl
  simp only [Node.receive]
  split
  · exact h.setRx _
  · rename_i event he
    exact (h.setRx _).submit (htype event he)

/-- What a step of the module thread must be like: a local wire event can be encoded, and a
frame is parsed without following NULL, does not carry the type of a raw frame, and is no
heat map for which there is no block to copy it from. -/
def ThreadOk (base64 : Base64Api) (cjson : CJsonApi) (env : ThreadEnv) (n : Node) : Prop :=
  ∀ q ∈ n.queue.head?,
    (q.event.type.isWire = true → q.event.received = false →
      (encodeMessage base64 cjson env.encode q.event.type.number q.event.data).isSome = true) ∧
    (q.event.type = .dataReady →
      ∃ p ∈ parseMessage base64 cjson env.parse (cstr q.event.data),
        p.type ≠ EventType.dataReady.number ∧
        (p.type = EventType.heatMapDataReady.number → p.decodedData = none → p.len = 0))

instance (env : ThreadEnv) (n : Node) : Decidable (ThreadOk base64 cjson env n) :=
  inferInstanceAs (Decidable (∀ q ∈ n.queue.head?, _))

theorem NodeInv.pop {n : Node} (h : NodeInv base64 cjson n) {q : Queued} {rest : List Queued}
    (hqueue : n.queue = q :: rest) (hlocal : q.isLocalWire = false) :
    NodeInv base64 cjson { n with queue := rest } := by
  refine ⟨⟨h.running, ?_, h.output, h.encoded, h.noEcho, h.noLoop⟩, fun q' hq' => ?_⟩
  · have honce := h.once
    rw [hqueue, List.filter_cons_of_neg (by simp [hlocal])] at honce
    exact honce
  · exact h.queued q' (hqueue ▸ List.mem_cons_of_mem _ hq')

/-- A wire event is one of its own side just where the flag is clear. -/
theorem QueuedOk.isLocalWire {q : Queued} (hq : QueuedOk q)
    (hwire : q.event.type.isWire = true) : q.isLocalWire = !q.event.received := by
  cases ho : q.origin with
  | producer p =>
    simp only [QueuedOk, ho] at hq
    simp [Queued.isLocalWire, ho, hwire, hq hwire]
  | uartRxHandler =>
    simp only [QueuedOk, ho] at hq
    rw [hq] at hwire
    cases hwire
  | handleMessage =>
    simp only [QueuedOk, ho] at hq
    simp [Queued.isLocalWire, ho, hq.1]

theorem origin_ne_of_isLocalWire {q : Queued} (h : q.isLocalWire = true) :
    q.origin ≠ .handleMessage := by
  intro ho
  simp [Queued.isLocalWire, ho] at h

/-- A wire event leaves the queue: its own side's is sent, a received one is not. -/
theorem NodeInv.sendMessage {n : Node} (h : NodeInv base64 cjson n) {q : Queued}
    {rest : List Queued} {env : EncodeEnv} (hqueue : n.queue = q :: rest)
    (hwire : q.event.type.isWire = true)
    (hencode : q.event.received = false →
      (encodeMessage base64 cjson env q.event.type.number q.event.data).isSome = true) :
    NodeInv base64 cjson (({ n with queue := rest } : Node).sendMessage base64 cjson env q).1 := by
  have hlocal := (h.queued q (by simp [hqueue])).isLocalWire hwire
  cases hrec : q.event.received with
  | true =>
    rw [hrec] at hlocal
    simpa [Node.sendMessage, hrec] using h.pop hqueue hlocal
  | false =>
    obtain ⟨text, htext⟩ := Option.isSome_iff_exists.1 (hencode hrec)
    rw [hrec] at hlocal
    simp only [Node.sendMessage, hrec, Bool.false_eq_true, if_false, htext]
    refine ⟨⟨h.running, ?_, ?_, ?_, ?_, h.noLoop⟩, fun q' hq' => ?_⟩
    · have honce := h.once
      rw [hqueue, List.filter_cons_of_pos hlocal] at honce
      simp [honce]
    · simp [h.output]
    · intro x hx
      rcases List.mem_append.1 hx with hx | hx
      · exact h.encoded x hx
      · rw [List.mem_singleton.1 hx]
        exact ⟨env, htext⟩
    · intro x hx
      rcases List.mem_append.1 hx with hx | hx
      · exact h.noEcho x hx
      · rw [List.mem_singleton.1 hx]
        exact origin_ne_of_isLocalWire hlocal
    · exact h.queued q' (hqueue ▸ List.mem_cons_of_mem _ hq')

theorem NodeInv.handleMsg {n n' : Node} {output : Bytes} {env : ThreadEnv}
    (h : NodeInv base64 cjson n) (hok : ThreadOk base64 cjson env n)
    (hs : n.handleMsg base64 cjson env = some (n', output)) : NodeInv base64 cjson n' := by
  cases hqueue : n.queue with
  | nil => simp [Node.handleMsg, hqueue] at hs
  | cons q rest =>
    have hhead : q ∈ n.queue.head? := by rw [hqueue]; exact Option.mem_some_self q
    obtain ⟨hencode, hparse⟩ := hok q hhead
    have hq : QueuedOk q := h.queued q (by simp [hqueue])
    simp only [Node.handleMsg, hqueue] at hs
    split_ifs at hs with hhalt hwire hready
    · have hsend := h.sendMessage hqueue hwire (hencode hwire)
      rwa [Option.some.inj hs] at hsend
    · have hlocal : q.isLocalWire = false := by
        unfold Queued.isLocalWire
        split <;> simp [hready, EventType.isWire]
      have horigin : q.origin ≠ .handleMessage := by
        intro ho
        simp only [QueuedOk, ho] at hq
        exact hq.2 hready
      have hpop := h.pop hqueue hlocal
      have hhandled : ∀ x ∈ n.handled ++ [q], x.origin ≠ .handleMessage := by
        intro x hx
        rcases List.mem_append.1 hx with hx | hx
        · exact h.noLoop x hx
        · rwa [List.mem_singleton.1 hx]
      -- the new event has the flag set, and is no raw frame as the frame was none
      obtain ⟨p, hp, htype, hblock⟩ := hparse hready
      obtain ⟨r, hd⟩ := (dispatch_isSome_iff env.garbage).2 hblock
      obtain ⟨-, hrec, hcases⟩ := dispatch_spec hd
      have hne : r.event.type ≠ .dataReady := by
        rcases hcases with ⟨-, h, -⟩ | ⟨-, h, -⟩ | ⟨h, -⟩ | ⟨-, -, -, h, -⟩
        · simp [h]
        · simp [h]
        · exact absurd h htype
        · simp [h]
      have hnode : NodeInv base64 cjson { n with queue := rest, handled := n.handled ++ [q] } :=
        ⟨⟨hpop.running, hpop.once, hpop.output, hpop.encoded, hpop.noEcho, hhandled⟩, hpop.queued⟩
      simp only [handleMessage, Option.mem_def.1 hp, Option.bind_some, hd] at hs
      cases hs
      exact hnode.submit ⟨hrec, hne⟩
    · cases hs
      refine h.pop hqueue ?_
      unfold Queued.isLocalWire
      split <;> simp_all

/-! ## All runs -/

/-- The producers that leave `received` unassigned find it clear, and every step of a
module thread is `ThreadOk`. -/
def ExchangeOk (base64 : Base64Api) (cjson : CJsonApi) (s : Exchange) : ExchangeEvent → Prop
  | .raise _ p garbage => p = .handleButtonEvent ∨ p = .handleSensorEvent → garbage = false
  | .thread n env => ThreadOk base64 cjson env (s.node n)
  | .arrive _ _ | .noise _ _ _ | .lose _ => True

instance (s : Exchange) (e : ExchangeEvent) : Decidable (ExchangeOk base64 cjson s e) :=
  match e with
  | .raise _ _ _ => inferInstanceAs (Decidable (_ → _))
  | .thread n env => inferInstanceAs (Decidable (ThreadOk base64 cjson env (s.node n)))
  | .arrive _ _ | .noise _ _ _ | .lose _ => inferInstanceAs (Decidable True)

theorem event_queuedOk {p : Producer} {garbage : Bool} {event : ModuleEvent}
    (hok : p = .handleButtonEvent ∨ p = .handleSensorEvent → garbage = false)
    (he : p.event garbage = some event) : QueuedOk ⟨event, .producer p⟩ := by
  intro hwire
  cases p with
  | sendToNrf9160 data =>
    simp only [Producer.event] at he
    split_ifs at he
    cases he
    rfl
  | handleButtonEvent =>
    cases he
    exact hok (Or.inl rfl)
  | handleSensorEvent =>
    cases he
    exact hok (Or.inr rfl)
  | testHeatMapData mock =>
    cases he
    cases hwire
  | _ =>
    cases he
    rfl

theorem setNode_inv {s : Exchange} (h : ∀ i, NodeInv base64 cjson (s.node i)) (i : Bool) {n : Node}
    (hn : NodeInv base64 cjson n) : ∀ j, NodeInv base64 cjson ((s.setNode i n).node j) := by
  intro j
  simp only [Exchange.setNode]
  by_cases hj : j = i
  · rw [hj, Function.update_self]
    exact hn
  · rw [Function.update_of_ne hj]
    exact h j

theorem step_nodeInv {s s' : Exchange} {e : ExchangeEvent}
    (h : ∀ i, NodeInv base64 cjson (s.node i)) (hok : ExchangeOk base64 cjson s e)
    (hs : Exchange.step base64 cjson s e = some s') : ∀ i, NodeInv base64 cjson (s'.node i) := by
  cases e with
  | raise n p garbage =>
    simp only [Exchange.step] at hs
    split at hs
    · cases hs
    · rename_i event he
      cases hs
      exact setNode_inv h n ((h n).submit (event_queuedOk hok he))
  | thread n env =>
    simp only [Exchange.step, Option.map_eq_some_iff] at hs
    obtain ⟨r, hr, rfl⟩ := hs
    exact setNode_inv h n ((h n).handleMsg hok hr)
  | arrive n garbage =>
    simp only [Exchange.step] at hs
    split at hs
    · cases hs
    · cases hs
      exact setNode_inv h n ((h n).receive garbage _)
  | noise n c garbage =>
    cases hs
    exact setNode_inv h n ((h n).receive garbage c)
  | lose n =>
    simp only [Exchange.step] at hs
    split at hs
    · cases hs
    · cases hs
      exact h

def quietEnv : ThreadEnv := ⟨goodEnv [0], ⟨false, some []⟩, []⟩

def errorFrame : Bytes := text "\x7b\"type\":4,\"data\":\"\",\"len\":0\x7d" ++ [0]

/-- A frame that reports an error arrives and is handled, and a button press is sent after it. -/
def answering : List ExchangeEvent :=
  errorFrame.map (fun c => .noise true c false) ++ [.thread true quietEnv] ++
    [.raise true .handleButtonEvent false] ++ [.thread true quietEnv] ++ [.thread true quietEnv]

def rawFrame : Bytes := text "\x7b\"type\":1,\"data\":\"\",\"len\":0\x7d" ++ [0]
def junkFrame : Bytes := text "x" ++ [0]

end Heaty.Mcu
