import Heaty.Proofs.Delivery

/-! What is under way between the two controllers gets there: every step of a thread or of the
line leaves less to do, and where nothing is left to do, all has been delivered. -/

namespace Heaty.Mcu

open Framing Utils

variable {base64 : Base64Api} {cjson : CJsonApi} {bufSize : ℕ}

/-! ## The work left -/

/-- The steps left for an event of the queue, and for a byte on the line. -/
def weight (bufSize : ℕ) (q : Queued) : ℕ :=
  if q.event.type = .dataReady then 2
  else if q.event.type.isWire ∧ q.event.received = false then bufSize + 3 else 1

def byteWeight (c : UInt8) : ℕ := if c = 0 then 3 else 1

/-- The steps left on one side, and on both. -/
def sideWork (bufSize : ℕ) (n : Node) (line : Bytes) : ℕ :=
  (n.queue.map (weight bufSize)).sum + (line.map byteWeight).sum

def work (bufSize : ℕ) (s : Listened) : ℕ :=
  sideWork bufSize (s.exchange.node false) (s.exchange.line false) +
    sideWork bufSize (s.exchange.node true) (s.exchange.line true)

theorem work_eq (s : Listened) (n : Bool) :
    work bufSize s = sideWork bufSize (s.exchange.node n) (s.exchange.line n) +
      sideWork bufSize (s.exchange.node !n) (s.exchange.line !n) := by
  cases n with
  | false => rfl
  | true => exact Nat.add_comm _ _

def ExchangeEvent.isProgress : ExchangeEvent → Bool
  | .thread _ _ | .arrive _ _ => true
  | _ => false

theorem weight_pos (q : Queued) : 0 < weight bufSize q := by
  unfold weight
  split_ifs
  all_goals omega

theorem sum_byteWeight {text : Bytes} (h : 0 ∉ text) : (text.map byteWeight).sum = text.length := by
  induction text with
  | nil => rfl
  | cons c text ih =>
    rw [List.mem_cons, not_or] at h
    rw [List.map_cons, List.sum_cons, ih h.2, byteWeight, if_neg (Ne.symm h.1), List.length_cons,
      Nat.add_comm]

theorem work_raise {s s' : Listened} {n garbage : Bool} {p : Producer}
    (hs : Listened.step base64 cjson s (.raise n p garbage) = some s') :
    work bufSize s' ≤ work bufSize s + (bufSize + 3) := by
  cases he : p.event garbage with
  | none => simp [Listened.step, Exchange.step, he] at hs
  | some event =>
    simp only [Listened.step, Exchange.step, he, Option.map_some, Option.some.injEq] at hs
    subst hs
    have hle : weight bufSize ⟨event, .producer p⟩ ≤ bufSize + 3 := by
      unfold weight
      split_ifs
      all_goals omega
    rw [work_eq _ n, work_eq _ n]
    simp only [setNode_node_self, setNode_node_not, setNode_line, sideWork, Node.submit,
      List.map_append, List.sum_append, List.map_cons, List.map_nil, List.sum_cons, List.sum_nil]
    omega

theorem LinkInv.work_thread {s s' : Listened} (h : LinkInv bufSize base64 cjson s)
    (hbase64 : base64.Documented) (hcjson : cjson.Documented) (hprint : cjson.PrintsText)
    {n : Bool} {env : ThreadEnv} (hok : LinkOk bufSize base64 cjson s (.thread n env))
    (hs : Listened.step base64 cjson s (.thread n env) = some s') :
    work bufSize s' < work bufSize s := by
  cases hr : (s.exchange.node n).handleMsg base64 cjson env with
  | none => simp [Listened.step, Exchange.step, hr] at hs
  | some r =>
    simp only [Listened.step, Exchange.step, hr, Option.map_some, Option.some.injEq] at hs
    subst hs
    obtain ⟨-, q, rest, hqueue, hhandles⟩ := handleMsg_handles hr
    have hpos : 0 < weight bufSize q := weight_pos q
    rw [work_eq _ n, work_eq _ n]
    simp only [setNode_node_self, setNode_node_not, Function.update_self,
      Function.update_of_ne (Bool.not_ne_self n), add_lt_add_iff_right]
    generalize (s.exchange.node n).submitted base64 cjson env = submitted at hhandles
    simp only [sideWork, hqueue, List.map_cons, List.sum_cons]
    cases hhandles with
    | drop =>
      simp only [List.append_nil]
      omega
    | send text hwire hreceived htext =>
      obtain ⟨-, text', htext', hfits, -⟩ :=
        h.sends hbase64 hcjson hprint hok hqueue hwire hreceived
      rw [htext] at htext'
      cases htext'
      have hne : q.event.type ≠ .dataReady := fun he => by simp [he, EventType.isWire] at hwire
      have hweight : weight bufSize q = bufSize + 3 := by simp [weight, hne, hwire, hreceived]
      have hlt := hfits.length_lt
      have hzero : byteWeight 0 = 3 := rfl
      simp only [List.map_append, List.sum_append, sum_byteWeight hfits.zero_notMem, List.map_cons,
        List.map_nil, List.sum_cons, List.sum_nil, hzero]
      omega
    | halt =>
      simp only [List.append_nil]
      omega
    | frame handled hready hhandled =>
      obtain ⟨x, r', -, hwireable, hr', hevent⟩ := h.frame hqueue hready hok.1 env.garbage
      rw [hhandled] at hr'
      cases hr'
      have hne : handled.event.type ≠ .dataReady := by
        rw [hevent]
        exact hwireable.ne_dataReady
      have hfrom : weight bufSize q = 2 := by simp [weight, hready]
      have hto : weight bufSize ⟨handled.event, .handleMessage⟩ = 1 := by
        rw [weight, if_neg hne, if_neg (by simp [hevent])]
      simp only [Node.submit, List.map_append, List.sum_append, List.map_cons, List.map_nil,
        List.sum_cons, List.sum_nil, hto, hfrom, List.append_nil]
      omega

theorem LinkInv.work_arrive {s s' : Listened} (h : LinkInv bufSize base64 cjson s)
    (hsize : 0 < bufSize) {n garbage : Bool}
    (hs : Listened.step base64 cjson s (.arrive n garbage) = some s') :
    work bufSize s' < work bufSize s := by
  cases hline : s.exchange.line !n with
  | nil => simp [Listened.step, Exchange.step, hline] at hs
  | cons c rest =>
    simp only [Listened.step, Exchange.step, hline, Option.map_some, Option.some.injEq] at hs
    subst hs
    obtain ⟨-, hqueue⟩ := receive_keeps (s.exchange.node n) garbage c
    obtain ⟨arrived, hread⟩ := h.link !n
    rw [Bool.not_not, hline] at hread
    obtain ⟨-, hcompleted⟩ := hread.arrive (h.nodes !n).toNodeOk (h.sent !n) hsize garbage
    rw [work_eq _ n, work_eq _ n]
    simp only [setNode_node_self, setNode_node_not, Function.update_self,
      Function.update_of_ne (Bool.not_ne_self n).symm, sideWork, hqueue, hcompleted,
      hline, List.map_cons, List.sum_cons, List.map_append, List.sum_append, byteWeight]
    by_cases hc : c = 0
    · simp only [hc, if_true, Option.toList_some, List.map_cons, List.map_nil, List.sum_cons,
        List.sum_nil, weight]
      omega
    · simp only [if_neg hc, Option.toList_none, List.map_nil, List.sum_nil]
      omega

/-! ## The end -/

def ProgressOk (bufSize : ℕ) (base64 : Base64Api) (cjson : CJsonApi) (s : Listened)
    (e : ExchangeEvent) : Prop := e.isProgress = true ∧ LinkOk bufSize base64 cjson s e

instance (s : Listened) (e : ExchangeEvent) : Decidable (ProgressOk bufSize base64 cjson s e) :=
  inferInstanceAs (Decidable (_ ∧ _))

theorem LinkInv.progress {s s' : Listened} (h : LinkInv bufSize base64 cjson s)
    (hbase64 : base64.Documented) (hcjson : cjson.Documented) (hprint : cjson.PrintsText)
    (hsize : 0 < bufSize) {e : ExchangeEvent} (hok : ProgressOk bufSize base64 cjson s e)
    (hs : Listened.step base64 cjson s e = some s') :
    LinkInv bufSize base64 cjson s' ∧ work bufSize s' < work bufSize s := by
  refine ⟨linkInv_step hbase64 hcjson hprint hsize h hok.2 hs, ?_⟩
  cases e with
  | thread n env => exact h.work_thread hbase64 hcjson hprint hok.2 hs
  | arrive n garbage => exact h.work_arrive hsize hs
  | raise | noise | lose => cases hok.1

theorem handleMsg_isSome (base64 : Base64Api) (cjson : CJsonApi) {n : Node}
    (hrunning : n.halted = false) (hqueue : n.queue ≠ []) (env : ThreadEnv) :
    (n.handleMsg base64 cjson env).isSome = true := by
  obtain ⟨q, rest, hq⟩ := List.exists_cons_of_ne_nil hqueue
  simp only [Node.handleMsg, hq, hrunning, Bool.false_eq_true, if_false]
  split_ifs with hwire hready
  · rfl
  · split
    · rfl
    · rfl
  · rfl

/-- With memory, a thread may always run. -/
theorem LinkInv.quiet_thread {s : Listened} (h : LinkInv bufSize base64 cjson s) (n : Bool) :
    LinkOk bufSize base64 cjson s (.thread n quietEnv) := by
  refine ⟨rfl, fun q hq hwire hreceived => ?_⟩
  have hmem : q ∈ (s.exchange.node n).queue := List.mem_of_mem_head? hq
  have hlocal := ((h.nodes n).queued q hmem).isLocalWire hwire
  rw [hreceived] at hlocal
  exact (h.postable n q hmem hlocal).sendable

theorem LinkInv.stuck {s : Listened} (h : LinkInv bufSize base64 cjson s)
    (hstuck : ∀ e, ProgressOk bufSize base64 cjson s e → Listened.step base64 cjson s e = none)
    (n : Bool) : (s.exchange.node n).queue = [] ∧ s.exchange.line n = [] := by
  constructor
  · by_contra hqueue
    have hnone := hstuck _ ⟨rfl, h.quiet_thread n⟩
    have hsome := handleMsg_isSome base64 cjson (h.nodes n).running hqueue quietEnv
    simp only [Listened.step, Exchange.step, Option.map_eq_none_iff] at hnone
    simp [hnone] at hsome
  · cases hline : s.exchange.line n with
    | nil => rfl
    | cons c rest =>
      have hnone := hstuck (.arrive (!n) false) ⟨rfl, trivial⟩
      simp [Listened.step, Exchange.step, hline] at hnone

/-- From wherever a run has led, the threads and the line come to an end by themselves, after a
bounded number of steps, and then the listeners of both sides have got every message. -/
theorem exchange_drains (hbase64 : base64.Documented) (hcjson : cjson.Documented)
    (hprint : cjson.PrintsText) (hsize : 0 < bufSize) {evs evs' : List ExchangeEvent}
    {s s' : Listened}
    (h : (listened bufSize base64 cjson).RunOf (LinkOk bufSize base64 cjson) evs s)
    (h' : ((listened bufSize base64 cjson).after s).RunOf (ProgressOk bufSize base64 cjson)
      evs' s') :
    evs'.length ≤ work bufSize s ∧
      ((∀ e, ProgressOk bufSize base64 cjson s' e → Listened.step base64 cjson s' e = none) →
        ∀ n, s'.received (!n) = s'.exchange.messages n) := by
  have hinv := linkInv_of_run hbase64 hcjson hprint hsize h
  obtain ⟨hinv', hlength⟩ := h'.length_le (LinkInv bufSize base64 cjson) hinv
    fun _ _ _ hi hok hs => hi.progress hbase64 hcjson hprint hsize hok hs
  refine ⟨(Nat.le_add_right _ _).trans hlength, fun hstuck n => hinv'.received_idle ?_⟩
  obtain ⟨hqueue, hline⟩ := hinv'.stuck hstuck n
  obtain ⟨hqueue', -⟩ := hinv'.stuck hstuck !n
  exact ⟨by simp [hqueue], hline, by simp [hqueue']⟩

theorem step_of_empty {s : Listened}
    (hempty : ∀ n, (s.exchange.node n).queue = [] ∧ s.exchange.line n = []) {e : ExchangeEvent}
    (he : e.isProgress = true) : Listened.step base64 cjson s e = none := by
  cases e with
  | thread n env =>
    have hnone : (s.exchange.node n).handleMsg base64 cjson env = none := by
      simp [Node.handleMsg, (hempty n).1]
    simp [Listened.step, Exchange.step, hnone]
  | arrive n garbage => simp [Listened.step, Exchange.step, (hempty !n).2]
  | raise | noise | lose => cases he

/-- The two events of `crossing` are raised, and the rest happens by itself. -/
theorem exchange_drains_crossing :
    ∃ s s', (listened 64 zephyrBase64 cJson).RunOf (LinkOk 64 zephyrBase64 cJson) crossing s ∧
      ((listened 64 zephyrBase64 cJson).after s).RunOf (ProgressOk 64 zephyrBase64 cJson)
        crossed s' ∧
      crossed.length ≤ work 64 s ∧ s'.received true = [(.heatMapDataReady, [1, 2, 3])] ∧
      s'.received false = [(.button, [])] := by
  have hrun : ∃ s ∈ (listened 64 zephyrBase64 cJson).execOf (LinkOk 64 zephyrBase64 cJson)
      crossing, ∃ s' ∈ ((listened 64 zephyrBase64 cJson).after s).execOf
        (ProgressOk 64 zephyrBase64 cJson) crossed,
        (∀ n, (s'.exchange.node n).queue = [] ∧ s'.exchange.line n = []) ∧
        s'.exchange.messages false = [(.heatMapDataReady, [1, 2, 3])] ∧
        s'.exchange.messages true = [(.button, [])] := by decide +kernel
  obtain ⟨s, hs, s', hs', hempty, hmessages, hmessages'⟩ := hrun
  have h := Lts.runOf_of_exec hs
  have h' := Lts.runOf_of_exec hs'
  obtain ⟨hbound, hdelivered⟩ := exchange_drains zephyrBase64_documented cJson_documented
    cJson_printsText (by decide) h h'
  have hall := hdelivered fun e he => step_of_empty hempty he.1
  exact ⟨s, s', h, h', hbound, (hall false).trans hmessages, (hall true).trans hmessages'⟩

end Heaty.Mcu
