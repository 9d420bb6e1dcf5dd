import Heaty.Proofs.Conns

/-! The bridge's notifications: the flag in the slot table, the events it raises
and the subscriber count of the UART handler. They agree in every run in which
each CCC write changes the flag and no connection goes down with its flag set. -/

namespace Heaty.Bt

open Slots

variable {Conn : Type}

/-! ## Pending subscriptions -/

def Submission.delta : Submission → Option ℤ
  | .error _ => none
  | .peerConn .connected => some 1
  | .peerConn .disconnected => some (-1)

def Module.deltas (m : Module Conn) : List ℤ := m.submitted.filterMap Submission.delta

@[simp] theorem advertise_deltas (m : Module Conn) (err : ℤ) :
    (m.advertise err).deltas = m.deltas := by
  simp only [Module.advertise]
  split_ifs <;> simp [Module.submit, Module.deltas, Submission.delta]

@[simp] theorem btReady_deltas (m : Module Conn) (autostart : Bool) (err nusErr : ℤ) :
    (m.btReady autostart err nusErr).deltas = m.deltas := by
  unfold Module.btReady
  split_ifs <;> simp [Module.submit, Module.deltas, Submission.delta]

theorem deltas_errors (codes : List BtErrorCode) :
    (codes.map Submission.error).filterMap Submission.delta = [] := by
  simp [Submission.delta]

/-- The handler follows the event while its count stays nonnegative, and keeps
reception on while there is a subscriber. -/
theorem peerConn_spec {u : UartHandler} (hdev : u.device = true) (hcount : 0 ≤ u.subscriberCount)
    (hrx : u.rxEnabled = true ↔ 0 < u.subscriberCount) {state : PeerConnState} {d : ℤ}
    (hd : (Submission.peerConn state).delta = some d) (hnew : 0 ≤ u.subscriberCount + d) :
    (u.peerConn state).device = true ∧ (u.peerConn state).subscriberCount = u.subscriberCount + d ∧
      ((u.peerConn state).rxEnabled = true ↔ 0 < u.subscriberCount + d) := by
  cases state with
  | connected =>
    cases hd
    simp only [UartHandler.peerConn, hdev, Bool.true_eq_false, if_false]
    split_ifs with h0 h1
    · omega
    · exact ⟨rfl, rfl, by simp only [true_iff]; omega⟩
    · exact ⟨rfl, rfl, by simp only [hrx]; omega⟩
  | disconnected =>
    cases hd
    simp only [UartHandler.peerConn, hdev, Bool.true_eq_false, if_false]
    split_ifs with h0 h1
    · exact ⟨rfl, rfl, by simp only [false_iff]; omega⟩
    · omega
    · exact ⟨rfl, rfl, by simp only [hrx]; omega⟩

/-! ## The invariant -/

def BtConnMyInfo.listener (slot : BtConnMyInfo Conn) : Option (Conn × Bool) :=
  slot.conn.map fun conn => (conn, slot.serialNrf91BridgeNotifications)

def Module.listeners (m : Module Conn) : List (Conn × Bool) :=
  m.conns.filterMap BtConnMyInfo.listener

def Module.flagged (m : Module Conn) : ℕ := m.conns.countP (·.serialNrf91BridgeNotifications)

def EmptyOff (conns : List (BtConnMyInfo Conn)) : Prop :=
  ∀ slot ∈ conns, slot.conn = none → slot.serialNrf91BridgeNotifications = false

/-- The slots know the last CCC write of each live connection, and the count with
the changes under way is the number of live subscribers, never going below zero
on the way there. -/
structure Subscribed (s : BleSys Conn) : Prop where
  listeners : s.bt.listeners.Perm s.live
  empty : EmptyOff s.bt.conns
  device : s.uart.device = true
  rx : s.uart.rxEnabled = true ↔ 0 < s.uart.subscriberCount
  pending : ∀ pre, pre <+: s.bt.deltas → 0 ≤ s.uart.subscriberCount + pre.sum
  total : s.uart.subscriberCount + s.bt.deltas.sum = s.live.countP Prod.snd

namespace Subscribed

variable {cfg : Config} {s s' : BleSys Conn}

theorem count_nonneg (h : Subscribed s) : 0 ≤ s.uart.subscriberCount := by
  simpa using h.pending [] (List.nil_prefix)

theorem flagged_eq (h : Subscribed s) : s.bt.flagged = s.live.countP Prod.snd := by
  rw [← h.listeners.countP_eq, Module.flagged, Module.listeners]
  have hempty := h.empty
  revert hempty
  generalize s.bt.conns = conns
  intro hempty
  induction conns with
  | nil => rfl
  | cons slot conns ih =>
    have ih' := ih fun a ha => hempty a (List.mem_cons_of_mem _ ha)
    cases hc : slot.conn with
    | none =>
      have hoff := hempty slot (by simp) hc
      simpa [BtConnMyInfo.listener, hc, List.countP_cons, hoff] using ih'
    | some conn => simp [BtConnMyInfo.listener, hc, List.countP_cons, ih']

/-- A step that leaves flags, live connections and subscriptions alone. -/
theorem of_same (h : Subscribed s) (hlisteners : s'.bt.listeners = s.bt.listeners)
    (hempty : EmptyOff s'.bt.conns) (hlive : s'.live = s.live) (huart : s'.uart = s.uart)
    (hdeltas : s'.bt.deltas = s.bt.deltas) : Subscribed s' where
  listeners := by rw [hlisteners, hlive]; exact h.listeners
  empty := hempty
  device := by rw [huart]; exact h.device
  rx := by rw [huart]; exact h.rx
  pending := by rw [huart, hdeltas]; exact h.pending
  total := by rw [huart, hdeltas, hlive]; exact h.total

theorem of_conns_eq (h : Subscribed s) (hconns : s'.bt.conns = s.bt.conns)
    (hlive : s'.live = s.live) (huart : s'.uart = s.uart) (hdeltas : s'.bt.deltas = s.bt.deltas) :
    Subscribed s' :=
  h.of_same (by simp only [Module.listeners, hconns]) (by rw [hconns]; exact h.empty) hlive huart
    hdeltas

/-- A step that changes the live connections and not what they subscribe to. -/
theorem of_listeners (h : Subscribed s) (hlisteners : s'.bt.listeners.Perm s'.live)
    (hempty : EmptyOff s'.bt.conns) (huart : s'.uart = s.uart)
    (hdeltas : s'.bt.deltas = s.bt.deltas)
    (hcount : s'.live.countP Prod.snd = s.live.countP Prod.snd) : Subscribed s' where
  listeners := hlisteners
  empty := hempty
  device := by rw [huart]; exact h.device
  rx := by rw [huart]; exact h.rx
  pending := by rw [huart, hdeltas]; exact h.pending
  total := by rw [huart, hdeltas, hcount]; exact h.total

theorem of_submits (h : Subscribed s) (hlisteners : s'.bt.listeners.Perm s'.live)
    (hempty : EmptyOff s'.bt.conns) (huart : s'.uart = s.uart) {d : ℤ}
    (hdeltas : s'.bt.deltas = s.bt.deltas ++ [d])
    (hcount : (s'.live.countP Prod.snd : ℤ) = s.live.countP Prod.snd + d) : Subscribed s' := by
  have htotal : s'.uart.subscriberCount + s'.bt.deltas.sum = s'.live.countP Prod.snd := by
    have := h.total
    rw [huart, hdeltas, List.sum_append, List.sum_singleton, hcount]
    omega
  refine ⟨hlisteners, hempty, by rw [huart]; exact h.device, by rw [huart]; exact h.rx,
    fun pre hpre => ?_, htotal⟩
  rw [hdeltas] at hpre
  rcases List.prefix_concat_iff.1 hpre with rfl | hpre
  · rw [← hdeltas, htotal]
    exact Int.natCast_nonneg _
  · rw [huart]
    exact h.pending pre hpre

theorem connected (h : Subscribed s) (ht : Table cfg s) {conn : Conn}
    (hroom : s.live.length < cfg.maxConn) (hbt : s'.bt = s.bt.connected conn 0)
    (hlive : s'.live = (conn, false) :: s.live) (huart : s'.uart = s.uart) : Subscribed s' := by
  obtain ⟨slot, hslot, hfree⟩ := ht.free hroom
  have hany : ∃ slot ∈ s.bt.conns, slot.conn.isNone = true := ⟨slot, hslot, by simp [hfree]⟩
  refine h.of_listeners ?_ ?_ huart (by rw [hbt]; rfl) (by simp [hlive])
  · rw [hbt, hlive]
    refine (keys_updateFirst_insert BtConnMyInfo.listener hany (fun a _ hn => ?_)
      fun a ha hn => ?_).trans (h.listeners.cons (conn, false))
    · simp [BtConnMyInfo.listener, Option.isNone_iff_eq_none.1 hn]
    · -- the slot was empty, so its flag is still off
      simp [BtConnMyInfo.listener, h.empty a ha (Option.isNone_iff_eq_none.1 hn)]
  · rw [hbt]
    exact forall_updateFirst h.empty fun _ _ _ hc => by simp at hc

variable [DecidableEq Conn]

theorem disconnected (h : Subscribed s) (ht : Table cfg s) {conn : Conn} (hup : conn ∈ s.peers)
    (hoff : ∀ slot ∈ s.bt.conns, slot.conn = some conn →
      slot.serialNrf91BridgeNotifications = false)
    (hbt : s'.bt = s.bt.disconnected conn)
    (hlive : s'.live = s.live.filter fun peer => peer.1 ≠ conn) (huart : s'.uart = s.uart) :
    Subscribed s' := by
  obtain ⟨slot, hslot, hconn⟩ := ht.held hup
  have hany : ∃ slot ∈ s.bt.conns, holds conn slot = true := ⟨slot, hslot, by simp [holds, hconn]⟩
  have hconns : s'.bt.conns = updateFirst (holds conn) (fun slot =>
      { slot with conn := none, mtu := 0, serialNotifications := false }) s.bt.conns := by
    rw [hbt, Module.disconnected]
    split_ifs <;> rfl
  have hdeltas : s'.bt.deltas = s.bt.deltas := by
    rw [hbt, Module.disconnected]
    split_ifs <;> rfl
  have herase : s.bt.listeners.Perm ((conn, false) :: s'.bt.listeners) := by
    rw [Module.listeners, Module.listeners, hconns]
    refine keys_updateFirst_erase BtConnMyInfo.listener hany (fun a ha hp => ?_) fun _ _ _ => rfl
    have hheld : a.conn = some conn := by simpa [holds] using hp
    simp [BtConnMyInfo.listener, hheld, hoff a ha hheld]
  have hperm : s.live.Perm ((conn, false) :: s'.bt.listeners) := h.listeners.symm.trans herase
  have hlive' : s'.live.Perm s'.bt.listeners := hlive ▸ perm_filter_ne Prod.fst ht.nodup hperm
  refine h.of_listeners hlive'.symm ?_ huart hdeltas ?_
  · rw [hconns]
    refine forall_updateFirst h.empty fun a ha hp _ => ?_
    exact hoff a ha (by simpa [holds] using hp)
  · rw [hperm.countP_eq, hlive'.countP_eq]
    simp

theorem cccWrite_conns {m : Module Conn} {conn : Conn} {value : UInt16}
    (hany : m.conns.any (holds conn) = true) :
    (m.cccWrite conn value).conns = updateFirst (holds conn) (fun slot =>
      { slot with serialNrf91BridgeNotifications := decide (value = 1) }) m.conns := by
  rw [Module.cccWrite, if_pos hany]
  rfl

/-- A CCC write that changes the flag of a connection turns its entry among the listeners
over. -/
theorem listeners_cccWrite {m : Module Conn} {conn : Conn} {value : UInt16}
    (hany : m.conns.any (holds conn) = true)
    (hnew : ∀ slot ∈ m.conns, slot.conn = some conn →
      slot.serialNrf91BridgeNotifications ≠ decide (value = 1)) :
    ∃ rest, m.listeners.Perm ((conn, !decide (value = 1)) :: rest) ∧
      (m.cccWrite conn value).listeners.Perm ((conn, decide (value = 1)) :: rest) := by
  have hbefore : ∀ a ∈ m.conns, holds conn a →
      a.listener = some (conn, !decide (value = 1)) := by
    intro a ha hp
    have hheld : a.conn = some conn := by simpa [holds] using hp
    simp [BtConnMyInfo.listener, hheld, Bool.eq_not.2 (hnew a ha hheld)]
  have hafter : ∀ a ∈ m.conns, holds conn a →
      ({ a with serialNrf91BridgeNotifications := decide (value = 1) } :
        BtConnMyInfo Conn).listener = some (conn, decide (value = 1)) := by
    intro a _ hp
    have hheld : a.conn = some conn := by simpa [holds] using hp
    simp [BtConnMyInfo.listener, hheld]
  rw [Module.listeners, Module.listeners, cccWrite_conns hany]
  exact keys_updateFirst BtConnMyInfo.listener (List.any_eq_true.1 hany) hbefore hafter

theorem cccWrite (h : Subscribed s) (ht : Table cfg s) {conn : Conn} (hup : conn ∈ s.peers)
    {value : UInt16}
    (hnew : ∀ slot ∈ s.bt.conns, slot.conn = some conn →
      slot.serialNrf91BridgeNotifications ≠ decide (value = 1))
    (hbt : s'.bt = s.bt.cccWrite conn value)
    (hlive : s'.live = (conn, decide (value = 1)) :: s.live.filter fun peer => peer.1 ≠ conn)
    (huart : s'.uart = s.uart) : Subscribed s' := by
  obtain ⟨slot, hslot, hconn⟩ := ht.held hup
  have hany : s.bt.conns.any (holds conn) = true :=
    List.any_eq_true.2 ⟨slot, hslot, by simp [holds, hconn]⟩
  obtain ⟨rest, hold, hset⟩ := listeners_cccWrite hany hnew
  rw [← hbt] at hset
  have hperm : s.live.Perm ((conn, !decide (value = 1)) :: rest) := h.listeners.symm.trans hold
  have hlive' : s'.live.Perm ((conn, decide (value = 1)) :: rest) := by
    rw [hlive]
    exact (perm_filter_ne Prod.fst ht.nodup hperm).cons _
  have hempty : EmptyOff s'.bt.conns := by
    rw [hbt, cccWrite_conns hany]
    refine forall_updateFirst h.empty fun a _ hp hc => ?_
    simp only [holds, decide_eq_true_eq] at hp
    simp [hp] at hc
  -- the write moves the number of subscribers by the change it submits
  have hdeltas : ∃ d, s'.bt.deltas = s.bt.deltas ++ [d] ∧
      (s'.live.countP Prod.snd : ℤ) = s.live.countP Prod.snd + d := by
    rw [hperm.countP_eq, hlive'.countP_eq, hbt, Module.cccWrite, if_pos hany]
    by_cases hv : value = 1
    · exact ⟨1, by simp [Module.deltas, Module.submit, Submission.delta, hv], by simp [hv]⟩
    · exact ⟨-1, by simp [Module.deltas, Module.submit, Submission.delta, hv], by simp [hv]⟩
  obtain ⟨d, hdeltas, hcount⟩ := hdeltas
  exact h.of_submits (hset.trans hlive'.symm) hempty huart hdeltas hcount

omit [DecidableEq Conn] in
theorem process (h : Subscribed s) {state : PeerConnState} {rest : List Submission}
    (hsub : s.bt.submitted = .peerConn state :: rest)
    (hbt : s'.bt = { s.bt with submitted := rest }) (hlive : s'.live = s.live)
    (huart : s'.uart = s.uart.peerConn state) : Subscribed s' := by
  obtain ⟨d, hd⟩ : ∃ d, (Submission.peerConn state).delta = some d := by
    cases state <;> exact ⟨_, rfl⟩
  have hdeltas : s.bt.deltas = d :: s'.bt.deltas := by
    simp [Module.deltas, hsub, hbt, hd]
  have hnew : 0 ≤ s.uart.subscriberCount + d := by
    simpa using h.pending [d] (by simp [hdeltas])
  obtain ⟨hdev, hcount, hrx⟩ := peerConn_spec h.device h.count_nonneg h.rx hd hnew
  refine ⟨?_, ?_, by rw [huart]; exact hdev, by rw [huart, hcount]; exact hrx,
    fun pre hpre => ?_, ?_⟩
  · simpa only [Module.listeners, hbt, hlive] using h.listeners
  · rw [hbt]
    exact h.empty
  · have hsum := h.pending (d :: pre) (by rw [hdeltas]; exact List.cons_prefix_cons.2 ⟨rfl, hpre⟩)
    rw [huart, hcount]
    rw [List.sum_cons] at hsum
    omega
  · have htotal := h.total
    rw [hdeltas, List.sum_cons] at htotal
    rw [huart, hcount, hlive]
    omega

/-- What a step must be like for the flags and the count to stay right: a CCC
write changes the flag of its slot, and a connection goes down with it clear. -/
def StepOk (s : BleSys Conn) : Event Conn → Prop
  | .cccWrite conn value => ∀ slot ∈ s.bt.conns, slot.conn = some conn →
      slot.serialNrf91BridgeNotifications ≠ decide (value = 1)
  | .disconnected conn _ => ∀ slot ∈ s.bt.conns, slot.conn = some conn →
      slot.serialNrf91BridgeNotifications = false
  | _ => True

theorem exchangeFunc (h : Subscribed s) (conn : Conn) (err : UInt8) (gattMtu : ℕ) :
    Subscribed { s with bt := s.bt.exchangeFunc conn err gattMtu } := by
  unfold Module.exchangeFunc
  split_ifs
  · refine h.of_same ?_ ?_ rfl rfl rfl
    · exact keys_updateFirst_same BtConnMyInfo.listener fun _ _ _ => by
        simp only [BtConnMyInfo.listener]
    · exact forall_updateFirst h.empty fun slot hslot _ => h.empty slot hslot
  · exact h.of_conns_eq rfl rfl rfl rfl

theorem step {api : Base64Api} {e : Event Conn} (h : Subscribed s) (ht : Table cfg s)
    (hok : StepOk s e) (hs : BleSys.step cfg api s e = some s') : Subscribed s' := by
  cases stepped hs with
  | connected hnew hroom => exact h.connected ht hroom rfl rfl rfl
  | failed herr =>
    exact h.of_conns_eq (by simp [Module.connected, herr]) rfl rfl
      (by simp [Module.connected, herr, Module.deltas])
  | disconnected hup => exact h.disconnected ht hup hok rfl rfl rfl
  | exchangeFunc => exact h.exchangeFunc _ _ _
  | cccWrite hup => exact h.cccWrite ht hup hok rfl rfl rfl
  | advertise => exact h.of_conns_eq (by simp) rfl rfl (by simp)
  | btReady => exact h.of_conns_eq (by simp) rfl rfl (by simp)
  | dequeue =>
    obtain ⟨hconns, hlive, -, hsub, huart⟩ := onMessage_frame s _
    exact h.of_conns_eq hconns hlive huart (by simp only [Module.deltas, hsub])
  | thread hthread =>
    obtain ⟨hlive, huart, codes, hbt⟩ := threadStep_frame hthread
    refine h.of_conns_eq (by rw [hbt]) hlive huart ?_
    simp [Module.deltas, hbt, List.filterMap_append, -List.filterMap_map, deltas_errors]
  | peerConn hsub => exact h.process hsub rfl rfl rfl
  | error hsub =>
    exact h.of_conns_eq rfl rfl rfl
      (by simp [Module.deltas, hsub, List.filterMap_cons, Submission.delta])

omit [DecidableEq Conn] in
theorem start : Subscribed (BleSys.start cfg : BleSys Conn) := by
  refine ⟨?_, fun slot hslot _ => ?_, rfl, by simp [BleSys.start, UartHandler.start],
    fun pre hpre => ?_, ?_⟩
  · simp [BleSys.start, Module.start, Module.listeners, BtConnMyInfo.listener]
  · simp only [BleSys.start, Module.start] at hslot
    rw [List.eq_of_mem_replicate hslot]
  · have hnil : pre = [] := by
      simpa [BleSys.start, Module.start, Module.deltas] using hpre
    simp [hnil, BleSys.start, UartHandler.start]
  · simp [BleSys.start, Module.start, Module.deltas, UartHandler.start]

end Subscribed

/-! ## All runs -/

/-- A set flag belongs to a live connection whose last CCC write set it, and there are as
many of these; the subscriber count never goes below zero and, with nothing under way, is
the number of set flags; reception is on exactly while it is positive. -/
structure BridgeOk (s : BleSys Conn) : Prop where
  flags : ∀ slot ∈ s.bt.conns, slot.serialNrf91BridgeNotifications = true →
    ∃ conn, slot.conn = some conn ∧ (conn, true) ∈ s.live
  flagged : s.bt.flagged = s.live.countP Prod.snd
  nonneg : 0 ≤ s.uart.subscriberCount
  settled : (∀ state, Submission.peerConn state ∉ s.bt.submitted) →
    s.uart.subscriberCount = s.bt.flagged ∧
      (s.uart.rxEnabled = true ↔ 0 < s.uart.subscriberCount)

theorem Subscribed.bridgeOk {s : BleSys Conn} (h : Subscribed s) : BridgeOk s := by
  refine ⟨fun slot hslot hon => ?_, h.flagged_eq, h.count_nonneg, fun hnone => ⟨?_, h.rx⟩⟩
  · cases hc : slot.conn with
    | none => rw [h.empty slot hslot hc] at hon; cases hon
    | some conn =>
      have hmem : (conn, true) ∈ s.bt.listeners :=
        List.mem_filterMap.2 ⟨slot, hslot, by simp [BtConnMyInfo.listener, hc, hon]⟩
      exact ⟨conn, rfl, h.listeners.mem_iff.1 hmem⟩
  · have hdeltas : s.bt.deltas = [] := by
      rw [Module.deltas, List.filterMap_eq_nil_iff]
      intro e he
      cases e with
      | error code => rfl
      | peerConn state => exact absurd he (hnone state)
    have htotal := h.total
    rw [hdeltas, List.sum_nil, add_zero] at htotal
    rw [htotal, h.flagged_eq]

/-- In every run of `StepOk` steps the bridge's flags and the subscriber count are
right in every state reached. -/
theorem bridge_agrees [DecidableEq Conn] {cfg : Config} {api : Base64Api}
    {evs : List (Event Conn)} {s : BleSys Conn}
    (h : (bleSys Conn cfg api).RunOf Subscribed.StepOk evs s) : BridgeOk s := by
  have hinv : Table cfg s ∧ Subscribed s := by
    refine h.invariant (fun t => Table cfg t ∧ Subscribed t) ⟨Table.start, Subscribed.start⟩ ?_
    rintro t e t' ⟨ht, hsub⟩ hok hs
    exact ⟨ht.step hs, hsub.step ht hok hs⟩
  exact hinv.2.bridgeOk

/-- Two peers subscribe, one leaves after unsubscribing and a third takes its slot. -/
theorem bridge_agrees_two_peers :
    ∃ s, (bleSys ℕ ⟨2, true⟩ zephyrBase64).RunOf Subscribed.StepOk
        [.connected 7 0, .cccWrite 7 1, .connected 8 0, .cccWrite 8 1, .process, .process,
          .cccWrite 7 0, .disconnected 7 19, .connected 9 0, .process] s ∧
      s.bt.flagged = 1 ∧ s.uart.subscriberCount = 1 ∧ s.uart.rxEnabled = true ∧ BridgeOk s := by
  have hrun : ∃ s, (bleSys ℕ ⟨2, true⟩ zephyrBase64).RunOf Subscribed.StepOk
      [.connected 7 0, .cccWrite 7 1, .connected 8 0, .cccWrite 8 1, .process, .process,
        .cccWrite 7 0, .disconnected 7 19, .connected 9 0, .process] s ∧
      s.bt.flagged = 1 ∧ s.uart.subscriberCount = 1 ∧ s.uart.rxEnabled = true := by
    refine ⟨_, .snoc (.snoc (.snoc (.snoc (.snoc (.snoc (.snoc (.snoc (.snoc (.snoc .nil
      trivial rfl) ?_ rfl) trivial rfl) ?_ rfl) trivial rfl) trivial rfl) ?_ rfl) ?_ rfl)
      trivial rfl) trivial rfl, by decide, by decide, by decide⟩
    all_goals
      unfold Subscribed.StepOk
      decide
  obtain ⟨s, hs, hflagged, hcount, hrx⟩ := hrun
  exact ⟨s, hs, hflagged, hcount, hrx, bridge_agrees hs⟩

/-- A subscribed peer goes away without unsubscribing: its flag stays on in an
empty slot, the next peer inherits it, and reception stays on for nobody. -/
theorem bridge_disagrees :
    ∃ s, (bleSys ℕ ⟨1, true⟩ zephyrBase64).Run
        [.connected 7 0, .cccWrite 7 1, .process, .disconnected 7 19, .connected 8 0] s ∧
      s.live = [(8, false)] ∧ s.bt.flagged = 1 ∧ s.uart.subscriberCount = 1 ∧
      s.uart.rxEnabled = true ∧ ¬ BridgeOk s := by
  have hrun : ∃ s, (bleSys ℕ ⟨1, true⟩ zephyrBase64).Run
      [.connected 7 0, .cccWrite 7 1, .process, .disconnected 7 19, .connected 8 0] s ∧
      s.live = [(8, false)] ∧ s.bt.conns = [⟨some 8, false, true, 0⟩] ∧ s.uart = ⟨true, 1, true⟩ :=
    ⟨_, .snoc (.snoc (.snoc (.snoc (.snoc .nil trivial rfl) trivial rfl) trivial rfl) trivial rfl)
      trivial rfl, rfl, rfl, rfl⟩
  obtain ⟨s, hs, hlive, hconns, huart⟩ := hrun
  refine ⟨s, hs, hlive, by rw [Module.flagged, hconns]; rfl, by rw [huart], by rw [huart],
    fun hok => ?_⟩
  obtain ⟨conn, -, hmem⟩ := hok.flags ⟨some 8, false, true, 0⟩ (by simp [hconns]) rfl
  simp [hlive] at hmem

end Heaty.Bt
