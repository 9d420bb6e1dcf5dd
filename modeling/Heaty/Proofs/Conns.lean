import Heaty.Spec.BleSystem

/-! The slot table `conns` holds exactly the connections that are up, each once.
This part of the module's bookkeeping is right in every run; the counter and
the state beside it are not. -/

namespace Heaty.Bt

open Slots

variable {Conn : Type}

/-! ## What a step does -/

section Steps

variable [DecidableEq Conn]

/-- The steps of the system, with what the environment has promised for each. -/
inductive Stepped (cfg : Config) (api : Base64Api) (s : BleSys Conn) :
    Event Conn → BleSys Conn → Prop
  | connected {conn : Conn} (hnew : conn ∉ s.live.map Prod.fst)
      (hroom : s.live.length < cfg.maxConn) :
      Stepped cfg api s (.connected conn 0)
        { s with
          bt := s.bt.connected conn 0
          live := (conn, false) :: s.live
          advertising := false }
  | failed {conn : Conn} {err : UInt8} (herr : err ≠ 0) :
      Stepped cfg api s (.connected conn err)
        { s with bt := s.bt.connected conn err, advertising := false }
  | disconnected {conn : Conn} {reason : UInt8} (hup : conn ∈ s.live.map Prod.fst) :
      Stepped cfg api s (.disconnected conn reason)
        { s with
          bt := s.bt.disconnected conn
          live := s.live.filter fun peer => peer.1 ≠ conn }
  | exchangeFunc {conn : Conn} {err : UInt8} {gattMtu : ℕ} (hmtu : 23 ≤ gattMtu)
      (hlt : gattMtu < 65536) :
      Stepped cfg api s (.exchangeFunc conn err gattMtu)
        { s with bt := s.bt.exchangeFunc conn err gattMtu }
  | cccWrite {conn : Conn} {value : UInt16} (hup : conn ∈ s.live.map Prod.fst) :
      Stepped cfg api s (.cccWrite conn value)
        { s with
          bt := s.bt.cccWrite conn value
          live := (conn, decide (value = 1)) :: s.live.filter fun peer => peer.1 ≠ conn }
  | advertise {err : ℤ} {advertising : Bool} :
      Stepped cfg api s (.advertise err)
        { s with bt := s.bt.advertise err, advertising := advertising }
  | btReady {err nusErr : ℤ} :
      Stepped cfg api s (.btReady err nusErr) { s with bt := s.bt.btReady cfg.autostart err nusErr }
  | dequeue {msg : Msg} (hidle : s.thread = .idle) :
      Stepped cfg api s (.dequeue msg) (s.onMessage msg)
  | thread {stack : Bytes} {cbErr : ℤ} {s' : BleSys Conn}
      (hs : s.threadStep api stack cbErr = some s') : Stepped cfg api s (.thread stack cbErr) s'
  | peerConn {state : PeerConnState} {rest : List Submission}
      (hsub : s.bt.submitted = .peerConn state :: rest) :
      Stepped cfg api s .process
        { s with bt := { s.bt with submitted := rest }, uart := s.uart.peerConn state }
  | error {code : BtErrorCode} {rest : List Submission}
      (hsub : s.bt.submitted = .error code :: rest) :
      Stepped cfg api s .process { s with bt := { s.bt with submitted := rest } }

theorem stepped {cfg : Config} {api : Base64Api} {s s' : BleSys Conn} {e : Event Conn}
    (hs : BleSys.step cfg api s e = some s') : Stepped cfg api s e s' := by
  cases e with
  | connected conn err =>
    simp only [BleSys.step] at hs
    split_ifs at hs with hguard herr
    · cases hs
      subst herr
      simp only [true_and, not_or, not_le] at hguard
      exact .connected hguard.1 hguard.2
    · cases hs
      exact .failed herr
  | disconnected conn reason =>
    simp only [BleSys.step] at hs
    split_ifs at hs with hup
    cases hs
    exact .disconnected hup
  | exchangeFunc conn err gattMtu =>
    simp only [BleSys.step] at hs
    split_ifs at hs with hmtu
    cases hs
    exact .exchangeFunc hmtu.1 hmtu.2
  | cccWrite conn value =>
    simp only [BleSys.step] at hs
    split_ifs at hs with hup
    cases hs
    exact .cccWrite hup
  | advertise err =>
    cases hs
    exact .advertise
  | btReady err nusErr =>
    cases hs
    exact .btReady
  | dequeue msg =>
    simp only [BleSys.step] at hs
    split at hs
    · next hidle =>
      cases hs
      exact .dequeue hidle
    · cases hs
  | thread stack cbErr => exact .thread hs
  | process =>
    simp only [BleSys.step] at hs
    split at hs
    · cases hs
    · next hsub =>
      cases hs
      exact .peerConn hsub
    · next hsub =>
      cases hs
      exact .error hsub

end Steps

/-! ## What each operation does to the table -/

section Operations

@[simp] theorem advertise_conns (m : Module Conn) (err : ℤ) :
    (m.advertise err).conns = m.conns := by
  simp only [Module.advertise]
  split_ifs <;> rfl

@[simp] theorem btReady_conns (m : Module Conn) (autostart : Bool) (err nusErr : ℤ) :
    (m.btReady autostart err nusErr).conns = m.conns := by
  unfold Module.btReady
  split_ifs <;> rfl

/-- Handling a message changes at most the state, the work item, the radio and
where the thread is. -/
theorem onMessage_frame (s : BleSys Conn) (msg : Msg) :
    (s.onMessage msg).bt.conns = s.bt.conns ∧ (s.onMessage msg).live = s.live ∧
      (s.onMessage msg).bt.connCnt = s.bt.connCnt ∧
      (s.onMessage msg).bt.submitted = s.bt.submitted ∧ (s.onMessage msg).uart = s.uart := by
  unfold BleSys.onMessage
  split <;> exact ⟨rfl, rfl, rfl, rfl, rfl⟩

theorem threadStep_frame {api : Base64Api} {s s' : BleSys Conn} {stack : Bytes} {cbErr : ℤ}
    (hs : s.threadStep api stack cbErr = some s') :
    s'.live = s.live ∧ s'.uart = s.uart ∧ ∃ codes : List BtErrorCode,
      s'.bt = { s.bt with submitted := s.bt.submitted ++ codes.map .error } := by
  simp only [BleSys.threadStep] at hs
  split at hs
  · cases hs
  · split at hs
    · cases hs
      exact ⟨rfl, rfl, [], by simp⟩
    · split_ifs at hs <;> cases hs <;> exact ⟨rfl, rfl, [], by simp⟩
  · split at hs
    · cases hs
    · split_ifs at hs <;> cases hs
      · exact ⟨rfl, rfl, [.base64Failed, .sendFailed], by simp [Module.submit]⟩
      · exact ⟨rfl, rfl, [.sendFailed], by simp [Module.submit]⟩
      · exact ⟨rfl, rfl, [.base64Failed], by simp [Module.submit]⟩
      · exact ⟨rfl, rfl, [], by simp⟩
      · exact ⟨rfl, rfl, [], by simp⟩

@[simp] theorem length_connected (m : Module Conn) (conn : Conn) (err : UInt8) :
    (m.connected conn err).conns.length = m.conns.length := by
  unfold Module.connected
  split_ifs <;> simp

variable [DecidableEq Conn]

@[simp] theorem length_disconnected (m : Module Conn) (conn : Conn) :
    (m.disconnected conn).conns.length = m.conns.length := by
  simp only [Module.disconnected]
  split_ifs <;> simp

@[simp] theorem length_exchangeFunc (m : Module Conn) (conn : Conn) (err : UInt8) (gattMtu : ℕ) :
    (m.exchangeFunc conn err gattMtu).conns.length = m.conns.length := by
  unfold Module.exchangeFunc
  split_ifs <;> simp

@[simp] theorem length_cccWrite (m : Module Conn) (conn : Conn) (value : UInt16) :
    (m.cccWrite conn value).conns.length = m.conns.length := by
  unfold Module.cccWrite
  split <;> simp [Module.submit]

end Operations

/-! ## The table and the stack's view -/

def Module.peers (m : Module Conn) : List Conn := m.conns.filterMap BtConnMyInfo.conn

def BleSys.peers (s : BleSys Conn) : List Conn := s.live.map Prod.fst

/-- The table has its size and holds the live connections, each in one slot. -/
structure Table (cfg : Config) (s : BleSys Conn) : Prop where
  length : s.bt.conns.length = cfg.maxConn
  room : s.live.length ≤ cfg.maxConn
  nodup : s.peers.Nodup
  peers : s.bt.peers.Perm s.peers

namespace Table

variable {cfg : Config} {s s' : BleSys Conn}

theorem start : Table cfg (BleSys.start cfg : BleSys Conn) := by
  refine ⟨by simp [BleSys.start, Module.start], Nat.zero_le _, List.nodup_nil, ?_⟩
  simp [BleSys.start, Module.start, Module.peers, BleSys.peers]

/-- A step that leaves the keys of the table and the live connections alone. -/
theorem of_same (h : Table cfg s) (hlen : s'.bt.conns.length = s.bt.conns.length)
    (hkeys : s'.bt.peers = s.bt.peers) (hlive : s'.live = s.live) : Table cfg s' where
  length := hlen ▸ h.length
  room := hlive ▸ h.room
  nodup := by simpa only [BleSys.peers, hlive] using h.nodup
  peers := by simpa only [hkeys, BleSys.peers, hlive] using h.peers

theorem of_conns_eq (h : Table cfg s) (hconns : s'.bt.conns = s.bt.conns)
    (hlive : s'.live = s.live) : Table cfg s' :=
  h.of_same (by rw [hconns]) (by simp only [Module.peers, hconns]) hlive

/-- While the stack may report one more connection, a slot is free for it. -/
theorem free (h : Table cfg s) (hroom : s.live.length < cfg.maxConn) :
    ∃ slot ∈ s.bt.conns, slot.conn = none := by
  refine exists_free BtConnMyInfo.conn ?_
  have hlen := h.peers.length_eq
  simp only [Module.peers, BleSys.peers, List.length_map] at hlen
  rw [hlen, h.length]
  exact hroom

theorem held (h : Table cfg s) {conn : Conn} (hlive : conn ∈ s.peers) :
    ∃ slot ∈ s.bt.conns, slot.conn = some conn := by
  have hmem := h.peers.mem_iff.2 hlive
  simpa only [Module.peers, List.mem_filterMap] using hmem

theorem connected (h : Table cfg s) {conn : Conn} (hnew : conn ∉ s.peers)
    (hroom : s.live.length < cfg.maxConn)
    (hbt : s'.bt = s.bt.connected conn 0) (hlive : s'.live = (conn, false) :: s.live) :
    Table cfg s' where
  length := by rw [hbt, length_connected, h.length]
  room := by simpa [hlive] using hroom
  nodup := by
    simp only [BleSys.peers, hlive, List.map_cons, List.nodup_cons]
    exact ⟨hnew, h.nodup⟩
  peers := by
    obtain ⟨slot, hslot, hfree⟩ := h.free hroom
    simp only [Module.peers, BleSys.peers, hbt, hlive, Module.connected, ne_eq, not_true_eq_false,
      if_false, List.map_cons]
    have hany : ∃ slot ∈ s.bt.conns, slot.conn.isNone = true := ⟨slot, hslot, by simp [hfree]⟩
    refine (keys_updateFirst_insert BtConnMyInfo.conn hany ?_ fun _ _ _ => rfl).trans
      (h.peers.cons conn)
    intro a _ ha
    simpa using ha

variable [DecidableEq Conn]

theorem disconnected (h : Table cfg s) {conn : Conn} (hup : conn ∈ s.peers)
    (hbt : s'.bt = s.bt.disconnected conn)
    (hlive : s'.live = s.live.filter fun peer => peer.1 ≠ conn) : Table cfg s' where
  length := by rw [hbt, length_disconnected, h.length]
  room := by
    rw [hlive]
    exact (List.length_filter_le _ _).trans h.room
  nodup := by
    rw [BleSys.peers, hlive]
    exact h.nodup.sublist (List.filter_sublist.map _)
  peers := by
    obtain ⟨slot, hslot, hconn⟩ := h.held hup
    have hconns : s'.bt.peers = (updateFirst (holds conn) (fun slot =>
        { slot with conn := none, mtu := 0, serialNotifications := false })
        s.bt.conns).filterMap BtConnMyInfo.conn := by
      rw [hbt, Module.peers, Module.disconnected]
      split_ifs <;> rfl
    have herase : s.bt.peers.Perm (conn :: s'.bt.peers) := by
      rw [hconns]
      refine keys_updateFirst_erase BtConnMyInfo.conn ⟨slot, hslot, by simp [holds, hconn]⟩ ?_
        fun _ _ _ => rfl
      intro a _ ha
      simpa [holds] using ha
    -- the stack's view loses the same connection, which it had once
    have hpeers : s'.peers = s.peers.filter fun peer => peer ≠ conn := by
      simp only [BleSys.peers, hlive, List.filter_map]
      rfl
    rw [hpeers]
    exact (perm_filter_ne id (by simpa using h.nodup) (h.peers.symm.trans herase)).symm

theorem exchangeFunc (h : Table cfg s) (conn : Conn) (err : UInt8) (gattMtu : ℕ)
    (hbt : s'.bt = s.bt.exchangeFunc conn err gattMtu) (hlive : s'.live = s.live) :
    Table cfg s' := by
  refine h.of_same (by rw [hbt, length_exchangeFunc]) ?_ hlive
  rw [hbt, Module.peers, Module.exchangeFunc]
  split_ifs
  · exact keys_updateFirst_same _ fun _ _ _ => rfl
  · rfl

theorem cccWrite (h : Table cfg s) {conn : Conn} (hup : conn ∈ s.peers) (value : UInt16)
    (hbt : s'.bt = s.bt.cccWrite conn value)
    (hlive : s'.live = (conn, decide (value = 1)) :: s.live.filter fun peer => peer.1 ≠ conn) :
    Table cfg s' := by
  -- the entry of `conn` is written anew, so the connections are the same
  have hpeers : s'.peers.Perm s.peers := by
    have hlive' : s'.peers = conn :: s.peers.filter fun peer => peer ≠ conn := by
      simp only [BleSys.peers, hlive, List.map_cons, List.filter_map]
      rfl
    rw [hlive']
    have hcons := List.perm_cons_erase hup
    exact ((perm_filter_ne id (by simpa using h.nodup) hcons).cons conn).trans hcons.symm
  have hkeys : s'.bt.peers = s.bt.peers := by
    rw [hbt, Module.peers, Module.cccWrite]
    split
    · exact keys_updateFirst_same _ fun _ _ _ => rfl
    · rfl
  refine ⟨by rw [hbt, length_cccWrite, h.length], ?_, hpeers.nodup_iff.2 h.nodup,
    hkeys ▸ h.peers.trans hpeers.symm⟩
  have hlen := hpeers.length_eq
  simp only [BleSys.peers, List.length_map] at hlen
  exact hlen ▸ h.room

theorem step {api : Base64Api} {e : Event Conn} (h : Table cfg s)
    (hs : BleSys.step cfg api s e = some s') : Table cfg s' := by
  cases stepped hs with
  | connected hnew hroom => exact h.connected hnew hroom rfl rfl
  | failed herr => exact h.of_conns_eq (by simp [Module.connected, herr]) rfl
  | disconnected hup => exact h.disconnected hup rfl rfl
  | exchangeFunc => exact h.exchangeFunc _ _ _ rfl rfl
  | cccWrite hup => exact h.cccWrite hup _ rfl rfl
  | advertise => exact h.of_conns_eq (by simp) rfl
  | btReady => exact h.of_conns_eq (by simp) rfl
  | dequeue => exact h.of_conns_eq (onMessage_frame s _).1 (onMessage_frame s _).2.1
  | thread hthread =>
    obtain ⟨hlive, -, codes, hbt⟩ := threadStep_frame hthread
    exact h.of_conns_eq (by rw [hbt]) hlive
  | peerConn => exact h.of_conns_eq rfl rfl
  | error => exact h.of_conns_eq rfl rfl

end Table

theorem table_of_run [DecidableEq Conn] {cfg : Config} {api : Base64Api}
    {ok : BleSys Conn → Event Conn → Prop} {evs : List (Event Conn)} {s : BleSys Conn}
    (h : (bleSys Conn cfg api).RunOf ok evs s) : Table cfg s :=
  h.invariant (Table cfg) Table.start fun _ _ _ hi _ hs => hi.step hs

end Heaty.Bt
