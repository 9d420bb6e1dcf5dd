import Heaty.Proofs.Conns

/-! The counter `conn_cnt` and the state beside the slot table. Nothing counts a
connection, so the counter only goes down from zero, and a failed connection
attempt leaves the module in a connected state: the two agree with the live
connections in exactly the runs in which none is ever reported. -/

namespace Heaty.Bt

variable {Conn : Type} {cfg : Config} {api : Base64Api} {s s' : BleSys Conn}
variable {evs : List (Event Conn)} {ok : BleSys Conn → Event Conn → Prop}

/-! ## What the counter counts -/

def Event.isDisconnected : Event Conn → Bool
  | .disconnected _ _ => true
  | _ => false

@[simp] theorem advertise_connCnt (m : Module Conn) (err : ℤ) :
    (m.advertise err).connCnt = m.connCnt := by
  simp only [Module.advertise]
  split_ifs <;> rfl

@[simp] theorem btReady_connCnt (m : Module Conn) (autostart : Bool) (err nusErr : ℤ) :
    (m.btReady autostart err nusErr).connCnt = m.connCnt := by
  unfold Module.btReady
  split_ifs <;> rfl

theorem connected_connCnt (m : Module Conn) (conn : Conn) (err : UInt8) :
    (m.connected conn err).connCnt = m.connCnt := by
  unfold Module.connected
  split_ifs <;> rfl

variable [DecidableEq Conn]

theorem exchangeFunc_connCnt (m : Module Conn) (conn : Conn) (err : UInt8) (gattMtu : ℕ) :
    (m.exchangeFunc conn err gattMtu).connCnt = m.connCnt := by
  unfold Module.exchangeFunc
  split_ifs <;> rfl

theorem cccWrite_connCnt (m : Module Conn) (conn : Conn) (value : UInt16) :
    (m.cccWrite conn value).connCnt = m.connCnt := by
  unfold Module.cccWrite
  split <;> rfl

theorem disconnected_connCnt (m : Module Conn) (conn : Conn) :
    (m.disconnected conn).connCnt = m.connCnt - 1 := by
  simp only [Module.disconnected]
  split_ifs <;> rfl

theorem step_connCnt {e : Event Conn} (hs : BleSys.step cfg api s e = some s') :
    s'.bt.connCnt = if e.isDisconnected then s.bt.connCnt - 1 else s.bt.connCnt := by
  cases stepped hs with
  | connected => exact connected_connCnt _ _ _
  | failed => exact connected_connCnt _ _ _
  | disconnected => exact disconnected_connCnt _ _
  | exchangeFunc => exact exchangeFunc_connCnt _ _ _ _
  | cccWrite => exact cccWrite_connCnt _ _ _
  | advertise => exact advertise_connCnt _ _
  | btReady => exact btReady_connCnt _ _ _ _
  | dequeue => exact (onMessage_frame s _).2.2.1
  | thread hthread =>
    obtain ⟨-, -, codes, hbt⟩ := threadStep_frame hthread
    rw [hbt]
    rfl
  | peerConn => rfl
  | error => rfl

theorem connCnt_of_run (h : (bleSys Conn cfg api).RunOf ok evs s) :
    s.bt.connCnt = 0 - UInt8.ofNat (evs.countP Event.isDisconnected) := by
  induction h with
  | nil => simp [bleSys, BleSys.start, Module.start]
  | @snoc evs s s' e _ _ hs ih =>
    rw [step_connCnt hs, List.countP_append, List.countP_singleton, ih]
    split_ifs
    · rw [UInt8.ofNat_add]
      grind
    · simp

/-! ## Agreement with the live connections -/

/-- The counter and the number of occupied slots are the number of live
connections, and no connection has two slots. -/
structure Counted (s : BleSys Conn) : Prop where
  count : s.bt.connCnt.toNat = s.live.length
  slots : s.bt.peers.length = s.live.length
  once : s.bt.peers.Nodup

def Event.isCallback : Event Conn → Bool
  | .connected _ _ | .disconnected _ _ => true
  | _ => false

/-- Counter, slots and state agree all along a run: at every point the first two
count the live connections, and after a callback the state says whether there is
one. -/
def Agreement (cfg : Config) (api : Base64Api) (evs : List (Event Conn)) : Prop :=
  ∀ pre s, pre <+: evs → (bleSys Conn cfg api).Run pre s →
    Counted s ∧ ∀ e, pre.getLast? = some e → e.isCallback →
      (s.bt.state.isConnected = true ↔ s.live ≠ [])

theorem Agreement.of_prefix {pre : List (Event Conn)} (h : Agreement cfg api evs)
    (hp : pre <+: evs) : Agreement cfg api pre :=
  fun pre' s hp' hrun => h pre' s (hp'.trans hp) hrun

def Event.isConnected : Event Conn → Bool
  | .connected _ _ => true
  | _ => false

structure Quiet (s : BleSys Conn) : Prop where
  live : s.live = []
  count : s.bt.connCnt = 0
  state : s.bt.state.isConnected = false

omit [DecidableEq Conn] in
theorem advertise_quiet {m : Module Conn} (hc : m.connCnt = 0) (hm : m.state.isConnected = false)
    (err : ℤ) : (m.advertise err).state.isConnected = false := by
  simp only [Module.advertise, Module.submit]
  split_ifs <;> simp_all [StateType.isConnected]

omit [DecidableEq Conn] in
theorem onMessage_quiet (hm : s.bt.state.isConnected = false) (msg : Msg) :
    (s.onMessage msg).bt.state.isConnected = false := by
  unfold BleSys.onMessage
  split <;> simp_all [StateType.isConnected]

theorem step_quiet {e : Event Conn} (h : Quiet s) (he : e.isConnected = false)
    (hs : BleSys.step cfg api s e = some s') : Quiet s' := by
  have hcount := step_connCnt hs
  cases stepped hs with
  | connected => simp [Event.isConnected] at he
  | failed => simp [Event.isConnected] at he
  | disconnected hup => simp [h.live] at hup
  | cccWrite hup => simp [h.live] at hup
  | exchangeFunc =>
    refine ⟨h.live, hcount.trans h.count, ?_⟩
    unfold Module.exchangeFunc
    split_ifs <;> exact h.state
  | advertise => exact ⟨h.live, hcount.trans h.count, advertise_quiet h.count h.state _⟩
  | btReady =>
    refine ⟨h.live, hcount.trans h.count, ?_⟩
    simp only [Module.btReady, Module.submit]
    split_ifs
    · exact h.state
    · exact h.state
    · rfl
  | dequeue =>
    exact ⟨(onMessage_frame s _).2.1.trans h.live, hcount.trans h.count,
      onMessage_quiet h.state _⟩
  | thread hthread =>
    obtain ⟨hlive, -, codes, hbt⟩ := threadStep_frame hthread
    refine ⟨hlive.trans h.live, hcount.trans h.count, ?_⟩
    rw [hbt]
    exact h.state
  | peerConn => exact ⟨h.live, h.count, h.state⟩
  | error => exact ⟨h.live, h.count, h.state⟩

theorem quiet_of_run (h : (bleSys Conn cfg api).Run evs s)
    (hnone : ∀ e ∈ evs, e.isConnected = false) : Quiet s := by
  refine (h.restrict hnone).invariant Quiet ⟨rfl, rfl, rfl⟩ ?_
  intro t e t' ht he hs
  exact step_quiet ht he hs

omit [DecidableEq Conn] in
theorem Quiet.counted (h : Quiet s) (ht : Table cfg s) : Counted s := by
  have hlen : s.bt.peers.length = s.live.length := by
    simpa [BleSys.peers] using ht.peers.length_eq
  exact ⟨by simp [h.count, h.live], hlen, ht.peers.nodup_iff.2 ht.nodup⟩

/-- The first `connected` callback already breaks the agreement: with an error it
leaves the state connected, without one the counter at zero. -/
theorem Quiet.connected_disagrees {conn : Conn} {err : UInt8} (h : Quiet s)
    (hs : BleSys.step cfg api s (.connected conn err) = some s') :
    ¬ (Counted s' ∧ (s'.bt.state.isConnected = true ↔ s'.live ≠ [])) := by
  rintro ⟨hcounted, hstate⟩
  have hcount := (step_connCnt hs).trans h.count
  cases stepped hs with
  | connected =>
    have hlen := hcounted.count
    simp only at hcount
    simp [hcount] at hlen
  | failed herr =>
    have hst : (s.bt.connected conn err).state.isConnected = true := by
      simp [Module.connected, herr, StateType.isConnected]
    exact hstate.1 hst h.live

/-- Counter, slots and state agree along a run exactly when no `connected` callback
is delivered in it. -/
theorem connCnt_agrees_iff (h : (bleSys Conn cfg api).Run evs s) :
    Agreement cfg api evs ↔ ∀ e ∈ evs, e.isConnected = false := by
  constructor
  · intro hagree
    induction h with
    | nil => simp
    | @snoc evs s s' e hrun _ hs ih =>
      have hnone := ih (hagree.of_prefix (List.prefix_append _ _))
      have he : e.isConnected = false := by
        cases e with
        | connected conn err =>
          have hend := hagree _ _ (List.prefix_refl _) (.snoc hrun trivial hs)
          have hstate := hend.2 (.connected conn err) (by simp) rfl
          exact absurd ⟨hend.1, hstate⟩
            ((quiet_of_run hrun hnone).connected_disagrees
              (show BleSys.step cfg api s _ = _ from hs))
        | _ => rfl
      intro e' he'
      rcases List.mem_append.1 he' with he' | he'
      · exact hnone e' he'
      · rwa [List.mem_singleton.1 he']
  · intro hnone pre t hp hrun
    have hquiet := quiet_of_run hrun fun e he => hnone e (hp.subset he)
    refine ⟨hquiet.counted (table_of_run hrun), fun e _ _ => ?_⟩
    simp [hquiet.state, hquiet.live]

theorem connCnt_agrees_advertising :
    ∃ s, (bleSys ℕ ⟨2, true⟩ zephyrBase64).Run [.btReady 0 0, .advertise 0] s ∧
      s.bt.state = .advertising ∧
      Agreement ⟨2, true⟩ zephyrBase64 ([.btReady 0 0, .advertise 0] : List (Event ℕ)) := by
  have hrun : ∃ s, (bleSys ℕ ⟨2, true⟩ zephyrBase64).Run [.btReady 0 0, .advertise 0] s ∧
      s.bt.state = .advertising := ⟨_, .snoc (.snoc .nil trivial rfl) trivial rfl, rfl⟩
  obtain ⟨s, hs, hstate⟩ := hrun
  exact ⟨s, hs, hstate, (connCnt_agrees_iff hs).2 (by decide)⟩

/-- One peer connects and disconnects: the counter misses the first and wraps at
the second, so that the module takes the last disconnect for another one. -/
theorem connCnt_wraps :
    ∃ s, (bleSys ℕ ⟨2, true⟩ zephyrBase64).Run
        [.btReady 0 0, .advertise 0, .connected 7 0, .disconnected 7 19] s ∧
      s.bt.connCnt = 255 ∧ s.live = [] ∧ s.bt.state = .connected ∧
      ¬ Agreement ⟨2, true⟩ zephyrBase64
        ([.btReady 0 0, .advertise 0, .connected 7 0, .disconnected 7 19] : List (Event ℕ)) := by
  have hrun : ∃ s, (bleSys ℕ ⟨2, true⟩ zephyrBase64).Run
      [.btReady 0 0, .advertise 0, .connected 7 0, .disconnected 7 19] s ∧
      s.bt.connCnt = 255 ∧ s.live = [] ∧ s.bt.state = .connected :=
    ⟨_, .snoc (.snoc (.snoc (.snoc .nil trivial rfl) trivial rfl) trivial rfl) trivial rfl,
      rfl, rfl, rfl⟩
  obtain ⟨s, hs, hcnt, hlive, hstate⟩ := hrun
  refine ⟨s, hs, hcnt, hlive, hstate, fun hagree => ?_⟩
  have hcount := (hagree _ _ (List.prefix_refl _) hs).1.count
  simp [hcnt, hlive] at hcount

end Heaty.Bt
