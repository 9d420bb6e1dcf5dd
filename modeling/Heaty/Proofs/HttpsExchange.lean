import Heaty.Spec.HttpsClient

/-! Where `send_memfault_https` sends to, and what it releases. -/

namespace Heaty.Https

variable {o : Outcomes} {fd : ℤ} {calls calls' pre : List Call} {header data : Bytes}

def Call.accepted (fd : ℤ) : Call → Bytes
  | .send fd' data res => if fd' = fd then data.take res.toNat else []
  | _ => []

def accepted (fd : ℤ) (calls : List Call) : Bytes := calls.flatMap (Call.accepted fd)

def Call.failed : Call → Bool
  | .getaddrinfo err | .setsockopt _ _ err | .connect _ err => err ≠ 0
  | .socket fd => fd < 0
  | .send _ _ res | .recv _ res => res < 0
  | _ => false

/-- Only a socket that was opened and connected is written to. -/
def Writes (calls : List Call) : Prop :=
  ∀ fd data res, .send fd data res ∈ calls → 0 ≤ fd ∧ .socket fd ∈ calls ∧ .connect fd 0 ∈ calls

/-- A connected socket has always got a first part of the text, and in the end all of
it unless a call failed. -/
def Delivers (wanted : Bytes) (calls : List Call) : Prop :=
  ∀ fd, .connect fd 0 ∈ calls → (∀ pre, pre <+: calls → accepted fd pre <+: wanted) ∧
    ((∀ c ∈ calls, c.failed = false) → accepted fd calls = wanted)

/-- Every descriptor is closed as often as it was opened. -/
def Closes (calls : List Call) : Prop :=
  ∀ fd, 0 ≤ fd → calls.count (.close fd) = calls.count (.socket fd)

/-- The list that `getaddrinfo` returned is freed, and nothing else as a list. -/
def FreesList (calls : List Call) : Prop :=
  calls.count (.freeaddrinfo true) = calls.count (.getaddrinfo 0) ∧ .freeaddrinfo false ∉ calls

def FreesHeader (calls : List Call) : Prop := calls.count .freeHeader = calls.count .mallocHeader

structure Correct (wanted : Bytes) (calls : List Call) : Prop where
  writes : Writes calls
  delivers : Delivers wanted calls
  closes : Closes calls
  list : FreesList calls
  header : FreesHeader calls

def Outcomes.Opens (o : Outcomes) : Prop := o.getaddrinfo = 0 ∧ 0 ≤ o.socket

def Outcomes.Connects (o : Outcomes) : Prop :=
  o.Opens ∧ (∀ option, o.setsockopt option = 0) ∧ o.connect = 0

theorem accepted_append (fd : ℤ) (calls calls' : List Call) :
    accepted fd (calls ++ calls') = accepted fd calls ++ accepted fd calls' :=
  List.flatMap_append

theorem prefix_accepted (h : pre <+: calls) (fd : ℤ) : accepted fd pre <+: accepted fd calls := by
  obtain ⟨rest, rfl⟩ := h
  rw [accepted_append]
  exact List.prefix_append _ _

/-- `sendData` returns; it has made sends on its descriptor only, which have put a
first part of the data into it, all of it if none of them failed. -/
structure SendsOn (fd : ℤ) (data : Bytes) (sent : Sent) : Prop where
  sends : ∀ c ∈ sent.calls, ∃ bs res, c = .send fd bs res
  nonempty : sent.calls ≠ []
  accepted : accepted fd sent.calls <+: data
  whole : sent.failed = false → Https.accepted fd sent.calls = data
  failed : sent.failed = true → ∃ c ∈ sent.calls, c.failed = true

theorem accepted_send (fd : ℤ) (data : Bytes) (res : ℤ) (calls : List Call) :
    accepted fd (.send fd data res :: calls) = data.take res.toNat ++ accepted fd calls := by
  simp [accepted, Call.accepted]

theorem SendsOn.last (fd : ℤ) (data : Bytes) {res : ℤ}
    (h : res < 0 ∨ data.drop res.toNat = []) :
    SendsOn fd data ⟨[.send fd data res], decide (res < 0)⟩ := by
  have haccepted : Https.accepted fd [.send fd data res] = data.take res.toNat := by
    rw [accepted_send]
    exact List.append_nil _
  refine ⟨by simp, by simp, ?_, fun hok => ?_, fun hfailed => ?_⟩
  · rw [haccepted]
    exact List.take_prefix _ _
  · have hdrop := h.resolve_left (of_decide_eq_false hok)
    rw [haccepted, List.take_of_length_le (List.drop_eq_nil_iff.1 hdrop)]
  · exact ⟨_, List.mem_singleton_self _, hfailed⟩

/-- One that takes a part is followed by those for the rest. -/
theorem SendsOn.cons {data : Bytes} {res : ℤ} {sent : Sent}
    (h : SendsOn fd (data.drop res.toNat) sent) :
    SendsOn fd data { sent with calls := .send fd data res :: sent.calls } := by
  have haccepted := accepted_send fd data res sent.calls
  refine ⟨fun c hc => ?_, by simp, ?_, fun hok => ?_, fun hfailed => ?_⟩
  · rcases List.mem_cons.1 hc with rfl | hc
    · exact ⟨_, _, rfl⟩
    · exact h.sends c hc
  · have hprefix := (List.prefix_append_right_inj (data.take res.toNat)).2 h.accepted
    rwa [← haccepted, List.take_append_drop] at hprefix
  · rw [haccepted, h.whole hok, List.take_append_drop]
  · obtain ⟨c, hc, hcfailed⟩ := h.failed hfailed
    exact ⟨c, List.mem_cons_of_mem _ hc, hcfailed⟩

theorem SendsOn.append {sent sent' : Sent} (h : SendsOn fd header sent)
    (hok : sent.failed = false) (h' : SendsOn fd data sent') :
    SendsOn fd (header ++ data) { sent' with calls := sent.calls ++ sent'.calls } := by
  have haccepted : Https.accepted fd (sent.calls ++ sent'.calls) =
      header ++ Https.accepted fd sent'.calls := by
    rw [accepted_append, h.whole hok]
  refine ⟨fun c hc => (List.mem_append.1 hc).elim (h.sends c) (h'.sends c),
    fun hnil => h.nonempty (List.append_eq_nil_iff.1 hnil).1, ?_, fun hok' => ?_,
    fun hfailed => ?_⟩
  · rw [haccepted, List.prefix_append_right_inj]
    exact h'.accepted
  · rw [haccepted, h'.whole hok']
  · obtain ⟨c, hc, hcfailed⟩ := h'.failed hfailed
    exact ⟨c, List.mem_append_right _ hc, hcfailed⟩

/-- Where sending has failed, there may be more data. -/
theorem SendsOn.of_failed {sent : Sent} (h : SendsOn fd header sent)
    (hfailed : sent.failed = true) (data : Bytes) : SendsOn fd (header ++ data) sent :=
  ⟨h.sends, h.nonempty, h.accepted.trans (List.prefix_append _ _),
    fun hok => absurd hfailed (by simp [hok]), h.failed⟩

theorem sendLoop_sends (o : Outcomes) (fd : ℤ) {fuel : ℕ} {rest : Bytes} (i : ℕ)
    (hfuel : rest.length < fuel) :
    ∃ sent, sendLoop o fd fuel i rest = some sent ∧ SendsOn fd rest sent := by
  induction fuel generalizing i rest with
  | zero => omega
  | succ fuel ih =>
    by_cases hneg : o.send i rest.length < 0
    · have hlast := SendsOn.last fd rest (.inl hneg)
      rw [decide_eq_true hneg] at hlast
      exact ⟨_, by rw [sendLoop, if_pos hneg], hlast⟩
    by_cases hdone : rest.drop (o.send i rest.length).toNat = []
    · have hlast := SendsOn.last fd rest (.inr hdone)
      rw [decide_eq_false hneg] at hlast
      exact ⟨_, by rw [sendLoop, if_neg hneg, if_pos hdone], hlast⟩
    have hne : rest ≠ [] := fun he => hdone (by simp [he])
    have hpos := ((o.send_returns i rest.length).resolve_left hneg).1 (by simpa using hne)
    have hlen : (rest.drop (o.send i rest.length).toNat).length < fuel := by
      have := List.length_pos_iff.2 hne
      rw [List.length_drop]
      omega
    obtain ⟨sent, hsent, h⟩ := ih (i + 1) hlen
    exact ⟨_, by rw [sendLoop, if_neg hneg, if_neg hdone, hsent]; rfl, h.cons⟩

theorem sendData_sends (o : Outcomes) (fd : ℤ) (i : ℕ) (data : Bytes) :
    ∃ sent, sendData o fd i data = some sent ∧ SendsOn fd data sent :=
  sendLoop_sends o fd i (Nat.lt_succ_self _)

/-- `handleResponse` returns, since its buffer is full at some time. -/
theorem recvLoop_recvs (o : Outcomes) (fd : ℤ) {fuel off : ℕ} (i : ℕ) (hoff : off ≤ recvBufSize)
    (hfuel : recvBufSize - off < fuel) :
    ∃ calls, recvLoop o fd fuel i off = some calls ∧ ∀ c ∈ calls, ∃ res, c = .recv fd res := by
  induction fuel generalizing i off with
  | zero => omega
  | succ fuel ih =>
    by_cases hend : o.recv i (recvBufSize - off) < 0 ∨ o.recv i (recvBufSize - off) = 0
    · exact ⟨_, by rw [recvLoop, if_pos hend], by simp⟩
    · have hmax := o.recv_returns i (recvBufSize - off)
      have hnext : off + (o.recv i (recvBufSize - off)).toNat ≤ recvBufSize := by omega
      obtain ⟨calls, hcalls, h⟩ := ih (i + 1) hnext (by omega)
      refine ⟨_, by rw [recvLoop, if_neg hend, hcalls]; rfl, fun c hc => ?_⟩
      rcases List.mem_cons.1 hc with rfl | hc
      · exact ⟨_, rfl⟩
      · exact h c hc

theorem handleResponse_recvs (o : Outcomes) (fd : ℤ) :
    ∃ calls, handleResponse o fd = some calls ∧ ∀ c ∈ calls, ∃ res, c = .recv fd res :=
  recvLoop_recvs o fd 0 (Nat.zero_le _) (Nat.lt_succ_self _)

/-- What is done between connecting and closing: nothing where there is no connection. -/
structure Transfer (fd : ℤ) (wanted : Bytes) (calls : List Call) : Prop where
  kinds : ∀ c ∈ calls, (∃ bs res, c = .send fd bs res) ∨ ∃ res, c = .recv fd res
  idle : fd < 0 → calls = []
  busy : 0 ≤ fd → ∃ bs res, Call.send fd bs res ∈ calls
  accepted : accepted fd calls <+: wanted
  whole : 0 ≤ fd → (∀ c ∈ calls, c.failed = false) → Https.accepted fd calls = wanted

theorem accepted_recvs {recvs : List Call} (h : ∀ c ∈ recvs, ∃ res, c = .recv fd res) :
    accepted fd recvs = [] := by
  refine List.flatMap_eq_nil_iff.2 fun c hc => ?_
  obtain ⟨res, rfl⟩ := h c hc
  rfl

/-- Data that was sent, and what was received after it, are a transfer. -/
theorem SendsOn.transfer {sent : Sent} {recvs : List Call} (h : SendsOn fd data sent)
    (hfd : 0 ≤ fd) (hr : ∀ c ∈ recvs, ∃ res, c = .recv fd res) :
    Transfer fd data (sent.calls ++ recvs) := by
  have haccepted : Https.accepted fd (sent.calls ++ recvs) = Https.accepted fd sent.calls := by
    rw [accepted_append, accepted_recvs hr, List.append_nil]
  refine ⟨fun c hc => (List.mem_append.1 hc).imp (h.sends c) (hr c),
    fun hneg => absurd hneg hfd.not_gt, fun _ => ?_, ?_, fun _ hok => ?_⟩
  · obtain ⟨c, hc⟩ := List.exists_mem_of_ne_nil _ h.nonempty
    obtain ⟨bs, res, rfl⟩ := h.sends c hc
    exact ⟨bs, res, List.mem_append_left _ hc⟩
  · rw [haccepted]
    exact h.accepted
  · rw [haccepted]
    refine h.whole (Bool.eq_false_of_not_eq_true fun hfailed => ?_)
    obtain ⟨c, hc, hcfailed⟩ := h.failed hfailed
    exact absurd hcfailed (by simp [hok c (List.mem_append_left _ hc)])

theorem exchangeData_transfer (o : Outcomes) (header data : Bytes) :
    ∃ transfer, exchangeData o header data =
        some ((connectToHttps o).2 ++ transfer ++ [.close (connectToHttps o).1]) ∧
      Transfer (connectToHttps o).1 (header ++ data) transfer := by
  generalize hconn : connectToHttps o = conn
  obtain ⟨fd, opening⟩ := conn
  by_cases hfd : fd < 0
  · refine ⟨[], by simp [exchangeData, hconn, hfd], ?_⟩
    exact ⟨by simp, fun _ => rfl, fun h => absurd hfd h.not_gt, List.nil_prefix,
      fun h => absurd hfd h.not_gt⟩
  have hnonneg : 0 ≤ fd := not_lt.1 hfd
  obtain ⟨sent, hsent, h⟩ := sendData_sends o fd 0 header
  by_cases hfailed : sent.failed = true
  · refine ⟨sent.calls ++ [], by simp [exchangeData, hconn, hfd, hsent, hfailed], ?_⟩
    exact (h.of_failed hfailed data).transfer hnonneg (by simp)
  obtain ⟨sent', hsent', h'⟩ := sendData_sends o fd sent.calls.length data
  have hboth := h.append (by simpa using hfailed) h'
  by_cases hfailed' : sent'.failed = true
  · refine ⟨sent.calls ++ sent'.calls ++ [], ?_, hboth.transfer hnonneg (by simp)⟩
    simp [exchangeData, hconn, hfd, hsent, hfailed, hsent', hfailed']
  obtain ⟨recvs, hrecvs, hr⟩ := handleResponse_recvs o fd
  refine ⟨sent.calls ++ sent'.calls ++ recvs, ?_, hboth.transfer hnonneg hr⟩
  simp [exchangeData, hconn, hfd, hsent, hfailed, hsent', hfailed', hrecvs]

def SetsUp (setup : List Call) : Prop :=
  ∀ c ∈ setup, (∃ fd option err, c = .setsockopt fd option err) ∨
    ∃ fd err, err ≠ 0 ∧ c = .connect fd err

theorem tlsSetup_setsUp (o : Outcomes) (fd : ℤ) : SetsUp (tlsSetup o fd).2 := by
  intro c hc
  left
  unfold tlsSetup at hc
  split_ifs at hc
  all_goals
    simp only [List.mem_cons, List.not_mem_nil, or_false] at hc
  · exact ⟨_, _, _, hc⟩
  · rcases hc with rfl | rfl <;> exact ⟨_, _, _, rfl⟩
  · rcases hc with rfl | rfl | rfl <;> exact ⟨_, _, _, rfl⟩
  · rcases hc with rfl | rfl | rfl <;> exact ⟨_, _, _, rfl⟩

theorem tlsSetup_ok (o : Outcomes) (fd : ℤ) :
    (tlsSetup o fd).1 = 0 ↔ ∀ option, o.setsockopt option = 0 := by
  constructor
  · intro h option
    unfold tlsSetup at h
    split_ifs at h with hverify hsecTag hhostname
    · exact absurd h hverify
    · exact absurd h hsecTag
    · exact absurd h hhostname
    · cases option
      · exact not_not.1 hverify
      · exact not_not.1 hsecTag
      · exact not_not.1 hhostname
  · intro h
    simp [tlsSetup, h]

theorem connectToHttps_cases (o : Outcomes) :
    (o.getaddrinfo ≠ 0 ∧
      connectToHttps o = (-1, [.getaddrinfo o.getaddrinfo, .freeaddrinfo false])) ∨
    (o.getaddrinfo = 0 ∧ o.socket < 0 ∧
      connectToHttps o = (-1, [.getaddrinfo 0, .socket o.socket, .freeaddrinfo true])) ∨
    (o.Opens ∧ ¬ o.Connects ∧ ∃ setup, SetsUp setup ∧
      connectToHttps o =
        (-1, [.getaddrinfo 0, .socket o.socket] ++ setup ++ [.freeaddrinfo true])) ∨
    (o.Connects ∧ ∃ setup, SetsUp setup ∧
      connectToHttps o =
        (0, [.getaddrinfo 0, .socket o.socket] ++ setup ++ [.connect o.socket 0])) := by
  by_cases haddr : o.getaddrinfo = 0
  · by_cases hsocket : o.socket < 0
    · refine .inr (.inl ⟨haddr, hsocket, ?_⟩)
      simp [connectToHttps, haddr, hsocket]
    · have hopens : o.Opens := ⟨haddr, by omega⟩
      have hsetup := tlsSetup_setsUp o o.socket
      by_cases htls : (tlsSetup o o.socket).1 = 0
      · by_cases hconnect : o.connect = 0
        · refine .inr (.inr (.inr ⟨⟨hopens, (tlsSetup_ok o _).1 htls, hconnect⟩, _, hsetup, ?_⟩))
          simp [connectToHttps, haddr, hsocket, htls, hconnect]
        · refine .inr (.inr (.inl ⟨hopens, fun h => hconnect h.2.2,
            (tlsSetup o o.socket).2 ++ [.connect o.socket o.connect], ?_, ?_⟩))
          · intro c hc
            rcases List.mem_append.1 hc with hc | hc
            · exact hsetup c hc
            · exact .inr ⟨_, _, hconnect, List.mem_singleton.1 hc⟩
          · simp [connectToHttps, haddr, hsocket, htls, hconnect]
      · refine .inr (.inr (.inl ⟨hopens, fun h => htls ((tlsSetup_ok o _).2 h.2.1), _, hsetup, ?_⟩))
        simp [connectToHttps, haddr, hsocket, htls]
  · exact .inl ⟨haddr, by simp [connectToHttps, haddr]⟩

theorem SetsUp.count_eq_zero {setup : List Call} (h : SetsUp setup) {c : Call}
    (hoption : ∀ fd option err, c ≠ .setsockopt fd option err)
    (hconnect : ∀ fd err, err ≠ 0 → c ≠ .connect fd err) : setup.count c = 0 := by
  refine List.count_eq_zero.2 fun hc => ?_
  rcases h c hc with ⟨fd, option, err, rfl⟩ | ⟨fd, err, herr, rfl⟩
  · exact hoption _ _ _ rfl
  · exact hconnect _ _ herr rfl

def Call.opens : Call → Bool
  | .getaddrinfo _ | .freeaddrinfo _ | .socket _ | .setsockopt _ _ _ | .connect _ _ => true
  | _ => false

theorem SetsUp.opens {setup : List Call} (h : SetsUp setup) {c : Call} (hc : c ∈ setup) :
    c.opens = true := by
  rcases h c hc with ⟨_, _, _, rfl⟩ | ⟨_, _, -, rfl⟩ <;> rfl

theorem connectToHttps_opens {c : Call} (hc : c ∈ (connectToHttps o).2) : c.opens = true := by
  rcases connectToHttps_cases o with ⟨-, hconn⟩ | ⟨-, -, hconn⟩ | ⟨-, -, setup, hsetup, hconn⟩ |
    ⟨-, setup, hsetup, hconn⟩
  all_goals
    simp only [hconn, List.mem_append, List.mem_cons, List.not_mem_nil, or_false] at hc
  · rcases hc with rfl | rfl <;> rfl
  · rcases hc with rfl | rfl | rfl <;> rfl
  · rcases hc with ((rfl | rfl) | hc) | rfl
    · rfl
    · rfl
    · exact hsetup.opens hc
    · rfl
  · rcases hc with ((rfl | rfl) | hc) | rfl
    · rfl
    · rfl
    · exact hsetup.opens hc
    · rfl

theorem notMem_connectToHttps {c : Call} (hc : c.opens = false) : c ∉ (connectToHttps o).2 :=
  fun hmem => Bool.false_ne_true (hc.symm.trans (connectToHttps_opens hmem))

theorem Transfer.count_eq_zero {wanted : Bytes} (h : Transfer fd wanted calls) {c : Call}
    (hsend : ∀ fd bs res, c ≠ .send fd bs res) (hrecv : ∀ fd res, c ≠ .recv fd res) :
    calls.count c = 0 := by
  refine List.count_eq_zero.2 fun hc => ?_
  rcases h.kinds c hc with ⟨bs, res, rfl⟩ | ⟨res, rfl⟩
  · exact hsend _ _ _ rfl
  · exact hrecv _ _ rfl

def trace (o : Outcomes) (transfer : List Call) : List Call :=
  .mallocHeader :: ((connectToHttps o).2 ++ transfer ++ [.close (connectToHttps o).1])

variable {transfer : List Call} {wanted : Bytes}

theorem trace_count (h : Transfer (connectToHttps o).1 wanted transfer) {c : Call}
    (hsend : ∀ fd bs res, c ≠ .send fd bs res) (hrecv : ∀ fd res, c ≠ .recv fd res)
    (hmalloc : c ≠ .mallocHeader) :
    (trace o transfer).count c =
      (connectToHttps o).2.count c + [Call.close (connectToHttps o).1].count c := by
  rw [trace, List.count_cons_of_ne (Ne.symm hmalloc), List.count_append, List.count_append,
    h.count_eq_zero hsend hrecv, add_zero]

theorem closes_iff (h : Transfer (connectToHttps o).1 wanted transfer) :
    Closes (trace o transfer) ↔ (o.Opens → o.Connects ∧ o.socket = 0) := by
  have hclose (fd : ℤ) := trace_count h (c := .close fd) (by simp) (by simp) (by simp)
  have hsocket (fd : ℤ) := trace_count h (c := .socket fd) (by simp) (by simp) (by simp)
  rcases connectToHttps_cases o with ⟨haddr, hconn⟩ | ⟨haddr, hneg, hconn⟩ |
    ⟨hopens, hno, setup, hsetup, hconn⟩ | ⟨hyes, setup, hsetup, hconn⟩
  · refine iff_of_true (fun fd hfd => ?_) fun hopens => absurd hopens.1 haddr
    have hne : (-1 : ℤ) ≠ fd := by omega
    simp [hclose, hsocket, hconn, hne]
  · refine iff_of_true (fun fd hfd => ?_) fun hopens => absurd hopens.2 (by omega)
    have hne : (-1 : ℤ) ≠ fd := by omega
    have hne' : o.socket ≠ fd := by omega
    simp [hclose, hsocket, hconn, hne, hne']
  · refine iff_of_false (fun hcloses => ?_) fun hyes => hno (hyes hopens).1
    have hcount := hcloses o.socket hopens.2
    have hne : (-1 : ℤ) ≠ o.socket := by have := hopens.2; omega
    have hset : setup.count (.close o.socket) = 0 := hsetup.count_eq_zero (by simp) (by simp)
    have hset' : setup.count (.socket o.socket) = 0 := hsetup.count_eq_zero (by simp) (by simp)
    simp [hclose, hsocket, hconn, hset, hset', hne] at hcount
  · have hset (fd : ℤ) : setup.count (.close fd) = 0 := hsetup.count_eq_zero (by simp) (by simp)
    have hset' (fd : ℤ) : setup.count (.socket fd) = 0 := hsetup.count_eq_zero (by simp) (by simp)
    have hcloses : Closes (trace o transfer) ↔
        ∀ fd : ℤ, 0 ≤ fd → ((if 0 = fd then 1 else 0) = if o.socket = fd then 1 else 0) := by
      simp [Closes, hclose, hsocket, hconn, List.count_cons, hset, hset']
    rw [hcloses]
    constructor
    · intro hall _
      refine ⟨hyes, ?_⟩
      have hsame := hall 0 le_rfl
      by_contra hne
      simp [hne] at hsame
    · intro hzero fd _
      rw [(hzero hyes.1).2]

theorem freesList_iff (h : Transfer (connectToHttps o).1 wanted transfer) :
    FreesList (trace o transfer) ↔ o.getaddrinfo = 0 ∧ ¬ o.Connects := by
  have hfreed := trace_count h (c := .freeaddrinfo true) (by simp) (by simp) (by simp)
  have hreturned := trace_count h (c := .getaddrinfo 0) (by simp) (by simp) (by simp)
  have hwrong := trace_count h (c := .freeaddrinfo false) (by simp) (by simp) (by simp)
  rw [FreesList, ← List.count_eq_zero, hfreed, hreturned, hwrong]
  rcases connectToHttps_cases o with ⟨haddr, hconn⟩ | ⟨haddr, hneg, hconn⟩ |
    ⟨hopens, hno, setup, hsetup, hconn⟩ | ⟨hyes, setup, hsetup, hconn⟩
  · refine iff_of_false ?_ fun hyes => haddr hyes.1
    simp [hconn, List.count_cons]
  · have hno : ¬ o.Connects := fun hyes => absurd hyes.1.2 (by omega)
    refine iff_of_true ?_ ⟨haddr, hno⟩
    simp [hconn]
  · have hset (c) : setup.count (.freeaddrinfo c) = 0 := hsetup.count_eq_zero (by simp) (by simp)
    have hset' : setup.count (.getaddrinfo 0) = 0 := hsetup.count_eq_zero (by simp) (by simp)
    refine iff_of_true ?_ ⟨hopens.1, hno⟩
    simp [hconn, hset, hset']
  · have hset (c) : setup.count (.freeaddrinfo c) = 0 := hsetup.count_eq_zero (by simp) (by simp)
    have hset' : setup.count (.getaddrinfo 0) = 0 := hsetup.count_eq_zero (by simp) (by simp)
    refine iff_of_false ?_ fun hno => hno.2 hyes
    simp [hconn, hset, hset']

theorem not_freesHeader (h : Transfer (connectToHttps o).1 wanted transfer) :
    ¬ FreesHeader (trace o transfer) := by
  have hfreed := trace_count h (c := .freeHeader) (by simp) (by simp) (by simp)
  have hnone : (connectToHttps o).2.count .freeHeader = 0 :=
    List.count_eq_zero.2 (notMem_connectToHttps rfl)
  have hmalloc : 0 < (trace o transfer).count .mallocHeader :=
    List.count_pos_iff.2 List.mem_cons_self
  rw [FreesHeader, hfreed, hnone]
  simp only [List.count_singleton, reduceCtorEq, beq_iff_eq, if_false]
  omega

theorem connectToHttps_fails (h : ¬ o.Connects) : (connectToHttps o).1 = -1 := by
  rcases connectToHttps_cases o with ⟨-, hconn⟩ | ⟨-, -, hconn⟩ | ⟨-, -, setup, -, hconn⟩ |
    ⟨hyes, -⟩
  · rw [hconn]
  · rw [hconn]
  · rw [hconn]
  · exact absurd hyes h

theorem connectToHttps_connects (h : o.Connects) : ∃ setup, SetsUp setup ∧
    connectToHttps o =
      (0, [.getaddrinfo 0, .socket o.socket] ++ setup ++ [.connect o.socket 0]) := by
  rcases connectToHttps_cases o with ⟨haddr, -⟩ | ⟨-, hneg, -⟩ | ⟨-, hno, -⟩ | ⟨-, hconn⟩
  · exact absurd h.1.1 haddr
  · exact absurd h.1.2 (by omega)
  · exact absurd h hno
  · exact hconn

theorem writes_iff (h : Transfer (connectToHttps o).1 wanted transfer) :
    Writes (trace o transfer) ↔ (o.Connects → o.socket = 0) := by
  by_cases hyes : o.Connects
  · obtain ⟨setup, hsetup, hconn⟩ := connectToHttps_connects hyes
    rw [hconn] at h
    have hsend (fd : ℤ) (bs : Bytes) (res : ℤ) : Call.send fd bs res ∉ setup :=
      List.count_eq_zero.1 (hsetup.count_eq_zero (by simp) (by simp))
    have hconnect (fd : ℤ) : Call.connect fd 0 ∉ setup := by
      refine List.count_eq_zero.1 (hsetup.count_eq_zero (by simp) fun fd' err herr he => ?_)
      cases he
      exact herr rfl
    have hconnect' (fd : ℤ) : Call.connect fd 0 ∉ transfer :=
      List.count_eq_zero.1 (h.count_eq_zero (by simp) (by simp))
    constructor
    · intro hwrites _
      obtain ⟨bs, res, hbusy⟩ := h.busy le_rfl
      obtain ⟨-, -, hmem⟩ := hwrites 0 bs res (by simp [trace, hconn, hbusy])
      simpa [trace, hconn, hconnect, hconnect', eq_comm] using hmem
    · intro hzero fd bs res hmem
      have htransfer : Call.send fd bs res ∈ transfer := by
        simpa [trace, hconn, hsend] using hmem
      have hfd : fd = 0 := by
        rcases h.kinds _ htransfer with ⟨bs', res', he⟩ | ⟨res', he⟩
        · exact (Call.send.inj he).1
        · cases he
      simp [trace, hconn, hfd, hzero hyes]
  · refine iff_of_true (fun fd bs res hmem => ?_) (absurd · hyes)
    have hnone : transfer = [] := h.idle (by rw [connectToHttps_fails hyes]; decide)
    have hopening : Call.send fd bs res ∉ (connectToHttps o).2 := notMem_connectToHttps rfl
    simp [trace, hnone, hopening] at hmem

theorem accepted_trace (o : Outcomes) (transfer : List Call) (fd : ℤ) :
    accepted fd (trace o transfer) = accepted fd transfer := by
  have hopening : accepted fd (connectToHttps o).2 = [] := by
    refine List.flatMap_eq_nil_iff.2 fun c hc => ?_
    have hopens := connectToHttps_opens hc
    cases c with
    | send => exact absurd hopens (by simp [Call.opens])
    | _ => rfl
  have hclose : accepted fd [Call.close (connectToHttps o).1] = [] := rfl
  have hcons : accepted fd (trace o transfer) =
      accepted fd ((connectToHttps o).2 ++ transfer ++ [.close (connectToHttps o).1]) := rfl
  rw [hcons, accepted_append, accepted_append, hopening, hclose, List.nil_append, List.append_nil]

/-- What `send_memfault_https` does once it is past the LTE connection. -/
theorem sendMemfaultHttps_trace (hlte : o.lteLcInitAndConnect = 0)
    (hostname deviceSerial projectKey data : Bytes) :
    ∃ transfer, sendMemfaultHttps o hostname deviceSerial projectKey data =
        some (trace o transfer) ∧
      Transfer (connectToHttps o).1 (sentHeader o hostname deviceSerial projectKey data ++ data)
        transfer := by
  obtain ⟨transfer, htransfer, h⟩ :=
    exchangeData_transfer o (sentHeader o hostname deviceSerial projectKey data) data
  exact ⟨transfer, by simp [sendMemfaultHttps, hlte, htransfer, trace], h⟩

/-- The call never frees its header. It sends to descriptor 0, and closes that, instead
of its socket; it closes a socket in no other case; and it frees the list just where it
does not connect. What it puts into descriptor 0 would be right. -/
theorem sendMemfaultHttps_incorrect (hlte : o.lteLcInitAndConnect = 0)
    (hostname deviceSerial projectKey data : Bytes) :
    let wanted := sentHeader o hostname deviceSerial projectKey data ++ data
    ∃ calls, sendMemfaultHttps o hostname deviceSerial projectKey data = some calls ∧
      ¬ Correct wanted calls ∧ ¬ FreesHeader calls ∧
      (Writes calls ↔ (o.Connects → o.socket = 0)) ∧
      (Closes calls ↔ (o.Opens → o.Connects ∧ o.socket = 0)) ∧
      (FreesList calls ↔ o.getaddrinfo = 0 ∧ ¬ o.Connects) ∧
      (∀ pre, pre <+: calls → accepted 0 pre <+: wanted) ∧
      (o.Connects → (∀ c ∈ calls, c.failed = false) → accepted 0 calls = wanted) := by
  obtain ⟨transfer, htransfer, h⟩ :=
    sendMemfaultHttps_trace hlte hostname deviceSerial projectKey data
  refine ⟨trace o transfer, htransfer, fun hcorrect => not_freesHeader h hcorrect.header,
    not_freesHeader h, writes_iff h, closes_iff h, freesList_iff h, fun pre hpre => ?_,
    fun hyes hok => ?_⟩
  · refine (prefix_accepted hpre 0).trans ?_
    rw [accepted_trace]
    by_cases hyes : o.Connects
    · obtain ⟨setup, -, hconn⟩ := connectToHttps_connects hyes
      have haccepted := h.accepted
      rwa [hconn] at haccepted
    · rw [h.idle (by rw [connectToHttps_fails hyes]; decide)]
      exact List.nil_prefix
  · obtain ⟨setup, -, hconn⟩ := connectToHttps_connects hyes
    have hwhole := h.whole
    rw [hconn] at hwhole
    rw [accepted_trace]
    refine hwhole le_rfl fun c hc => hok c ?_
    exact List.mem_cons_of_mem _ (List.mem_append_left _ (List.mem_append_right _ hc))

/-- An environment in which every call succeeds and the socket is number 5, or in which
the name is not found. -/
def reached (getaddrinfo : ℤ) : Outcomes where
  lteLcInitAndConnect := 0
  headerMem := List.replicate 300 0
  getaddrinfo := getaddrinfo
  socket := 5
  setsockopt _ := 0
  connect := 0
  send _ n := n
  recv _ _ := 0
  send_returns _ n := by omega
  recv_returns _ n := by omega

theorem sendMemfaultHttps_incorrect_unknown :
    ∃ calls, sendMemfaultHttps (reached 11) (text "h") (text "s") (text "k") [1] = some calls ∧
      ¬ FreesHeader calls ∧ Closes calls ∧ ¬ FreesList calls := by
  obtain ⟨calls, hcalls, -, hheader, -, hcloses, hlist, -⟩ :=
    sendMemfaultHttps_incorrect (o := reached 11) rfl (text "h") (text "s") (text "k") [1]
  refine ⟨calls, hcalls, hheader, hcloses.2 fun hopens => ?_, fun hfrees => ?_⟩
  · exact absurd hopens.1 (by decide)
  · exact absurd (hlist.1 hfrees).1 (by decide)

/-- With everything going well, the header and the data go to descriptor 0. -/
theorem sendMemfaultHttps_strays :
    ∃ calls, sendMemfaultHttps (reached 0) (text "h") (text "s") (text "k") [1] = some calls ∧
      ¬ Writes calls ∧ ¬ Closes calls ∧ ¬ FreesList calls ∧ ¬ FreesHeader calls ∧
      ¬ Correct (sentHeader (reached 0) (text "h") (text "s") (text "k") [1] ++ [1]) calls := by
  obtain ⟨transfer, htransfer, h⟩ :=
    sendMemfaultHttps_trace (o := reached 0) rfl (text "h") (text "s") (text "k") [1]
  have hopens : (reached 0).Opens := ⟨rfl, by decide⟩
  have hyes : (reached 0).Connects := ⟨hopens, fun _ => rfl, rfl⟩
  have hnot : ¬ Writes (trace (reached 0) transfer) := fun hwrites =>
    absurd ((writes_iff h).1 hwrites hyes) (by decide)
  refine ⟨_, htransfer, hnot, fun hcloses => ?_, fun hlist => ?_, not_freesHeader h,
    fun hcorrect => hnot hcorrect.writes⟩
  · exact absurd ((closes_iff h).1 hcloses hopens).2 (by decide)
  · exact ((freesList_iff h).1 hlist).2 hyes

end Heaty.Https
