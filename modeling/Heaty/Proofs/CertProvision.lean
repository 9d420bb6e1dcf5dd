import Heaty.Spec.CertProvision

/-! What `cert_provision` leaves in the modem: the listed certificates up to where it
stopped, and nothing else changed. -/

namespace Heaty.Https

open Utils (cstr)

variable {modem : KeyMgmt} {modems : ℕ → KeyMgmt} {store : KeyStore} {certId tag : SecTag}
  {cert : Bytes} {certs : List (SecTag × Bytes)} {calls : List KeyCall} {i : ℕ}

/-! ## One turn -/

theorem writeCert_others (h : tag ≠ certId) :
    (writeCert modem store certId cert calls).store tag = store tag := by
  unfold writeCert
  split_ifs
  · rfl
  · exact Function.update_of_ne h _ _

theorem writeCert_holds (h : (writeCert modem store certId cert calls).err = 0) :
    (writeCert modem store certId cert calls).store certId = some cert := by
  unfold writeCert at h ⊢
  split_ifs at h ⊢ with hwrite
  · exact absurd h hwrite
  · exact Function.update_self _ _ _

theorem replaceCert_others (h : tag ≠ certId) :
    (replaceCert modem store certId cert calls).store tag = store tag := by
  unfold replaceCert
  split_ifs
  · rfl
  · rw [writeCert_others h, Function.update_of_ne h]

theorem replaceCert_holds (h : (replaceCert modem store certId cert calls).err = 0) :
    (replaceCert modem store certId cert calls).store certId = some cert := by
  unfold replaceCert at h ⊢
  split_ifs at h ⊢ with hdelete
  · exact absurd h hdelete
  · exact writeCert_holds h

/-- What a turn meets: an error, no certificate, the right one, or another. -/
theorem provisionCert_cases (modem : KeyMgmt) (store : KeyStore) (certId : SecTag)
    (cert : Bytes) :
    (∃ err ≠ 0, ∃ calls, provisionCert modem store certId cert = ⟨err, store, calls⟩) ∨
      (∃ calls, provisionCert modem store certId cert =
        writeCert modem store certId cert calls) ∨
      (store certId = some cert ∧ ∃ calls,
        provisionCert modem store certId cert = ⟨0, store, calls⟩) ∨
      ∃ calls, provisionCert modem store certId cert =
        replaceCert modem store certId cert calls := by
  by_cases hexists : modem.existsErr = 0
  · cases hstored : store certId with
    | none =>
      refine Or.inr (Or.inl ⟨[.exists certId], ?_⟩)
      simp [provisionCert, hexists, hstored]
    | some stored =>
      by_cases hmatch : stored = cert
      · have hzero : modem.cmp true = 0 := (modem.cmp_eq_zero _).2 rfl
        refine Or.inr (Or.inr (Or.inl ⟨by rw [hmatch], [.exists certId, .cmp certId cert], ?_⟩))
        simp [provisionCert, hexists, hstored, hmatch, hzero]
      · have hother : modem.cmp false ≠ 0 := fun h => by
          simpa using (modem.cmp_eq_zero _).1 h
        refine Or.inr (Or.inr (Or.inr ⟨[.exists certId, .cmp certId cert], ?_⟩))
        simp [provisionCert, hexists, hstored, hmatch, hother]
  · exact Or.inl ⟨modem.existsErr, hexists, [.exists certId], if_pos hexists⟩

theorem provisionCert_others (modem : KeyMgmt) (store : KeyStore) (cert : Bytes)
    (h : tag ≠ certId) :
    (provisionCert modem store certId cert).store tag = store tag := by
  rcases provisionCert_cases modem store certId cert with
    ⟨err, -, calls, he⟩ | ⟨calls, he⟩ | ⟨-, calls, he⟩ | ⟨calls, he⟩
  · rw [he]
  · rw [he, writeCert_others h]
  · rw [he]
  · rw [he, replaceCert_others h]

theorem provisionCert_holds (h : (provisionCert modem store certId cert).err = 0) :
    (provisionCert modem store certId cert).store certId = some cert := by
  rcases provisionCert_cases modem store certId cert with
    ⟨err, herr, calls, he⟩ | ⟨calls, he⟩ | ⟨hmatch, calls, he⟩ | ⟨calls, he⟩
  · rw [he] at h
    exact absurd h herr
  · rw [he] at h ⊢
    exact writeCert_holds h
  · rw [he]
    exact hmatch
  · rw [he] at h ⊢
    exact replaceCert_holds h

theorem provisionCert_match (modem : KeyMgmt) (h : store certId = some cert) :
    (provisionCert modem store certId cert).store = store ∧
      ∀ call ∈ (provisionCert modem store certId cert).calls, call.modifies = false := by
  have hmatch : modem.cmp true = 0 := (modem.cmp_eq_zero _).2 rfl
  by_cases hexists : modem.existsErr = 0
  · simp [provisionCert, hexists, h, hmatch, KeyCall.modifies]
  · simp [provisionCert, hexists, KeyCall.modifies]

/-- No call of the modem fails. A mismatch is no failure. -/
def KeyMgmt.Succeeds (modem : KeyMgmt) : Prop :=
  modem.existsErr = 0 ∧ modem.deleteErr = 0 ∧ modem.writeErr = 0

theorem provisionCert_succeeds (h : modem.Succeeds) (store : KeyStore) (certId : SecTag)
    (cert : Bytes) : (provisionCert modem store certId cert).err = 0 := by
  obtain ⟨hexists, hdelete, hwrite⟩ := h
  have hwritten (store : KeyStore) (calls : List KeyCall) :
      (writeCert modem store certId cert calls).err = 0 := by
    simp [writeCert, hwrite]
  cases hstored : store certId with
  | none => simp [provisionCert, hexists, hstored, hwritten]
  | some stored =>
    by_cases hmismatch : modem.cmp (stored = cert) = 0
    · simp [provisionCert, hexists, hstored, hmismatch]
    · simp [provisionCert, hexists, hstored, hmismatch, replaceCert, hdelete, hwritten]

/-! ## The loop -/

def KeyStore.Holds (store : KeyStore) (c : SecTag × Bytes) : Prop := store c.1 = some (cstr c.2)

theorem provisionFrom_others (modems : ℕ → KeyMgmt) (i : ℕ) (store : KeyStore)
    (h : tag ∉ certs.map Prod.fst) :
    (provisionFrom modems i store certs).store tag = store tag := by
  induction certs generalizing i store with
  | nil => rfl
  | cons c rest ih =>
    rw [List.map_cons, List.mem_cons, not_or] at h
    have hturn := provisionCert_others (modems i) store (cstr c.2) h.1
    simp only [provisionFrom]
    split_ifs
    · exact hturn
    · rw [ih _ _ h.2, hturn]

theorem provisionFrom_holds (hnodup : (certs.map Prod.fst).Nodup)
    (h : (provisionFrom modems i store certs).err = 0) :
    ∀ c ∈ certs, (provisionFrom modems i store certs).store.Holds c := by
  induction certs generalizing i store with
  | nil => simp
  | cons c rest ih =>
    rw [List.map_cons, List.nodup_cons] at hnodup
    simp only [provisionFrom] at h ⊢
    split_ifs at h ⊢ with herr
    · exact absurd h herr
    · rw [not_not] at herr
      rw [List.forall_mem_cons]
      refine ⟨?_, ih hnodup.2 h⟩
      -- the turns that follow are for other tags
      have hlater := provisionFrom_others modems (i + 1)
        (provisionCert (modems i) store c.1 (cstr c.2)).store hnodup.1
      exact hlater.trans (provisionCert_holds herr)

theorem provisionFrom_succeeds (h : ∀ i, (modems i).Succeeds) (i : ℕ) (store : KeyStore)
    (certs : List (SecTag × Bytes)) : (provisionFrom modems i store certs).err = 0 := by
  induction certs generalizing i store with
  | nil => rfl
  | cons c rest ih =>
    have hturn := provisionCert_succeeds (h i) store c.1 (cstr c.2)
    simp only [provisionFrom, hturn, ne_eq, not_true_eq_false, if_false]
    exact ih _ _

/-- At an error, the turns before have left their certificates and those after have not
been made. -/
theorem provisionFrom_fails (modems : ℕ → KeyMgmt) (i : ℕ) (store : KeyStore)
    (hnodup : (certs.map Prod.fst).Nodup)
    (h : (provisionFrom modems i store certs).err ≠ 0) :
    ∃ k < certs.length, (provisionFrom modems i store certs).certIdIdx = i + k ∧
      (∀ c ∈ certs.take k, (provisionFrom modems i store certs).store.Holds c) ∧
      ∀ tag ∉ (certs.take (k + 1)).map Prod.fst,
        (provisionFrom modems i store certs).store tag = store tag := by
  induction certs generalizing i store with
  | nil => exact absurd rfl h
  | cons c rest ih =>
    rw [List.map_cons, List.nodup_cons] at hnodup
    simp only [provisionFrom] at h ⊢
    split_ifs at h ⊢ with herr
    · refine ⟨0, Nat.zero_lt_succ _, rfl, by simp, fun tag htag => ?_⟩
      exact provisionCert_others _ _ _ (by simpa using htag)
    · obtain ⟨k, hk, hidx, hholds, hsame⟩ := ih _ _ hnodup.2 h
      rw [not_not] at herr
      have hturn := provisionCert_holds herr
      refine ⟨k + 1, Nat.succ_lt_succ hk, ?_, ?_, fun tag htag => ?_⟩
      · dsimp only
        rw [hidx]
        omega
      · rw [List.take_succ_cons, List.forall_mem_cons]
        refine ⟨?_, hholds⟩
        have hlater : c.1 ∉ (rest.take (k + 1)).map Prod.fst := fun hmem =>
          hnodup.1 (List.map_subset _ (List.take_subset _ _) hmem)
        exact (hsame _ hlater).trans hturn
      · rw [List.take_succ_cons, List.map_cons, List.mem_cons, not_or] at htag
        exact (hsame tag htag.2).trans (provisionCert_others _ _ _ htag.1)

theorem provisionFrom_match (h : ∀ c ∈ certs, store.Holds c) :
    ∀ call ∈ (provisionFrom modems i store certs).calls, call.modifies = false := by
  induction certs generalizing i with
  | nil => simp [provisionFrom]
  | cons c rest ih =>
    rw [List.forall_mem_cons] at h
    obtain ⟨hstore, hcalls⟩ := provisionCert_match (modems i) h.1
    simp only [provisionFrom]
    split_ifs
    · exact hcalls
    · rw [hstore]
      intro call hcall
      rcases List.mem_append.1 hcall with hcall | hcall
      · exact hcalls call hcall
      · exact ih h.2 call hcall

/-! ## The call -/

/-- What a call leaves of a store: after a success, the listed certificates, which another
call only looks at; after an error, those before the index at which it stopped. There is none
unless a call of the modem fails. -/
structure Provisions (modems : ℕ → KeyMgmt) (store : KeyStore) (certs : List (SecTag × Bytes))
    (p : Provisioned) : Prop where
  succeeds : (∀ i, (modems i).Succeeds) → p.err = 0
  holds : p.err = 0 → ∀ c ∈ certs, p.store.Holds c
  again : p.err = 0 → ∀ modems, ∀ call ∈ (certProvision modems p.store certs).calls,
    call.modifies = false
  stopped : p.err ≠ 0 → p.certIdIdx < certs.length
  before : p.err ≠ 0 → ∀ c ∈ certs.take p.certIdIdx, p.store.Holds c
  after : p.err ≠ 0 → ∀ c ∈ certs.drop (p.certIdIdx + 1), p.store c.1 = store c.1
  unlisted : ∀ tag ∉ certs.map Prod.fst, p.store tag = store tag

/-- With distinct tags, every call does so, whichever of the modem's calls fail. -/
theorem certProvision_provisions (modems : ℕ → KeyMgmt) (store : KeyStore)
    (certs : List (SecTag × Bytes)) (hnodup : (certs.map Prod.fst).Nodup) :
    Provisions modems store certs (certProvision modems store certs) := by
  have hfails := provisionFrom_fails modems 0 store hnodup
  refine ⟨fun h => provisionFrom_succeeds h 0 store certs, provisionFrom_holds hnodup,
    fun h modems => ?_, fun h => ?_, fun h => ?_, fun h => ?_,
    fun tag htag => provisionFrom_others _ _ _ htag⟩
  · exact provisionFrom_match (provisionFrom_holds hnodup h)
  all_goals
    obtain ⟨k, hk, hidx, hholds, hsame⟩ := hfails h
    rw [Nat.zero_add] at hidx
    rw [certProvision, hidx]
  · exact hk
  · exact hholds
  · intro c hc
    apply hsame
    -- the tag stands once in the list
    rw [← List.take_append_drop (k + 1) certs, List.map_append, List.nodup_append] at hnodup
    intro hmem
    exact hnodup.2.2 _ hmem _ (List.mem_map_of_mem hc) rfl

def failingModem (failing : ℕ) (i : ℕ) : KeyMgmt where
  existsErr := 0
  cmp equal := if equal then 0 else 1
  deleteErr := 0
  writeErr := if i = failing then -5 else 0
  cmp_eq_zero equal := by cases equal <;> decide

def outdated : KeyStore := fun tag => if tag = 1011 then some [9] else none

/-- The first certificate is written; the second is deleted, but not written again. -/
theorem certProvision_provisions_adafruit :
    (certProvision (failingModem 1) outdated (adafruitTlsSecTag.zip [[1], [2], [3]])).certIdIdx =
        1 ∧
      Provisions (failingModem 1) outdated (adafruitTlsSecTag.zip [[1], [2], [3]])
        (certProvision (failingModem 1) outdated (adafruitTlsSecTag.zip [[1], [2], [3]])) :=
  ⟨by decide, certProvision_provisions _ _ _ (by decide)⟩

end Heaty.Https
