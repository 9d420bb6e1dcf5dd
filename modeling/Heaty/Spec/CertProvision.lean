import Heaty.Spec.Utils

/-! `cert_provision` of https_client.c. The modem's store of CA chains is a map from tags
to certificates, and `modem_key_mgmt` acts on it or fails. -/

namespace Heaty.Https

open Utils (cstr)

/-- `sec_tag_t`. -/
abbrev SecTag := ℤ

/-- The CA chains in the modem. -/
abbrev KeyStore := SecTag → Option Bytes

/-- The tags of main.c and mqtt_module.c. -/
def adafruitTlsSecTag : List SecTag := [1001, 1011, 24]

/-- What the calls for one tag return. The comparison is given whether the certificates
are equal, and returns 0 just for these; any other value counts as a mismatch. -/
structure KeyMgmt where
  existsErr : ℤ
  cmp : Bool → ℤ
  deleteErr : ℤ
  writeErr : ℤ
  cmp_eq_zero : ∀ equal, cmp equal = 0 ↔ equal = true

/-- The calls of `modem_key_mgmt`. -/
inductive KeyCall
  | exists (certId : SecTag)
  | cmp (certId : SecTag) (cert : Bytes)
  | delete (certId : SecTag)
  | write (certId : SecTag) (cert : Bytes)
  deriving DecidableEq

/-- Whether a call can change the store. -/
def KeyCall.modifies : KeyCall → Bool
  | .delete _ | .write _ _ => true
  | .exists _ | .cmp _ _ => false

/-- What one turn of the loop leaves. -/
structure Turn where
  err : ℤ
  store : KeyStore
  calls : List KeyCall

/-- The end of a turn, from `modem_key_mgmt_write` on. -/
def writeCert (modem : KeyMgmt) (store : KeyStore) (certId : SecTag) (cert : Bytes)
    (calls : List KeyCall) : Turn :=
  let calls := calls ++ [.write certId cert]
  if modem.writeErr ≠ 0 then ⟨modem.writeErr, store, calls⟩
  else ⟨0, Function.update store certId (some cert), calls⟩

/-- The end of a turn that has found a mismatch. -/
def replaceCert (modem : KeyMgmt) (store : KeyStore) (certId : SecTag) (cert : Bytes)
    (calls : List KeyCall) : Turn :=
  let calls := calls ++ [.delete certId]
  if modem.deleteErr ≠ 0 then ⟨modem.deleteErr, store, calls⟩
  else writeCert modem (Function.update store certId none) certId cert calls

/-- A turn for one tag and its certificate; `continue` ends it without an error. -/
def provisionCert (modem : KeyMgmt) (store : KeyStore) (certId : SecTag) (cert : Bytes) : Turn :=
  let calls := [KeyCall.exists certId]
  if modem.existsErr ≠ 0 then ⟨modem.existsErr, store, calls⟩
  else
    match store certId with
    | none => writeCert modem store certId cert calls
    | some stored =>
        let mismatch := modem.cmp (stored = cert)
        let calls := calls ++ [.cmp certId cert]
        if mismatch = 0 then ⟨0, store, calls⟩
        else replaceCert modem store certId cert calls

/-- What `cert_provision` leaves; `certIdIdx` is the index at which it returned. -/
structure Provisioned where
  err : ℤ
  store : KeyStore
  calls : List KeyCall
  certIdIdx : ℕ

/-- The loop from an index on, over the tags and certificates that are left. A certificate
is the text of its C string. -/
def provisionFrom (modem : ℕ → KeyMgmt) :
    ℕ → KeyStore → List (SecTag × Bytes) → Provisioned
  | i, store, [] => ⟨0, store, [], i⟩
  | i, store, (certId, cert) :: rest =>
      let turn := provisionCert (modem i) store certId (cstr cert)
      if turn.err ≠ 0 then ⟨turn.err, turn.store, turn.calls, i⟩
      else
        let p := provisionFrom modem (i + 1) turn.store rest
        { p with calls := turn.calls ++ p.calls }

/-- `cert_provision`. -/
def certProvision (modem : ℕ → KeyMgmt) (store : KeyStore) (certs : List (SecTag × Bytes)) :
    Provisioned :=
  provisionFrom modem 0 store certs

end Heaty.Https
