import Heaty.Spec.Mqtt
import Heaty.Spec.MqttClient

/-! When `broker_init` finds the broker, says so, and frees the resolver's list. -/

namespace Heaty.Mqtt

variable {libTls callbacks : Bool} {info : ClientInfo} {broker : SockaddrIn}
  {resolved : Resolved} {addrs : List AddrInfo} {addr : AddrInfo} {port : ℤ}

def AddrInfo.IsIpv4 (addr : AddrInfo) : Prop := addr.aiAddrlen = sizeofSockaddrIn

instance (addr : AddrInfo) : Decidable addr.IsIpv4 := inferInstanceAs (Decidable (_ = _))

def Resolved.Found (resolved : Resolved) : Prop :=
  ∃ addrs, resolved = .obtained addrs ∧ ∃ addr ∈ addrs, addr.IsIpv4

/-- What is wanted of the initialization: 0 just for a list that has an IPv4 address, of
which the first one and the port are taken, the whole list freed once, and else an error. -/
structure BrokerContract (libTls : Bool) (info : ClientInfo) (broker : SockaddrIn)
    (callbacks : Bool) (resolved : Resolved) : Prop where
  ret : (brokerInit info broker resolved).err = 0 ↔ resolved.Found
  address : ∀ addrs addr, resolved = .obtained addrs →
    addrs.find? (fun a => decide a.IsIpv4) = some addr →
    (brokerInit info broker resolved).broker = ⟨afInet, htons info.brokerPort, addr.sAddr⟩
  freed : (brokerInit info broker resolved).freed = resolved.lists
  fails : ¬ resolved.Found →
    (mqttClientModuleInit libTls info broker callbacks resolved).err ≠ 0

/-! ## The loop -/

theorem brokerLoop_match (h : addr.IsIpv4) :
    brokerLoop port broker (addr :: addrs) =
      (⟨afInet, htons port, addr.sAddr⟩, addr :: addrs) := if_pos h

theorem brokerLoop_next (h : ¬ addr.IsIpv4) :
    brokerLoop port broker (addr :: addrs) = brokerLoop port broker addrs := if_neg h

theorem brokerLoop_find (h : addrs.find? (fun a => decide a.IsIpv4) = some addr) :
    (brokerLoop port broker addrs).1 = ⟨afInet, htons port, addr.sAddr⟩ := by
  induction addrs with
  | nil => cases h
  | cons a rest ih =>
    by_cases ha : a.IsIpv4
    · rw [List.find?_cons_of_pos (by simpa using ha), Option.some.injEq] at h
      subst h
      rw [brokerLoop_match ha]
    · rw [List.find?_cons_of_neg (by simpa using ha)] at h
      rw [brokerLoop_next ha]
      exact ih h

theorem brokerLoop_suffix (port : ℤ) (broker : SockaddrIn) (addrs : List AddrInfo) :
    (brokerLoop port broker addrs).2 = addrs.dropWhile fun a => !decide a.IsIpv4 := by
  induction addrs with
  | nil => rfl
  | cons a rest ih =>
    by_cases ha : a.IsIpv4
    · rw [brokerLoop_match ha, List.dropWhile_cons_of_neg (by simpa using ha)]
    · rw [brokerLoop_next ha, List.dropWhile_cons_of_pos (by simpa using ha), ih]

/-! ## The contract -/

theorem found_obtained : (Resolved.obtained addrs).Found ↔ ∃ addr ∈ addrs, addr.IsIpv4 := by
  constructor
  · rintro ⟨_, h, hfound⟩
    cases h
    exact hfound
  · exact fun h => ⟨addrs, rfl, h⟩

theorem not_found_failed {err : ℤ} {ne : err ≠ 0} : ¬ (Resolved.failed err ne).Found := by
  rintro ⟨_, h, -⟩
  cases h

theorem echild_ne_zero : -echild ≠ 0 := by decide

theorem brokerContract_failed (err : ℤ) (ne : err ≠ 0) :
    BrokerContract libTls info broker callbacks (.failed err ne) where
  ret := iff_of_false echild_ne_zero not_found_failed
  address _ _ h := by cases h
  freed := rfl
  fails _ := echild_ne_zero

theorem brokerContract_obtained :
    BrokerContract libTls info broker callbacks (.obtained addrs) ↔
      ∃ addr ∈ addrs.head?, addr.IsIpv4 := by
  constructor
  · intro h
    -- the resolver's 0 is returned whatever was found
    obtain ⟨addr, haddr, hipv4⟩ := found_obtained.1 (h.ret.1 rfl)
    cases addrs with
    | nil => cases haddr
    | cons a rest =>
      refine ⟨a, rfl, ?_⟩
      by_contra ha
      have hfreed : [(brokerLoop info.brokerPort broker (a :: rest)).2] = [a :: rest] := h.freed
      rw [brokerLoop_suffix, List.dropWhile_cons_of_pos (by simpa using ha),
        List.cons.injEq] at hfreed
      have hlength := congrArg List.length hfreed.1
      have hle := (List.dropWhile_suffix (fun a => !decide (AddrInfo.IsIpv4 a))
        (l := rest)).length_le
      rw [List.length_cons] at hlength
      omega
  · rintro ⟨a, ha, hipv4⟩
    have hmem : a ∈ addrs := List.mem_of_mem_head? ha
    have hfound : (Resolved.obtained addrs).Found := found_obtained.2 ⟨a, hmem, hipv4⟩
    refine ⟨iff_of_true rfl hfound, fun addrs' addr h haddr => ?_, ?_, fun h => absurd hfound h⟩
    · cases h
      exact brokerLoop_find haddr
    · obtain ⟨rest, rfl⟩ := List.head?_eq_some_iff.1 ha
      change [(brokerLoop info.brokerPort broker (a :: rest)).2] = [a :: rest]
      rw [brokerLoop_match hipv4]

/-- The contract is met just where the resolver fails, or the first entry of its list has
an IPv4 address. -/
theorem brokerInit_contract_iff :
    BrokerContract libTls info broker callbacks resolved ↔
      ∀ addrs, resolved = .obtained addrs → ∃ addr ∈ addrs.head?, addr.IsIpv4 := by
  cases resolved with
  | failed err ne => exact iff_of_true (brokerContract_failed err ne) fun _ h => by cases h
  | obtained addrs =>
    rw [brokerContract_obtained]
    constructor
    · rintro h _ ⟨⟩
      exact h
    · exact fun h => h addrs rfl

def exampleInfo : ClientInfo := ⟨text "h", 8883, text "c", text "u", text "p", [24], 2, false⟩

/-- A list of one IPv6 address is reported as a success, and not freed. -/
theorem ipv6_breaks :
    (brokerInit exampleInfo ⟨0, 0, 0⟩ (.obtained [⟨24, 1⟩])).err = 0 ∧
      (brokerInit exampleInfo ⟨0, 0, 0⟩ (.obtained [⟨24, 1⟩])).freed = [[]] ∧
      ¬ BrokerContract true exampleInfo ⟨0, 0, 0⟩ true (.obtained [⟨24, 1⟩]) := by
  refine ⟨rfl, rfl, fun h => ?_⟩
  exact absurd h.freed (by decide)

/-! ## The module -/

/-- The module gives up just where the resolver fails; with a list of any kind it goes on
to connect. -/
theorem onStateInit_error_iff (m : Module) :
    (m.onStateInit (mqttClientModuleInit libTls info broker callbacks resolved).err
      (.moduleState true)).state = .error ↔ resolved.lists = [] := by
  cases resolved with
  | failed err ne =>
    simp [mqttClientModuleInit, brokerInit, Module.onStateInit, echild, Resolved.lists]
  | obtained addrs =>
    simp [mqttClientModuleInit, brokerInit, Module.onStateInit, Resolved.lists]

end Heaty.Mqtt
