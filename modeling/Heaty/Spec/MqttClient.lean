import Heaty.Spec.Interfaces

/-! `mqtt_client_module_init` of mqtt_client.c: the broker's address is resolved and the
client structure filled in. The resolver may return any list or fail. -/

namespace Heaty.Mqtt

/-- `AF_INET`, `sizeof(struct sockaddr_in)`, `ECHILD` and `MQTT_VERSION_3_1_1`. -/
def afInet : ℕ := 1
def sizeofSockaddrIn : ℕ := 8
def echild : ℤ := 10
def mqttVersion311 : ℕ := 4

/-- `htons`, whose argument is an `uint16_t`. -/
def htons (n : ℤ) : ℕ :=
  let host := (n % 65536).toNat
  host % 256 * 256 + host / 256

/-- An entry of the resolver's list: the size of its address, and the four bytes that lie
where an IPv4 address has its `sin_addr`. -/
structure AddrInfo where
  aiAddrlen : ℕ
  sAddr : ℕ
  deriving DecidableEq

/-- What `getaddrinfo` returns: an error, or 0 with a list. -/
inductive Resolved
  | failed (err : ℤ) (ne : err ≠ 0)
  | obtained (addrs : List AddrInfo)

/-- The list that is to be freed, if there is one. -/
def Resolved.lists : Resolved → List (List AddrInfo)
  | .failed _ _ => []
  | .obtained addrs => [addrs]

/-- The static `broker` as a `struct sockaddr_in`. -/
structure SockaddrIn where
  sinFamily : ℕ
  sinPort : ℕ
  sAddr : ℕ
  deriving DecidableEq

/-- `struct mqtt_client_info`. -/
structure ClientInfo where
  brokerHostname : Bytes
  brokerPort : ℤ
  clientId : Bytes
  userName : Bytes
  password : Bytes
  tlsSecTags : List ℤ
  peerVerify : ℤ
  sessionCaching : Bool

/-- What `broker_init` leaves: its result, `broker`, and the arguments of `freeaddrinfo`,
each as the entries from the pointer on. -/
structure BrokerInit where
  err : ℤ
  broker : SockaddrIn
  freed : List (List AddrInfo)

/-- The loop of `broker_init`: `broker`, and the entries from `addr` on when it ends. -/
def brokerLoop (brokerPort : ℤ) (broker : SockaddrIn) :
    List AddrInfo → SockaddrIn × List AddrInfo
  | [] => (broker, [])
  | addr :: aiNext =>
      if addr.aiAddrlen = sizeofSockaddrIn then
        (⟨afInet, htons brokerPort, addr.sAddr⟩, addr :: aiNext)
      else brokerLoop brokerPort broker aiNext

/-- `broker_init`. -/
def brokerInit (info : ClientInfo) (broker : SockaddrIn) : Resolved → BrokerInit
  | .failed _ _ => ⟨-echild, broker, []⟩
  | .obtained addrs =>
      let found := brokerLoop info.brokerPort broker addrs
      ⟨0, found.1, [found.2]⟩

/-- `tls.config` of the transport, without the ciphers, of which there are none. -/
structure TlsConfig where
  peerVerify : ℤ
  secTagList : List ℤ
  hostname : Bytes
  sessionCache : Bool

/-- `struct mqtt_client` as far as it is filled in; `transport` is `none` for a transport
that is not secure. -/
structure MqttClient where
  broker : Option SockaddrIn
  clientId : Bytes
  protocolVersion : ℕ
  password : Bytes
  userName : Bytes
  transport : Option TlsConfig

/-- `mqtt_client_init`. -/
def MqttClient.zero : MqttClient := ⟨none, [], 0, [], [], none⟩

/-- What `mqtt_client_module_init` leaves, with whether it took the callbacks. -/
structure ModuleInit where
  err : ℤ
  broker : SockaddrIn
  freed : List (List AddrInfo)
  client : MqttClient
  callbacks : Bool

/-- The structure that `client_init` fills in, with `CONFIG_MQTT_LIB_TLS` or without. -/
def filledClient (libTls : Bool) (info : ClientInfo) (broker : SockaddrIn) : MqttClient where
  broker := some broker
  clientId := info.clientId
  protocolVersion := mqttVersion311
  password := info.password
  userName := info.userName
  transport :=
    if libTls then
      -- `IS_ENABLED` of anything but a symbol that is defined as 1 is 0
      some ⟨info.peerVerify, info.tlsSecTags, info.brokerHostname, false⟩
    else none

/-- `mqtt_client_module_init`, with `client_init`. -/
def mqttClientModuleInit (libTls : Bool) (info : ClientInfo) (broker : SockaddrIn)
    (callbacks : Bool) (resolved : Resolved) : ModuleInit :=
  let init := brokerInit info broker resolved
  { err := init.err
    broker := init.broker
    freed := init.freed
    client := if init.err ≠ 0 then .zero else filledClient libTls info init.broker
    callbacks := callbacks }

end Heaty.Mqtt
