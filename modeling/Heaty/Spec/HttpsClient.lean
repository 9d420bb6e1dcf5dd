import Heaty.Lib.Decimal
import Heaty.Spec.Utils

/-! `send_memfault_https` of https_client.c with the calls it makes into the network
stack and the heap. No object has 2^31 bytes, so that an `int` holds every offset. The
certificates and what is done with the response are left out. -/

namespace Heaty.Https

open Utils (cstr overwrite)

/-- The options `tls_setup` sets. -/
inductive TlsOption
  | peerVerify
  | secTagList
  | hostname
  deriving DecidableEq, Repr

/-- What the calls return; the numbered ones are `send` and `recv`, given how many bytes
are asked for. A `send` takes part of them, but some, or fails. `headerMem` is what lies
in memory from the address on that `my_malloc` returns. -/
structure Outcomes where
  lteLcInitAndConnect : ℤ
  headerMem : Bytes
  getaddrinfo : ℤ
  socket : ℤ
  setsockopt : TlsOption → ℤ
  connect : ℤ
  send : ℕ → ℕ → ℤ
  recv : ℕ → ℕ → ℤ
  send_returns : ∀ i n, send i n < 0 ∨ (n ≠ 0 → 0 < send i n) ∧ 0 ≤ send i n ∧ send i n ≤ n
  recv_returns : ∀ i n, recv i n ≤ n

/-- The calls made, with their results. Of `freeaddrinfo` it is recorded whether its
argument is the list that `getaddrinfo` returned. -/
inductive Call
  | mallocHeader
  | freeHeader
  | getaddrinfo (err : ℤ)
  | freeaddrinfo (returned : Bool)
  | socket (fd : ℤ)
  | setsockopt (fd : ℤ) (option : TlsOption) (err : ℤ)
  | connect (fd err : ℤ)
  | send (fd : ℤ) (data : Bytes) (res : ℤ)
  | recv (fd res : ℤ)
  | close (fd : ℤ)
  deriving DecidableEq

/-- `tls_setup`: its result and its calls. -/
def tlsSetup (o : Outcomes) (fd : ℤ) : ℤ × List Call :=
  let verify := Call.setsockopt fd .peerVerify (o.setsockopt .peerVerify)
  let secTag := Call.setsockopt fd .secTagList (o.setsockopt .secTagList)
  let hostname := Call.setsockopt fd .hostname (o.setsockopt .hostname)
  if o.setsockopt .peerVerify ≠ 0 then (o.setsockopt .peerVerify, [verify])
  else if o.setsockopt .secTagList ≠ 0 then (o.setsockopt .secTagList, [verify, secTag])
  else if o.setsockopt .hostname ≠ 0 then (o.setsockopt .hostname, [verify, secTag, hostname])
  else (0, [verify, secTag, hostname])

/-- `HEADER_BUF_SIZE`. -/
def headerBufSize : ℕ := 300

/-- `snprintf` of a text to `pos` with room for `size` bytes. -/
def snprintf (mem : Bytes) (pos size : ℕ) (text : Bytes) : Bytes :=
  if size = 0 then mem
  else mem.take pos ++ overwrite (text.take (size - 1) ++ [0]) (mem.drop pos)

/-- The texts that `createHeader` prints. `%d` reads a `size_t` as an `int`. -/
def headerLines (deviceSerial hostname projectKey : Bytes) (len : ℕ) : List Bytes :=
  [text "POST /api/v0/chunks/" ++ deviceSerial ++ text " HTTP/1.1\r\n",
    text "Host:" ++ hostname ++ text "\r\n",
    text "User-Agent: MemfaultSDK/0.4.2\r\nMemfault-Project-Key:" ++ projectKey ++ text "\r\n",
    text "Content-Type:application/octet-stream\r\n",
    text "Content-Length:" ++ Decimal.int (Int.bmod len 4294967296) ++ text "\r\n\r\n"]

/-- `HEADER_BUF_SIZE - msg_len`, a `size_t`. -/
def headerRoom (msgLen : ℕ) : ℕ := (headerBufSize + 4294967296 - msgLen) % 4294967296

/-- One of the prints: memory, and `msg_len`, a `size_t`. -/
def printLine (buffer : Bytes × ℕ) (line : Bytes) : Bytes × ℕ :=
  (snprintf buffer.1 buffer.2 (headerRoom buffer.2) line, (buffer.2 + line.length) % 4294967296)

/-- `createHeader`: memory from the buffer's address on. -/
def createHeader (mem deviceSerial hostname projectKey : Bytes) (len : ℕ) : Bytes :=
  ((headerLines deviceSerial hostname projectKey len).foldl printLine (mem, 0)).1

/-- A call of `snprintf` by `createHeader`: where to, with which room, and the text. -/
structure HeaderPrint where
  pos : ℕ
  room : ℕ
  line : Bytes

/-- The calls that print these texts from `msg_len` on. -/
def headerPrints (msgLen : ℕ) : List Bytes → List HeaderPrint
  | [] => []
  | line :: lines =>
      ⟨msgLen, headerRoom msgLen, line⟩ ::
        headerPrints ((msgLen + line.length) % 4294967296) lines

/-- The positions that are written: as much of the text as there is room for, and the
terminator. -/
def HeaderPrint.written (p : HeaderPrint) : List ℕ :=
  if p.room = 0 then [] else List.range' p.pos (min p.line.length (p.room - 1) + 1)

/-- A call of `createHeader`: its prints, and what it returns, `none` for NULL. -/
structure HeaderCall where
  prints : List HeaderPrint
  ret : Option Bytes

/-- `createHeader` with its allocation, which is not checked. -/
def createHeaderCall (buffer : Utils.Block) (deviceSerial hostname projectKey : Bytes) (len : ℕ) :
    HeaderCall where
  prints := headerPrints 0 (headerLines deviceSerial hostname projectKey len)
  ret := buffer.map fun mem => createHeader mem deviceSerial hostname projectKey len

/-- What a `sendData` call made, and whether it failed. -/
structure Sent where
  calls : List Call
  failed : Bool

/-- The loop of `sendData` from `send` number `i` on, `none` when `fuel` turns do not
finish it. -/
def sendLoop (o : Outcomes) (fd : ℤ) : ℕ → ℕ → Bytes → Option Sent
  | 0, _, _ => none
  | fuel + 1, i, rest =>
      let bytes := o.send i rest.length
      let call := Call.send fd rest bytes
      if bytes < 0 then some ⟨[call], true⟩
      else if rest.drop bytes.toNat = [] then some ⟨[call], false⟩
      else (sendLoop o fd fuel (i + 1) (rest.drop bytes.toNat)).map fun sent =>
        { sent with calls := call :: sent.calls }

/-- `sendData`. A turn that does not end it sends a byte, so that one turn more than
there are bytes is enough. -/
def sendData (o : Outcomes) (fd : ℤ) (i : ℕ) (data : Bytes) : Option Sent :=
  sendLoop o fd (data.length + 1) i data

/-- `connectToHttps`: its result and its calls. Where `getaddrinfo` fails, `res` is not
set. -/
def connectToHttps (o : Outcomes) : ℤ × List Call :=
  if o.getaddrinfo ≠ 0 then (-1, [.getaddrinfo o.getaddrinfo, .freeaddrinfo false])
  else
    let opening := [Call.getaddrinfo 0, .socket o.socket]
    if o.socket < 0 then (-1, opening ++ [.freeaddrinfo true])
    else
      let setup := tlsSetup o o.socket
      if setup.1 ≠ 0 then (-1, opening ++ setup.2 ++ [.freeaddrinfo true])
      else
        let connecting := opening ++ setup.2 ++ [.connect o.socket o.connect]
        if o.connect ≠ 0 then (-1, connecting ++ [.freeaddrinfo true]) else (0, connecting)

/-- `RECV_BUF_SIZE`. -/
def recvBufSize : ℕ := 2048

/-- The loop of `handleResponse` from `recv` number `i` on. -/
def recvLoop (o : Outcomes) (fd : ℤ) : ℕ → ℕ → ℕ → Option (List Call)
  | 0, _, _ => none
  | fuel + 1, i, off =>
      let bytes := o.recv i (recvBufSize - off)
      if bytes < 0 ∨ bytes = 0 then some [.recv fd bytes]
      else (recvLoop o fd fuel (i + 1) (off + bytes.toNat)).map (.recv fd bytes :: ·)

/-- `handleResponse`. -/
def handleResponse (o : Outcomes) (fd : ℤ) : Option (List Call) :=
  recvLoop o fd (recvBufSize + 1) 0 0

/-- `send_memfault_https` from `connectToHttps` on. -/
def exchangeData (o : Outcomes) (header data : Bytes) : Option (List Call) :=
  let fd := (connectToHttps o).1
  if fd < 0 then some ((connectToHttps o).2 ++ [.close fd])
  else
    match sendData o fd 0 header with
    | none => none
    | some sent =>
        if sent.failed then some ((connectToHttps o).2 ++ sent.calls ++ [.close fd])
        else
          match sendData o fd sent.calls.length data with
          | none => none
          | some sent' =>
              let calls := (connectToHttps o).2 ++ sent.calls ++ sent'.calls
              if sent'.failed then some (calls ++ [.close fd])
              else (handleResponse o fd).map fun recvs => calls ++ recvs ++ [.close fd]

/-- What a call sends as its header. -/
def sentHeader (o : Outcomes) (hostname deviceSerial projectKey data : Bytes) : Bytes :=
  cstr (createHeader o.headerMem deviceSerial hostname projectKey data.length)

/-- `send_memfault_https`, with `data` and its length. -/
def sendMemfaultHttps (o : Outcomes) (hostname deviceSerial projectKey data : Bytes) :
    Option (List Call) :=
  if o.lteLcInitAndConnect ≠ 0 then some []
  else
    (exchangeData o (sentHeader o hostname deviceSerial projectKey data) data).map
      (.mallocHeader :: ·)

end Heaty.Https
