import Heaty.Spec.Interfaces

/-! `serialSend` of bt_module.c, one loop iteration at a time. The slot's `mtu`
is a field of a table that callbacks write, so each iteration is given the
value it reads then; the array `chunk` keeps the size it got on entry. -/

namespace Heaty.Bt

/-- `BASE64_DECODE_LEN(bin_len)`, on a C `int`. -/
def base64DecodeLen (binLen : ℤ) : ℤ := (binLen * 3).tdiv 4

/-- Arguments and locals of one `serialSend` call at the head of its loop. -/
structure Call where
  data : Bytes
  bytesToSend : ℕ
  useBase64 : Bool
  /-- `sizeof(chunk)`: the slot's `mtu` when the array was declared. -/
  chunkSize : ℕ
  chunk : Bytes
  decodedChunkSize : ℕ
  offset : ℕ
  pos : ℕ

/-- Up to the loop. `bytesToSend` is a `uint16_t` parameter, `chunk` starts with
what the stack holds. -/
def Call.enter (data : Bytes) (useBase64 : Bool) (mtu : ℕ) (stack : Bytes) : Call where
  data := data
  bytesToSend := data.length % 65536
  useBase64 := useBase64
  chunkSize := mtu
  chunk := stack.take mtu
  decodedChunkSize := (base64DecodeLen ((mtu : ℤ) - 1) % 4294967296).toNat
  offset := 0
  pos := 0

/-- The loop condition. -/
def Call.running (c : Call) : Bool := c.offset < c.bytesToSend

/-- `transactionLength` of the next iteration. -/
def Call.transactionLength (c : Call) (mtu : ℕ) : ℕ :=
  let rest := c.bytesToSend - c.offset
  if c.useBase64 then
    if rest > c.decodedChunkSize then c.decodedChunkSize else rest
  else
    if rest > mtu then mtu else rest

/-- What an iteration handed to `serialSend_cb`: the bytes of `chunk`, and how
many it claimed there are. -/
structure Notification where
  value : Bytes
  size : ℕ
  deriving DecidableEq

structure Iteration where
  call : Call
  /-- Number of bytes stored into `chunk`. -/
  copied : ℕ
  sent : Notification
  base64Failed : Bool

/-- One pass through the loop body, up to the call of `serialSend_cb`. -/
def Call.iterate (api : Base64Api) (c : Call) (mtu : ℕ) : Iteration :=
  let len := c.transactionLength mtu
  let piece := (c.data.drop c.pos).take len
  let next (chunk : Bytes) : Call :=
    { c with chunk := chunk, offset := (c.offset + len) % 65536, pos := c.pos + len }
  if c.useBase64 then
    let r := api.encode mtu piece
    let chunk := r.stored ++ c.chunk.drop r.stored.length
    ⟨next chunk, r.stored.length, ⟨chunk.take r.olen, r.olen⟩, r.ret ≠ 0⟩
  else
    let chunk := piece ++ c.chunk.drop piece.length
    ⟨next chunk, len, ⟨chunk.take len, len⟩, false⟩

/-- The rest of the loop while nothing writes the slot, `none` when `fuel`
iterations do not finish it. -/
def Call.loop (api : Base64Api) (mtu : ℕ) : ℕ → Call → Option (List Notification)
  | 0, c => if c.running then none else some []
  | fuel + 1, c =>
      if c.running then
        let it := c.iterate api mtu
        (it.call.loop api mtu fuel).map (it.sent :: ·)
      else some []

/-- A whole call on a slot whose `mtu` does not change. Every iteration that
makes progress sends at least a byte, so `bytesToSend` iterations are enough for
a call that returns at all. -/
def serialSend (api : Base64Api) (mtu : ℕ) (stack data : Bytes) (useBase64 : Bool) :
    Option (List Notification) :=
  let c := Call.enter data useBase64 mtu stack
  c.loop api mtu c.bytesToSend

end Heaty.Bt
