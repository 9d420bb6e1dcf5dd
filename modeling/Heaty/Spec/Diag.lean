import Heaty.Spec.HeatMap

/-! The two callers of `base64_encode` that allocate what they return: `encode_base64` of
utils.c and `retrieve_memfault_data_as_base64` of diag.c. -/

namespace Heaty.Diag

open Utils (Block base64EncodeLen overwrite)

/-- Input whose length an `uint16_t` holds. -/
structure Input where
  data : Bytes
  length_lt : data.length < 65536

/-- `MEMFAULT_DATA_EXPORT_CHUNK_MAX_LEN`. -/
def memfaultDataExportChunkMaxLen : ℕ := 1000

/-- A chunk of `memfault_packetizer_get_chunk`. -/
structure Chunk where
  data : Bytes
  ne_nil : data ≠ []
  length_le : data.length ≤ memfaultDataExportChunkMaxLen

/-- A call that encodes: the size it asked `my_malloc` for and the block it got, the indices
that were written from its start on, the memory at the address that is handed out, and
whether the return value says that nothing is. -/
structure Encoding where
  size : ℕ
  allocated : Block
  written : List ℕ
  string : Block
  failed : Bool

/-- `encode_base64`, where `my_malloc` returns this block. With NULL, `base64_encode` writes
nothing, and NULL is returned whatever its result is. -/
def encodeBase64 (base64 : Base64Api) (block : Block) (input : Input) : Encoding :=
  let encodedDataSize := base64EncodeLen (input.data.length + 1) % 65536
  match block with
  | none => ⟨encodedDataSize + 1, none, [], none, true⟩
  | some mem =>
      let result := base64.encode (encodedDataSize + 1) input.data
      let written := List.range result.stored.length
      if result.ret ≠ 0 then ⟨encodedDataSize + 1, block, written, none, true⟩
      else ⟨encodedDataSize + 1, block, written, some (overwrite result.stored mem), false⟩

/-- `retrieve_memfault_data_as_base64`, where `my_malloc` returns this block. Its callers stop
at a return value of 0. -/
def retrieveMemfaultDataAsBase64 (base64 : Base64Api) (chunk : Option Chunk) (block : Block) :
    Encoding :=
  match chunk, block with
  | none, _ => ⟨0, none, [], none, true⟩
  | some chunk, none => ⟨base64EncodeLen chunk.data.length + 1, none, [], none, true⟩
  | some chunk, some mem =>
      let size := base64EncodeLen chunk.data.length + 1
      let result := base64.encode size chunk.data
      let written := List.range result.stored.length
      let string := overwrite result.stored mem
      if result.ret ≠ 0 then ⟨size, block, written, some string, true⟩
      else
        ⟨size, block, written ++ [result.olen + 1], some (string.set (result.olen + 1) 0),
          result.olen = 0⟩

/-- What a call is to do: write inside its block, hand out the terminated text of all its
input, and say when it does not, with no block left over then. -/
structure Encodes (data : Bytes) (e : Encoding) : Prop where
  inside : ∀ i ∈ e.written, i < e.size
  whole : e.failed = false → ∃ mem, e.string = some mem ∧ Base64.encode data ++ [0] <+: mem
  kept : e.failed = true → e.allocated = none

/-- The inputs that `encode_base64` encodes into a block: those whose size an `uint16_t`
holds, and nothing where a terminator happens to lie. -/
def Encodable (mem : Bytes) (input : Input) : Prop :=
  (input.data ≠ [] ∧ input.data.length ≤ 49148) ∨ (input.data = [] ∧ mem.head? = some 0)

instance (mem : Bytes) (input : Input) : Decidable (Encodable mem input) :=
  inferInstanceAs (Decidable (_ ∨ _))

end Heaty.Diag
