import Mathlib.Data.List.TakeWhile
import Heaty.Spec.Interfaces

/-! `encode_message` and `parse_message` of utils.c, built with
`CONFIG_CJSON_LIB` as both boards are. Allocations and cJSON's own memory come
from the environment; a block is given by what lies in memory from its address
on, since a C string in it may well run past its end. -/

namespace Heaty.Utils

/-- Memory from the address `my_malloc` returned on, `none` for NULL. -/
abbrev Block := Option Bytes

/-- The C string at an address. -/
def cstr (mem : Bytes) : Bytes := mem.takeWhile (· ≠ 0)

/-- A text without a zero is the C string at an address where only it lies. -/
theorem cstr_eq_self {bs : Bytes} (h : 0 ∉ bs) : cstr bs = bs := by
  rw [cstr, List.takeWhile_eq_self_iff]
  intro c hc
  simpa using fun he : c = 0 => h (he ▸ hc)

/-- So it is with a terminator behind it, whatever follows. -/
theorem cstr_append_zero {bs : Bytes} (h : 0 ∉ bs) (rest : Bytes) :
    cstr (bs ++ 0 :: rest) = bs := by
  have htake := cstr_eq_self h
  rw [cstr, List.takeWhile_eq_self_iff] at htake
  rw [cstr, List.takeWhile_append_of_pos htake]
  simp

/-- Memory after its first bytes were written. -/
def overwrite (stored mem : Bytes) : Bytes := stored ++ mem.drop stored.length

theorem overwrite_nil_left (mem : Bytes) : overwrite [] mem = mem := rfl

theorem length_overwrite {stored mem : Bytes} (h : stored.length ≤ mem.length) :
    (overwrite stored mem).length = mem.length := by
  rw [overwrite, List.length_append, List.length_drop]
  omega

theorem take_overwrite (stored mem : Bytes) : (overwrite stored mem).take stored.length = stored :=
  List.take_left' rfl

/-- Nothing is left of memory that is written over as a whole. -/
theorem overwrite_eq_self_iff (stored mem : Bytes) :
    overwrite stored mem = stored ↔ mem.length ≤ stored.length := by
  rw [overwrite, List.append_right_eq_self, List.drop_eq_nil_iff]

/-- `BASE64_ENCODE_LEN(bin_len)`. -/
def base64EncodeLen (binLen : ℕ) : ℕ := 4 * ((binLen + 2) / 3)

/-- `BASE64_DECODE_LEN(bin_len)` on a 32-bit `size_t`. -/
def base64DecodeLen (binLen : ℕ) : ℕ := binLen * 3 % 4294967296 / 4

/-- What `encode_message` meets: its own block, and whether cJSON could allocate
the object, each of its members and the text. -/
structure EncodeEnv where
  encodedData : Block
  created : Bool
  addType : Bool
  addLen : Bool
  addData : Bool
  printed : Bool
  deriving DecidableEq

/-- The members of the object. `cJSON_AddStringToObject` adds nothing for NULL. -/
def encodeMembers (env : EncodeEnv) (type : ℤ) (len : ℕ) (encodedData : Block) :
    List (Bytes × Json.Scalar) :=
  (if env.addType then [(text "type", .int type)] else []) ++
    (if env.addLen then [(text "len", .int len)] else []) ++
    match encodedData with
    | some mem => if env.addData then [(text "data", .str (cstr mem))] else []
    | none => []

/-- `encode_message`. An error of `base64_encode` is only logged; with NULL as
its destination it fails and writes nothing. -/
def encodeMessage (base64 : Base64Api) (cjson : CJsonApi) (env : EncodeEnv) (type : ℤ)
    (data : Bytes) : Option Bytes :=
  let encodedDataSize := base64EncodeLen (data.length + 1) % 65536
  let written := (base64.encode encodedDataSize data).stored
  let encodedData := env.encodedData.map (overwrite written)
  if env.created ∧ env.printed then
    some (cjson.print (encodeMembers env type data.length encodedData))
  else none

/-- What `parse_message` meets: whether `LOG_INF` is compiled in, and its block. -/
structure ParseEnv where
  logInf : Bool
  decodedData : Block

/-- Results of `parse_message`: its three outputs, the bytes `base64_decode` wrote
and the indices of `decoded_data` it read itself. -/
structure Parsed where
  type : ℤ
  len : ℕ
  decodedData : Block
  written : Bytes
  reads : List ℕ

/-- What `base64_decode` writes into the block; into NULL it writes nothing. -/
def decodeInto (base64 : Base64Api) (block : Block) (data : Bytes) : Bytes :=
  match block with
  | none => []
  | some _ =>
      match base64.decode (base64DecodeLen data.length % 65536) data with
      | .ok bytes => bytes
      | .error _ => []

/-- `parse_message`; `none` when it follows a NULL pointer. -/
def parseMessage (base64 : Base64Api) (cjson : CJsonApi) (env : ParseEnv) (message : Bytes) :
    Option Parsed :=
  let jsonRoot := cjson.parse message
  match cjson.getObjectItemCaseSensitive jsonRoot (text "type"),
      cjson.getObjectItemCaseSensitive jsonRoot (text "data"),
      cjson.getObjectItemCaseSensitive jsonRoot (text "len") with
  | some jsonType, some jsonData, some jsonLen =>
      match cjson.valuestring jsonData with
      | none => none
      | some data =>
          let written := decodeInto base64 env.decodedData data
          -- the log prints the first four bytes whatever was decoded
          if env.logInf ∧ env.decodedData = none then none
          else
            some {
              type := cjson.valueint jsonType
              len := (cjson.valueint jsonLen % 65536).toNat
              decodedData := env.decodedData.map (overwrite written)
              written := written
              reads := if env.logInf then [0, 1, 2, 3] else [] }
  | _, _, _ => none

end Heaty.Utils
