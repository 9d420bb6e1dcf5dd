import Mathlib.Data.Bool.AllAny
import Heaty.Lib.Base64
import Heaty.Lib.Json

/-! Interfaces of the libraries the repository calls and does not contain:
Zephyr's base64 and cJSON. They are parameters of the model. What the code
relies on is stated beside each of them, and each has an instance that
behaves so. -/

namespace Heaty

abbrev Bytes := List UInt8

/-- Outcome of `base64_encode(dst, dlen, &olen, src, slen)`; `stored` is what
was written from `dst` on. -/
structure EncodeResult where
  ret : ℤ
  olen : ℕ
  stored : Bytes

/-- Zephyr's `sys/base64.h`. A decode either returns 0 having written the
listed bytes, or an error having written none. -/
structure Base64Api where
  encode (dlen : ℕ) (src : Bytes) : EncodeResult
  decode (dlen : ℕ) (src : Bytes) : Except ℤ Bytes

/-- An encode needs room for the text and its terminator; with nothing to
encode it succeeds and stores nothing, not even the terminator. -/
structure Base64Api.Documented (api : Base64Api) : Prop where
  encode_nil : ∀ dlen, api.encode dlen [] = ⟨0, 0, []⟩
  encode_fits : ∀ dlen src, src ≠ [] → (Base64.encode src).length + 1 ≤ dlen →
    api.encode dlen src = ⟨0, (Base64.encode src).length, Base64.encode src ++ [0]⟩
  encode_short : ∀ dlen src, src ≠ [] → dlen < (Base64.encode src).length + 1 →
    (api.encode dlen src).ret ≠ 0 ∧ (api.encode dlen src).stored = []
  decode_encode : ∀ dlen bs, bs.length ≤ dlen → api.decode dlen (Base64.encode bs) = .ok bs
  decode_room : ∀ dlen text bs, api.decode dlen text = .ok bs → bs.length ≤ dlen
  decode_more : ∀ dlen dlen' text bs, api.decode dlen text = .ok bs → dlen ≤ dlen' →
    api.decode dlen' text = .ok bs

/-- `-ENOMEM` and `-EINVAL`. -/
def enomem : ℤ := -12
def einval : ℤ := -22

def zephyrBase64 : Base64Api where
  encode dlen src :=
    if src = [] then ⟨0, 0, []⟩
    else if dlen < (Base64.encode src).length + 1 then ⟨enomem, (Base64.encode src).length + 1, []⟩
    else ⟨0, (Base64.encode src).length, Base64.encode src ++ [0]⟩
  decode dlen text :=
    match Base64.decode text with
    | none => .error einval
    | some bs => if dlen < bs.length then .error enomem else .ok bs

theorem zephyrBase64_documented : zephyrBase64.Documented where
  encode_nil _ := by simp [zephyrBase64]
  encode_fits dlen src hne hroom := by
    simp only [zephyrBase64, if_neg hne, if_neg (Nat.not_lt.2 hroom)]
  encode_short dlen src hne hroom := by
    simp only [zephyrBase64, if_neg hne, if_pos hroom]
    exact ⟨by decide, trivial⟩
  decode_encode dlen bs hroom := by
    simp [zephyrBase64, Base64.decode_encode, Nat.not_lt.2 hroom]
  decode_room dlen text bs h := by
    simp only [zephyrBase64] at h
    split at h
    · cases h
    · split at h
      · cases h
      · rename_i hroom
        cases h
        exact Nat.not_lt.1 hroom
  decode_more dlen dlen' text bs h hle := by
    simp only [zephyrBase64] at h ⊢
    split at h
    · cases h
    · rename_i bs' hbs
      split at h
      · cases h
      · rename_i hroom
        cases h
        simp only [ite_eq_right_iff]
        omega

/-- The characters of a string literal. -/
def text (s : String) : Bytes := s.toList.map fun c => UInt8.ofNat c.toNat

/-- cJSON: `cJSON_Parse`, `cJSON_GetObjectItemCaseSensitive`, the fields
`valueint` and `valuestring` of an item, and `cJSON_Print` of an object made with
`cJSON_AddNumberToObject` and `cJSON_AddStringToObject`. NULL is `none`; texts
are without their terminator. -/
structure CJsonApi where
  parse : Bytes → Option (Json UInt8)
  print : List (Bytes × Json.Scalar) → Bytes
  getObjectItemCaseSensitive : Option (Json UInt8) → Bytes → Option (Json UInt8)
  valueint : Json UInt8 → ℤ
  valuestring : Json UInt8 → Option Bytes

/-- The range of a C `int`. -/
def IsInt (z : ℤ) : Prop := -2147483648 ≤ z ∧ z < 2147483648

instance (z : ℤ) : Decidable (IsInt z) := by unfold IsInt; infer_instance

/-- Members whose keys and strings need no escape and whose numbers are `int`s. -/
def PlainMembers (members : List (Bytes × Json.Scalar)) : Prop :=
  ∀ m ∈ members, Json.PlainMember m ∧ ∀ z, m.2 = .int z → IsInt z

structure CJsonApi.Documented (api : CJsonApi) : Prop where
  parse_print : ∀ members, PlainMembers members →
    api.parse (api.print members) = some (Json.flat members)
  item_null : ∀ key, api.getObjectItemCaseSensitive none key = none
  item_obj : ∀ members key, api.getObjectItemCaseSensitive (some (.obj members)) key =
    (members.find? fun m => m.1 = key).map Prod.snd
  item_other : ∀ json key, (∀ members, json ≠ .obj members) →
    api.getObjectItemCaseSensitive (some json) key = none
  valueint_num : ∀ z : ℤ, IsInt z → api.valueint (.num z) = z
  valuestring_str : ∀ s, api.valuestring (.str s) = some s
  valuestring_other : ∀ json, (∀ s, json ≠ .str s) → api.valuestring json = none

/-- How `cJSON_Print` lays out an object. -/
def cJsonStyle : Json.Style where
  first := text "\n\t"
  colon := text "\t"
  comma := text "\n\t"
  last := text "\n"

/-- cJSON as far as flat objects go; it parses no other text. -/
def cJson : CJsonApi where
  parse text := (Json.readFlat text).map fun r => Json.flat r.1
  print members := Json.print cJsonStyle members
  getObjectItemCaseSensitive root key :=
    match root with
    | some (.obj members) => (members.find? fun m => m.1 = key).map Prod.snd
    | _ => none
  valueint
    | .num q => max (-2147483648) (min 2147483647 (q.num.tdiv q.den))
    | .bool true => 1
    | _ => 0
  valuestring
    | .str s => some s
    | _ => none

theorem cJsonStyle_ok : cJsonStyle.Ok := by
  refine ⟨?_, ?_, ?_, ?_⟩ <;> exact List.all_iff_forall_prop.1 (by decide)

theorem cJson_documented : cJson.Documented where
  parse_print members h := by
    have hread := Json.readFlat_print cJsonStyle_ok (fun m hm => (h m hm).1) []
    rw [List.append_nil] at hread
    simp only [cJson, hread, Option.map_some]
  item_null _ := rfl
  item_obj _ _ := rfl
  item_other json key h := by
    cases json with
    | obj members => exact absurd rfl (h members)
    | _ => rfl
  valueint_num z h := by
    obtain ⟨hlo, hhi⟩ := h
    simp only [cJson, Rat.num_intCast, Rat.den_intCast, Nat.cast_one, Int.tdiv_one]
    omega
  valuestring_str _ := rfl
  valuestring_other json h := by
    cases json with
    | str s => exact absurd rfl (h s)
    | _ => rfl

/-- What cJSON prints is a C string, and it is never empty. -/
structure CJsonApi.PrintsText (api : CJsonApi) : Prop where
  zero_notMem : ∀ members, PlainMembers members → 0 ∉ api.print members
  ne_nil : ∀ members, api.print members ≠ []

theorem cJson_printsText : cJson.PrintsText where
  zero_notMem members h :=
    Json.zero_notMem_print cJsonStyle_ok fun m hm => (h m hm).1
  ne_nil members := by simp [cJson, Json.print]

end Heaty
