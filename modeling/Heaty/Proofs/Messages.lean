import Heaty.Spec.McuExchange

/-! Messages between the two controllers: `encode_message` against
`parse_message`. The encoder's buffer has room for the terminator only when the
payload is made of whole triples; otherwise the text is made from whatever the
buffer happened to hold. -/

namespace Heaty.Utils

/-! ## `parse_message` -/

section Parse

variable {base64 : Base64Api} {cjson : CJsonApi} {env : ParseEnv} {message : Bytes}

/-- The members `parse_message` looks up are there, `data` with a string. -/
structure Members (cjson : CJsonApi) (message : Bytes) (type len : Json UInt8) (data : Bytes) :
    Prop where
  type : cjson.getObjectItemCaseSensitive (cjson.parse message) (text "type") = some type
  len : cjson.getObjectItemCaseSensitive (cjson.parse message) (text "len") = some len
  data : ∃ item, cjson.getObjectItemCaseSensitive (cjson.parse message) (text "data") = some item ∧
    cjson.valuestring item = some data

def parsedOf (base64 : Base64Api) (cjson : CJsonApi) (env : ParseEnv) (type len : Json UInt8)
    (data : Bytes) : Parsed where
  type := cjson.valueint type
  len := (cjson.valueint len % 65536).toNat
  decodedData := env.decodedData.map (overwrite (decodeInto base64 env.decodedData data))
  written := decodeInto base64 env.decodedData data
  reads := if env.logInf then [0, 1, 2, 3] else []

theorem parseMessage_of_members {type len : Json UInt8} {data : Bytes}
    (h : Members cjson message type len data)
    (henv : ¬ (env.logInf = true ∧ env.decodedData = none)) :
    parseMessage base64 cjson env message = some (parsedOf base64 cjson env type len data) := by
  obtain ⟨htype, hlen, item, hitem, hdata⟩ := h
  simp only [parseMessage, htype, hlen, hitem, hdata, if_neg henv, parsedOf]

/-- `parse_message` only returns when the members are there and it does not log
from NULL. -/
theorem members_of_parseMessage {p : Parsed} (h : parseMessage base64 cjson env message = some p) :
    ∃ type len data, Members cjson message type len data ∧
      ¬ (env.logInf = true ∧ env.decodedData = none) ∧
      p = parsedOf base64 cjson env type len data := by
  simp only [parseMessage] at h
  split at h
  · rename_i type item len htype hitem hlen
    split at h
    · cases h
    · rename_i data hdata
      by_cases henv : env.logInf = true ∧ env.decodedData = none
      · rw [if_pos henv] at h
        cases h
      · rw [if_neg henv] at h
        cases h
        exact ⟨type, len, data, ⟨htype, hlen, item, hitem, hdata⟩, henv, rfl⟩
  · cases h

end Parse

/-! ## Looking up printed members -/

section Print

variable {cjson : CJsonApi}

theorem keys_ne : text "type" ≠ text "data" ∧ text "type" ≠ text "len" ∧
    text "len" ≠ text "data" := by
  decide

theorem item_print (hcjson : cjson.Documented) {members : List (Bytes × Json.Scalar)}
    (h : PlainMembers members) (key : Bytes) :
    cjson.getObjectItemCaseSensitive (cjson.parse (cjson.print members)) key =
      (members.find? fun m => m.1 = key).map fun m => m.2.toJson := by
  rw [hcjson.parse_print members h, Json.flat, hcjson.item_obj, List.find?_map, Option.map_map]
  rfl

theorem find_members (env : EncodeEnv) (type : ℤ) (len : ℕ) (block : Block) :
    ((encodeMembers env type len block).find? fun m => m.1 = text "type") =
        (if env.addType then some (text "type", .int type) else none) ∧
      ((encodeMembers env type len block).find? fun m => m.1 = text "len") =
        (if env.addLen then some (text "len", .int len) else none) ∧
      ((encodeMembers env type len block).find? fun m => m.1 = text "data") =
        (if env.addData then block.map fun mem => (text "data", .str (cstr mem)) else none) := by
  obtain ⟨htd, htl, hld⟩ := keys_ne
  cases block <;> cases h1 : env.addType <;> cases h2 : env.addLen <;> cases h3 : env.addData <;>
    simp [encodeMembers, h1, h2, h3, htd, htl, hld, htd.symm, htl.symm, hld.symm]

theorem isPlain_encode (bs : Bytes) : ∀ c ∈ Base64.encode bs, Json.isPlain c = true :=
  Base64.forall_mem_encode (by decide) (by decide) bs

theorem isPlain_keys : ∀ key ∈ [text "type", text "len", text "data"], ∀ c ∈ key,
    Json.isPlain c = true := by
  simp only [List.forall_mem_cons]
  exact ⟨List.all_iff_forall_prop.1 (by decide), List.all_iff_forall_prop.1 (by decide),
    List.all_iff_forall_prop.1 (by decide), by simp⟩

theorem plain_encodeMembers {env : EncodeEnv} {type : ℤ} {len : ℕ} {block : Block}
    (htype : IsInt type) (hlen : len < 65536)
    (hblock : ∀ mem, block = some mem → ∀ c ∈ cstr mem, Json.isPlain c = true) :
    PlainMembers (encodeMembers env type len block) := by
  have hlen' : IsInt (len : ℤ) := by unfold IsInt; omega
  intro m hm
  simp only [encodeMembers, List.mem_append] at hm
  rcases hm with (hm | hm) | hm
  · split_ifs at hm
    · rw [List.mem_singleton.1 hm]
      exact ⟨⟨isPlain_keys _ (by simp), by simp⟩, by rintro z ⟨⟩; exact htype⟩
    · cases hm
  · split_ifs at hm
    · rw [List.mem_singleton.1 hm]
      exact ⟨⟨isPlain_keys _ (by simp), by simp⟩, by rintro z ⟨⟩; exact hlen'⟩
    · cases hm
  · cases block with
    | none => cases hm
    | some mem =>
      simp only at hm
      split_ifs at hm
      · rw [List.mem_singleton.1 hm]
        exact ⟨⟨isPlain_keys _ (by simp), by rintro s ⟨⟩; exact hblock mem rfl⟩, by simp⟩
      · cases hm

end Print

/-! ## `encode_message` -/

section Encode

variable {base64 : Base64Api} {cjson : CJsonApi} {env : EncodeEnv} {type : ℤ} {data : Bytes}

/-- The lengths for which the encoder's buffer is big enough: whole triples, and
few enough that the size does not wrap in a `uint16_t`. -/
def Fits (len : ℕ) : Prop := 0 < len ∧ 3 ∣ len ∧ len < 49149

instance (len : ℕ) : Decidable (Fits len) := by unfold Fits; infer_instance

/-- What `base64_encode` leaves in the buffer. -/
theorem stored_eq (hbase64 : base64.Documented) (hlen : data.length < 65536) :
    (base64.encode (base64EncodeLen (data.length + 1) % 65536) data).stored =
      if Fits data.length then Base64.encode data ++ [0] else [] := by
  by_cases hne : data = []
  · subst hne
    rw [hbase64.encode_nil, if_neg (by simp [Fits])]
  have hpos : 0 < data.length := List.length_pos_iff.2 hne
  have hroom : (Base64.encode data).length + 1 ≤ base64EncodeLen (data.length + 1) % 65536 ↔
      Fits data.length := by
    rw [Base64.encode_length, base64EncodeLen, Fits]
    omega
  split_ifs with hfits
  · rw [hbase64.encode_fits _ _ hne (hroom.2 hfits)]
  · exact (hbase64.encode_short _ _ hne (Nat.lt_of_not_le (mt hroom.1 hfits))).2

theorem cstr_encoded (bs mem : Bytes) : cstr (overwrite (Base64.encode bs ++ [0]) mem) =
    Base64.encode bs := by
  rw [overwrite, List.append_assoc]
  exact cstr_append_zero (Base64.zero_notMem_encode bs) _

theorem plain_encoded (env : EncodeEnv) (htype : IsInt type) (hlen : data.length < 65536)
    (mem : Bytes) : PlainMembers (encodeMembers env type data.length
      (some (overwrite (Base64.encode data ++ [0]) mem))) := by
  refine plain_encodeMembers htype hlen ?_
  rintro _ ⟨⟩
  rw [cstr_encoded]
  exact isPlain_encode data

/-- The message and the block it is made from. -/
theorem encodeMessage_eq (hbase64 : base64.Documented) (hlen : data.length < 65536) :
    encodeMessage base64 cjson env type data =
      if env.created ∧ env.printed then
        some (cjson.print (encodeMembers env type data.length (env.encodedData.map
          (overwrite (if Fits data.length then Base64.encode data ++ [0] else [])))))
      else none := by
  simp only [encodeMessage, stored_eq hbase64 hlen]

/-- `parse_message` gives type, length and payload back, whatever the memory it
decodes into holds. -/
def ParsesBack (base64 : Base64Api) (cjson : CJsonApi) (message : Bytes) (type : ℤ)
    (data : Bytes) : Prop :=
  ∀ logInf mem, ∃ p, parseMessage base64 cjson ⟨logInf, some mem⟩ message = some p ∧
    p.type = type ∧ p.len = data.length ∧ p.written = data ∧
    p.decodedData.map (List.take p.len) = some data

/-- A message that is returned parses back, and does not depend on what the
encoder's block held before. -/
def RoundTrip (base64 : Base64Api) (cjson : CJsonApi) (env : EncodeEnv) (type : ℤ)
    (data : Bytes) : Prop :=
  ∀ message, encodeMessage base64 cjson env type data = some message →
    ParsesBack base64 cjson message type data ∧
    (env.encodedData.isSome = true → ∀ block,
      encodeMessage base64 cjson { env with encodedData := some block } type data = some message)

/-- Decoding the text of a payload that fits its `uint16_t` size. -/
theorem decodeInto_encode (hbase64 : base64.Documented) (hfits : Fits data.length) (mem : Bytes) :
    decodeInto base64 (some mem) (Base64.encode data) = data := by
  obtain ⟨hpos, hthree, hlt⟩ := hfits
  have hroom : data.length ≤ base64DecodeLen (Base64.encode data).length % 65536 := by
    rw [Base64.encode_length, base64DecodeLen]
    omega
  simp only [decodeInto, hbase64.decode_encode _ data hroom]

/-- With all members present and a payload that fits, the message parses back. -/
theorem parsesBack_of_fits (hbase64 : base64.Documented) (hcjson : cjson.Documented)
    (htype : IsInt type) (hfits : Fits data.length)
    (henv : env.addType = true ∧ env.addLen = true ∧ env.addData = true) (mem : Bytes) :
    ParsesBack base64 cjson (cjson.print (encodeMembers env type data.length
      (some (overwrite (Base64.encode data ++ [0]) mem)))) type data := by
  intro logInf mem'
  have hlt : data.length < 65536 := by have := hfits.2.2; omega
  have hplain := plain_encoded env htype hlt mem
  obtain ⟨ht, hl, hd⟩ := find_members env type data.length
    (some (overwrite (Base64.encode data ++ [0]) mem))
  simp only [henv.1, henv.2.1, henv.2.2, if_true, Option.map_some, cstr_encoded] at ht hl hd
  have hmembers : Members cjson (cjson.print (encodeMembers env type data.length
      (some (overwrite (Base64.encode data ++ [0]) mem)))) (.num type) (.num data.length)
      (Base64.encode data) := by
    refine ⟨?_, ?_, .str (Base64.encode data), ?_, hcjson.valuestring_str _⟩
    · rw [item_print hcjson hplain, ht]
      rfl
    · rw [item_print hcjson hplain, hl]
      simp [Json.Scalar.toJson]
    · rw [item_print hcjson hplain, hd]
      rfl
  have hlenInt : IsInt (data.length : ℤ) := by unfold IsInt; omega
  have hlen : cjson.valueint (.num (data.length : ℚ)) = data.length := by
    simpa using hcjson.valueint_num data.length hlenInt
  have hwritten := decodeInto_encode hbase64 hfits mem'
  refine ⟨_, parseMessage_of_members hmembers (by simp), hcjson.valueint_num type htype, ?_,
    hwritten, ?_⟩
  · simp only [parsedOf, hlen]
    omega
  · simp only [parsedOf, hlen, hwritten, Option.map_some, Option.some.injEq, overwrite]
    have hmod : ((data.length : ℤ) % 65536).toNat = data.length := by omega
    rw [hmod, List.take_left]

theorem not_parsesBack (hcjson : cjson.Documented) {block : Block}
    (hplain : PlainMembers (encodeMembers env type data.length block))
    (hmissing : ¬ (env.addType = true ∧ env.addLen = true ∧ env.addData = true ∧
      block.isSome = true)) :
    ¬ ParsesBack base64 cjson (cjson.print (encodeMembers env type data.length block)) type
      data := by
  intro hback
  obtain ⟨p, hp, -⟩ := hback false []
  obtain ⟨t, l, d, ⟨ht, hl, item, hd, -⟩, -, -⟩ := members_of_parseMessage hp
  obtain ⟨ft, fl, fd⟩ := find_members env type data.length block
  rw [item_print hcjson hplain, ft] at ht
  rw [item_print hcjson hplain, fl] at hl
  rw [item_print hcjson hplain, fd] at hd
  refine hmissing ⟨?_, ?_, ?_, ?_⟩
  · by_contra h
    simp [h] at ht
  · by_contra h
    simp [h] at hl
  · by_contra h
    simp [h] at hd
  · cases block with
    | none => simp at hd
    | some mem => rfl

theorem print_data_injective (hcjson : cjson.Documented) (htype : IsInt type)
    (hlen : data.length < 65536) (hadd : env.addData = true) {mem mem' : Bytes}
    (hmem : ∀ c ∈ cstr mem, Json.isPlain c = true) (hmem' : ∀ c ∈ cstr mem', Json.isPlain c = true)
    (h : cjson.print (encodeMembers env type data.length (some mem)) =
      cjson.print (encodeMembers env type data.length (some mem'))) : cstr mem = cstr mem' := by
  have hparse := congrArg cjson.parse h
  rw [hcjson.parse_print _ (plain_encodeMembers htype hlen (by rintro _ ⟨⟩; exact hmem)),
    hcjson.parse_print _ (plain_encodeMembers htype hlen (by rintro _ ⟨⟩; exact hmem'))] at hparse
  have hmembers := Json.flat_injective (Option.some.inj hparse)
  simpa [encodeMembers, hadd] using hmembers

/-- A payload that does not fit leaves the text to what the block held. -/
theorem not_roundTrip_of_not_fits (hbase64 : base64.Documented) (hcjson : cjson.Documented)
    (htype : IsInt type) (hlen : data.length < 65536) (henv : env.created ∧ env.printed)
    (hblock : env.encodedData.isSome = true) (hadd : env.addData = true)
    (hfits : ¬ Fits data.length) : ¬ RoundTrip base64 cjson env type data := by
  intro h
  have hreturn := @encodeMessage_eq base64 cjson env type data hbase64 hlen
  rw [if_pos henv] at hreturn
  have hindep := (h _ hreturn).2 hblock
  -- an empty string in the block, and the text of one byte
  have htext (mem : Bytes) : encodeMessage base64 cjson { env with encodedData := some mem } type
      data = some (cjson.print (encodeMembers env type data.length (some mem))) := by
    rw [encodeMessage_eq hbase64 hlen, if_pos henv, if_neg hfits]
    rfl
  have hsame : cjson.print (encodeMembers env type data.length (some [0])) =
      cjson.print (encodeMembers env type data.length (some (Base64.encode [0] ++ [0]))) := by
    have h0 := hindep [0]
    have h1 := hindep (Base64.encode [0] ++ [0])
    rw [htext] at h0 h1
    rw [Option.some.inj h0, Option.some.inj h1]
  have hcstr := print_data_injective hcjson htype hlen hadd
    (List.all_iff_forall_prop.1 (by decide)) (List.all_iff_forall_prop.1 (by decide)) hsame
  exact absurd hcstr (by decide)

theorem encodeMembers_congr {len : ℕ} {mem mem' : Bytes} (h : cstr mem = cstr mem') :
    encodeMembers env type len (some mem) = encodeMembers env type len (some mem') := by
  simp only [encodeMembers, h]

theorem encodeMembers_none {len : ℕ} {block : Block}
    (h : ¬ (env.addData = true ∧ block.isSome = true)) :
    encodeMembers env type len block = encodeMembers env type len none := by
  cases block with
  | none => rfl
  | some mem =>
    have hadd : env.addData = false := by simpa using h
    simp [encodeMembers, hadd]

/-- The exact condition for a message to survive: it is not made at all, or its
allocations succeed and its payload fits. -/
theorem encodeMessage_roundTrip_iff (hbase64 : base64.Documented) (hcjson : cjson.Documented)
    (htype : IsInt type) (hlen : data.length < 65536) :
    RoundTrip base64 cjson env type data ↔
      ¬ (env.created = true ∧ env.printed = true) ∨
        (env.encodedData.isSome = true ∧ env.addType = true ∧ env.addLen = true ∧
          env.addData = true ∧ 0 < data.length ∧ 3 ∣ data.length ∧ data.length < 49149) := by
  by_cases henv : env.created = true ∧ env.printed = true
  · simp only [henv, not_true_eq_false, false_or, and_self]
    have hreturn := @encodeMessage_eq base64 cjson env type data hbase64 hlen
    rw [if_pos henv] at hreturn
    constructor
    · intro h
      have hback := (h _ hreturn).1
      by_cases hblock : env.addData = true ∧ env.encodedData.isSome = true
      · have hfits : Fits data.length := by
          by_contra hfits
          exact not_roundTrip_of_not_fits hbase64 hcjson htype hlen henv hblock.2 hblock.1 hfits h
        obtain ⟨mem, hmem⟩ := Option.isSome_iff_exists.1 hblock.2
        rw [hmem, Option.map_some, if_pos hfits] at hback
        have hplain := plain_encoded env htype hlen mem
        by_contra hnot
        refine not_parsesBack hcjson hplain (fun hall => ?_) hback
        exact hnot ⟨hblock.2, hall.1, hall.2.1, hblock.1, hfits⟩
      · -- no `data` member was added
        rw [encodeMembers_none (by simpa using hblock)] at hback
        exact absurd hback
          (not_parsesBack hcjson (plain_encodeMembers htype hlen (by simp)) (by simp))
    · rintro ⟨hblock, hat, hal, had, hlength⟩
      have hfits : Fits data.length := hlength
      obtain ⟨mem, hmem⟩ := Option.isSome_iff_exists.1 hblock
      intro message hmessage
      rw [hreturn, hmem, Option.map_some, if_pos hfits, Option.some.injEq] at hmessage
      subst hmessage
      refine ⟨parsesBack_of_fits hbase64 hcjson htype hfits ⟨hat, hal, had⟩ mem, fun _ block => ?_⟩
      rw [encodeMessage_eq hbase64 hlen, if_pos henv, Option.map_some, if_pos hfits]
      exact congrArg (some ∘ cjson.print)
        (encodeMembers_congr ((cstr_encoded data block).trans (cstr_encoded data mem).symm))
  · simp only [henv, not_false_eq_true, true_or, iff_true]
    intro message hmessage
    rw [encodeMessage_eq hbase64 hlen, if_neg henv] at hmessage
    cases hmessage

end Encode

def goodEnv (held : Bytes) : EncodeEnv := ⟨some held, true, true, true, true, true⟩

theorem encodeMessage_roundTrip_triple :
    RoundTrip zephyrBase64 cJson (goodEnv (text "junk")) 2 [1, 2, 3] :=
  (encodeMessage_roundTrip_iff zephyrBase64_documented cJson_documented (by decide) (by decide)).2
    (Or.inr (by decide))

/-- A payload of four bytes: the text carries the old contents of the block. -/
theorem encodeMessage_sends_junk :
    encodeMessage zephyrBase64 cJson (goodEnv (text "junk" ++ [0])) 2 [1, 2, 3, 4] =
        some (cJson.print [(text "type", .int 2), (text "len", .int 4),
          (text "data", .str (text "junk"))]) ∧
      ¬ RoundTrip zephyrBase64 cJson (goodEnv (text "junk" ++ [0])) 2 [1, 2, 3, 4] :=
  ⟨by decide, not_roundTrip_of_not_fits zephyrBase64_documented cJson_documented (by decide)
    (by decide) (by decide) rfl rfl (by decide)⟩

end Heaty.Utils
