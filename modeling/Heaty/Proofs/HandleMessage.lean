import Heaty.Proofs.Messages

/-! `handle_message` on an arbitrary frame. It trusts the frame: members are used
without looking whether they are there, and the payload's length is taken from the
message. What it does is right exactly for frames that deserve this trust. -/

namespace Heaty.Mcu

open Utils

variable {base64 : Base64Api} {cjson : CJsonApi} {env : ParseEnv} {garbage payload : Bytes}

/-! ## The switch -/

theorem dispatch_spec {p : Parsed} {h : Handled} (hd : dispatch garbage p = some h) :
    h.written = p.written ∧ h.event.received = true ∧
      ((p.type = 2 ∧ h.event.type = .heatMapDataReady ∧ h.reads = p.reads ++ List.range p.len ∧
          h.event.data = (p.decodedData.getD []).take p.len) ∨
        (p.type = 3 ∧ h.event.type = .button ∧ h.reads = p.reads) ∨
        (p.type = 1 ∧ h.event.type = .dataReady ∧ h.reads = p.reads) ∨
        (p.type ≠ 1 ∧ p.type ≠ 2 ∧ p.type ≠ 3 ∧ h.event.type = .error ∧ h.reads = p.reads)) := by
  unfold dispatch at hd
  by_cases h2 : p.type = EventType.heatMapDataReady.number
  · rw [if_pos h2] at hd
    cases hmem : p.decodedData with
    | none =>
      simp only [hmem] at hd
      split_ifs at hd with hlen
      cases hd
      exact ⟨rfl, rfl, Or.inl ⟨h2, rfl, by simp [hlen], by simp [hlen]⟩⟩
    | some mem =>
      simp only [hmem, Option.some.injEq] at hd
      subst hd
      exact ⟨rfl, rfl, Or.inl ⟨h2, rfl, rfl, rfl⟩⟩
  · rw [if_neg h2] at hd
    split_ifs at hd with h3 h1
    · cases hd
      exact ⟨rfl, rfl, Or.inr (Or.inl ⟨h3, rfl, rfl⟩)⟩
    · cases hd
      exact ⟨rfl, rfl, Or.inr (Or.inr (Or.inl ⟨h1, rfl, rfl⟩))⟩
    · cases hd
      exact ⟨rfl, rfl, Or.inr (Or.inr (Or.inr ⟨h1, h2, h3, rfl, rfl⟩))⟩

theorem dispatch_isSome_iff (garbage : Bytes) {p : Parsed} :
    (∃ r, dispatch garbage p = some r) ↔
      (p.type = EventType.heatMapDataReady.number → p.decodedData = none → p.len = 0) := by
  unfold dispatch
  by_cases h2 : p.type = EventType.heatMapDataReady.number
  · rw [if_pos h2]
    cases hmem : p.decodedData with
    | none =>
      dsimp only
      split_ifs with hlen
      · exact iff_of_true ⟨_, rfl⟩ fun _ _ => hlen
      · exact iff_of_false (by simp) fun h => hlen (h h2 rfl)
    | some mem => exact iff_of_true ⟨_, rfl⟩ fun _ h => by cases h
  · rw [if_neg h2]
    refine iff_of_true ?_ fun h => absurd h h2
    split_ifs <;> exact ⟨_, rfl⟩

/-! ## Frames -/

def field (members : List (Bytes × Json UInt8)) (key : Bytes) : Option (Json UInt8) :=
  (members.find? fun m => m.1 = key).map Prod.snd

/-- A JSON object with a numeric type, a string that is base64 for `bytes`, and
their number. -/
def Valid (base64 : Base64Api) (cjson : CJsonApi) (payload : Bytes) (type : ℚ) (bytes : Bytes) :
    Prop :=
  ∃ members data, cjson.parse payload = some (.obj members) ∧
    field members (text "type") = some (.num type) ∧
    field members (text "data") = some (.str data) ∧
    (∃ dlen, base64.decode dlen data = .ok bytes) ∧
    field members (text "len") = some (.num bytes.length)

/-- The frame is handled without following a NULL pointer or reading past the
decoded bytes; a valid message is submitted as it is, and every other one as an
error. -/
def FrameOk (base64 : Base64Api) (cjson : CJsonApi) (env : ParseEnv) (garbage : Bytes)
    (payload rest : Bytes) : Prop :=
  ∃ h, handleMessage base64 cjson env garbage (payload ++ 0 :: rest) = some h ∧
    (∀ i ∈ h.reads, i < h.written.length) ∧
    (∀ type bytes, Valid base64 cjson payload type bytes →
      (h.event.type.number : ℚ) = type ∧ (type = 2 → h.event.data = bytes)) ∧
    ((¬ ∃ type bytes, Valid base64 cjson payload type bytes) → h.event.type = .error)

/-- The bytes a text decodes to do not depend on the room for them. -/
theorem decode_unique (hbase64 : base64.Documented) {dlen dlen' : ℕ} {data bytes bytes' : Bytes}
    (h : base64.decode dlen data = .ok bytes) (h' : base64.decode dlen' data = .ok bytes') :
    bytes = bytes' := by
  have h1 := hbase64.decode_more _ (max dlen dlen') _ _ h (le_max_left _ _)
  have h2 := hbase64.decode_more _ (max dlen dlen') _ _ h' (le_max_right _ _)
  exact Except.ok.inj (h1.symm.trans h2)

theorem Valid.members (hcjson : cjson.Documented) {type : ℚ} {bytes : Bytes}
    (h : Valid base64 cjson payload type bytes) :
    ∃ data, Members cjson payload (.num type) (.num bytes.length) data ∧
      ∃ dlen, base64.decode dlen data = .ok bytes := by
  obtain ⟨members, data, hparse, htype, hdata, hdecode, hlen⟩ := h
  refine ⟨data, ⟨?_, ?_, .str data, ?_, hcjson.valuestring_str data⟩, hdecode⟩
  all_goals rw [hparse, hcjson.item_obj]; assumption

theorem Members.unique {type type' len len' : Json UInt8} {data data' : Bytes}
    (h : Members cjson payload type len data) (h' : Members cjson payload type' len' data') :
    type = type' ∧ len = len' ∧ data = data' := by
  obtain ⟨item, hitem, hdata⟩ := h.data
  obtain ⟨item', hitem', hdata'⟩ := h'.data
  refine ⟨Option.some.inj (h.type.symm.trans h'.type),
    Option.some.inj (h.len.symm.trans h'.len), ?_⟩
  rw [Option.some.inj (hitem.symm.trans hitem')] at hdata
  exact Option.some.inj (hdata.symm.trans hdata')

theorem decodeInto_cases (base64 : Base64Api) (block : Block) (data : Bytes) :
    decodeInto base64 block data = [] ∨
      base64.decode (base64DecodeLen data.length % 65536) data =
        .ok (decodeInto base64 block data) := by
  cases block with
  | none => exact Or.inl rfl
  | some mem =>
    cases hd : base64.decode (base64DecodeLen data.length % 65536) data with
    | error e => exact Or.inl (by simp [decodeInto, hd])
    | ok bytes => exact Or.inr (by simp [decodeInto, hd])

/-- If as many bytes were written as the text decodes to, they are these. -/
theorem decodeInto_eq (hbase64 : base64.Documented) {block : Block} {data bytes : Bytes} {dlen : ℕ}
    (hdecode : base64.decode dlen data = .ok bytes)
    (hle : bytes.length ≤ (decodeInto base64 block data).length) :
    decodeInto base64 block data = bytes ∧ bytes.length < 65536 := by
  rcases decodeInto_cases base64 block data with hnil | hok
  · rw [hnil, List.length_nil, Nat.le_zero, List.length_eq_zero_iff] at hle
    exact ⟨hnil.trans hle.symm, by simp [hle]⟩
  · have heq := decode_unique hbase64 hok hdecode
    have hroom := hbase64.decode_room _ _ _ hok
    refine ⟨heq, ?_⟩
    rw [← heq]
    exact hroom.trans_lt (Nat.mod_lt _ (by decide))

/-- The frames that deserve the trust: the members are there, the log finds its four
bytes, and the message is either valid, of a type the switch knows and decoded in
full, or invalid and not of one of the types submitted unchecked. -/
def Trustworthy (base64 : Base64Api) (cjson : CJsonApi) (env : ParseEnv) (payload : Bytes) : Prop :=
  ∃ type len data, Members cjson payload type len data ∧
    (env.logInf = true → 4 ≤ (decodeInto base64 env.decodedData data).length) ∧
    ((∃ q bytes, Valid base64 cjson payload q bytes ∧ (q = 1 ∨ q = 2 ∨ q = 3 ∨ q = 4) ∧
        (q = 2 → bytes.length ≤ (decodeInto base64 env.decodedData data).length)) ∨
      ((¬ ∃ q bytes, Valid base64 cjson payload q bytes) ∧
        cjson.valueint type ≠ 1 ∧ cjson.valueint type ≠ 2 ∧ cjson.valueint type ≠ 3))

theorem valueint_known (hcjson : cjson.Documented) {q : ℚ} (hq : q = 1 ∨ q = 2 ∨ q = 3 ∨ q = 4) :
    ∃ z : ℤ, q = z ∧ (z = 1 ∨ z = 2 ∨ z = 3 ∨ z = 4) ∧ cjson.valueint (.num q) = z := by
  have hint (z : ℤ) (hz : IsInt z) (hqz : q = z) : cjson.valueint (.num q) = z := by
    rw [hqz, hcjson.valueint_num z hz]
  rcases hq with hq | hq | hq | hq
  · exact ⟨1, by simp [hq], by simp, hint 1 (by decide) (by simp [hq])⟩
  · exact ⟨2, by simp [hq], by simp, hint 2 (by decide) (by simp [hq])⟩
  · exact ⟨3, by simp [hq], by simp, hint 3 (by decide) (by simp [hq])⟩
  · exact ⟨4, by simp [hq], by simp, hint 4 (by decide) (by simp [hq])⟩

theorem trustworthy_of_frameOk {rest : Bytes} (hpayload : 0 ∉ payload)
    (h : FrameOk base64 cjson env garbage payload rest) : Trustworthy base64 cjson env payload := by
  obtain ⟨r, hr, hreads, hvalid, hinvalid⟩ := h
  rw [handleMessage, cstr_append_zero hpayload, Option.bind_eq_some_iff] at hr
  obtain ⟨p, hp, hd⟩ := hr
  obtain ⟨type, len, data, hmembers, -, rfl⟩ := members_of_parseMessage hp
  obtain ⟨hwritten, -, hcases⟩ := dispatch_spec hd
  rw [hwritten] at hreads
  refine ⟨type, len, data, hmembers, fun hlog => ?_, ?_⟩
  · -- the log's last index is among the reads of every case
    have hthree : 3 ∈ r.reads := by
      rcases hcases with ⟨-, -, h, -⟩ | ⟨-, -, h⟩ | ⟨-, -, h⟩ | ⟨-, -, -, -, h⟩ <;>
        simp [h, parsedOf, hlog]
    exact hreads 3 hthree
  · by_cases hv : ∃ q bytes, Valid base64 cjson payload q bytes
    · left
      obtain ⟨q, bytes, hv⟩ := hv
      obtain ⟨hnumber, hdata⟩ := hvalid q bytes hv
      refine ⟨q, bytes, hv, ?_, fun hq => ?_⟩
      · rcases hcases with ⟨-, h, -⟩ | ⟨-, h, -⟩ | ⟨-, h, -⟩ | ⟨-, -, -, h, -⟩ <;>
          rw [h] at hnumber <;> simp [EventType.number] at hnumber <;> simp [← hnumber]
      · rcases hcases with ⟨-, -, hr, hd⟩ | ⟨-, h, -⟩ | ⟨-, h, -⟩ | ⟨-, -, -, h, -⟩
        · -- the copy read as many bytes as it delivered
          have hle : bytes.length ≤ (parsedOf base64 cjson env type len data).len := by
            rw [← hdata hq, hd]
            exact List.length_take_le _ _
          by_contra hlt
          have hpos : 0 < (parsedOf base64 cjson env type len data).len := by omega
          have hlast := hreads ((parsedOf base64 cjson env type len data).len - 1) (by
            rw [hr, List.mem_append, List.mem_range]
            right
            omega)
          simp only [parsedOf] at hlast hle hlt
          omega
        all_goals
          rw [h, hq] at hnumber
          norm_num [EventType.number] at hnumber
    · right
      have herror := hinvalid hv
      refine ⟨hv, ?_⟩
      rcases hcases with ⟨-, h, -⟩ | ⟨-, h, -⟩ | ⟨-, h, -⟩ | ⟨h1, h2, h3, -⟩
      · simp [h] at herror
      · simp [h] at herror
      · simp [h] at herror
      · exact ⟨h1, h2, h3⟩

theorem handleMessage_of_members (hpayload : 0 ∉ payload) {type len : Json UInt8} {data : Bytes}
    (hmembers : Members cjson payload type len data)
    (hlog : env.logInf = true → 4 ≤ (decodeInto base64 env.decodedData data).length)
    (garbage rest : Bytes) :
    handleMessage base64 cjson env garbage (payload ++ 0 :: rest) =
      dispatch garbage (parsedOf base64 cjson env type len data) := by
  have henv : ¬ (env.logInf = true ∧ env.decodedData = none) := by
    rintro ⟨hinf, hnull⟩
    have := hlog hinf
    simp [hnull, decodeInto] at this
  rw [handleMessage, cstr_append_zero hpayload, parseMessage_of_members hmembers henv,
    Option.bind_some]

theorem reads_lt {type len : Json UInt8} {data : Bytes}
    (hlog : env.logInf = true → 4 ≤ (decodeInto base64 env.decodedData data).length) :
    ∀ i ∈ (parsedOf base64 cjson env type len data).reads,
      i < (decodeInto base64 env.decodedData data).length := by
  intro i hi
  simp only [parsedOf] at hi
  split_ifs at hi with hinf
  · have := hlog hinf
    fin_cases hi <;> omega
  · cases hi

theorem frameOk_of_invalid (hpayload : 0 ∉ payload) {type len : Json UInt8} {data : Bytes}
    (hmembers : Members cjson payload type len data)
    (hlog : env.logInf = true → 4 ≤ (decodeInto base64 env.decodedData data).length)
    (hinvalid : ¬ ∃ q bytes, Valid base64 cjson payload q bytes)
    (htype : cjson.valueint type ≠ 1 ∧ cjson.valueint type ≠ 2 ∧ cjson.valueint type ≠ 3)
    (garbage rest : Bytes) : FrameOk base64 cjson env garbage payload rest := by
  obtain ⟨r, hr⟩ := (dispatch_isSome_iff garbage
    (p := parsedOf base64 cjson env type len data)).2 fun h => absurd h htype.2.1
  obtain ⟨hwritten, -, hcases⟩ := dispatch_spec hr
  refine ⟨r, (handleMessage_of_members hpayload hmembers hlog garbage rest).trans hr, ?_,
    fun q bytes hv => absurd ⟨q, bytes, hv⟩ hinvalid, fun _ => ?_⟩
  · rw [hwritten]
    rcases hcases with ⟨h, -⟩ | ⟨h, -⟩ | ⟨h, -⟩ | ⟨-, -, -, -, hreads⟩
    · exact absurd h htype.2.1
    · exact absurd h htype.2.2
    · exact absurd h htype.1
    · exact fun i hi => reads_lt hlog i (hreads ▸ hi)
  · rcases hcases with ⟨h, -⟩ | ⟨h, -⟩ | ⟨h, -⟩ | ⟨-, -, -, he, -⟩
    · exact absurd h htype.2.1
    · exact absurd h htype.2.2
    · exact absurd h htype.1
    · exact he

/-- What a heat map that was decoded in full carries: its length fits the `uint16_t`
and the copy takes all bytes and no others. -/
theorem parsed_heatMap (hbase64 : base64.Documented) (hcjson : cjson.Documented) (type : Json UInt8)
    {data bytes : Bytes} {dlen : ℕ} (hdecode : base64.decode dlen data = .ok bytes)
    (hfull : bytes.length ≤ (decodeInto base64 env.decodedData data).length) :
    decodeInto base64 env.decodedData data = bytes ∧
      (parsedOf base64 cjson env type (.num bytes.length) data).len = bytes.length ∧
      ((parsedOf base64 cjson env type (.num bytes.length) data).decodedData.getD []).take
        bytes.length = bytes := by
  obtain ⟨hwhole, hlt⟩ := decodeInto_eq hbase64 hdecode hfull
  have hint := hcjson.valueint_num (bytes.length : ℤ) (by unfold IsInt; omega)
  rw [Int.cast_natCast] at hint
  refine ⟨hwhole, ?_, ?_⟩
  · simp only [parsedOf, hint]
    omega
  · simp only [parsedOf, hwhole]
    cases hblock : env.decodedData with
    | none =>
      rw [hblock] at hwhole
      simp [← hwhole, decodeInto]
    | some mem => simp [overwrite]

/-- A valid message of a known type, decoded in full if it is a heat map. -/
theorem frameOk_of_valid (hbase64 : base64.Documented) (hcjson : cjson.Documented)
    (hpayload : 0 ∉ payload) {data : Bytes} {q : ℚ} {bytes : Bytes}
    (hmembers : Members cjson payload (.num q) (.num bytes.length) data)
    (hlog : env.logInf = true → 4 ≤ (decodeInto base64 env.decodedData data).length)
    {dlen : ℕ} (hdecode : base64.decode dlen data = .ok bytes)
    (hq : q = 1 ∨ q = 2 ∨ q = 3 ∨ q = 4)
    (hv : ∀ q' bytes', Valid base64 cjson payload q' bytes' → q' = q ∧ bytes' = bytes)
    (hvalid : Valid base64 cjson payload q bytes)
    (hfull : q = 2 → bytes.length ≤ (decodeInto base64 env.decodedData data).length)
    (garbage rest : Bytes) : FrameOk base64 cjson env garbage payload rest := by
  obtain ⟨z, hqz, hz, htype⟩ := valueint_known hcjson hq
  have hptype : (parsedOf base64 cjson env (.num q) (.num bytes.length) data).type = z := htype
  have hq2 : z = 2 → q = 2 := fun h => by rw [hqz, h]; norm_num
  obtain ⟨r, hr⟩ := (dispatch_isSome_iff garbage
    (p := parsedOf base64 cjson env (.num q) (.num bytes.length) data)).2 (by
      intro h hnull
      obtain ⟨hwhole, hlen, -⟩ := parsed_heatMap hbase64 hcjson (.num q) hdecode
        (hfull (hq2 (hptype.symm.trans h)))
      rw [hlen, ← hwhole]
      simp only [parsedOf, Option.map_eq_none_iff] at hnull
      simp [hnull, decodeInto])
  obtain ⟨hwritten, -, hcases⟩ := dispatch_spec hr
  refine ⟨r, (handleMessage_of_members hpayload hmembers hlog garbage rest).trans hr, ?_, ?_,
    fun hno => absurd ⟨q, bytes, hvalid⟩ hno⟩
  · rw [hwritten]
    intro i hi
    rcases hcases with ⟨h, -, hreads, -⟩ | ⟨-, -, hreads⟩ | ⟨-, -, hreads⟩ | ⟨-, -, -, -, hreads⟩
    · obtain ⟨hwhole, hlen, -⟩ := parsed_heatMap hbase64 hcjson (.num q) hdecode
        (hfull (hq2 (hptype.symm.trans h)))
      rw [hreads, List.mem_append, List.mem_range, hlen] at hi
      rcases hi with hi | hi
      · exact reads_lt hlog i hi
      · simpa only [parsedOf, hwhole] using hi
    all_goals exact reads_lt hlog i (hreads ▸ hi)
  · intro q' bytes' hv'
    obtain ⟨rfl, rfl⟩ := hv q' bytes' hv'
    -- the event's number is the type, and only a heat map is asked for its data
    have hnot2 {n : ℤ} (hzn : z = n) (hn : n ≠ 2) (hq : q' = 2) : False := by
      rw [hqz, hzn] at hq
      exact hn (by exact_mod_cast hq)
    rcases hcases with ⟨h, he, -, hdata⟩ | ⟨h, he, -⟩ | ⟨h, he, -⟩ | ⟨h1, h2, h3, he, -⟩
    · have hz2 : z = 2 := hptype.symm.trans h
      obtain ⟨-, hlen, hcopy⟩ := parsed_heatMap hbase64 hcjson (.num q') hdecode
        (hfull (hq2 hz2))
      exact ⟨by rw [he, hqz, hz2]; rfl, fun _ => by rw [hdata, hlen, hcopy]⟩
    · have hz3 : z = 3 := hptype.symm.trans h
      exact ⟨by rw [he, hqz, hz3]; rfl, fun hq => (hnot2 hz3 (by decide) hq).elim⟩
    · have hz1 : z = 1 := hptype.symm.trans h
      exact ⟨by rw [he, hqz, hz1]; rfl, fun hq => (hnot2 hz1 (by decide) hq).elim⟩
    · rw [hptype] at h1 h2 h3
      have hz4 : z = 4 := by omega
      exact ⟨by rw [he, hqz, hz4]; rfl, fun hq => (hnot2 hz4 (by decide) hq).elim⟩

theorem Valid.unique (hbase64 : base64.Documented) (hcjson : cjson.Documented) {q q' : ℚ}
    {bytes bytes' : Bytes} (h : Valid base64 cjson payload q bytes)
    (h' : Valid base64 cjson payload q' bytes') : q' = q ∧ bytes' = bytes := by
  obtain ⟨data, hmembers, dlen, hdecode⟩ := h.members hcjson
  obtain ⟨data', hmembers', dlen', hdecode'⟩ := h'.members hcjson
  obtain ⟨hqq, -, rfl⟩ := Members.unique hmembers hmembers'
  exact ⟨(Json.num.inj hqq).symm, decode_unique hbase64 hdecode' hdecode⟩

def heatMapFrame : Bytes := text "\x7b\"type\":2,\"data\":\"AQIDBAUG\",\"len\":6\x7d"

end Heaty.Mcu
