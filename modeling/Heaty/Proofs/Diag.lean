import Heaty.Spec.Diag

/-! When the callers of `base64_encode` that allocate do as they should. -/

namespace Heaty.Diag

open Utils (Block base64EncodeLen overwrite)

variable {base64 : Base64Api} {block : Block} {mem : Bytes} {input : Input} {chunk : Chunk}

theorem length_encode (data : Bytes) :
    (Base64.encode data).length = base64EncodeLen data.length :=
  Base64.encode_length data

/-- The size that is asked for has room for the text just where it is not cut to sixteen
bits. -/
theorem room_iff (input : Input) :
    base64EncodeLen input.data.length + 1 ≤
        base64EncodeLen (input.data.length + 1) % 65536 + 1 ↔ input.data.length ≤ 49148 := by
  have hlt := input.length_lt
  unfold base64EncodeLen
  omega

variable {data string : Bytes} {size k : ℕ} {written : List ℕ} {failed : Bool}

/-- Text that starts a block in which it has room. -/
theorem encodes_success_iff (hk : k ≤ size) :
    Encodes data ⟨size, block, List.range k, some string, false⟩ ↔
      Base64.encode data ++ [0] <+: string := by
  constructor
  · intro h
    obtain ⟨mem, hmem, hprefix⟩ := h.whole rfl
    rwa [Option.some.inj hmem]
  · intro h
    exact ⟨fun i hi => (List.mem_range.1 hi).trans_le hk, fun _ => ⟨string, rfl, h⟩, nofun⟩

theorem encodes_failure_iff (s : Block) :
    Encodes data ⟨size, block, [], s, true⟩ ↔ block = none :=
  ⟨fun h => h.kept rfl, fun h => ⟨by simp, nofun, fun _ => h⟩⟩

theorem encodeBase64_none (base64 : Base64Api) (input : Input) :
    Encodes input.data (encodeBase64 base64 none input) :=
  (encodes_failure_iff _).2 rfl

theorem encodeBase64_some_iff (h : base64.Documented) (mem : Bytes) (input : Input) :
    Encodes input.data (encodeBase64 base64 (some mem) input) ↔ Encodable mem input := by
  have hroom := room_iff input
  rw [Encodable, ← hroom, ← length_encode]
  rw [encodeBase64]
  generalize base64EncodeLen (input.data.length + 1) % 65536 + 1 = size at *
  by_cases hnil : input.data = []
  · simp only [hnil, h.encode_nil, ne_eq, not_true_eq_false, if_false, false_and, true_and,
      false_or, List.length_nil]
    rw [encodes_success_iff (Nat.zero_le size), Utils.overwrite_nil_left]
    cases mem <;> simp [Base64.encode, eq_comm]
  simp only [hnil, not_false_eq_true, true_and, false_and, or_false, ne_eq]
  by_cases hfits : (Base64.encode input.data).length + 1 ≤ size
  · simp only [h.encode_fits size _ hnil hfits, not_true_eq_false, if_false]
    rw [encodes_success_iff (by simpa using hfits)]
    exact iff_of_true (List.prefix_append _ _) hfits
  · obtain ⟨hret, hstored⟩ := h.encode_short size _ hnil (not_le.1 hfits)
    simp only [if_pos hret, hstored, List.length_nil, List.range_zero]
    rw [encodes_failure_iff]
    exact iff_of_false (by simp) hfits

theorem encode_chunk (h : base64.Documented) (chunk : Chunk) :
    base64.encode (base64EncodeLen chunk.data.length + 1) chunk.data =
      ⟨0, base64EncodeLen chunk.data.length, Base64.encode chunk.data ++ [0]⟩ := by
  rw [← length_encode]
  exact h.encode_fits _ _ chunk.ne_nil (le_refl _)

/-- With a block, the call writes one byte behind it. -/
theorem retrieve_some (h : base64.Documented) (chunk : Chunk) (mem : Bytes) :
    ¬ Encodes chunk.data (retrieveMemfaultDataAsBase64 base64 (some chunk) (some mem)) := by
  intro hencodes
  have hinside := hencodes.inside (base64EncodeLen chunk.data.length + 1)
  simp [retrieveMemfaultDataAsBase64, encode_chunk h] at hinside

theorem retrieve_none (base64 : Base64Api) (data : Bytes) (chunk : Option Chunk) :
    Encodes data (retrieveMemfaultDataAsBase64 base64 chunk none) := by
  cases chunk <;> exact (encodes_failure_iff _).2 rfl

/-- What is handed out is what the image of a heat map is returned as. -/
theorem encodeBase64_string (base64 : Base64Api) (block : Block) (input : Input) :
    (encodeBase64 base64 block input).string =
      HeatMap.encodeBase64 base64 block input.data := by
  simp only [encodeBase64, HeatMap.encodeBase64, Nat.mod_eq_of_lt input.length_lt,
    List.take_length]
  cases block with
  | none => simp
  | some mem => split_ifs <;> rfl

/-- `encode_base64` is right without a block, and with one for the inputs that can be encoded
into it; the other call only where there is nothing to send, or no block. -/
theorem encodings_iff (h : base64.Documented) :
    (∀ block input, Encodes input.data (encodeBase64 base64 block input) ↔
      ∀ mem, block = some mem → Encodable mem input) ∧
    ∀ chunk block, Encodes (chunk.elim [] Chunk.data)
        (retrieveMemfaultDataAsBase64 base64 chunk block) ↔ chunk = none ∨ block = none := by
  constructor
  · intro block input
    cases block with
    | none => exact iff_of_true (encodeBase64_none base64 input) nofun
    | some mem =>
      rw [encodeBase64_some_iff h]
      exact ⟨fun hencodable _ hmem => Option.some.inj hmem ▸ hencodable, fun hall => hall mem rfl⟩
  · intro chunk block
    cases chunk with
    | none => exact iff_of_true ((encodes_failure_iff _).2 rfl) (.inl rfl)
    | some chunk =>
      cases block with
      | none => exact iff_of_true (retrieve_none base64 _ _) (.inr rfl)
      | some mem => exact iff_of_false (retrieve_some h chunk mem) (by simp)

def threeBytes : Input := ⟨[1, 2, 3], by decide⟩

/-- Three bytes are encoded into a block that holds others. -/
theorem encodings_iff_three :
    Encodes threeBytes.data (encodeBase64 zephyrBase64 (some [9, 9, 9, 9, 9, 9, 9, 9, 9])
      threeBytes) :=
  ((encodings_iff zephyrBase64_documented).1 _ _).2 fun _ _ => .inl ⟨by decide, by decide⟩

def oneByte : Chunk := ⟨[7], by decide, by decide⟩

/-- The text of one byte and its terminator fill their block, and a second terminator lands
behind it. -/
theorem second_terminator_outside :
    ¬ Encodes oneByte.data
      (retrieveMemfaultDataAsBase64 zephyrBase64 (some oneByte) (some [0, 0, 0, 0, 0, 0])) :=
  retrieve_some zephyrBase64_documented oneByte _

end Heaty.Diag
