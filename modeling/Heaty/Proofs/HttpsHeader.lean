import Heaty.Spec.HttpsClient

/-! When `createHeader`, which does not look at what `snprintf` returns, stays inside its
buffer and returns a complete header. -/

namespace Heaty.Https

open Utils (cstr overwrite)

variable {deviceSerial hostname projectKey mem line : Bytes} {buffer : Utils.Block}
  {len msgLen pos size i : ℕ} {lines : List Bytes}

def requestHeader (deviceSerial hostname projectKey : Bytes) (len : ℕ) : Bytes :=
  text "POST /api/v0/chunks/" ++ deviceSerial ++ text " HTTP/1.1\r\n" ++
    (text "Host:" ++ hostname ++ text "\r\n") ++
    (text "User-Agent: MemfaultSDK/0.4.2\r\nMemfault-Project-Key:" ++ projectKey ++ text "\r\n") ++
    text "Content-Type:application/octet-stream\r\n" ++
    (text "Content-Length:" ++ Decimal.digits len ++ text "\r\n\r\n")

def bufferSize (buffer : Utils.Block) : ℕ := if buffer.isSome then headerBufSize else 0

/-- What a call has to do: it writes into its buffer only, no room wraps, and it returns a
complete header or NULL. -/
structure HeaderContract (buffer : Utils.Block) (deviceSerial hostname projectKey : Bytes)
    (len : ℕ) : Prop where
  inside : ∀ p ∈ (createHeaderCall buffer deviceSerial hostname projectKey len).prints,
    ∀ i ∈ p.written, i < bufferSize buffer
  room : ∀ p ∈ (createHeaderCall buffer deviceSerial hostname projectKey len).prints,
    (p.room : ℤ) = headerBufSize - p.pos
  complete : ∀ header,
    (createHeaderCall buffer deviceSerial hostname projectKey len).ret = some header →
      cstr header = requestHeader deviceSerial hostname projectKey len

theorem foldl_printLine (mem : Bytes) (msgLen : ℕ) (lines : List Bytes) :
    (lines.foldl printLine (mem, msgLen)).1 =
      (headerPrints msgLen lines).foldl (fun mem p => snprintf mem p.pos p.room p.line) mem := by
  induction lines generalizing mem msgLen with
  | nil => rfl
  | cons line lines ih => exact ih _ _

theorem snprintf_of_ne (hsize : size ≠ 0) (mem : Bytes) (pos : ℕ) (line : Bytes) :
    snprintf mem pos size line = mem.take pos ++ (line.take (size - 1) ++ [0]) ++
      (mem.drop pos).drop (line.take (size - 1) ++ [0]).length := by
  rw [snprintf, if_neg hsize, overwrite, List.append_assoc (mem.take pos)]

/-- A print changes nothing but what it is said to write. -/
theorem snprintf_unwritten {p : HeaderPrint} (hpos : p.room ≠ 0 → p.pos ≤ mem.length)
    (hi : i ∉ p.written) : (snprintf mem p.pos p.room p.line)[i]? = mem[i]? := by
  by_cases hroom : p.room = 0
  · rw [snprintf, if_pos hroom]
  · have hlen : (p.line.take (p.room - 1) ++ [0]).length = min p.line.length (p.room - 1) + 1 := by
      simp [min_comm]
    have hout : i < p.pos ∨ p.pos + (min p.line.length (p.room - 1) + 1) ≤ i := by
      rw [HeaderPrint.written, if_neg hroom, List.mem_range'_1] at hi
      omega
    have hfirst : (mem.take p.pos).length = p.pos := List.length_take_of_le (hpos hroom)
    have hboth : (mem.take p.pos ++ (p.line.take (p.room - 1) ++ [0])).length =
        p.pos + (min p.line.length (p.room - 1) + 1) := by rw [List.length_append, hfirst, hlen]
    rw [snprintf_of_ne hroom]
    rcases hout with hbefore | hbehind
    · rw [List.append_assoc, List.getElem?_append_left (hfirst.symm ▸ hbefore),
        List.getElem?_take_of_lt hbefore]
    · rw [List.getElem?_append_right (hboth ▸ hbehind), hboth, hlen, List.drop_drop,
        List.getElem?_drop]
      congr 1
      omega

theorem le_length_snprintf (hpos : size ≠ 0 → pos ≤ mem.length) (line : Bytes) :
    mem.length ≤ (snprintf mem pos size line).length := by
  by_cases hsize : size = 0
  · rw [snprintf, if_pos hsize]
  · have hle := hpos hsize
    rw [snprintf_of_ne hsize]
    simp only [List.length_append, List.length_take, List.length_drop, List.length_singleton]
    omega

theorem pos_written {p : HeaderPrint} (hroom : p.room ≠ 0) : p.pos ∈ p.written := by
  rw [HeaderPrint.written, if_neg hroom, List.mem_range'_1]
  exact ⟨le_rfl, Nat.lt_add_of_pos_right (Nat.succ_pos _)⟩

/-- Prints that write into the buffer only leave what lies behind it. -/
theorem foldl_behind {prints : List HeaderPrint}
    (hinside : ∀ p ∈ prints, ∀ j ∈ p.written, j < headerBufSize)
    (hmem : headerBufSize ≤ mem.length) (hi : headerBufSize ≤ i) :
    (prints.foldl (fun mem p => snprintf mem p.pos p.room p.line) mem)[i]? = mem[i]? := by
  induction prints generalizing mem with
  | nil => rfl
  | cons p prints ih =>
    rw [List.forall_mem_cons] at hinside
    have hpos : p.room ≠ 0 → p.pos ≤ mem.length := by
      intro hroom
      exact (hinside.1 _ (pos_written hroom)).le.trans hmem
    have hout : i ∉ p.written := fun hwritten => absurd (hinside.1 i hwritten) hi.not_gt
    rw [List.foldl_cons, ih hinside.2 (hmem.trans (le_length_snprintf hpos p.line)),
      snprintf_unwritten hpos hout]

theorem HeaderContract.behind (h : HeaderContract (some mem) deviceSerial hostname projectKey len)
    (hmem : headerBufSize ≤ mem.length) (hi : headerBufSize ≤ i) :
    (createHeader mem deviceSerial hostname projectKey len)[i]? = mem[i]? := by
  rw [createHeader, foldl_printLine]
  exact foldl_behind h.inside hmem hi

/-- With a room that does not wrap, what has been printed is terminated within the
buffer. -/
theorem snprintf_terminates (hpos : pos + size = headerBufSize)
    (hmem : size ≠ 0 ∨ 0 ∈ mem.take headerBufSize) (line : Bytes) :
    0 ∈ (snprintf mem pos size line).take headerBufSize := by
  by_cases hsize : size = 0
  · rw [snprintf, if_pos hsize]
    exact hmem.resolve_left (not_not.2 hsize)
  · have hlen : (mem.take pos ++ (line.take (size - 1) ++ [0])).length ≤ headerBufSize := by
      simp only [List.length_append, List.length_take, List.length_singleton]
      omega
    rw [snprintf_of_ne hsize, List.take_append, List.take_of_length_le hlen]
    simp

theorem foldl_terminates {prints : List HeaderPrint}
    (hroom : ∀ p ∈ prints, (p.room : ℤ) = headerBufSize - p.pos)
    (hmem : 0 ∈ mem.take headerBufSize) :
    0 ∈ (prints.foldl (fun mem p => snprintf mem p.pos p.room p.line) mem).take headerBufSize := by
  induction prints generalizing mem with
  | nil => exact hmem
  | cons p prints ih =>
    have hfirst := hroom p List.mem_cons_self
    exact ih (fun p hp => hroom p (List.mem_cons_of_mem _ hp))
      (snprintf_terminates (by omega) (Or.inr hmem) p.line)

theorem cstr_length_lt {n : ℕ} (h : 0 ∈ mem.take n) : (cstr mem).length < n := by
  by_contra hle
  have hpre : mem.take n <+: cstr mem :=
    List.prefix_of_prefix_length_le (List.take_prefix _ _) (List.takeWhile_prefix _)
      ((List.length_take_le _ _).trans (not_lt.1 hle))
  exact absurd (List.mem_takeWhile_imp (hpre.subset h)) (by decide)

theorem printLines_terminate (hne : lines ≠ [])
    (hroom : ∀ p ∈ headerPrints 0 lines, (p.room : ℤ) = headerBufSize - p.pos) (mem : Bytes) :
    0 ∈ (lines.foldl printLine (mem, 0)).1.take headerBufSize := by
  obtain ⟨line, rest, rfl⟩ := List.exists_cons_of_ne_nil hne
  have hfirst : 0 ∈ (snprintf mem 0 headerBufSize line).take headerBufSize :=
    snprintf_terminates (Nat.zero_add _) (Or.inl (by decide)) line
  rw [headerPrints, List.forall_mem_cons] at hroom
  rw [foldl_printLine, headerPrints, List.foldl_cons]
  exact foldl_terminates hroom.2 hfirst

/-! ## The header -/

theorem headerRoom_eq (h : msgLen ≤ headerBufSize) :
    headerRoom msgLen = headerBufSize - msgLen := by
  unfold headerRoom
  unfold headerBufSize at h ⊢
  omega

theorem printLine_fits {written rest line : Bytes}
    (hroom : written.length + line.length < headerBufSize) :
    printLine (written ++ rest, written.length) line =
      ((written ++ line) ++ 0 :: rest.drop (line.length + 1), (written ++ line).length) := by
  have hsize := headerRoom_eq (show written.length ≤ headerBufSize by omega)
  have hlen : (written.length + line.length) % 4294967296 = written.length + line.length := by
    unfold headerBufSize at hroom
    omega
  have htake : line.take (headerBufSize - written.length - 1) = line :=
    List.take_of_length_le (by omega)
  have hne : headerBufSize - written.length ≠ 0 := by omega
  simp only [printLine, hsize, hlen, snprintf, htake, if_neg hne, List.take_left',
    List.drop_left', overwrite, List.length_append, List.length_singleton, List.append_assoc,
    List.singleton_append]

theorem printLines_state {written rest : Bytes}
    (hroom : written.length + lines.flatten.length < headerBufSize) :
    ∃ rest', lines.foldl printLine (written ++ rest, written.length) =
      (written ++ lines.flatten ++ rest', (written ++ lines.flatten).length) := by
  induction lines generalizing written rest with
  | nil => exact ⟨rest, by simp⟩
  | cons line lines ih =>
    simp only [List.flatten_cons, List.length_append] at hroom
    rw [List.foldl_cons, printLine_fits (by omega)]
    obtain ⟨rest', h⟩ := @ih (written ++ line) (0 :: rest.drop (line.length + 1))
      (by simpa [add_assoc] using hroom)
    exact ⟨rest', by simpa [List.append_assoc] using h⟩

theorem headerPrints_fit {n : ℕ} (hroom : n + lines.flatten.length < headerBufSize)
    {p : HeaderPrint} (hp : p ∈ headerPrints n lines) :
    (p.room : ℤ) = headerBufSize - p.pos ∧ ∀ i ∈ p.written, i < headerBufSize := by
  induction lines generalizing n with
  | nil => cases hp
  | cons line lines ih =>
    simp only [List.flatten_cons, List.length_append] at hroom
    have hsize := headerRoom_eq (show n ≤ headerBufSize by omega)
    rcases List.mem_cons.1 hp with rfl | hp
    · refine ⟨by dsimp only; omega, fun i hi => ?_⟩
      simp only [HeaderPrint.written, hsize] at hi
      split_ifs at hi with hzero
      · cases hi
      · rw [List.mem_range'_1] at hi
        omega
    · have hlen : (n + line.length) % 4294967296 = n + line.length := by
        unfold headerBufSize at hroom
        omega
      rw [hlen] at hp
      exact ih (by omega) hp

/-- All the texts but the last, which has the length of the body. -/
def firstLines (deviceSerial hostname projectKey : Bytes) : List Bytes :=
  (headerLines deviceSerial hostname projectKey 0).dropLast

def lengthLine (number : Bytes) : Bytes := text "Content-Length:" ++ number ++ text "\r\n\r\n"

theorem headerLines_eq (deviceSerial hostname projectKey : Bytes) (len : ℕ) :
    headerLines deviceSerial hostname projectKey len =
      firstLines deviceSerial hostname projectKey ++
        [lengthLine (Decimal.int (Int.bmod len 4294967296))] := rfl

theorem requestHeader_eq (deviceSerial hostname projectKey : Bytes) (len : ℕ) :
    requestHeader deviceSerial hostname projectKey len =
      (firstLines deviceSerial hostname projectKey).flatten ++ lengthLine (Decimal.digits len) := by
  simp only [requestHeader, firstLines, headerLines, lengthLine, List.dropLast_cons_cons,
    List.dropLast_singleton, List.flatten_cons, List.flatten_nil, List.append_nil,
    List.append_assoc]

theorem int_len (h : len < 2147483648) :
    Decimal.int (Int.bmod len 4294967296) = Decimal.digits len := by
  have hbmod : Int.bmod len 4294967296 = len := Int.bmod_eq_of_le (by omega) (by omega)
  rw [hbmod, Decimal.int, if_neg (by omega), Int.natAbs_natCast]

/-- A length beyond an `int` is printed as a negative number. -/
theorem int_len_large (hlo : 2147483648 ≤ len) (hhi : len < 4294967296) :
    ∃ digits, Decimal.int (Int.bmod len 4294967296) = 45 :: digits := by
  have hneg : Int.bmod len 4294967296 < 0 := by
    rw [← Int.sub_bmod_right, Int.bmod_eq_of_le] <;> omega
  exact ⟨_, by rw [Decimal.int, if_pos hneg]⟩

/-- What starts with a negative number is not a header that was meant. -/
theorem lengthLine_ne {digits : Bytes} :
    ¬ lengthLine (Decimal.digits len) <+: lengthLine (45 :: digits) := by
  intro h
  rw [lengthLine, lengthLine, List.append_assoc, List.append_assoc, List.prefix_append_right_inj]
    at h
  obtain ⟨d, ds, hd⟩ := List.exists_cons_of_ne_nil (Decimal.digits_ne_nil len)
  have hdigit : Decimal.isDigit d = true := Decimal.isDigit_of_mem (hd ▸ List.mem_cons_self)
  rw [hd, List.cons_append, List.cons_append, List.cons_prefix_cons] at h
  rw [h.1] at hdigit
  exact absurd hdigit (by decide)

theorem flatten_headerLines (h : len < 2147483648) (deviceSerial hostname projectKey : Bytes) :
    (headerLines deviceSerial hostname projectKey len).flatten =
      requestHeader deviceSerial hostname projectKey len := by
  rw [headerLines_eq, requestHeader_eq, int_len h, List.flatten_append, List.flatten_singleton]

theorem headerLines_ne_zero {hostname deviceSerial projectKey : Bytes} (len : ℕ)
    (hhostname : 0 ∉ hostname) (hserial : 0 ∉ deviceSerial) (hkey : 0 ∉ projectKey) :
    0 ∉ (headerLines deviceSerial hostname projectKey len).flatten := by
  have hint : 0 ∉ Decimal.int (Int.bmod len 4294967296) := fun h => by
    rcases Decimal.mem_int h with h | h <;> exact absurd h (by decide)
  simp only [headerLines, List.flatten_cons, List.flatten_nil, List.mem_append, not_or]
  refine ⟨⟨⟨by decide, hserial⟩, by decide⟩, ⟨⟨by decide, hhostname⟩, by decide⟩,
    ⟨⟨by decide, hkey⟩, by decide⟩, by decide, ⟨⟨by decide, hint⟩, by decide⟩, by simp⟩

section Strings

variable (hserial : 0 ∉ deviceSerial) (hhostname : 0 ∉ hostname) (hkey : 0 ∉ projectKey)
include hserial hhostname hkey

theorem cstr_createHeader
    (hfits : (firstLines deviceSerial hostname projectKey).flatten.length < headerBufSize)
    (mem : Bytes) (len : ℕ) :
    cstr (createHeader mem deviceSerial hostname projectKey len) =
      (firstLines deviceSerial hostname projectKey).flatten ++
        (lengthLine (Decimal.int (Int.bmod len 4294967296))).take
          (headerBufSize - (firstLines deviceSerial hostname projectKey).flatten.length - 1) := by
  obtain ⟨mem', hstate⟩ :=
    @printLines_state (firstLines deviceSerial hostname projectKey) [] mem (by simpa using hfits)
  simp only [List.nil_append, List.length_nil] at hstate
  have hsize : headerBufSize - (firstLines deviceSerial hostname projectKey).flatten.length ≠ 0 :=
    Nat.sub_ne_zero_of_lt hfits
  have hzero := headerLines_ne_zero len hhostname hserial hkey
  rw [headerLines_eq, List.flatten_append, List.flatten_singleton, List.mem_append, not_or] at hzero
  rw [createHeader, headerLines_eq, List.foldl_append, hstate, List.foldl_cons, List.foldl_nil,
    printLine]
  dsimp only
  rw [headerRoom_eq hfits.le, snprintf_of_ne hsize, List.take_left' rfl, ← List.append_assoc,
    List.append_assoc _ [0], List.singleton_append]
  apply Utils.cstr_append_zero
  rw [List.mem_append, not_or]
  exact ⟨hzero.1, fun hmem => hzero.2 (List.mem_of_mem_take hmem)⟩

theorem not_complete_of_large (hlo : 2147483648 ≤ len) (hhi : len < 4294967296)
    (hfits : (requestHeader deviceSerial hostname projectKey len).length < headerBufSize)
    (mem : Bytes) :
    cstr (createHeader mem deviceSerial hostname projectKey len) ≠
      requestHeader deviceSerial hostname projectKey len := by
  intro hcomplete
  rw [requestHeader_eq, List.length_append] at hfits
  obtain ⟨digits, hdigits⟩ := int_len_large hlo hhi
  rw [cstr_createHeader hserial hhostname hkey (lt_of_le_of_lt (Nat.le_add_right _ _) hfits),
    requestHeader_eq, List.append_cancel_left_eq, hdigits] at hcomplete
  exact lengthLine_ne (hcomplete ▸ List.take_prefix _ _)

theorem complete_of_fits (hlen : len < 2147483648)
    (hfits : (requestHeader deviceSerial hostname projectKey len).length < headerBufSize)
    (mem : Bytes) :
    cstr (createHeader mem deviceSerial hostname projectKey len) =
      requestHeader deviceSerial hostname projectKey len := by
  rw [requestHeader_eq, List.length_append] at hfits
  rw [cstr_createHeader hserial hhostname hkey (lt_of_le_of_lt (Nat.le_add_right _ _) hfits),
    requestHeader_eq, int_len hlen, List.take_of_length_le]
  omega

theorem sentHeader_complete {o : Outcomes} {data : Bytes} (hlen : data.length < 2147483648)
    (hfits : (requestHeader deviceSerial hostname projectKey data.length).length < headerBufSize) :
    sentHeader o hostname deviceSerial projectKey data =
      requestHeader deviceSerial hostname projectKey data.length :=
  complete_of_fits hserial hhostname hkey hlen hfits o.headerMem

end Strings

/-- A call does what it has to exactly when its buffer is allocated, the header fits into it
with its terminator, and the length is an `int`. -/
theorem createHeader_contract_iff (hserial : 0 ∉ deviceSerial) (hhostname : 0 ∉ hostname)
    (hkey : 0 ∉ projectKey) (hlen : len < 4294967296) :
    HeaderContract buffer deviceSerial hostname projectKey len ↔
      buffer ≠ none ∧
        (requestHeader deviceSerial hostname projectKey len).length < headerBufSize ∧
        len < 2147483648 := by
  constructor
  · intro h
    cases buffer with
    | none =>
      -- the first print writes to NULL
      have hroom : headerRoom 0 ≠ 0 := by decide
      exact absurd (h.inside _ List.mem_cons_self 0 (pos_written hroom)) (by decide)
    | some mem =>
      have hcomplete := h.complete _ rfl
      have hfits : (cstr (createHeader mem deviceSerial hostname projectKey len)).length <
          headerBufSize := cstr_length_lt (printLines_terminate (List.cons_ne_nil _ _) h.room mem)
      rw [hcomplete] at hfits
      refine ⟨by simp, hfits, ?_⟩
      by_contra hlarge
      exact not_complete_of_large hserial hhostname hkey (not_lt.1 hlarge) hlen hfits mem hcomplete
  · rintro ⟨hbuffer, hfits, hint⟩
    obtain ⟨mem, rfl⟩ := Option.ne_none_iff_exists'.1 hbuffer
    have hroom : 0 + (headerLines deviceSerial hostname projectKey len).flatten.length <
        headerBufSize := by rwa [flatten_headerLines hint, Nat.zero_add]
    refine ⟨fun p hp => (headerPrints_fit hroom hp).2, fun p hp => (headerPrints_fit hroom hp).1,
      fun header hret => ?_⟩
    rw [← Option.some.inj hret]
    exact complete_of_fits hserial hhostname hkey hint hfits mem

/-- A short header for a body of one byte. -/
theorem createHeader_contract_short :
    HeaderContract (some (List.replicate 300 0)) (text "s") (text "h") (text "k") 1 :=
  (createHeader_contract_iff (by decide) (by decide) (by decide) (by decide)).2
    ⟨Option.some_ne_none _, by decide +kernel, by decide⟩

/-- After a serial number of 300 bytes the room wraps. One of 147 bytes makes a header of
300 bytes, which has no room for its end. -/
theorem long_serial_breaks :
    ¬ HeaderContract (some (List.replicate 300 0)) (List.replicate 300 97) (text "h") (text "k") 1 ∧
    ¬ HeaderContract (some (List.replicate 300 0)) (List.replicate 147 97) (text "h") (text "k")
      1 := by
  constructor
  · intro h
    exact absurd (h.room _ (List.mem_cons_of_mem _ List.mem_cons_self)) (by decide +kernel)
  · intro h
    exact absurd (h.complete _ rfl) (by decide +kernel)

end Heaty.Https
