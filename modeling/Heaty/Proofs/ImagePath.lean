import Heaty.Spec.Collector

/-! Where the chunks of an image are stored. Each of them goes to the path that the
build computes when it is handled: from the counter, which only the first chunk
changes, or from the clock, which may have moved on. -/

namespace Heaty.Collector

open Utils

/-! ## File names -/

/-- Names that fit the path buffer and the header, and need no escape there. -/
structure NameOk (name : Bytes) : Prop where
  length : name.length ≤ 18
  plain : ∀ c ∈ name, Json.isPlain c = true ∧ c ≠ 125

theorem isPlain_of_isDigit {c : UInt8} (h : Decimal.isDigit c = true) :
    Json.isPlain c = true ∧ c ≠ 125 := by
  simp only [Decimal.isDigit, Json.isPlain, ne_eq, UInt8.le_iff_toNat_le, UInt8.lt_iff_toNat_lt,
    ← UInt8.toNat_inj, decide_eq_true_eq, UInt8.reduceToNat] at h ⊢
  omega

theorem ne_zero_of_isPlain {c : UInt8} (h : Json.isPlain c = true) : c ≠ 0 := by
  rintro rfl
  exact absurd h (by decide)

theorem length_padded_two {n : ℕ} (h : n < 100) : (Decimal.padded 2 n).length = 2 :=
  Decimal.length_padded (by decide) h

theorem length_dateName (tm : Tm) (extension : Bytes) :
    (dateName tm extension).length = 14 + extension.length := by
  obtain ⟨mon, mday, hour, min, sec, _, _, _, _, _⟩ := tm
  simp only [dateName, List.length_append, List.length_cons]
  rw [length_padded_two (by omega), length_padded_two (by omega), length_padded_two (by omega),
    length_padded_two (by omega), length_padded_two (by omega)]

theorem dateName_ok (tm : Tm) : NameOk (dateName tm (text ".jpg")) := by
  refine ⟨by rw [length_dateName]; decide, ?_⟩
  have hdigits (n : ℕ) : ∀ c ∈ Decimal.padded 2 n, Json.isPlain c = true ∧ c ≠ 125 :=
    fun c hc => isPlain_of_isDigit (Decimal.isDigit_of_mem_padded hc)
  have hdash : Json.isPlain 45 = true ∧ (45 : UInt8) ≠ 125 := by decide
  have hjpg : ∀ c ∈ text ".jpg", Json.isPlain c = true ∧ c ≠ 125 :=
    List.all_iff_forall_prop.1 (by decide)
  simp only [dateName, List.forall_mem_append, List.forall_mem_cons]
  exact ⟨⟨⟨⟨⟨hdigits _, hdash, hdigits _⟩, hdash, hdigits _⟩, hdash, hdigits _⟩, hdash,
    hdigits _⟩, hjpg⟩

/-- The names of two local times are the same only for the same local time. -/
theorem dateName_injective (extension : Bytes) :
    Function.Injective fun tm => dateName tm extension := by
  intro a b h
  have := a.mon_lt; have := a.mday_le; have := a.hour_lt; have := a.min_lt; have := a.sec_le
  have := b.mon_lt; have := b.mday_le; have := b.hour_lt; have := b.min_lt; have := b.sec_le
  have hlen {m n : ℕ} (hm : m < 100) (hn : n < 100) :
      (Decimal.padded 2 m).length = (Decimal.padded 2 n).length := by
    rw [length_padded_two hm, length_padded_two hn]
  simp only [dateName, List.append_assoc, List.cons_append] at h
  obtain ⟨hmon, h⟩ := List.append_inj h (hlen (by omega) (by omega))
  obtain ⟨hmday, h⟩ := List.append_inj (List.cons.inj h).2 (hlen (by omega) (by omega))
  obtain ⟨hhour, h⟩ := List.append_inj (List.cons.inj h).2 (hlen (by omega) (by omega))
  obtain ⟨hmin, h⟩ := List.append_inj (List.cons.inj h).2 (hlen (by omega) (by omega))
  obtain ⟨hsec, -⟩ := List.append_inj (List.cons.inj h).2 (hlen (by omega) (by omega))
  have hmon' := Decimal.padded_injective 2 hmon
  have hmday' := Decimal.padded_injective 2 hmday
  have hhour' := Decimal.padded_injective 2 hhour
  have hmin' := Decimal.padded_injective 2 hmin
  have hsec' := Decimal.padded_injective 2 hsec
  cases a
  cases b
  simp_all

theorem counterName_ok (counter : Int32) : NameOk (counterName 5 counter (text ".jpg")) := by
  have hlo : -2 ^ 31 ≤ counter.toInt := counter.le_toInt
  have hhi : counter.toInt < 2 ^ 31 := counter.toInt_lt
  have hdigits (w n : ℕ) : ∀ c ∈ Decimal.padded w n, Json.isPlain c = true ∧ c ≠ 125 :=
    fun c hc => isPlain_of_isDigit (Decimal.isDigit_of_mem_padded hc)
  have hjpg : ∀ c ∈ text ".jpg", Json.isPlain c = true ∧ c ≠ 125 :=
    List.all_iff_forall_prop.1 (by decide)
  have hlen (w : ℕ) (hw : w ≤ 10) : (Decimal.padded w counter.toInt.natAbs).length ≤ 10 :=
    Decimal.length_padded_le (by decide) hw (by omega)
  constructor
  · have hext : (text ".jpg").length = 4 := by decide
    have h4 := hlen 4 (by decide)
    have h5 := hlen 5 (by decide)
    simp only [counterName, Decimal.paddedInt, List.length_append, hext, Nat.reduceSub]
    split_ifs
    · simp only [List.length_cons]
      omega
    · omega
  · simp only [counterName, Decimal.paddedInt, List.forall_mem_append]
    refine ⟨?_, hjpg⟩
    split_ifs
    · rw [List.forall_mem_cons]
      exact ⟨by decide, hdigits _ _⟩
    · exact hdigits _ _

/-! ## The buffer -/

theorem NameOk.zero_notMem {name : Bytes} (h : NameOk name) : 0 ∉ name :=
  fun hmem => ne_zero_of_isPlain (h.plain 0 hmem).1 rfl

theorem cstr_sprintf (c : Control) {name : Bytes} (h : NameOk name) :
    cstr (c.sprintf name).filename = name := by
  simp only [Control.sprintf, overwrite, List.append_assoc, List.singleton_append]
  exact cstr_append_zero h.zero_notMem _

@[simp] theorem sprintf_counter (c : Control) (name : Bytes) :
    (c.sprintf name).counter = c.counter := rfl

/-- The path a chunk is addressed to, with the counter its handler ends with. -/
def chunkPath (build : Build) (localtime : ℤ → Tm) (counter : Int32) (env : Env) : Bytes :=
  if build.dateTime then dateName (localtime env.seconds) (text ".jpg")
  else counterName 5 counter (text ".jpg")

theorem chunkPath_ok (build : Build) (localtime : ℤ → Tm) (counter : Int32) (env : Env) :
    NameOk (chunkPath build localtime counter env) := by
  unfold chunkPath
  split_ifs
  · exact dateName_ok _
  · exact counterName_ok _

/-! ## One event -/

section Handlers

variable {build : Build} (localtime : ℤ → Tm) (c : Control) (env : Env)

def nextCounter (build : Build) (c : Control) (env : Env) (event : CameraDataEvent) : Int32 :=
  if event.isFirst ∧ ¬ build.dateTime ∧ env.saved then c.getCounter + 1 else c.getCounter

theorem handleCamera_counter (event : CameraDataEvent) :
    (c.handleCameraModuleDataEvent build localtime env event).1.getCounter =
      nextCounter build c env event := by
  simp only [Control.handleCameraModuleDataEvent, Control.incrementCounter, nextCounter]
  split_ifs <;> simp_all [Control.getCounter]

theorem handleCamera_filename (event : CameraDataEvent) :
    cstr (c.handleCameraModuleDataEvent build localtime env event).1.filename =
      chunkPath build localtime (nextCounter build c env event) env := by
  rw [← handleCamera_counter localtime]
  simp only [Control.handleCameraModuleDataEvent, chunkPath]
  cases hb : build.dateTime with
  | true =>
    simp only [not_true_eq_false, and_false, if_false, if_true]
    exact cstr_sprintf _ (dateName_ok _)
  | false =>
    simp only [Bool.false_eq_true, if_false]
    exact cstr_sprintf _ (counterName_ok _)

theorem handleSensors_counter (data : Bytes) :
    (c.handleSensorsDataModuleEvent build localtime env data).1.counter = c.counter := by
  unfold Control.handleSensorsDataModuleEvent
  split_ifs <;> rfl

end Handlers

/-! ## Runs -/

def cameraInputs (inputs : List Input) : List (CameraDataEvent × Env) :=
  inputs.filterMap fun
    | .camera event env => some (event, env)
    | .heatMap _ _ => none

def Submission.file : Submission → Option (FsDataType × Bytes × Bytes)
  | .fsData type filePath data => some (type, cstr filePath, data)
  | .btData _ _ _ => none

def Submission.cameraMessage : Submission → Option (Bytes × Bool)
  | .btData .cameraSend data useBase64 => some (data, useBase64)
  | _ => none

def chunkFiles (trace : List (Input × List Submission)) : List (FsDataType × Bytes × Bytes) :=
  trace.flatMap fun step =>
    match step.1 with
    | .camera _ _ => step.2.filterMap Submission.file
    | .heatMap _ _ => []

def cameraMessages (trace : List (Input × List Submission)) : List (Bytes × Bool) :=
  trace.flatMap fun step => step.2.filterMap Submission.cameraMessage

section Trace

variable {event : CameraDataEvent} {data : Bytes} {env : Env} {submissions : List Submission}

@[simp] theorem cameraInputs_camera (inputs : List Input) :
    cameraInputs (.camera event env :: inputs) = (event, env) :: cameraInputs inputs := rfl

@[simp] theorem cameraInputs_heatMap (inputs : List Input) :
    cameraInputs (.heatMap data env :: inputs) = cameraInputs inputs := rfl

@[simp] theorem chunkFiles_camera (trace : List (Input × List Submission)) :
    chunkFiles ((.camera event env, submissions) :: trace) =
      submissions.filterMap Submission.file ++ chunkFiles trace := rfl

@[simp] theorem chunkFiles_heatMap (trace : List (Input × List Submission)) :
    chunkFiles ((.heatMap data env, submissions) :: trace) = chunkFiles trace := rfl

@[simp] theorem cameraMessages_cons (input : Input) (trace : List (Input × List Submission)) :
    cameraMessages ((input, submissions) :: trace) =
      submissions.filterMap Submission.cameraMessage ++ cameraMessages trace := rfl

end Trace

/-- The messages for a chunk, its header apart. -/
def chunkMessages (event : CameraDataEvent) : List (Bytes × Bool) :=
  (event.data, true) :: if event.isLast then [([0], false)] else []

section Runs

variable (build : Build) (localtime : ℤ → Tm)

theorem handleCamera_files (c : Control) (env : Env) (event : CameraDataEvent) :
    (c.handleCameraModuleDataEvent build localtime env event).2.filterMap Submission.file =
      [(if event.isFirst then .writeFile else .appendFile,
        chunkPath build localtime (nextCounter build c env event) env, event.data)] := by
  rw [← handleCamera_filename localtime c env event]
  unfold Control.handleCameraModuleDataEvent
  cases event.isFirst <;> cases event.isLast <;> rfl

theorem handleCamera_messages (c : Control) (env : Env) (event : CameraDataEvent) :
    (c.handleCameraModuleDataEvent build localtime env event).2.filterMap
        Submission.cameraMessage =
      (if event.isFirst then
        [(cstr ((headerText (chunkPath build localtime (nextCounter build c env event) env)
          event.imageSize).take (maxHeaderLength - 1)), false)] else []) ++
        chunkMessages event := by
  rw [← handleCamera_filename localtime c env event]
  simp only [Control.handleCameraModuleDataEvent, chunkMessages]
  cases event.isFirst <;> cases event.isLast <;> rfl

theorem handleSensors_messages (c : Control) (env : Env) (data : Bytes) :
    (c.handleSensorsDataModuleEvent build localtime env data).2.filterMap
      Submission.cameraMessage = [] := by
  unfold Control.handleSensorsDataModuleEvent
  split_ifs <;> rfl

/-- The chunks after the first: whatever heat maps come between them, the counter
stays what it was. -/
theorem run_rest (c : Control) (inputs : List Input)
    (hrest : ∀ x ∈ cameraInputs inputs, x.1.isFirst = false) :
    chunkFiles (c.run build localtime inputs) = (cameraInputs inputs).map (fun x =>
        (.appendFile, chunkPath build localtime c.getCounter x.2, x.1.data)) ∧
      cameraMessages (c.run build localtime inputs) =
        (cameraInputs inputs).flatMap fun x => chunkMessages x.1 := by
  induction inputs generalizing c with
  | nil => exact ⟨rfl, rfl⟩
  | cons input inputs ih =>
    cases input with
    | camera event env =>
      rw [cameraInputs_camera, List.forall_mem_cons] at hrest
      obtain ⟨hfirst, hrest⟩ := hrest
      change event.isFirst = false at hfirst
      have hnext : nextCounter build c env event = c.getCounter := by simp [nextCounter, hfirst]
      obtain ⟨hfiles, hmessages⟩ :=
        ih (c.handleCameraModuleDataEvent build localtime env event).1 hrest
      rw [handleCamera_counter, hnext] at hfiles
      constructor
      · rw [Control.run, Control.handle, chunkFiles_camera, handleCamera_files, hfiles, hnext,
          hfirst]
        rfl
      · rw [Control.run, Control.handle, cameraMessages_cons, handleCamera_messages, hmessages,
          hfirst]
        rfl
    | heatMap data env =>
      obtain ⟨hfiles, hmessages⟩ :=
        ih (c.handleSensorsDataModuleEvent build localtime env data).1 hrest
      rw [Control.getCounter, handleSensors_counter, ← Control.getCounter] at hfiles
      constructor
      · rw [Control.run, Control.handle, chunkFiles_heatMap, hfiles, cameraInputs_heatMap]
      · rw [Control.run, Control.handle, cameraMessages_cons, handleSensors_messages, hmessages]
        rfl

/-- A whole image: one counter for all chunks, a path for each of them, and the
first one's path in the header. -/
theorem run_image (c : Control) (inputs : List Input) {first : CameraDataEvent} {env : Env}
    {rest : List (CameraDataEvent × Env)} (hcamera : cameraInputs inputs = (first, env) :: rest)
    (hfirst : first.isFirst = true) (hrest : ∀ x ∈ rest, x.1.isFirst = false) :
    ∃ counter,
      chunkFiles (c.run build localtime inputs) =
        (.writeFile, chunkPath build localtime counter env, first.data) :: rest.map (fun x =>
          (.appendFile, chunkPath build localtime counter x.2, x.1.data)) ∧
      cameraMessages (c.run build localtime inputs) =
        (cstr ((headerText (chunkPath build localtime counter env) first.imageSize).take
            (maxHeaderLength - 1)), false) ::
          (chunkMessages first ++ rest.flatMap fun x => chunkMessages x.1) := by
  induction inputs generalizing c with
  | nil => simp [cameraInputs] at hcamera
  | cons input inputs ih =>
    cases input with
    | camera event env' =>
      rw [cameraInputs_camera, List.cons.injEq, Prod.mk.injEq] at hcamera
      obtain ⟨⟨rfl, rfl⟩, hcamera⟩ := hcamera
      obtain ⟨hfiles, hmessages⟩ := run_rest build localtime
        (c.handleCameraModuleDataEvent build localtime env' event).1 inputs (hcamera ▸ hrest)
      rw [handleCamera_counter, hcamera] at hfiles
      rw [hcamera] at hmessages
      refine ⟨nextCounter build c env' event, ?_, ?_⟩
      · rw [Control.run, Control.handle, chunkFiles_camera, handleCamera_files, hfiles, hfirst]
        rfl
      · rw [Control.run, Control.handle, cameraMessages_cons, handleCamera_messages, hmessages,
          hfirst]
        rfl
    | heatMap data env' =>
      obtain ⟨counter, hfiles, hmessages⟩ :=
        ih (c.handleSensorsDataModuleEvent build localtime env' data).1 hcamera
      refine ⟨counter, ?_, ?_⟩
      · rw [Control.run, Control.handle, chunkFiles_heatMap]
        exact hfiles
      · rw [Control.run, Control.handle, cameraMessages_cons, handleSensors_messages]
        exact hmessages

end Runs

/-! ## One path -/

def headerInner (name : Bytes) (imageSize : ℕ) : Bytes :=
  text "\"name\":\"" ++ name ++ text "\",\"size\":" ++
    Decimal.int (Int.bmod imageSize 4294967296)

theorem headerText_eq (name : Bytes) (imageSize : ℕ) :
    headerText name imageSize = 123 :: headerInner name imageSize ++ [125] := by
  have hopen : text "\x7b\"name\":\"" = 123 :: text "\"name\":\"" := by decide
  have hclose : text "\x7d" = [125] := by decide
  simp only [headerText, headerInner, hopen, hclose, List.cons_append, List.append_assoc]

theorem headerInner_chars {name : Bytes} (h : NameOk name) (imageSize : ℕ) :
    ∀ c ∈ headerInner name imageSize, 32 ≤ c ∧ c ≠ 125 := by
  have hplain {c : UInt8} (hc : Json.isPlain c = true) : 32 ≤ c := by
    simp only [Json.isPlain, decide_eq_true_eq] at hc
    exact hc.1
  simp only [headerInner, List.forall_mem_append]
  refine ⟨⟨⟨List.all_iff_forall_prop.1 (by decide), fun c hc => ?_⟩,
    List.all_iff_forall_prop.1 (by decide)⟩, fun c hc => ?_⟩
  · exact ⟨hplain (h.plain c hc).1, (h.plain c hc).2⟩
  · rcases Decimal.mem_int hc with rfl | hdigit
    · decide
    · exact ⟨hplain (isPlain_of_isDigit hdigit).1, (isPlain_of_isDigit hdigit).2⟩

theorem zero_notMem_headerText {name : Bytes} (h : NameOk name) (imageSize : ℕ) :
    0 ∉ headerText name imageSize := by
  rw [headerText_eq]
  simp only [List.cons_append, List.mem_cons, List.mem_append, not_or]
  refine ⟨by decide, fun hmem => ?_, by decide, by simp⟩
  exact absurd (headerInner_chars h imageSize 0 hmem).1 (by decide)

def headerName (header : Bytes) : Bytes := (header.drop 9).takeWhile (· ≠ 34)

theorem headerName_headerText {name : Bytes} (h : NameOk name) (imageSize : ℕ) :
    headerName (cstr ((headerText name imageSize).take (maxHeaderLength - 1))) = name := by
  rw [cstr_eq_self fun hmem => zero_notMem_headerText h imageSize (List.mem_of_mem_take hmem)]
  have hprefix : (text "\x7b\"name\":\"").length = 9 := by decide
  have hlen : (text "\x7b\"name\":\"" ++ (name ++ [34])).length ≤ maxHeaderLength - 1 := by
    have := h.length
    simp only [List.length_append, hprefix, List.length_singleton, maxHeaderLength, maxPathLength]
    omega
  have hmid : text "\",\"size\":" = 34 :: text ",\"size\":" := by decide
  have htext : ∃ tail, headerText name imageSize =
      text "\x7b\"name\":\"" ++ (name ++ [34]) ++ tail := by
    refine ⟨text ",\"size\":" ++ Decimal.int (Int.bmod imageSize 4294967296) ++ text "\x7d", ?_⟩
    simp only [headerText, hmid, List.append_assoc, List.cons_append, List.nil_append]
  obtain ⟨tail, htext⟩ := htext
  have hquote : ∀ c ∈ name, decide (c ≠ 34) = true := by
    intro c hc
    have hplain := (h.plain c hc).1
    simp only [Json.isPlain, decide_eq_true_eq] at hplain
    simpa using hplain.2.2.1
  rw [htext, List.take_append, List.take_of_length_le hlen, headerName, List.append_assoc,
    List.drop_left' hprefix, List.append_assoc, List.takeWhile_append_of_pos hquote]
  simp

/-- The files an image should be stored with: one written, the others appended. -/
def filesAt (path : Bytes) : List Bytes → List (FsDataType × Bytes × Bytes)
  | [] => []
  | data :: datas => (.writeFile, path, data) :: datas.map fun data => (.appendFile, path, data)

/-- All chunks of an image are stored at the path that its header announces. -/
def OnePath (datas : List Bytes) (trace : List (Input × List Submission)) : Prop :=
  ∃ path, chunkFiles trace = filesAt path datas ∧
    (cameraMessages trace).head?.map (fun msg => headerName msg.1) = some path

/-- An image is stored at the path that its header announces just in the counter
build, or when the clock shows the same time for every chunk. -/
theorem imagePath_iff (build : Build) (localtime : ℤ → Tm) (c : Control) (inputs : List Input)
    {first : CameraDataEvent} {env : Env} {rest : List (CameraDataEvent × Env)}
    (hcamera : cameraInputs inputs = (first, env) :: rest) (hfirst : first.isFirst = true)
    (hrest : ∀ x ∈ rest, x.1.isFirst = false) :
    OnePath ((cameraInputs inputs).map fun x => x.1.data) (c.run build localtime inputs) ↔
      build.dateTime = false ∨
        ∀ x ∈ rest, localtime x.2.seconds = localtime env.seconds := by
  obtain ⟨counter, hfiles, hmessages⟩ :=
    run_image build localtime c inputs hcamera hfirst hrest
  have hsame (x : CameraDataEvent × Env) :
      chunkPath build localtime counter x.2 = chunkPath build localtime counter env ↔
        build.dateTime = false ∨ localtime x.2.seconds = localtime env.seconds := by
    unfold chunkPath
    cases build.dateTime with
    | true => simpa using (dateName_injective (text ".jpg")).eq_iff
    | false => simp
  rw [OnePath, hfiles, hmessages, hcamera]
  simp only [List.map_cons, filesAt, List.head?_cons, Option.map_some,
    headerName_headerText (chunkPath_ok _ _ _ _), List.cons.injEq, Prod.mk.injEq, true_and,
    and_true, Option.some.injEq, List.map_map]
  constructor
  · rintro ⟨path, ⟨rfl, hpaths⟩, -⟩
    by_cases hb : build.dateTime = false
    · exact Or.inl hb
    · refine Or.inr fun x hx => ?_
      have hx' := (List.map_inj_left.1 hpaths) x hx
      simp only [Function.comp_apply, Prod.mk.injEq, true_and, and_true] at hx'
      exact ((hsame x).1 hx').resolve_left hb
  · intro h
    refine ⟨_, ⟨rfl, List.map_inj_left.2 fun x hx => ?_⟩, rfl⟩
    simp only [Function.comp_apply, Prod.mk.injEq, true_and, and_true]
    exact (hsame x).2 (h.imp_right fun h => h x hx)

def januaryTime (t : ℤ) : Tm where
  mon := 0
  mday := t.toNat / 86400 % 31 + 1
  hour := t.toNat / 3600 % 24
  min := t.toNat / 60 % 60
  sec := t.toNat % 60
  mon_lt := by decide
  mday_le := by omega
  hour_lt := by omega
  min_lt := by omega
  sec_le := by omega

def twoChunks (t₁ t₂ t₃ : ℤ) : List Input :=
  [.camera ⟨2, true, false, [1]⟩ ⟨none, t₁, true⟩, .heatMap [7] ⟨none, t₂, true⟩,
    .camera ⟨2, false, true, [2]⟩ ⟨none, t₃, true⟩]

/-- Within a second both chunks go to one file. -/
theorem imagePath_within_second :
    OnePath [[1], [2]]
      (Control.start.run ⟨true, true, true⟩ januaryTime (twoChunks 1000 1200 1900)) :=
  (imagePath_iff ⟨true, true, true⟩ januaryTime .start (twoChunks 1000 1200 1900) rfl rfl
    (by decide)).2 (Or.inr (by decide))

/-- When the clock moves on to the next second, the second chunk is appended to a
file of its own. -/
theorem imagePath_splits :
    chunkFiles (Control.start.run ⟨true, true, true⟩ januaryTime (twoChunks 1000 1200 2000)) =
        [(.writeFile, text "01-01-00-00-01.jpg", [1]),
          (.appendFile, text "01-01-00-00-02.jpg", [2])] ∧
      ¬ OnePath [[1], [2]]
        (Control.start.run ⟨true, true, true⟩ januaryTime (twoChunks 1000 1200 2000)) := by
  have hfiles : chunkFiles
      (Control.start.run ⟨true, true, true⟩ januaryTime (twoChunks 1000 1200 2000)) =
        [(.writeFile, text "01-01-00-00-01.jpg", [1]),
          (.appendFile, text "01-01-00-00-02.jpg", [2])] := by decide
  refine ⟨hfiles, ?_⟩
  rintro ⟨path, hpath, -⟩
  rw [hfiles] at hpath
  simp only [filesAt, List.map_cons, List.map_nil, List.cons.injEq, Prod.mk.injEq, true_and,
    and_true] at hpath
  obtain ⟨rfl, hsecond⟩ := hpath
  exact absurd hsecond (by decide)

end Heaty.Collector
