import Heaty.Proofs.Draining
import Heaty.Proofs.HeatMapInvariant

/-! A heat map's way through both controllers. The records and the images on the nRF9160 are
those of the heat maps that the sensors gave to the nRF52840, in their order, with every
temperature cut to tenths of a degree; and the two come to rest by themselves, when all of
them got there. -/

namespace Heaty.HeatMapPath

open Analysis (record)
open CommCtrl (floatAt heatMapBytes sendToBle)
open FixedPoint (clamp)
open HeatMap (Region)
open Mcu (EventType ExchangeEvent Listened Sendable)
open Memory (KMalloc)
open Mlx90640 (heatMapDataSize)

variable {lib : Libraries} {bufSize historySize : ℕ} {data : Bytes}

/-! ## The work left -/

/-- The steps left for a message of the commCtrl module, and for what it submits. -/
def msgWork (bufSize : ℕ) : CommCtrlMsg → ℕ
  | .heatMapDataReady _ | .error => 2 * (bufSize + 3) + 2
  | _ => 1

def outputWork (bufSize : ℕ) : Output → ℕ
  | .mcuExchange _ => 2 * (bufSize + 3) + 1
  | _ => 0

/-- The steps left for both controllers. A step of the exchange may tell one module. -/
def systemWork {Buf : Type} (bufSize : ℕ) (s : System Buf) : ℕ :=
  2 * Mcu.work bufSize s.listened + (s.commCtrl.map (msgWork bufSize)).sum + s.analysis.length

def SystemEvent.isProgress : SystemEvent → Bool
  | .commCtrl _ _ _ | .analysis _ => true
  | .exchange e => e.isProgress
  | .tellCommCtrl _ | .tellAnalysis => false

def ProgressOk (bufSize : ℕ) (lib : Libraries) (s : System lib.ringBuf.Buf) (e : SystemEvent) :
    Prop := e.isProgress = true ∧ PathOk bufSize lib s e

section Work

variable {s s' : System lib.ringBuf.Buf}

/-- One module at most is told of a step of the exchange. -/
theorem exchangeStep_work (bufSize : ℕ) {e : ExchangeEvent} (hs : s.exchangeStep lib e = some s') :
    ∃ listened, Listened.step lib.base64 lib.cjson s.listened e = some listened ∧
      s'.given = s.given ∧
      systemWork bufSize s' + 2 * Mcu.work bufSize s.listened ≤
        systemWork bufSize s + 2 * Mcu.work bufSize listened + 1 := by
  obtain ⟨listened, hstep, rfl⟩ := Option.map_eq_some_iff.1 hs
  refine ⟨listened, hstep, by rw [tell_eq], ?_⟩
  rw [tell_eq]
  generalize s.listened.exchange.submitted lib.base64 lib.cjson e = told
  have hheard : (heard told false).length + (heard told true).length ≤ 1 := by
    cases told with
    | none => exact Nat.zero_le 1
    | some x => rcases x with ⟨_ | _, q⟩ <;> exact le_rfl
  have hone : msgWork bufSize ∘ CommCtrlMsg.mcuExchange = fun _ => 1 := rfl
  simp only [systemWork, List.map_append, List.sum_append, List.map_map, hone, List.map_const',
    List.sum_replicate, smul_eq_mul, mul_one, List.length_append, List.length_map]
  omega

theorem submit_work (bufSize : ℕ) (s : System lib.ringBuf.Buf) (garbage : Bool) (o : Output) :
    (s.submit lib garbage o).given = s.given ∧
      systemWork bufSize (s.submit lib garbage o) ≤
        systemWork bufSize s + outputWork bufSize o := by
  cases o with
  | ble | toggleAdvertising | setInterval => exact ⟨rfl, le_rfl⟩
  | mcuExchange p =>
    cases hs : ({ s with outputs := s.outputs ++ [.mcuExchange p] } : System _).exchangeStep lib
        (.raise false p garbage) with
    | none =>
      simp only [System.submit, hs, Option.getD_none, true_and]
      exact Nat.le_add_right _ _
    | some s' =>
      obtain ⟨listened, hstep, hgiven, hwork⟩ := exchangeStep_work bufSize hs
      have hraise : Mcu.work bufSize listened ≤ Mcu.work bufSize s.listened + (bufSize + 3) :=
        Mcu.work_raise hstep
      simp only [System.submit, hs, Option.getD_some]
      refine ⟨hgiven, ?_⟩
      simp only [systemWork, outputWork] at hwork ⊢
      omega

theorem submits_work (bufSize : ℕ) (outputs : List Output) (s : System lib.ringBuf.Buf)
    (garbage : Bool) :
    (outputs.foldl (System.submit lib garbage) s).given = s.given ∧
      systemWork bufSize (outputs.foldl (System.submit lib garbage) s) ≤
        systemWork bufSize s + (outputs.map (outputWork bufSize)).sum := by
  induction outputs generalizing s with
  | nil => exact ⟨rfl, le_rfl⟩
  | cons o outputs ih =>
    obtain ⟨hgiven, hwork⟩ := submit_work bufSize s garbage o
    obtain ⟨hgiven', hwork'⟩ := ih (s.submit lib garbage o)
    refine ⟨hgiven'.trans hgiven, ?_⟩
    rw [List.foldl_cons, List.map_cons, List.sum_cons]
    omega

/-- A message leaves more to do than what is submitted for it. -/
theorem outputWork_of_msg (bufSize : ℕ) {float : Bytes → ℚ} {heatMap heatMapComp : KMalloc}
    (hheatMap : heatMap ≠ none) (hcomp : heatMapComp ≠ none) {msg : CommCtrlMsg}
    (hwhole : ∀ data ∈ msg.heatMap, data.length = heatMapDataSize) {outputs : List Output}
    (h : onReadyState none float heatMap heatMapComp msg = some outputs) :
    ((outputs ++ onAllStates msg).map (outputWork bufSize)).sum < msgWork bufSize msg := by
  cases msg with
  | heatMapDataReady data =>
    rw [onReadyState_heatMap hheatMap hcomp (hwhole data (List.mem_singleton_self _))] at h
    cases h
    simp [sendToBle, onAllStates, outputWork, msgWork]
  | mcuExchange event =>
    cases h
    split_ifs
    · exact Nat.zero_lt_one
    · exact Nat.zero_lt_one
  | error =>
    cases h
    exact Nat.lt_succ_self _
  | setHeatmapInterval | other =>
    cases h
    exact Nat.zero_lt_one

theorem PathInv.commCtrlThread_work (h : PathInv bufSize historySize lib [] s)
    {heatMap heatMapComp : KMalloc} (hheatMap : heatMap ≠ none) (hcomp : heatMapComp ≠ none)
    {garbage : Bool} (hs : s.commCtrlThread lib heatMap heatMapComp garbage = some s') :
    s'.given = s.given ∧ systemWork bufSize s' < systemWork bufSize s := by
  unfold System.commCtrlThread at hs
  split_ifs at hs
  split at hs
  · cases hs
  · rename_i msg rest hqueue
    have hwhole := h.queued (hqueue ▸ List.mem_cons_self)
    obtain ⟨outputs, houtputs, -⟩ := outputs_of_msg lib hheatMap hcomp hwhole
    have hless := outputWork_of_msg bufSize hheatMap hcomp hwhole houtputs
    simp only [houtputs, Option.some.injEq] at hs
    subst hs
    obtain ⟨hgiven, hwork⟩ := submits_work bufSize (outputs ++ onAllStates msg)
      { s with commCtrl := rest, prepared := s.prepared ++ msg.heatMap } garbage
    refine ⟨hgiven, ?_⟩
    simp only [systemWork, hqueue, List.map_cons, List.sum_cons] at hwork ⊢
    omega

theorem analysisThread_pop (lib : Libraries) (s : System lib.ringBuf.Buf) (env : AnalysisEnv)
    {msg : AnalysisMsg} {rest : List AnalysisMsg} (hrunning : s.analysisHalted = false)
    (hqueue : s.analysis = msg :: rest) :
    ∃ s', s.analysisThread lib env = some s' ∧ s'.listened = s.listened ∧
      s'.commCtrl = s.commCtrl ∧ s'.analysis = rest ∧ s'.given = s.given := by
  cases msg with
  | other => simp [System.analysisThread, hrunning, hqueue]
  | mcuExchange event =>
    by_cases htype : event.type = .heatMapDataReady
    · cases hconverted : convertBackAndAnalyze lib.ringBuf lib.cmsis lib.toFloat s.histories env
          event.data with
      | none => simp [System.analysisThread, hrunning, hqueue, htype, hconverted]
      | some histories =>
        by_cases himage : env.image.heatMap = none
        · simp [System.analysisThread, hrunning, hqueue, htype, hconverted, himage]
        · simp [System.analysisThread, hrunning, hqueue, htype, hconverted, himage]
    · simp [System.analysisThread, hrunning, hqueue, htype]

theorem PathInv.analysisThread_work (h : PathInv bufSize historySize lib [] s) {env : AnalysisEnv}
    (hs : s.analysisThread lib env = some s') :
    s'.given = s.given ∧ systemWork bufSize s' < systemWork bufSize s := by
  cases hqueue : s.analysis with
  | nil => simp [System.analysisThread, hqueue] at hs
  | cons msg rest =>
    obtain ⟨t, ht, hlistened, hcommCtrl, hanalysis, hgiven⟩ :=
      analysisThread_pop lib s env h.running.2 hqueue
    cases ht.symm.trans hs
    refine ⟨hgiven, ?_⟩
    simp [systemWork, hlistened, hcommCtrl, hanalysis, hqueue]

/-- Each step by themselves leaves both controllers less to do, and nothing more is given. -/
theorem PathInv.progress (hbase64 : lib.base64.Documented) (hcjson : lib.cjson.Documented)
    (hprint : lib.cjson.PrintsText) (hringBuf : lib.ringBuf.Documented)
    (hroomy : Roomy bufSize lib) (hsize : 0 < bufSize) (hhistory : 1 ≤ historySize)
    {e : SystemEvent} (h : PathInv bufSize historySize lib [] s) (hok : ProgressOk bufSize lib s e)
    (hs : System.step lib s e = some s') :
    (PathInv bufSize historySize lib [] s' ∧ s'.given = s.given) ∧
      systemWork bufSize s' < systemWork bufSize s := by
  obtain ⟨hprogress, hok⟩ := hok
  have hinv := pathInv_step hbase64 hcjson hprint hringBuf hroomy hsize hhistory h hok hs
  suffices hwork : s'.given = s.given ∧ systemWork bufSize s' < systemWork bufSize s from
    ⟨⟨hinv, hwork.1⟩, hwork.2⟩
  cases e with
  | commCtrl heatMap heatMapComp garbage => exact h.commCtrlThread_work hok.1 hok.2 hs
  | analysis env => exact h.analysisThread_work hs
  | exchange e =>
    simp only [System.step] at hs
    split_ifs at hs
    obtain ⟨listened, hstep, hgiven, hwork⟩ := exchangeStep_work bufSize hs
    have hless := (h.link.progress hbase64 hcjson hprint hsize ⟨hprogress, hok⟩ hstep).2
    exact ⟨hgiven, by omega⟩
  | tellCommCtrl | tellAnalysis => cases hprogress

end Work

/-! ## The way of every heat map -/

structure Quiet {Buf : Type} (s : System Buf) : Prop where
  commCtrl : ∀ msg ∈ s.commCtrl, msg.heatMap = []
  line : Mcu.Idle s.listened.exchange false
  analysis : ∀ msg ∈ s.analysis, msg.heatMap = []

/-- Where no further step is possible, all has been handled. -/
theorem PathInv.quiet {s : System lib.ringBuf.Buf} (h : PathInv bufSize historySize lib [] s)
    (hstuck : ∀ e, ProgressOk bufSize lib s e → System.step lib s e = none) : Quiet s := by
  have hcommCtrl : s.commCtrl = [] := by
    by_contra hne
    obtain ⟨msg, rest, hqueue⟩ := List.exists_cons_of_ne_nil hne
    have hsome := Option.some_ne_none ((16, []) : Memory.Addr × Bytes)
    obtain ⟨outputs, houtputs, -⟩ := outputs_of_msg lib hsome hsome
      (h.queued (hqueue ▸ List.mem_cons_self))
    have hnone := hstuck (.commCtrl (some (16, [])) (some (16, [])) false) ⟨rfl, hsome, hsome⟩
    simp [System.step, System.commCtrlThread, h.running.1, hqueue, houtputs] at hnone
  have hanalysis : s.analysis = [] := by
    by_contra hne
    obtain ⟨msg, rest, hqueue⟩ := List.exists_cons_of_ne_nil hne
    let env : AnalysisEnv := ⟨some fun _ => 0, fun _ => ⟨true, true⟩, HeatMap.imageEnv⟩
    obtain ⟨s', hs', -⟩ := analysisThread_pop lib s env h.running.2 hqueue
    have hnone := hstuck (.analysis env) ⟨rfl, by simp [env, PathOk, HeatMap.imageEnv]⟩
    cases hs'.symm.trans hnone
  have hlisten : ∀ e, Mcu.ProgressOk bufSize lib.base64 lib.cjson s.listened e →
      Listened.step lib.base64 lib.cjson s.listened e = none := by
    rintro e ⟨hprogress, hok⟩
    have hnone := hstuck (.exchange e) ⟨hprogress, hok⟩
    cases e with
    | thread | arrive => simpa [System.step, System.exchangeStep, isCommCtrls] using hnone
    | raise | noise | lose => cases hprogress
  obtain ⟨hqueue, hline⟩ := h.link.stuck hlisten false
  obtain ⟨hqueue', -⟩ := h.link.stuck hlisten true
  exact ⟨by simp [hcommCtrl], ⟨by simp [hqueue], hline, by simp [hqueue']⟩, by simp [hanalysis]⟩

/-- A heat map as an image shows it. -/
def Shows (lib : Libraries) (data : Bytes) (call : HeatMap.ImageCall) : Prop :=
  call.given = some (imagePixels lib data) ∧ MadeOf lib (heatMapBytes lib.ofFloat data) call

theorem MadeOf.shows {call : HeatMap.ImageCall} (hwhole : data.length = heatMapDataSize)
    (h : MadeOf lib (heatMapBytes lib.ofFloat data) call) : Shows lib data call := by
  refine ⟨?_, h⟩
  obtain ⟨env, hmem, rfl⟩ := h
  obtain ⟨mem, hmem⟩ := Option.ne_none_iff_exists'.1 hmem
  have hlen : HeatMap.imageSize ≤
      HeatMap.entriesOf (heatMapBytes lib.ofFloat data).length := by
    rw [length_heatMapBytes _ hwhole]
    decide
  simp only [HeatMap.heatmapToBase64Image, hmem, Option.map_some, HeatMap.greyLevels_take hlen,
    pixels_heatMapBytes hwhole]

section Path

variable {s : System lib.ringBuf.Buf}

theorem PathInv.analysed_eq (h : PathInv bufSize historySize lib [] s) :
    s.analysed.length ≤ s.prepared.length ∧
      s.analysed = (s.given.take s.analysed.length).map (heatMapBytes lib.ofFloat) := by
  have hprepared : s.analysed <+: s.prepared.map (heatMapBytes lib.ofFloat) :=
    List.IsPrefix.trans ⟨_, h.received⟩ h.received_prefix
  have hgiven := hprepared.trans (h.prepared_prefix.map (heatMapBytes lib.ofFloat))
  refine ⟨by simpa using hprepared.length_le, ?_⟩
  rw [List.map_take]
  exact List.prefix_iff_eq_take.1 hgiven

theorem PathInv.published_shows (h : PathInv bufSize historySize lib [] s) :
    List.Forall₂ (Shows lib) (s.given.take s.analysed.length) s.published := by
  have hpublished := h.published
  rw [h.analysed_eq.2, List.forall₂_map_left_iff] at hpublished
  have hwhole : ∀ data ∈ s.given.take s.analysed.length, data.length = heatMapDataSize :=
    fun data hdata => h.whole data (List.take_subset _ _ hdata)
  have hmade := (List.forall₂_and_left _ _).2 ⟨hwhole, hpublished⟩
  exact hmade.imp fun _ _ hdata => hdata.2.shows hdata.1

theorem PathInv.records (h : PathInv bufSize historySize lib [] s) (region : Region) :
    Analysis.Keeps historySize
      ((s.given.take s.analysed.length).map fun data =>
        record lib.cmsis region.roi (seen lib data))
      (lib.ringBuf.state (s.histories region)).contents := by
  have hcontents := (h.histories region).contents
  rw [h.analysed_eq.2, List.map_map] at hcontents
  have hrecords : ((s.given.take s.analysed.length).map fun data =>
      record lib.cmsis region.roi (reverted lib.toFloat (heatMapBytes lib.ofFloat data)
        fun _ => 0)) =
      (s.given.take s.analysed.length).map fun data =>
        record lib.cmsis region.roi (seen lib data) := by
    refine List.map_congr_left fun data hdata => ?_
    exact record_reverted (h.whole data (List.take_subset _ _ hdata)) _ region
  rw [← hrecords]
  exact hcontents

/-- Nothing is left behind where no heat map is under way. -/
theorem PathInv.all_of_quiet (h : PathInv bufSize historySize lib [] s) (hquiet : Quiet s) :
    s.analysed.length = s.given.length := by
  have hcommCtrl : s.commCtrl.flatMap CommCtrlMsg.heatMap = [] := by
    simpa [List.flatMap_eq_nil_iff] using hquiet.commCtrl
  have hanalysis : s.analysis.flatMap AnalysisMsg.heatMap = [] := by
    simpa [List.flatMap_eq_nil_iff] using hquiet.analysis
  have hgiven := h.given
  have hraised := h.raised
  have hreceived := h.received
  rw [hcommCtrl, List.append_nil] at hgiven
  rw [List.flatMap_nil, List.append_nil, ← h.link.received_idle hquiet.line] at hraised
  rw [hanalysis, List.append_nil, Bool.not_false.symm, hraised, hgiven] at hreceived
  simp [hreceived]

end Path

/-- From wherever such a run has led, both controllers come to rest by themselves. -/
theorem heatMap_path_rests (hbase64 : lib.base64.Documented) (hcjson : lib.cjson.Documented)
    (hprint : lib.cjson.PrintsText) (hringBuf : lib.ringBuf.Documented)
    (hroomy : Roomy bufSize lib) (hsize : 0 < bufSize) (hhistory : 1 ≤ historySize)
    {evs : List SystemEvent} {s : System lib.ringBuf.Buf}
    (h : (system bufSize historySize lib).RunOf (PathOk bufSize lib) evs s) :
    ∃ evs' s', ((system bufSize historySize lib).after s).RunOf (ProgressOk bufSize lib) evs' s' ∧
      s'.given = s.given ∧ Quiet s' := by
  have hinv := pathInv_of_run hbase64 hcjson hprint hringBuf hroomy hsize hhistory h
  have hstep : ∀ t e t', PathInv bufSize historySize lib [] t ∧ t.given = s.given →
      ProgressOk bufSize lib t e → (system bufSize historySize lib).step t e = some t' →
        (PathInv bufSize historySize lib [] t' ∧ t'.given = s.given) ∧
          systemWork bufSize t' < systemWork bufSize t := by
    rintro t e t' ⟨ht, hsame⟩ hok hs
    obtain ⟨⟨hinv', hgiven⟩, hless⟩ :=
      ht.progress hbase64 hcjson hprint hringBuf hroomy hsize hhistory hok hs
    exact ⟨⟨hinv', hgiven.trans hsame⟩, hless⟩
  obtain ⟨evs', s', hrun, ⟨hinv', hgiven⟩, hstuck⟩ := Lts.exists_stuck _ hstep ⟨hinv, rfl⟩
  exact ⟨evs', s', hrun, hgiven, hinv'.quiet hstuck⟩

/-- A heat map of zero degrees. The conversions are right for it. -/
def coldMap : Bytes := List.replicate heatMapDataSize 0

def coldLibraries : Libraries where
  base64 := zephyrBase64
  cjson := cJson
  ringBuf := Analysis.zephyrRingBuf
  cmsis := Analysis.firstPixel
  ofFloat := fun _ => 0
  toFloat := fun _ => 0

theorem length_print (type : ℤ) (len : ℕ) (mem : Bytes) :
    (cJson.print (Utils.encodeMembers (Utils.goodEnv [0]) type len (some mem))).length =
      36 + (Decimal.int type).length + (Decimal.int len).length + (Utils.cstr mem).length := by
  have htexts : (text "type").length = 4 ∧ (text "len").length = 3 ∧ (text "data").length = 4 ∧
      (text "\n\t").length = 2 ∧ (text "\t").length = 1 ∧ (text "\n").length = 1 := by decide
  simp only [cJson, Utils.encodeMembers, Utils.goodEnv, Json.print, Json.printMembers,
    Json.printMember, Json.Scalar.print, cJsonStyle, if_true, List.length_append,
    List.length_cons, List.length_nil, List.cons_append, List.nil_append, htexts]
  omega

/-- Receive buffers of the size that is configured have room for both. -/
theorem coldLibraries_roomy : Roomy 4096 coldLibraries := by
  have hsendable {type : EventType} {payload : Bytes} (hshort : payload.length < 65536)
      (hfits : 36 + (Decimal.int type.number).length + (Decimal.int payload.length).length +
        (Utils.cstr (Utils.overwrite (if Utils.Fits payload.length
          then Base64.encode payload ++ [0] else []) [0])).length < 4096) :
      Sendable 4096 zephyrBase64 cJson ⟨type, false, payload⟩ := by
    refine ⟨by simp [Utils.goodEnv], ⟨[0], rfl, by simp [Utils.cstr]⟩, fun text htext => ?_⟩
    rw [Utils.encodeMessage_eq zephyrBase64_documented hshort] at htext
    simp only [Utils.goodEnv, and_self, if_true, Option.map_some, Option.mem_some_iff] at htext
    rw [← htext]
    exact (length_print ..).trans_lt hfits
  refine ⟨fun payload hlength => hsendable (by omega) ?_, hsendable (by decide) (by decide)⟩
  have hpayload := (Mcu.cstr_block payload [0]).1 (by rw [hlength]; decide)
  rw [hpayload, Base64.encode_length, hlength]
  decide

end Heaty.HeatMapPath
