import Heaty.Proofs.HeatMapMessages

/-! The invariant of both controllers: each heat map of the sensors is where its way has led it
to, and those that were analysed are the first ones. -/

namespace Heaty.HeatMapPath

open Analysis (Holds record)
open Collector (Submission)
open CommCtrl (heatMapBytes sendToBle)
open HeatMap (Region)
open Mcu (Exchange ExchangeEvent LinkInv LinkOk Listened ModuleEvent Producer Queued Sendable)
open Memory (KMalloc)
open Mlx90640 (heatMapDataSize)

variable {lib : Libraries} {bufSize historySize : ℕ} {data : Bytes}

/-! ## The invariant -/

def Output.heatMap : Output → List Bytes
  | .mcuExchange (.sendToNrf9160 data) => [data]
  | _ => []

def Output.submission : Output → List Submission
  | .ble submission => [submission]
  | _ => []

def AnalysisMsg.heatMap : AnalysisMsg → List Bytes
  | .mcuExchange event => if event.type = .heatMapDataReady then [event.data] else []
  | .other => []

/-- The sensors' heat maps are whole, there is memory, and the line is as in `LinkOk`. -/
def PathOk (bufSize : ℕ) (lib : Libraries) (s : System lib.ringBuf.Buf) : SystemEvent → Prop
  | .tellCommCtrl msg => ∀ data ∈ msg.heatMap, data.length = heatMapDataSize
  | .commCtrl heatMap heatMapComp _ => heatMap ≠ none ∧ heatMapComp ≠ none
  | .exchange e => LinkOk bufSize lib.base64 lib.cjson s.listened e
  | .tellAnalysis => True
  | .analysis env => env.heatMap ≠ none ∧ env.image.heatMap ≠ none ∧
      ∀ region, (env.regions region).area = true ∧ (env.regions region).stats = true

/-- The receive buffers have room for a heat map, and for an error. -/
structure Roomy (bufSize : ℕ) (lib : Libraries) : Prop where
  heatMap : ∀ payload : Bytes, payload.length = 1536 →
    Sendable bufSize lib.base64 lib.cjson ⟨.heatMapDataReady, false, payload⟩
  error : Sendable bufSize lib.base64 lib.cjson ⟨.error, false, []⟩

/-- The image was made of this payload, with memory for it. -/
def MadeOf (lib : Libraries) (payload : Bytes) (call : HeatMap.ImageCall) : Prop :=
  ∃ env : HeatMap.ImageEnv, env.heatMap ≠ none ∧
    call = HeatMap.heatmapToBase64Image lib.base64 env payload

/-- Between two submissions of the commCtrl module, with those it has still to make. -/
structure PathInv (bufSize historySize : ℕ) (lib : Libraries) (todo : List Output)
    (s : System lib.ringBuf.Buf) : Prop where
  link : LinkInv bufSize lib.base64 lib.cjson s.listened
  running : s.commCtrlHalted = false ∧ s.analysisHalted = false
  own : ∀ p, .mcuExchange p ∈ todo → p = .commCtrlError ∨ ∃ data, p = .sendToNrf9160 data
  given : s.prepared ++ s.commCtrl.flatMap CommCtrlMsg.heatMap = s.given
  whole : ∀ data ∈ s.given, data.length = heatMapDataSize
  raised : heatMaps (s.listened.exchange.messages false) ++ todo.flatMap Output.heatMap =
    s.prepared.map (heatMapBytes lib.ofFloat)
  ble : (s.outputs ++ todo).flatMap Output.submission = s.prepared.flatMap sendToBle
  received : s.analysed ++ s.analysis.flatMap AnalysisMsg.heatMap =
    heatMaps (s.listened.received true)
  histories : ∀ region, Holds historySize
    (s.analysed.map fun payload =>
      record lib.cmsis region.roi (reverted lib.toFloat payload fun _ => 0))
    (lib.ringBuf.state (s.histories region))
  published : List.Forall₂ (MadeOf lib) s.analysed s.published

section Invariant

variable {s s' : System lib.ringBuf.Buf} {todo : List Output}

theorem PathInv.start (hringBuf : lib.ringBuf.Documented) (hhistory : 1 ≤ historySize) :
    PathInv bufSize historySize lib [] (system bufSize historySize lib).init where
  link := .start
  running := ⟨rfl, rfl⟩
  own _ h := absurd h List.not_mem_nil
  given := rfl
  whole _ h := absurd h List.not_mem_nil
  raised := rfl
  ble := rfl
  received := rfl
  histories _ := Holds.declare hringBuf hhistory
  published := .nil

theorem PathInv.prepared_prefix (h : PathInv bufSize historySize lib todo s) :
    s.prepared <+: s.given := ⟨_, h.given⟩

def heard (told : Option (Bool × Queued)) (n : Bool) : List ModuleEvent :=
  (told.toList.filter fun x => x.1 = n).map fun x => x.2.event

/-- Telling the listeners changes their queues only. -/
theorem tell_eq (s : System lib.ringBuf.Buf) (told : Option (Bool × Queued)) :
    s.tell told =
      { s with
        commCtrl := s.commCtrl ++ (heard told false).map .mcuExchange
        analysis := s.analysis ++ (heard told true).map .mcuExchange } := by
  cases told with
  | none => simp [System.tell, heard]
  | some x =>
    obtain ⟨n, q⟩ := x
    cases n with
    | false => simp [System.tell, heard]
    | true => simp [System.tell, heard]

theorem heatMap_heard (told : Option (Bool × Queued)) (n : Bool) :
    ((heard told n).map CommCtrlMsg.mcuExchange).flatMap CommCtrlMsg.heatMap = [] := by
  simp [CommCtrlMsg.heatMap]

/-- An event for the analysis module is a heat map from the other side, or none at all. -/
theorem heatMap_told {told : Option (Bool × Queued)}
    (h : ∀ q, told = some (true, q) → q.event.type = .heatMapDataReady →
      q.origin = .handleMessage) :
    ((heard told true).map AnalysisMsg.mcuExchange).flatMap AnalysisMsg.heatMap =
      heatMaps (receivedBy told true) := by
  cases told with
  | none => rfl
  | some x =>
    obtain ⟨n, q⟩ := x
    cases n with
    | false => rfl
    | true =>
      by_cases htype : q.event.type = .heatMapDataReady
      · simp [heard, receivedBy, heatMaps, AnalysisMsg.heatMap, Queued.message, htype,
          h q rfl htype]
      · by_cases horigin : q.origin = .handleMessage
        · simp [heard, receivedBy, heatMaps, AnalysisMsg.heatMap, Queued.message, htype, horigin]
        · simp [heard, receivedBy, heatMaps, AnalysisMsg.heatMap, htype, horigin]

/-- A step of the exchange; `todo'` is left of what the commCtrl module has to submit. -/
theorem PathInv.exchangeStep (hbase64 : lib.base64.Documented) (hcjson : lib.cjson.Documented)
    (hprint : lib.cjson.PrintsText) (hsize : 0 < bufSize) {e : ExchangeEvent}
    (h : PathInv bufSize historySize lib todo s)
    (hok : LinkOk bufSize lib.base64 lib.cjson s.listened e)
    (horigin : ∀ q, s.listened.exchange.submitted lib.base64 lib.cjson e = some (true, q) →
      q.event.type = .heatMapDataReady → q.origin = .handleMessage)
    {todo' : List Output} (htodo : ∀ p, .mcuExchange p ∈ todo' → .mcuExchange p ∈ todo)
    (hraised : heatMaps (raisedBy (s.listened.exchange.submitted lib.base64 lib.cjson e) false) ++
      todo'.flatMap Output.heatMap = todo.flatMap Output.heatMap)
    (hble : todo'.flatMap Output.submission = todo.flatMap Output.submission)
    (hs : s.exchangeStep lib e = some s') : PathInv bufSize historySize lib todo' s' := by
  obtain ⟨listened, hstep, rfl⟩ := Option.map_eq_some_iff.1 hs
  rw [tell_eq]
  refine ⟨Mcu.linkInv_step hbase64 hcjson hprint hsize h.link hok hstep, h.running,
    fun p hp => h.own p (htodo p hp), ?_, h.whole, ?_, ?_, ?_, h.histories, h.published⟩
  · simp only [List.flatMap_append, heatMap_heard, List.append_nil]
    exact h.given
  · simp only [messages_step hstep, heatMaps_append, List.append_assoc, hraised]
    exact h.raised
  · rw [List.flatMap_append, hble, ← List.flatMap_append]
    exact h.ble
  · simp only [received_step hstep, heatMaps_append, List.flatMap_append, heatMap_told horigin,
      ← List.append_assoc, h.received]

/-! ### The commCtrl module -/

/-- Something that is no heat map for the nRF9160 is submitted. -/
theorem PathInv.submitted {o : Output} (h : PathInv bufSize historySize lib (o :: todo) s)
    (ho : o.heatMap = []) :
    PathInv bufSize historySize lib todo { s with outputs := s.outputs ++ [o] } where
  link := h.link
  running := h.running
  own p hp := h.own p (List.mem_cons_of_mem _ hp)
  given := h.given
  whole := h.whole
  raised := by
    have hraised := h.raised
    rwa [List.flatMap_cons, ho, List.nil_append] at hraised
  ble := by
    rw [List.append_assoc, List.singleton_append]
    exact h.ble
  received := h.received
  histories := h.histories
  published := h.published

theorem PathInv.fits {payload : Bytes}
    (h : PathInv bufSize historySize lib (.mcuExchange (.sendToNrf9160 payload) :: todo) s) :
    payload.length = 1536 := by
  have hmem : payload ∈ s.prepared.map (heatMapBytes lib.ofFloat) := by
    rw [← h.raised]
    simp [Output.heatMap]
  obtain ⟨data, hdata, rfl⟩ := List.mem_map.1 hmem
  exact length_heatMapBytes _ (h.whole data (h.prepared_prefix.subset hdata))

/-- What is submitted for the other side can be raised. -/
theorem PathInv.raisable (hroomy : Roomy bufSize lib) {p : Producer}
    (h : PathInv bufSize historySize lib (.mcuExchange p :: todo) s) (garbage : Bool) :
    ∃ event, p.event garbage = some event ∧
      LinkOk bufSize lib.base64 lib.cjson s.listened (.raise false p garbage) ∧
      heatMaps (raisedBy (some (false, ⟨event, .producer p⟩)) false) =
        Output.heatMap (.mcuExchange p) := by
  rcases h.own p List.mem_cons_self with rfl | ⟨payload, rfl⟩
  · refine ⟨_, rfl, ⟨trivial, fun event he _ => ?_⟩, rfl⟩
    cases he
    exact hroomy.error
  · have hlength := h.fits
    have hevent : Producer.event garbage (.sendToNrf9160 payload) =
        some ⟨.heatMapDataReady, false, payload⟩ := if_pos (by rw [hlength]; decide)
    refine ⟨_, hevent, ⟨?_, fun event he _ => ?_⟩, rfl⟩
    · rw [Producer.Reliable, hlength]
      decide
    · cases hevent.symm.trans he
      exact hroomy.heatMap payload hlength

theorem PathInv.submit (hbase64 : lib.base64.Documented) (hcjson : lib.cjson.Documented)
    (hprint : lib.cjson.PrintsText) (hroomy : Roomy bufSize lib) (hsize : 0 < bufSize) {o : Output}
    (h : PathInv bufSize historySize lib (o :: todo) s) (garbage : Bool) :
    PathInv bufSize historySize lib todo (s.submit lib garbage o) := by
  cases o with
  | ble submission => exact h.submitted rfl
  | toggleAdvertising => exact h.submitted rfl
  | setInterval val => exact h.submitted rfl
  | mcuExchange p =>
    -- what is submitted is none of the messages for the Bluetooth module
    have hmoved : PathInv bufSize historySize lib (.mcuExchange p :: todo)
        { s with outputs := s.outputs ++ [.mcuExchange p] } := by
      refine ⟨h.link, h.running, h.own, h.given, h.whole, h.raised, ?_, h.received, h.histories,
        h.published⟩
      have hble := h.ble
      simp only [List.flatMap_append, List.flatMap_cons, List.flatMap_nil, Output.submission,
        List.nil_append, List.append_nil] at hble ⊢
      exact hble
    obtain ⟨event, hevent, hok, hraised⟩ := h.raisable hroomy garbage
    cases hs : ({ s with outputs := s.outputs ++ [.mcuExchange p] } : System _).exchangeStep lib
        (.raise false p garbage) with
    | none => simp [System.exchangeStep, Listened.step, Exchange.step, hevent] at hs
    | some s' =>
      have htold : s.listened.exchange.submitted lib.base64 lib.cjson (.raise false p garbage) =
          some (false, ⟨event, .producer p⟩) := by
        simp [Exchange.submitted, hevent]
      simp only [System.submit, hs, Option.getD_some]
      refine hmoved.exchangeStep hbase64 hcjson hprint hsize hok (fun q hq => ?_)
        (fun _ hp => List.mem_cons_of_mem _ hp) ?_ rfl hs
      · cases htold.symm.trans hq
      · rw [htold, hraised, List.flatMap_cons]

theorem PathInv.submits (hbase64 : lib.base64.Documented) (hcjson : lib.cjson.Documented)
    (hprint : lib.cjson.PrintsText) (hroomy : Roomy bufSize lib) (hsize : 0 < bufSize)
    (garbage : Bool) :
    ∀ (todo : List Output) (s : System lib.ringBuf.Buf),
      PathInv bufSize historySize lib todo s →
        PathInv bufSize historySize lib [] (todo.foldl (System.submit lib garbage) s) := by
  intro todo
  induction todo with
  | nil => exact fun _ h => h
  | cons o todo ih => exact fun _ h => ih _ (h.submit hbase64 hcjson hprint hroomy hsize garbage)

/-- What is submitted for a message, in `on_ready_state` and in `on_all_states`. -/
theorem outputs_of_msg (lib : Libraries) {heatMap heatMapComp : KMalloc} (hheatMap : heatMap ≠ none)
    (hcomp : heatMapComp ≠ none) {msg : CommCtrlMsg}
    (hwhole : ∀ data ∈ msg.heatMap, data.length = heatMapDataSize) :
    ∃ outputs, onReadyState none lib.ofFloat heatMap heatMapComp msg = some outputs ∧
      (∀ p, .mcuExchange p ∈ outputs ++ onAllStates msg →
        p = .commCtrlError ∨ ∃ data, p = .sendToNrf9160 data) ∧
      (outputs ++ onAllStates msg).flatMap Output.heatMap =
        msg.heatMap.map (heatMapBytes lib.ofFloat) ∧
      (outputs ++ onAllStates msg).flatMap Output.submission = msg.heatMap.flatMap sendToBle := by
  cases msg with
  | heatMapDataReady data =>
    refine ⟨_, onReadyState_heatMap hheatMap hcomp (hwhole data (List.mem_singleton_self _)),
      fun p hp => ?_, rfl, rfl⟩
    simp only [sendToBle, onAllStates, List.map_cons, List.map_nil, List.cons_append,
      List.nil_append, List.append_nil, List.mem_cons, List.not_mem_nil, reduceCtorEq, false_or,
      or_false, Output.mcuExchange.injEq] at hp
    exact Or.inr ⟨_, hp⟩
  | mcuExchange event =>
    refine ⟨_, rfl, fun p hp => ?_, ?_, ?_⟩
    · split_ifs at hp
      · simp [onAllStates] at hp
      · simp [onAllStates] at hp
    · split_ifs
      · rfl
      · rfl
    · split_ifs
      · rfl
      · rfl
  | setHeatmapInterval val =>
    exact ⟨_, rfl, fun p hp => by simp [onAllStates] at hp, rfl, rfl⟩
  | error => exact ⟨_, rfl, fun p hp => Or.inl (by simpa [onAllStates] using hp), rfl, rfl⟩
  | other => exact ⟨_, rfl, fun p hp => by simp [onAllStates] at hp, rfl, rfl⟩

theorem PathInv.queued (h : PathInv bufSize historySize lib todo s) {msg : CommCtrlMsg}
    (hmsg : msg ∈ s.commCtrl) : ∀ data ∈ msg.heatMap, data.length = heatMapDataSize := by
  intro data hdata
  refine h.whole data ?_
  rw [← h.given]
  exact List.mem_append_right _ (List.mem_flatMap.2 ⟨msg, hmsg, hdata⟩)

theorem PathInv.commCtrlThread (hbase64 : lib.base64.Documented) (hcjson : lib.cjson.Documented)
    (hprint : lib.cjson.PrintsText) (hroomy : Roomy bufSize lib) (hsize : 0 < bufSize)
    {heatMap heatMapComp : KMalloc} (hheatMap : heatMap ≠ none) (hcomp : heatMapComp ≠ none)
    {garbage : Bool} (h : PathInv bufSize historySize lib [] s)
    (hs : s.commCtrlThread lib heatMap heatMapComp garbage = some s') :
    PathInv bufSize historySize lib [] s' := by
  unfold System.commCtrlThread at hs
  split_ifs at hs
  split at hs
  · cases hs
  · rename_i msg rest hqueue
    obtain ⟨outputs, houtputs, hown, hheatMaps, hble⟩ :=
      outputs_of_msg lib hheatMap hcomp (h.queued (hqueue ▸ List.mem_cons_self))
    simp only [houtputs, Option.some.injEq] at hs
    subst hs
    refine PathInv.submits hbase64 hcjson hprint hroomy hsize garbage _ _
      ⟨h.link, h.running, hown, ?_, h.whole, ?_, ?_, h.received, h.histories, h.published⟩
    · have hgiven := h.given
      rw [hqueue, List.flatMap_cons, ← List.append_assoc] at hgiven
      exact hgiven
    · have hraised := h.raised
      rw [List.flatMap_nil, List.append_nil] at hraised
      simp only [List.map_append]
      rw [hheatMaps, hraised]
    · have hsubmitted := h.ble
      rw [List.append_nil] at hsubmitted
      simp only [List.flatMap_append] at hble ⊢
      rw [hsubmitted, hble]

/-! ### The analysis module -/

theorem analyzeHeatmap_isSome (lib : Libraries) (histories : Region → lib.ringBuf.Buf)
    (heatMap : ℕ → UInt32) {memory : Region → Analysis.Memory}
    (h : ∀ region, (memory region).area = true ∧ (memory region).stats = true) :
    ∃ histories', Analysis.analyzeHeatmap lib.ringBuf lib.cmsis histories heatMap memory =
      some histories' := by
  simp only [Analysis.analyzeHeatmap, Analysis.analyzeRoi, h, List.foldlM_cons, List.foldlM_nil]
  exact ⟨_, rfl⟩

theorem PathInv.received_prefix (h : PathInv bufSize historySize lib [] s) :
    heatMaps (s.listened.received true) <+: s.prepared.map (heatMapBytes lib.ofFloat) := by
  have hraised := h.raised
  rw [List.flatMap_nil, List.append_nil] at hraised
  rw [← hraised]
  exact heatMaps_prefix (h.link.received_prefix false)

theorem PathInv.analysed_pop (h : PathInv bufSize historySize lib [] s) {msg : AnalysisMsg}
    {rest : List AnalysisMsg} (hqueue : s.analysis = msg :: rest) (hmsg : msg.heatMap = []) :
    PathInv bufSize historySize lib [] { s with analysis := rest } := by
  refine ⟨h.link, h.running, h.own, h.given, h.whole, h.raised, h.ble, ?_, h.histories,
    h.published⟩
  have hreceived := h.received
  rwa [hqueue, List.flatMap_cons, hmsg, List.nil_append] at hreceived

theorem PathInv.analysisThread (hringBuf : lib.ringBuf.Documented) (hhistory : 1 ≤ historySize)
    {env : AnalysisEnv} (h : PathInv bufSize historySize lib [] s)
    (hok : PathOk bufSize lib s (.analysis env))
    (hs : s.analysisThread lib env = some s') : PathInv bufSize historySize lib [] s' := by
  obtain ⟨hheatMap, himage, hmemory⟩ := hok
  obtain ⟨memory, hheld⟩ := Option.ne_none_iff_exists'.1 hheatMap
  unfold System.analysisThread at hs
  split_ifs at hs
  split at hs
  · cases hs
  · rename_i rest hqueue
    cases hs
    exact h.analysed_pop hqueue rfl
  · rename_i event rest hqueue
    by_cases htype : event.type = .heatMapDataReady
    · obtain ⟨histories, hhistories⟩ := analyzeHeatmap_isSome lib s.histories
        (reverted lib.toFloat event.data memory) hmemory
      simp only [htype, if_true, convertBackAndAnalyze, hheld, hhistories,
        Option.some.injEq] at hs
      subst hs
      have hreceived := h.received
      rw [hqueue, List.flatMap_cons, AnalysisMsg.heatMap, if_pos htype] at hreceived
      have hmem : event.data ∈ s.prepared.map (heatMapBytes lib.ofFloat) := by
        refine h.received_prefix.subset ?_
        rw [← hreceived]
        simp
      obtain ⟨data, hdata, hpayload⟩ := List.mem_map.1 hmem
      have hwhole := h.whole data (h.prepared_prefix.subset hdata)
      refine ⟨h.link, h.running, h.own, h.given, h.whole, h.raised, h.ble, ?_, fun region => ?_,
        List.rel_append h.published (.cons ⟨env.image, himage, rfl⟩ .nil)⟩
      · rw [← hreceived]
        exact List.append_assoc ..
      · have hrecord := (h.histories region).analyzeRoi hringBuf (onMap_roi region) hhistory
          (Analysis.analyzeHeatmap_region hhistories region)
        rw [← hpayload, record_reverted hwhole, ← record_reverted hwhole fun _ => 0, hpayload]
          at hrecord
        simpa only [List.map_append, List.map_cons, List.map_nil] using hrecord
    · simp only [htype, if_false, Option.some.injEq] at hs
      subst hs
      exact h.analysed_pop hqueue (if_neg htype)

/-! ### The system -/

theorem pathInv_step (hbase64 : lib.base64.Documented) (hcjson : lib.cjson.Documented)
    (hprint : lib.cjson.PrintsText) (hringBuf : lib.ringBuf.Documented)
    (hroomy : Roomy bufSize lib) (hsize : 0 < bufSize) (hhistory : 1 ≤ historySize)
    {e : SystemEvent} (h : PathInv bufSize historySize lib [] s) (hok : PathOk bufSize lib s e)
    (hs : System.step lib s e = some s') : PathInv bufSize historySize lib [] s' := by
  cases e with
  | tellCommCtrl msg =>
    have htell : s' = { s with
        commCtrl := s.commCtrl ++ [msg], given := s.given ++ msg.heatMap } := by
      cases msg with
      | mcuExchange event => cases hs
      | heatMapDataReady | setHeatmapInterval | error | other => exact (Option.some.inj hs).symm
    subst htell
    refine ⟨h.link, h.running, h.own, ?_, fun data hdata => ?_, h.raised, h.ble, h.received,
      h.histories, h.published⟩
    · rw [List.flatMap_append, ← List.append_assoc, h.given, List.flatMap_singleton]
    · rcases List.mem_append.1 hdata with hdata | hdata
      · exact h.whole data hdata
      · exact hok data hdata
  | commCtrl heatMap heatMapComp garbage =>
    exact h.commCtrlThread hbase64 hcjson hprint hroomy hsize hok.1 hok.2 hs
  | exchange e =>
    simp only [System.step] at hs
    split_ifs at hs with hothers
    have hothers' : isCommCtrls e = false := by simpa using hothers
    refine h.exchangeStep hbase64 hcjson hprint hsize hok
      (fun q hq => submitted_heatMap hothers' hq) (fun _ hp => hp) ?_ rfl hs
    -- none of the heat maps is raised by another module
    rw [List.flatMap_nil, List.append_nil]
    cases htold : s.listened.exchange.submitted lib.base64 lib.cjson e with
    | none => rfl
    | some x =>
      obtain ⟨n, q⟩ := x
      by_cases htype : q.event.type = .heatMapDataReady
      · rw [raisedBy_of_not_local]
        · rfl
        · rintro _ ⟨⟩
          exact not_local_of_origin (Or.inl (submitted_heatMap hothers' htold htype))
      · by_cases hside : n = false ∧ q.isLocalWire = true
        · simp [raisedBy, hside.1, hside.2, heatMaps, Queued.message, htype]
        · simp only [raisedBy, Option.toList_some, List.filter_singleton, decide_eq_false hside]
          rfl
  | tellAnalysis =>
    cases hs
    refine ⟨h.link, h.running, h.own, h.given, h.whole, h.raised, h.ble, ?_, h.histories,
      h.published⟩
    simp [← h.received, AnalysisMsg.heatMap]
  | analysis env => exact h.analysisThread hringBuf hhistory hok hs

theorem pathInv_of_run (hbase64 : lib.base64.Documented) (hcjson : lib.cjson.Documented)
    (hprint : lib.cjson.PrintsText) (hringBuf : lib.ringBuf.Documented)
    (hroomy : Roomy bufSize lib) (hsize : 0 < bufSize) (hhistory : 1 ≤ historySize)
    {evs : List SystemEvent}
    (h : (system bufSize historySize lib).RunOf (PathOk bufSize lib) evs s) :
    PathInv bufSize historySize lib [] s :=
  h.invariant _ (.start hringBuf hhistory) fun _ _ _ hi hok hs =>
    pathInv_step hbase64 hcjson hprint hringBuf hroomy hsize hhistory hi hok hs

end Invariant

end Heaty.HeatMapPath
