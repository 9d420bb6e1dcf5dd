import Heaty.Spec.Analysis
import Heaty.Spec.CommCtrl
import Heaty.Spec.Listeners

/-! The way of a heat map through both controllers: commCtrl_module.c on the nRF52840, the
exchange between the two, and analysis_module.c on the nRF9160. Both modules are in their
READY state, in the build without LZ4. -/

namespace Heaty.HeatMapPath

open Analysis (Cmsis RingBufApi)
open HeatMap (Region)
open Collector (Submission)
open Mcu (Exchange ExchangeEvent Listened ModuleEvent Producer Queued)
open Memory (KMalloc)

/-! ## commCtrl_module.c -/

/-- The messages that `on_ready_state` and `on_all_states` of commCtrl_module.c tell apart.
`error` is an error event of this module, of the Bluetooth module or of the sensors. -/
inductive CommCtrlMsg
  | heatMapDataReady (data : Bytes)
  | mcuExchange (event : ModuleEvent)
  | setHeatmapInterval (val : ℕ)
  | error
  | other

/-- What the commCtrl module submits. -/
inductive Output
  | ble (submission : Submission)
  | toggleAdvertising
  | setInterval (val : ℕ)
  | mcuExchange (p : Producer)

/-- `on_ready_state` of commCtrl_module.c; `none` when it follows a NULL pointer. -/
def onReadyState (lz4 : Option Lz4Api) (float : Bytes → ℚ) (heatMap heatMapComp : KMalloc) :
    CommCtrlMsg → Option (List Output)
  | .heatMapDataReady data =>
      (CommCtrl.prepareAndSendHeatmap lz4 float heatMap heatMapComp data).map fun prepared =>
        prepared.ble.map .ble ++
          prepared.nrf9160.map fun event => .mcuExchange (.sendToNrf9160 event.data)
  | .mcuExchange event => some (if event.type = .button then [.toggleAdvertising] else [])
  | .setHeatmapInterval val => some [.setInterval val]
  | .error | .other => some []

/-- `on_all_states` of commCtrl_module.c. -/
def onAllStates : CommCtrlMsg → List Output
  | .error => [.mcuExchange .commCtrlError]
  | _ => []

/-! ## analysis_module.c -/

/-- The messages of the analysis module; `other` stands for those of the sensors. -/
inductive AnalysisMsg
  | mcuExchange (event : ModuleEvent)
  | other

/-- What the analysis of a heat map meets: memory for the heat map, with what it held, and for
the regions, and what `HeatmapToBase64Image` meets. -/
structure AnalysisEnv where
  heatMap : Option (ℕ → UInt32)
  regions : Region → Analysis.Memory
  image : HeatMap.ImageEnv

/-- The heat map that `revertHeatMapToFloat` leaves in memory. Beyond its entries lies what the
memory held. -/
def reverted (float : ℚ → UInt32) (data : Bytes) (memory : ℕ → UInt32) : ℕ → UInt32 := fun i =>
  if h : i < HeatMap.entriesOf data.length then
    float (HeatMap.revertHeatMapToFloat (HeatMap.entries data) ⟨i, h⟩)
  else memory i

/-- `convertBack_and_analyze`, with the histories of the regions; `none` when it follows a NULL
pointer. -/
def convertBackAndAnalyze (api : RingBufApi) (cmsis : Cmsis) (float : ℚ → UInt32)
    (histories : Region → api.Buf) (env : AnalysisEnv) (data : Bytes) :
    Option (Region → api.Buf) :=
  match env.heatMap with
  | none => none
  | some memory =>
      Analysis.analyzeHeatmap api cmsis histories (reverted float data memory) env.regions

/-! ## The system -/

/-- The exchange with its listeners, the queues and threads of the two modules, and the history
of the heat maps that the sensors gave, of what the commCtrl module prepared and submitted, and
of what the analysis module analysed and published. `module_enqueue_msg` waits where a queue is
full, and with it all that comes behind, so that a queue and what waits for it are one. -/
structure System (Buf : Type) where
  listened : Listened
  commCtrl : List CommCtrlMsg
  commCtrlHalted : Bool
  analysis : List AnalysisMsg
  analysisHalted : Bool
  histories : Region → Buf
  given : List Bytes
  prepared : List Bytes
  outputs : List Output
  analysed : List Bytes
  published : List HeatMap.ImageCall

/-- The libraries that the system calls, and the conversions of a `float`. -/
structure Libraries where
  base64 : Base64Api
  cjson : CJsonApi
  ringBuf : RingBufApi
  cmsis : Cmsis
  ofFloat : Bytes → ℚ
  toFloat : ℚ → UInt32

inductive SystemEvent
  /-- a message for the commCtrl module that is no event of mcu_exchange -/
  | tellCommCtrl (msg : CommCtrlMsg)
  | commCtrl (heatMap heatMapComp : KMalloc) (garbage : Bool)
  | exchange (e : ExchangeEvent)
  | tellAnalysis
  | analysis (env : AnalysisEnv)

variable {Buf : Type}

/-- The listeners of both controllers put the event into their queues. -/
def System.tell (s : System Buf) : Option (Bool × Queued) → System Buf
  | none => s
  | some (false, q) =>
      { s with commCtrl := s.commCtrl ++ [.mcuExchange q.event] }
  | some (true, q) =>
      { s with analysis := s.analysis ++ [.mcuExchange q.event] }

/-- A step of the exchange. -/
def System.exchangeStep (lib : Libraries) (s : System Buf) (e : ExchangeEvent) :
    Option (System Buf) :=
  (s.listened.step lib.base64 lib.cjson e).map fun listened =>
    { s with listened := listened }.tell
      (s.listened.exchange.submitted lib.base64 lib.cjson e)

/-- The commCtrl module submits something. -/
def System.submit (lib : Libraries) (garbage : Bool) (s : System Buf) (output : Output) :
    System Buf :=
  let s := { s with outputs := s.outputs ++ [output] }
  match output with
  | .mcuExchange p => (s.exchangeStep lib (.raise false p garbage)).getD s
  | _ => s

/-- The heat map in a message for the commCtrl module. -/
def CommCtrlMsg.heatMap : CommCtrlMsg → List Bytes
  | .heatMapDataReady data => [data]
  | _ => []

/-- The thread of the commCtrl module handles its next message. -/
def System.commCtrlThread (lib : Libraries) (s : System Buf) (heatMap heatMapComp : KMalloc)
    (garbage : Bool) : Option (System Buf) :=
  if s.commCtrlHalted then none
  else
    match s.commCtrl with
    | [] => none
    | msg :: rest =>
        let s := { s with commCtrl := rest }
        match onReadyState none lib.ofFloat heatMap heatMapComp msg with
        | none => some { s with commCtrlHalted := true }
        | some outputs =>
            some ((outputs ++ onAllStates msg).foldl (System.submit lib garbage)
              { s with prepared := s.prepared ++ msg.heatMap })

/-- The thread of the analysis module handles its next message. A heat map is published as an
image after it was analysed. -/
def System.analysisThread (lib : Libraries) (s : System lib.ringBuf.Buf) (env : AnalysisEnv) :
    Option (System lib.ringBuf.Buf) :=
  if s.analysisHalted then none
  else
    match s.analysis with
    | [] => none
    | .other :: rest => some { s with analysis := rest }
    | .mcuExchange event :: rest =>
        let s := { s with analysis := rest }
        if event.type = .heatMapDataReady then
          match convertBackAndAnalyze lib.ringBuf lib.cmsis lib.toFloat s.histories env
              event.data with
          | none => some { s with analysisHalted := true }
          | some histories =>
              let s := { s with histories := histories, analysed := s.analysed ++ [event.data] }
              if env.image.heatMap = none then some { s with analysisHalted := true }
              else
                some { s with
                  published := s.published ++
                    [HeatMap.heatmapToBase64Image lib.base64 env.image event.data] }
        else some s

/-- Only the commCtrl module raises its own events. -/
def isCommCtrls : ExchangeEvent → Bool
  | .raise _ (.sendToNrf9160 _) _ | .raise _ .commCtrlError _ => true
  | _ => false

def System.step (lib : Libraries) (s : System lib.ringBuf.Buf) :
    SystemEvent → Option (System lib.ringBuf.Buf)
  | .tellCommCtrl (.mcuExchange _) => none
  | .tellCommCtrl msg =>
      some { s with commCtrl := s.commCtrl ++ [msg], given := s.given ++ msg.heatMap }
  | .commCtrl heatMap heatMapComp garbage => s.commCtrlThread lib heatMap heatMapComp garbage
  | .exchange e => if isCommCtrls e then none else s.exchangeStep lib e
  | .tellAnalysis => some { s with analysis := s.analysis ++ [.other] }
  | .analysis env => s.analysisThread lib env

/-- The two controllers, with receive buffers and histories of the given sizes. -/
def system (bufSize historySize : ℕ) (lib : Libraries) :
    Lts (System lib.ringBuf.Buf) SystemEvent where
  init :=
    { listened := (Mcu.listened bufSize lib.base64 lib.cjson).init
      commCtrl := []
      commCtrlHalted := false
      analysis := []
      analysisHalted := false
      histories := fun _ => lib.ringBuf.declare (Analysis.sizeofStats * historySize)
      given := []
      prepared := []
      outputs := []
      analysed := []
      published := [] }
  step := System.step lib

end Heaty.HeatMapPath
