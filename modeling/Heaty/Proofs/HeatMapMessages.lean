import Heaty.Proofs.Analysis
import Heaty.Proofs.Delivery
import Heaty.Proofs.HeatMapImage
import Heaty.Proofs.HeatMapScaling
import Heaty.Proofs.PrepareHeatmap
import Heaty.Spec.HeatMapPath
import Heaty.Spec.Mlx90640

/-! What gets through of a heat map, and of the messages between the two controllers: what the
commCtrl module submits for the nRF9160, and what a step of the exchange adds to it. -/

namespace Heaty.HeatMapPath

open Analysis (OnMap record)
open CommCtrl (entriesCount floatAt heatMapBytes sendToBle)
open FixedPoint (clamp)
open HeatMap (Region Roi convertAndScaleHeatMap revertHeatMapToFloat)
open Mcu (EventType Exchange ExchangeEvent Listened Queued)
open Memory (KMalloc)
open Mlx90640 (heatMapDataSize)

variable {lib : Libraries} {data : Bytes}

/-! ## What gets through of a heat map -/

/-- What the nRF9160 learns of a temperature. -/
def transmitted (float : Bytes → ℚ) (data : Bytes) (i : ℕ) : ℚ :=
  revertHeatMapToFloat (convertAndScaleHeatMap fun _ : Fin 1 => floatAt float data i) 0

theorem abs_transmitted_sub_lt (float : Bytes → ℚ) (data : Bytes) (i : ℕ) :
    |transmitted float data i - clamp (-3276) 3276 (floatAt float data i)| < 1 / 10 :=
  HeatMap.close_of_scaled _ _

def seen (lib : Libraries) (data : Bytes) : ℕ → UInt32 := fun i =>
  lib.toFloat (transmitted lib.ofFloat data i)

theorem entriesCount_heatMap (h : data.length = heatMapDataSize) : entriesCount data = 768 := by
  rw [entriesCount, h]
  rfl

theorem length_heatMapBytes (float : Bytes → ℚ) (h : data.length = heatMapDataSize) :
    (heatMapBytes float data).length = 1536 := by
  rw [CommCtrl.heatMapBytes_length, entriesCount_heatMap h]

/-- Whatever the memory held, the pixels are those that got through. -/
theorem reverted_heatMapBytes (h : data.length = heatMapDataSize) (memory : ℕ → UInt32) {i : ℕ}
    (hi : i < 768) :
    reverted lib.toFloat (heatMapBytes lib.ofFloat data) memory i = seen lib data i := by
  have hentries : HeatMap.entriesOf (heatMapBytes lib.ofFloat data).length = 768 := by
    rw [length_heatMapBytes _ h]
    rfl
  have hcount := entriesCount_heatMap h
  have hpixel := CommCtrl.int16At_heatMapBytes lib.ofFloat data ⟨i, hcount ▸ hi⟩
  rw [reverted, dif_pos (hentries.symm ▸ hi)]
  simp only [seen, transmitted, revertHeatMapToFloat, HeatMap.entries, hpixel]
  rfl

theorem record_congr {roi : Roi} (hroi : OnMap roi) {f g : ℕ → UInt32} (h : ∀ i < 768, f i = g i)
    (cmsis : Analysis.Cmsis) : record cmsis roi f = record cmsis roi g := by
  have hpixels : Analysis.pixels roi f = Analysis.pixels roi g := by
    rw [← Analysis.getRoi_eq_pixels, ← Analysis.getRoi_eq_pixels]
    exact List.map_congr_left fun i hi => h i (Analysis.roiIndices_lt hroi i hi)
  simp only [record, hpixels]

theorem onMap_roi (region : Region) : OnMap region.roi := by
  cases region <;> decide

theorem record_reverted (h : data.length = heatMapDataSize) (memory : ℕ → UInt32)
    (region : Region) :
    record lib.cmsis region.roi (reverted lib.toFloat (heatMapBytes lib.ofFloat data) memory) =
      record lib.cmsis region.roi (seen lib data) :=
  record_congr (onMap_roi region) (fun _ hi => reverted_heatMapBytes h memory hi) lib.cmsis

/-- The pixels of a heat map's image: whole degrees, as far as a pixel goes. -/
def imagePixels (lib : Libraries) (data : Bytes) : Bytes :=
  List.ofFn fun i : Fin HeatMap.imageSize =>
    UInt8.ofInt ⌊clamp 0 255 (transmitted lib.ofFloat data i)⌋

theorem ofInt_toInt8 (n : ℤ) : UInt8.ofInt (HeatMap.toInt8 n) = UInt8.ofInt n := by
  rw [HeatMap.toInt8, UInt8.ofInt, UInt8.ofInt]
  congr 2
  exact Int.bmod_emod

theorem pixels_heatMapBytes (h : data.length = heatMapDataSize) :
    HeatMap.pixels (heatMapBytes lib.ofFloat data) = imagePixels lib data := by
  have hcount := entriesCount_heatMap h
  rw [HeatMap.pixels, imagePixels, List.map_ofFn]
  congr 1
  funext i
  have hpixel := CommCtrl.int16At_heatMapBytes lib.ofFloat data ⟨i, hcount ▸ i.isLt⟩
  rw [Function.comp_apply, HeatMap.revertConvertAndScaleHeatMap, ofInt_toInt8, hpixel,
    HeatMap.trunc_degrees]
  congr 3

/-! ## What the commCtrl module makes of a heat map -/

theorem onReadyState_heatMap {float : Bytes → ℚ} {heatMap heatMapComp : KMalloc}
    (hheatMap : heatMap ≠ none) (hcomp : heatMapComp ≠ none)
    (h : data.length = heatMapDataSize) :
    onReadyState none float heatMap heatMapComp (.heatMapDataReady data) =
      some ((sendToBle data).map .ble ++
        [.mcuExchange (.sendToNrf9160 (heatMapBytes float data))]) := by
  obtain ⟨⟨dst, mem⟩, rfl⟩ := Option.ne_none_iff_exists'.1 hcomp
  have hlength := length_heatMapBytes float h
  have hwhole : data.take (data.length % 65536) = data := by
    rw [h]
    exact List.take_of_length_le h.le
  have hcopied : (Utils.overwrite (heatMapBytes float data) mem).take 1536 =
      heatMapBytes float data := by
    rw [← hlength, Utils.take_overwrite]
  simp only [onReadyState, CommCtrl.prepareAndSendHeatmap, hheatMap, false_and, if_false,
    Utils.compressData, hlength, hwhole, CommCtrl.sendToNrf9160, hcopied, Option.map_some]
  rfl

/-! ## What a step of the exchange adds -/

section Exchange

variable {base64 : Base64Api} {cjson : CJsonApi} {s s' : Listened} {e : ExchangeEvent}

def heatMaps (messages : List (EventType × Bytes)) : List Bytes :=
  messages.filterMap fun message => if message.1 = .heatMapDataReady then some message.2 else none

@[simp] theorem heatMaps_append (messages messages' : List (EventType × Bytes)) :
    heatMaps (messages ++ messages') = heatMaps messages ++ heatMaps messages' :=
  List.filterMap_append

theorem heatMaps_prefix {messages messages' : List (EventType × Bytes)}
    (h : messages <+: messages') : heatMaps messages <+: heatMaps messages' := by
  obtain ⟨more, rfl⟩ := h
  rw [heatMaps_append]
  exact List.prefix_append _ _

/-- Of what a step submits, this controller's messages for the other one. -/
def raisedBy (told : Option (Bool × Queued)) (n : Bool) : List (EventType × Bytes) :=
  (told.toList.filter fun x => x.1 = n ∧ x.2.isLocalWire = true).map fun x => x.2.message

/-- Of what a step submits, the other one's messages for this controller. -/
def receivedBy (told : Option (Bool × Queued)) (n : Bool) : List (EventType × Bytes) :=
  (told.toList.filter fun x => x.1 = n ∧ x.2.origin = .handleMessage).map fun x => x.2.message

theorem messages_submit (s : Exchange) (n : Bool) (q : Queued) :
    ∀ m, (s.setNode n ((s.node n).submit q)).messages m =
      s.messages m ++ raisedBy (some (n, q)) m := by
  refine Mcu.forall_side n ?_ ?_
  · cases hlocal : q.isLocalWire with
    | false => simp [Exchange.messages, Mcu.Node.submit, raisedBy, hlocal]
    | true => simp [Exchange.messages, Mcu.Node.submit, raisedBy, hlocal]
  · simp [Exchange.messages, raisedBy]

/-- A change of one side that leaves alone what it raised. -/
theorem messages_setNode {s : Exchange} {n : Bool} {node : Mcu.Node}
    (h : node.raised = (s.node n).raised) : ∀ m, (s.setNode n node).messages m = s.messages m := by
  refine Mcu.forall_side n ?_ ?_
  · simp [Exchange.messages, h]
  · simp [Exchange.messages]

theorem raisedBy_of_not_local {told : Option (Bool × Queued)}
    (h : ∀ x ∈ told, x.2.isLocalWire = false) (m : Bool) : raisedBy told m = [] := by
  cases told with
  | none => rfl
  | some x => simp [raisedBy, h x rfl]

theorem completed_origin {n : Mcu.Node} {garbage : Bool} {c : UInt8} {q : Queued}
    (h : n.completed garbage c = some q) :
    q.origin = .uartRxHandler ∧ q.event.type = .dataReady := by
  obtain ⟨event, hevent, rfl⟩ := Option.map_eq_some_iff.1 h
  refine ⟨rfl, ?_⟩
  simp only [Mcu.uartRxHandler] at hevent
  split_ifs at hevent
  cases hevent
  rfl

theorem submitted_origin {n : Mcu.Node} {env : Mcu.ThreadEnv} {q : Queued}
    (h : n.submitted base64 cjson env = some q) : q.origin = .handleMessage := by
  unfold Mcu.Node.submitted at h
  split at h
  · cases h
  · split_ifs at h
    obtain ⟨r, -, rfl⟩ := Option.map_eq_some_iff.1 h
    rfl

theorem not_local_of_origin {q : Queued}
    (h : q.origin = .handleMessage ∨ q.origin = .uartRxHandler) : q.isLocalWire = false := by
  rcases h with h | h
  · simp [Queued.isLocalWire, h]
  · simp [Queued.isLocalWire, h]

theorem raised_handleMsg {n : Mcu.Node} {env : Mcu.ThreadEnv} {r : Mcu.Node × Bytes}
    (h : n.handleMsg base64 cjson env = some r) : r.1.raised = n.raised := by
  obtain ⟨-, q, rest, -, hhandles⟩ := Mcu.handleMsg_handles h
  generalize n.submitted base64 cjson env = submitted at hhandles
  cases hhandles with
  | drop => rfl
  | send => rfl
  | frame => rfl
  | halt => rfl

theorem messages_step (hs : Listened.step base64 cjson s e = some s') (m : Bool) :
    s'.exchange.messages m =
      s.exchange.messages m ++ raisedBy (s.exchange.submitted base64 cjson e) m := by
  simp only [Listened.step, Option.map_eq_some_iff] at hs
  obtain ⟨exchange, hs, rfl⟩ := hs
  cases e with
  | raise n p garbage =>
    cases he : p.event garbage with
    | none => simp [Exchange.step, he] at hs
    | some event =>
      simp only [Exchange.step, he, Option.some.injEq] at hs
      subst hs
      simpa [Exchange.submitted, he] using messages_submit s.exchange n ⟨event, .producer p⟩ m
  | thread n env =>
    simp only [Exchange.step, Option.map_eq_some_iff] at hs
    obtain ⟨r, hr, rfl⟩ := hs
    rw [raisedBy_of_not_local, List.append_nil]
    · exact messages_setNode (raised_handleMsg hr) m
    · intro x hx
      obtain ⟨q, hq, rfl⟩ := Option.map_eq_some_iff.1 hx
      exact not_local_of_origin (Or.inl (submitted_origin hq))
  | arrive n garbage =>
    cases hline : s.exchange.line !n with
    | nil => simp [Exchange.step, hline] at hs
    | cons c rest =>
      simp only [Exchange.step, hline, Option.some.injEq] at hs
      subst hs
      rw [raisedBy_of_not_local, List.append_nil]
      · exact messages_setNode (Mcu.receive_keeps _ garbage c).1.raised m
      · intro x hx
        simp only [Exchange.submitted, hline] at hx
        obtain ⟨q, hq, rfl⟩ := Option.map_eq_some_iff.1 hx
        exact not_local_of_origin (Or.inr (completed_origin hq).1)
  | noise n c garbage =>
    cases hs
    rw [raisedBy_of_not_local, List.append_nil]
    · exact messages_setNode (Mcu.receive_keeps _ garbage c).1.raised m
    · intro x hx
      obtain ⟨q, hq, rfl⟩ := Option.map_eq_some_iff.1 hx
      exact not_local_of_origin (Or.inr (completed_origin hq).1)
  | lose n =>
    cases hline : s.exchange.line !n with
    | nil => simp [Exchange.step, hline] at hs
    | cons c rest =>
      simp only [Exchange.step, hline, Option.some.injEq] at hs
      subst hs
      exact (List.append_nil _).symm

theorem received_step (hs : Listened.step base64 cjson s e = some s') (m : Bool) :
    s'.received m = s.received m ++ receivedBy (s.exchange.submitted base64 cjson e) m := by
  simp only [Listened.step, Option.map_eq_some_iff] at hs
  obtain ⟨exchange, -, rfl⟩ := hs
  cases s.exchange.submitted base64 cjson e with
  | none => exact (List.append_nil _).symm
  | some x =>
    obtain ⟨n, q⟩ := x
    obtain ⟨hself, hother⟩ := Mcu.received_hear s exchange n q
    revert m
    refine Mcu.forall_side n ?_ ?_
    · rw [hself]
      split_ifs with horigin
      · simp [receivedBy, horigin]
      · simp [receivedBy, horigin]
    · rw [hother]
      simp [receivedBy]

/-- Only the commCtrl module raises heat maps, so that any other comes from the other side. -/
theorem submitted_heatMap (hothers : isCommCtrls e = false) {n : Bool} {q : Queued}
    (h : s.exchange.submitted base64 cjson e = some (n, q))
    (htype : q.event.type = .heatMapDataReady) : q.origin = .handleMessage := by
  cases e with
  | raise n p garbage =>
    simp only [Exchange.submitted, Option.map_eq_some_iff, Prod.mk.injEq] at h
    obtain ⟨event, hevent, rfl, rfl⟩ := h
    cases p with
    | sendToNrf9160 data => cases hothers
    | commCtrlError => cases hothers
    | mockError | handleButtonEvent | handleSensorEvent | initReady | initError |
      testHeatMapData =>
      cases hevent
      cases htype
  | thread n env =>
    obtain ⟨q', hq, hpair⟩ := Option.map_eq_some_iff.1 h
    cases hpair
    exact submitted_origin hq
  | arrive n garbage =>
    simp only [Exchange.submitted] at h
    split at h
    · cases h
    · obtain ⟨q', hq, hpair⟩ := Option.map_eq_some_iff.1 h
      cases hpair
      rw [(completed_origin hq).2] at htype
      cases htype
  | noise n c garbage =>
    obtain ⟨q', hq, hpair⟩ := Option.map_eq_some_iff.1 h
    cases hpair
    rw [(completed_origin hq).2] at htype
    cases htype
  | lose n => cases h

end Exchange

end Heaty.HeatMapPath
