import Heaty.Proofs.CameraTransfer
import Heaty.Spec.Arducam

/-! `takeImage` over the driver. The count of the bytes left in the camera is the
number of bytes of the image that burst reads have still to deliver; the driver then
reads the image in the chunks that the model on bytes describes, and leaves none. -/

namespace Heaty.Arducam

open Collector (CameraDataEvent Chunks)

variable {maxChunck : ℕ} {capture : Capture}

/-! ## The length registers -/

theorem readFifoLength_eq (h : capture.length ≤ 0x7FFFFF) :
    readFifoLength capture = capture.length := by
  have hlen1 : (capture.fifoSize 1).toNat = capture.length % 256 := by
    simp [Capture.fifoSize]
  have hlen2 : (capture.fifoSize 2).toNat = capture.length / 256 % 256 := by
    simp [Capture.fifoSize]
  have hlen3 : (capture.fifoSize 3).toNat &&& 0x7f = capture.length / 65536 % 256 % 128 := by
    rw [show (0x7f : ℕ) = 2 ^ 7 - 1 from rfl, Nat.and_two_pow_sub_one_eq_mod]
    simp [Capture.fifoSize]
  simp only [readFifoLength, hlen1, hlen2, hlen3]
  -- the registers' bits lie beside each other
  have hlow : (capture.length / 256 % 256) <<< 8 ||| capture.length % 256 =
      capture.length % 65536 := by
    rw [← Nat.shiftLeft_add_eq_or_of_lt (show capture.length % 256 < 2 ^ 8 by omega),
      Nat.shiftLeft_eq]
    omega
  rw [Nat.or_assoc, hlow,
    ← Nat.shiftLeft_add_eq_or_of_lt (show capture.length % 65536 < 2 ^ 16 by omega),
    Nat.shiftLeft_eq, show (0x07fffff : ℕ) = 2 ^ 23 - 1 from rfl, Nat.and_two_pow_sub_one_eq_mod]
  omega

/-! ## One buffer -/

theorem take_append_take (s : Stream' UInt8) (m n : ℕ) :
    s.take m ++ (s.drop m).take n = s.take (m + n) := by
  induction m generalizing s with
  | zero => simp
  | succ m ih =>
    rw [Nat.succ_add, Stream'.take_succ, Stream'.take_succ, List.cons_append, ← ih s.tail,
      Stream'.drop_succ]

def SpiRead.Fits (r : SpiRead) : Prop :=
  r.length ≤ spiTransferMaxLength ∧ r.offset + r.length ≤ r.bufferSize

/-- Reads that follow one another, from an offset on to the end of a buffer. -/
def Covers (bufferSize : ℕ) : ℕ → List SpiRead → Prop
  | i, [] => i = bufferSize
  | i, r :: reads => r.bufferSize = bufferSize ∧ r.offset = i ∧
      Covers bufferSize (i + r.length) reads

/-- The loop stores the next bytes of the FIFO, in reads that fit and follow one another. -/
theorem fillLoop_spec {bufferSize : ℕ} (fuel : ℕ) {i : ℕ} (fifo : Stream' UInt8)
    (hi : i ≤ bufferSize) (hfuel : bufferSize ≤ i + fuel) :
    ∃ reads, fillLoop bufferSize bufferSize fuel i fifo =
        some ⟨fifo.take (bufferSize - i), reads, fifo.drop (bufferSize - i)⟩ ∧
      (∀ r ∈ reads, r.Fits) ∧ Covers bufferSize i reads := by
  induction fuel generalizing i fifo with
  | zero =>
    have hdone : i = bufferSize := by omega
    refine ⟨[], ?_, by simp, hdone⟩
    simp [fillLoop, hdone]
  | succ fuel ih =>
    by_cases hlt : i < bufferSize
    · set len := if bufferSize - i > spiTransferMaxLength then spiTransferMaxLength
        else bufferSize - i with hlen
      have hpos : 0 < len := by
        rw [hlen]
        split_ifs <;> [decide; omega]
      have hle : len ≤ spiTransferMaxLength ∧ len ≤ bufferSize - i := by
        rw [hlen]
        split_ifs <;> omega
      obtain ⟨reads, hreads, hfits, hcovers⟩ :=
        ih (i := i + len) (fifo.drop len) (by omega) (by omega)
      have hsum : len + (bufferSize - (i + len)) = bufferSize - i := by omega
      refine ⟨⟨bufferSize, i, len⟩ :: reads, ?_, ?_, rfl, rfl, hcovers⟩
      · rw [fillLoop, if_pos hlt]
        simp only [← hlen, hreads, Option.map_some, take_append_take, Stream'.drop_drop, hsum]
      · rw [List.forall_mem_cons]
        exact ⟨⟨hle.1, by simp only; omega⟩, hfits⟩
    · have hdone : i = bufferSize := by omega
      refine ⟨[], ?_, by simp, hdone⟩
      simp [fillLoop, hdone]

theorem fillBuffer_spec (c : Camera) {bufferSize : ℕ}
    (hle : bufferSize ≤ c.mBytesLeftInCamera) :
    ∃ reads, c.fillBuffer bufferSize =
        some (⟨c.mBytesLeftInCamera - bufferSize, c.fifo.drop bufferSize⟩,
          ⟨c.fifo.take bufferSize, reads, c.fifo.drop bufferSize⟩) ∧
      (∀ r ∈ reads, r.Fits) ∧ Covers bufferSize 0 reads := by
  by_cases hnone : c.mBytesLeftInCamera = 0
  · obtain rfl : bufferSize = 0 := by omega
    obtain ⟨left, fifo⟩ := c
    obtain rfl : left = 0 := hnone
    exact ⟨[], rfl, by simp, rfl⟩
  · have hread : (if c.mBytesLeftInCamera > bufferSize then bufferSize
        else c.mBytesLeftInCamera) = bufferSize := by
      split_ifs <;> omega
    obtain ⟨reads, hreads, hcovers⟩ :=
      fillLoop_spec bufferSize c.fifo (Nat.zero_le bufferSize) (by omega)
    rw [Nat.sub_zero] at hreads
    exact ⟨reads, by simp [Camera.fillBuffer, hnone, hread, hreads], hcovers⟩

/-! ## A whole image -/

/-- Each chunk was read by reads of its own, up to its last byte. -/
def ChunksRead (taken : Taken) : Prop :=
  ∃ chunks : List (List SpiRead), taken.reads = chunks.flatten ∧
    List.Forall₂ (fun (event : CameraDataEvent) reads => Covers event.data.length 0 reads)
      taken.events chunks

/-- The loop reads what is left in the chunks of the model on bytes. -/
theorem takeImageLoop_spec (hmax : 0 < maxChunck) (imageSize fuel : ℕ) (c : Camera)
    (hfuel : c.mBytesLeftInCamera ≤ fuel) :
    ∃ taken, c.takeImageLoop maxChunck imageSize fuel c.mBytesLeftInCamera = some taken ∧
      Collector.takeImageLoop maxChunck imageSize fuel (c.fifo.take c.mBytesLeftInCamera) =
        some taken.events ∧
      (∀ r ∈ taken.reads, r.Fits) ∧ ChunksRead taken ∧
      taken.camera.mBytesLeftInCamera = 0 ∧ taken.notReadOut = false := by
  have hnothing : ChunksRead ⟨c, [], [], false⟩ := ⟨[], rfl, .nil⟩
  induction fuel generalizing c with
  | zero =>
    have hnone : c.mBytesLeftInCamera = 0 := by omega
    exact ⟨⟨c, [], [], false⟩, by simp [Camera.takeImageLoop, hnone],
      by simp [Collector.takeImageLoop, hnone], by simp, hnothing, hnone, rfl⟩
  | succ fuel ih =>
    by_cases hnone : c.mBytesLeftInCamera = 0
    · exact ⟨⟨c, [], [], false⟩, by simp [Camera.takeImageLoop, hnone],
        by simp [Collector.takeImageLoop, hnone], by simp, hnothing, hnone, rfl⟩
    · set size := if c.mBytesLeftInCamera > maxChunck then maxChunck else c.mBytesLeftInCamera
        with hsize
      have hle : size ≤ c.mBytesLeftInCamera := by
        rw [hsize]
        split_ifs <;> omega
      have hpos : 0 < size := by
        rw [hsize]
        split_ifs <;> omega
      obtain ⟨reads, hfill, hfits, hcovers⟩ := fillBuffer_spec c hle
      obtain ⟨taken, hloop, hevents, hrest, ⟨chunks, hchunks, hall⟩, hleft, hout⟩ :=
        ih ⟨c.mBytesLeftInCamera - size, c.fifo.drop size⟩ (by simp only; omega) ⟨[], rfl, .nil⟩
      simp only at hloop hevents
      refine ⟨{ taken with
        events := ⟨imageSize, c.mBytesLeftInCamera = imageSize,
          c.mBytesLeftInCamera ≤ maxChunck, c.fifo.take size⟩ :: taken.events
        reads := reads ++ taken.reads }, ?_, ?_, ?_, ⟨reads :: chunks, ?_, .cons ?_ hall⟩,
        hleft, hout⟩
      · rw [Camera.takeImageLoop, if_pos hnone]
        simp only [Camera.sendImageChunck, ← hsize, hfill, Option.map_some, hloop]
      · have hsplit : c.fifo.take c.mBytesLeftInCamera =
            c.fifo.take size ++ (c.fifo.drop size).take (c.mBytesLeftInCamera - size) := by
          rw [take_append_take]
          congr 1
          omega
        have hlen : (c.fifo.take size).length = size := Stream'.length_take _ _
        rw [Collector.takeImageLoop, Stream'.length_take, if_pos hnone]
        simp only [Collector.sendImageChunck, Collector.fillBuffer, ← hsize]
        rw [hsplit, List.drop_left' hlen, List.take_left' hlen, hevents, Option.map_some]
      · intro r hr
        rcases List.mem_append.1 hr with hr | hr
        · exact hfits r hr
        · exact hrest r hr
      · rw [List.flatten_cons, hchunks]
      · rw [Stream'.length_take]
        exact hcovers

/-! ## Its events -/

theorem chunks_flags (hmax : 0 < maxChunck) {imageSize : ℕ} {left : Bytes}
    {events : List CameraDataEvent} (h : Chunks maxChunck imageSize left events) :
    events.length = (left.length + maxChunck - 1) / maxChunck ∧
      (events.map CameraDataEvent.data).flatten = left ∧
      ∀ i e, events[i]? = some e → (e.isLast = true ↔ i + 1 = events.length) := by
  induction h with
  | @last left hne hle =>
    have hpos : 0 < left.length := List.length_pos_iff.2 hne
    refine ⟨?_, by simp, fun i e he => ?_⟩
    · rw [List.length_singleton, eq_comm, Nat.div_eq_iff (by omega)]
      omega
    · obtain ⟨hi, rfl⟩ := List.getElem?_eq_some_iff.1 he
      simp at hi
      simp [hi]
  | @more left events hmore h ih =>
    obtain ⟨hcount, hdata, hlast⟩ := ih
    have hne : events ≠ [] := by cases h <;> simp
    have hpos : 0 < events.length := List.length_pos_iff.2 hne
    refine ⟨?_, by simp [hdata], fun i e he => ?_⟩
    · rw [List.length_cons, hcount, List.length_drop,
        ← Nat.add_div_right _ hmax]
      congr 1
      omega
    · cases i with
      | zero =>
        simp only [List.getElem?_cons_zero, Option.some.injEq] at he
        simp only [← he, List.length_cons]
        simp
        omega
      | succ i =>
        rw [List.getElem?_cons_succ] at he
        simpa using hlast i e he

theorem chunks_isFirst (hmax : 0 < maxChunck) {left : Bytes} {events : List CameraDataEvent}
    (h : Chunks maxChunck left.length left events) (i : ℕ) (e : CameraDataEvent)
    (he : events[i]? = some e) : e.isFirst = true ↔ i = 0 := by
  obtain ⟨first, rest, rfl, hfirst, -, hrest⟩ := h.head hmax
  cases i with
  | zero =>
    cases he
    simpa using hfirst
  | succ i =>
    rw [List.getElem?_cons_succ] at he
    simpa using hrest e (List.mem_of_getElem? he)

/-- A run that read its capture out: the events carry the image, in order, the first
and the last one marked, and the reads are short enough, inside their buffers, and for each
chunk follow one another to its end. -/
structure ReadOut (maxChunck : ℕ) (capture : Capture) (taken : Taken) : Prop where
  count : taken.events.length = (capture.length + maxChunck - 1) / maxChunck
  data : (taken.events.map CameraDataEvent.data).flatten = capture.bytes
  first : ∀ i e, taken.events[i]? = some e → (e.isFirst = true ↔ i = 0)
  last : ∀ i e, taken.events[i]? = some e → (e.isLast = true ↔ i + 1 = taken.events.length)
  reads : ∀ r ∈ taken.reads, r.Fits
  chunks : ChunksRead taken
  left : taken.camera.mBytesLeftInCamera = 0
  readOut : taken.notReadOut = false

theorem takeImage_refines (hmax : 0 < maxChunck) {c : Camera} (hc : c.mBytesLeftInCamera = 0)
    (h : capture.length ≤ 0x7FFFFF) :
    ∃ taken, c.takeImage maxChunck capture = some taken ∧
      Collector.takeImage maxChunck capture.bytes = some taken.events ∧
      (∀ r ∈ taken.reads, r.Fits) ∧ ChunksRead taken ∧
      taken.camera.mBytesLeftInCamera = 0 ∧ taken.notReadOut = false := by
  obtain ⟨taken, hloop, hevents, hrest⟩ :=
    takeImageLoop_spec hmax capture.length capture.length ⟨capture.length, capture.fifo⟩ le_rfl
  refine ⟨taken, ?_, ?_, hrest⟩
  · rw [Camera.takeImage, Camera.startSingleCapture, if_pos hc, readFifoLength_eq h]
    exact hloop
  · have hsize : capture.length % 8388608 = capture.length := Nat.mod_eq_of_lt (by omega)
    rw [Collector.takeImage, Capture.bytes, Stream'.length_take, hsize]
    simpa [List.take_of_length_le] using hevents

theorem takeImage_readOut (hmax : 0 < maxChunck) {c : Camera} (hc : c.mBytesLeftInCamera = 0)
    (h : capture.length ≤ 0x7FFFFF) :
    ∃ taken, c.takeImage maxChunck capture = some taken ∧ ReadOut maxChunck capture taken := by
  obtain ⟨taken, hrun, hevents, hreads, hread, hleft, hout⟩ := takeImage_refines hmax hc h
  refine ⟨taken, hrun, ?_⟩
  have hlen : capture.bytes.length = capture.length := Stream'.length_take _ _
  by_cases hnil : capture.bytes = []
  · obtain hzero : capture.length = 0 := by rw [← hlen, hnil, List.length_nil]
    have hnone : taken.events = [] := by
      rw [hnil] at hevents
      exact (Option.some.inj hevents).symm
    refine ⟨?_, by rw [hnone, hnil]; rfl, ?_, ?_, hreads, hread, hleft, hout⟩
    · rw [hnone, hzero, List.length_nil, eq_comm, Nat.div_eq_zero_iff]
      omega
    · simp [hnone]
    · simp [hnone]
  · obtain ⟨events, hevents', hchunks⟩ := Collector.takeImage_chunks hmax hnil (by omega)
    cases hevents.symm.trans hevents'
    obtain ⟨hcount, hdata, hlast⟩ := chunks_flags hmax hchunks
    exact ⟨by rw [hcount, hlen], hdata, chunks_isFirst hmax hchunks, hlast, hreads, hread, hleft,
      hout⟩

/-- A camera with nothing left to read reads any capture out, and so any captures one
after the other; no run finds the one before it not read out. -/
theorem takeImages_readOut (hmax : 1 ≤ maxChunck) {c : Camera} (hc : c.mBytesLeftInCamera = 0) :
    (∀ capture : Capture, capture.length ≤ 0x7FFFFF →
      ∃ taken, c.takeImage maxChunck capture = some taken ∧ ReadOut maxChunck capture taken) ∧
    ∀ captures : List Capture, (∀ capture ∈ captures, capture.length ≤ 0x7FFFFF) →
      ∃ runs, c.takeImages maxChunck captures = some runs ∧
        List.Forall₂ (ReadOut maxChunck) captures runs := by
  refine ⟨fun capture h => takeImage_readOut hmax hc h, fun captures h => ?_⟩
  induction captures generalizing c with
  | nil => exact ⟨[], rfl, .nil⟩
  | cons capture captures ih =>
    rw [List.forall_mem_cons] at h
    obtain ⟨taken, hrun, hread⟩ := takeImage_readOut hmax hc h.1
    obtain ⟨runs, hruns, hreads⟩ := ih hread.left h.2
    exact ⟨taken :: runs, by simp [Camera.takeImages, hrun, hruns], .cons hread hreads⟩

/-- Two images in chunks of four bytes, of ten bytes and of none. -/
theorem takeImages_readOut_two :
    (∃ taken, (⟨0, .const 0⟩ : Camera).takeImage 4 ⟨10, .const 7⟩ = some taken ∧
      ReadOut 4 ⟨10, .const 7⟩ taken) ∧
    ∃ runs, (⟨0, .const 0⟩ : Camera).takeImages 4 [⟨10, .const 7⟩, ⟨0, .const 7⟩] = some runs ∧
      List.Forall₂ (ReadOut 4) [⟨10, .const 7⟩, ⟨0, .const 7⟩] runs := by
  have h := @takeImages_readOut 4 (by decide) ⟨0, .const 0⟩ rfl
  exact ⟨h.1 _ (by decide), h.2 _ (by simp)⟩

end Heaty.Arducam
