import Heaty.Proofs.Exchange
import Heaty.Proofs.Messages
import Heaty.Proofs.UartFrames
import Heaty.Spec.Listeners

/-! The UART between the two controllers as a channel. As long as it loses no byte, no
allocation fails and what is raised can be sent, the listeners on one side get what was
raised on the other, in its order and each event once, and what is under way gets there. -/

namespace Heaty.Mcu

open Framing Utils

variable {base64 : Base64Api} {cjson : CJsonApi} {bufSize : ℕ}

/-! ## What a text carries -/

/-- What the other side learns of an event. -/
def Queued.message (q : Queued) : EventType × Bytes := (q.event.type, q.event.data)

/-- What is sent over the line: a heat map that fits the encoder, or an event without data. -/
def Wireable (message : EventType × Bytes) : Prop :=
  (message.1 = .heatMapDataReady ∧ Fits message.2.length) ∨
    ((message.1 = .button ∨ message.1 = .error) ∧ message.2 = [])

/-- The other side hands the message of a text to its listeners. -/
def Carries (base64 : Base64Api) (cjson : CJsonApi) (text : Bytes)
    (message : EventType × Bytes) : Prop :=
  ∀ env garbage, env.decodedData.isSome = true →
    ∃ h, handleMessage base64 cjson env garbage (text ++ [0]) = some h ∧
      h.event = ⟨message.1, true, message.2⟩

structure Receivable (bufSize : ℕ) (text : Bytes) : Prop where
  zero_notMem : 0 ∉ text
  ne_nil : text ≠ []
  length_lt : text.length < bufSize

/-- What `send_message` meets: no allocation fails, the text fits the buffer of the other side,
and where there are no data to encode, the block holds a plain string. -/
structure Sends (bufSize : ℕ) (base64 : Base64Api) (cjson : CJsonApi) (env : EncodeEnv)
    (event : ModuleEvent) : Prop where
  allocated : env.created = true ∧ env.printed = true ∧ env.addType = true ∧ env.addLen = true ∧
    env.addData = true
  block : ∃ held ∈ env.encodedData, event.data = [] → ∀ c ∈ cstr held, Json.isPlain c = true
  fits : ∀ text ∈ encodeMessage base64 cjson env event.type.number event.data,
    text.length < bufSize

instance (env : EncodeEnv) (event : ModuleEvent) :
    Decidable (Sends bufSize base64 cjson env event) :=
  decidable_of_iff
    ((env.created = true ∧ env.printed = true ∧ env.addType = true ∧ env.addLen = true ∧
        env.addData = true) ∧
      (∃ held ∈ env.encodedData, event.data = [] → (cstr held).all Json.isPlain = true) ∧
      ∀ text ∈ encodeMessage base64 cjson env event.type.number event.data, text.length < bufSize)
    ⟨fun h => ⟨h.1, by simpa only [List.all_eq_true] using h.2.1, h.2.2⟩,
      fun h => ⟨h.allocated, by simpa only [List.all_eq_true] using h.block, h.fits⟩⟩

theorem isInt_number (type : EventType) : IsInt type.number := by
  cases type <;> decide

theorem members_print (hcjson : cjson.Documented) {env : EncodeEnv} {type : ℤ} {len : ℕ}
    {mem : Bytes} (hall : env.addType = true ∧ env.addLen = true ∧ env.addData = true)
    (hplain : PlainMembers (encodeMembers env type len (some mem))) :
    Members cjson (cjson.print (encodeMembers env type len (some mem))) (.num type) (.num len)
      (cstr mem) := by
  obtain ⟨htype, hlen, hdata⟩ := find_members env type len (some mem)
  simp only [hall.1, hall.2.1, hall.2.2, if_true, Option.map_some] at htype hlen hdata
  refine ⟨?_, ?_, .str (cstr mem), ?_, hcjson.valuestring_str _⟩
  · rw [item_print hcjson hplain, htype]
    rfl
  · rw [item_print hcjson hplain, hlen]
    simp [Json.Scalar.toJson]
  · rw [item_print hcjson hplain, hdata]
    rfl

theorem dispatch_heatMap (hbase64 : base64.Documented) (hcjson : cjson.Documented)
    {env : ParseEnv} (henv : env.decodedData.isSome = true) {data : Bytes}
    (hfits : Fits data.length) (garbage : Bytes) :
    ∃ h, dispatch garbage (parsedOf base64 cjson env (.num EventType.heatMapDataReady.number)
        (.num data.length) (Base64.encode data)) = some h ∧
      h.event = ⟨.heatMapDataReady, true, data⟩ := by
  obtain ⟨mem, hmem⟩ := Option.isSome_iff_exists.1 henv
  have hwritten := decodeInto_encode hbase64 hfits mem
  rw [← hmem] at hwritten
  have hfull : data.length ≤
      (decodeInto base64 env.decodedData (Base64.encode data)).length := by rw [hwritten]
  obtain ⟨-, hlen, hcopy⟩ := parsed_heatMap hbase64 hcjson
    (.num EventType.heatMapDataReady.number) (hbase64.decode_encode data.length data le_rfl) hfull
  have htype := hcjson.valueint_num _ (isInt_number .heatMapDataReady)
  obtain ⟨h, hh⟩ := (dispatch_isSome_iff garbage
    (p := parsedOf base64 cjson env (.num EventType.heatMapDataReady.number)
      (.num data.length) (Base64.encode data))).2 fun _ hnull => by
        simp [parsedOf, hmem] at hnull
  refine ⟨h, hh, ?_⟩
  obtain ⟨-, hrec, hcases⟩ := dispatch_spec hh
  have hnumber : (parsedOf base64 cjson env (.num EventType.heatMapDataReady.number)
      (.num data.length) (Base64.encode data)).type = 2 := htype
  rcases hcases with ⟨-, he, -, hdata⟩ | ⟨h3, -⟩ | ⟨h1, -⟩ | ⟨-, h2, -⟩
  · rw [hlen, hcopy] at hdata
    cases heq : h.event
    simp_all
  · exact absurd (hnumber.symm.trans h3) (by decide)
  · exact absurd (hnumber.symm.trans h1) (by decide)
  · exact absurd hnumber h2

theorem dispatch_empty (hcjson : cjson.Documented) (env : ParseEnv) {type : EventType}
    (htype : type = .button ∨ type = .error) (data garbage : Bytes) :
    ∃ h, dispatch garbage (parsedOf base64 cjson env (.num type.number) (.num (0 : ℕ)) data) =
        some h ∧ h.event = ⟨type, true, []⟩ := by
  have hlen : (cjson.valueint (.num ((0 : ℕ) : ℚ)) % 65536).toNat = 0 := by
    have hzero := hcjson.valueint_num 0 (by decide)
    rw [Int.cast_zero] at hzero
    rw [Nat.cast_zero, hzero]
    rfl
  have hnumber := hcjson.valueint_num _ (isInt_number type)
  rcases htype with rfl | rfl
  all_goals
    simp only [dispatch, parsedOf, hlen, hnumber]
    exact ⟨_, rfl, by simp⟩

/-- The C string that the message is made from: the encoded data, or what the block held. -/
theorem cstr_block (data held : Bytes) :
    (Fits data.length →
      cstr (overwrite (if Fits data.length then Base64.encode data ++ [0] else []) held) =
        Base64.encode data) ∧
      (data = [] →
        cstr (overwrite (if Fits data.length then Base64.encode data ++ [0] else []) held) =
          cstr held) := by
  constructor
  · intro hfits
    rw [if_pos hfits, cstr_encoded]
  · rintro rfl
    rw [if_neg (by simp [Fits]), overwrite_nil_left]

theorem Sends.carries (hbase64 : base64.Documented) (hcjson : cjson.Documented)
    (hprint : cjson.PrintsText) {env : EncodeEnv} {event : ModuleEvent}
    (h : Sends bufSize base64 cjson env event) (hwire : Wireable (event.type, event.data)) :
    ∃ text, encodeMessage base64 cjson env event.type.number event.data = some text ∧
      Receivable bufSize text ∧ Carries base64 cjson text (event.type, event.data) := by
  obtain ⟨hcreated, hprinted, hall⟩ := h.allocated
  obtain ⟨held, hheld, hplain⟩ := h.block
  have hlen : event.data.length < 65536 := by
    rcases hwire with ⟨-, -, -, hlt⟩ | ⟨-, hnil⟩
    · exact hlt.trans (by decide)
    · simp [show event.data = [] from hnil]
  obtain ⟨hfull, hempty⟩ := cstr_block event.data held
  set block := overwrite
    (if Fits event.data.length then Base64.encode event.data ++ [0] else []) held with hblock
  have hmembers : PlainMembers
      (encodeMembers env event.type.number event.data.length (some block)) := by
    refine plain_encodeMembers (isInt_number _) hlen ?_
    rintro _ ⟨⟩
    rcases hwire with ⟨-, hfits⟩ | ⟨-, hnil⟩
    · rw [hfull hfits]
      exact isPlain_encode event.data
    · rw [hempty hnil]
      exact hplain hnil
  have htext : encodeMessage base64 cjson env event.type.number event.data = some
      (cjson.print (encodeMembers env event.type.number event.data.length (some block))) := by
    rw [encodeMessage_eq hbase64 hlen, if_pos ⟨hcreated, hprinted⟩, Option.mem_def.1 hheld,
      Option.map_some]
  have hzero := hprint.zero_notMem _ hmembers
  refine ⟨_, htext, ⟨hzero, hprint.ne_nil _, h.fits _ htext⟩, fun penv garbage henv => ?_⟩
  have hnull : ¬ (penv.logInf = true ∧ penv.decodedData = none) := fun hnull => by
    simp [hnull.2] at henv
  have hparse : parseMessage base64 cjson penv _ = some _ :=
    parseMessage_of_members (members_print hcjson hall hmembers) hnull
  rw [handleMessage, cstr_append_zero hzero, hparse, Option.bind_some]
  rcases hwire with ⟨htype, hfits⟩ | ⟨htype, hnil⟩
  · rw [hfull hfits, show event.type = .heatMapDataReady from htype]
    exact dispatch_heatMap hbase64 hcjson henv hfits garbage
  · rw [show event.data = [] from hnil]
    exact dispatch_empty hcjson penv htype _ garbage

/-! ## One step of a module -/

/-- The frames that a module got from the line: those it handled, and those that wait. -/
def Node.rawFrames (n : Node) : List Bytes :=
  (n.handled ++ n.queue.filter fun q => q.event.type = .dataReady).map fun q => q.event.data

inductive Handles (base64 : Base64Api) (cjson : CJsonApi) (env : ThreadEnv) (n : Node) (q : Queued)
    (rest : List Queued) : Node × Bytes → Option Queued → Prop
  /-- an event that is not for the line, or that could not be encoded -/
  | drop : q.event.type ≠ .dataReady →
      (q.event.type.isWire = true → q.event.received = false →
        encodeMessage base64 cjson env.encode q.event.type.number q.event.data = none) →
      Handles base64 cjson env n q rest ({ n with queue := rest }, []) none
  | send (text : Bytes) : q.event.type.isWire = true → q.event.received = false →
      encodeMessage base64 cjson env.encode q.event.type.number q.event.data = some text →
      Handles base64 cjson env n q rest
        ({ n with
            queue := rest
            sent := n.sent ++ [(q, text)]
            output := n.output ++ (text ++ [0]) }, text ++ [0]) none
  | frame (h : Handled) : q.event.type = .dataReady →
      handleMessage base64 cjson env.parse env.garbage q.event.data = some h →
      Handles base64 cjson env n q rest
        (({ n with queue := rest, handled := n.handled ++ [q] } : Node).submit
          ⟨h.event, .handleMessage⟩, []) (some ⟨h.event, .handleMessage⟩)
  | halt : q.event.type = .dataReady →
      handleMessage base64 cjson env.parse env.garbage q.event.data = none →
      Handles base64 cjson env n q rest
        ({ n with queue := rest, handled := n.handled ++ [q], halted := true }, []) none

theorem handleMsg_handles {env : ThreadEnv} {n : Node} {r : Node × Bytes}
    (hs : n.handleMsg base64 cjson env = some r) :
    n.halted = false ∧ ∃ q rest, n.queue = q :: rest ∧
      Handles base64 cjson env n q rest r (n.submitted base64 cjson env) := by
  cases hqueue : n.queue with
  | nil => simp [Node.handleMsg, hqueue] at hs
  | cons q rest =>
    have hhalted : n.halted = false := by
      by_contra hne
      simp [Node.handleMsg, hne] at hs
    refine ⟨hhalted, q, rest, rfl, ?_⟩
    simp only [Node.handleMsg, hqueue, hhalted, Bool.false_eq_true, if_false] at hs
    simp only [Node.submitted, hqueue]
    split_ifs at hs ⊢ with hwire hready
    · have hne : q.event.type ≠ .dataReady := fun h => by simp [h, EventType.isWire] at hwire
      cases hreceived : q.event.received with
      | true =>
        simp only [Node.sendMessage, hreceived, if_true, Option.some.injEq] at hs
        subst hs
        rw [← hhalted]
        exact .drop hne fun _ h => by simp [hreceived] at h
      | false =>
        simp only [Node.sendMessage, hreceived, Bool.false_eq_true, if_false] at hs
        cases htext : encodeMessage base64 cjson env.encode q.event.type.number q.event.data with
        | none =>
          simp only [htext, Option.some.injEq] at hs
          subst hs
          rw [← hhalted]
          exact .drop hne fun _ _ => htext
        | some text =>
          simp only [htext, Option.some.injEq] at hs
          subst hs
          rw [← hhalted]
          exact .send text hwire hreceived htext
    · cases hh : handleMessage base64 cjson env.parse env.garbage q.event.data with
      | none =>
        simp only [hh, Option.some.injEq] at hs
        subst hs
        exact .halt hready hh
      | some h =>
        simp only [hh, Option.some.injEq] at hs
        subst hs
        rw [← hhalted]
        exact .frame h hready hh
    · cases hs
      rw [← hhalted]
      exact .drop hready fun h => absurd h hwire

/-! ## The line -/

/-- A direction of the line: what arrived and what is under way was written, and the receiver
holds what arrived, cut into frames. -/
structure Link (bufSize : ℕ) (sender : Node) (line : Bytes) (receiver : Node) (arrived : Bytes) :
    Prop where
  stream : arrived ++ line = sender.output
  rx : Holds bufSize receiver.rx (pending 0 [] arrived)
  frames : receiver.rawFrames = (frames 0 [] arrived).map (· ++ [0])

def SentOk (bufSize : ℕ) (base64 : Base64Api) (cjson : CJsonApi) (n : Node) : Prop :=
  ∀ x ∈ n.sent, Receivable bufSize x.2 ∧ Carries base64 cjson x.2 x.1.message ∧
    Wireable x.1.message

section Line

variable {sender receiver : Node} {line arrived : Bytes}

theorem Link.of_sender (h : Link bufSize sender line receiver arrived) {sender' : Node}
    {line' : Bytes} (bytes : Bytes) (hline : line' = line ++ bytes)
    (houtput : sender'.output = sender.output ++ bytes) :
    Link bufSize sender' line' receiver arrived :=
  ⟨by rw [hline, houtput, ← h.stream, List.append_assoc], h.rx, h.frames⟩

theorem Link.of_receiver (h : Link bufSize sender line receiver arrived) {receiver' : Node}
    (hrx : receiver'.rx = receiver.rx) (hframes : receiver'.rawFrames = receiver.rawFrames) :
    Link bufSize sender line receiver' arrived :=
  ⟨h.stream, hrx ▸ h.rx, hframes.trans h.frames⟩

theorem arrived_frames (hstream : arrived ++ line = sender.output)
    (hnode : NodeOk base64 cjson sender) (hsent : SentOk bufSize base64 cjson sender) :
    Framing.frames 0 [] arrived <+: sender.sent.map Prod.snd := by
  have hframes : Framing.frames 0 [] sender.output = sender.sent.map Prod.snd := by
    rw [hnode.output, ← List.flatMap_map Prod.snd (· ++ [0])]
    refine frames_flatMap fun f hf => ?_
    obtain ⟨x, hx, rfl⟩ := List.mem_map.1 hf
    exact (hsent x hx).1.zero_notMem
  rw [← hframes]
  exact Framing.frames_prefix ⟨line, hstream⟩

theorem Link.next (h : Link bufSize sender line receiver arrived)
    (hnode : NodeOk base64 cjson sender) (hsent : SentOk bufSize base64 cjson sender)
    {q : Queued} {rest : List Queued} (hqueue : receiver.queue = q :: rest)
    (hready : q.event.type = .dataReady) :
    ∃ x, sender.sent[receiver.handled.length]? = some x ∧ q.event.data = x.2 ++ [0] := by
  have hraw : receiver.rawFrames[receiver.handled.length]? = some q.event.data := by
    simp [Node.rawFrames, hqueue, hready]
  rw [h.frames, List.getElem?_map, Option.map_eq_some_iff] at hraw
  obtain ⟨f, hf, hdata⟩ := hraw
  obtain ⟨more, hmore⟩ := arrived_frames h.stream hnode hsent
  have hlt : receiver.handled.length < (Framing.frames 0 [] arrived).length :=
    (List.getElem?_eq_some_iff.1 hf).1
  have htext : (sender.sent.map Prod.snd)[receiver.handled.length]? = some f := by
    rw [← hmore, List.getElem?_append_left hlt, hf]
  rw [List.getElem?_map, Option.map_eq_some_iff] at htext
  obtain ⟨x, hx, rfl⟩ := htext
  exact ⟨x, hx, hdata.symm⟩

theorem Link.handled_le (h : Link bufSize sender line receiver arrived)
    (hnode : NodeOk base64 cjson sender) (hsent : SentOk bufSize base64 cjson sender) :
    receiver.handled.length ≤ sender.sent.length := by
  have hle := (arrived_frames h.stream hnode hsent).length_le
  have hraw := congrArg List.length h.frames
  simp only [Node.rawFrames, List.length_map, List.length_append] at hraw hle
  omega

/-- A byte arrives. One that ends a frame ends a text that was sent, and is reported. -/
theorem Link.arrive {c : UInt8} (h : Link bufSize sender (c :: line) receiver arrived)
    (hnode : NodeOk base64 cjson sender) (hsent : SentOk bufSize base64 cjson sender)
    (hsize : 0 < bufSize) (garbage : Bool) :
    Link bufSize sender line (receiver.receive garbage c) (arrived ++ [c]) ∧
      receiver.completed garbage c =
        if c = 0 then some ⟨⟨.dataReady, garbage, pending 0 [] arrived ++ [0]⟩, .uartRxHandler⟩
        else none := by
  have hstream : arrived ++ [c] ++ line = sender.output := by
    rw [List.append_assoc, List.singleton_append, h.stream]
  by_cases hc : c = 0
  · subst hc
    obtain ⟨hevent, hholds⟩ := h.rx.terminator hsize garbage
    -- the frame that ends here is one of the texts
    have hmem : pending 0 [] arrived ∈ Framing.frames 0 [] (arrived ++ [0]) := by
      simp [frames_append, Framing.frames]
    have htext := (arrived_frames hstream hnode hsent).subset hmem
    obtain ⟨x, hx, hpending⟩ := List.mem_map.1 htext
    have hfits := (hsent x hx).1
    rw [hpending] at hfits
    have hdvd : ¬ bufSize ∣ (pending 0 [] arrived).length :=
      Nat.not_dvd_of_pos_of_lt (List.length_pos_iff.2 hfits.ne_nil) hfits.length_lt
    rw [if_neg hdvd, kept_of_lt hfits.length_lt] at hevent
    refine ⟨⟨hstream, ?_, ?_⟩, by simp [Node.completed, hevent]⟩
    · simpa [Node.receive, hevent, Node.submit, pending_append, Framing.pending] using hholds
    · have hframes := h.frames
      simp only [Node.rawFrames, List.map_append] at hframes ⊢
      simp [Node.receive, hevent, Node.submit, frames_append, Framing.frames, ← hframes]
  · obtain ⟨hevent, hholds⟩ := h.rx.char hsize hc garbage
    refine ⟨⟨hstream, ?_, ?_⟩, by simp [Node.completed, hevent, hc]⟩
    · simpa [Node.receive, hevent, pending_append, Framing.pending, hc] using hholds
    · have hframes := h.frames
      simpa [Node.receive, hevent, Node.rawFrames, frames_append, Framing.frames, hc] using hframes

end Line

/-! ## Runs -/

/-- The messages of the other side that the listeners got. -/
def Listened.received (s : Listened) (n : Bool) : List (EventType × Bytes) :=
  ((s.inbox n).filter fun q => q.origin = .handleMessage).map Queued.message

/-- Who leaves `received` unassigned finds it clear, a heat map fits the encoder, and the shell's
test is not run. -/
def Producer.Reliable (p : Producer) (garbage : Bool) : Prop :=
  match p with
  | .handleButtonEvent | .handleSensorEvent => garbage = false
  | .sendToNrf9160 data => Fits data.length
  | .testHeatMapData _ => False
  | .commCtrlError | .mockError | .initReady | .initError => True

instance (p : Producer) (garbage : Bool) : Decidable (p.Reliable garbage) :=
  match p with
  | .handleButtonEvent | .handleSensorEvent => inferInstanceAs (Decidable (garbage = false))
  | .sendToNrf9160 data => inferInstanceAs (Decidable (Fits data.length))
  | .testHeatMapData _ => inferInstanceAs (Decidable False)
  | .commCtrlError | .mockError | .initReady | .initError => inferInstanceAs (Decidable True)

/-- With memory, the text of an event is shorter than the receive buffer of the other side. -/
abbrev Sendable (bufSize : ℕ) (base64 : Base64Api) (cjson : CJsonApi) (event : ModuleEvent) :
    Prop := Sends bufSize base64 cjson (goodEnv [0]) event

/-- The line neither loses nor adds a byte, what is raised can be sent, and no allocation
fails. -/
def LinkOk (bufSize : ℕ) (base64 : Base64Api) (cjson : CJsonApi) (s : Listened) :
    ExchangeEvent → Prop
  | .raise _ p garbage => p.Reliable garbage ∧
      ∀ event ∈ p.event garbage, event.type.isWire = true → Sendable bufSize base64 cjson event
  | .thread n env => env.parse.decodedData.isSome = true ∧
      ∀ q ∈ (s.exchange.node n).queue.head?, q.event.type.isWire = true →
        q.event.received = false → Sends bufSize base64 cjson env.encode q.event
  | .arrive _ _ => True
  | .noise _ _ _ => False
  | .lose _ => False

instance (s : Listened) (e : ExchangeEvent) : Decidable (LinkOk bufSize base64 cjson s e) :=
  match e with
  | .raise _ _ _ => inferInstanceAs (Decidable (_ ∧ ∀ event ∈ _, _))
  | .thread n _ => inferInstanceAs (Decidable (_ ∧ ∀ q ∈ (s.exchange.node n).queue.head?, _))
  | .arrive _ _ => inferInstanceAs (Decidable True)
  | .noise _ _ _ | .lose _ => inferInstanceAs (Decidable False)

structure Postable (bufSize : ℕ) (base64 : Base64Api) (cjson : CJsonApi) (q : Queued) : Prop where
  wireable : Wireable q.message
  sendable : Sendable bufSize base64 cjson q.event

/-- The listeners of a module have got one message for each frame that it handled. -/
structure LinkInv (bufSize : ℕ) (base64 : Base64Api) (cjson : CJsonApi) (s : Listened) : Prop where
  nodes : ∀ n, NodeInv base64 cjson (s.exchange.node n)
  postable : ∀ n, ∀ q ∈ (s.exchange.node n).queue, q.isLocalWire = true →
    Postable bufSize base64 cjson q
  sent : ∀ n, SentOk bufSize base64 cjson (s.exchange.node n)
  link : ∀ n, ∃ arrived,
    Link bufSize (s.exchange.node n) (s.exchange.line n) (s.exchange.node !n) arrived
  received : ∀ n, s.received n =
    ((s.exchange.node !n).sent.take (s.exchange.node n).handled.length).map fun x => x.1.message

theorem LinkInv.start : LinkInv bufSize base64 cjson (listened bufSize base64 cjson).init where
  nodes _ := .start bufSize
  postable _ _ h := absurd h List.not_mem_nil
  sent _ _ h := absurd h List.not_mem_nil
  link _ := ⟨[], rfl, Holds.start, rfl⟩
  received _ := rfl

theorem forall_side {P : Bool → Prop} (n : Bool) (h : P n) (h' : P !n) : ∀ m, P m := by
  intro m
  by_cases hm : m = n
  · rwa [hm]
  · rwa [Bool.eq_not_of_ne hm]

@[simp] theorem setNode_node_self (s : Exchange) (n : Bool) (node : Node) :
    (s.setNode n node).node n = node := Function.update_self ..

@[simp] theorem setNode_node_not (s : Exchange) (n : Bool) (node : Node) :
    (s.setNode n node).node (!n) = s.node !n := Function.update_of_ne (Bool.not_ne_self n) ..

@[simp] theorem setNode_line (s : Exchange) (n : Bool) (node : Node) :
    (s.setNode n node).line = s.line := rfl

@[simp] theorem received_inbox (s : Listened) (exchange : Exchange) (n : Bool) :
    (⟨exchange, s.inbox⟩ : Listened).received n = s.received n := rfl

theorem received_hear (s : Listened) (exchange : Exchange) (n : Bool) (q : Queued) :
    (⟨exchange, hear s.inbox (some (n, q))⟩ : Listened).received n =
        s.received n ++ (if q.origin = .handleMessage then [q.message] else []) ∧
      (⟨exchange, hear s.inbox (some (n, q))⟩ : Listened).received (!n) = s.received !n := by
  constructor
  · simp only [Listened.received, hear, Function.update_self, List.filter_append, List.map_append]
    split_ifs with h
    · simp [h]
    · simp [h]
  · simp [Listened.received, hear]

/-- A step of one side, which may write to the line and tell its own listeners. -/
theorem LinkInv.of_step {s : Listened} (h : LinkInv bufSize base64 cjson s) {n : Bool}
    {exchange : Exchange} {inbox : Bool → List Queued}
    (hother : exchange.node (!n) = s.exchange.node !n)
    (hnode : NodeInv base64 cjson (exchange.node n))
    (hpostable : ∀ q ∈ (exchange.node n).queue, q.isLocalWire = true →
      Postable bufSize base64 cjson q)
    (hsent : SentOk bufSize base64 cjson (exchange.node n))
    (hwrite : ∃ arrived,
      Link bufSize (exchange.node n) (exchange.line n) (exchange.node !n) arrived)
    (hread : ∃ arrived,
      Link bufSize (exchange.node !n) (exchange.line !n) (exchange.node n) arrived)
    (hreceived : (⟨exchange, inbox⟩ : Listened).received n =
      ((exchange.node !n).sent.take (exchange.node n).handled.length).map fun x => x.1.message)
    (htold : (⟨exchange, inbox⟩ : Listened).received (!n) = s.received !n)
    (hgrow : (s.exchange.node n).sent <+: (exchange.node n).sent) :
    LinkInv bufSize base64 cjson ⟨exchange, inbox⟩ where
  nodes := forall_side n hnode (hother ▸ h.nodes !n)
  postable := forall_side n hpostable (hother ▸ h.postable !n)
  sent := forall_side n hsent (hother ▸ h.sent !n)
  link := forall_side n hwrite (by rwa [Bool.not_not])
  received := by
    refine forall_side n hreceived ?_
    obtain ⟨arrived, hlink⟩ := h.link n
    have hle := hlink.handled_le (h.nodes n).toNodeOk (h.sent n)
    obtain ⟨more, hmore⟩ := hgrow
    rw [htold, h.received, Bool.not_not, hother, ← hmore, List.take_append_of_le_length hle]

/-! ### An event is raised -/

theorem Producer.Reliable.flag {p : Producer} {garbage : Bool} (h : p.Reliable garbage) :
    p = .handleButtonEvent ∨ p = .handleSensorEvent → garbage = false := by
  rintro (rfl | rfl)
  · exact h
  · exact h

theorem Producer.Reliable.wireable {p : Producer} {garbage : Bool} {event : ModuleEvent}
    (h : p.Reliable garbage) (he : p.event garbage = some event) :
    event.type ≠ .dataReady ∧ (event.type.isWire = true → Wireable (event.type, event.data)) := by
  cases p with
  | sendToNrf9160 data =>
    simp only [Producer.event] at he
    split_ifs at he
    cases he
    exact ⟨by simp [newEvent], fun _ => Or.inl ⟨rfl, h⟩⟩
  | testHeatMapData mock => exact h.elim
  | initReady =>
    cases he
    exact ⟨by simp [newEvent], fun h => by cases h⟩
  | handleButtonEvent | handleSensorEvent =>
    cases he
    exact ⟨by simp [newEvent], fun _ => Or.inr ⟨Or.inl rfl, rfl⟩⟩
  | commCtrlError | mockError | initError =>
    cases he
    exact ⟨by simp [newEvent], fun _ => Or.inr ⟨Or.inr rfl, rfl⟩⟩

theorem rawFrames_submit (n : Node) {q : Queued} (hq : q.event.type ≠ .dataReady) :
    (n.submit q).rawFrames = n.rawFrames := by
  simp [Node.rawFrames, Node.submit, hq]

theorem LinkInv.raise {s : Listened} (h : LinkInv bufSize base64 cjson s) {n : Bool} {p : Producer}
    {garbage : Bool} (hok : LinkOk bufSize base64 cjson s (.raise n p garbage))
    {event : ModuleEvent} (he : p.event garbage = some event) :
    LinkInv bufSize base64 cjson
      ⟨s.exchange.setNode n ((s.exchange.node n).submit ⟨event, .producer p⟩),
        hear s.inbox (some (n, ⟨event, .producer p⟩))⟩ := by
  obtain ⟨hreliable, hsendable⟩ := hok
  obtain ⟨hready, hwire⟩ := hreliable.wireable he
  obtain ⟨hself, hnot⟩ := received_hear s
    (s.exchange.setNode n ((s.exchange.node n).submit ⟨event, .producer p⟩)) n ⟨event, .producer p⟩
  obtain ⟨arrived, hwrite⟩ := h.link n
  obtain ⟨arrived', hread⟩ := h.link !n
  rw [Bool.not_not] at hread
  refine h.of_step (n := n) (setNode_node_not ..) ?_ ?_ ?_ ⟨arrived, ?_⟩ ⟨arrived', ?_⟩ ?_ hnot ?_
  · rw [setNode_node_self]
    exact (h.nodes n).submit (event_queuedOk hreliable.flag he)
  · rw [setNode_node_self]
    intro q hq hlocal
    rcases List.mem_append.1 hq with hq | hq
    · exact h.postable n q hq hlocal
    · rw [List.mem_singleton.1 hq] at hlocal ⊢
      exact ⟨hwire hlocal, hsendable event he hlocal⟩
  · rw [setNode_node_self]
    exact h.sent n
  · rw [setNode_node_self, setNode_node_not]
    exact hwrite.of_sender _ (List.append_nil _).symm (List.append_nil _).symm
  · rw [setNode_node_self, setNode_node_not]
    exact hread.of_receiver rfl (rawFrames_submit _ hready)
  · rw [hself, setNode_node_self, setNode_node_not, h.received]
    simp [Node.submit]
  · rw [setNode_node_self]
    exact List.prefix_rfl

/-! ### A byte arrives -/

structure Keeps (n n' : Node) : Prop where
  raised : n'.raised = n.raised
  sent : n'.sent = n.sent
  handled : n'.handled = n.handled
  output : n'.output = n.output

theorem receive_keeps (n : Node) (garbage : Bool) (c : UInt8) :
    Keeps n (n.receive garbage c) ∧
      (n.receive garbage c).queue = n.queue ++ (n.completed garbage c).toList := by
  have hlocal (event : ModuleEvent) : Queued.isLocalWire ⟨event, .uartRxHandler⟩ = false := rfl
  cases hr : (uartRxHandler n.rx garbage c).2 with
  | none =>
    exact ⟨by constructor <;> simp [Node.receive, hr], by simp [Node.receive, Node.completed, hr]⟩
  | some event =>
    exact ⟨by constructor <;> simp [Node.receive, hr, Node.submit, hlocal],
      by simp [Node.receive, Node.completed, hr, Node.submit]⟩

theorem LinkInv.arrive {s : Listened} (h : LinkInv bufSize base64 cjson s) (hsize : 0 < bufSize)
    {n : Bool} (garbage : Bool) {c : UInt8} {rest : Bytes}
    (hline : (s.exchange.line !n) = c :: rest) :
    LinkInv bufSize base64 cjson
      ⟨{ s.exchange.setNode n ((s.exchange.node n).receive garbage c) with
          line := Function.update s.exchange.line (!n) rest },
        hear s.inbox (((s.exchange.node n).completed garbage c).map fun q => (n, q))⟩ := by
  obtain ⟨hkeeps, hqueue⟩ := receive_keeps (s.exchange.node n) garbage c
  obtain ⟨arrived, hwrite⟩ := h.link n
  obtain ⟨arrived', hread⟩ := h.link !n
  rw [Bool.not_not, hline] at hread
  obtain ⟨hlink, hcompleted⟩ := hread.arrive (h.nodes !n).toNodeOk (h.sent !n) hsize garbage
  -- no frame is a message yet
  have hself : ∀ q, (s.exchange.node n).completed garbage c = some q →
      q.origin = .uartRxHandler := by
    intro q hq
    rw [hcompleted] at hq
    split_ifs at hq
    cases hq
    rfl
  have htold : ∀ exchange m, (⟨exchange, hear s.inbox
      (((s.exchange.node n).completed garbage c).map fun q => (n, q))⟩ : Listened).received m =
        s.received m := by
    intro exchange
    cases hq : (s.exchange.node n).completed garbage c with
    | none => exact fun _ => rfl
    | some q =>
      obtain ⟨hhear, hother⟩ := received_hear s exchange n q
      refine forall_side n ?_ hother
      rw [Option.map_some, hhear, hself q hq, if_neg (by decide), List.append_nil]
  refine h.of_step (n := n) (setNode_node_not ..) ?_ ?_ ?_ ⟨arrived, ?_⟩ ⟨arrived' ++ [c], ?_⟩ ?_
    (htold _ _) ?_
  · exact (setNode_node_self s.exchange n _).symm ▸ (h.nodes n).receive garbage c
  · intro q hq hlocal
    simp only [setNode_node_self, hqueue] at hq
    rcases List.mem_append.1 hq with hq | hq
    · exact h.postable n q hq hlocal
    · rw [Queued.isLocalWire, hself q (by simpa using hq)] at hlocal
      cases hlocal
  · rw [SentOk, setNode_node_self, hkeeps.sent]
    exact h.sent n
  · simp only [setNode_node_self, setNode_node_not]
    refine hwrite.of_sender [] ?_ ?_
    · simp
    · rw [hkeeps.output, List.append_nil]
  · simpa using hlink
  · rw [htold, h.received]
    simp [hkeeps.handled]
  · simp [hkeeps.sent]

/-! ### A module's thread runs -/

/-- The next frame is a message that was sent, and it is handled as one. -/
theorem LinkInv.frame {s : Listened} (h : LinkInv bufSize base64 cjson s) {n : Bool} {q : Queued}
    {rest : List Queued} (hqueue : (s.exchange.node n).queue = q :: rest)
    (hready : q.event.type = .dataReady) {env : ParseEnv} (henv : env.decodedData.isSome = true)
    (garbage : Bytes) :
    ∃ x r, (s.exchange.node !n).sent[(s.exchange.node n).handled.length]? = some x ∧
      Wireable x.1.message ∧
      handleMessage base64 cjson env garbage q.event.data = some r ∧
      r.event = ⟨x.1.event.type, true, x.1.event.data⟩ := by
  obtain ⟨arrived, hlink⟩ := h.link !n
  rw [Bool.not_not] at hlink
  obtain ⟨x, hx, hdata⟩ := hlink.next (h.nodes !n).toNodeOk (h.sent !n) hqueue hready
  obtain ⟨-, hcarries, hwire⟩ := h.sent (!n) x (List.mem_of_getElem? hx)
  obtain ⟨r, hr, hevent⟩ := hcarries env garbage henv
  exact ⟨x, r, hx, hwire, hdata ▸ hr, hevent⟩

theorem Wireable.ne_dataReady {message : EventType × Bytes} (h : Wireable message) :
    message.1 ≠ .dataReady := by
  intro ht
  rcases h with ⟨h, -⟩ | ⟨h | h, -⟩
  all_goals
    rw [ht] at h
    cases h

theorem LinkInv.sends {s : Listened} (h : LinkInv bufSize base64 cjson s)
    (hbase64 : base64.Documented) (hcjson : cjson.Documented) (hprint : cjson.PrintsText)
    {n : Bool} {env : ThreadEnv} (hok : LinkOk bufSize base64 cjson s (.thread n env)) {q : Queued}
    {rest : List Queued} (hqueue : (s.exchange.node n).queue = q :: rest)
    (hwire : q.event.type.isWire = true) (hreceived : q.event.received = false) :
    Wireable q.message ∧ ∃ text,
      encodeMessage base64 cjson env.encode q.event.type.number q.event.data = some text ∧
        Receivable bufSize text ∧ Carries base64 cjson text q.message := by
  have hmem : q ∈ (s.exchange.node n).queue := hqueue ▸ List.mem_cons_self
  have hlocal := ((h.nodes n).queued q hmem).isLocalWire hwire
  rw [hreceived] at hlocal
  have hwireable := (h.postable n q hmem hlocal).wireable
  have hhead : q ∈ (s.exchange.node n).queue.head? := by
    rw [hqueue]
    exact Option.mem_some_self q
  exact ⟨hwireable, (hok.2 q hhead hwire hreceived).carries hbase64 hcjson hprint hwireable⟩

theorem LinkInv.threadOk {s : Listened} (h : LinkInv bufSize base64 cjson s)
    (hbase64 : base64.Documented) (hcjson : cjson.Documented) (hprint : cjson.PrintsText)
    {n : Bool} {env : ThreadEnv} (hok : LinkOk bufSize base64 cjson s (.thread n env)) :
    ThreadOk base64 cjson env (s.exchange.node n) := by
  intro q hq
  obtain ⟨rest, hqueue⟩ := List.head?_eq_some_iff.1 hq
  refine ⟨fun hwire hreceived => ?_, fun hready => ?_⟩
  · obtain ⟨-, text, htext, -⟩ := h.sends hbase64 hcjson hprint hok hqueue hwire hreceived
    simp [htext]
  · obtain ⟨x, r, -, hwireable, hr, hevent⟩ := h.frame hqueue hready hok.1 env.garbage
    obtain ⟨p, hp, hd⟩ := Option.bind_eq_some_iff.1 hr
    refine ⟨p, hp, fun htype => ?_, (dispatch_isSome_iff env.garbage).1 ⟨r, hd⟩⟩
    obtain ⟨-, -, hcases⟩ := dispatch_spec hd
    have hone : p.type = 1 := htype
    rcases hcases with ⟨h2, -⟩ | ⟨h3, -⟩ | ⟨-, he, -⟩ | ⟨h1, -⟩
    · omega
    · omega
    · rw [hevent] at he
      exact hwireable.ne_dataReady he
    · exact h1 hone

theorem LinkInv.thread {s : Listened} (h : LinkInv bufSize base64 cjson s)
    (hbase64 : base64.Documented) (hcjson : cjson.Documented) (hprint : cjson.PrintsText)
    {n : Bool} {env : ThreadEnv} (hok : LinkOk bufSize base64 cjson s (.thread n env))
    {r : Node × Bytes} (hr : (s.exchange.node n).handleMsg base64 cjson env = some r) :
    LinkInv bufSize base64 cjson
      ⟨{ s.exchange.setNode n r.1 with
          line := Function.update s.exchange.line n (s.exchange.line n ++ r.2) },
        hear s.inbox (((s.exchange.node n).submitted base64 cjson env).map fun q => (n, q))⟩ := by
  have hnode := (h.nodes n).handleMsg (h.threadOk hbase64 hcjson hprint hok) hr
  obtain ⟨-, q, rest, hqueue, hhandles⟩ := handleMsg_handles hr
  obtain ⟨arrived, hwrite⟩ := h.link n
  obtain ⟨arrived', hread⟩ := h.link !n
  rw [Bool.not_not] at hread
  have hrest : ∀ q' ∈ rest, q' ∈ (s.exchange.node n).queue := fun q' hq' =>
    hqueue ▸ List.mem_cons_of_mem _ hq'
  have hpop : q.event.type ≠ .dataReady →
      (s.exchange.node n).rawFrames =
        ({ s.exchange.node n with queue := rest } : Node).rawFrames := by
    intro hne
    simp [Node.rawFrames, hqueue, hne]
  generalize (s.exchange.node n).submitted base64 cjson env = submitted at hhandles ⊢
  cases hhandles with
  | drop hne _ =>
    refine h.of_step (n := n) (setNode_node_not ..) ?_ ?_ ?_ ⟨arrived, ?_⟩ ⟨arrived', ?_⟩ ?_ rfl ?_
    · simpa using hnode
    · simpa using fun q' hq' => h.postable n q' (hrest q' hq')
    · simpa [SentOk] using h.sent n
    · simp only [setNode_node_self, setNode_node_not, Function.update_self]
      exact hwrite.of_sender _ rfl (List.append_nil _).symm
    · simp only [setNode_node_self, setNode_node_not, Function.update_of_ne (Bool.not_ne_self n)]
      exact hread.of_receiver rfl (hpop hne).symm
    · simpa [hear] using h.received n
    · simp
  | send text hwire hreceived htext =>
    obtain ⟨hwireable, text', htext', hfits, hcarries⟩ :=
      h.sends hbase64 hcjson hprint hok hqueue hwire hreceived
    rw [htext] at htext'
    cases htext'
    have hne : q.event.type ≠ .dataReady := fun he => by simp [he, EventType.isWire] at hwire
    refine h.of_step (n := n) (setNode_node_not ..) ?_ ?_ ?_ ⟨arrived, ?_⟩ ⟨arrived', ?_⟩ ?_ rfl ?_
    · simpa using hnode
    · simpa using fun q' hq' => h.postable n q' (hrest q' hq')
    · simp only [SentOk, setNode_node_self]
      intro x hx
      rcases List.mem_append.1 hx with hx | hx
      · exact h.sent n x hx
      · rw [List.mem_singleton.1 hx]
        exact ⟨hfits, hcarries, hwireable⟩
    · simp only [setNode_node_self, setNode_node_not, Function.update_self]
      exact hwrite.of_sender _ rfl rfl
    · simp only [setNode_node_self, setNode_node_not, Function.update_of_ne (Bool.not_ne_self n)]
      exact hread.of_receiver rfl (hpop hne).symm
    · simpa [hear] using h.received n
    · simp
  | halt hready hnone =>
    obtain ⟨x, r', -, -, hr', -⟩ := h.frame hqueue hready hok.1 env.garbage
    rw [hnone] at hr'
    cases hr'
  | frame handled hready hhandled =>
    obtain ⟨x, r', hx, hwireable, hr', hevent⟩ := h.frame hqueue hready hok.1 env.garbage
    rw [hhandled] at hr'
    cases hr'
    have hne : handled.event.type ≠ .dataReady := by
      rw [hevent]
      exact hwireable.ne_dataReady
    obtain ⟨hself, hnot⟩ := received_hear s (s.exchange.setNode n
      (({ s.exchange.node n with
          queue := rest, handled := (s.exchange.node n).handled ++ [q] } : Node).submit
        ⟨handled.event, .handleMessage⟩)) n ⟨handled.event, .handleMessage⟩
    refine h.of_step (n := n) (setNode_node_not ..) ?_ ?_ ?_ ⟨arrived, ?_⟩ ⟨arrived', ?_⟩ ?_ hnot
      ?_
    · simpa using hnode
    · simp only [setNode_node_self]
      intro q' hq' hlocal
      rcases List.mem_append.1 hq' with hq' | hq'
      · exact h.postable n q' (hrest q' hq') hlocal
      · rw [List.mem_singleton.1 hq'] at hlocal
        cases hlocal
    · simpa [SentOk, Node.submit] using h.sent n
    · simp only [setNode_node_self, setNode_node_not, Function.update_self]
      exact hwrite.of_sender _ rfl (List.append_nil _).symm
    · simp only [setNode_node_self, setNode_node_not, Function.update_of_ne (Bool.not_ne_self n)]
      refine hread.of_receiver rfl ?_
      rw [rawFrames_submit _ hne]
      simp [Node.rawFrames, hqueue, hready]
    · -- the message is the next one of those that were sent
      refine hself.trans ?_
      rw [h.received]
      simp [Node.submit, List.take_add_one, hx, Queued.message, hevent]
    · simp [Node.submit]

theorem linkInv_step (hbase64 : base64.Documented) (hcjson : cjson.Documented)
    (hprint : cjson.PrintsText) (hsize : 0 < bufSize) {s s' : Listened} {e : ExchangeEvent}
    (h : LinkInv bufSize base64 cjson s) (hok : LinkOk bufSize base64 cjson s e)
    (hs : Listened.step base64 cjson s e = some s') : LinkInv bufSize base64 cjson s' := by
  cases e with
  | raise n p garbage =>
    cases he : p.event garbage with
    | none => simp [Listened.step, Exchange.step, he] at hs
    | some event =>
      simp only [Listened.step, Exchange.step, Exchange.submitted, he, Option.map_some,
        Option.some.injEq] at hs
      subst hs
      exact h.raise hok he
  | thread n env =>
    cases hr : (s.exchange.node n).handleMsg base64 cjson env with
    | none => simp [Listened.step, Exchange.step, hr] at hs
    | some r =>
      simp only [Listened.step, Exchange.step, Exchange.submitted, hr, Option.map_some,
        Option.some.injEq] at hs
      subst hs
      exact h.thread hbase64 hcjson hprint hok hr
  | arrive n garbage =>
    cases hline : s.exchange.line !n with
    | nil => simp [Listened.step, Exchange.step, hline] at hs
    | cons c rest =>
      simp only [Listened.step, Exchange.step, Exchange.submitted, hline, Option.map_some,
        Option.some.injEq] at hs
      subst hs
      exact h.arrive hsize garbage hline
  | noise n c garbage => exact hok.elim
  | lose n => exact hok.elim

theorem linkInv_of_run (hbase64 : base64.Documented) (hcjson : cjson.Documented)
    (hprint : cjson.PrintsText) (hsize : 0 < bufSize) {evs : List ExchangeEvent} {s : Listened}
    (h : (listened bufSize base64 cjson).RunOf (LinkOk bufSize base64 cjson) evs s) :
    LinkInv bufSize base64 cjson s :=
  h.invariant _ .start fun _ _ _ hi hok hs => linkInv_step hbase64 hcjson hprint hsize hi hok hs

/-! ## What is delivered -/

structure Idle (s : Exchange) (n : Bool) : Prop where
  queue : ∀ q ∈ (s.node n).queue, q.isLocalWire = false
  line : s.line n = []
  frames : ∀ q ∈ (s.node !n).queue, q.event.type ≠ .dataReady

def Exchange.messages (s : Exchange) (n : Bool) : List (EventType × Bytes) :=
  (s.node n).raised.map Queued.message

theorem LinkInv.received_prefix {s : Listened} (h : LinkInv bufSize base64 cjson s) (n : Bool) :
    s.received (!n) <+: s.exchange.messages n := by
  rw [h.received, Bool.not_not, Exchange.messages, (h.nodes n).once, List.map_append, List.map_map]
  exact ((List.take_prefix _ _).map _).trans (List.prefix_append _ _)

theorem LinkInv.received_idle {s : Listened} (h : LinkInv bufSize base64 cjson s) {n : Bool}
    (hidle : Idle s.exchange n) : s.received (!n) = s.exchange.messages n := by
  obtain ⟨arrived, hlink⟩ := h.link n
  have hqueue : (s.exchange.node n).queue.filter Queued.isLocalWire = [] := by
    simpa [List.filter_eq_nil_iff] using hidle.queue
  have hwaiting : ((s.exchange.node !n).queue.filter fun q => q.event.type = .dataReady) = [] := by
    simpa [List.filter_eq_nil_iff] using hidle.frames
  have hstream := hlink.stream
  rw [hidle.line, List.append_nil] at hstream
  -- all that was sent arrived, and all that arrived was handled
  have hframes : Framing.frames 0 [] arrived = (s.exchange.node n).sent.map Prod.snd := by
    rw [hstream, (h.nodes n).output, ← List.flatMap_map Prod.snd (· ++ [0])]
    refine frames_flatMap fun f hf => ?_
    obtain ⟨x, hx, rfl⟩ := List.mem_map.1 hf
    exact (h.sent n x hx).1.zero_notMem
  have hlength := congrArg List.length hlink.frames
  rw [hframes, Node.rawFrames, hwaiting, List.append_nil] at hlength
  simp only [List.length_map] at hlength
  rw [h.received, Bool.not_not, Exchange.messages, (h.nodes n).once, hqueue, List.append_nil,
    List.map_map, hlength, List.take_length]
  rfl

/-- In every run in which the line loses nothing and what is raised can be sent, the listeners of
each side have got the first of the messages that the other raised, and all of them once nothing
is under way. -/
theorem exchange_delivers (hbase64 : base64.Documented) (hcjson : cjson.Documented)
    (hprint : cjson.PrintsText) (hsize : 0 < bufSize) {evs : List ExchangeEvent} {s : Listened}
    (h : (listened bufSize base64 cjson).RunOf (LinkOk bufSize base64 cjson) evs s) (n : Bool) :
    s.received (!n) <+: s.exchange.messages n ∧
      (Idle s.exchange n → s.received (!n) = s.exchange.messages n) := by
  have hinv := linkInv_of_run hbase64 hcjson hprint hsize h
  exact ⟨hinv.received_prefix n, hinv.received_idle⟩

/-- A heat map is raised on one side and a button press on the other. -/
def crossing : List ExchangeEvent :=
  [.raise false (.sendToNrf9160 [1, 2, 3]) true, .raise true .handleButtonEvent false]

/-- Both are sent, cross on the line, and are handled and heard of. -/
def crossed : List ExchangeEvent :=
  [.thread false quietEnv, .thread true quietEnv] ++ List.replicate 43 (.arrive true false) ++
    List.replicate 39 (.arrive false true) ++ [.thread true quietEnv, .thread false quietEnv] ++
      [.thread true quietEnv, .thread false quietEnv]

instance (s : Exchange) (n : Bool) : Decidable (Idle s n) :=
  decidable_of_iff ((∀ q ∈ (s.node n).queue, q.isLocalWire = false) ∧ s.line n = [] ∧
      ∀ q ∈ (s.node !n).queue, q.event.type ≠ .dataReady)
    ⟨fun h => ⟨h.1, h.2.1, h.2.2⟩, fun h => ⟨h.queue, h.line, h.frames⟩⟩

theorem exchange_delivers_crossing :
    ∃ s, (listened 64 zephyrBase64 cJson).RunOf (LinkOk 64 zephyrBase64 cJson)
        (crossing ++ crossed) s ∧
      s.received true = [(.heatMapDataReady, [1, 2, 3])] ∧ s.received false = [(.button, [])] := by
  have hrun : ∃ s ∈ (listened 64 zephyrBase64 cJson).execOf (LinkOk 64 zephyrBase64 cJson)
      (crossing ++ crossed), Idle s.exchange false ∧ Idle s.exchange true ∧
        s.exchange.messages false = [(.heatMapDataReady, [1, 2, 3])] ∧
        s.exchange.messages true = [(.button, [])] := by decide +kernel
  obtain ⟨s, hs, hidle, hidle', hmessages, hmessages'⟩ := hrun
  have h := Lts.runOf_of_exec hs
  have hdelivers := exchange_delivers zephyrBase64_documented cJson_documented cJson_printsText
    (by decide) h
  refine ⟨s, h, ?_, ?_⟩
  · rw [← hmessages]
    exact (hdelivers false).2 hidle
  · rw [← hmessages']
    exact (hdelivers true).2 hidle'

end Heaty.Mcu
