import Heaty.Spec.Dyndata

/-! When every copy of `dyndata` is freed once, and what the threads see of the events. -/

namespace Heaty.Dyndata

open Common (putReturns moduleEnqueueMsg)
open Ledger (Op Holds)

variable {module : Module} {s s' : Sys} {steps : List Step} {msg : Msg} {addr : ℕ}

theorem enqueues_of_copies {type : EventType} (h : module.copies type = true) :
    module.enqueues type = true := by
  cases module <;> cases type <;> first | rfl | contradiction

theorem copies_of_reads {type : EventType} (h : module.reads type = true) :
    module.copies type = true := by
  cases module <;> cases type <;> first | rfl | contradiction

def Sys.queued (s : Sys) : List ℕ := s.queue.filterMap (·.dyndata)

/-- The copies made and not freed are those in the queue and at the thread, and none was
read or freed without being one of these. The messages taken are events that were
submitted, in order, with their bytes, and what the thread reads of one until the end of
its turn are these bytes. -/
structure Sys.Sound (module : Module) (s : Sys) : Prop where
  owned : Holds s.memory s.copies
  order : s.processed.Sublist (s.submitted.map (Event.seen module))
  bytes : ∀ msg, s.thread = .processing msg → s.processed.getLast? = some (msg.seen s.heap)

/-- When `k_msgq_put` fails, neither the queue nor the message has a copy. -/
def Lossless (module : Module) (s : Sys) : Step → Prop
  | .process _ putErr => putErr ≠ 0 → ∀ e ∈ s.inFlight.head?, module.enqueues e.type = true →
      module.copies e.type = false ∧ s.queued = []
  | _ => True

instance (module : Module) (s : Sys) : (e : Step) → Decidable (Lossless module s e)
  | .process _ putErr => inferInstanceAs (Decidable (putErr ≠ 0 → ∀ e ∈ s.inFlight.head?,
      module.enqueues e.type = true → module.copies e.type = false ∧ s.queued = []))
  | .submit _ | .dequeue | .read | .finish | .write _ _ => .isTrue trivial

def Msg.Carries (module : Module) (msg : Msg) : Prop :=
  msg.dyndata.isSome = module.copies msg.type

/-- What was taken, what is queued and what is still to be processed comes from the
submitted events in this order. -/
structure Traced (module : Module) (s : Sys) : Prop where
  trace : (s.processed ++ s.queue.map (Msg.seen s.heap) ++
    s.inFlight.map (Event.seen module)).Sublist (s.submitted.map (Event.seen module))
  bytes : ∀ msg, s.thread = .processing msg → s.processed.getLast? = some (msg.seen s.heap)
  queue : ∀ msg ∈ s.queue, msg.Carries module
  thread : ∀ msg, s.thread = .processing msg → msg.Carries module

theorem seen_update (heap : ℕ → Bytes) (bs : Bytes) (h : addr ∉ msg.dyndata) :
    msg.seen (Function.update heap addr bs) = msg.seen heap := by
  cases hmsg : msg.dyndata with
  | none => simp [Msg.seen, hmsg]
  | some a =>
    have hne : a ≠ addr := fun he => h (by simp [hmsg, he])
    simp [Msg.seen, hmsg, Function.update_of_ne hne]

theorem mem_copies_of_queue (hmsg : msg ∈ s.queue) (h : addr ∈ msg.dyndata) : addr ∈ s.copies :=
  List.mem_append_right _ (List.mem_filterMap.2 ⟨msg, hmsg, h⟩)

theorem mem_copies_of_thread (hmsg : s.thread = .processing msg) (h : addr ∈ msg.dyndata) :
    addr ∈ s.copies := by
  refine List.mem_append_left _ ?_
  rw [hmsg]
  simpa [Thread.copy] using h

/-- Writing to a block that is no copy changes nothing that a message carries. -/
theorem write_traced (h : Traced module s) (haddr : addr ∉ s.copies) (bs : Bytes) :
    Traced module { s with heap := Function.update s.heap addr bs } := by
  have hmap : s.queue.map (Msg.seen (Function.update s.heap addr bs)) =
      s.queue.map (Msg.seen s.heap) := List.map_congr_left fun msg hmsg =>
    seen_update _ _ fun ha => haddr (mem_copies_of_queue hmsg ha)
  refine ⟨?_, fun msg hmsg => ?_, h.queue, h.thread⟩
  · simpa only [hmap] using h.trace
  · rw [h.bytes msg hmsg, seen_update]
    exact fun ha => haddr (mem_copies_of_thread hmsg ha)

theorem submit_traced (h : Traced module s) (e : Event) : Traced module (s.submit e) := by
  refine ⟨?_, h.bytes, h.queue, h.thread⟩
  simp only [Sys.submit, List.map_append, ← List.append_assoc]
  exact h.trace.append (List.Sublist.refl _)

theorem drop_traced {e : Event} {rest : List Event} (h : Traced module s)
    (hflight : s.inFlight = e :: rest) : Traced module { s with inFlight := rest } := by
  refine ⟨List.Sublist.trans ?_ h.trace, h.bytes, h.queue, h.thread⟩
  rw [hflight]
  exact (List.Sublist.refl _).append ((List.sublist_cons_self e rest).map _)

theorem copyDyndata_traced (h : Traced module s) (haddr : addr ∉ s.copies) (e : Event) :
    Traced module (s.copyDyndata module e addr) := by
  unfold Sys.copyDyndata
  split_ifs
  · have hwrite := write_traced h haddr e.dyndata
    exact ⟨hwrite.trace, hwrite.bytes, hwrite.queue, hwrite.thread⟩
  · exact h

theorem copyDyndata_inFlight (s : Sys) (e : Event) (rest : List Event) :
    Sys.copyDyndata module { s with inFlight := rest } e addr =
      { s.copyDyndata module e addr with inFlight := rest } := by
  unfold Sys.copyDyndata
  split_ifs <;> rfl

theorem inFlight_copyDyndata (s : Sys) (e : Event) :
    (s.copyDyndata module e addr).inFlight = s.inFlight := by
  unfold Sys.copyDyndata
  split_ifs <;> rfl

theorem toMsg_carries (e : Event) : (e.toMsg module addr).Carries module := by
  unfold Msg.Carries Event.toMsg
  split_ifs with hcopies <;> simp [hcopies]

theorem toMsg_seen (s : Sys) (e : Event) :
    (e.toMsg module addr).seen (s.copyDyndata module e addr).heap = e.seen module := by
  unfold Event.toMsg Sys.copyDyndata Event.seen Msg.seen
  split_ifs <;> simp

/-- A message with what its event showed, put behind the others or lost with them. -/
theorem enqueueMsg_traced {e : Event} {rest : List Event} (h : Traced module s)
    (hflight : s.inFlight = e :: rest) (hcarries : msg.Carries module)
    (hseen : msg.seen s.heap = e.seen module) (err : ℤ) :
    Traced module ({ s with inFlight := rest }.enqueueMsg module msg err) := by
  have hput : Traced module
      { s with inFlight := rest, queue := moduleEnqueueMsg s.queue msg err } := by
    by_cases herr : err = 0
    · refine ⟨?_, h.bytes, fun m hm => ?_, h.thread⟩
      · have htrace := h.trace
        rw [hflight] at htrace
        simpa [moduleEnqueueMsg, herr, hseen] using htrace
      · simp only [moduleEnqueueMsg, herr, ne_eq, not_true_eq_false, if_false, List.mem_append,
          List.mem_singleton] at hm
        rcases hm with hm | rfl
        · exact h.queue m hm
        · exact hcarries
    · refine ⟨List.Sublist.trans ?_ (drop_traced h hflight).trace, h.bytes, ?_, h.thread⟩
      · simp [moduleEnqueueMsg, herr]
      · simp [moduleEnqueueMsg, herr]
  unfold Sys.enqueueMsg
  split
  · split_ifs
    · exact submit_traced hput _
    · exact hput
  · exact hput

theorem step_process {putErr : ℤ} (hstep : s.step module (.process addr putErr) = some s') :
    ∃ e rest, s.inFlight = e :: rest ∧ addr ∉ s.copies ∧
      s' = Sys.eventHandler module { s with inFlight := rest } e addr putErr := by
  cases hflight : s.inFlight with
  | nil => simp [Sys.step, hflight] at hstep
  | cons e rest =>
    simp only [Sys.step, hflight] at hstep
    split_ifs at hstep with hguard
    exact ⟨e, rest, rfl, hguard.2.2, (Option.some.inj hstep).symm⟩

theorem step_dequeue (hstep : s.step module .dequeue = some s') :
    ∃ msg rest, s.thread = .idle ∧ s.queue = msg :: rest ∧
      s' = { s with
        queue := rest
        thread := .processing msg
        processed := s.processed ++ [msg.seen s.heap] } := by
  simp only [Sys.step] at hstep
  split at hstep
  · next msg rest hthread hqueue =>
    exact ⟨msg, rest, hthread, hqueue, (Option.some.inj hstep).symm⟩
  · cases hstep

theorem step_read (hstep : s.step module .read = some s') :
    ∃ msg, s.thread = .processing msg ∧ module.reads msg.type = true ∧
      s' = { s with memory := s.memory ++ [.use (msg.dyndata.getD 0)] } := by
  simp only [Sys.step] at hstep
  split at hstep
  · next msg hthread =>
    split_ifs at hstep with hreads
    exact ⟨msg, hthread, hreads, (Option.some.inj hstep).symm⟩
  · cases hstep

theorem step_finish (hstep : s.step module .finish = some s') :
    ∃ msg, s.thread = .processing msg ∧ s' = s.onAllStates msg := by
  simp only [Sys.step] at hstep
  split at hstep
  · next msg hthread => exact ⟨msg, hthread, (Option.some.inj hstep).symm⟩
  · cases hstep

theorem step_write {bytes : Bytes} (hstep : s.step module (.write addr bytes) = some s') :
    addr ∉ s.copies ∧ s' = { s with heap := Function.update s.heap addr bytes } := by
  simp only [Sys.step] at hstep
  split_ifs at hstep with haddr
  exact ⟨haddr, (Option.some.inj hstep).symm⟩

theorem step_traced {e : Step} (h : Traced module s) (hstep : s.step module e = some s') :
    Traced module s' := by
  cases e with
  | submit e =>
    cases hstep
    exact submit_traced h e
  | process addr putErr =>
    obtain ⟨e, rest, hflight, haddr, rfl⟩ := step_process hstep
    have hcopied := copyDyndata_traced h haddr e
    have hflight' : (s.copyDyndata module e addr).inFlight = e :: rest :=
      (inFlight_copyDyndata s e).trans hflight
    simp only [Sys.eventHandler, copyDyndata_inFlight]
    split_ifs
    · exact enqueueMsg_traced hcopied hflight' (toMsg_carries e) (toMsg_seen s e) putErr
    · exact drop_traced hcopied hflight'
  | dequeue =>
    obtain ⟨msg, rest, hthread, hqueue, rfl⟩ := step_dequeue hstep
    have htrace := h.trace
    rw [hqueue] at htrace
    refine ⟨by simpa using htrace, ?_, fun m hm => ?_, ?_⟩
    · rintro m ⟨⟩
      simp
    · exact h.queue m (by simp [hqueue, hm])
    · rintro m ⟨⟩
      exact h.queue msg (by simp [hqueue])
  | read =>
    obtain ⟨msg, -, -, rfl⟩ := step_read hstep
    exact ⟨h.trace, h.bytes, h.queue, h.thread⟩
  | finish =>
    obtain ⟨msg, -, rfl⟩ := step_finish hstep
    unfold Sys.onAllStates
    split <;> exact ⟨h.trace, by simp, h.queue, by simp⟩
  | write addr bytes =>
    obtain ⟨haddr, rfl⟩ := step_write hstep
    exact write_traced h haddr bytes

def Sys.Owned (s : Sys) : Prop := Holds s.memory s.copies

theorem copyDyndata_owned (h : s.Owned) (haddr : addr ∉ s.copies) (e : Event) :
    Holds (s.copyDyndata module e addr).memory
      (s.copies ++ (e.toMsg module addr).dyndata.toList) := by
  unfold Sys.copyDyndata Event.toMsg
  split_ifs
  · exact (h.take haddr).perm (List.perm_append_singleton addr s.copies).symm
  · simpa [Sys.Owned] using h

theorem copyDyndata_copies (s : Sys) (e : Event) :
    (s.copyDyndata module e addr).copies = s.copies := by
  unfold Sys.copyDyndata
  split_ifs <;> rfl

theorem copyDyndata_queued (s : Sys) (e : Event) :
    (s.copyDyndata module e addr).queued = s.queued := by
  unfold Sys.copyDyndata
  split_ifs <;> rfl

theorem toMsg_dyndata (e : Event) :
    (e.toMsg module addr).dyndata = none ↔ module.copies e.type = false := by
  unfold Event.toMsg
  split_ifs with hcopies <;> simp [hcopies]

theorem enqueueMsg_memory (s : Sys) (err : ℤ) :
    (s.enqueueMsg module msg err).memory = s.memory := by
  unfold Sys.enqueueMsg
  split
  · split_ifs <;> rfl
  · rfl

theorem enqueueMsg_copies (s : Sys) (err : ℤ) :
    (s.enqueueMsg module msg err).copies =
      s.thread.copy.toList ++ (moduleEnqueueMsg s.queue msg err).filterMap (·.dyndata) := by
  unfold Sys.enqueueMsg
  split
  · split_ifs <;> rfl
  · rfl

/-- With the message of a copy, the copies are accounted for just when none is lost. -/
theorem enqueueMsg_owned (h : Holds s.memory (s.copies ++ msg.dyndata.toList)) (err : ℤ) :
    (s.enqueueMsg module msg err).Owned ↔ (err ≠ 0 → msg.dyndata = none ∧ s.queued = []) := by
  rw [Sys.Owned, enqueueMsg_memory, enqueueMsg_copies]
  have hcopies : s.copies ++ msg.dyndata.toList =
      s.thread.copy.toList ++ (s.queued ++ msg.dyndata.toList) := by
    simp [Sys.copies, Sys.queued]
  rw [hcopies] at h
  by_cases herr : err = 0
  · refine iff_of_true ?_ (absurd herr)
    have hqueue : (moduleEnqueueMsg s.queue msg err).filterMap (·.dyndata) =
        s.queued ++ msg.dyndata.toList := by
      cases hdyndata : msg.dyndata <;> simp [moduleEnqueueMsg, herr, Sys.queued, hdyndata]
    rwa [hqueue]
  · have hqueue : (moduleEnqueueMsg s.queue msg err).filterMap (·.dyndata) = [] := by
      simp [moduleEnqueueMsg, herr]
    rw [hqueue]
    constructor
    · intro hlost _
      have hlength := (h.unique hlost).length_eq
      simp only [List.length_append, List.length_nil] at hlength
      have hnil : s.queued ++ msg.dyndata.toList = [] := by
        rw [← List.length_eq_zero_iff, List.length_append]
        omega
      simpa [and_comm] using hnil
    · intro hnone
      obtain ⟨hdyndata, hqueued⟩ := hnone herr
      simpa [hdyndata, hqueued] using h

/-- Handing an event to the module keeps the copies accounted for just when no copy is
lost with the message. -/
theorem eventHandler_owned {e : Event} {rest : List Event} {putErr : ℤ} (h : s.Owned)
    (hflight : s.inFlight = e :: rest) (haddr : addr ∉ s.copies) :
    (Sys.eventHandler module { s with inFlight := rest } e addr putErr).Owned ↔
      Lossless module s (.process addr putErr) := by
  have howned : Sys.Owned { s with inFlight := rest } := h
  have hcopied := @copyDyndata_owned module _ _ howned haddr e
  simp only [Sys.eventHandler]
  split_ifs with henqueues
  · rw [← @copyDyndata_copies module addr _ e] at hcopied
    rw [enqueueMsg_owned hcopied]
    simp [Lossless, hflight, henqueues, copyDyndata_queued, toMsg_dyndata]
    rfl
  · have hcopies : module.copies e.type = false := by
      by_contra hcopies
      exact henqueues (enqueues_of_copies (by simpa using hcopies))
    refine iff_of_true ?_ ?_
    · simpa [Sys.copyDyndata, hcopies] using howned
    · simp [Lossless, hflight, henqueues]

theorem onAllStates_owned (h : s.Owned) (hthread : s.thread = .processing msg) :
    (s.onAllStates msg).Owned := by
  unfold Sys.onAllStates
  split
  · next addr haddr =>
    refine Holds.free (Holds.perm h (.of_eq ?_))
    simp [Sys.copies, hthread, Thread.copy, haddr]
  · next hnone =>
    refine Holds.perm h (.of_eq ?_)
    simp [Sys.copies, hthread, Thread.copy, hnone]

theorem step_owned {e : Step} (ht : Traced module s) (h : s.Owned)
    (hstep : s.step module e = some s') : s'.Owned ↔ Lossless module s e := by
  cases e with
  | submit e =>
    cases hstep
    exact iff_of_true h trivial
  | process addr putErr =>
    obtain ⟨e, rest, hflight, haddr, rfl⟩ := step_process hstep
    exact eventHandler_owned h hflight haddr
  | dequeue =>
    obtain ⟨msg, rest, hthread, hqueue, rfl⟩ := step_dequeue hstep
    refine iff_of_true (Holds.perm h (.of_eq ?_)) trivial
    cases hdyndata : msg.dyndata <;>
      simp [Sys.copies, hthread, hqueue, Thread.copy, hdyndata]
  | read =>
    obtain ⟨msg, hthread, hreads, rfl⟩ := step_read hstep
    refine iff_of_true (Holds.use h ?_) trivial
    have hsome : msg.dyndata.isSome = true :=
      (ht.thread msg hthread).trans (copies_of_reads hreads)
    obtain ⟨addr, haddr⟩ := Option.isSome_iff_exists.1 hsome
    rw [haddr]
    exact mem_copies_of_thread hthread haddr
  | finish =>
    obtain ⟨msg, hthread, rfl⟩ := step_finish hstep
    exact iff_of_true (onAllStates_owned h hthread) trivial
  | write addr bytes =>
    obtain ⟨-, rfl⟩ := step_write hstep
    exact iff_of_true h trivial

theorem traced_of_run (h : (system module).Run steps s) : Traced module s :=
  h.invariant (Traced module) ⟨by simp [system, Sys.start], by simp [system, Sys.start],
      by simp [system, Sys.start], by simp [system, Sys.start]⟩
    fun _ _ _ ht _ hstep => step_traced ht hstep

/-- What a module sees of the events is right in every run. -/
theorem Traced.order (h : Traced module s) :
    s.processed.Sublist (s.submitted.map (Event.seen module)) := by
  refine List.Sublist.trans ?_ h.trace
  rw [List.append_assoc]
  exact List.sublist_append_left _ _

/-- The copies are handled right all through a run exactly when none of them is lost
with a message that cannot be put. -/
theorem copies_sound_iff (h : (system module).Run steps s) :
    (system module).Always (Sys.Sound module) steps ↔
      (system module).RunOf (Lossless module) steps s := by
  refine Lts.RunOf.always_iff (I := fun s => Traced module s ∧ s.Owned)
    ⟨traced_of_run .nil, Holds.nil⟩ ?_ ?_ ?_ h
  · rintro s ⟨ht, howned⟩
    exact ⟨howned, ht.order, ht.bytes⟩
  · rintro s e s' ⟨ht, howned⟩ hok hstep
    exact ⟨step_traced ht hstep, (step_owned ht howned hstep).2 hok⟩
  · rintro s e s' ⟨ht, howned⟩ hstep hsound
    exact (step_owned ht howned hstep).1 hsound.owned

def heatMapRun : List Step :=
  [.submit ⟨.btData, [1]⟩, .submit ⟨.btData, [2]⟩, .process 8 0, .dequeue, .read, .process 9 0,
    .read, .finish, .write 8 [3], .dequeue, .read, .finish]

theorem copies_sound_heatMap : ∃ s, (system .bt).Run heatMapRun s ∧
    s.processed = [(.btData, some [1]), (.btData, some [2])] ∧
    (system .bt).Always (Sys.Sound .bt) heatMapRun := by
  obtain ⟨s, hlossless, hprocessed⟩ : ∃ s, (system .bt).RunOf (Lossless .bt) heatMapRun s ∧
      s.processed = [(.btData, some [1]), (.btData, some [2])] :=
    ⟨_, Lts.runOf_of_exec rfl, rfl⟩
  exact ⟨s, hlossless.run, hprocessed, (copies_sound_iff hlossless.run).2 hlossless⟩

def Module.dataEvent : Module → EventType
  | .bt => .btData
  | .commCtrl => .sensorsData
  | .fs => .fsData
  | .mcuExchange | .analysis => .mcuExchange

def purgeRun (module : Module) : List Step :=
  [.submit ⟨module.dataEvent, [1]⟩, .process 8 (-35)]

theorem copy_lost (module : Module) : ∃ s, (system module).Run (purgeRun module) s ∧
    s.memory = [.take 8] ∧ s.copies = [] ∧ ¬ s.Sound module := by
  have hrun : ∃ s, (system module).Run (purgeRun module) s ∧
      s.memory = [.take 8] ∧ s.copies = [] := by
    cases module <;> exact ⟨_, Lts.run_of_exec rfl, rfl, rfl⟩
  obtain ⟨s, hs, hmemory, hcopies⟩ := hrun
  refine ⟨s, hs, hmemory, hcopies, fun hsound => ?_⟩
  have hcount := hsound.owned.count 8
  rw [hmemory, hcopies] at hcount
  exact absurd hcount (by decide)

theorem copies_not_sound : ¬ (system .bt).Always (Sys.Sound .bt) (purgeRun .bt) := by
  intro halways
  obtain ⟨s, hs, -, -, hnot⟩ := copy_lost .bt
  exact hnot (halways _ _ (List.prefix_refl _) hs)

end Heaty.Dyndata
