import Heaty.Spec.Fs

/-! What a file holds that is written and appended to by requests, some of which are
thrown away or fail. -/

namespace Heaty.Fs

open Common (putReturns moduleEnqueueMsg)
open Utils (overwrite overwrite_nil_left)

variable {Path : Type} [DecidableEq Path] {files : Files Path} {evs : List (Event Path)}
  {m m' : Module Path} {p : Path}

def FsDataEvent.changes (p : Path) (request : FsDataEvent Path) : Bool :=
  request.filePath = p ∧
    (request.type = .writeFile ∨ request.type = .appendFile ∨ request.type = .deleteFile)

def Module.content (m : Module Path) (p : Path) : Bytes := (m.files p).getD []

def Module.requestsOn (m : Module Path) (p : Path) : List (FsDataEvent Path) :=
  m.requested.filter (·.changes p)

def Module.settledOn (m : Module Path) (p : Path) : List (Settled Path) :=
  m.settled.filter (·.request.changes p)

/-- One write, then appends, or as many of them as there are yet. -/
def WriteThenAppends (requests : List (FsDataEvent Path)) : Prop :=
  ∃ n, requests.map (·.type) <+: .writeFile :: List.replicate n .appendFile

/-- A request stores a first part of its payload, all of it when it is handled
without an error. -/
def Settled.Sound (r : Settled Path) : Prop :=
  r.stored <+: r.request.dyndata ∧
    ∀ bs, r.fate = .handled 0 bs →
      r.request.type = .writeFile ∨ r.request.type = .appendFile → bs = r.request.dyndata

def Settled.replay (p : Path) (content : Bytes) (r : Settled Path) : Bytes :=
  if r.request.changes p then
    match r.request.type with
    | .writeFile => overwrite r.stored content
    | .appendFile => content ++ r.stored
    | _ => match r.fate with
      | .handled 0 _ => []
      | _ => content
  else content

theorem prefix_storedOf (io : Io) (bs : Bytes) : io.storedOf bs <+: bs := by
  unfold Io.storedOf
  split_ifs
  · exact List.nil_prefix
  · exact List.take_prefix _ _
  · exact List.prefix_refl _

/-- A write that fails to open the file changes it no more than one that stores nothing. -/
theorem fsHelperFileWrite_content (io : Io) (files : Files Path) (q p : Path) (bs : Bytes)
    (isAppend : Bool) :
    (((fsHelperFileWrite io files q bs isAppend).2 p).getD [] : Bytes) =
      if q = p then
        if isAppend then (files p).getD [] ++ io.storedOf bs
        else overwrite (io.storedOf bs) ((files p).getD [])
      else (files p).getD [] := by
  by_cases hopen : io.fsOpen = 0
  · have hwrite : (fsHelperFileWrite io files q bs isAppend).2 =
        files.write q (io.storedOf bs) isAppend := by
      simp only [fsHelperFileWrite, hopen]
      split_ifs <;> first | rfl | contradiction
    rw [hwrite]
    by_cases hq : q = p
    · subst hq
      simp [Files.write]
    · simp [Files.write, Function.update_of_ne (Ne.symm hq), hq]
  · have hnone : io.storedOf bs = [] := by simp [Io.storedOf, hopen]
    simp [fsHelperFileWrite, hopen, hnone, overwrite_nil_left]

theorem fsHelperFileWrite_whole {io : Io} {q : Path} {bs : Bytes} {isAppend : Bool}
    (h : (fsHelperFileWrite io files q bs isAppend).1 = 0) : io.storedOf bs = bs := by
  unfold fsHelperFileWrite at h
  split_ifs at h with hopen hwrite hclose
  · exact absurd h hopen
  · exact absurd h (show enomem ≠ 0 by decide)
  · exact absurd h hclose
  · unfold Io.storedOf
    rw [if_neg hopen, if_neg (not_or.2 ⟨hwrite, hclose⟩)]

theorem fsHelperFileRead_content (io : Io) (files : Files Path) (q p : Path) :
    (((fsHelperFileRead io files q).2 p).getD [] : Bytes) = (files p).getD [] := by
  unfold fsHelperFileRead
  split_ifs
  · rfl
  · by_cases hq : p = q
    · simp [hq]
    · simp [Function.update_of_ne hq]

structure Settles (m m' : Module Path) (rs : List (Settled Path)) : Prop where
  queue : m'.queue = m.queue
  requested : m'.requested = m.requested
  settled : m'.settled = m.settled ++ rs
  sound : ∀ r ∈ rs, r.Sound
  content : ∀ p, m'.content p = rs.foldl (Settled.replay p) (m.content p)

theorem initFsModule_settles (m : Module Path) (io : Io) : Settles m (m.initFsModule io) [] := by
  unfold Module.initFsModule
  split_ifs <;> exact ⟨rfl, rfl, (List.append_nil _).symm, by simp, fun _ => rfl⟩

theorem settle_dropped (m : Module Path) (request : FsDataEvent Path) :
    Settles m (m.settle request .dropped) [⟨request, .dropped⟩] where
  queue := rfl
  requested := rfl
  settled := rfl
  sound := by simp [Settled.Sound, Settled.stored]
  content p := by
    obtain ⟨type, q, bs⟩ := request
    cases type <;>
      simp [Module.settle, Module.content, Settled.replay, Settled.stored, overwrite_nil_left]

theorem checked_settles {rs : List (Settled Path)} {err : ℤ} (h : Settles m m' rs) :
    Settles m (m'.checked err) rs := by
  unfold Module.checked
  split_ifs
  · exact ⟨h.queue, h.requested, h.settled, h.sound, h.content⟩
  · exact h

omit [DecidableEq Path] in
theorem checked_settled (m : Module Path) (err : ℤ) : (m.checked err).settled = m.settled := by
  unfold Module.checked
  split_ifs <;> rfl

theorem write_settles (m : Module Path) (io : Io) (request : FsDataEvent Path) (isAppend : Bool)
    (htype : request.type = if isAppend then .appendFile else .writeFile) :
    let result := fsHelperFileWrite io m.files request.filePath request.dyndata isAppend
    let fate := Fate.handled result.1 (io.storedOf request.dyndata)
    Settles m ({ m with files := result.2 }.settle request fate) [⟨request, fate⟩] where
  queue := rfl
  requested := rfl
  settled := rfl
  sound := by
    rintro r hr
    obtain rfl := List.mem_singleton.1 hr
    refine ⟨prefix_storedOf _ _, fun bs hfate _ => ?_⟩
    obtain ⟨herr, rfl⟩ := Fate.handled.inj hfate
    exact fsHelperFileWrite_whole herr
  content p := by
    have hcontent := fsHelperFileWrite_content io m.files request.filePath p request.dyndata
      isAppend
    simp only [Module.settle, Module.content, List.foldl_cons, List.foldl_nil, hcontent]
    by_cases hp : request.filePath = p <;> cases isAppend <;>
      simp [Settled.replay, Settled.stored, FsDataEvent.changes, htype, hp]

theorem onStateReady_settles (m : Module Path) (io : Io) (request : FsDataEvent Path) :
    ∃ fate, Settles m (m.onStateReady io request) [⟨request, fate⟩] := by
  obtain ⟨type, q, bs⟩ := request
  cases type with
  | readFileReq =>
    refine ⟨.handled (fsHelperFileRead io m.files q).1 [], checked_settles ⟨rfl, rfl, rfl, ?_, ?_⟩⟩
    · simp [Settled.Sound, Settled.stored]
    · intro p
      simp [Module.settle, Module.content, fsHelperFileRead_content, Settled.replay,
        FsDataEvent.changes]
  | readFileRes =>
    refine ⟨.handled 0 [], rfl, rfl, rfl, ?_, ?_⟩
    · simp [Settled.Sound, Settled.stored]
    · intro p
      simp [Module.onStateReady, Module.settle, Module.content, Settled.replay,
        FsDataEvent.changes]
  | writeFile => exact ⟨_, checked_settles (write_settles m io ⟨.writeFile, q, bs⟩ false rfl)⟩
  | appendFile => exact ⟨_, checked_settles (write_settles m io ⟨.appendFile, q, bs⟩ true rfl)⟩
  | deleteFile =>
    refine ⟨.handled (fsHelperFileDelete io m.files q).1 [],
      checked_settles ⟨rfl, rfl, rfl, ?_, ?_⟩⟩
    · simp [Settled.Sound, Settled.stored]
    · intro p
      by_cases hunlink : io.fsUnlink = 0 <;> by_cases hp : q = p
      · subst hp
        simp [Module.settle, Module.content, fsHelperFileDelete, Settled.replay,
          FsDataEvent.changes, hunlink]
      · simp [Module.settle, Module.content, fsHelperFileDelete, Settled.replay,
          FsDataEvent.changes, hunlink, hp, Function.update_of_ne (Ne.symm hp)]
      · simp [Module.settle, Module.content, fsHelperFileDelete, Settled.replay,
          FsDataEvent.changes, hunlink, hp]
      · simp [Module.settle, Module.content, fsHelperFileDelete, Settled.replay,
          FsDataEvent.changes, hunlink, hp]

theorem handle_settles (m : Module Path) (io : Io) (msg : Msg Path) :
    ∃ rs, rs.map (·.request) = msg.request.toList ∧ Settles m (m.handle io msg) rs := by
  cases msg with
  | moduleState mainReady =>
    refine ⟨[], rfl, ?_⟩
    cases hstate : m.state <;> cases mainReady <;> simp only [Module.handle, hstate] <;>
      first
        | exact initFsModule_settles m io
        | exact ⟨rfl, rfl, (List.append_nil _).symm, by simp, fun _ => rfl⟩
  | error =>
    refine ⟨[], rfl, ?_⟩
    cases hstate : m.state <;> simp only [Module.handle, hstate] <;>
      first
        | exact initFsModule_settles m io
        | exact ⟨rfl, rfl, (List.append_nil _).symm, by simp, fun _ => rfl⟩
  | data request =>
    cases hstate : m.state with
    | ready =>
      obtain ⟨fate, h⟩ := onStateReady_settles m io request
      refine ⟨_, ?_, by simpa only [Module.handle, hstate] using h⟩
      rfl
    | init =>
      refine ⟨_, ?_, by simpa only [Module.handle, hstate] using settle_dropped m request⟩
      rfl
    | error =>
      refine ⟨_, ?_, by simpa only [Module.handle, hstate] using settle_dropped m request⟩
      rfl

omit [DecidableEq Path] in
theorem drop_request (msgs : List (Msg Path)) :
    (msgs.filterMap Msg.drop).map (·.request) = msgs.filterMap Msg.request := by
  induction msgs with
  | nil => rfl
  | cons msg rest ih =>
    cases msg with
    | data request => exact congrArg (request :: ·) ih
    | moduleState => exact ih
    | error => exact ih

omit [DecidableEq Path] in
theorem drop_dropped {msgs : List (Msg Path)} {r : Settled Path}
    (hr : r ∈ msgs.filterMap Msg.drop) : r.fate = .dropped := by
  obtain ⟨msg, -, hmsg⟩ := List.mem_filterMap.1 hr
  obtain ⟨request, -, rfl⟩ := Option.map_eq_some_iff.1 hmsg
  rfl

omit [DecidableEq Path] in
theorem sound_of_dropped {r : Settled Path} (h : r.fate = .dropped) : r.Sound := by
  refine ⟨?_, fun bs hfate => ?_⟩
  · simp [Settled.stored, h]
  · cases h.symm.trans hfate

theorem replay_of_dropped {r : Settled Path} (h : r.fate = .dropped) (p : Path) (content : Bytes) :
    Settled.replay p content r = content := by
  have hstored : r.stored = [] := by simp [Settled.stored, h]
  unfold Settled.replay
  split_ifs
  · cases r.request.type <;> simp [hstored, h, overwrite_nil_left]
  · rfl

theorem foldl_replay_of_dropped {rs : List (Settled Path)} (h : ∀ r ∈ rs, r.fate = .dropped)
    (p : Path) (content : Bytes) : rs.foldl (Settled.replay p) content = content := by
  induction rs with
  | nil => rfl
  | cons r rest ih =>
    rw [List.foldl_cons, replay_of_dropped (h r (by simp))]
    exact ih fun r' hr' => h r' (List.mem_cons_of_mem _ hr')

/-- Every request the module was handed is queued or settled, in order, and the files
hold what the settled ones have left in them. -/
structure Inv (files : Files Path) (m : Module Path) : Prop where
  accounts : m.requested = m.settled.map (·.request) ++ m.queue.filterMap Msg.request
  sound : ∀ r ∈ m.settled, r.Sound
  content : ∀ p, m.content p = m.settled.foldl (Settled.replay p) ((files p).getD [])

theorem eventHandler_inv (h : Inv files m) (msg : Msg Path) (err : ℤ) :
    Inv files (m.eventHandler msg err) := by
  have hrequest : (m.queue ++ [msg]).filterMap Msg.request =
      m.queue.filterMap Msg.request ++ msg.request.toList := by
    cases msg <;> simp [Msg.request]
  by_cases herr : err = 0
  · refine ⟨?_, ?_, ?_⟩
    · simp [Module.eventHandler, herr, moduleEnqueueMsg, h.accounts, hrequest]
    · simpa [Module.eventHandler, herr] using h.sound
    · simpa [Module.eventHandler, herr, Module.content] using h.content
  · refine ⟨?_, ?_, ?_⟩
    · simp only [Module.eventHandler, herr, moduleEnqueueMsg, Module.sendError, ne_eq,
        not_false_eq_true, if_true, List.map_append, drop_request, hrequest, h.accounts,
        List.filterMap_nil, List.append_nil, List.append_assoc]
    · intro r hr
      simp only [Module.eventHandler, herr, Module.sendError, ne_eq, not_false_eq_true, if_true,
        List.mem_append] at hr
      rcases hr with hr | hr
      · exact h.sound r hr
      · exact sound_of_dropped (drop_dropped hr)
    · intro p
      simp only [Module.eventHandler, herr, Module.sendError, Module.content, ne_eq,
        not_false_eq_true, if_true, List.foldl_append]
      rw [foldl_replay_of_dropped fun r hr => drop_dropped hr]
      exact h.content p

theorem handle_inv {msg : Msg Path} {rest : List (Msg Path)} (h : Inv files m)
    (hqueue : m.queue = msg :: rest) (io : Io) :
    Inv files (Module.handle { m with queue := rest } io msg) := by
  obtain ⟨rs, hrs, hs⟩ := handle_settles { m with queue := rest } io msg
  have hrequest : (msg :: rest).filterMap Msg.request =
      msg.request.toList ++ rest.filterMap Msg.request := by
    cases msg <;> rfl
  refine ⟨?_, ?_, fun p => ?_⟩
  · rw [hs.requested, hs.settled, hs.queue, List.map_append, hrs, List.append_assoc]
    simpa only [hqueue, hrequest] using h.accounts
  · rw [hs.settled]
    intro r hr
    exact (List.mem_append.1 hr).elim (h.sound r) (hs.sound r)
  · rw [hs.content, hs.settled, List.foldl_append, ← h.content]
    rfl

theorem step_inv {e : Event Path} (h : Inv files m) (hstep : m.step e = some m') :
    Inv files m' := by
  cases e with
  | deliver msg putErr =>
    have hstart (n : ℕ) : Inv files { m with errors := n } := ⟨h.accounts, h.sound, h.content⟩
    cases msg with
    | error =>
      simp only [Module.step] at hstep
      split_ifs at hstep
      cases hstep
      exact eventHandler_inv (hstart _) _ _
    | moduleState mainReady =>
      simp only [Module.step] at hstep
      split_ifs at hstep
      cases hstep
      exact eventHandler_inv h _ _
    | data request =>
      simp only [Module.step] at hstep
      split_ifs at hstep
      cases hstep
      exact eventHandler_inv h _ _
  | dequeue io =>
    cases hqueue : m.queue with
    | nil => simp [Module.step, hqueue] at hstep
    | cons msg rest =>
      simp only [Module.step, hqueue, Option.some.injEq] at hstep
      subst hstep
      exact handle_inv h hqueue io

theorem inv_of_run (h : (fsModule files).Run evs m) : Inv files m :=
  h.invariant (Inv files) ⟨rfl, by simp [fsModule, Module.start], fun _ => rfl⟩
    fun _ _ _ hinv _ hstep => step_inv hinv hstep

/-- Where the first request is the write and all others are appends, the parts they
store lie one behind the other. -/
theorem replay_eq_flatten {rs : List (Settled Path)}
    (hseq : WriteThenAppends ((rs.filter (·.request.changes p)).map (·.request))) :
    rs.foldl (Settled.replay p) [] =
      ((rs.filter (·.request.changes p)).map Settled.stored).flatten := by
  induction rs using List.reverseRecOn with
  | nil => rfl
  | append_singleton rs r ih =>
    obtain ⟨n, hn⟩ := hseq
    have hpre : WriteThenAppends ((rs.filter (·.request.changes p)).map (·.request)) := by
      refine ⟨n, List.IsPrefix.trans ?_ hn⟩
      simp only [List.filter_append, List.map_append]
      exact List.prefix_append _ _
    rw [List.foldl_append, ih hpre, List.foldl_cons, List.foldl_nil, List.filter_append,
      List.map_append, List.flatten_append]
    by_cases hr : r.request.changes p
    · have htypes : (rs.filter (·.request.changes p)).map (·.request.type) ++ [r.request.type] <+:
          .writeFile :: List.replicate n .appendFile := by
        simpa [hr, Function.comp_def] using hn
      cases hrs : rs.filter (·.request.changes p) with
      | nil =>
        have htype : r.request.type = .writeFile := by
          simpa [hrs, List.cons_prefix_cons] using htypes
        simp [Settled.replay, hr, htype, overwrite]
      | cons r₀ rest =>
        have htype : r.request.type = .appendFile := by
          rw [hrs, List.map_cons, List.cons_append, List.cons_prefix_cons] at htypes
          exact List.eq_of_mem_replicate (htypes.2.subset (by simp))
        simp [Settled.replay, hr, htype]
    · simp [Settled.replay, hr]

omit [DecidableEq Path] in
/-- As long as nothing is stored behind a request that is not there in full, what is
stored is a first part of what was requested. -/
theorem prefix_stored {rs : List (Settled Path)} (hsound : ∀ r ∈ rs, r.stored <+: r.request.dyndata)
    (hfull : rs.Pairwise fun a b => a.stored = a.request.dyndata ∨ b.stored = []) :
    (rs.map Settled.stored).flatten <+: (rs.map (·.request.dyndata)).flatten := by
  induction rs with
  | nil => exact List.prefix_refl _
  | cons r rest ih =>
    obtain ⟨hfirst, hrest⟩ := List.pairwise_cons.1 hfull
    simp only [List.map_cons, List.flatten_cons]
    by_cases hr : r.stored = r.request.dyndata
    · rw [hr, List.prefix_append_right_inj]
      exact ih (fun r' hr' => hsound r' (List.mem_cons_of_mem _ hr')) hrest
    · have hnone : (rest.map Settled.stored).flatten = [] := by
        simp only [List.flatten_eq_nil_iff, List.mem_map, forall_exists_index, and_imp,
          forall_apply_eq_imp_iff₂]
        exact fun r' hr' => (hfirst r' hr').resolve_left hr
      rw [hnone, List.append_nil]
      exact (hsound r (by simp)).trans (List.prefix_append _ _)

theorem dequeue_settled {io : Io} {request : FsDataEvent Path} {rest : List (Msg Path)}
    (hqueue : m.queue = .data request :: rest) (hstep : m.step (.dequeue io) = some m') :
    ∃ fate, m'.settled = m.settled ++ [⟨request, fate⟩] ∧ (fate = .dropped ↔ m.state ≠ .ready) := by
  simp only [Module.step, hqueue, Option.some.injEq] at hstep
  subst hstep
  cases m.state with
  | init => exact ⟨.dropped, by simp only [Module.handle, Module.settle], by simp⟩
  | error => exact ⟨.dropped, by simp only [Module.handle, Module.settle], by simp⟩
  | ready =>
    obtain ⟨type, q, bs⟩ := request
    cases type <;>
      exact ⟨.handled _ _, by simp only [Module.handle, Module.onStateReady,
        checked_settled, Module.settle]; rfl, by simp⟩

theorem requestsOn_accounts (h : Inv files m) (p : Path) :
    (m.settledOn p).map (·.request) <+: m.requestsOn p := by
  rw [Module.requestsOn, h.accounts, List.filter_append, List.filter_map]
  exact List.prefix_append _ _

/-- The file is made of one first part of each request's payload, in the order of the
requests: all of it where the request was handled and no call failed, none where it
was dropped. So it is a first part of what was requested until something is stored
behind a request that is not there in full. -/
theorem file_parts (hnew : files p = none) (h : (fsModule files).Run evs m)
    (hseq : WriteThenAppends (m.requestsOn p)) :
    m.content p = ((m.settledOn p).map Settled.stored).flatten ∧
      (m.settledOn p).map (·.request) <+: m.requestsOn p ∧
      (∀ r ∈ m.settledOn p, r.stored <+: r.request.dyndata ∧
        (r.fate = .dropped → r.stored = []) ∧
        ∀ bs, r.fate = .handled 0 bs → r.stored = r.request.dyndata) ∧
      ((m.settledOn p).Pairwise (fun a b => a.stored = a.request.dyndata ∨ b.stored = []) →
        m.content p <+: ((m.requestsOn p).map (·.dyndata)).flatten) := by
  have hinv := inv_of_run h
  have hpre := requestsOn_accounts hinv p
  have hseq' : WriteThenAppends ((m.settledOn p).map (·.request)) := by
    obtain ⟨n, hn⟩ := hseq
    exact ⟨n, (hpre.map _).trans hn⟩
  have hcontent : m.content p = ((m.settledOn p).map Settled.stored).flatten := by
    rw [hinv.content, hnew, Option.getD_none]
    exact replay_eq_flatten hseq'
  have hsound : ∀ r ∈ m.settledOn p, r.Sound := fun r hr =>
    hinv.sound r (List.mem_filter.1 hr).1
  refine ⟨hcontent, hpre, fun r hr => ⟨(hsound r hr).1, fun hfate => ?_, fun bs hfate => ?_⟩, ?_⟩
  · simp [Settled.stored, hfate]
  · have htype : r.request.type = .writeFile ∨ r.request.type = .appendFile := by
      obtain ⟨n, hn⟩ := hseq'
      have hmem : r.request.type ∈ FsDataEventType.writeFile :: List.replicate n .appendFile :=
        hn.subset (List.mem_map_of_mem (List.mem_map_of_mem hr))
      exact (List.mem_cons.1 hmem).imp_right List.eq_of_mem_replicate
    rw [← (hsound r hr).2 bs hfate htype]
    simp [Settled.stored, hfate]
  · intro hfull
    rw [hcontent]
    refine (prefix_stored (fun r hr => (hsound r hr).1) hfull).trans ?_
    have hflatten := (hpre.map (·.dyndata)).flatten
    rwa [List.map_map] at hflatten

def Io.good (size : ℕ) : Io := ⟨0, 0, size, size, 0, 0⟩
def Io.unopened : Io := ⟨0, enomem, 0, 0, 0, 0⟩

/-- The second request fails, the third one is dropped in `STATE_ERROR`, and the
fourth comes after the module has set up the file system again. -/
def lossyRun : List (Event String) :=
  [.deliver (.moduleState true) 0, .dequeue (.good 0),
    .deliver (.data ⟨.writeFile, "a", [1]⟩) 0, .dequeue (.good 1),
    .deliver (.data ⟨.appendFile, "a", [2]⟩) 0, .dequeue .unopened,
    .deliver (.data ⟨.appendFile, "a", [3]⟩) 0, .deliver .error 0,
    .dequeue (.good 1), .dequeue (.good 0),
    .deliver (.data ⟨.appendFile, "a", [4]⟩) 0, .dequeue (.good 1)]

theorem lossyRun_exec : ∃ m, (fsModule fun _ => none).Run lossyRun m ∧ m.content "a" = [1, 4] ∧
    m.requestsOn "a" = [⟨.writeFile, "a", [1]⟩, ⟨.appendFile, "a", [2]⟩, ⟨.appendFile, "a", [3]⟩,
      ⟨.appendFile, "a", [4]⟩] :=
  ⟨_, Lts.run_of_exec rfl, by decide, by rfl⟩

theorem file_parts_lossy : ∃ m, (fsModule fun _ => none).Run lossyRun m ∧
    m.content "a" = [1, 4] ∧ m.content "a" = ((m.settledOn "a").map Settled.stored).flatten := by
  obtain ⟨m, hrun, hcontent, hrequests⟩ := lossyRun_exec
  refine ⟨m, hrun, hcontent, (file_parts rfl hrun ?_).1⟩
  rw [hrequests]
  exact ⟨3, List.prefix_refl _⟩

/-- A failed append and a dropped one leave a gap in front of the next. -/
theorem file_has_gap : ¬ ∀ (evs : List (Event String)) (m : Module String),
    (fsModule fun _ => none).Run evs m → WriteThenAppends (m.requestsOn "a") →
      m.content "a" <+: ((m.requestsOn "a").map (·.dyndata)).flatten := by
  intro h
  obtain ⟨m, hrun, hcontent, hrequests⟩ := lossyRun_exec
  have hprefix := h _ _ hrun (by rw [hrequests]; exact ⟨3, List.prefix_refl _⟩)
  rw [hcontent, hrequests] at hprefix
  exact absurd hprefix (by decide)

end Heaty.Fs
