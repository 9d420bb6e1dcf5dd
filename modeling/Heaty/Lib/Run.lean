import Mathlib.Tactic

/-! Runs of a labelled transition system, with the induction rules that the
invariant proofs use. A step is a partial function: `none` says that the
environment cannot deliver the event in that state. -/

structure Lts (σ ε : Type) where
  init : σ
  step : σ → ε → Option σ

namespace Lts

variable {σ ε : Type}

/-- Runs from the initial state, every step of which meets `ok`. -/
inductive RunOf (M : Lts σ ε) (ok : σ → ε → Prop) : List ε → σ → Prop
  | nil : RunOf M ok [] M.init
  | snoc {evs : List ε} {s s' : σ} {e : ε} :
      RunOf M ok evs s → ok s e → M.step s e = some s' → RunOf M ok (evs ++ [e]) s'

/-- All runs. -/
abbrev Run (M : Lts σ ε) : List ε → σ → Prop := M.RunOf fun _ _ => True

variable {M : Lts σ ε} {ok ok' : σ → ε → Prop} {evs : List ε} {s : σ}

/-- What holds initially and is kept by every step that meets `ok` holds in
every state such a run reaches. -/
theorem RunOf.invariant (I : σ → Prop) (hinit : I M.init)
    (hstep : ∀ s e s', I s → ok s e → M.step s e = some s' → I s') (h : M.RunOf ok evs s) :
    I s := by
  induction h with
  | nil => exact hinit
  | snoc _ hok hs ih => exact hstep _ _ _ ih hok hs

theorem RunOf.mono (hle : ∀ s e, ok s e → ok' s e) (h : M.RunOf ok evs s) : M.RunOf ok' evs s := by
  induction h with
  | nil => exact .nil
  | snoc _ hok hs ih => exact .snoc ih (hle _ _ hok) hs

theorem RunOf.run (h : M.RunOf ok evs s) : M.Run evs s := h.mono fun _ _ _ => trivial

/-- A run whose events all have a property is a run of such steps. -/
theorem RunOf.restrict {P : ε → Prop} (h : M.RunOf ok evs s) (hP : ∀ e ∈ evs, P e) :
    M.RunOf (fun _ e => P e) evs s := by
  induction h with
  | nil => exact .nil
  | snoc _ _ hs ih =>
    exact .snoc (ih fun e he => hP e (List.mem_append_left _ he)) (hP _ (by simp)) hs

/-- Every prefix of a run is a run. -/
theorem RunOf.of_prefix {pre : List ε} (h : M.RunOf ok evs s) (hp : pre <+: evs) :
    ∃ t, M.RunOf ok pre t := by
  induction h with
  | nil =>
    rw [List.prefix_nil.1 hp]
    exact ⟨_, .nil⟩
  | snoc ht hok hs ih =>
    rcases List.prefix_concat_iff.1 hp with rfl | hp
    · exact ⟨_, .snoc ht hok hs⟩
    · exact ih hp

/-- Events lead to at most one state. -/
theorem RunOf.det {t : σ} (h : M.RunOf ok evs s) (h' : M.RunOf ok' evs t) : s = t := by
  induction h generalizing t with
  | nil =>
    generalize hnil : ([] : List ε) = evs at h'
    cases h' with
    | nil => rfl
    | snoc => simp at hnil
  | @snoc evs s s₁ e _ _ hs ih =>
    generalize hcat : evs ++ [e] = evs' at h'
    cases h' with
    | nil => simp at hcat
    | snoc ht _ hs' =>
      obtain ⟨rfl, he⟩ := List.append_inj' hcat rfl
      cases he
      cases ih ht
      exact Option.some.inj (hs.symm.trans hs')

/-- A property of every state that a run goes through. -/
def Always (M : Lts σ ε) (P : σ → Prop) (evs : List ε) : Prop :=
  ∀ pre t, pre <+: evs → M.Run pre t → P t

/-- What an invariant of guarded steps implies holds all through a run of them. -/
theorem RunOf.always {P : σ → Prop} (I : σ → Prop) (hinit : I M.init) (hgood : ∀ s, I s → P s)
    (hstep : ∀ s e s', I s → ok s e → M.step s e = some s' → I s') (h : M.RunOf ok evs s) :
    M.Always P evs := by
  intro pre t hp ht
  obtain ⟨t', ht'⟩ := h.of_prefix hp
  rw [ht.det ht']
  exact hgood _ (ht'.invariant I hinit hstep)

/-- Where a step from a good state leads to a good one just when it meets `ok`, a run
goes through good states just when all its steps do. -/
theorem RunOf.always_iff {P I : σ → Prop} (hinit : I M.init) (hgood : ∀ s, I s → P s)
    (hkeep : ∀ s e s', I s → ok s e → M.step s e = some s' → I s')
    (hneed : ∀ s e s', I s → M.step s e = some s' → P s' → ok s e) (h : M.Run evs s) :
    M.Always P evs ↔ M.RunOf ok evs s := by
  constructor
  · intro halways
    induction h with
    | nil => exact .nil
    | @snoc evs s s' e hrun _ hs ih =>
      have hpre := ih fun pre t hp => halways pre t (hp.trans (List.prefix_append _ _))
      have hlast := halways _ _ (List.prefix_refl _) (.snoc hrun trivial hs)
      exact .snoc hpre (hneed _ _ _ (hpre.invariant I hinit hkeep) hs hlast) hs
  · exact RunOf.always I hinit hgood hkeep

/-- The same steps from another state. -/
def after (M : Lts σ ε) (s : σ) : Lts σ ε := { M with init := s }

theorem RunOf.append {evs' : List ε} {s' : σ} (h : M.RunOf ok evs s)
    (h' : (M.after s).RunOf ok evs' s') : M.RunOf ok (evs ++ evs') s' := by
  induction h' with
  | nil =>
    rw [List.append_nil]
    exact h
  | snoc _ hok hs ih =>
    rw [← List.append_assoc]
    exact .snoc ih hok hs

/-- Where each step lowers a measure, a run is no longer than it is at the start. -/
theorem RunOf.length_le {measure : σ → ℕ} (I : σ → Prop) (hinit : I M.init)
    (hstep : ∀ s e s', I s → ok s e → M.step s e = some s' → I s' ∧ measure s' < measure s)
    (h : M.RunOf ok evs s) : I s ∧ evs.length + measure s ≤ measure M.init := by
  induction h with
  | nil => exact ⟨hinit, by simp⟩
  | snoc _ hok hs ih =>
    obtain ⟨hI, hlt⟩ := hstep _ _ _ ih.1 hok hs
    have hle := ih.2
    refine ⟨hI, ?_⟩
    rw [List.length_append, List.length_singleton]
    omega

/-- Where every step lowers a measure, steps can be taken until there is none left. -/
theorem exists_stuck {measure : σ → ℕ} (I : σ → Prop)
    (hstep : ∀ s e s', I s → ok s e → M.step s e = some s' → I s' ∧ measure s' < measure s)
    {s : σ} (hs : I s) :
    ∃ evs s', (M.after s).RunOf ok evs s' ∧ I s' ∧ ∀ e, ok s' e → M.step s' e = none := by
  induction hn : measure s using Nat.strong_induction_on generalizing s with
  | _ n ih =>
    by_cases hstuck : ∀ e, ok s e → M.step s e = none
    · exact ⟨[], s, .nil, hs, hstuck⟩
    · simp only [not_forall] at hstuck
      obtain ⟨e, hok, hne⟩ := hstuck
      obtain ⟨t, ht⟩ := Option.ne_none_iff_exists'.1 hne
      obtain ⟨hI, hlt⟩ := hstep s e t hs hok ht
      obtain ⟨evs, s', hrun, hs', hnone⟩ := ih _ (hn ▸ hlt) hI rfl
      have hfirst : (M.after s).RunOf ok ([] ++ [e]) t := .snoc .nil hok ht
      exact ⟨_, s', hfirst.append hrun, hs', hnone⟩

/-- The state a list of events leads to, if all of them can be delivered. -/
def exec (M : Lts σ ε) (evs : List ε) : Option σ := evs.foldlM M.step M.init

/-- The same as long as every step meets `ok`. -/
def execOf (M : Lts σ ε) (ok : σ → ε → Prop) [∀ s e, Decidable (ok s e)] (evs : List ε) :
    Option σ := evs.foldlM (fun s e => if ok s e then M.step s e else none) M.init

theorem runOf_of_exec [∀ s e, Decidable (ok s e)] (h : M.execOf ok evs = some s) :
    M.RunOf ok evs s := by
  induction evs using List.reverseRecOn generalizing s with
  | nil => cases h; exact .nil
  | append_singleton evs e ih =>
    simp only [execOf, List.foldlM_append, Option.bind_eq_bind, Option.bind_eq_some_iff,
      List.foldlM_cons, List.foldlM_nil] at h
    obtain ⟨t, ht, s', hs, he⟩ := h
    split_ifs at hs with hok
    cases he
    exact .snoc (ih ht) hok hs

theorem run_of_exec (h : M.exec evs = some s) : M.Run evs s := by
  induction evs using List.reverseRecOn generalizing s with
  | nil => cases h; exact .nil
  | append_singleton evs e ih =>
    simp only [exec, List.foldlM_append, Option.bind_eq_bind, Option.bind_eq_some_iff,
      List.foldlM_cons, List.foldlM_nil] at h
    obtain ⟨t, ht, s', hs, he⟩ := h
    cases he
    exact .snoc (ih ht) trivial hs

/-- What holds at the start and is kept, event by event, holds where a list of events leads
to. -/
theorem invariant_of_foldlM {step : σ → ε → Option σ} {start : σ} (I : List ε → σ → Prop)
    (hinit : I [] start)
    (hstep : ∀ evs s e s', I evs s → step s e = some s' → I (evs ++ [e]) s')
    (h : evs.foldlM step start = some s) : I evs s := by
  have hrun : (Lts.mk start step).Run evs s := run_of_exec h
  clear h
  induction hrun with
  | nil => exact hinit
  | snoc _ _ hs ih => exact hstep _ _ _ _ ih hs

end Lts
