import Mathlib.Logic.Basic

/-! Transition systems given by a partial step function. A state is reachable when a chain of
admissible events leads to it from the initial state; `run` replays a list of events, and
invariants are proved once for `step` and then hold along every run. `Run` is the same for a step
relation whose steps carry labels. -/
namespace QuicGo.Lib

variable {σ ε : Type*}

/-- States reachable from `init` by steps on events that `adm` admits. A step that returns
`none` (an error or a panic of the modelled code) ends the run. -/
inductive Reachable (step : σ → ε → Option σ) (adm : σ → ε → Prop) (init : σ) : σ → Prop where
  | init : Reachable step adm init init
  | step {s s' : σ} {e : ε} :
      Reachable step adm init s → adm s e → step s e = some s' → Reachable step adm init s'

section Invariants

variable {step : σ → ε → Option σ} {adm : σ → ε → Prop} {init : σ}

theorem Reachable.invariant {P : σ → Prop} (h0 : P init)
    (hstep : ∀ s e s', P s → adm s e → step s e = some s' → P s')
    {s : σ} (hs : Reachable step adm init s) : P s := by
  induction hs with
  | init => exact h0
  | step _ he hst ih => exact hstep _ _ _ ih he hst

theorem Reachable.invariant_of_imp {P Q : σ → Prop} (hQP : ∀ s, Q s → P s) (h0 : Q init)
    (hstep : ∀ s e s', Q s → adm s e → step s e = some s' → Q s')
    {s : σ} (hs : Reachable step adm init s) : P s :=
  hQP s (hs.invariant h0 hstep)

theorem Reachable.mono {adm' : σ → ε → Prop} (hadm : ∀ s e, adm s e → adm' s e)
    {s : σ} (hs : Reachable step adm init s) : Reachable step adm' init s := by
  induction hs with
  | init => exact .init
  | step _ he hst ih => exact .step ih (hadm _ _ he) hst

end Invariants

section Runs

variable (step : σ → ε → Option σ) (adm : σ → ε → Prop) [∀ s e, Decidable (adm s e)]

/-- Replay a list of events; an inadmissible event or a failed step ends the run in `none`. -/
def run : σ → List ε → Option σ
  | s, [] => some s
  | s, e :: es => if adm s e then (step s e).bind (run · es) else none

variable {step adm}

theorem reachable_of_run {init s s' : σ} {es : List ε} (hs : Reachable step adm init s)
    (hr : run step adm s es = some s') : Reachable step adm init s' := by
  induction es generalizing s with
  | nil =>
    simp only [run, Option.some.injEq] at hr
    exact hr ▸ hs
  | cons e es ih =>
    by_cases he : adm s e
    · simp only [run, if_pos he] at hr
      cases hst : step s e with
      | none => simp [hst] at hr
      | some s₁ =>
        rw [hst, Option.bind_some] at hr
        exact ih (.step hs he hst) hr
    · simp [run, if_neg he] at hr

theorem run_append (s : σ) (es₁ es₂ : List ε) :
    run step adm s (es₁ ++ es₂) = (run step adm s es₁).bind (run step adm · es₂) := by
  induction es₁ generalizing s with
  | nil => simp [run]
  | cons e es ih =>
    simp only [List.cons_append, run]
    split
    · cases step s e with
      | none => simp
      | some s₁ => simp [ih]
    · simp

/-- The induction rule for invariants that depend on the events replayed so far, as a ghost
history: true of the events before the run, and kept by every admissible step that appends its
event. -/
theorem run_invariant {P : List ε → σ → Prop}
    (hstep : ∀ past s e s', P past s → adm s e → step s e = some s' → P (past ++ [e]) s')
    {past : List ε} {s s' : σ} {es : List ε} (hs : P past s) (hr : run step adm s es = some s') :
    P (past ++ es) s' := by
  induction es generalizing past s with
  | nil =>
    simp only [run, Option.some.injEq] at hr
    subst hr
    simpa using hs
  | cons e es ih =>
    by_cases he : adm s e
    · simp only [run, if_pos he] at hr
      cases hst : step s e with
      | none => simp [hst] at hr
      | some s₁ =>
        rw [hst, Option.bind_some] at hr
        simpa using ih (hstep _ _ _ _ hs he hst) hr
    · simp [run, if_neg he] at hr

theorem run_invariant_of_nil {P : List ε → σ → Prop}
    (hstep : ∀ past s e s', P past s → adm s e → step s e = some s' → P (past ++ [e]) s')
    {s s' : σ} {es : List ε} (hs : P [] s) (hr : run step adm s es = some s') : P es s' := by
  simpa using run_invariant hstep hs hr

theorem run_preserves {P : σ → Prop} (hstep : ∀ s e s', P s → adm s e → step s e = some s' → P s')
    {s s' : σ} {es : List ε} (hs : P s) (hr : run step adm s es = some s') : P s' :=
  run_invariant_of_nil (P := fun _ => P) (fun _ => hstep) hs hr

/-- A run from the initial state that ends in a state with property `p` exhibits a reachable
state with that property. -/
theorem exists_reachable_of_run {init : σ} {es : List ε} {p : σ → Prop}
    (h : ∃ s, run step adm init es = some s ∧ p s) : ∃ s, Reachable step adm init s ∧ p s := by
  obtain ⟨s, hr, hp⟩ := h
  exact ⟨s, reachable_of_run .init hr, hp⟩

end Runs

/-! ### Labelled runs

Runs of a step relation whose steps carry a label, such as the value a call returns. -/

section Labelled

variable {α β τ : Type*}

/-- The runs of a labelled step relation, with the labels of their steps in order. -/
inductive Run (step : σ → α → σ → Prop) : σ → List α → σ → Prop where
  | nil (s : σ) : Run step s [] s
  | snoc {s s₁ s₂ : σ} {ls : List α} {l : α} :
      Run step s ls s₁ → step s₁ l s₂ → Run step s (ls ++ [l]) s₂

variable {step : σ → α → σ → Prop}

/-- The induction rule for invariants that depend on the labels so far: true at the start and
kept by every step, which appends its label. -/
theorem Run.invariant {P : List α → σ → Prop} {s s' : σ} {ls : List α} (h0 : P [] s)
    (hstep : ∀ ls s₁ l s₂, P ls s₁ → step s₁ l s₂ → P (ls ++ [l]) s₂)
    (hr : Run step s ls s') : P ls s' := by
  induction hr with
  | nil => exact h0
  | snoc _ hst ih => exact hstep _ _ _ _ ih hst

theorem Run.map {step₂ : τ → β → τ → Prop} (f : σ → τ) (g : α → β)
    (h : ∀ s l s', step s l s' → step₂ (f s) (g l) (f s')) {s s' : σ} {ls : List α}
    (hr : Run step s ls s') : Run step₂ (f s) (ls.map g) (f s') := by
  induction hr with
  | nil => exact .nil _
  | snoc _ hst ih =>
    rw [List.map_append, List.map_singleton]
    exact .snoc ih (h _ _ _ hst)

end Labelled

end QuicGo.Lib
