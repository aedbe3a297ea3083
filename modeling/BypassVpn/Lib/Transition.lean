import Mathlib.Data.List.Basic
import Mathlib.Logic.Function.Basic

/-!
# Transition systems with guarded runs

A system is a partial step function `step : σ → Λ → Option σ`; a label says which party acts and how
the calls it makes to the outside turn out. `guard` restricts the steps of a run by the state before
the step.

* `Reachable`: the states of the runs all of whose steps meet the guard.
* **`Reachable.invariant`**: a property of the initial states that every guarded step keeps holds in
  every reachable state.
* `Reachable.simulate`: the runs of one system, matched step by step by those of another.
* `Trace`: a run with what it did, where the statement is about earlier steps.
* `run`: a list of labels, executed under a check; `reachable_of_run`: what it leads to is reachable.
-/

namespace Transition

variable {σ Λ : Type*} {step : σ → Λ → Option σ}

/-- The states of the runs from `init` all of whose steps meet `guard`. -/
inductive Reachable (step : σ → Λ → Option σ) (init : σ) (guard : σ → Λ → Prop) : σ → Prop
  | init : Reachable step init guard init
  | step {s s' : σ} {l : Λ} : Reachable step init guard s → guard s l → step s l = some s' →
      Reachable step init guard s'

/-- No restriction. -/
def anyStep : σ → Λ → Prop := fun _ _ => True

variable {init : σ} {guard : σ → Λ → Prop}

/-- A run goes on by the step `l`. -/
theorem Reachable.next {s s' : σ} (h : Reachable step init guard s) (l : Λ) (hg : guard s l)
    (hs : step s l = some s') : Reachable step init guard s' := .step h hg hs

theorem Reachable.trans {s s' : σ} (h : Reachable step init guard s) (h' : Reachable step s guard s') :
    Reachable step init guard s' := by
  induction h' with
  | init => exact h
  | step _ hg hs ih => exact .step ih hg hs

/-- **The invariant rule.** A step may use that the state before it is reachable. -/
theorem Reachable.invariant {Inv : σ → Prop} (hinit : Inv init)
    (hstep : ∀ s l s', Reachable step init guard s → Inv s → guard s l → step s l = some s' → Inv s') {s : σ}
    (h : Reachable step init guard s) : Inv s := by
  induction h with
  | init => exact hinit
  | step h hg hs ih => exact hstep _ _ _ h ih hg hs

/-- **The simulation rule.** If each step can be matched by a step of another system, and the states after them are
related again, each run can be matched by a run. -/
theorem Reachable.simulate {σ' Λ' : Type*} {step' : σ' → Λ' → Option σ'} {init' : σ'} {guard' : σ' → Λ' → Prop}
    (R : σ → σ' → Prop) (hinit : R init init')
    (hstep : ∀ s l s' t, Reachable step init guard s → R s t → guard s l → step s l = some s' →
      ∃ l' t', guard' t l' ∧ step' t l' = some t' ∧ R s' t') {s : σ} (h : Reachable step init guard s) :
    ∃ t, Reachable step' init' guard' t ∧ R s t := by
  induction h with
  | init => exact ⟨init', .init, hinit⟩
  | step h hg hs ih =>
    obtain ⟨t, ht, hR⟩ := ih
    obtain ⟨l', t', hg', hs', hR'⟩ := hstep _ _ _ t h hR hg hs
    exact ⟨t', ht.next l' hg' hs', hR'⟩

/-- A run with the steps it took and the states they were taken in, the latest first. -/
inductive Trace (step : σ → Λ → Option σ) (init : σ) : List (σ × Λ) → σ → Prop
  | init : Trace step init [] init
  | step {tr : List (σ × Λ)} {s s' : σ} {l : Λ} : Trace step init tr s → step s l = some s' →
      Trace step init ((s, l) :: tr) s'

theorem Trace.reachable {tr : List (σ × Λ)} {s : σ} (h : Trace step init tr s) :
    Reachable step init anyStep s := by
  induction h with
  | init => exact .init
  | step _ hs ih => exact .step ih trivial hs

theorem Reachable.trace {s : σ} (h : Reachable step init guard s) : ∃ tr, Trace step init tr s := by
  induction h with
  | init => exact ⟨[], .init⟩
  | step _ _ hs ih =>
    obtain ⟨tr, htr⟩ := ih
    exact ⟨_, htr.step hs⟩

/-- The state a list of labels leads to, each step checked by `ok`. -/
def run (step : σ → Λ → Option σ) (ok : σ → Λ → Bool) : σ → List Λ → Option σ
  | s, [] => some s
  | s, l :: ls => if ok s l then (step s l).bind fun s' => run step ok s' ls else none

/-- The steps that pass the check meet the guard; that the state is reachable may be used. -/
theorem Reachable.run {ok : σ → Λ → Bool}
    (hok : ∀ s l, Reachable step init guard s → ok s l = true → guard s l) {s s' : σ} {ls : List Λ}
    (h : Reachable step init guard s) (hr : Transition.run step ok s ls = some s') :
    Reachable step init guard s' := by
  induction ls generalizing s with
  | nil =>
    rw [Transition.run, Option.some.injEq] at hr
    exact hr ▸ h
  | cons l ls ih =>
    rw [Transition.run] at hr
    by_cases hl : ok s l = true
    · rw [if_pos hl] at hr
      obtain ⟨t, ht, hr⟩ := Option.bind_eq_some_iff.mp hr
      exact ih (.step h (hok s l h hl) ht) hr
    · rw [if_neg hl] at hr
      exact absurd hr (by simp)

/-- A list of labels that can be executed leads to a reachable state; `f` reads off what matters. -/
theorem reachable_of_run {β : Type*} (step : σ → Λ → Option σ) (init : σ) {c : σ → Λ → Bool}
    (hok : ∀ s l, Reachable step init guard s → c s l = true → guard s l) (ls : List Λ) (f : σ → β) {b : β}
    (h : (Transition.run step c init ls).map f = some b) :
    ∃ s, Reachable step init guard s ∧ f s = b := by
  obtain ⟨s, hs, hb⟩ := Option.map_eq_some_iff.mp h
  exact ⟨s, Reachable.init.run hok hs, hb⟩

theorem reachable_of_guarded_run {β : Type*} {step : σ → Λ → Option σ} {init : σ} {guard : σ → Λ → Prop}
    [∀ s l, Decidable (guard s l)] {ls : List Λ} {f : σ → β} {b : β}
    (h : (Transition.run step (fun s l => decide (guard s l)) init ls).map f = some b) :
    ∃ s, Reachable step init guard s ∧ f s = b :=
  reachable_of_run step init (fun _ _ _ hl => of_decide_eq_true hl) ls f h

theorem anyStep_of_true (s : σ) (l : Λ) (_ : Reachable step init anyStep s)
    (_ : (fun _ _ => true : σ → Λ → Bool) s l = true) : anyStep s l := trivial

end Transition
