import Mathlib.Data.Option.Basic

/-!
# Runs of a partial machine

A machine is a partial step function `step : ε → σ → Option σ` over events `ε`
(`none`: the event cannot be taken, or the program faults or hangs on it).
`Reach step ok init` are the states of the runs that start in `init` and whose
events all meet the guard `ok` in the state they are taken in.

    Reach.invariant         : holds at the start, kept by every guarded step → holds throughout
    Reach.exists_of_measure : guarded steps that make a measure smaller lead somewhere
    exec_map                : what the steps do not look at may be changed
    exists_of_exec          : an executable run is a run
-/

namespace Runs

variable {σ ε : Type}

/-- States of the runs from `init` whose every event meets `ok`. -/
inductive Reach (step : ε → σ → Option σ) (ok : ε → σ → Prop) (init : σ → Prop) : σ → Prop
  | init {s : σ} : init s → Reach step ok init s
  | next {s s' : σ} (e : ε) : Reach step ok init s → ok e s → step e s = some s' →
      Reach step ok init s'

variable {step : ε → σ → Option σ} {ok : ε → σ → Prop} {init : σ → Prop}

theorem Reach.invariant {I : σ → Prop} (h0 : ∀ s, init s → I s)
    (hstep : ∀ e s s', I s → ok e s → step e s = some s' → I s') {s : σ}
    (h : Reach step ok init s) : I s := by
  induction h with
  | init hi => exact h0 _ hi
  | next e _ hok hs ih => exact hstep e _ _ ih hok hs

/-- A weaker guard has more runs. -/
theorem Reach.mono {ok' : ε → σ → Prop} (hok : ∀ e s, ok e s → ok' e s) {s : σ}
    (h : Reach step ok init s) : Reach step ok' init s := by
  induction h with
  | init hi => exact .init hi
  | next e _ he hs ih => exact .next e ih (hok e _ he) hs

/-- Where every state of `I` has `P` or a step to a smaller one of `I`, a state with `P` is reached. -/
theorem Reach.exists_of_measure {I P : σ → Prop} (f : σ → Nat)
    (h : ∀ s, I s → P s ∨ ∃ e s', ok e s ∧ step e s = some s' ∧ I s' ∧ f s' < f s) {s : σ}
    (hr : Reach step ok init s) (hs : I s) : ∃ s', Reach step ok init s' ∧ I s' ∧ P s' := by
  induction hn : f s using Nat.strongRecOn generalizing s with
  | ind n ih =>
    obtain hP | ⟨e, s', hok, hstep, hs', hlt⟩ := h s hs
    · exact ⟨s, hr, hs, hP⟩
    · exact ih (f s') (by omega) (.next e hr hok hstep) hs' rfl

/-- Run the events in order; `none` where one fails or does not meet the guard. -/
def exec (step : ε → σ → Option σ) (ok : ε → σ → Prop) [∀ e s, Decidable (ok e s)] :
    List ε → σ → Option σ
  | [], s => some s
  | e :: es, s => if ok e s then (step e s).bind (exec step ok es) else none

variable [∀ e s, Decidable (ok e s)]

theorem reach_of_exec (es : List ε) : ∀ {s s' : σ}, Reach step ok init s →
    exec step ok es s = some s' → Reach step ok init s' := by
  induction es with
  | nil =>
    intro s s' hs h
    cases h
    exact hs
  | cons e es ih =>
    intro s s' hs h
    rw [exec] at h
    split at h
    · next he =>
      obtain ⟨s1, h1, h2⟩ := Option.bind_eq_some_iff.mp h
      exact ih (.next e hs he h1) h2
    · simp at h

/-- A map that the steps and the guard commute with maps runs to runs. -/
theorem exec_map {f : σ → σ} (hok : ∀ e s, ok e (f s) ↔ ok e s)
    (hstep : ∀ e s, step e (f s) = (step e s).map f) (es : List ε) : ∀ s,
    exec step ok es (f s) = (exec step ok es s).map f := by
  induction es with
  | nil => exact fun _ => rfl
  | cons e es ih =>
    intro s
    rw [exec, exec, hstep]
    by_cases he : ok e s
    · rw [if_pos he, if_pos ((hok e s).mpr he)]
      cases step e s with
      | none => rfl
      | some s' => exact ih s'
    · rw [if_neg he, if_neg fun h => he ((hok e s).mp h)]
      rfl

variable (step ok) in
/-- A list of events that executes to a state with `p` reaches a state with `p`. -/
theorem exists_of_exec {s : σ} (h0 : init s) (es : List ε) (p : σ → Bool)
    (h : (exec step ok es s).any p = true) :
    ∃ s', exec step ok es s = some s' ∧ Reach step ok init s' ∧ p s' = true := by
  cases hs : exec step ok es s with
  | none => rw [hs] at h; cases h
  | some s' => rw [hs] at h; exact ⟨s', rfl, reach_of_exec es (.init h0) hs, h⟩

end Runs
