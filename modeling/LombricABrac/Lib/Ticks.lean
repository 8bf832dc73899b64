import Mathlib.Tactic.Ring
import Mathlib.Data.Int.Basic

/-!
# A `while` loop of timed passes

`loop pass dt fuel t s` runs `pass` at the times `t, t + dt, t + 2 dt, …` while it
answers `true`, and returns the state after the first pass that answers `false`
(`none`: the fuel ran out first).

    loop_rule       : an invariant and the last pass give the postcondition
    loop_terminates : if the size never grows, and a run on which it never shrinks
                      ends in a pass that answers `false`, then the loop returns
-/

namespace Ticks

variable {σ : Type} (pass : Int → σ → Bool × σ) (dt : Int)

def loop : Nat → Int → σ → Option σ
  | 0, _, _ => none
  | fuel + 1, t, s => if (pass t s).1 then loop fuel (t + dt) (pass t s).2 else some (pass t s).2

/-- The state after `n` passes, whatever they answered. -/
def after : Nat → Int → σ → σ
  | 0, _, s => s
  | n + 1, t, s => after n (t + dt) (pass t s).2

variable {pass dt}

/-- The first pass shifts the clock by one step. -/
theorem shift (t : Int) (n : Nat) : t + dt + n * dt = t + (n + 1 : Nat) * dt := by
  push_cast
  ring

theorem after_succ (n : Nat) : ∀ (t : Int) (s : σ),
    after pass dt (n + 1) t s = (pass (t + n * dt) (after pass dt n t s)).2 := by
  induction n with
  | zero => intro t s; simp [after]
  | succ n ih =>
    intro t s
    rw [after, ih (t + dt) (pass t s).2, shift, after]

theorem after_add (m n : Nat) : ∀ (t : Int) (s : σ),
    after pass dt (m + n) t s = after pass dt n (t + m * dt) (after pass dt m t s) := by
  induction m with
  | zero => intro t s; simp [after]
  | succ m ih =>
    intro t s
    rw [Nat.add_right_comm, after, ih (t + dt) (pass t s).2, shift, after]

theorem after_invariant {I : σ → Prop} (hI : ∀ t s, I s → I (pass t s).2) (n : Nat) :
    ∀ (t : Int) (s : σ), I s → I (after pass dt n t s) := by
  induction n with
  | zero => intro t s h; exact h
  | succ n ih => intro t s h; exact ih _ _ (hI t s h)

theorem loop_rule {I Q : σ → Prop} (hI : ∀ t s, I s → I (pass t s).2)
    (hQ : ∀ t s, I s → (pass t s).1 = false → Q (pass t s).2) (fuel : Nat) :
    ∀ (t : Int) (s s' : σ), I s → loop pass dt fuel t s = some s' → Q s' := by
  induction fuel with
  | zero => intro t s s' _ h; cases h
  | succ fuel ih =>
    intro t s s' hs h
    rw [loop] at h
    split at h
    · exact ih _ _ _ (hI t s hs) h
    · next hrun =>
      cases h
      exact hQ t s hs (by simpa using hrun)

/-- What every pass keeps, the loop keeps. -/
theorem loop_keeps {I : σ → Prop} (hI : ∀ t s, I s → I (pass t s).2) (fuel : Nat) (t : Int)
    (s s' : σ) (hs : I s) (h : loop pass dt fuel t s = some s') : I s' :=
  loop_rule hI (fun t s hs _ => hI t s hs) fuel t s s' hs h

/-- A pass that answers `false` is found. -/
theorem exists_loop_of_false (n : Nat) : ∀ (t : Int) (s : σ),
    (pass (t + n * dt) (after pass dt n t s)).1 = false → ∃ fuel s', loop pass dt fuel t s = some s' := by
  induction n with
  | zero =>
    intro t s h
    refine ⟨1, (pass t s).2, ?_⟩
    simp only [after, Nat.cast_zero, zero_mul, add_zero] at h
    simp [loop, h]
  | succ n ih =>
    intro t s h
    by_cases hrun : (pass t s).1 = true
    · rw [after, ← shift] at h
      obtain ⟨fuel, s', hl⟩ := ih (t + dt) (pass t s).2 h
      exact ⟨fuel + 1, s', by rw [loop, if_pos hrun]; exact hl⟩
    · exact ⟨1, (pass t s).2, by rw [loop, if_neg hrun]⟩

/-- If the loop returns from the state after `n` passes, it returns from the start. -/
theorem exists_loop_of_after (n : Nat) : ∀ (t : Int) (s : σ),
    (∃ fuel s', loop pass dt fuel (t + n * dt) (after pass dt n t s) = some s') →
    ∃ fuel s', loop pass dt fuel t s = some s' := by
  induction n with
  | zero => intro t s h; simpa [after] using h
  | succ n ih =>
    intro t s h
    by_cases hrun : (pass t s).1 = true
    · rw [after, ← shift] at h
      obtain ⟨fuel, s', hl⟩ := ih (t + dt) (pass t s).2 h
      exact ⟨fuel + 1, s', by rw [loop, if_pos hrun]; exact hl⟩
    · exact ⟨1, (pass t s).2, by rw [loop, if_neg hrun]⟩

/-- **Termination.**  Induction on the size: either it shrinks after some passes,
or it never does and the run is quiet. -/
theorem loop_terminates {I : σ → Prop} (hI : ∀ t s, I s → I (pass t s).2) (size : σ → Nat)
    (hsize : ∀ t s, size (pass t s).2 ≤ size s)
    (hquiet : ∀ t s, I s → (∀ n, size (after pass dt n t s) = size s) →
      ∃ n : Nat, (pass (t + n * dt) (after pass dt n t s)).1 = false)
    (t : Int) (s : σ) (hs : I s) : ∃ fuel s', loop pass dt fuel t s = some s' := by
  induction hk : size s using Nat.strongRecOn generalizing t s with
  | ind k ih =>
    by_cases hq : ∀ n, size (after pass dt n t s) = size s
    · obtain ⟨n, hn⟩ := hquiet t s hs hq
      exact exists_loop_of_false n t s hn
    · obtain ⟨n, hn⟩ := not_forall.mp hq
      have hle : size (after pass dt n t s) ≤ size s :=
        after_invariant (I := fun x => size x ≤ size s) (fun t x hx => (hsize t x).trans hx)
          n t s le_rfl
      refine exists_loop_of_after n t s ?_
      exact ih _ (by omega) _ _ (after_invariant hI n t s hs) rfl

end Ticks
