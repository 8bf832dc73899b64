import Mathlib.Logic.Function.Basic
import LombricABrac.Lib.Runs

/-!
# Mutexes locked by hand

`holds v` follows one mutex along what a thread does; it fails where the thread locks the mutex it has
or releases one it has not.  In a system any number of threads make calls, one after the other, and each
call is the list of what it does to the mutexes.

    balanced_bracket  : between a lock and its release
    Inv.step          : one step of a system whose calls are balanced
    released_of_reach : there whoever has a mutex is about to release it
-/

namespace Mutex

inductive Act (V : Type) where
  | lock (v : V)
  | unlock (v : V)
  deriving DecidableEq

variable {V ι : Type} [DecidableEq V]

def holds (v : V) : Bool → List (Act V) → Option Bool
  | b, [] => some b
  | b, .lock w :: l => if w = v then if b then none else holds v true l else holds v b l
  | b, .unlock w :: l => if w = v then if b then holds v false l else none else holds v b l

/-- Each mutex is locked when it is free only, and released. -/
def Balanced (l : List (Act V)) : Prop := ∀ v, holds v false l = some false

theorem holds_append (v : V) (l l' : List (Act V)) : ∀ b,
    holds v b (l ++ l') = (holds v b l).bind fun b => holds v b l' := by
  induction l with
  | nil => exact fun _ => rfl
  | cons a l ih =>
    intro b
    cases a with
    | lock w =>
      rw [List.cons_append, holds, holds]
      by_cases hw : w = v
      · rw [if_pos hw, if_pos hw]
        cases b with
        | false => exact ih true
        | true => rfl
      · rw [if_neg hw, if_neg hw]
        exact ih b
    | unlock w =>
      rw [List.cons_append, holds, holds]
      by_cases hw : w = v
      · rw [if_pos hw, if_pos hw]
        cases b with
        | false => rfl
        | true => exact ih false
      · rw [if_neg hw, if_neg hw]
        exact ih b

theorem balanced_nil : Balanced ([] : List (Act V)) := fun _ => rfl

theorem Balanced.append {l l' : List (Act V)} (h : Balanced l) (h' : Balanced l') :
    Balanced (l ++ l') := by
  intro v
  rw [holds_append, h v]
  exact h' v

theorem balanced_flatMap {α : Type} {f : α → List (Act V)} (l : List α) (h : ∀ a ∈ l, Balanced (f a)) :
    Balanced (l.flatMap f) := by
  induction l with
  | nil => exact balanced_nil
  | cons a l ih =>
    rw [List.flatMap_cons]
    exact (h a List.mem_cons_self).append (ih fun b hb => h b (List.mem_cons_of_mem a hb))

/-- What does not touch a mutex leaves it as it is. -/
theorem holds_of_not_mem {v : V} {l : List (Act V)} (hl : .lock v ∉ l) (hu : .unlock v ∉ l) (b : Bool) :
    holds v b l = some b := by
  induction l with
  | nil => rfl
  | cons a l ih =>
    have ih := ih (fun h => hl (List.mem_cons_of_mem a h)) fun h => hu (List.mem_cons_of_mem a h)
    cases a with
    | lock w =>
      have hw : w ≠ v := fun h => hl (h ▸ List.mem_cons_self)
      rw [holds, if_neg hw, ih]
    | unlock w =>
      have hw : w ≠ v := fun h => hu (h ▸ List.mem_cons_self)
      rw [holds, if_neg hw, ih]

/-- **A bracket** around what leaves the mutex alone. -/
theorem balanced_bracket {v : V} {l : List (Act V)} (h : Balanced l) (hl : .lock v ∉ l)
    (hu : .unlock v ∉ l) : Balanced (.lock v :: l ++ [.unlock v]) := by
  intro w
  rw [List.cons_append, holds]
  by_cases hw : v = w
  · subst hw
    rw [if_pos rfl, holds_append, holds_of_not_mem hl hu]
    simp [holds]
  · rw [if_neg hw, holds_append, h w]
    simp [holds, hw]

/-- Who has the mutex has to release it. -/
theorem unlock_mem_of_holds {v : V} {l : List (Act V)} (h : holds v true l = some false) :
    .unlock v ∈ l := by
  by_contra hu
  have hl : .lock v ∉ l := by
    induction l with
    | nil => exact List.not_mem_nil
    | cons a l ih =>
      rw [List.mem_cons, not_or] at hu ⊢
      cases a with
      | lock w =>
        rw [holds] at h
        by_cases hw : w = v
        · rw [if_pos hw] at h
          cases h
        · rw [if_neg hw] at h
          exact ⟨fun he => hw (Act.lock.inj he).symm, ih h hu.2⟩
      | unlock w =>
        have hw : w ≠ v := fun he => hu.1 (he ▸ rfl)
        rw [holds, if_neg hw] at h
        exact ⟨nofun, ih h hu.2⟩
  rw [holds_of_not_mem hl hu] at h
  cases h

/-! ## Systems -/

/-- Who has each mutex, and what each thread has still to do of its call. -/
structure State (V ι : Type) where
  owner : V → Option ι
  rest : ι → List (Act V)

def State.idle : State V ι := ⟨fun _ => none, fun _ => []⟩

/-- A thread starts a call, or goes on with it. -/
inductive Event (V ι : Type) where
  | start (i : ι) (l : List (Act V))
  | go (i : ι)

variable [DecidableEq ι]

/-- `none`: the thread has a call already, has nothing to do, or waits for the mutex. -/
def step : Event V ι → State V ι → Option (State V ι)
  | .start i l, s => if s.rest i = [] then some { s with rest := Function.update s.rest i l } else none
  | .go i, s =>
    match s.rest i with
    | [] => none
    | .lock v :: l =>
      if s.owner v = none then
        some ⟨Function.update s.owner v (some i), Function.update s.rest i l⟩
      else none
    | .unlock v :: l => some ⟨Function.update s.owner v none, Function.update s.rest i l⟩

/-- The mutexes of a thread are those that the rest of its call releases. -/
def Inv (s : State V ι) : Prop := ∀ i v, holds v (decide (s.owner v = some i)) (s.rest i) = some false

/-- The calls that are started are balanced. -/
def guarded (e : Event V ι) (_ : State V ι) : Prop :=
  match e with
  | .start _ l => Balanced l
  | .go _ => True

variable {s s' : State V ι} {e : Event V ι}

theorem inv_idle : Inv (State.idle : State V ι) := fun _ _ => rfl

/-- Thread `i` goes on, and no other thread gains or loses a mutex. -/
theorem Inv.update (h : Inv s) {i : ι} {w : V} {o : Option ι} {l : List (Act V)}
    (hautres : ∀ j, j ≠ i → (o = some j ↔ s.owner w = some j))
    (hi : ∀ v, holds v (decide (Function.update s.owner w o v = some i)) l = some false) :
    Inv ⟨Function.update s.owner w o, Function.update s.rest i l⟩ := by
  intro j v
  show holds v (decide (Function.update s.owner w o v = some j)) (Function.update s.rest i l j) = some false
  by_cases hj : j = i
  · subst hj
    rw [Function.update_self]
    exact hi v
  · have howner : Function.update s.owner w o v = some j ↔ s.owner v = some j := by
      by_cases hv : v = w
      · subst hv
        rw [Function.update_self]
        exact hautres j hj
      · rw [Function.update_of_ne hv]
    rw [Function.update_of_ne hj, decide_eq_decide.mpr howner]
    exact h j v

theorem Inv.step (h : Inv s) (hok : guarded e s) (hs : step e s = some s') : Inv s' := by
  cases e with
  | start i l =>
    obtain ⟨hi, hs⟩ := Option.ite_none_right_eq_some.mp hs
    cases hs
    intro j v
    show holds v (decide (s.owner v = some j)) (Function.update s.rest i l j) = some false
    by_cases hj : j = i
    · subst hj
      have hfree := h j v
      rw [hi] at hfree
      rw [Function.update_self, Option.some.inj hfree]
      exact hok v
    · rw [Function.update_of_ne hj]
      exact h j v
  | go i =>
    rw [Mutex.step] at hs
    split at hs
    · cases hs
    · next w l hl =>
      obtain ⟨hw, hs⟩ := Option.ite_none_right_eq_some.mp hs
      cases hs
      refine h.update (fun j hj => by simp [hw, Ne.symm hj]) fun v => ?_
      have hi := h i v
      rw [hl, holds] at hi
      by_cases hv : v = w
      · subst hv
        rw [Function.update_self]
        simpa [hw] using hi
      · rw [Function.update_of_ne hv]
        simpa [Ne.symm hv] using hi
    · next w l hl =>
      cases hs
      have howner : s.owner w = some i := by
        have hi := h i w
        rw [hl, holds, if_pos rfl] at hi
        by_contra hne
        rw [decide_eq_false hne] at hi
        cases hi
      refine h.update (fun j hj => by simp [howner, Ne.symm hj]) fun v => ?_
      have hi := h i v
      rw [hl, holds] at hi
      by_cases hv : v = w
      · subst hv
        rw [Function.update_self]
        simpa [howner] using hi
      · rw [Function.update_of_ne hv]
        simpa [Ne.symm hv] using hi

/-- The rest of the call of whoever has a mutex releases it; nobody waits for one it has. -/
theorem Inv.released (h : Inv s) {i : ι} {v : V} (ho : s.owner v = some i) :
    .unlock v ∈ s.rest i ∧ ∀ l, s.rest i ≠ .lock v :: l := by
  have hi := h i v
  rw [decide_eq_true ho] at hi
  refine ⟨unlock_mem_of_holds hi, fun l hl => ?_⟩
  rw [hl, holds, if_pos rfl, if_pos rfl] at hi
  cases hi

/-- **Runs**: whoever has a mutex is in a call that is about to release it. -/
theorem released_of_reach (h : Runs.Reach step guarded (fun s => s = State.idle) s) {i : ι} {v : V}
    (ho : s.owner v = some i) : .unlock v ∈ s.rest i ∧ ∀ l, s.rest i ≠ .lock v :: l := by
  have hinv : Inv s := by
    refine h.invariant ?_ fun e s s' hI hok hs => hI.step hok hs
    rintro s rfl
    exact inv_idle
  exact hinv.released ho

end Mutex
