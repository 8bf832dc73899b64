import Mathlib.Data.Set.Basic

/-!
# Boards: overwriting a set of cells with one value

A board gives each cell of `α` a value of `β`; `put D b f` overwrites the cells
of `D` with `b`.  Overwriting with one value is idempotent and commutative, and a
set that held one value before it was overwritten can be put back:

    put_put      : put D b (put E b f) = put (D ∪ E) b f
    put_restore  : f = w on D → put D w (put D a f) = f
-/

namespace Board

variable {α β : Type} {D E : Set α} {a b w : β} {f : α → β}

open Classical in
noncomputable def put (D : Set α) (b : β) (f : α → β) : α → β := fun x => if x ∈ D then b else f x

theorem put_of_mem {x : α} (h : x ∈ D) : put D b f x = b := if_pos h

theorem put_of_notMem {x : α} (h : x ∉ D) : put D b f x = f x := if_neg h

@[simp] theorem put_empty : put ∅ b f = f := by
  funext x
  exact put_of_notMem (Set.notMem_empty x)

theorem put_put (D E : Set α) (b : β) (f : α → β) : put D b (put E b f) = put (D ∪ E) b f := by
  funext x
  by_cases hD : x ∈ D
  · rw [put_of_mem hD, put_of_mem (Set.mem_union_left E hD)]
  · rw [put_of_notMem hD]
    by_cases hE : x ∈ E
    · rw [put_of_mem hE, put_of_mem (Set.mem_union_right D hE)]
    · rw [put_of_notMem hE, put_of_notMem (by simp [hD, hE])]

/-- Writing what is already there. -/
theorem put_eq_self (h : ∀ x ∈ D, f x = b) : put D b f = f := by
  funext x
  by_cases hD : x ∈ D
  · rw [put_of_mem hD, h x hD]
  · rw [put_of_notMem hD]

theorem put_restore (h : ∀ x ∈ D, f x = w) : put D w (put D a f) = f := by
  funext x
  by_cases hD : x ∈ D
  · rw [put_of_mem hD, h x hD]
  · rw [put_of_notMem hD, put_of_notMem hD]

end Board
