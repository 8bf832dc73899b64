import Mathlib.Algebra.BigOperators.Group.List.Basic
import Mathlib.Data.List.Forall2

/-!
# Tables of rows with a key

`find key k` is the first row with key `k`, `update key k f` applies `f` to the rows with that
key.  An update that keeps the key of its rows is read back at `k` and nowhere else; where the keys are
distinct it changes one row.

    sum_update : a sum over the rows, after an update of one
    Grows      : rows that stay, with others after them
-/

namespace Table

variable {ρ κ : Type} [DecidableEq κ]

def find (key : ρ → κ) (k : κ) (rows : List ρ) : Option ρ := rows.find? fun r => key r = k

def update (key : ρ → κ) (k : κ) (f : ρ → ρ) (rows : List ρ) : List ρ :=
  rows.map fun r => if key r = k then f r else r

variable {key : ρ → κ} {f : ρ → ρ}

theorem find_update (hf : ∀ r, key (f r) = key r) (k k' : κ) (rows : List ρ) :
    find key k' (update key k f rows) =
      if k' = k then (find key k' rows).map f else find key k' rows := by
  induction rows with
  | nil => simp [find, update]
  | cons r rows ih =>
    unfold find update at ih ⊢
    rw [List.map_cons, List.find?_cons, List.find?_cons, ih]
    by_cases hr : key r = k
    · by_cases hk : k' = k
      · subst hk
        simp [hr, hf]
      · have : key r ≠ k' := fun h => hk (h.symm.trans hr)
        simp [hr, hf, hk, Ne.symm hk]
    · by_cases hk' : key r = k'
      · have : k' ≠ k := fun h => hr (hk'.trans h)
        simp [hk', this]
      · simp [hr, hk']

theorem map_key_update (hf : ∀ r, key (f r) = key r) (k : κ) (rows : List ρ) :
    (update key k f rows).map key = rows.map key := by
  rw [update, List.map_map]
  apply List.map_congr_left
  intro r _
  rw [Function.comp_apply]
  split
  · exact hf r
  · rfl

theorem update_update (hf : ∀ r, key (f r) = key r) (g : ρ → ρ) (k : κ) (rows : List ρ) :
    update key k g (update key k f rows) = update key k (fun r => g (f r)) rows := by
  rw [update, update, update, List.map_map]
  apply List.map_congr_left
  intro r _
  rw [Function.comp_apply]
  by_cases hr : key r = k
  · rw [if_pos hr, if_pos ((hf r).trans hr), if_pos hr]
  · rw [if_neg hr, if_neg hr, if_neg hr]

theorem update_id (k : κ) (rows : List ρ) : update key k id rows = rows := by
  rw [update]
  refine (List.map_congr_left ?_).trans (List.map_id rows)
  intro r _
  split
  · rfl
  · rfl

theorem update_of_not_mem {k : κ} {rows : List ρ} (h : k ∉ rows.map key) : update key k f rows = rows := by
  rw [update]
  refine (List.map_congr_left ?_).trans (List.map_id rows)
  intro r hr
  rw [if_neg fun he => h (List.mem_map.mpr ⟨r, hr, he⟩)]
  rfl

/-- and a sum over the rows by what that row gives. -/
theorem sum_update {M : Type} [AddCommMonoid M] {k : κ} {rows : List ρ} (hrows : (rows.map key).Nodup) {r : ρ}
    (hr : find key k rows = some r) (w : ρ → M) :
    ((update key k f rows).map w).sum + w r = (rows.map w).sum + w (f r) := by
  induction rows with
  | nil => cases hr
  | cons r' rows ih =>
    obtain ⟨hnot, hrows⟩ := List.nodup_cons.mp hrows
    rw [update, List.map_cons, List.map_cons, List.sum_cons, List.map_cons, List.sum_cons]
    by_cases hk : key r' = k
    · obtain rfl : r' = r := by
        rw [find, List.find?_cons_of_pos (by simpa using hk)] at hr
        exact Option.some.inj hr
      have hrest : update key k f rows = rows := update_of_not_mem (hk ▸ hnot)
      rw [update] at hrest
      rw [if_pos hk, hrest, add_right_comm, add_comm (w (f r')) (w r'), add_right_comm]
    · have ih := ih hrows (by rwa [find, List.find?_cons_of_neg (by simpa using hk)] at hr)
      rw [update] at ih
      rw [if_neg hk, add_assoc, ih, add_assoc]

/-! ## Rows that stay -/

/-- The rows stay as they are, but for what `g` forgets; those that are added after them have `P`. -/
def Grows {β : Type} (g : ρ → β) (P : β → Prop) (rows rows' : List ρ) : Prop :=
  ∃ l, rows'.map g = rows.map g ++ l ∧ ∀ b ∈ l, P b

section

variable {β γ : Type} {g : ρ → β} {P : β → Prop} {rows rows' rows'' : List ρ}

theorem Grows.trans (h : Grows g P rows rows') (h' : Grows g P rows' rows'') : Grows g P rows rows'' := by
  obtain ⟨l, hl, hP⟩ := h
  obtain ⟨l', hl', hP'⟩ := h'
  refine ⟨l ++ l', ?_, ?_⟩
  · rw [hl', hl, List.append_assoc]
  · intro b hb
    rcases List.mem_append.mp hb with hb | hb
    · exact hP b hb
    · exact hP' b hb

end

end Table
