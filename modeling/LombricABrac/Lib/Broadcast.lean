import Mathlib.Data.List.Nodup

/-!
# Messages to the members of a group

A batch is a message for each member, with differences that `view` forgets.  The group only loses members.

    inbox_batch      : each member gets one message of a batch
    Delivers.append  : who stays gets all the batches, who leaves the first ones
-/

namespace Broadcast

variable {κ α β : Type} [DecidableEq κ]

/-- What is sent to `k`, in order. -/
def inbox (view : α → β) (k : κ) (l : List (κ × α)) : List β :=
  l.filterMap fun e => if e.1 = k then some (view e.2) else none

variable {view : α → β} {k : κ} {l l' : List (κ × α)} {b : β} {A A' : List β} {ks ks' ks'' : List κ}

theorem inbox_append (view : α → β) (k : κ) (l l' : List (κ × α)) :
    inbox view k (l ++ l') = inbox view k l ++ inbox view k l' := List.filterMap_append

theorem inbox_of_not_mem (h : k ∉ l.map Prod.fst) : inbox view k l = [] := by
  apply List.filterMap_eq_nil_iff.mpr
  intro e he
  apply if_neg
  intro hk
  exact h (hk ▸ List.mem_map_of_mem he)

/-- **A batch.** -/
theorem inbox_batch (hb : ∀ e ∈ l, view e.2 = b) (hn : (l.map Prod.fst).Nodup) (hk : k ∈ l.map Prod.fst) :
    inbox view k l = [b] := by
  induction l with
  | nil => cases hk
  | cons e l ih =>
    obtain ⟨hnot, hn⟩ := List.nodup_cons.mp hn
    by_cases he : e.1 = k
    · have hrest : inbox view k l = [] := inbox_of_not_mem (he ▸ hnot)
      have hhead : inbox view k (e :: l) = view e.2 :: inbox view k l :=
        List.filterMap_cons_some (if_pos he)
      rw [hhead, hrest, hb e List.mem_cons_self]
    · have hhead : inbox view k (e :: l) = inbox view k l := List.filterMap_cons_none (if_neg he)
      rw [hhead]
      refine ih (fun e he => hb e (List.mem_cons_of_mem _ he)) hn ?_
      exact (List.mem_cons.mp hk).resolve_left (Ne.symm he)

/-- The messages `l` bring `A` to a group that goes from `ks` to `ks'`. -/
structure Delivers (view : α → β) (ks ks' : List κ) (l : List (κ × α)) (A : List β) : Prop where
  shrinks : ks'.Sublist ks
  stays : ∀ k ∈ ks', inbox view k l = A
  leaves : ∀ k, inbox view k l <+: A
  others : ∀ k, k ∉ ks → inbox view k l = []

theorem delivers_nil (view : α → β) (ks : List κ) : Delivers view ks ks [] [] :=
  ⟨List.Sublist.refl _, fun _ _ => rfl, fun _ => List.nil_prefix, fun _ _ => rfl⟩

/-- A batch for those who stay. -/
theorem delivers_batch (hb : ∀ e ∈ l, view e.2 = b) (hn : (l.map Prod.fst).Nodup) (hks : (l.map Prod.fst).Sublist ks) :
    Delivers view ks (l.map Prod.fst) l [b] where
  shrinks := hks
  stays k hk := inbox_batch hb hn hk
  leaves k := by
    by_cases hk : k ∈ l.map Prod.fst
    · exact (inbox_batch hb hn hk) ▸ List.prefix_rfl
    · rw [inbox_of_not_mem hk]
      exact List.nil_prefix
  others k hk := inbox_of_not_mem fun hin => hk (hks.subset hin)

/-- **One after the other.** -/
theorem Delivers.append (h : Delivers view ks ks' l A) (h' : Delivers view ks' ks'' l' A') :
    Delivers view ks ks'' (l ++ l') (A ++ A') where
  shrinks := h'.shrinks.trans h.shrinks
  stays k hk := by
    rw [inbox_append, h.stays k (h'.shrinks.subset hk), h'.stays k hk]
  leaves k := by
    rw [inbox_append]
    by_cases hk : k ∈ ks'
    · rw [h.stays k hk]
      exact (List.prefix_append_right_inj A).mpr (h'.leaves k)
    · rw [h'.others k hk, List.append_nil]
      exact (h.leaves k).trans (List.prefix_append A A')
  others k hk := by
    rw [inbox_append, h.others k hk, h'.others k fun hin => hk (h.shrinks.subset hin)]
    rfl

end Broadcast
