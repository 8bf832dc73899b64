import Mathlib.Logic.Function.Iterate
import Mathlib.Data.List.Chain
import Mathlib.Data.Nat.ModEq

/-!
# Going round

A search that counts from a cursor modulo `n`, and a turn that counts up and comes back to `0`.
A chronicle of turns, each the first place after the last one where somebody waits, is fair.

    exists_offset : the offsets `1 … k`, with `n ≤ k`, reach every place below `n`
    exists_turn   : the turn reaches every place below `n`
    countP_entre  : between two turns of one place, every place that always waits has one turn
-/

namespace Cyclic

theorem exists_offset {n k i : Nat} (hnk : n ≤ k) (c : Nat) (hi : i < n) :
    ∃ d, 1 ≤ d ∧ d ≤ k ∧ (d + c) % n = i := by
  have hc : c % n < n := Nat.mod_lt c (by omega)
  by_cases hlt : c % n < i
  · refine ⟨i - c % n, by omega, by omega, ?_⟩
    rw [← Nat.add_mod_mod, Nat.sub_add_cancel (by omega), Nat.mod_eq_of_lt hi]
  · -- the place is behind the cursor: one more lap
    refine ⟨i + n - c % n, by omega, by omega, ?_⟩
    rw [← Nat.add_mod_mod, Nat.sub_add_cancel (by omega), Nat.add_mod_right, Nat.mod_eq_of_lt hi]

/-- One place further, `0` past the last one. -/
def next (n c : Nat) : Nat := if n ≤ c + 1 then 0 else c + 1

theorem exists_zero {n : Nat} (c : Nat) : ∃ d, (next n)^[d] c = 0 := by
  induction hd : n - c using Nat.strongRecOn generalizing c with
  | ind m ih =>
    by_cases hc : n ≤ c + 1
    · exact ⟨1, if_pos hc⟩
    · obtain ⟨d, hd'⟩ := ih (n - (c + 1)) (by omega) (c + 1) rfl
      refine ⟨d + 1, ?_⟩
      rw [Function.iterate_succ_apply, show next n c = c + 1 from if_neg hc]
      exact hd'

theorem iterate_zero {n : Nat} (k : Nat) (hk : k < n) : (next n)^[k] 0 = k := by
  induction k with
  | zero => rfl
  | succ k ih =>
    rw [Function.iterate_succ_apply', ih (by omega)]
    exact if_neg (by omega)

theorem exists_turn {n k : Nat} (c : Nat) (hk : k < n) : ∃ d, (next n)^[d] c = k := by
  obtain ⟨d, hd⟩ := exists_zero (n := n) c
  refine ⟨k + d, ?_⟩
  rw [Function.iterate_add_apply, hd]
  exact iterate_zero k hk

theorem next_eq_mod {n c : Nat} (hc : c < n) : next n c = (c + 1) % n := by
  unfold next
  split
  · rw [show c + 1 = n by omega, Nat.mod_self]
  · rw [Nat.mod_eq_of_lt (by omega)]

/-! ## Who comes next -/

/-- Counting up from `a`, modulo `n`, the first place with `p` is `b`. -/
def Suivant (n : Nat) (p : Nat → Prop) (a b : Nat) : Prop :=
  ∃ d, 0 < d ∧ b = (a + d) % n ∧ p b ∧ ∀ e, 0 < e → e < d → ¬ p ((a + e) % n)

namespace Suivant

variable {n : Nat} {p : Nat → Prop} {a b : Nat}

theorem holds (h : Suivant n p a b) : p b := by
  obtain ⟨d, _, _, hp, _⟩ := h
  exact hp

theorem lt (hn : 0 < n) (h : Suivant n p a b) : b < n := by
  obtain ⟨d, _, rfl, _, _⟩ := h
  exact Nat.mod_lt _ hn

theorem congr {p' : Nat → Prop} (hp : ∀ k, k < n → (p k ↔ p' k)) (hn : 0 < n) (h : Suivant n p a b) :
    Suivant n p' a b := by
  obtain ⟨d, hd, rfl, hpb, hno⟩ := h
  refine ⟨d, hd, rfl, (hp _ (Nat.mod_lt _ hn)).mp hpb, fun e h0 he hpe => ?_⟩
  exact hno e h0 he ((hp _ (Nat.mod_lt _ hn)).mpr hpe)

theorem of_next (ha : a < n) (hp : p (next n a)) : Suivant n p a (next n a) :=
  ⟨1, Nat.one_pos, next_eq_mod ha, hp, fun e h0 he => by omega⟩

/-- A place without `p` is passed. -/
theorem passe (ha : a < n) (hp : ¬ p (next n a)) (h : Suivant n p (next n a) b) : Suivant n p a b := by
  obtain ⟨d, hd, rfl, hpb, hno⟩ := h
  rw [next_eq_mod ha] at hp hpb hno ⊢
  refine ⟨d + 1, by omega, ?_, hpb, fun e h0 he hpe => ?_⟩
  · rw [Nat.mod_add_mod, Nat.add_assoc, Nat.add_comm 1 d]
  · by_cases he1 : e = 1
    · exact hp (he1 ▸ hpe)
    · refine hno (e - 1) (by omega) (by omega) ?_
      rwa [Nat.mod_add_mod, Nat.add_assoc, Nat.add_comm 1, Nat.sub_add_cancel h0]

/-- Seen from `c`, the first place comes after `o` and not after a later place with `p`. -/
theorem le_of_holds {c o y : Nat} (h : Suivant n p ((c + o) % n) b) (hoy : o < y)
    (hp : p ((c + y) % n)) : ∃ o', o < o' ∧ o' ≤ y ∧ b = (c + o') % n := by
  obtain ⟨d, hd, hb, _, hno⟩ := h
  rw [Nat.mod_add_mod, Nat.add_assoc] at hb
  refine ⟨o + d, by omega, ?_, hb⟩
  by_contra hlt
  refine hno (y - o) (by omega) (by omega) ?_
  rwa [Nat.mod_add_mod, Nat.add_assoc, Nat.add_sub_cancel' hoy.le]

end Suivant

theorem add_mod_inj {n c o o' : Nat} (ho : o < n) (ho' : o' < n) (h : (c + o) % n = (c + o') % n) :
    o = o' := by
  have hm : c + o ≡ c + o' [MOD n] := h
  have := Nat.ModEq.add_left_cancel' c hm
  rwa [Nat.ModEq, Nat.mod_eq_of_lt ho, Nat.mod_eq_of_lt ho'] at this

section Chronique

variable {τ : Type} {n : Nat} (place : τ → Nat) (attend : τ → Nat → Prop)

/-- The turns left of a lap that is `o` places past `c`, with `y` waiting.  Induction on them. -/
theorem countP_reste {c y : Nat} (hn : 0 < n) (hy : y < n) {fin : τ} (hfin : place fin = c % n) :
    ∀ (milieu : List τ) {t : τ} {o : Nat}, place t = (c + o) % n → o < n →
    List.IsChain (fun s t => Suivant n (attend t) (place s) (place t)) (t :: (milieu ++ [fin])) →
    (∀ u ∈ milieu, place u ≠ c % n) →
    (∀ u ∈ milieu ++ [fin], attend u (c % n) ∧ attend u ((c + y) % n)) →
    milieu.countP (fun u => place u = (c + y) % n) = if o < y then 1 else 0 := by
  intro milieu
  induction milieu with
  | nil =>
    intro t o ht ho hch _ hatt
    rw [List.nil_append, List.isChain_cons_cons] at hch
    obtain ⟨hs, _⟩ := hch
    rw [List.countP_nil, if_neg]
    intro hoy
    -- the lap cannot end before `y`
    rw [ht] at hs
    obtain ⟨o', h1, h2, h3⟩ := hs.le_of_holds hoy (hatt fin (by simp)).2
    rw [hfin, ← Nat.add_zero c] at h3
    have := add_mod_inj hn (by omega) h3
    omega
  | cons u milieu ih =>
    intro t o ht ho hch hne hatt
    rw [List.cons_append, List.isChain_cons_cons] at hch
    obtain ⟨hs, hch⟩ := hch
    obtain ⟨hc, hyu⟩ := hatt u (by simp)
    have hu := hne u List.mem_cons_self
    rw [ht] at hs
    have hlap : (c + n) % n = c % n := Nat.add_mod_right c n
    obtain ⟨o', h1, h2, h3⟩ := hs.le_of_holds ho (by rwa [hlap])
    have ho' : o' < n := by
      rcases Nat.lt_or_eq_of_le h2 with h | h
      · exact h
      · rw [h, hlap] at h3
        exact absurd h3 hu
    have hle : o < y → o' ≤ y := by
      intro hoy
      obtain ⟨o'', _, h5, h6⟩ := hs.le_of_holds hoy hyu
      rw [h3] at h6
      rw [add_mod_inj ho' (by omega) h6]
      exact h5
    have hrest := ih h3 ho' hch (fun v hv => hne v (List.mem_cons_of_mem _ hv))
      (fun v hv => hatt v (List.mem_cons_of_mem _ hv))
    have hplace : place u = (c + y) % n ↔ o' = y := by
      rw [h3]
      exact ⟨add_mod_inj ho' hy, fun h => by rw [h]⟩
    rw [List.countP_cons, hrest]
    simp only [hplace, decide_eq_true_eq]
    split <;> split <;> split <;> omega

/-- **Fairness.**  Between two consecutive turns of one place, a place that waits all along has one
turn. -/
theorem countP_entre (hn : 0 < n) {t fin : τ} {milieu : List τ} {q : Nat}
    (hch : List.IsChain (fun s t => Suivant n (attend t) (place s) (place t)) (t :: (milieu ++ [fin])))
    (ht : place t < n) (hfin : place fin = place t) (hne : ∀ u ∈ milieu, place u ≠ place t)
    (hatt : ∀ u ∈ milieu ++ [fin], attend u (place t)) (hq : q < n) (hqt : q ≠ place t)
    (hqa : ∀ u ∈ milieu ++ [fin], attend u q) : milieu.countP (fun u => place u = q) = 1 := by
  have hc : place t % n = place t := Nat.mod_eq_of_lt ht
  -- how far `q` is from `t`
  obtain ⟨y, hy, hy0, rfl⟩ : ∃ y, y < n ∧ 0 < y ∧ q = (place t + y) % n := by
    by_cases hlt : place t < q
    · exact ⟨q - place t, by omega, by omega, by
        rw [Nat.add_sub_cancel' hlt.le, Nat.mod_eq_of_lt hq]⟩
    · refine ⟨q + n - place t, by omega, by omega, ?_⟩
      rw [Nat.add_sub_cancel' (by omega), Nat.add_mod_right, Nat.mod_eq_of_lt hq]
  have := countP_reste place attend hn hy (hfin.trans hc.symm) milieu (o := 0) (by
      rw [Nat.add_zero, hc]) hn hch
    (fun u hu => by
      rw [hc]
      exact hne u hu)
    (fun u hu => by
      rw [hc]
      exact ⟨hatt u hu, hqa u hu⟩)
  rwa [if_pos hy0] at this

end Chronique

end Cyclic
