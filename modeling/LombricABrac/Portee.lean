import LombricABrac.Sprite

/-!
# The disc that is dug and the disc that hurts

`Map::explose` digs column by column, between two real bounds that it stores in an `int`;
`Lombric_c::explosed` compares the distance to the radius.  The upper bound of a column is cut toward
zero: where it is positive and not an integer, the column begins one row above the disc.

    bloc_foldl_creuse : what the double loop digs
    mem_colonne_iff   : a column is the one of the disc, and the cell just above it
    memeDisque_iff    : both discs agree where no LIGHT_WALL stands just above
-/

namespace LombricABrac

namespace Map

/-- The cells of the two discs, among those of the map. -/
structure MemeDisque (m : Map) (xE yE : Int) (radius : Nat) : Prop where
  creusees : ∀ x y : Nat, m.bloc x y = some lightWall →
    ∀ s : Sprite, s.posX = x → s.posY = y → s.movement = none → ∀ degat vitesse t,
      ((m.explose xE yE radius).1.bloc x y = some air ↔
        (s.explosed xE yE radius degat vitesse t).isInMovement = true)
  autres : ∀ x y : Nat, (m.explose xE yE radius).1.bloc x y ≠ m.bloc x y →
    m.bloc x y = some lightWall ∧ (m.explose xE yE radius).1.bloc x y = some air

/-- The cell lies outside the disc, the one below it strictly inside. -/
def JusteAuDessus (xE yE : Int) (radius : Nat) (x y : Int) : Prop :=
  (x - xE) ^ 2 + (yE - y - 1) ^ 2 < (radius : Int) ^ 2 ∧ (radius : Int) ^ 2 < (x - xE) ^ 2 + (yE - y) ^ 2

instance (xE yE : Int) (radius : Nat) (x y : Int) : Decidable (JusteAuDessus xE yE radius x y) :=
  inferInstanceAs (Decidable (_ ∧ _))

/-! ## What the loops dig -/

theorem bloc_creuse (s : Map × List Int) (c : Int × Int) (x y : Nat) :
    (creuse s c).1.bloc x y = some air ↔
      s.1.bloc x y = some air ∨ s.1.bloc x y = some lightWall ∧ u32 c.1 = x ∧ u32 c.2 = y := by
  unfold creuse
  split
  · next hw =>
    rw [isTypeBloc_iff] at hw
    rw [bloc_setBloc]
    split
    · next h =>
      obtain ⟨rfl, rfl⟩ := h
      simp [hw]
    · next h =>
      constructor
      · exact Or.inl
      · rintro (ha | ⟨_, rfl, rfl⟩)
        · exact ha
        · exact absurd ⟨rfl, rfl⟩ h
  · next hw =>
    rw [isTypeBloc_iff] at hw
    constructor
    · exact Or.inl
    · rintro (ha | ⟨hb, rfl, rfl⟩)
      · exact ha
      · exact absurd hb hw

/-- A cell that `creuse` does not turn into AIR stays LIGHT_WALL. -/
theorem bloc_creuse_wall {s : Map × List Int} {c : Int × Int} {x y : Nat}
    (h : s.1.bloc x y = some lightWall) (hc : ¬ (u32 c.1 = x ∧ u32 c.2 = y)) :
    (creuse s c).1.bloc x y = some lightWall := by
  unfold creuse
  split
  · rw [bloc_setBloc, if_neg fun e => hc ⟨e.1.symm, e.2.symm⟩]
    exact h
  · exact h

/-- The loops dig the LIGHT_WALL cells that they visit. -/
theorem bloc_foldl_creuse (l : List (Int × Int)) (x y : Nat) : ∀ s : Map × List Int,
    s.1.bloc x y = some lightWall →
      ((l.foldl creuse s).1.bloc x y = some air ↔ ∃ c ∈ l, u32 c.1 = x ∧ u32 c.2 = y) := by
  have keeps : ∀ (l : List (Int × Int)) (s : Map × List Int), s.1.bloc x y = some air →
      (l.foldl creuse s).1.bloc x y = some air := by
    intro l
    induction l with
    | nil => exact fun _ h => h
    | cons c l ih => exact fun s h => ih _ ((bloc_creuse s c x y).mpr (Or.inl h))
  induction l with
  | nil =>
    intro s h
    simp [h, air, lightWall]
  | cons c l ih =>
    intro s h
    rw [List.foldl_cons, List.exists_mem_cons_iff]
    by_cases hc : u32 c.1 = x ∧ u32 c.2 = y
    · exact iff_of_true (keeps l _ ((bloc_creuse s c x y).mpr (Or.inr ⟨h, hc⟩))) (Or.inl hc)
    · rw [ih _ (bloc_creuse_wall h hc)]
      simp [hc]

/-! ## Which cells they visit -/

theorem sq_le_iff_sqrt (k : Int) (d : Nat) : k ^ 2 ≤ d ↔ -(d.sqrt : Int) ≤ k ∧ k ≤ d.sqrt := by
  have h : k ^ 2 ≤ d ↔ k.natAbs ≤ d.sqrt := by
    rw [Nat.le_sqrt', ← Int.natAbs_sq]
    exact_mod_cast Iff.rfl
  rw [h]
  omega

/-- The square of a row number is over `d` and the one of the row below is under it only just above the
root of `d`, which is no integer then. -/
theorem juste_iff_sqrt (k : Int) (d : Nat) :
    (k - 1) ^ 2 < (d : Int) ∧ (d : Int) < k ^ 2 ↔ k = d.sqrt + 1 ∧ d.sqrt * d.sqrt ≠ d := by
  have hle : (d.sqrt : Int) * d.sqrt ≤ d := by exact_mod_cast Nat.sqrt_le d
  have hlt : (d : Int) < (d.sqrt + 1) * (d.sqrt + 1) := by exact_mod_cast Nat.lt_succ_sqrt d
  constructor
  · rintro ⟨h1, h2⟩
    have hbas := (sq_le_iff_sqrt (k - 1) d).mp h1.le
    have hhaut := mt (sq_le_iff_sqrt k d).mpr (not_le.mpr h2)
    have hk : k = d.sqrt + 1 := by omega
    refine ⟨hk, fun he => ?_⟩
    have he' : (d.sqrt : Int) * d.sqrt = d := by exact_mod_cast he
    rw [hk] at h1
    nlinarith
  · rintro ⟨rfl, hne⟩
    have hne' : (d.sqrt : Int) * d.sqrt ≠ d := by exact_mod_cast hne
    exact ⟨by rw [add_sub_cancel_right, pow_two]; omega, by rw [pow_two]; exact hlt⟩

theorem ceilSqrt_eq {d : Nat} (h : d.sqrt * d.sqrt ≠ d) : ceilSqrt d = d.sqrt + 1 := if_neg h

/-- **The rows of one column**, from the top of the map on: those at a distance of at most `√d`, and the
one above them where `√d` is not an integer. -/
theorem mem_colonne_iff (yE : Int) (d y : Nat) :
    yDebut yE d ≤ y ∧ y ≤ yE + d.sqrt ↔
      (y - yE) ^ 2 ≤ (d : Int) ∨ (yE - y - 1) ^ 2 < (d : Int) ∧ (d : Int) < (yE - y) ^ 2 := by
  rw [sq_le_iff_sqrt, juste_iff_sqrt]
  by_cases hd : d.sqrt * d.sqrt = d
  · have hc : ceilSqrt d = d.sqrt := if_pos hd
    simp only [yDebut, hc, ite_self, hd, ne_eq, not_true_eq_false, and_false, or_false]
    omega
  · simp only [yDebut, ceilSqrt_eq hd, ne_eq, hd, not_false_eq_true, and_true]
    push_cast
    split <;> omega

theorem mem_colonne (x yE : Int) (d : Nat) (c : Int × Int) :
    c ∈ colonne x yE d ↔ c.1 = x ∧ yDebut yE d ≤ c.2 ∧ c.2 ≤ yE + d.sqrt := by
  simp only [colonne, List.mem_map, List.mem_range]
  constructor
  · rintro ⟨j, hj, rfl⟩
    dsimp only
    omega
  · rintro ⟨rfl, h1, h2⟩
    exact ⟨(c.2 - yDebut yE d).toNat, by omega, by ext <;> simp; omega⟩

/-- The columns at a distance of at most the radius. -/
theorem mem_cases (xE yE : Int) (radius : Nat) (c : Int × Int) :
    c ∈ cases xE yE radius ↔ (c.1 - xE) ^ 2 ≤ (radius : Int) ^ 2 ∧
      c ∈ colonne c.1 yE ((radius : Int) ^ 2 - (c.1 - xE) ^ 2).toNat := by
  have hcol : (c.1 - xE) ^ 2 ≤ (radius : Int) ^ 2 ↔ -(radius : Int) ≤ c.1 - xE ∧ c.1 - xE ≤ radius := by
    rw [sq_le_sq, abs_le, Nat.abs_cast]
  rw [hcol]
  simp only [cases, List.mem_flatMap, List.mem_range]
  constructor
  · rintro ⟨k, hk, hc⟩
    have hx := ((mem_colonne _ _ _ _).mp hc).1
    rw [← hx] at hc
    exact ⟨by omega, hc⟩
  · rintro ⟨hx, hc⟩
    refine ⟨(c.1 - xE + radius).toNat, by omega, ?_⟩
    rwa [show xE - radius + ((c.1 - xE + radius).toNat : Int) = c.1 by omega]

/-- The cells of the map that `explose` visits. -/
theorem visitee_iff (xE yE : Int) (radius x y : Nat) :
    ((x : Int), (y : Int)) ∈ cases xE yE radius ↔
      (x - xE) ^ 2 + (y - yE) ^ 2 ≤ (radius : Int) ^ 2 ∨ JusteAuDessus xE yE radius x y := by
  rw [mem_cases, mem_colonne]
  simp only [true_and]
  rw [mem_colonne_iff, JusteAuDessus]
  by_cases h : ((x : Int) - xE) ^ 2 ≤ (radius : Int) ^ 2
  · rw [Int.toNat_of_nonneg (by linarith)]
    constructor
    · rintro ⟨_, h1 | h1⟩
      · left; linarith
      · right; constructor <;> linarith [h1.1, h1.2]
    · rintro (h1 | h1)
      · exact ⟨h, by left; linarith⟩
      · exact ⟨h, by right; constructor <;> linarith [h1.1, h1.2]⟩
  · -- a column beyond the radius has no cell of either kind
    refine iff_of_false (fun hn => h hn.1) ?_
    rintro (h1 | h1)
    · nlinarith [sq_nonneg ((y : Int) - yE)]
    · nlinarith [sq_nonneg (yE - (y : Int) - 1), h1.1]

/-! ## The two discs -/

theorem bloc_explose_iff {m : Map} {x y : Nat} (h : m.bloc x y = some lightWall) (xE yE : Int)
    (radius : Nat) : (m.explose xE yE radius).1.bloc x y = some air ↔
      (x - xE) ^ 2 + (y - yE) ^ 2 ≤ (radius : Int) ^ 2 ∨ JusteAuDessus xE yE radius x y := by
  have hlt := lt_of_bloc h
  have hl := m.largeur_lt
  have hh := m.hauteur_lt
  rw [explose, bloc_foldl_creuse _ _ _ _ h, ← visitee_iff]
  constructor
  · rintro ⟨c, hc, rfl, rfl⟩
    rwa [← (eq_of_u32_lt (hlt.1.trans hl)).2, ← (eq_of_u32_lt (hlt.2.trans hh)).2]
  · exact fun hc => ⟨_, hc, u32_natCast x, u32_natCast y⟩

end Map

/-- A worm at rest is thrown where the distance is at most the radius. -/
theorem Sprite.explosed_isInMovement {s : Sprite} (h : s.movement = none) (xE yE : Int) (radius : Nat)
    (degat vitesse t : Int) : (s.explosed xE yE radius degat vitesse t).isInMovement = true ↔
      (s.posX - xE) ^ 2 + (s.posY - yE) ^ 2 ≤ (radius : Int) ^ 2 := by
  have hn : ((s.posX - xE) ^ 2 + (s.posY - yE) ^ 2).toNat ≤ radius ^ 2 ↔
      (s.posX - xE) ^ 2 + (s.posY - yE) ^ 2 ≤ (radius : Int) ^ 2 := by
    rw [Int.toNat_le]
    push_cast
    exact Iff.rfl
  rw [← hn, explosed]
  simp only
  split
  · next hle => simp [isInMovement, Base.setMovement, hle]
  · next hle => simp [isInMovement, h, hle]

namespace Map

/-- **The two discs agree exactly where no LIGHT_WALL stands just above the one of the explosion.** -/
theorem memeDisque_iff (m : Map) (xE yE : Int) (radius : Nat) (_ : 0 < radius) :
    m.MemeDisque xE yE radius ↔
      ∀ x y : Nat, m.bloc x y = some lightWall → ¬ JusteAuDessus xE yE radius x y := by
  constructor
  · intro h x y hw hj
    have hs := h.creusees x y hw ⟨⟨0, x, y, none⟩, .lombric ⟨1, 1, 1⟩⟩ rfl rfl rfl 0 0 0
    rw [Sprite.explosed_isInMovement rfl, bloc_explose_iff hw] at hs
    have hdans := hs.mp (Or.inr hj)
    have hdehors := hj.2
    simp only at hdans
    nlinarith
  · intro h
    refine ⟨fun x y hw s hx hy hm degat vitesse t => ?_, fun x y hne => ?_⟩
    · rw [Sprite.explosed_isInMovement hm, bloc_explose_iff hw, hx, hy]
      exact or_iff_left (h x y hw)
    · obtain ⟨cs, _, hd⟩ := m.explose_dug xE yE radius
      rw [hd.bloc_eq] at hne ⊢
      split at hne
      · next hc => exact ⟨hd.wall _ hc, if_pos hc⟩
      · exact absurd rfl hne

theorem petite_memeDisque : petite.MemeDisque 1 2 1 := by
  refine (memeDisque_iff petite 1 2 1 (by decide)).mpr fun x y hw => ?_
  have hcases : ∀ x < 3, ∀ y < 5, petite.bloc x y = some lightWall → ¬ JusteAuDessus 1 2 1 x y := by
    decide +kernel
  exact hcases x (lt_of_bloc hw).1 y (lt_of_bloc hw).2 hw

/-- Four rows of AIR under a ceiling of LIGHT_WALL, as wide as `petite`. -/
def plafond : Map :=
  new 3 7 (fun y _ => if y.val = 0 then lightWall else if y.val < 5 then air else solidWall)
    petite.largeur_lt (by decide)

/-- A missile that dies four rows under the ceiling digs its corners, at a distance of `√17`. -/
theorem plafond_perce :
    plafond.bloc 0 0 = some lightWall ∧ (plafond.explose 1 4 4).1.bloc 0 0 = some air ∧
      (Sprite.explosed 1 4 4 (-25) 10 0 ⟨⟨0, 0, 0, none⟩, .lombric ⟨1, 100, 150⟩⟩).isInMovement = false ∧
      ¬ plafond.MemeDisque 1 4 4 := by
  have hmur : plafond.bloc 0 0 = some lightWall := by decide +kernel
  have hair : (plafond.explose 1 4 4).1.bloc 0 0 = some air := by decide +kernel
  have hloin : (Sprite.explosed 1 4 4 (-25) 10 0
      ⟨⟨0, 0, 0, none⟩, .lombric ⟨1, 100, 150⟩⟩).isInMovement = false := by decide +kernel
  refine ⟨hmur, hair, hloin, fun h => ?_⟩
  have hs := (h.creusees 0 0 hmur ⟨⟨0, 0, 0, none⟩, .lombric ⟨1, 100, 150⟩⟩ rfl rfl rfl (-25) 10 0).mp hair
  rw [hloin] at hs
  cases hs

end Map

end LombricABrac
