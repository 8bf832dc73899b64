import LombricABrac.Sprite

/-!
# Where worms and boxes are placed

The constructor `Sprite(id, carte, canFly)` of `sharedFiles/src/sprite.cpp`, over the list of the
numbers that `rand()` returns (`none`: the list ran out, or a remainder by zero).

    place_pose  : where the three loops stop, `Pose`
    placed_safe : with water below the top, the stored cell is dry, in the map and over AIR only;
                  a worm there stays where it is
-/

namespace LombricABrac

open Sprite

namespace Map

/-- `getHauteur() - getWaterLevel()`, in `uint32_t`. -/
def ligneEau (m : Map) : Nat := (2 ^ 32 + m.hauteur - m.waterLevel) % 2 ^ 32

/-- The inner `while`, from row `y`: the landing row, `none` where `run` stays true. -/
def glisse (m : Map) (x : Nat) : Nat → Nat → Option Nat
  | 0, _ => none
  | fuel + 1, y =>
    if y < m.hauteur - 1 then
      if m.ligneEau ≤ y then none
      else if m.isTypeBloc x (y + 1) air then m.glisse x fuel (y + 1)
      else some y
    else none

/-- `x`, `saveY` and the landing `y`, with the numbers left. -/
def place (m : Map) : List Nat → Option ((Nat × Nat × Nat) × List Nat)
  | a :: b :: rand =>
    if m.largeur = 0 ∨ m.hauteur = 0 then none
    else if m.isTypeBloc (a % m.largeur) (b % m.hauteur) air then
      match m.glisse (a % m.largeur) m.hauteur (b % m.hauteur) with
      | some y => some ((a % m.largeur, b % m.hauteur, y), rand)
      | none => m.place rand
    else m.place rand
  | _ => none

/-- `posX` and `posY` of the constructor, with the numbers left. -/
def placement (m : Map) (canFly : Bool) (rand : List Nat) : Option ((Nat × Nat) × List Nat) :=
  (m.place rand).map fun p => ((p.1.1, if canFly then p.1.2.1 else p.1.2.2), p.2)

/-- `new Lombric_c(id, pv, maxPv, carte)`; `canFly` is false by default. -/
def nouveauLombric (m : Map) (adresse id : Nat) (pv maxPv : Int) (rand : List Nat) :
    Option (Sprite × List Nat) :=
  (m.placement false rand).map fun p => (⟨⟨adresse, p.1.1, p.1.2, none⟩, .lombric ⟨id, pv, maxPv⟩⟩, p.2)

/-- Where the loops stop: `y` is the first row from `saveY` on with something below it, above the
water and above the last row. -/
structure Pose (m : Map) (x saveY y : Nat) : Prop where
  dernier : y + 1 < m.hauteur
  sec : y < m.ligneEau
  le : saveY ≤ y
  colonne_air : ∀ j, saveY ≤ j → j ≤ y → m.isTypeBloc x j air = true
  appui : m.isTypeBloc x (y + 1) air = false

theorem Pose.isTypeBloc {m : Map} {x saveY y : Nat} (h : Pose m x saveY y) : m.isTypeBloc x y air = true :=
  h.colonne_air y h.le le_rfl

/-- One row further down, over AIR. -/
theorem Pose.remonte {m : Map} {x saveY y : Nat} (h : Pose m x (saveY + 1) y)
    (ha : m.isTypeBloc x saveY air = true) : Pose m x saveY y := by
  refine ⟨h.dernier, h.sec, by have := h.le; omega, fun j hj hjy => ?_, h.appui⟩
  rcases eq_or_lt_of_le hj with rfl | hlt
  · exact ha
  · exact h.colonne_air j hlt hjy

theorem glisse_pose (m : Map) (x : Nat) (fuel : Nat) : ∀ {y y' : Nat},
    m.isTypeBloc x y air = true → m.glisse x fuel y = some y' → Pose m x y y' := by
  induction fuel with
  | zero => intro y y' _ h; cases h
  | succ fuel ih =>
    intro y y' hy h
    rw [glisse] at h
    split at h
    · next hbord =>
      split at h
      · simp at h
      · next heau =>
        split at h
        · next hbas => exact (ih hbas h).remonte hy
        · next hbas =>
          cases h
          refine ⟨by omega, by omega, le_rfl, fun j h1 h2 => ?_, by simpa using hbas⟩
          rwa [le_antisymm h2 h1]
    · simp at h

theorem place_pose (m : Map) (rand : List Nat) : ∀ {x saveY y : Nat} {reste : List Nat},
    m.place rand = some ((x, saveY, y), reste) → Pose m x saveY y := by
  induction rand using List.twoStepInduction with
  | nil => intro x saveY y reste h; cases h
  | singleton a => intro x saveY y reste h; cases h
  | cons_cons a b rand ih _ =>
    intro x saveY y reste h
    rw [place] at h
    split at h
    · simp at h
    · split at h
      · next hair =>
        split at h
        · next y' hy' =>
          cases h
          exact m.glisse_pose _ _ hair hy'
        · exact ih h
      · exact ih h

theorem place_spec (m : Map) (rand : List Nat) {x saveY y : Nat} {reste : List Nat}
    (h : m.place rand = some ((x, saveY, y), reste)) :
    m.isTypeBloc x saveY air = true ∧ m.isTypeBloc x y air = true ∧
      m.isTypeBloc x (y + 1) air = false :=
  have hp := m.place_pose rand h
  ⟨hp.colonne_air saveY le_rfl hp.le, hp.isTypeBloc, hp.appui⟩

theorem ligneEau_eq {m : Map} (h : m.waterLevel < m.hauteur) : m.ligneEau = m.hauteur - m.waterLevel := by
  have := m.hauteur_lt
  unfold ligneEau
  omega

/-- Above a cell that is not AIR, and above the drowning line, a worm stays as it is. -/
theorem updateLombric_pose {m : Map} {x saveY y : Nat} (h : Pose m x saveY y) (hw : m.waterLevel = 0)
    (adresse : Nat) {l : Lombric} (hl : 0 < l.vie) (t : Int) :
    updateLombric m t ⟨adresse, x, y, none⟩ l = ⟨true, ⟨⟨adresse, x, y, none⟩, .lombric l⟩, none⟩ := by
  have hbas : ¬ m.isAir (x : Int) ((y : Int) + 1) = true := by
    have e : u32 ((y : Int) + 1) = y + 1 := by exact_mod_cast u32_natCast (y + 1)
    simp [isAir, e, h.appui]
  have hsec : ¬ m.ligneNoyade ≤ y := by
    have := h.dernier
    rw [ligneNoyade_eq (by omega)]
    omega
  have htombe : Base.tombe m t gravity ⟨adresse, x, y, none⟩ = ⟨adresse, x, y, none⟩ :=
    if_neg fun hn => hbas hn.2
  simp only [updateLombric, avanceLombric, Base.vol, htombe, u32_natCast, if_neg hsec]
  rw [if_neg (by omega)]
  simp only [ne_eq, hl.ne', not_false_eq_true, decide_true]

/-- **Worms and boxes are placed safely.**  The column of the landing row `y` is AIR from the first row
drawn on; a worm put on `y` before the water rises is left as it is by its first update. -/
theorem placed_safe (m : Map) (hw : m.waterLevel < m.hauteur) (canFly : Bool) (rand : List Nat)
    {x saveY y : Nat} {reste : List Nat} (h : m.place rand = some ((x, saveY, y), reste)) :
    (y + 2 ≤ m.hauteur ∧ y < m.hauteur - m.waterLevel ∧ m.bloc x y = some air ∧
      ∃ c, m.bloc x (y + 1) = some c ∧ c ≠ air) ∧
    (m.placement canFly rand = some ((x, if canFly then saveY else y), reste) ∧
      saveY ≤ y ∧ ∀ j, saveY ≤ j → j ≤ y → m.bloc x j = some air) ∧
    (m.waterLevel = 0 → ∀ (adresse id : Nat) (pv maxPv : Int), 0 < pv →
      ∃ s, m.nouveauLombric adresse id pv maxPv rand = some (s, reste) ∧
        s.toBase = ⟨adresse, x, y, none⟩ ∧ s.getLife = pv ∧
        ∀ t v, s.update m t v = ⟨true, s, none⟩) := by
  have hp := m.place_pose rand h
  have hair : ∀ j, saveY ≤ j → j ≤ y → m.bloc x j = some air := fun j h1 h2 =>
    (m.isTypeBloc_iff x j air).mp (hp.colonne_air j h1 h2)
  refine ⟨⟨hp.dernier, ?_, hair y hp.le le_rfl, ?_⟩, ⟨by simp [placement, h], hp.le, hair⟩, ?_⟩
  · rw [← ligneEau_eq hw]
    exact hp.sec
  · have hx := (lt_of_bloc (hair y hp.le le_rfl)).1
    refine ⟨_, bloc_of_lt ⟨hx, hp.dernier⟩, fun hc => ?_⟩
    have := hp.appui
    rw [Map.isTypeBloc, bloc_of_lt ⟨hx, hp.dernier⟩, hc] at this
    simp at this
  · intro hw0 adresse id pv maxPv hpv
    refine ⟨_, by simp only [nouveauLombric, placement, h]; rfl, rfl, rfl, fun t _ => ?_⟩
    exact updateLombric_pose hp hw0 adresse (l := ⟨id, pv, maxPv⟩) hpv t

theorem placed_safe_petite :
    petite.place [1, 1] = some ((1, 1, 2), []) ∧ petite.placement true [1, 1] = some ((1, 1), []) ∧
      ∃ s, petite.nouveauLombric 0 7 100 150 [1, 1] = some (s, []) ∧ s.toBase = ⟨0, (1 : Nat), (2 : Nat), none⟩ ∧
        s.getLife = 100 ∧ ∀ t v, s.update petite t v = ⟨true, s, none⟩ :=
  have hp : petite.place [1, 1] = some ((1, 1, 2), []) := by decide +kernel
  have hs := placed_safe petite (by decide) true [1, 1] hp
  ⟨hp, hs.2.1.1, hs.2.2 rfl 0 7 100 150 (by decide)⟩

end Map

end LombricABrac
