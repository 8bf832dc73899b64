import Mathlib.Analysis.Calculus.Deriv.Add
import Mathlib.Analysis.Calculus.Deriv.Mul
import Mathlib.Topology.Algebra.Module.ModuleTopology
import LombricABrac.Sprite

/-!
# The speed of an impact

`PhysicsObject::update` reads the time in seconds as a `double`, `getSpeedY` stores it in its `int`
parameter: the speed that `Lombric_c::update` compares with FALL_DAMAGE_SPEED is the one at the last
whole second of the movement.

    hasDerivAt_hauteur : the derivative of the height of a parabola
    getSpeedY_eq_iff   : when `getSpeedY` is that derivative
    impactExact_iff    : when a worm is hurt as its speed asks
-/

namespace LombricABrac

namespace PhysicsObject

/-- The height that `update` rounds, `s` seconds after the start of a parabola. -/
def hauteur (mv : PhysicsObject) (s : ℚ) : ℚ := mv.gravity * s * s / 2 + mv.initSpeedY * s + mv.initY

def vitesse (mv : PhysicsObject) (s : ℚ) : ℚ := mv.initSpeedY + mv.gravity * s

variable {mv : PhysicsObject}

theorem update_snd (hp : mv.moveType = .PARABOLE) (t : Int) :
    (mv.update t).2 = stdRound (mv.hauteur (mv.temps t)) := by
  simp only [update, hp, hauteur]

theorem hasDerivAt_hauteur (mv : PhysicsObject) (s : ℚ) : HasDerivAt mv.hauteur (mv.vitesse s) s := by
  have hcarre : HasDerivAt (fun u : ℚ => mv.gravity * u * u / 2) (mv.gravity * s) s := by
    have h := (((hasDerivAt_id s).const_mul mv.gravity).mul (hasDerivAt_id s)).div_const 2
    refine h.congr_deriv ?_
    simp only [id_eq]
    ring
  have hlineaire : HasDerivAt (fun u : ℚ => mv.initSpeedY * u) mv.initSpeedY s := by
    simpa using (hasDerivAt_id s).const_mul mv.initSpeedY
  refine ((hcarre.add hlineaire).add_const (mv.initY : ℚ)).congr_deriv ?_
  rw [vitesse]
  ring

/-- The quotient is exact on whole seconds only. -/
theorem tdiv_eq_temps_iff (mv : PhysicsObject) (t : Int) :
    (((t - mv.initTime).tdiv 1000 : Int) : ℚ) = mv.temps t ↔ (1000 : Int) ∣ t - mv.initTime := by
  rw [temps, eq_div_iff (by norm_num)]
  constructor
  · intro h
    have h' : (t - mv.initTime).tdiv 1000 * 1000 = t - mv.initTime := by exact_mod_cast h
    exact ⟨_, (mul_comm _ _).trans h' |>.symm⟩
  · intro h
    exact_mod_cast Int.tdiv_mul_cancel h

theorem getSpeedY_eq_iff (mv : PhysicsObject) (t : Int) :
    mv.getSpeedY t = mv.vitesse (mv.temps t) ↔ mv.gravity = 0 ∨ (1000 : Int) ∣ t - mv.initTime := by
  rw [← tdiv_eq_temps_iff, getSpeedY, vitesse, add_comm, add_right_inj, mul_eq_mul_left_iff, or_comm]

end PhysicsObject

namespace Sprite

/-- A fall that hurts costs at least 13 life points. -/
theorem castInt_sub_lt (vie : Int) {impact : ℚ} (h : fallDamageSpeed ≤ impact) :
    castInt (vie - impact) < vie := by
  have himpact : (14 : ℚ) ≤ impact := by
    rw [fallDamageSpeed] at h
    linarith
  have hlt : ((castInt (vie - impact) : Int) : ℚ) < vie := by
    unfold castInt
    split
    · have := Int.floor_le ((vie : ℚ) - impact)
      linarith
    · have := Int.lt_floor_add_one (-((vie : ℚ) - impact))
      push_cast
      linarith
  exact_mod_cast hlt

/-- The impact that stops the movement, and the life that it costs. -/
structure ImpactExact (carte : Map) (t : Int) (s : Base) (l : Lombric) (mv : PhysicsObject) : Prop where
  arrondie : (mv.update t).2 = stdRound (mv.hauteur (mv.temps t))
  vitesse : ∀ impact, s.vol carte t = .choc impact → HasDerivAt mv.hauteur impact (mv.temps t)
  dommage : (avanceLombric carte t s l).2 < l.vie ↔
    fallDamageSpeed ≤ mv.initSpeedY + mv.gravity * ((t - mv.initTime : Int) : ℚ) / 1000

theorem vol_choc {carte : Map} {t : Int} {s : Base} {mv : PhysicsObject} (hm : s.movement = some mv)
    (hmur : carte.isAir (mv.update t).1 (mv.update t).2 = false) :
    s.vol carte t = .choc (mv.getSpeedY t) := by
  simp only [Base.vol, hm, hmur, Bool.false_eq_true, if_false]

theorem avanceLombric_choc {carte : Map} {t : Int} {s : Base} {impact : ℚ}
    (hv : s.vol carte t = .choc impact) (l : Lombric) :
    (avanceLombric carte t s l).2 < l.vie ↔ fallDamageSpeed ≤ impact := by
  simp only [avanceLombric, hv]
  split
  · next h => exact iff_of_true (castInt_sub_lt l.vie h) h
  · next h => exact iff_of_false (lt_irrefl _) h

/-- **A worm is hurt as its speed asks exactly on whole seconds of its movement**, or without gravity. -/
theorem impactExact_iff (carte : Map) (t : Int) (s : Base) (l : Lombric) (mv : PhysicsObject)
    (hm : s.movement = some mv) (hp : mv.moveType = .PARABOLE)
    (hmur : carte.isAir (mv.update t).1 (mv.update t).2 = false) :
    ImpactExact carte t s l mv ↔ mv.gravity = 0 ∨ (1000 : Int) ∣ t - mv.initTime := by
  have hv := vol_choc hm hmur
  rw [← mv.getSpeedY_eq_iff t]
  constructor
  · intro h
    exact (h.vitesse _ hv).unique (mv.hasDerivAt_hauteur _)
  · intro he
    refine ⟨PhysicsObject.update_snd hp t, fun impact hi => ?_, ?_⟩
    · rw [hv] at hi
      cases hi
      rw [he]
      exact mv.hasDerivAt_hauteur _
    · rw [avanceLombric_choc hv l, he, PhysicsObject.vitesse, PhysicsObject.temps, mul_div_assoc]

/-- A free fall from the row `y`, begun at time 0. -/
def chuteLibre (y : Int) : PhysicsObject := ⟨1, y, 0, 0, gravity, 0, .PARABOLE⟩

theorem impactExact_petite :
    ImpactExact Map.petite 1000 ⟨0, 1, 0, some (chuteLibre 0)⟩ ⟨7, 100, 150⟩ (chuteLibre 0) :=
  (impactExact_iff Map.petite 1000 ⟨0, 1, 0, some (chuteLibre 0)⟩ ⟨7, 100, 150⟩ (chuteLibre 0) rfl rfl
    (by decide +kernel)).mpr (Or.inr ⟨1, by decide⟩)

/-- Five rows of AIR over SOLID_WALL, as wide as `Map.petite`. -/
def puits : Map :=
  Map.new 3 8 (fun y _ => if y.val < 5 then air else solidWall) Map.petite.largeur_lt (by decide)

/-- A worm falls down the five rows in 600 ms and lands at a speed of 15; `getSpeedY` answers 0. -/
theorem puits_indolore :
    (⟨0, 1, 4, some (chuteLibre 0)⟩ : Base).vol puits 600 = .choc 0 ∧
      (chuteLibre 0).vitesse ((chuteLibre 0).temps 600) = 15 ∧
      (updateLombric puits 575 ⟨0, 1, 3, some (chuteLibre 0)⟩ ⟨7, 100, 150⟩).sprite.posY = 4 ∧
      (avanceLombric puits 600 ⟨0, 1, 4, some (chuteLibre 0)⟩ ⟨7, 100, 150⟩).2 = 100 ∧
      ¬ ImpactExact puits 600 ⟨0, 1, 4, some (chuteLibre 0)⟩ ⟨7, 100, 150⟩ (chuteLibre 0) := by
  have hmur : puits.isAir ((chuteLibre 0).update 600).1 ((chuteLibre 0).update 600).2 = false := by
    decide +kernel
  have hspeed : (chuteLibre 0).getSpeedY 600 = 0 := by decide +kernel
  have hvie : (avanceLombric puits 600 ⟨0, 1, 4, some (chuteLibre 0)⟩ ⟨7, 100, 150⟩).2 = 100 := by
    decide +kernel
  refine ⟨(vol_choc rfl hmur).trans (by rw [hspeed]), by decide +kernel, by decide +kernel, hvie, fun h => ?_⟩
  have hseuil : fallDamageSpeed ≤ (chuteLibre 0).initSpeedY +
      (chuteLibre 0).gravity * ((600 - (chuteLibre 0).initTime : Int) : ℚ) / 1000 := by decide +kernel
  have hperte := h.dommage.mpr hseuil
  rw [hvie] at hperte
  exact absurd hperte (by decide)

end Sprite

end LombricABrac
