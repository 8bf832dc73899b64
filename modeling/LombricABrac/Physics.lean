import Mathlib.Data.Rat.Floor
import Mathlib.Algebra.Order.Archimedean.Basic
import Mathlib.Algebra.Order.Floor.Ring
import Mathlib.Tactic.Linarith
import Mathlib.Tactic.NormNum
import Mathlib.Tactic.Ring
import Mathlib.Tactic.Positivity
import Mathlib.Tactic.FieldSimp

/-!
# Movements

`PhysicsObject` of `sharedFiles/src/physicsObject.cpp`.  A `double` is read as the
rational it denotes and computed with exactly; times are in milliseconds.

    update_ge   : a parabola passes below any line and stays below
    update_drop : a fall from rest, `k` ticks after it starts, is `chute g k` rows lower
-/

namespace LombricABrac

/-- Conversion of a `double` to `int`: toward zero. -/
def castInt (q : ℚ) : Int := if 0 ≤ q then ⌊q⌋ else -⌊-q⌋

/-- `std::round`: to the nearest integer, halves away from zero. -/
def stdRound (q : ℚ) : Int := if 0 ≤ q then ⌊q + 1 / 2⌋ else -⌊-q + 1 / 2⌋

inductive MoveType where
  | MRU
  | PARABOLE
  deriving DecidableEq, Repr

structure PhysicsObject where
  initX : Int
  initY : Int
  initSpeedX : ℚ
  initSpeedY : ℚ
  gravity : ℚ
  initTime : Int
  moveType : MoveType
  deriving DecidableEq, Repr

namespace PhysicsObject

/-- `(t - initTime) / 1000`, in seconds. -/
def temps (mv : PhysicsObject) (t : Int) : ℚ := ((t - mv.initTime : Int) : ℚ) / 1000

def update (mv : PhysicsObject) (t : Int) : Int × Int :=
  let s := mv.temps t
  match mv.moveType with
  | .MRU => (castInt (mv.initSpeedX * s + mv.initX), castInt (mv.initSpeedY * s + mv.initY))
  | .PARABOLE =>
    (stdRound (mv.initSpeedX * s + mv.initX),
      stdRound (mv.gravity * s * s / 2 + mv.initSpeedY * s + mv.initY))

/-- The parameter is an `int`: the elapsed time is cut to whole seconds. -/
def getSpeedY (mv : PhysicsObject) (t : Int) : ℚ :=
  mv.gravity * ((t - mv.initTime).tdiv 1000 : Int) + mv.initSpeedY

end PhysicsObject

/-! ## Rounding -/

theorem sub_one_le_stdRound (q : ℚ) : q - 1 ≤ stdRound q := by
  unfold stdRound
  split
  · have := Int.lt_floor_add_one (q + 1 / 2)
    linarith
  · have := Int.floor_le (-q + 1 / 2)
    push_cast
    linarith

theorem stdRound_intCast (z : Int) : stdRound z = z := by
  have half : ∀ w : Int, ⌊(w : ℚ) + 1 / 2⌋ = w := by
    intro w
    rw [Int.floor_eq_iff]
    constructor <;> norm_num
  unfold stdRound
  split
  · exact half z
  · rw [show (-(z : ℚ)) = ((-z : Int) : ℚ) by push_cast; ring, half]
    omega

theorem stdRound_add_intCast {q : ℚ} {z : Int} (hq : 0 ≤ q) (hz : 0 ≤ z) :
    stdRound (q + z) = ⌊q + 1 / 2⌋ + z := by
  have hz' : (0 : ℚ) ≤ z := by exact_mod_cast hz
  rw [stdRound, if_pos (by linarith), show q + (z : ℚ) + 1 / 2 = q + 1 / 2 + z by ring,
    Int.floor_add_intCast]

/-! ## Parabolas leave the map -/

/-- Past some elapsed time a quadratic with a positive leading coefficient is above any bound. -/
theorem quadratic_ge (g v y H : ℚ) (hg : 0 < g) :
    ∃ T : ℚ, ∀ s ≥ T, H ≤ g * s * s / 2 + v * s + y := by
  refine ⟨max 1 (2 * (|v| + |y| + |H|) / g), fun s hs => ?_⟩
  have h1 : 1 ≤ s := (le_max_left _ _).trans hs
  have h2 : 2 * (|v| + |y| + |H|) / g ≤ s := (le_max_right _ _).trans hs
  have h3 : 2 * (|v| + |y| + |H|) ≤ g * s := by
    rw [div_le_iff₀ hg] at h2
    linarith
  have h4 : (|v| + |y| + |H|) * s ≤ g * s * s / 2 := by nlinarith
  have hv : -|v| * s ≤ v * s := by nlinarith [neg_abs_le v]
  have hy : |y| ≤ |y| * s := le_mul_of_one_le_right (abs_nonneg y) h1
  have hH : |H| ≤ |H| * s := le_mul_of_one_le_right (abs_nonneg H) h1
  linarith [neg_abs_le y, le_abs_self H]

/-- The ticks of 25 ms run through all times. -/
theorem exists_tick_ge (T : ℚ) (t t0 : Int) : ∃ N : Nat, ∀ n ≥ N,
    T ≤ ((t + n * 25 - t0 : Int) : ℚ) / 1000 := by
  obtain ⟨N, hN⟩ := exists_nat_ge (1000 * T - ((t - t0 : Int) : ℚ))
  refine ⟨N, fun n hn => ?_⟩
  have hn' : (N : ℚ) ≤ n := by exact_mod_cast hn
  have h0 : (0 : ℚ) ≤ n := by positivity
  rw [le_div_iff₀ (by norm_num)]
  push_cast at hN ⊢
  linarith

/-- **A parabola falls below every line and stays there.** -/
theorem PhysicsObject.update_ge (mv : PhysicsObject) (hm : mv.moveType = .PARABOLE)
    (hg : 0 < mv.gravity) (H t : Int) : ∃ N : Nat, ∀ n ≥ N, H ≤ (mv.update (t + n * 25)).2 := by
  obtain ⟨T, hT⟩ := quadratic_ge mv.gravity mv.initSpeedY mv.initY (H + 1) hg
  obtain ⟨N, hN⟩ := exists_tick_ge T t mv.initTime
  refine ⟨N, fun n hn => ?_⟩
  have hpos := hT (mv.temps (t + n * 25)) (hN n hn)
  have hround := sub_one_le_stdRound (mv.gravity * mv.temps (t + n * 25) * mv.temps (t + n * 25) / 2
    + mv.initSpeedY * mv.temps (t + n * 25) + mv.initY)
  have e : (mv.update (t + n * 25)).2 = stdRound (mv.gravity * mv.temps (t + n * 25)
      * mv.temps (t + n * 25) / 2 + mv.initSpeedY * mv.temps (t + n * 25) + mv.initY) := by
    simp only [PhysicsObject.update, hm]
  have : (H : ℚ) ≤ ((mv.update (t + n * 25)).2 : ℚ) := by
    rw [e]
    linarith
  exact_mod_cast this

/-! ## Free falls -/

/-- Rows fallen `k` ticks after the start, from rest. -/
def chute (g : ℚ) (k : Nat) : Int := ⌊g * (k : ℚ) ^ 2 / 3200 + 1 / 2⌋

theorem chute_mono {g : ℚ} (hg : 0 ≤ g) {j k : Nat} (h : j ≤ k) : chute g j ≤ chute g k := by
  have hjk : (j : ℚ) ^ 2 ≤ (k : ℚ) ^ 2 := by
    have : (j : ℚ) ≤ k := by exact_mod_cast h
    gcongr
  apply Int.floor_le_floor
  have := mul_le_mul_of_nonneg_left hjk hg
  linarith

theorem chute_nonneg {g : ℚ} (hg : 0 ≤ g) (k : Nat) : 0 ≤ chute g k := by
  have h0 : chute g 0 = 0 := by norm_num [chute]
  have := chute_mono hg (Nat.zero_le k)
  omega

/-- A fall from rest goes straight down. -/
theorem update_drop (x y : Int) (hy : 0 ≤ y) {g : ℚ} (hg : 0 ≤ g) (t : Int) (k : Nat) :
    (PhysicsObject.mk x y 0 0 g t .PARABOLE).update (t + k * 25) = (x, y + chute g k) := by
  have hs : ((t + k * 25 - t : Int) : ℚ) / 1000 = (k : ℚ) / 40 := by
    push_cast
    ring
  simp only [PhysicsObject.update, PhysicsObject.temps, hs, zero_mul, zero_add, add_zero, Prod.mk.injEq]
  refine ⟨stdRound_intCast x, ?_⟩
  rw [show g * ((k : ℚ) / 40) * ((k : ℚ) / 40) / 2 = g * (k : ℚ) ^ 2 / 3200 by ring,
    stdRound_add_intCast (by positivity) hy, chute]
  omega

/-- `GRAVITY`, and the integer `GRAVITY/4` of the boxes. -/
def gravity : ℚ := 25
def boxGravity : ℚ := (25 / 4 : Int)

theorem boxGravity_eq : boxGravity = 6 := by norm_num [boxGravity]

/-- Falls that stay `K` ticks in their row and are in the next one a tick later. -/
structure DescendsAfter (g : ℚ) (K : Nat) : Prop where
  pos : 0 < g
  stays : chute g K = 0
  next : chute g (K + 1) = 1

theorem gravity_descends : DescendsAfter gravity 7 := by
  constructor <;> norm_num [gravity, chute]

theorem boxGravity_descends : DescendsAfter boxGravity 16 := by
  constructor <;> norm_num [boxGravity_eq, chute]

end LombricABrac
