import LombricABrac.Map
import LombricABrac.Physics

/-!
# Sprites: worms, projectiles, health boxes

The class `Sprite` and its three subclasses (`sharedFiles/src/{sprite,lombric,projectile,
healthBox}.cpp`).  `adresse` is the identity of the object that a `Sprite*` points to;
only a worm has an `id`, the other constructors pass `0`.

    Sprite.update    : the virtual `update`: is it alive, the sprite after it, the worm it heals
    Sprite.deathMove : the explosion of a projectile: the new map, the cells dug, the worms hit
    Sprite.vol_libre : a flight only ever ends in AIR
-/

namespace LombricABrac

structure Lombric where
  id : Nat
  vie : Int
  maxVie : Int
  deriving DecidableEq, Repr

structure Projectile where
  radius : Nat
  radius_pos : 0 < radius
  dommage : Int
  deriving DecidableEq, Repr

structure HealthBox where
  health : Int
  deriving DecidableEq, Repr

/-- The subclass of a sprite. -/
inductive Corps where
  | lombric (l : Lombric)
  | projectile (p : Projectile)
  | healthBox (b : HealthBox)
  deriving DecidableEq, Repr

/-- The fields of the base class. -/
structure Base where
  adresse : Nat
  posX : Int
  posY : Int
  movement : Option PhysicsObject
  deriving DecidableEq, Repr

structure Sprite extends Base where
  corps : Corps
  deriving DecidableEq, Repr

/-- `isTypeBloc(static_cast<uint32_t>(x), static_cast<uint32_t>(y), AIR)`. -/
def Map.isAir (m : Map) (x y : Int) : Bool := m.isTypeBloc (u32 x) (u32 y) air

/-- `getHauteur() - getWaterLevel() - 1`, in `uint32_t`. -/
def Map.ligneNoyade (m : Map) : Nat := (2 ^ 32 + m.hauteur - m.waterLevel - 1) % 2 ^ 32

/-- `FALL_DAMAGE_SPEED`. -/
def fallDamageSpeed : ℚ := 1414 / 100

def Lombric.addLife (l : Lombric) (n : Int) : Lombric :=
  { l with vie := if l.maxVie < l.vie + n then l.maxVie else l.vie + n }

/-- `round(degat * (radius - √n) / radius)` in integers: `√(4 degat² n)` is rounded up before the
division, which changes no floor. -/
def dommageExplosion (degat : Int) (radius n : Nat) : Int :=
  degat.sign * (((2 * degat.natAbs + 1) * radius - Map.ceilSqrt (4 * degat.natAbs ^ 2 * n) : Int)
    / (2 * radius))

/-! ## Movement -/

/-- What a movement meets at time `t`; `impact` is its vertical speed there. -/
inductive Vol where
  | repos
  | choc (impact : ℚ)
  | libre (x y : Int)

namespace Base

def setPos (s : Base) (x y : Int) : Base := { s with posX := x, posY := y }

def deleteMovement (s : Base) : Base := { s with movement := none }

def setMovement (s : Base) (speedX speedY gravity : ℚ) (type : MoveType) (t : Int) : Base :=
  { s with movement := some ⟨s.posX, s.posY, speedX, speedY, gravity, t, type⟩ }

/-- The test that opens the three `update`s. -/
def vol (carte : Map) (t : Int) (s : Base) : Vol :=
  match s.movement with
  | none => .repos
  | some mv =>
    if carte.isAir (mv.update t).1 (mv.update t).2 then .libre (mv.update t).1 (mv.update t).2
    else .choc (mv.getSpeedY t)

/-- At rest over AIR: a free fall begins. -/
def tombe (carte : Map) (t : Int) (gravity : ℚ) (s : Base) : Base :=
  if s.movement = none ∧ carte.isAir s.posX (s.posY + 1) then s.setMovement 0 0 gravity .PARABOLE t
  else s

end Base

/-! ## `update` -/

namespace Sprite

def getId (s : Sprite) : Nat :=
  match s.corps with
  | .lombric l => l.id
  | _ => 0

/-- `dynamic_cast<Lombric_c*>(s)->getLife()`, for a worm. -/
def getLife (s : Sprite) : Int :=
  match s.corps with
  | .lombric l => l.vie
  | _ => 0

def isInMovement (s : Sprite) : Bool := s.movement.isSome

def addLife (s : Sprite) (n : Int) : Sprite :=
  match s.corps with
  | .lombric l => { s with corps := .lombric (l.addLife n) }
  | _ => s

/-- What a call of `update` leaves: its answer, the sprite, and the worm it gave life to. -/
structure Effet where
  alive : Bool
  sprite : Sprite
  soin : Option (Nat × Int)

/-- The movement block of a worm, with the damage of the fall. -/
def avanceLombric (carte : Map) (t : Int) (s : Base) (l : Lombric) : Base × Int :=
  match s.vol carte t with
  | .repos => (s, l.vie)
  | .choc impact =>
    (s.deleteMovement, if fallDamageSpeed ≤ impact then castInt (l.vie - impact) else l.vie)
  | .libre x y => if carte.hauteur < u32 y then (s, 0) else (s.setPos x y, l.vie)

def updateLombric (carte : Map) (t : Int) (s : Base) (l : Lombric) : Effet :=
  let bouge := avanceLombric carte t s l
  let s := bouge.1.tombe carte t gravity
  let vie := if carte.ligneNoyade ≤ u32 s.posY then 0 else bouge.2
  let vie := if vie < 0 then 0 else vie
  ⟨decide (vie ≠ 0), ⟨s, .lombric { l with vie }⟩, none⟩

def updateProjectile (carte : Map) (t : Int) (s : Base) (p : Projectile) : Effet :=
  match s.vol carte t with
  | .repos => ⟨true, ⟨s, .projectile p⟩, none⟩
  | .choc _ => ⟨false, ⟨s.deleteMovement, .projectile p⟩, none⟩
  | .libre x y => ⟨true, ⟨s.setPos x y, .projectile p⟩, none⟩

/-- The first worm of the vector on the cell of `s`. -/
def surMaCase (s : Base) (spriteVector : List Sprite) : Option Sprite :=
  spriteVector.find? fun w => w.getId ≠ 0 ∧ w.posX = s.posX ∧ w.posY = s.posY

/-- The end of `HealthBox::update`: the fall, then the worm that takes the box. -/
def ramasse (carte : Map) (t : Int) (spriteVector : List Sprite) (s : Base) (b : HealthBox) :
    Effet :=
  let s := s.tombe carte t boxGravity
  match surMaCase s spriteVector with
  | some w => ⟨false, ⟨s, .healthBox b⟩, some (w.adresse, b.health)⟩
  | none => ⟨true, ⟨s, .healthBox b⟩, none⟩

def updateHealthBox (carte : Map) (t : Int) (spriteVector : List Sprite) (s : Base)
    (b : HealthBox) : Effet :=
  match s.vol carte t with
  | .repos => ramasse carte t spriteVector s b
  | .choc _ => ramasse carte t spriteVector s.deleteMovement b
  | .libre x y =>
    if carte.hauteur < u32 y then ⟨false, ⟨s, .healthBox b⟩, none⟩
    else ramasse carte t spriteVector (s.setPos x y) b

def update (carte : Map) (t : Int) (spriteVector : List Sprite) (s : Sprite) : Effet :=
  match s.corps with
  | .lombric l => updateLombric carte t s.toBase l
  | .projectile p => updateProjectile carte t s.toBase p
  | .healthBox b => updateHealthBox carte t spriteVector s.toBase b

/-- The object at that address receives the life points. -/
def recoit (soin : Option (Nat × Int)) (s : Sprite) : Sprite :=
  match soin with
  | some (a, n) => if s.adresse = a then s.addLife n else s
  | none => s

/-! ## `deathMove` -/

def explosed (xExplosion yExplosion : Int) (radius : Nat) (degat vitesse : Int) (t : Int)
    (s : Sprite) : Sprite :=
  let n := ((s.posX - xExplosion) ^ 2 + (s.posY - yExplosion) ^ 2).toNat
  if n ≤ radius ^ 2 then
    { s.addLife (dommageExplosion degat radius n) with
      toBase := s.setMovement ((vitesse * (s.posX - xExplosion)).tdiv radius : Int)
        ((vitesse * (s.posY - yExplosion)).tdiv radius : Int) gravity .PARABOLE t }
  else s

/-- The map after it, the cells it dug, and what it does to each other sprite. -/
def deathMove (carte : Map) (t : Int) (s : Sprite) : Map × List Int × (Sprite → Sprite) :=
  match s.corps with
  | .projectile p =>
    let (carte, destroyedBloc) := carte.explose s.posX s.posY p.radius
    (carte, destroyedBloc,
      fun sp => if sp.getId ≠ 0 then sp.explosed s.posX s.posY p.radius p.dommage 10 t else sp)
  | _ => (carte, [], fun sp => sp)

end Sprite

/-! ## AIR cells -/

namespace Map

theorem isAir_iff (m : Map) (x y : Int) : m.isAir x y = true ↔ m.bloc (u32 x) (u32 y) = some air :=
  m.isTypeBloc_iff _ _ _

/-- An AIR cell is inside the map, and its coordinates are not negative. -/
theorem lt_of_isAir {m : Map} {x y : Int} (h : m.isAir x y = true) :
    (0 ≤ x ∧ x < m.largeur) ∧ 0 ≤ y ∧ y < m.hauteur := by
  have hlt := lt_of_bloc ((m.isAir_iff x y).mp h)
  have hx := eq_of_u32_lt (hlt.1.trans m.largeur_lt)
  have hy := eq_of_u32_lt (hlt.2.trans m.hauteur_lt)
  omega

theorem u32_lt_of_isAir {m : Map} {x y : Int} (h : m.isAir x y = true) : u32 y < m.hauteur :=
  (lt_of_bloc ((m.isAir_iff x y).mp h)).2

theorem AirLe.isAir {m m' : Map} (h : AirLe m m') {x y : Int} (ha : m.isAir x y = true) :
    m'.isAir x y = true :=
  (m'.isAir_iff x y).mpr (h.air_mono _ _ ((m.isAir_iff x y).mp ha))

theorem ligneNoyade_eq {m : Map} (h : m.waterLevel < m.hauteur) :
    m.ligneNoyade = m.hauteur - m.waterLevel - 1 := by
  have := m.hauteur_lt
  unfold ligneNoyade
  omega

end Map

/-! ## What `update` does to the base fields -/

namespace Base

/-- What the movement block leaves; the test on `getHauteur` in it is never true. -/
def avance (carte : Map) (t : Int) (s : Base) : Base :=
  match s.vol carte t with
  | .repos => s
  | .choc _ => s.deleteMovement
  | .libre x y => s.setPos x y

theorem vol_repos {carte : Map} {t : Int} {s : Base} (h : s.vol carte t = .repos) :
    s.movement = none := by
  unfold vol at h
  split at h
  · assumption
  · split at h <;> cases h

theorem vol_libre {carte : Map} {t : Int} {s : Base} {x y : Int} (h : s.vol carte t = .libre x y) :
    carte.isAir x y = true ∧ ∃ mv, s.movement = some mv ∧ mv.update t = (x, y) := by
  unfold vol at h
  split at h
  · simp at h
  · next mv hmv =>
    split at h
    · next ha =>
      cases h
      exact ⟨ha, mv, hmv, rfl⟩
    · simp at h

theorem not_hauteur_lt {carte : Map} {t : Int} {s : Base} {x y : Int}
    (h : s.vol carte t = .libre x y) : ¬ carte.hauteur < u32 y := by
  have := Map.u32_lt_of_isAir (vol_libre h).1
  omega

@[simp] theorem avance_adresse (carte : Map) (t : Int) (s : Base) :
    (s.avance carte t).adresse = s.adresse := by
  unfold avance
  split <;> rfl

@[simp] theorem tombe_adresse (carte : Map) (t : Int) (g : ℚ) (s : Base) :
    (s.tombe carte t g).adresse = s.adresse := by
  unfold tombe
  split <;> rfl

/-- The fall starts a movement and moves nothing. -/
theorem tombe_pos (carte : Map) (t : Int) (g : ℚ) (s : Base) :
    (s.tombe carte t g).posX = s.posX ∧ (s.tombe carte t g).posY = s.posY := by
  unfold tombe
  split <;> exact ⟨rfl, rfl⟩

theorem tombe_none {carte : Map} {t : Int} {g : ℚ} {s : Base}
    (h : (s.tombe carte t g).movement = none) : carte.isAir s.posX (s.posY + 1) = false := by
  unfold tombe at h
  split at h
  · cases h
  · next hn => simpa [h] using hn

end Base

/-- Only a worm has an id. -/
theorem exists_lombric {s : Sprite} (h : s.getId ≠ 0) : ∃ l, s.corps = .lombric l := by
  unfold Sprite.getId at h
  split at h
  · next l hl => exact ⟨l, hl⟩
  · exact absurd rfl h

namespace Sprite

/-- What never changes in a sprite: its subclass, and for a worm its id. -/
inductive Forme where
  | lombric (id : Nat)
  | projectile
  | healthBox
  deriving DecidableEq

def forme (s : Sprite) : Forme :=
  match s.corps with
  | .lombric l => .lombric l.id
  | .projectile _ => .projectile
  | .healthBox _ => .healthBox

theorem getId_of_forme {s s' : Sprite} (h : s.forme = s'.forme) : s.getId = s'.getId := by
  obtain ⟨b, c⟩ := s
  obtain ⟨b', c'⟩ := s'
  cases c <;> cases c' <;> simp_all [forme, getId]

theorem avanceLombric_fst (carte : Map) (t : Int) (s : Base) (l : Lombric) :
    (avanceLombric carte t s l).1 = s.avance carte t := by
  unfold avanceLombric Base.avance
  split
  · rfl
  · rfl
  · next h => rw [if_neg (Base.not_hauteur_lt h)]

theorem updateLombric_toBase (carte : Map) (t : Int) (s : Base) (l : Lombric) :
    (updateLombric carte t s l).sprite.toBase = (s.avance carte t).tombe carte t gravity := by
  rw [← avanceLombric_fst carte t s l]
  rfl

/-- A worm that lives through its update has positive life and is above the drowning line. -/
theorem updateLombric_alive {carte : Map} {t : Int} {s : Base} {l : Lombric}
    (h : (updateLombric carte t s l).alive = true) :
    ∃ vie, 0 < vie ∧ (updateLombric carte t s l).sprite.corps = .lombric { l with vie } ∧
      u32 (updateLombric carte t s l).sprite.posY < carte.ligneNoyade := by
  simp only [updateLombric, decide_eq_true_eq] at h ⊢
  refine ⟨_, ?_, rfl, ?_⟩
  · split at h <;> split <;> omega
  · by_contra hle
    rw [not_lt] at hle
    simp [hle] at h

theorem updateProjectile_toBase (carte : Map) (t : Int) (s : Base) (p : Projectile) :
    (updateProjectile carte t s p).sprite.toBase = s.avance carte t := by
  unfold updateProjectile Base.avance
  split <;> rfl

theorem ramasse_toBase (carte : Map) (t : Int) (v : List Sprite) (s : Base) (b : HealthBox) :
    (ramasse carte t v s b).sprite.toBase = s.tombe carte t boxGravity := by
  unfold ramasse
  simp only
  split <;> rfl

theorem updateHealthBox_eq (carte : Map) (t : Int) (v : List Sprite) (s : Base) (b : HealthBox) :
    updateHealthBox carte t v s b = ramasse carte t v (s.avance carte t) b := by
  unfold updateHealthBox Base.avance
  split
  · rfl
  · rfl
  · next h => rw [if_neg (Base.not_hauteur_lt h)]

/-- The base fields after an update: they depend on the map and on the sprite alone. -/
def deplace (carte : Map) (t : Int) (s : Sprite) : Base :=
  match s.corps with
  | .lombric _ => (s.avance carte t).tombe carte t gravity
  | .projectile _ => s.avance carte t
  | .healthBox _ => (s.avance carte t).tombe carte t boxGravity

theorem update_toBase (carte : Map) (t : Int) (v : List Sprite) (s : Sprite) :
    (s.update carte t v).sprite.toBase = s.deplace carte t := by
  obtain ⟨b, c⟩ := s
  cases c with
  | lombric l => exact updateLombric_toBase carte t b l
  | projectile p => exact updateProjectile_toBase carte t b p
  | healthBox x =>
    simp only [update, deplace, updateHealthBox_eq]
    exact ramasse_toBase carte t v (b.avance carte t) x

theorem update_adresse (carte : Map) (t : Int) (v : List Sprite) (s : Sprite) :
    (s.update carte t v).sprite.adresse = s.adresse := by
  rw [update_toBase]
  unfold deplace
  split <;> simp

theorem update_forme (carte : Map) (t : Int) (v : List Sprite) (s : Sprite) :
    (s.update carte t v).sprite.forme = s.forme := by
  obtain ⟨b, c⟩ := s
  cases c with
  | lombric l => rfl
  | projectile p =>
    simp only [update, updateProjectile]
    split <;> rfl
  | healthBox x =>
    simp only [update, updateHealthBox_eq, ramasse]
    split <;> rfl

/-- The sprite after an update; the rest of the vector has no part in it. -/
def suivant (carte : Map) (t : Int) (s : Sprite) : Sprite := (s.update carte t []).sprite

theorem update_sprite (carte : Map) (t : Int) (v : List Sprite) (s : Sprite) :
    (s.update carte t v).sprite = s.suivant carte t := by
  obtain ⟨b, c⟩ := s
  cases c with
  | lombric l => rfl
  | projectile p => rfl
  | healthBox x =>
    simp only [suivant, update, updateHealthBox_eq, ramasse]
    split <;> split <;> rfl

theorem suivant_toBase (carte : Map) (t : Int) (s : Sprite) :
    (s.suivant carte t).toBase = s.deplace carte t := update_toBase carte t [] s

theorem suivant_forme (carte : Map) (t : Int) (s : Sprite) : (s.suivant carte t).forme = s.forme :=
  update_forme carte t [] s

/-- A worm or a box that an update leaves at rest has something below it. -/
theorem isAir_below_suivant {carte : Map} {t : Int} {s : Sprite} (hp : s.forme ≠ .projectile)
    (h : (s.suivant carte t).movement = none) :
    carte.isAir (s.suivant carte t).posX ((s.suivant carte t).posY + 1) = false := by
  rw [suivant_toBase] at h ⊢
  unfold deplace at h ⊢
  split at h
  · rw [(Base.tombe_pos ..).1, (Base.tombe_pos ..).2]
    exact Base.tombe_none h
  · next hc =>
    unfold forme at hp
    rw [hc] at hp
    exact absurd rfl hp
  · rw [(Base.tombe_pos ..).1, (Base.tombe_pos ..).2]
    exact Base.tombe_none h

/-- Only a box that disappears gives life. -/
theorem soin_of_alive {carte : Map} {t : Int} {v : List Sprite} {s : Sprite}
    (h : (s.update carte t v).alive = true) : (s.update carte t v).soin = none := by
  obtain ⟨b, c⟩ := s
  cases c with
  | lombric l => rfl
  | projectile p =>
    simp only [update, updateProjectile]
    split <;> rfl
  | healthBox x =>
    simp only [update, updateHealthBox_eq, ramasse] at h ⊢
    split at h
    · simp at h
    · rfl

@[simp] theorem addLife_toBase (s : Sprite) (n : Int) : (s.addLife n).toBase = s.toBase := by
  unfold addLife
  split <;> rfl

theorem addLife_forme (s : Sprite) (n : Int) : (s.addLife n).forme = s.forme := by
  obtain ⟨b, c⟩ := s
  cases c <;> rfl

@[simp] theorem recoit_toBase (soin : Option (Nat × Int)) (s : Sprite) :
    (recoit soin s).toBase = s.toBase := by
  unfold recoit
  split
  · split <;> simp
  · rfl

theorem recoit_forme (soin : Option (Nat × Int)) (s : Sprite) : (recoit soin s).forme = s.forme := by
  unfold recoit
  split
  · split
    · exact addLife_forme s _
    · rfl
  · rfl

theorem explosed_forme (x y : Int) (r : Nat) (degat vitesse t : Int) (s : Sprite) :
    (s.explosed x y r degat vitesse t).forme = s.forme := by
  unfold explosed
  simp only
  split
  · exact addLife_forme s _
  · rfl

/-- An explosion leaves the position of a sprite, and gives it a parabola or nothing. -/
theorem explosed_toBase (x y : Int) (r : Nat) (degat vitesse t : Int) (s : Sprite) :
    (s.explosed x y r degat vitesse t).toBase = s.toBase ∨
      ∃ vx vy, (s.explosed x y r degat vitesse t).toBase = s.setMovement vx vy gravity .PARABOLE t := by
  unfold explosed
  simp only
  split
  · exact Or.inr ⟨_, _, rfl⟩
  · exact Or.inl rfl

theorem deathMove_forme (carte : Map) (t : Int) (s o : Sprite) :
    ((s.deathMove carte t).2.2 o).forme = o.forme := by
  unfold deathMove
  split
  · simp only
    split
    · exact explosed_forme ..
    · rfl
  · rfl

/-- A death leaves every other sprite as it was, or throws a worm. -/
theorem deathMove_toBase (carte : Map) (t : Int) (s o : Sprite) :
    ((s.deathMove carte t).2.2 o).toBase = o.toBase ∨ (o.getId ≠ 0 ∧
      ∃ vx vy, ((s.deathMove carte t).2.2 o).toBase = o.setMovement vx vy gravity .PARABOLE t) := by
  unfold deathMove
  split
  · simp only
    split
    · next hid =>
      rcases explosed_toBase s.posX s.posY _ _ 10 t o with h | h
      · exact Or.inl h
      · exact Or.inr ⟨hid, h⟩
    · exact Or.inl rfl
  · exact Or.inl rfl

theorem deathMove_dug (carte : Map) (t : Int) (s : Sprite) :
    ∃ cs, (s.deathMove carte t).2.1.map u32 = Map.flat cs ∧
      Map.Dug carte cs (s.deathMove carte t).1 := by
  unfold deathMove
  split
  · exact carte.explose_dug s.posX s.posY _
  · exact ⟨[], rfl, Map.dug_nil carte⟩

end Sprite

end LombricABrac
