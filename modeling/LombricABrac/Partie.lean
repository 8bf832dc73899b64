import LombricABrac.Placement
import LombricABrac.Lib.Ticks

/-!
# The game object: `Partie` on the server

`Server/src/partie_serv.cpp`, with the weapons (`arme.cpp`) and the constructor of `Sprite` that
places a worm or a box (`sprite.cpp`).  A pass of `updateSprites` is read as a zipper: `etape`
treats the head of `apres` and puts the survivor at the end of `avant`.

    etape_cons          : one step of the pass, by the answer of the sprite
    updateSprites_keeps : what each step keeps, a pass keeps
    updateSprites_quiet : a pass that answers `false` is the update of each sprite, nothing else
-/

namespace LombricABrac

/-- `infoPartie_s` and the members of `Partie`; `suivante` is the next free address. -/
structure Partie where
  carte : Map
  spriteVector : List Sprite
  currentWorms : Option Nat
  blockDeleted : List Nat
  endTour : Bool
  suivante : Nat

/-- The state inside a pass. -/
structure Passe where
  carte : Map
  avant : List Sprite
  apres : List Sprite
  blockDeleted : List Nat
  endTour : Bool
  isMovement : Bool

namespace Passe

/-- The vector in the middle of the pass. -/
def tous (p : Passe) : List Sprite := p.avant ++ p.apres

/-- The sprite that is updated, at the head of `apres`, stays in the vector. -/
def survit (t : Int) (p : Passe) (s : Sprite) (apres : List Sprite) : Passe :=
  let e := s.update p.carte t p.tous
  { p with
    avant := p.avant.map (Sprite.recoit e.soin) ++ [e.sprite]
    apres := apres.map (Sprite.recoit e.soin)
    endTour := p.endTour || (s.getId != 0 && e.sprite.getLife != s.getLife)
    isMovement := p.isMovement || e.sprite.isInMovement }

/-- It dies: `deathMove`, then it is erased. -/
def meurt (t : Int) (p : Passe) (s : Sprite) (apres : List Sprite) : Passe :=
  let e := s.update p.carte t p.tous
  let d := e.sprite.deathMove p.carte t
  { carte := d.1
    avant := (p.avant.map (Sprite.recoit e.soin)).map d.2.2
    apres := (apres.map (Sprite.recoit e.soin)).map d.2.2
    blockDeleted := p.blockDeleted ++ d.2.1.map u32
    endTour := p.endTour || (s.getId != 0 && e.sprite.getLife != s.getLife)
    isMovement := true }

/-- The body of the `while` of `updateSprites`. -/
def etape (t : Int) (p : Passe) : Passe :=
  match p.apres with
  | [] => p
  | s :: apres =>
    if (s.update p.carte t p.tous).alive then p.survit t s apres
    else p.meurt t s apres

end Passe

namespace Partie

/-- The pass from its start to its end. -/
def passe (t : Int) (p : Partie) : Passe :=
  (Passe.etape t)^[p.spriteVector.length]
    ⟨p.carte, [], p.spriteVector, p.blockDeleted, p.endTour, false⟩

def updateSprites (t : Int) (p : Partie) : Bool × Partie :=
  ((p.passe t).isMovement, { p with
    carte := (p.passe t).carte
    spriteVector := (p.passe t).avant
    blockDeleted := (p.passe t).blockDeleted
    endTour := (p.passe t).endTour })

/-- `fuel` bounds the passes; `none`: it was not enough. -/
def update (fuel : Nat) (p : Partie) : Option Partie := Ticks.loop updateSprites 25 fuel 0 p

/-- `findById`: the first sprite with that id. -/
def findById (p : Partie) (id : Nat) : Option Sprite := p.spriteVector.find? fun s => s.getId = id

/-- `dynamic_cast<Lombric_c*>(findById(spriteVector, id))`. -/
def findLombric (p : Partie) (id : Nat) : Option Sprite :=
  (p.findById id).bind fun s =>
    match s.corps with
    | .lombric _ => some s
    | _ => none

def isLombAlive (p : Partie) (id : Nat) : Bool :=
  match p.findLombric id with
  | some s => 0 < s.getLife
  | none => false

def setCurrentLomb (p : Partie) (id : Nat) : Partie :=
  { p with endTour := false, currentWorms := (p.findLombric id).map (·.adresse) }

def isTourFinish (p : Partie) : Bool := p.endTour

/-- Put a new object at the end of the vector. -/
def pushBack (p : Partie) (posX posY : Int) (movement : Option PhysicsObject) (corps : Corps) :
    Partie :=
  { p with
    spriteVector := p.spriteVector ++ [⟨⟨p.suivante, posX, posY, movement⟩, corps⟩]
    suivante := p.suivante + 1 }

/-! ## Construction -/

/-- `new Lombric_c(id, pv, maxPv, carte)` for each id, from a given address on. -/
def nouveauxLombrics (carte : Map) (pv maxPv : Int) :
    List Nat → Nat → List Nat → Option (List Sprite × List Nat)
  | [], _, rand => some ([], rand)
  | id :: ids, adresse, rand =>
    match carte.place rand with
    | none => none
    | some ((x, _, y), rand) =>
      (nouveauxLombrics carte pv maxPv ids (adresse + 1) rand).map fun (lombs, rand) =>
        (⟨⟨adresse, x, y, none⟩, .lombric ⟨id, pv, maxPv⟩⟩ :: lombs, rand)

/-- `setParam`; the constructor leaves `endTour` as the memory was. -/
def setParam (carte : Map) (listLomb : List Sprite) (endTour : Bool) : Partie :=
  ⟨carte, listLomb, none, [], endTour, listLomb.length⟩

/-- `new HealthBox(pv, carte)`, given to `addHealthBox`; with the position of the box. -/
def dropHealthBox (pv : Int) (rand : List Nat) (p : Partie) :
    Option (Partie × (Nat × Nat) × List Nat) :=
  match p.carte.place rand with
  | none => none
  | some ((x, saveY, _), rand) => some (p.pushBack x saveY none (.healthBox ⟨pv⟩), (x, saveY), rand)

theorem nouveauxLombrics_cons (carte : Map) (pv maxPv : Int) (id : Nat) (ids : List Nat) (adresse : Nat)
    (rand : List Nat) : nouveauxLombrics carte pv maxPv (id :: ids) adresse rand =
      (carte.nouveauLombric adresse id pv maxPv rand).bind fun p =>
        (nouveauxLombrics carte pv maxPv ids (adresse + 1) p.2).map fun q => (p.1 :: q.1, q.2) := by
  rw [nouveauxLombrics, Map.nouveauLombric, Map.placement]
  cases carte.place rand <;> rfl

theorem dropHealthBox_eq (pv : Int) (rand : List Nat) (p : Partie) : dropHealthBox pv rand p =
    (p.carte.placement true rand).map fun q =>
      (p.pushBack q.1.1 q.1.2 none (.healthBox ⟨pv⟩), q.1, q.2) := by
  rw [dropHealthBox, Map.placement]
  cases p.carte.place rand <;> rfl

/-- `m_map->increaseWaterLevel()`, on the map that the game and its object share. -/
def increaseWaterLevel (p : Partie) : Option Partie :=
  p.carte.increaseWaterLevel.map fun carte => { p with carte }

/-! ## Moves -/

/-- An `uint32_t` stored in an `int`. -/
def int32 (n : Nat) : Int := if n < 2 ^ 31 then n else (n : Int) - 2 ^ 32

/-- The message `Lomb_pos`. -/
structure LombPos where
  idLomb : Nat
  posX : Nat
  posY : Nat
  deriving DecidableEq

/-- The sprite at that address takes the position. -/
def poser (p : Partie) (adresse : Nat) (x y : Int) : Partie :=
  { p with spriteVector := p.spriteVector.map fun s =>
      if s.adresse = adresse then { s with toBase := s.setPos x y } else s }

/-- The two tests on `x` in the source are the same one. -/
def moveCurrentLombric (fuel : Nat) (lp : LombPos) (p : Partie) : Option Partie :=
  match p.findLombric lp.idLomb with
  | none => some p
  | some lomb =>
    let x := int32 lp.posX
    let y := int32 lp.posY
    if lomb.posX ≠ x - 1 ∧ lomb.posX ≠ x - 1 then some p
    else if lomb.posY ≠ y ∧ lomb.posY - 1 ≠ y then some p
    else (p.poser lomb.adresse x y).update fuel

/-! ## Weapons -/

/-- The message `Tir`. -/
structure Tir where
  idArme : Nat
  force : Nat
  angle : Nat
  deriving DecidableEq

/-- `cos` and `-sin` of an angle in degrees, as the library computes them. -/
abbrev Direction := Int → ℚ × ℚ

/-- The worm that `currentWorms` points to; `none`: a null or dangling pointer is read. -/
def current (p : Partie) : Option Sprite :=
  p.currentWorms.bind fun a => p.spriteVector.find? fun s => s.adresse = a

def missile : Projectile := ⟨4, by decide, -25⟩

/-- `LanceMissile("Lance 'o'", 1, 25, -25, 4)`. -/
def lanceMissile (calculDirVect : Direction) (force angle : Int) (p : Partie) : Option Partie :=
  p.current.map fun lomb =>
    let v : Int := (25 * force).tdiv 100
    let base : Base := ⟨p.suivante, lomb.posX, lomb.posY - 1, none⟩
    p.pushBack lomb.posX (lomb.posY - 1)
      (base.setMovement ((calculDirVect angle).1 * v) ((calculDirVect angle).2 * v) gravity
        .PARABOLE 0).movement (.projectile missile)

/-- `BatteBaseball("Batte", 2, 20, -25)`: the other worms on the cell of the current one. -/
def batteBaseball (calculDirVect : Direction) (angle : Int) (p : Partie) : Option Partie :=
  p.current.map fun lomb =>
    { p with spriteVector := p.spriteVector.map fun s =>
        if s.getId ≠ 0 ∧ s.adresse ≠ lomb.adresse ∧ s.posX = lomb.posX ∧ s.posY = lomb.posY then
          { s.addLife (-25) with
            toBase := s.setMovement ((calculDirVect angle).1 * 20) ((calculDirVect angle).2 * 20)
              gravity .PARABOLE 0 }
        else s }

/-- `armesVector[id_arme]->shoot`; `none` past the end of the vector. -/
def shoot (calculDirVect : Direction) (tir : Tir) (p : Partie) : Option Partie :=
  match tir.idArme with
  | 0 => p.lanceMissile calculDirVect (int32 tir.force) (int32 tir.angle)
  | 1 => p.batteBaseball calculDirVect (int32 tir.angle)
  | 2 => some p
  | _ => none

/-- One entry of `Degats_lombric`. -/
structure Degat where
  idLomb : Nat
  posX : Nat
  posY : Nat
  vie : Nat
  deriving DecidableEq, Repr

def degats (p : Partie) : List Degat :=
  (p.spriteVector.filter fun s => s.getId ≠ 0).map fun s =>
    ⟨s.getId, u32 s.posX, u32 s.posY, u32 s.getLife⟩

/-- The state after it, and the messages `Block_Destroy` and `Degats_lombric`. -/
def useWeapon (calculDirVect : Direction) (fuel : Nat) (tir : Tir) (p : Partie) :
    Option (Partie × List Nat × List Degat) :=
  ((shoot calculDirVect tir { p with blockDeleted := [] }).bind (update fuel)).map fun p =>
    (p, p.blockDeleted, p.degats)

end Partie
end LombricABrac
