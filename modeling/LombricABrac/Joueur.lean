import LombricABrac.Partie
import LombricABrac.DataBase

/-!
# Players

`Joueur` of `Server/src/in_game_player.cpp`.  The array `m_Lombrics[8]` is a list of eight ids, `0`
for an empty slot; an index outside it, a remainder by zero and an endless loop are `none`.

    getNextLombricId_returns : when the search covers every slot, it finds a living worm
-/

namespace LombricABrac

structure Joueur where
  equipe : Nat
  playerId : Nat
  currentLombric : Nat
  nbrLomb : Nat
  pseudo : String
  lombrics : List Nat
  deriving DecidableEq

namespace Joueur

/-- The constructor. -/
def new : Joueur := ⟨0, 0, 0, 0, "", List.replicate 8 0⟩

/-- The `for` of `getNextLombricId`, over the values of `next_lomb` left.  The counter is an
`uint8_t`: with `nbr_lomb = 255` a search that finds nobody has no end. -/
def chercheLombric (obj : Partie) (nbLomb : Nat) (j : Joueur) : List Nat → Option (Nat × Joueur)
  | [] => if j.nbrLomb = 255 then none else some (0, j)
  | next :: reste =>
    if nbLomb = 0 then none
    else
      match j.lombrics[(next + j.currentLombric) % nbLomb]? with
      | none => none
      | some id =>
        if obj.isLombAlive id then
          some (id, { j with currentLombric := (next + j.currentLombric) % nbLomb })
        else chercheLombric obj nbLomb j reste

def getNextLombricId (obj : Partie) (nbLomb : Nat) (j : Joueur) : Option (Nat × Joueur) :=
  j.chercheLombric obj nbLomb (List.range' 1 j.nbrLomb)

/-- The `for` of `is_still_alive`, over the values of `j` left. -/
def chercheVivant (obj : Partie) (j : Joueur) : List Nat → Option Bool
  | [] => some false
  | i :: reste =>
    match j.lombrics[i]? with
    | none => none
    | some id => if obj.isLombAlive id then some true else chercheVivant obj j reste

def isStillAlive (obj : Partie) (j : Joueur) : Option Bool :=
  j.chercheVivant obj (List.range j.nbrLomb)

/-- `add_worms`: the first empty slot among the `nbWorm` first. -/
def addWorms (worm : Nat) : Nat → List Nat → Option (List Nat)
  | 0, l => some l
  | _ + 1, [] => none
  | n + 1, x :: l => if x = 0 then some (worm :: l) else (addWorms worm n l).map (x :: ·)

/-- `init_worms`: reading past the list that the database gave is `none`. -/
def initWorms (db : DataBase) (lombNb : Nat) (j : Joueur) : Option Joueur :=
  let lombs := db.getXLombrics j.playerId lombNb
  if lombs.length < lombNb then none
  else (lombs.foldlM (fun l worm => addWorms worm lombNb l) j.lombrics).map fun lombrics =>
    { j with lombrics }

end Joueur
end LombricABrac
