import LombricABrac.PartieRuns
import LombricABrac.GameRuns

/-!
# Moves

`Lombric_c::move` of `sharedFiles/src/lombric.cpp`, as the client calls it, and the test by which
`Partie::moveCurrentLombric` accepts the new position.  The test asks twice whether the worm goes
one column to the right, and never whether the cell is AIR.

    move_pos         : a move that changes the position goes one column the way the worm faces
    diffuse_iff      : the server follows the moves that face FORWARD, and no other
    surAir_of_reach  : where accepted moves go to AIR, every worm stands on AIR, in every run
-/

namespace LombricABrac

/-! ## The move of the client -/

/-- The argument of `move`. -/
inductive Touche where
  | FORWARD
  | BACKWARD
  | JUMP
  deriving DecidableEq

def Touche.valeur : Touche → Int
  | FORWARD => 1
  | BACKWARD => -1
  | JUMP => 0

/-- The members of a worm that `move` reads. -/
structure Marcheur where
  posX : Int
  posY : Int
  direction : Int
  movement : Option PhysicsObject
  deriving DecidableEq

namespace Marcheur

/-- The direction after the key: FORWARD and BACKWARD set it, JUMP does not. -/
def tourne (type : Touche) (l : Marcheur) : Int :=
  if type = .FORWARD ∨ type = .BACKWARD then type.valeur else l.direction

/-- `newY`, an `uint32_t`. -/
def newY (type : Touche) (l : Marcheur) : Nat :=
  if type = .JUMP then (if u32 l.posY = 0 then 2 ^ 32 - 1 else u32 l.posY - 1) else u32 l.posY

def isPossible (type : Touche) (carte : Map) (l : Marcheur) : Bool :=
  (type != .JUMP || carte.isTypeBloc (u32 l.posX) (l.newY type) air) &&
    carte.isTypeBloc (u32 (l.posX + l.tourne type)) (l.newY type) air

/-- A worm that turns does not advance. -/
def move (type : Touche) (carte : Map) (l : Marcheur) : Marcheur :=
  let isNewDir := l.tourne type ≠ l.direction
  if l.movement = none ∧ ¬ isNewDir ∧ l.isPossible type carte = true then
    { l with
      posX := Partie.int32 (u32 (l.posX + l.tourne type))
      posY := Partie.int32 (l.newY type)
      direction := l.tourne type }
  else { l with direction := l.tourne type }

/-- `client->updatePos(id, …)`. -/
def updatePos (id : Nat) (l : Marcheur) : Partie.LombPos := ⟨id, u32 l.posX, u32 l.posY⟩

end Marcheur

theorem int32_of_lt {n : Nat} (h : n < 2 ^ 31) : Partie.int32 n = n := if_pos h

/-- An `int` survives its trip through an `uint32_t`. -/
theorem int32_u32 {z : Int} (h0 : -2 ^ 31 ≤ z) (h : z < 2 ^ 31) : Partie.int32 (u32 z) = z := by
  by_cases hz : 0 ≤ z
  · rw [u32_of_nonneg hz, int32_of_lt (by omega)]
    omega
  · have hle := two_pow_le_u32 (z := z) (by omega)
    rw [Partie.int32, if_neg (by omega), u32, if_neg hz]
    omega

namespace Marcheur

variable {carte : Map} {type : Touche} {l : Marcheur}

/-- The new row: the same, or the one above for JUMP. -/
theorem newY_of_lt (h : l.newY type < 2 ^ 31 - 1) :
    0 ≤ l.posY ∧ l.posY < 2 ^ 31 ∧ (l.newY type : Int) = l.posY - if type = .JUMP then 1 else 0 := by
  have hle := two_pow_le_u32 (z := l.posY)
  have hpos := u32_of_nonneg (z := l.posY)
  unfold newY at h ⊢
  by_cases hj : type = .JUMP
  · by_cases hz : u32 l.posY = 0
    · rw [if_pos hj, if_pos hz] at h
      omega
    · rw [if_pos hj, if_neg hz] at h ⊢
      rw [if_pos hj]
      by_cases h0 : 0 ≤ l.posY
      · have := hpos h0
        omega
      · have := hle (by omega)
        omega
  · rw [if_neg hj] at h ⊢
    rw [if_neg hj]
    by_cases h0 : 0 ≤ l.posY
    · have := hpos h0
      omega
    · have := hle (by omega)
      omega

/-- **A move that changes the position**: one column the way the worm faced before the key, in its
row or, for JUMP, in the row above. -/
theorem move_pos (h : (l.move type carte).posX ≠ l.posX ∨ (l.move type carte).posY ≠ l.posY) :
    (type = .JUMP ∨ type.valeur = l.direction) ∧
      (l.move type carte).posX = l.posX + l.direction ∧
      (l.move type carte).posY = l.posY - (if type = .JUMP then 1 else 0) ∧
      carte.isAir (l.move type carte).posX (l.move type carte).posY = true := by
  unfold move at h ⊢
  simp only at h ⊢
  split at h
  · next hp =>
    rw [if_pos hp]
    obtain ⟨_, hd, hposs⟩ := hp
    rw [not_not] at hd
    unfold isPossible at hposs
    rw [hd, Bool.and_eq_true] at hposs
    have hair := hposs.2
    have hlt := Map.lt_of_bloc ((carte.isTypeBloc_iff _ _ _).mp hair)
    have hl := carte.largeur_lt
    have hh := carte.hauteur_lt
    have hny : l.newY type < 2 ^ 31 - 1 := by omega
    obtain ⟨h0, h1, hy⟩ := newY_of_lt hny
    obtain ⟨hx0, hx⟩ := eq_of_u32_lt (z := l.posX + l.direction) (by omega)
    refine ⟨?_, ?_, ?_, ?_⟩
    · unfold tourne at hd
      split at hd
      · exact Or.inr hd
      · next ht =>
        refine Or.inl ?_
        cases type
        · exact absurd (Or.inl rfl) ht
        · exact absurd (Or.inr rfl) ht
        · rfl
    · show Partie.int32 (u32 (l.posX + l.tourne type)) = _
      rw [hd]
      exact int32_u32 (by omega) (by omega)
    · show Partie.int32 (l.newY type) = _
      rw [int32_of_lt (by omega)]
      exact hy
    · show carte.isTypeBloc (u32 (Partie.int32 (u32 (l.posX + l.tourne type))))
        (u32 (Partie.int32 (l.newY type))) air = true
      rw [hd, int32_u32 (by omega) (by omega), int32_of_lt (by omega : l.newY type < 2 ^ 31), u32_natCast]
      exact hair
  · next hn =>
    exact absurd h (by simp)

end Marcheur

/-! ## The test of the server -/

namespace Partie

variable {p p' : Partie} {fuel : Nat} {lp : LombPos}

/-- `moveCurrentLombric` up to `update`: the position is set, or (`none`) the move is refused. -/
def depose (lp : LombPos) (p : Partie) : Option Partie :=
  (p.findLombric lp.idLomb).bind fun lomb =>
    if lomb.posX = int32 lp.posX - 1 ∧
        (lomb.posY = int32 lp.posY ∨ lomb.posY - 1 = int32 lp.posY) then
      some (p.poser lomb.adresse (int32 lp.posX) (int32 lp.posY))
    else none

theorem moveCurrentLombric_eq (fuel : Nat) (lp : LombPos) (p : Partie) :
    p.moveCurrentLombric fuel lp =
      match p.depose lp with
      | some q => q.update fuel
      | none => some p := by
  unfold moveCurrentLombric depose
  cases p.findLombric lp.idLomb with
  | none => rfl
  | some lomb =>
    simp only [Option.bind_some]
    by_cases hx : lomb.posX = int32 lp.posX - 1
    · by_cases hy : lomb.posY = int32 lp.posY ∨ lomb.posY - 1 = int32 lp.posY
      · rw [if_neg (by simp [hx]), if_neg (by tauto), if_pos ⟨hx, hy⟩]
      · rw [if_neg (by simp [hx]), if_pos (by tauto), if_neg (by tauto)]
    · rw [if_pos ⟨hx, hx⟩, if_neg (by tauto)]

theorem depose_cases {q : Partie} (h : p.depose lp = some q) :
    ∃ lomb, p.findLombric lp.idLomb = some lomb ∧ lomb.posX = int32 lp.posX - 1 ∧
      (lomb.posY = int32 lp.posY ∨ lomb.posY - 1 = int32 lp.posY) ∧
      q = p.poser lomb.adresse (int32 lp.posX) (int32 lp.posY) := by
  obtain ⟨lomb, hl, h⟩ := Option.bind_eq_some_iff.mp h
  split at h
  · next hc =>
    cases h
    exact ⟨lomb, hl, hc.1, hc.2, rfl⟩
  · cases h

/-- The worm whose position is set. -/
theorem findLombric_poser {id : Nat} {lomb : Sprite} (h : p.findLombric id = some lomb) (x y : Int) :
    (p.poser lomb.adresse x y).findLombric id =
      some { lomb with toBase := lomb.toBase.setPos x y } := by
  obtain ⟨s, hs, h⟩ := Option.bind_eq_some_iff.mp h
  have hc : s = lomb ∧ ∃ l, lomb.corps = .lombric l := by
    split at h
    · next l hl =>
      cases h
      exact ⟨rfl, l, hl⟩
    · cases h
  obtain ⟨rfl, l, hl⟩ := hc
  have hfind : (p.poser s.adresse x y).findById id =
      some { s with toBase := s.toBase.setPos x y } := by
    unfold findById poser
    simp only
    rw [List.find?_map]
    have hcomp : ((fun s : Sprite => decide (s.getId = id)) ∘ fun o : Sprite =>
        if o.adresse = s.adresse then { o with toBase := o.toBase.setPos x y } else o) =
        fun o => decide (o.getId = id) := by
      funext o
      simp only [Function.comp_apply]
      split <;> rfl
    rw [hcomp, show p.spriteVector.find? (fun s => decide (s.getId = id)) = some s from hs]
    simp
  unfold findLombric
  rw [hfind]
  simp only [Option.bind_some, hl]

/-- The server takes the message: it sets that position. -/
def Recoit (lp : LombPos) (p : Partie) : Prop :=
  ∃ q lomb, p.depose lp = some q ∧ q.findLombric lp.idLomb = some lomb ∧
    lomb.posX = int32 lp.posX ∧ lomb.posY = int32 lp.posY

/-- **The server takes the moves that face FORWARD.**  Any map, any worm at the place where the
client has it, any key that moves it. -/
theorem recoit_iff (p : Partie) (id : Nat) (lomb : Sprite) (l : Marcheur) (type : Touche)
    (hs : p.findLombric id = some lomb) (hx : lomb.posX = l.posX) (hy : lomb.posY = l.posY)
    (hb : (l.move type p.carte).posX ≠ l.posX ∨ (l.move type p.carte).posY ≠ l.posY) :
    p.Recoit ((l.move type p.carte).updatePos id) ↔
      type = .FORWARD ∨ type = .JUMP ∧ l.direction = Touche.FORWARD.valeur := by
  obtain ⟨ht, hpx, hpy, hair⟩ := Marcheur.move_pos hb
  obtain ⟨⟨hx0, hxl⟩, hy0, hyl⟩ := Map.lt_of_isAir hair
  have hl := p.carte.largeur_lt
  have hh := p.carte.hauteur_lt
  have ex : int32 (u32 (l.move type p.carte).posX) = (l.move type p.carte).posX :=
    int32_u32 (by omega) (by omega)
  have ey : int32 (u32 (l.move type p.carte).posY) = (l.move type p.carte).posY :=
    int32_u32 (by omega) (by omega)
  -- the tests of the server come down to the direction
  have hdir : p.Recoit ((l.move type p.carte).updatePos id) ↔ l.direction = 1 := by
    constructor
    · rintro ⟨q, w, hq, _⟩
      obtain ⟨lomb', hl', hx', _⟩ := depose_cases hq
      rw [show p.findLombric ((l.move type p.carte).updatePos id).idLomb = some lomb from hs] at hl'
      cases hl'
      have hx' : lomb.posX = int32 (u32 (l.move type p.carte).posX) - 1 := hx'
      rw [ex, hpx, hx] at hx'
      omega
    · intro hd
      have hdep : p.depose ((l.move type p.carte).updatePos id) =
          some (p.poser lomb.adresse (l.move type p.carte).posX (l.move type p.carte).posY) := by
        unfold depose
        rw [show p.findLombric ((l.move type p.carte).updatePos id).idLomb = some lomb from hs]
        simp only [Option.bind_some, Marcheur.updatePos, ex, ey]
        rw [if_pos]
        refine ⟨by omega, ?_⟩
        rw [hpy, hy]
        split <;> omega
      exact ⟨_, _, hdep, findLombric_poser hs _ _, ex.symm, ey.symm⟩
  rw [hdir]
  cases type
  · rcases ht with ht | ht
    · cases ht
    · exact ⟨fun _ => Or.inl rfl, fun _ => ht.symm⟩
  · rcases ht with ht | ht
    · cases ht
    · rw [← ht]
      simp [Touche.valeur]
  · simp [Touche.valeur]

end Partie

namespace Salle

variable {env : Env} {lp : Partie.LombPos} {s s' : Salle} {p q : Partie} {fin : Bool}

/-- POS_LOMB_R carries the coordinates of the message, whatever the test says. -/
theorem bouge_cases (h : s.bouge env lp = some (s', fin)) :
    ∃ p p', s.jeu.gameObject = some p ∧ p.moveCurrentLombric env.fuel lp = some p' ∧
      s'.jeu.gameObject = some p' ∧ s'.envois = s.envois ++ s.jeu.annonce (.posLombR lp) := by
  obtain ⟨p', hp', he⟩ := Option.map_eq_some_iff.mp h
  obtain ⟨p, hp, hm⟩ := Option.bind_eq_some_iff.mp hp'
  cases he
  exact ⟨p, p', hp, hm, rfl, rfl⟩

/-- The position that the server sends to everybody is the one it holds before its physics run. -/
def Diffuse (lp : Partie.LombPos) (s : Salle) : Prop :=
  ∃ p q lomb, s.jeu.gameObject = some p ∧ p.depose lp = some q ∧
    q.findLombric lp.idLomb = some lomb ∧
    lomb.posX = Partie.int32 lp.posX ∧ lomb.posY = Partie.int32 lp.posY ∧
    ∀ env s' fin, s.bouge env lp = some (s', fin) → s'.jeu.gameObject = q.update env.fuel ∧
      s'.envois = s.envois ++ s.jeu.annonce (.posLombR lp)

/-- **The server follows the moves that face FORWARD.**  Any map, any worm at the place where the
client has it, any key that moves it. -/
theorem diffuse_iff (s : Salle) (p : Partie) (id : Nat) (lomb : Sprite) (l : Marcheur) (type : Touche)
    (hp : s.jeu.gameObject = some p) (hs : p.findLombric id = some lomb) (hx : lomb.posX = l.posX)
    (hy : lomb.posY = l.posY)
    (hb : (l.move type p.carte).posX ≠ l.posX ∨ (l.move type p.carte).posY ≠ l.posY) :
    s.Diffuse ((l.move type p.carte).updatePos id) ↔
      type = .FORWARD ∨ type = .JUMP ∧ l.direction = Touche.FORWARD.valeur := by
  rw [← p.recoit_iff id lomb l type hs hx hy hb]
  constructor
  · rintro ⟨p', q, w, hp', hq, hw, hwx, hwy, _⟩
    rw [hp] at hp'
    cases hp'
    exact ⟨q, w, hq, hw, hwx, hwy⟩
  · rintro ⟨q, w, hq, hw, hwx, hwy⟩
    refine ⟨p, q, w, hp, hq, hw, hwx, hwy, fun env s' fin hm => ?_⟩
    obtain ⟨p', p'', hp', hmove, ho, he⟩ := bouge_cases hm
    rw [hp] at hp'
    cases hp'
    rw [Partie.moveCurrentLombric_eq, hq] at hmove
    exact ⟨ho.trans hmove.symm, he⟩

/-- One worm on the lowest row of AIR of the small map. -/
def unLombric : Partie := Partie.setParam Map.petite [⟨⟨0, 1, 2, none⟩, .lombric ⟨7, 100, 150⟩⟩] false

def salleUnLombric : Salle where
  jeu := { Game.new 1 1 with gameObject := some unLombric }
  currentStep := stepGame
  db := ⟨[], [], []⟩
  envois := []
  endGames := 0

/-- A worm that faces BACKWARD walks on its client and stays where it was on the server. -/
theorem recule_refuse :
    (Marcheur.move .BACKWARD Map.petite ⟨1, 2, -1, none⟩).posX = 0 ∧
      ¬ salleUnLombric.Diffuse ((Marcheur.move .BACKWARD Map.petite ⟨1, 2, -1, none⟩).updatePos 7) := by
  refine ⟨by decide +kernel, ?_⟩
  rintro ⟨p, q, w, hp, hq, _⟩
  cases hp
  have hn : (unLombric.depose
      ((Marcheur.move .BACKWARD Map.petite ⟨1, 2, -1, none⟩).updatePos 7)).isNone = true := by
    decide +kernel
  rw [hq] at hn
  cases hn

theorem avance_suivi :
    salleUnLombric.Diffuse ((Marcheur.move .FORWARD Map.petite ⟨1, 2, 1, none⟩).updatePos 7) :=
  (diffuse_iff salleUnLombric unLombric 7 ⟨⟨0, 1, 2, none⟩, .lombric ⟨7, 100, 150⟩⟩ ⟨1, 2, 1, none⟩ .FORWARD
    rfl (by decide +kernel) rfl rfl (Or.inl (by decide +kernel))).mpr (Or.inl rfl)

end Salle

/-! ## Where worms stand -/

namespace Partie

variable {p p' : Partie} {fuel : Nat} {lp : LombPos}

/-- A worm inside the map, on AIR. -/
def SurAir (p : Partie) : Prop :=
  ∀ w ∈ p.spriteVector, (∃ l, w.corps = .lombric l) →
    (0 ≤ w.posX ∧ w.posX < p.carte.largeur) ∧ (0 ≤ w.posY ∧ w.posY < p.carte.hauteur) ∧
      p.carte.isAir w.posX w.posY = true

theorem surAir_of_sain (h : p.Partout Sprite.Sain) : p.SurAir := by
  rintro w hw ⟨l, hl⟩
  have ha := (h w hw).surAir (by simp [Sprite.forme, hl])
  obtain ⟨hx, hy⟩ := Map.lt_of_isAir ha
  exact ⟨hx, hy, ha⟩

/-- The move is refused, or goes to an AIR cell. -/
def pasDansLeMur (lp : LombPos) (p : Partie) : Bool :=
  (p.depose lp).isNone || p.carte.isAir (int32 lp.posX) (int32 lp.posY)

theorem depose_sain {q : Partie} (h : p.Partout Sprite.Sain)
    (ha : p.carte.isAir (int32 lp.posX) (int32 lp.posY) = true) (hd : p.depose lp = some q) :
    q.Partout Sprite.Sain := by
  obtain ⟨lomb, _, _, _, rfl⟩ := depose_cases hd
  intro s' hs'
  obtain ⟨s, hs, rfl⟩ := List.mem_map.mp hs'
  have hsain := h s hs
  split
  · exact ⟨fun _ => ha, hsain.parabole, hsain.enVol⟩
  · exact hsain

theorem moveCurrentLombric_sain (h : p.Partout Sprite.Sain) (hm : p.pasDansLeMur lp = true)
    (hu : p.moveCurrentLombric fuel lp = some p') : p'.Partout Sprite.Sain := by
  rw [moveCurrentLombric_eq] at hu
  cases hd : p.depose lp with
  | none =>
    rw [hd] at hu
    cases hu
    exact h
  | some q =>
    rw [hd] at hu
    have ha : p.carte.isAir (int32 lp.posX) (int32 lp.posY) = true := by
      simpa [pasDansLeMur, hd] using hm
    exact update_keeps Sprite.sain_tenu (depose_sain h ha hd) hu

end Partie

/-- Every object of the game is sound. -/
def Game.ObjetSain (g : Game) : Prop := ∀ obj, g.gameObject = some obj → obj.Partout Sprite.Sain

namespace Salle

variable {serveur : Serveur} {env : Env} {m : ZmqMsg} {s s' : Salle}

theorem sain_endRound (h : s.jeu.ObjetSain) (hr : endRound env s = some s') : s'.jeu.ObjetSain := by
  obtain ⟨g, nbrTeam, lastTeam, hm, _, hfin⟩ := endRound_cases hr
  have hg : g.ObjetSain := by
    rcases Game.monteeEau_cases hm with rfl | ⟨obj, obj₁, obj', hobj, hw, hu, rfl⟩
    · exact h
    · intro o ho
      cases ho
      exact Partie.update_keeps Sprite.sain_tenu (Partie.increaseWaterLevel_sain (h obj hobj) hw) hu
  rcases hfin with ⟨_, rfl⟩ | ⟨_, ht⟩
  · exact hg
  · obtain ⟨id, g', obj, obj', x, y, hc, hobj, hcaisse, rfl⟩ := tourSuivant_cases ht
    obtain ⟨hf, _⟩ := Game.chercheTour_spec env.fuel hc
    have hobj₀ : g.gameObject = some obj := (Game.gameObject_of_fixe hf).symm.trans hobj
    intro o ho
    cases ho
    rcases Game.caisse_cases hcaisse with rfl | ⟨rand, pos, reste, hd⟩
    · exact hg obj hobj₀
    · exact Partie.dropHealthBox_sain (p := obj.setCurrentLomb id) (hg obj hobj₀) hd

/-- A message whose move, if it is one, stays out of the walls. -/
theorem sain_traite (h : s.jeu.ObjetSain)
    (hm : ∀ lp obj, m.contenu = .posLombS lp → s.jeu.gameObject = some obj → obj.pasDansLeMur lp = true)
    {fin : Bool} (ht : traite serveur env m s = some (s', fin)) : s'.jeu.ObjetSain := by
  unfold traite at ht
  split at ht
  · next lp hc =>
    obtain ⟨p, p', hp, hmove, hp', _⟩ := bouge_cases ht
    intro o ho
    rw [hp'] at ho
    cases ho
    exact Partie.moveCurrentLombric_sain (h p hp) (hm lp p hc hp) hmove
  · cases ht
    exact h
  · cases ht
    exact h
  · next tir _ =>
    obtain ⟨⟨p', murs, degats⟩, hp', he⟩ := Option.map_eq_some_iff.mp ht
    obtain ⟨p, hp, hu⟩ := Option.bind_eq_some_iff.mp hp'
    obtain ⟨p₁, hp₁, he₁⟩ := Option.map_eq_some_iff.mp hu
    obtain ⟨p₀, hp₀, hup⟩ := Option.bind_eq_some_iff.mp hp₁
    cases he
    cases he₁
    intro o ho
    cases ho
    exact Partie.update_keeps Sprite.sain_tenu
      (Partie.shoot_sain (p := { p with blockDeleted := [] }) (h p hp) hp₀) hup
  · cases ht
    exact h

theorem sain_demarre (hd : demarre serveur env s = some s') : s'.jeu.ObjetSain := by
  obtain ⟨obj, id, g, lombs, hs, _, rfl⟩ := demarre_cases hd
  obtain ⟨f, ids, lombs, reste, _, _, hl, rfl⟩ := Game.spawnLombric_spec hs
  intro o ho
  cases ho
  exact Partie.start_sain (p := Partie.setParam f.carte lombs true) ⟨f.carte, _, _, ids, env.rand, lombs, reste, true, hl, rfl⟩

end Salle

namespace Thread

/-- The accepted moves go to AIR cells. -/
def horsDesMurs (e : Evenement) (th : Thread) : Bool :=
  match th.lieu, e with
  | .partieMsg m, .suite _ _ =>
    match m.contenu with
    | .posLombS lp => th.salle.jeu.gameObject.all fun obj => obj.pasDansLeMur lp
    | _ => true
  | _, _ => true

theorem garde_sain (serveur : Serveur) :
    Garde serveur (fun e th => horsDesMurs e th = true) fun s => s.jeu.ObjetSain where
  init owner roomId db obj hobj := by cases hobj
  db _ h := h
  quit {m th} _ _ h := by
    unfold Salle.handleQuit
    split <;> exact h
  room {m env db th s'} _ _ _ h hr := by
    rcases Salle.handleRoom_lobby hr with ⟨_, hd⟩ | ⟨_, ho, _⟩
    · exact Salle.sain_demarre hd
    · intro obj hobj
      rw [ho] at hobj
      exact h obj hobj
  game {m env db th s'} hl hok _ h hr := by
    have hm : ∀ lp obj, m.contenu = .posLombS lp → th.salle.jeu.gameObject = some obj →
        obj.pasDansLeMur lp = true := by
      intro lp obj hc hobj
      unfold horsDesMurs at hok
      rw [hl] at hok
      simpa [hc, hobj] using hok
    obtain ⟨s₁, fin, ht, ⟨_, hfin⟩ | ⟨_, rfl⟩⟩ := Salle.handleGame_cases hr
    · exact Salle.sain_endRound (Salle.sain_traite h hm ht) hfin
    · exact Salle.sain_traite h hm ht
  heure {env db th s'} _ _ _ h hr := Salle.sain_endRound h hr

/-- **Worms stand on AIR** in every run whose accepted moves go to AIR cells. -/
theorem surAir_of_reach (serveur : Serveur) (th : Thread)
    (h : Runs.Reach (etape serveur) (fun e th => horsDesMurs e th = true) Depart th) (obj : Partie)
    (hobj : th.salle.jeu.gameObject = some obj) : obj.SurAir :=
  Partie.surAir_of_sain (((garde_sain serveur).reach h).1 obj hobj)

/-- Player 1 alone in its room with one worm, which is put on the first column; then moves to `xs`. -/
def promenade (xs : List Nat) : List Evenement :=
  let suite : Evenement := .suite (envPetit 0) petiteBase
  [suite, .recoit ⟨1, .clientModifyNbLombrics 1⟩, suite, .recoit ⟨1, .infoRoom⟩, suite,
    .recoit ⟨1, .clientJoinTeam 1⟩, suite, .recoit ⟨1, .start⟩, suite, suite, suite] ++
    xs.flatMap fun x => [.recoit ⟨1, .posLombS ⟨1, x, 2⟩⟩, suite, suite]

/-- The third step to the right leaves the map, and the server waits for the next message. -/
theorem sortDeLaCarte : ∃ th obj, Runs.Reach (etape (serveurDe Map.petite)) (fun _ _ => True) Depart th ∧
    th.lieu = .partie ∧ th.salle.currentStep = stepGame ∧ th.salle.jeu.gameObject = some obj ∧
      obj.spriteVector.map (·.posX) = [3] ∧ obj.carte.largeur = 3 ∧ ¬ obj.SurAir := by
  obtain ⟨th, _, hr, hp⟩ := Runs.exists_of_exec (etape (serveurDe Map.petite)) (fun _ _ => True)
    (show Depart (new 1 1 petiteBase) from ⟨1, 1, petiteBase, rfl⟩) (promenade [1, 2, 3])
    (fun th => th.lieu == .partie && th.salle.currentStep == stepGame &&
      th.salle.jeu.gameObject.any fun obj => obj.spriteVector.map (·.posX) == [3] &&
        obj.spriteVector.all (fun s => s.forme == .lombric 1) && obj.carte.largeur == 3)
    (by decide +kernel)
  simp only [Bool.and_eq_true, beq_iff_eq, Option.any_eq_true] at hp
  obtain ⟨⟨hl, hs⟩, obj, ho, ⟨hx, hf⟩, hc⟩ := hp
  refine ⟨th, obj, hr, hl, hs, ho, hx, hc, fun hair => ?_⟩
  obtain ⟨w, hw⟩ := List.length_eq_one_iff.mp (by simpa using congrArg List.length hx)
  rw [hw] at hx hf
  have hwx : w.posX = 3 := by simpa using hx
  have hform : w.forme = .lombric 1 := by simpa using hf
  have hlomb : ∃ l, w.corps = .lombric l := by
    cases hcorps : w.corps with
    | lombric l => exact ⟨l, rfl⟩
    | projectile p => simp [Sprite.forme, hcorps] at hform
    | healthBox b => simp [Sprite.forme, hcorps] at hform
  have hlt := (hair w (by rw [hw]; exact List.mem_singleton.mpr rfl) hlomb).1.2
  omega

/-- Two steps stay on the map. -/
theorem deuxPas_surAir : ∃ th obj, Runs.exec (etape (serveurDe Map.petite))
      (fun e th => horsDesMurs e th = true) (promenade [1, 2]) (new 1 1 petiteBase) = some th ∧
    th.salle.jeu.gameObject = some obj ∧ obj.SurAir := by
  obtain ⟨th, hth, hr, hp⟩ := Runs.exists_of_exec (etape (serveurDe Map.petite))
    (fun e th => horsDesMurs e th = true)
    (show Depart (new 1 1 petiteBase) from ⟨1, 1, petiteBase, rfl⟩) (promenade [1, 2])
    (fun th => th.salle.jeu.gameObject.isSome) (by decide +kernel)
  obtain ⟨obj, hobj⟩ := Option.isSome_iff_exists.mp hp
  exact ⟨th, obj, hth, hobj, surAir_of_reach (serveurDe Map.petite) th hr obj hobj⟩

end Thread
end LombricABrac
