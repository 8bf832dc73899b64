import LombricABrac.Immobiles
import LombricABrac.Tours

/-!
# Who may play

`handle_game` never looks at the sender of a SHOOT or of a POS_LOMB_S, and a POS_LOMB_S brings the id
of the worm to move: the client alone, with its flag `tour`, keeps to its turn.

    vue_handleGame    : what a message of the game may change, by its type
    aSonTour_of_reach : in a run where shots and accepted moves come from the player whose turn it is,
                        nobody else changes the game, and a move touches the current worm only
    tir_en_retard     : a shot that the round timer overtakes plays the turn of another
-/

namespace LombricABrac

/-- What the players see: the terrain, the worms with their places and lives, whose turn it is, and
whether the game is over. -/
structure Vue where
  terrain : Option Map
  lombrics : Option (List (Nat × Int × Int × Int))
  joueur : Nat
  lombric : Option (Option Nat)
  currentStep : Nat

/-- The worms of the vector. -/
def Partie.lombrics (p : Partie) : List (Nat × Int × Int × Int) :=
  p.spriteVector.filterMap fun s =>
    match s.corps with
    | .lombric l => some (l.id, s.posX, s.posY, l.vie)
    | _ => none

def Salle.vue (s : Salle) : Vue where
  terrain := s.jeu.gameObject.map (·.carte)
  lombrics := s.jeu.gameObject.map (·.lombrics)
  joueur := s.jeu.currentPlayerId
  lombric := s.jeu.gameObject.map (·.currentWorms)
  currentStep := s.currentStep

/-- It is the turn of the sender. -/
def Game.AuTour (m : ZmqMsg) (g : Game) : Prop :=
  (g.players[g.currentPlayerId]?).map (·.playerId) = some m.receiverId

instance (m : ZmqMsg) (g : Game) : Decidable (g.AuTour m) :=
  inferInstanceAs (Decidable (_ = _))

namespace Salle

variable {serveur : Serveur} {env : Env} {m : ZmqMsg} {s s' : Salle}

/-- Between two messages no end of turn is due. -/
def SansFin (s : Salle) : Prop :=
  s.currentStep = stepGame → ∃ obj, s.jeu.gameObject = some obj ∧ obj.endTour = false

theorem sansFin_endRound (h0 : s.currentStep ≠ stepRoom) (hr : endRound env s = some s') :
    s'.SansFin := by
  obtain ⟨g, nbrTeam, lastTeam, hm, _, ⟨_, rfl⟩ | ⟨_, ht⟩⟩ := endRound_cases hr
  · intro h1
    have h1 : s.currentStep + 1 = 1 := h1
    have h0 : s.currentStep ≠ 0 := h0
    omega
  · obtain ⟨id, g', obj, obj', x, y, _, _, hcaisse, rfl⟩ := tourSuivant_cases ht
    refine fun _ => ⟨obj', rfl, ?_⟩
    rcases Game.caisse_cases hcaisse with rfl | ⟨rand, pos, reste, hd⟩
    · rfl
    · unfold Partie.dropHealthBox at hd
      split at hd
      · cases hd
      · cases hd
        rfl

theorem sansFin_demarre (hd : demarre serveur env s = some s') : s'.SansFin := by
  obtain ⟨obj, id, g, lombs, _, _, rfl⟩ := demarre_cases hd
  exact fun _ => ⟨obj.setCurrentLomb id, rfl, rfl⟩

/-- **What a message may change**: a shot anything, an accepted move anything, the others nothing. -/
theorem vue_handleGame (h : s.SansFin) (h1 : s.currentStep = stepGame)
    (hr : handleGame serveur env m s = some s') :
    s'.SansFin ∧ (s'.vue = s.vue ∨ (∃ tir, m.contenu = .shoot tir) ∨
      ∃ lp obj q, m.contenu = .posLombS lp ∧ s.jeu.gameObject = some obj ∧ obj.depose lp = some q) := by
  have h0 : s.currentStep ≠ stepRoom := by
    rw [h1]
    decide
  obtain ⟨s₁, fin, ht, hfin⟩ := handleGame_cases hr
  obtain ⟨hstep, _, _, _, _⟩ := traite_cases ht
  have hfin' : fin = true → s'.SansFin := by
    rintro rfl
    rcases hfin with ⟨_, he⟩ | ⟨hf, _⟩
    · exact sansFin_endRound (by rw [hstep]; exact h0) he
    · cases hf
  unfold traite at ht
  split at ht
  · next lp hc =>
    obtain ⟨p', hp', he⟩ := Option.map_eq_some_iff.mp ht
    obtain ⟨p, hp, hm⟩ := Option.bind_eq_some_iff.mp hp'
    cases hd : p.depose lp with
    | some q =>
      refine ⟨?_, Or.inr (Or.inr ⟨lp, p, q, hc, hp, hd⟩)⟩
      cases he
      rcases hfin with ⟨hf, hend⟩ | ⟨hf, rfl⟩
      · exact hfin' hf
      · exact fun _ => ⟨p', rfl, hf⟩
    | none =>
      -- refused: the object is the same, and its flag is down
      rw [Partie.moveCurrentLombric_eq, hd] at hm
      obtain rfl : p = p' := Option.some.inj hm
      cases he
      obtain ⟨obj, hobj, hflag⟩ := h h1
      rw [hp] at hobj
      cases hobj
      rcases hfin with ⟨hf, _⟩ | ⟨_, rfl⟩
      · rw [Partie.isTourFinish, hflag] at hf
        cases hf
      · refine ⟨fun _ => ⟨p, rfl, hflag⟩, Or.inl ?_⟩
        unfold vue
        rw [hp]
        rfl
  · cases ht
    rcases hfin with ⟨hf, _⟩ | ⟨_, rfl⟩
    · cases hf
    · exact ⟨h, Or.inl rfl⟩
  · cases ht
    rcases hfin with ⟨hf, _⟩ | ⟨_, rfl⟩
    · cases hf
    · exact ⟨h, Or.inl rfl⟩
  · next tir hc =>
    obtain ⟨r, _, he⟩ := Option.map_eq_some_iff.mp ht
    cases he
    exact ⟨hfin' rfl, Or.inr (Or.inl ⟨tir, hc⟩)⟩
  · cases ht
    rcases hfin with ⟨hf, _⟩ | ⟨_, rfl⟩
    · cases hf
    · exact ⟨h, Or.inl rfl⟩

end Salle

/-! ## The object between two calls -/

/-- The object of the game is at rest. -/
def Game.ObjetAssis (g : Game) : Prop := ∀ obj, g.gameObject = some obj → obj.Assis

namespace Salle

variable {serveur : Serveur} {env : Env} {m : ZmqMsg} {s s' : Salle}

theorem assis_endRound (h : s.jeu.ObjetAssis) (hr : endRound env s = some s') : s'.jeu.ObjetAssis := by
  obtain ⟨g, nbrTeam, lastTeam, hm, _, hfin⟩ := endRound_cases hr
  have hg : g.ObjetAssis := by
    rcases Game.monteeEau_cases hm with rfl | ⟨obj, obj₁, obj', hobj, hw, hu, rfl⟩
    · exact h
    · rintro o ⟨⟩
      exact (h obj hobj).monte hw hu
  rcases hfin with ⟨_, rfl⟩ | ⟨_, ht⟩
  · exact hg
  · obtain ⟨id, g', obj, obj', x, y, hc, hobj, hcaisse, rfl⟩ := tourSuivant_cases ht
    obtain ⟨hf, _⟩ := Game.chercheTour_spec env.fuel hc
    have hobj₀ : g.gameObject = some obj := (Game.gameObject_of_fixe hf).symm.trans hobj
    have hset := (hg obj hobj₀).setCurrentLomb id
    rintro o ⟨⟩
    rcases Game.caisse_cases hcaisse with rfl | ⟨rand, pos, reste, hd⟩
    · exact hset
    · exact hset.dropHealthBox hd

theorem assis_traite (h : s.jeu.ObjetAssis) {fin : Bool} (ht : traite serveur env m s = some (s', fin)) :
    s'.jeu.ObjetAssis := by
  unfold traite at ht
  split at ht
  · obtain ⟨p, p', hp, hmove, hp', _⟩ := bouge_cases ht
    intro o ho
    rw [hp'] at ho
    cases ho
    exact (h p hp).moveCurrentLombric hmove
  · cases ht
    exact h
  · cases ht
    exact h
  · obtain ⟨⟨p', murs, degats⟩, hp', he⟩ := Option.map_eq_some_iff.mp ht
    obtain ⟨p, hp, hu⟩ := Option.bind_eq_some_iff.mp hp'
    cases he
    rintro o ⟨⟩
    exact (h p hp).useWeapon hu
  · cases ht
    exact h

theorem assis_demarre (hd : demarre serveur env s = some s') : s'.jeu.ObjetAssis := by
  obtain ⟨obj, id, g, lombs, hs, _, rfl⟩ := demarre_cases hd
  obtain ⟨f, ids, lombs, reste, _, _, hl, rfl⟩ := Game.spawnLombric_spec hs
  rintro o ⟨⟩
  exact (Partie.assis_setParam (m := f.carte) rfl hl true).setCurrentLomb id

end Salle

namespace Thread

theorem garde_sansFin (serveur : Serveur) (ok : Evenement → Thread → Prop) :
    Garde serveur ok Salle.SansFin where
  init owner roomId db h := by cases h
  db _ h := h
  quit {m th} _ hl h := by
    intro h1
    have hs : th.salle.currentStep = stepGame := by
      rcases hl with ⟨_, h0⟩ | ⟨_, h1⟩
      · -- in the lobby a quit leaves the step or ends the room
        rcases (Salle.handleQuit_step m th.salle).2 with he | ⟨he, _⟩
        · rw [h0] at he
          rw [he] at h1
          cases h1
        · rw [he] at h1
          cases h1
      · exact h1
    obtain ⟨obj, hobj, hf⟩ := h hs
    refine ⟨obj, ?_, hf⟩
    unfold Salle.handleQuit
    split <;> exact hobj
  room {m env db th s'} _ _ h0 _ hr := by
    rcases Salle.handleRoom_lobby hr with ⟨_, hd⟩ | ⟨hs, _⟩
    · exact Salle.sansFin_demarre hd
    · intro h1
      rw [hs, show ({ th.salle with db } : Salle).currentStep = stepRoom from h0] at h1
      cases h1
  game {m env db th s'} _ _ h1 h hr := (Salle.vue_handleGame h h1 hr).1
  heure {env db th s'} _ _ h0 _ hr := Salle.sansFin_endRound (s := { th.salle with db }) h0 hr

theorem garde_assis (serveur : Serveur) (ok : Evenement → Thread → Prop) :
    Garde serveur ok fun s => s.jeu.ObjetAssis where
  init owner roomId db obj hobj := by cases hobj
  db _ h := h
  quit {m th} _ _ h := by
    unfold Salle.handleQuit
    split <;> exact h
  room {m env db th s'} _ _ _ h hr := by
    rcases Salle.handleRoom_lobby hr with ⟨_, hd⟩ | ⟨_, ho, _⟩
    · exact Salle.assis_demarre hd
    · intro obj hobj
      rw [ho] at hobj
      exact h obj hobj
  game {m env db th s'} _ _ _ h hr := by
    obtain ⟨s₁, fin, ht, ⟨_, hfin⟩ | ⟨_, rfl⟩⟩ := Salle.handleGame_cases hr
    · exact Salle.assis_endRound (Salle.assis_traite h ht) hfin
    · exact Salle.assis_traite h ht
  heure {env db th s'} _ _ _ h hr := Salle.assis_endRound (s := { th.salle with db }) h hr

/-- Shots and accepted moves come from the player whose turn it is; such a move names the worm whose
turn it is, and comes when no box can reach another one. -/
def aSonTour (e : Evenement) (th : Thread) : Bool :=
  match th.lieu, e with
  | .partieMsg m, .suite _ _ =>
    match m.contenu with
    | .shoot _ => decide (th.salle.jeu.AuTour m)
    | .posLombS lp => th.salle.jeu.gameObject.all fun obj => (obj.depose lp).isNone ||
        decide (th.salle.jeu.AuTour m) && decide (obj.findLombric lp.idLomb = obj.current) &&
          obj.currentWorms.all fun a => obj.sansAtteinte a
    | _ => true
  | _, _ => true

/-- What `handle_game` does with the message that waits: a change of the game is the doing of the
player whose turn it is, and a move, with the update that it runs, leaves the terrain and every worm but
the current one as they were. -/
structure Regulier (serveur : Serveur) (m : ZmqMsg) (env : Env) (db : DataBase) (th : Thread) : Prop where
  auTour : ∀ th', etape serveur (.suite env db) th = some th' → th'.salle.vue ≠ th.salle.vue →
    th.salle.jeu.AuTour m
  courant : ∀ lp obj q, m.contenu = .posLombS lp → th.salle.jeu.gameObject = some obj →
    obj.depose lp = some q → ∃ w, obj.current = some w ∧
      ∀ fuel p', obj.moveCurrentLombric fuel lp = some p' →
        p'.carte = obj.carte ∧ p'.autres w.adresse = obj.autres w.adresse

/-- **Everybody plays in its turn** in a run whose shots and accepted moves do. -/
theorem aSonTour_of_reach (serveur : Serveur) (th : Thread) (m : ZmqMsg) (env : Env) (db : DataBase)
    (h : Runs.Reach (etape serveur) (fun e th => aSonTour e th = true) Depart th)
    (hl : th.lieu = .partieMsg m) (hok : aSonTour (.suite env db) th = true) :
    Regulier serveur m env db th := by
  obtain ⟨hI, ha⟩ := (garde_sansFin serveur fun e th => aSonTour e th = true).reach h
  have hassis := ((garde_assis serveur fun e th => aSonTour e th = true).reach h).1
  have hmove : ∀ {lp obj q}, m.contenu = .posLombS lp → th.salle.jeu.gameObject = some obj →
      obj.depose lp = some q → (th.salle.jeu.AuTour m ∧ obj.findLombric lp.idLomb = obj.current) ∧
        ∀ a, obj.currentWorms = some a → obj.sansAtteinte a = true := by
    intro lp obj q hc hobj hd
    unfold aSonTour at hok
    simp only [hl, hc] at hok
    have hok : (th.salle.jeu.AuTour m ∧ obj.findLombric lp.idLomb = obj.current) ∧
        (obj.currentWorms.all fun a => obj.sansAtteinte a) = true := by
      simpa [hobj, hd] using hok
    refine ⟨hok.1, fun a ha => ?_⟩
    rw [ha] at hok
    exact hok.2
  refine ⟨fun th' hs hne => ?_, fun lp obj q hc hobj hd => ?_⟩
  · rw [hl] at ha
    have hr := etape_partieMsg hl hs
    rcases ha with h1 | ⟨_, hq⟩
    · rcases (Salle.vue_handleGame (s := { th.salle with db }) hI h1 hr).2 with
        he | ⟨tir, hc⟩ | ⟨lp, obj, q, hc, hobj, hd⟩
      · exact absurd he hne
      · unfold aSonTour at hok
        simpa [hl, hc] using hok
      · exact (hmove hc hobj hd).1.1
    · rw [Salle.handleGame_quit hq] at hr
      rw [← Option.some.inj hr] at hne
      exact absurd rfl hne
  · obtain ⟨lomb, hlomb, _, _, rfl⟩ := Partie.depose_cases hd
    obtain ⟨⟨_, hcourant⟩, hloin⟩ := hmove hc hobj hd
    have hcur : obj.current = some lomb := hcourant ▸ hlomb
    obtain ⟨a, hworm, hfind⟩ := Option.bind_eq_some_iff.mp hcur
    have hadr : lomb.adresse = a := by simpa using List.find?_some hfind
    refine ⟨lomb, hcur, fun fuel p' hm => ?_⟩
    rw [Partie.moveCurrentLombric_eq, hd] at hm
    exact Partie.poser_autres (hassis obj hobj) hcur (Partie.findLombric_spec hlomb).2.2
      (hadr ▸ hloin a hworm) hm

/-! ## A shot that comes too late -/

/-- The clock shows `heureRound` when the round is tested; no box falls. -/
def envTour (heureRound : Int) : Env := ⟨heureRound, 0, 0, [99], 100, 0, 0⟩

/-- Players 1 and 2 start; the first round is timed out if `heureRound` is past it, then a shot of
player 1 arrives. -/
def tirApres (heureRound : Int) : List Evenement :=
  partieADeux 1 ++ [.silence, .suite (envTour heureRound) baseDeux, .recoit ⟨1, .shoot ⟨0, 100, 0⟩⟩]

/-- The turn has passed to player 2, whose worm fires the shot of player 1. -/
theorem tir_en_retard : ∃ th th', Runs.Reach (etape (serveurDe marche)) (fun _ _ => True) Depart th ∧
    th.lieu = .partieMsg ⟨1, .shoot ⟨0, 100, 0⟩⟩ ∧ th.salle.jeu.currentPlayerId = 1 ∧
    etape (serveurDe marche) (.suite (envTour 0) baseDeux) th = some th' ∧
      ¬ Regulier (serveurDe marche) ⟨1, .shoot ⟨0, 100, 0⟩⟩ (envTour 0) baseDeux th := by
  obtain ⟨th, _, hr, hp⟩ := Runs.exists_of_exec (etape (serveurDe marche)) (fun _ _ => True)
    (show Depart (new 1 1 baseDeux) from ⟨1, 1, baseDeux, rfl⟩) (tirApres 21)
    (fun th => th.lieu == .partieMsg ⟨1, .shoot ⟨0, 100, 0⟩⟩ && th.salle.jeu.currentPlayerId == 1 &&
      !decide (th.salle.jeu.AuTour ⟨1, .shoot ⟨0, 100, 0⟩⟩) &&
      (etape (serveurDe marche) (.suite (envTour 0) baseDeux) th).any fun th' =>
        th'.salle.vue.lombrics != th.salle.vue.lombrics) (by decide +kernel)
  simp only [Bool.and_eq_true, beq_iff_eq, Bool.not_eq_true', decide_eq_false_iff_not,
    Option.any_eq_true, bne_iff_ne] at hp
  obtain ⟨⟨⟨hl, hc⟩, hn⟩, th', hs, hv⟩ := hp
  refine ⟨th, th', hr, hl, hc, hs, fun hreg => hn (hreg.auTour th' hs fun he => hv ?_)⟩
  rw [he]

/-- Player 1 goes down the step with its worm. -/
def pas : List Evenement :=
  partieADeux 1 ++ [.silence, .suite (envTour 0) baseDeux, .recoit ⟨1, .posLombS ⟨7, 1, 0⟩⟩]

/-- In time, the shot is one of player 1; so is the move. -/
theorem tir_a_temps : (∃ th, Runs.exec (etape (serveurDe marche)) (fun e th => aSonTour e th = true)
      (tirApres 0) (new 1 1 baseDeux) = some th ∧
    th.lieu = .partieMsg ⟨1, .shoot ⟨0, 100, 0⟩⟩ ∧
      Regulier (serveurDe marche) ⟨1, .shoot ⟨0, 100, 0⟩⟩ (envTour 0) baseDeux th) ∧
    ∃ th, Runs.exec (etape (serveurDe marche)) (fun e th => aSonTour e th = true) pas
      (new 1 1 baseDeux) = some th ∧
    th.lieu = .partieMsg ⟨1, .posLombS ⟨7, 1, 0⟩⟩ ∧
    (th.salle.jeu.gameObject.any fun obj => (obj.depose ⟨7, 1, 0⟩).isSome) = true ∧
      Regulier (serveurDe marche) ⟨1, .posLombS ⟨7, 1, 0⟩⟩ (envTour 0) baseDeux th := by
  obtain ⟨th, hth, hr, hp⟩ := Runs.exists_of_exec (etape (serveurDe marche))
    (fun e th => aSonTour e th = true)
    (show Depart (new 1 1 baseDeux) from ⟨1, 1, baseDeux, rfl⟩) (tirApres 0)
    (fun th => th.lieu == .partieMsg ⟨1, .shoot ⟨0, 100, 0⟩⟩ &&
      aSonTour (.suite (envTour 0) baseDeux) th) (by decide +kernel)
  obtain ⟨th', hth', hr', hp'⟩ := Runs.exists_of_exec (etape (serveurDe marche))
    (fun e th => aSonTour e th = true)
    (show Depart (new 1 1 baseDeux) from ⟨1, 1, baseDeux, rfl⟩) pas
    (fun th => th.lieu == .partieMsg ⟨1, .posLombS ⟨7, 1, 0⟩⟩ &&
      (th.salle.jeu.gameObject.any fun obj => (obj.depose ⟨7, 1, 0⟩).isSome) &&
      aSonTour (.suite (envTour 0) baseDeux) th) (by decide +kernel)
  simp only [Bool.and_eq_true, beq_iff_eq] at hp hp'
  refine ⟨⟨th, hth, hp.1, ?_⟩, th', hth', hp'.1.1, hp'.1.2, ?_⟩
  · exact aSonTour_of_reach (serveurDe marche) th _ (envTour 0) baseDeux hr hp.1 hp.2
  · exact aSonTour_of_reach (serveurDe marche) th' _ (envTour 0) baseDeux hr' hp'.1.1 hp'.2

end Thread
end LombricABrac
