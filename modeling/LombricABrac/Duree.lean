import LombricABrac.Diffusion

/-!
# The end of a game

Once its time is over, each `end_round` raises the water by one row, and a turn that follows needs a worm
above it.  So the map bounds the turns that are left.

    dure_endRound    : a call of `end_round` when the time is over
    duree_of_reach   : the turns since a state of the game whose time is over
-/

namespace LombricABrac

/-! ## What is sent -/

namespace Annonce

/-- No kind but NEXT_ROUND tells a player that the turn is its own. -/
theorem countP_tien_of_forall {l : List (Canal × Annonce)} (h : ∀ e ∈ l, e.2.estTour = false) :
    l.countP tien = 0 := by
  apply List.countP_eq_zero.mpr
  rintro ⟨c, a⟩ he
  have ha := h _ he
  cases a with
  | nextRound lomb => cases ha
  | _ => exact Bool.false_ne_true

theorem estTour_of_duJeu {a : Annonce} (h : a.DuJeu) : a.estTour = false := by
  cases a with
  | nextRound lomb => cases h
  | _ => rfl

theorem estTour_of_deSortie {a : Annonce} (h : a.DeSortie) : a.estTour = false := by
  cases a with
  | nextRound lomb => cases h
  | _ => rfl

end Annonce

/-! ## The handlers -/

namespace Salle

variable {serveur : Serveur} {env : Env} {m : ZmqMsg} {s₀ s s' : Salle} {obj₀ : Partie}

/-- Since `s₀`, whose object was `obj₀`, each turn has cost a row; while the game is on two rows are left. -/
def Dure (s₀ : Salle) (obj₀ : Partie) (s : Salle) : Prop :=
  ∃ l obj, s.envois = s₀.envois ++ l ∧ s.jeu.gameObject = some obj ∧ obj.carte.hauteur = obj₀.carte.hauteur ∧
    l.countP Annonce.tien + obj₀.carte.waterLevel ≤ obj.carte.waterLevel ∧
    obj.carte.waterLevel ≤ obj.carte.hauteur ∧
    (s.currentStep = stepGame → obj.carte.waterLevel + 2 ≤ obj.carte.hauteur) ∧ s.currentStep ≠ stepRoom

theorem dure_refl (h : s₀.jeu.gameObject = some obj₀) (hs : s₀.currentStep = stepGame)
    (h2 : obj₀.carte.waterLevel + 2 ≤ obj₀.carte.hauteur) : Dure s₀ obj₀ s₀ := by
  refine ⟨[], obj₀, (List.append_nil _).symm, h, rfl, (Nat.zero_add _).le, by omega, fun _ => h2, ?_⟩
  rw [hs]
  decide

/-- No turn, and the water stays. -/
theorem Dure.sans (h : Dure s₀ obj₀ s) (hl : NePublieQue (fun a => a.estTour = false) s s')
    (hstep : s'.currentStep = s.currentStep ∨ s'.currentStep = stepEndscreen)
    (ho : ∀ obj, s.jeu.gameObject = some obj →
      ∃ obj', s'.jeu.gameObject = some obj' ∧ obj.carte.MemeEau obj'.carte) : Dure s₀ obj₀ s' := by
  obtain ⟨l, obj, he, hobj, hh, hw, hle, h2, hne⟩ := h
  obtain ⟨l', he', hsans⟩ := hl
  obtain ⟨obj', hobj', hw', hh'⟩ := ho obj hobj
  have hcount : (l ++ l').countP Annonce.tien = l.countP Annonce.tien := by
    rw [List.countP_append, Annonce.countP_tien_of_forall hsans, Nat.add_zero]
  refine ⟨l ++ l', obj', by rw [he', he, List.append_assoc], hobj', hh'.trans hh, ?_, by omega, ?_, ?_⟩
  · rw [hcount, hw']
    exact hw
  · intro hg
    rcases hstep with hs | hs
    · have := h2 (hs.symm.trans hg)
      omega
    · cases hs.symm.trans hg
  · rcases hstep with hs | hs
    · rwa [hs]
    · rw [hs]
      decide

theorem dure_traite {fin : Bool} (h : Dure s₀ obj₀ s) (ht : traite serveur env m s = some (s', fin)) :
    Dure s₀ obj₀ s' := by
  refine h.sans ((nePublieQue_traite ht).mono fun _ => Annonce.estTour_of_duJeu) (Or.inl (traite_cases ht).1)
    fun o ho => ?_
  obtain ⟨_, _, _, _, ⟨hj, _⟩ | ⟨obj, obj', hobj, hj, hcas⟩⟩ := traite_cases ht
  · exact ⟨o, by rw [hj, ho], rfl, rfl⟩
  · obtain rfl : obj = o := Option.some.inj (hobj.symm.trans ho)
    refine ⟨obj', by rw [hj], ?_⟩
    rcases hcas with ⟨lp, _, hm, _⟩ | ⟨tir, murs, degats, _, _, hu⟩
    · exact Partie.moveCurrentLombric_memeEau hm
    · exact Partie.useWeapon_memeEau hu

/-- The start of `end_round` when the time of the game is over. -/
theorem monteeEau_fini {g : Game} {obj : Partie} (hfini : s.jeu.checkTime env.heure = true)
    (hobj : s.jeu.gameObject = some obj) (hm : s.jeu.monteeEau env = some g) :
    ∃ obj₁ obj', obj.increaseWaterLevel = some obj₁ ∧ obj₁.update env.fuel = some obj' ∧
      g = { s.jeu with gameObject := some obj' } := by
  unfold Game.monteeEau at hm
  rw [if_pos hfini, hobj, Option.bind_some] at hm
  obtain ⟨obj', hb, rfl⟩ := Option.map_eq_some_iff.mp hm
  obtain ⟨obj₁, hrise, hu⟩ := Option.bind_eq_some_iff.mp hb
  exact ⟨obj₁, obj', hrise, hu, rfl⟩

/-- **`end_round` when the time of the game is over**: the water rises, and the turn that may follow leaves two
rows. -/
theorem dure_endRound (h : Dure s₀ obj₀ s) (hfini : s.jeu.checkTime env.heure = true)
    (hr : endRound env s = some s') : Dure s₀ obj₀ s' := by
  obtain ⟨g, nbrTeam, lastTeam, hm, hnb, hfin⟩ := endRound_cases hr
  obtain ⟨l, obj, he, hobj, hh, hw, _, h2, hne⟩ := h
  obtain ⟨obj₁, obj', hrise, hu, rfl⟩ := monteeEau_fini hfini hobj hm
  obtain ⟨hle, hw1, hh1⟩ := Partie.increaseWaterLevel_spec hrise
  obtain ⟨hw2, hh2⟩ := Partie.update_memeEau hu
  have hne : s.currentStep ≠ 0 := hne
  rcases hfin with ⟨_, rfl⟩ | ⟨htwo, ht⟩
  · -- the game is over
    have hcount : (l ++ s.jeu.annonce .endGame).countP Annonce.tien = l.countP Annonce.tien := by
      rw [List.countP_append, Annonce.countP_tien_of_forall
        (Game.forall_annonce (P := fun a => a.estTour = false) rfl), Nat.add_zero]
    refine ⟨l ++ s.jeu.annonce .endGame, obj', ?_, rfl, by omega, by omega, by omega, fun hg => ?_, ?_⟩
    · rw [← List.append_assoc, ← he]
      rfl
    · have hg : s.currentStep + 1 = 1 := hg
      omega
    · exact Nat.succ_ne_zero _
  · obtain ⟨id, g', o, o', x, y, hc, ho, hcaisse, rfl⟩ := tourSuivant_cases ht
    obtain ⟨hf, _, _, j, _, _, hj, _⟩ := Game.chercheTour_spec env.fuel hc
    obtain rfl : obj' = o := Option.some.inj ((Game.gameObject_of_fixe hf).symm.trans ho)
    have hcarte : o'.carte = obj'.carte := by
      rcases Game.caisse_cases hcaisse with rfl | ⟨rand, pos, reste, hd⟩
      · rfl
      · exact (dropHealthBox_carte hd).1
    have hcount : (l ++ g'.annonceTour ⟨id, false, o'.carte.waterLevel, x, y⟩).countP Annonce.tien =
        l.countP Annonce.tien + 1 := by
      rw [List.countP_append, Game.tien_annonceTour (List.getElem?_eq_some_iff.mp hj).1]
    refine ⟨_, o', ?_, rfl, by rw [hcarte]; omega, by rw [hcount, hcarte]; omega, by rw [hcarte]; omega,
      fun hg => ?_, hne⟩
    · rw [← List.append_assoc, ← he]
    · -- a worm lives above the water
      obtain ⟨v, j, i, w, hv, _, _, _, _, ha⟩ := Game.nbAliveTeams_pos hnb (by omega)
      cases hv
      have := h2 hg
      rw [hcarte]
      exact Partie.vivant_au_sec hu (by omega) ha

theorem checkTime_traite {fin : Bool} (ht : traite serveur env m s = some (s', fin)) (heure : Int) :
    s'.jeu.checkTime heure = s.jeu.checkTime heure := by
  obtain ⟨_, _, _, _, ⟨hj, _⟩ | ⟨obj, obj', _, hj, _⟩⟩ := traite_cases ht <;> rw [hj]
  rfl

end Salle

/-! ## Runs -/

namespace Thread

/-- The clock is read after the end of the time of the game. -/
def tempsEcoule (e : Evenement) (th : Thread) : Bool :=
  match e with
  | .suite env _ => th.salle.jeu.checkTime env.heure
  | _ => true

theorem suite_dure (serveur : Serveur) (s₀ : Salle) (obj₀ : Partie) :
    Suite serveur (fun e th => tempsEcoule e th = true) (Salle.Dure s₀ obj₀) where
  db _ h := h
  quit {m th} _ h := by
    refine h.sans ((Salle.nePublieQue_handleQuit m _).mono fun _ => Annonce.estTour_of_deSortie) ?_ fun obj ho => ?_
    · exact (Salle.handleQuit_step m th.salle).2.imp id And.left
    · exact ⟨obj, (gameObject_handleQuit m _).trans ho, rfl, rfl⟩
  game {m env db th s'} _ hok h hg := by
    obtain ⟨s₁, fin, ht, hfin⟩ := Salle.handleGame_cases hg
    have h₁ := Salle.dure_traite h ht
    rcases hfin with ⟨_, hr⟩ | ⟨_, rfl⟩
    · exact Salle.dure_endRound h₁ ((Salle.checkTime_traite ht _).trans hok) hr
    · exact h₁
  heure _ hok h hr := Salle.dure_endRound h hok hr

/-- In a run where each START places a worm or finds two rows. -/
theorem marge_of_reach {serveur : Serveur} {th : Thread}
    (h : Runs.Reach (etape serveur) (fun e th => assezHaute serveur e th = true) Depart th) :
    th.salle.jeu.AuSec th.marge := by
  have hinv : th.salle.jeu.AuSec th.marge ∧ Attente th.salle.currentStep th.lieu := by
    refine h.invariant (I := fun th => th.salle.jeu.AuSec th.marge ∧ Attente th.salle.currentStep th.lieu)
      (fun th h0 => ?_) fun e th th' hI hok hs => ⟨marge_etape hI.1 hI.2 hok hs, (etape_appel hI.2 hs).2⟩
    obtain ⟨owner, roomId, db, rfl⟩ := h0
    refine ⟨fun obj hobj => ?_, trivial⟩
    cases hobj
  exact hinv.1

/-- The turns since a state of the game. -/
def tours (th₀ th : Thread) : Nat := (th.salle.envois.drop th₀.salle.envois.length).countP Annonce.tien

/-- **The map bounds the turns that are left**: since a state of the game after which each clock is read
past the end of its time, each turn has cost a row of the map; while the game goes on two more are left. -/
theorem duree_of_reach (serveur : Serveur) (th₀ th : Thread) (obj₀ : Partie)
    (h₀ : Runs.Reach (etape serveur) (fun e th => assezHaute serveur e th = true) Depart th₀)
    (hs : th₀.salle.currentStep = stepGame) (hobj : th₀.salle.jeu.gameObject = some obj₀)
    (h : Runs.Reach (etape serveur) (fun e th => tempsEcoule e th = true) (· = th₀) th) :
    tours th₀ th + obj₀.carte.waterLevel ≤ obj₀.carte.hauteur ∧
      (th.salle.currentStep = stepGame → tours th₀ th + obj₀.carte.waterLevel + 2 ≤ obj₀.carte.hauteur) := by
  have ha := ((garde_lieu serveur _).reach h₀).2
  have hsec := marge_of_reach h₀
  rw [marge_of_game hs] at hsec
  have h1 : th₀.salle.currentStep ≠ stepRoom := by
    rw [hs]
    decide
  obtain ⟨l, obj, he, ho, hh, hw, hle, h2, _⟩ :=
    (suite_dure serveur th₀.salle obj₀).reach (Salle.dure_refl hobj hs (hsec obj₀ hobj)) h1 ha h
  have htours : tours th₀ th = l.countP Annonce.tien := by rw [tours, he, List.drop_left]
  rw [htours]
  refine ⟨by omega, fun hg => ?_⟩
  have := h2 hg
  omega

/-- Player 1 passes its turn one second after the end. -/
def passeTard : List Evenement :=
  [.recoit ⟨1, .shoot ⟨2, 0, 0⟩⟩, .suite { envPetit 0 with heure := 31, fuel := 100 } baseTrois]

/-- Five rows: the game goes on, and two turns more are possible at most. -/
theorem duree_passeTard : ∃ th₀ th obj₀, Runs.Reach (etape (serveurDe Map.petite))
      (fun e th => assezHaute (serveurDe Map.petite) e th = true) Depart th₀ ∧
    Runs.Reach (etape (serveurDe Map.petite)) (fun e th => tempsEcoule e th = true) (· = th₀) th ∧
    th.salle.currentStep = stepGame ∧ th₀.salle.jeu.gameObject = some obj₀ ∧ obj₀.carte.hauteur = 5 ∧
    tours th₀ th = 1 ∧ tours th₀ th + obj₀.carte.waterLevel + 2 ≤ obj₀.carte.hauteur := by
  obtain ⟨th₀, _, h₀, hp⟩ := Runs.exists_of_exec (etape (serveurDe Map.petite))
    (fun e th => assezHaute (serveurDe Map.petite) e th = true)
    (show Depart (new 1 1 baseTrois) from ⟨1, 1, baseTrois, rfl⟩) (partieATrois 1)
    (fun th₀ => th₀.salle.currentStep == stepGame &&
      (th₀.salle.jeu.gameObject.any fun obj => obj.carte.hauteur == 5) &&
      (Runs.exec (etape (serveurDe Map.petite)) (fun e th => tempsEcoule e th = true) passeTard th₀).any
        fun th => th.salle.currentStep == stepGame && tours th₀ th == 1) (by decide +kernel)
  simp only [Bool.and_eq_true, beq_iff_eq, Option.any_eq_true] at hp
  obtain ⟨⟨hs, obj₀, hobj, hh⟩, th, hth, hs', ht⟩ := hp
  have h : Runs.Reach (etape (serveurDe Map.petite)) (fun e th => tempsEcoule e th = true) (· = th₀) th :=
    Runs.reach_of_exec passeTard (.init rfl) hth
  obtain ⟨_, hreste⟩ := duree_of_reach (serveurDe Map.petite) th₀ th obj₀ h₀ hs hobj h
  exact ⟨th₀, th, obj₀, h₀, h, hs', hobj, hh, ht, hreste hs'⟩

end Thread
end LombricABrac
