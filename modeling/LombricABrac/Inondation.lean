import LombricABrac.MapSync
import LombricABrac.Tours

/-!
# How high the water rises

`Map::increaseWaterLevel` writes the row `hauteur - waterLevel` and bounds nothing.  `end_round` calls
it once the time of the game is over; the physics run after it leaves only worms above the water, and
`end_round` goes on only with two teams of them.

    vivant_au_sec    : where a worm lives after a rise there are two rows above the water
    marge_etape      : the rises that may still come, at each control point
    niveau_of_reach  : the level stays inside the map, where START finds two rows or a worm
    carte_dune_ligne : a game without worms on one row
-/

namespace LombricABrac

/-! ## The map of a pass -/

/-- The water is at the same level in a map of the same height. -/
def Map.MemeEau (m m' : Map) : Prop := m'.waterLevel = m.waterLevel ∧ m'.hauteur = m.hauteur

namespace Partie

variable {p p' : Partie}

theorem etape_memeEau {m : Map} {t : Int} {q : Passe} (h : m.MemeEau q.carte) : m.MemeEau (q.etape t).carte := by
  cases hap : q.apres with
  | nil => rwa [Passe.etape_nil hap]
  | cons s apres =>
    rw [Passe.etape_cons hap]
    split
    · exact h
    · obtain ⟨_, _, hd⟩ := (s.update q.carte t q.tous).sprite.deathMove_dug q.carte t
      exact ⟨hd.waterLevel_eq.trans h.1, hd.hauteur_eq.trans h.2⟩

theorem update_memeEau {fuel : Nat} (hu : p.update fuel = some p') : p.carte.MemeEau p'.carte := by
  refine Ticks.loop_keeps (I := fun q => p.carte.MemeEau q.carte) (fun t q hq => ?_) fuel 0 p p'
    ⟨rfl, rfl⟩ hu
  exact passe_rule (J := fun r => p.carte.MemeEau r.carte) (fun r hr => etape_memeEau hr) hq

theorem moveCurrentLombric_memeEau {fuel : Nat} {lp : LombPos}
    (hm : p.moveCurrentLombric fuel lp = some p') : p.carte.MemeEau p'.carte := by
  rcases moveCurrentLombric_cases hm with rfl | ⟨adresse, hu⟩
  · exact ⟨rfl, rfl⟩
  · have hc : p.carte = (p.poser adresse (int32 lp.posX) (int32 lp.posY)).carte := rfl
    rw [hc]
    exact update_memeEau hu

theorem useWeapon_memeEau {calculDirVect : Direction} {fuel : Nat} {tir : Tir} {murs : List Nat}
    {degats : List Degat} (hs : p.useWeapon calculDirVect fuel tir = some (p', murs, degats)) :
    p.carte.MemeEau p'.carte := by
  obtain ⟨_, _, hd⟩ := useWeapon_dug hs
  exact ⟨hd.waterLevel_eq, hd.hauteur_eq⟩

/-- A rise that `end_round` survives: the level is one more, and inside the map. -/
theorem increaseWaterLevel_spec (h : p.increaseWaterLevel = some p') :
    p.carte.waterLevel + 1 ≤ p.carte.hauteur ∧ p'.carte.waterLevel = p.carte.waterLevel + 1 ∧
      p'.carte.hauteur = p.carte.hauteur := by
  obtain ⟨carte, hc, rfl⟩ := Option.map_eq_some_iff.mp h
  obtain ⟨hle, rfl⟩ := Map.increaseWaterLevel_spec hc
  exact ⟨hle, rfl, rfl⟩

/-- The row that it writes is a row of the map. -/
theorem increaseWaterLevel_ne_none (h : p.carte.waterLevel + 1 ≤ p.carte.hauteur) :
    p.increaseWaterLevel ≠ none := by
  unfold increaseWaterLevel Map.increaseWaterLevel
  simp [h]

/-- **A worm that lives after an update** has a row of the map under it and above the water. -/
theorem vivant_au_sec {fuel : Nat} (hu : p.update fuel = some p')
    (hle : p.carte.waterLevel + 1 ≤ p.carte.hauteur) {id : Nat} (hv : p'.isLombAlive id = true) :
    p'.carte.waterLevel + 2 ≤ p'.carte.hauteur := by
  obtain ⟨hw, hh⟩ := update_memeEau hu
  obtain ⟨s, hs, _⟩ := isLombAlive_spec hv
  obtain ⟨hin, _, l, hl⟩ := findLombric_spec hs
  have hsec := (update_vivants hu hin hl).2
  rw [Map.ligneNoyade_eq (by omega)] at hsec
  omega

end Partie

/-! ## The handlers -/

/-- The map of the game has `n` rows above the water. -/
def Game.AuSec (n : Nat) (g : Game) : Prop :=
  ∀ obj, g.gameObject = some obj → obj.carte.waterLevel + n ≤ obj.carte.hauteur

theorem Game.AuSec.mono {g : Game} {n k : Nat} (h : g.AuSec n) (hk : k ≤ n) : g.AuSec k := fun obj hobj => by
  have := h obj hobj
  omega

namespace Salle

variable {serveur : Serveur} {env : Env} {m : ZmqMsg} {s s' : Salle}

theorem auSec_traite {n : Nat} {fin : Bool} (h : s.jeu.AuSec n)
    (ht : traite serveur env m s = some (s', fin)) : s'.jeu.AuSec n := by
  obtain ⟨_, _, _, _, ⟨hj, _⟩ | ⟨obj, obj', hobj, hj, hcas⟩⟩ := traite_cases ht
  · rw [hj]
    exact h
  · have hn := h obj hobj
    have heau : obj.carte.MemeEau obj'.carte := by
      rcases hcas with ⟨lp, _, hm, _⟩ | ⟨tir, murs, degats, _, _, hu⟩
      · exact Partie.moveCurrentLombric_memeEau hm
      · exact Partie.useWeapon_memeEau hu
    intro o ho
    rw [hj] at ho
    cases ho
    rw [heau.1, heau.2]
    exact hn

/-- `end_round` uses one row; while the game goes on it has not used it up. -/
theorem auSec_endRound {n : Nat} (h : s.jeu.AuSec (n + 1)) (hr : endRound env s = some s') :
    s'.jeu.AuSec n ∧ (s'.currentStep = s.currentStep + 1 ∨
      s'.currentStep = s.currentStep ∧ (n = 1 → s'.jeu.AuSec 2)) := by
  obtain ⟨g, nbrTeam, lastTeam, hm, hnb, hfin⟩ := endRound_cases hr
  have hg : g.AuSec n := by
    rcases Game.monteeEau_cases hm with rfl | ⟨obj, obj₁, obj', hobj, hw, hu, rfl⟩
    · exact h.mono (Nat.le_succ n)
    · intro o ho
      cases ho
      obtain ⟨_, hw1, hh1⟩ := Partie.increaseWaterLevel_spec hw
      obtain ⟨hw2, hh2⟩ := Partie.update_memeEau hu
      have := h obj hobj
      omega
  rcases hfin with ⟨_, rfl⟩ | ⟨htwo, ht⟩
  · exact ⟨hg, Or.inl rfl⟩
  · obtain ⟨id, g', obj, obj', x, y, hc, hobj, hcaisse, rfl⟩ := tourSuivant_cases ht
    have hobj₀ : g.gameObject = some obj := by
      rw [← hobj]
      exact (Game.gameObject_of_fixe (Game.chercheTour_spec _ hc).1).symm
    have hcarte : obj'.carte = obj.carte := by
      rcases Game.caisse_cases hcaisse with rfl | ⟨rand, pos, reste, hd⟩
      · rfl
      · exact (dropHealthBox_carte hd).1
    have hsuite : ∀ k, g.AuSec k → Game.AuSec k { g' with gameObject := some obj', beginTimeRound := env.heureFin } :=
      fun k hk o ho => by
        cases ho
        rw [hcarte]
        exact hk obj hobj₀
    refine ⟨hsuite n hg, Or.inr ⟨rfl, fun hn => ?_⟩⟩
    rcases Game.monteeEau_cases hm with rfl | ⟨o, o₁, o', ho, hw, hu, rfl⟩
    · subst hn
      exact hsuite 2 h
    · -- a rise: two teams are left, so a worm lives
      obtain ⟨v, j, i, w, hv, _, _, _, _, ha⟩ := Game.nbAliveTeams_pos hnb (by omega)
      cases hv
      obtain ⟨hle, hw1, hh1⟩ := Partie.increaseWaterLevel_spec hw
      have hrise := h o ho
      refine hsuite 2 fun o₂ ho₂ => ?_
      cases ho₂
      exact Partie.vivant_au_sec hu (by omega) ha

end Salle

/-! ## START -/

/-- The map of a START, where no worm is placed, has two rows. -/
def Game.deuxLignes (serveur : Serveur) (g : Game) : Bool :=
  g.idsLombrics != some [] || (serveur.cartes g.mapId).all fun f => decide (2 ≤ f.hauteur)

namespace Salle

variable {serveur : Serveur} {env : Env} {s s' : Salle}

theorem auSec_demarre (hd : demarre serveur env s = some s') (h : s.jeu.deuxLignes serveur = true) :
    s'.jeu.AuSec 2 := by
  obtain ⟨obj, id, g, lombs, hs, _, rfl⟩ := demarre_cases hd
  obtain ⟨f, ids, sprites, reste, hf, hids, hl, rfl⟩ := Game.spawnLombric_spec hs
  intro o ho
  cases ho
  show 0 + 2 ≤ f.hauteur
  cases ids with
  | nil => simpa [Game.deuxLignes, hids, hf] using h
  | cons id ids =>
    rw [Partie.nouveauxLombrics] at hl
    split at hl
    · simp at hl
    · next x saveY y rand hp =>
      have : y + 1 < f.hauteur := (Map.place_pose _ _ hp).dernier
      omega

end Salle

/-! ## Runs -/

/-- Where `end_round` may be called next. -/
def Lieu.Appelle : Lieu → Prop
  | .partieMsg _ | .minuterie => True
  | _ => False

namespace Thread

/-- How often `end_round` may still raise the water before the game is over for the thread. -/
def marge (th : Thread) : Nat :=
  if th.salle.currentStep = stepGame then 2
  else
    match th.lieu with
    | .partieMsg _ | .minuterie => 1
    | _ => 0

/-- A START without worms needs a map of two rows. -/
def assezHaute (serveur : Serveur) (e : Evenement) (th : Thread) : Bool :=
  match th.lieu, e with
  | .salleMsg m, .suite _ _ => m.contenu != .start || th.salle.jeu.deuxLignes serveur
  | _, _ => true

/-- The level is inside the map, and so is the row of every rise that `end_round` may come to. -/
structure EauDansLaCarte (serveur : Serveur) (th : Thread) : Prop where
  niveau : ∀ obj, th.salle.jeu.gameObject = some obj → obj.carte.waterLevel ≤ obj.carte.hauteur
  minuterie : th.lieu = .minuterie → ∀ obj, th.salle.jeu.gameObject = some obj →
    obj.increaseWaterLevel ≠ none
  message : ∀ m, th.lieu = .partieMsg m → ∀ env db s, Salle.traite serveur env m { th.salle with db } =
    some (s, true) → ∀ obj, s.jeu.gameObject = some obj → obj.increaseWaterLevel ≠ none

variable {serveur : Serveur} {e : Evenement} {th th' : Thread}

/-- Before a call of `end_round` one rise is allowed. -/
theorem one_le_marge (h : th.lieu.Appelle) : 1 ≤ th.marge := by
  unfold marge
  split
  · decide
  · split
    · exact le_rfl
    · exact le_rfl
    · next hm hn =>
      cases hl : th.lieu with
      | partieMsg m => exact absurd hl (hm m)
      | minuterie => exact absurd hl hn
      | tete | salle | salleMsg | partie | fini => rw [hl] at h; cases h

theorem eauDansLaCarte_of_marge (h : th.salle.jeu.AuSec th.marge) : EauDansLaCarte serveur th := by
  refine ⟨h.mono (Nat.zero_le _), fun hl obj hobj => ?_, fun m hl env db s ht obj hobj => ?_⟩
  · exact Partie.increaseWaterLevel_ne_none (h.mono (one_le_marge (by rw [hl]; trivial)) obj hobj)
  · have h1 : Game.AuSec 1 ({ th.salle with db } : Salle).jeu := h.mono (one_le_marge (by rw [hl]; trivial))
    exact Partie.increaseWaterLevel_ne_none (Salle.auSec_traite h1 ht obj hobj)

theorem marge_of_game (h : th.salle.currentStep = stepGame) : th.marge = 2 := if_pos h

/-- Two rows while the game is on; later one where `end_round` may be called next. -/
theorem auSec_marge (h2 : th.salle.currentStep = stepGame → th.salle.jeu.AuSec 2)
    (h1 : th.lieu.Appelle → th.salle.jeu.AuSec 1) (h0 : th.salle.jeu.AuSec 0) :
    th.salle.jeu.AuSec th.marge := by
  by_cases h : th.salle.currentStep = stepGame
  · rw [marge_of_game h]
    exact h2 h
  · unfold marge
    rw [if_neg h]
    split
    · next m hm => exact h1 (by rw [hm]; trivial)
    · next hm => exact h1 (by rw [hm]; trivial)
    · exact h0

theorem gameObject_handleQuit (m : ZmqMsg) (s : Salle) :
    (s.handleQuit m).jeu.gameObject = s.jeu.gameObject := by
  unfold Salle.handleQuit
  split <;> rfl

theorem aiguille_calme (th : Thread) : ¬ th.aiguille.lieu.Appelle := by
  unfold aiguille
  split
  · exact id
  · split
    · exact id
    · split <;> exact id

/-- `end_round` comes after a message of the game, or after nothing. -/
theorem etape_appelle (hs : etape serveur e th = some th') (hl : th'.lieu.Appelle) :
    th.lieu = .partie ∧ th.salle.currentStep = stepGame ∨ ∃ m, th.lieu = .partieMsg m := by
  unfold etape at hs
  split at hs <;> rename_i hlieu
  · cases hs
    exact absurd hl (aiguille_calme _)
  · split at hs
    · cases hs
      cases hl
    · simp at hs
  · split at hs
    · simp at hs
    · cases hs
      cases hl
  · obtain ⟨s', _, rfl⟩ := Option.map_eq_some_iff.mp hs
    cases hl
  · split at hs
    · next m hg => exact Or.inl ⟨hlieu, hg⟩
    · simp at hs
  · split at hs
    · next hg => exact Or.inl ⟨hlieu, hg⟩
    · simp at hs
  · split at hs
    · simp at hs
    · cases hs
      cases hl
  · next m env db => exact Or.inr ⟨m, hlieu⟩
  · obtain ⟨s', _, rfl⟩ := Option.map_eq_some_iff.mp hs
    cases hl
  · simp at hs

/-- A call of `end_round`, where the thread allows it: while the game is on two rows stay, then one, and
none is asked for after a last call. -/
theorem auSec_appel {env : Env} {s s' : Salle} (h2 : s.currentStep = stepGame → s.jeu.AuSec 2)
    (h1 : s.jeu.AuSec 1) (hne : s.currentStep ≠ stepRoom) (hr : Salle.endRound env s = some s') :
    (s'.currentStep = stepGame → s'.jeu.AuSec 2) ∧ s'.jeu.AuSec 0 ∧
      (s.currentStep = stepGame → s'.jeu.AuSec 1) := by
  have hne : s.currentStep ≠ 0 := hne
  by_cases hg : s.currentStep = stepGame
  · obtain ⟨hn, hfin⟩ := Salle.auSec_endRound (n := 1) (h2 hg) hr
    refine ⟨fun hg' => ?_, hn.mono (Nat.zero_le 1), fun _ => hn⟩
    rcases hfin with hst | ⟨_, hsuite⟩
    · simp only [stepGame] at hg hg'
      omega
    · exact hsuite rfl
  · obtain ⟨hn, hfin⟩ := Salle.auSec_endRound (n := 0) h1 hr
    refine ⟨fun hg' => ?_, hn, fun h => absurd h hg⟩
    simp only [stepGame] at hg hg'
    rcases hfin with hst | ⟨hst, _⟩ <;> omega

/-- **One step.** -/
theorem marge_etape (h : th.salle.jeu.AuSec th.marge) (ha : Attente th.salle.currentStep th.lieu)
    (hok : assezHaute serveur e th = true) (hs : etape serveur e th = some th') :
    th'.salle.jeu.AuSec th'.marge := by
  have h2 : th.salle.currentStep = stepGame → th.salle.jeu.AuSec 2 := fun hg => by
    rwa [marge_of_game hg] at h
  have h1 : th.lieu.Appelle → th.salle.jeu.AuSec 1 := fun hl => h.mono (one_le_marge hl)
  have h0 : th.salle.jeu.AuSec 0 := h.mono (Nat.zero_le _)
  obtain ⟨hap, _⟩ := etape_appel ha hs
  have hsuite := etape_appelle hs
  obtain ⟨lieu', s', n⟩ := th'
  simp only at hap hsuite
  have h1' : lieu'.Appelle → th.salle.jeu.AuSec 1 := by
    intro hl
    rcases hsuite hl with ⟨_, hg⟩ | ⟨m, hm⟩
    · exact (h2 hg).mono (by decide)
    · exact h1 (by rw [hm]; trivial)
  cases hap with
  | rien _ db => exact auSec_marge h2 h1' h0
  | quit m _ =>
    have hquit : ∀ n, th.salle.jeu.AuSec n → (th.salle.handleQuit m).jeu.AuSec n := fun n hn obj hobj =>
      hn obj ((gameObject_handleQuit m th.salle).symm.trans hobj)
    refine auSec_marge (fun hg => hquit 2 (h2 ?_)) (fun hl => hquit 1 (h1' hl)) (hquit 0 h0)
    rcases (Salle.handleQuit_step m th.salle).2 with hq | ⟨hq, _⟩
    · exact hq.symm.trans hg
    · cases hq.symm.trans hg
  | room m env db s' hl hroom hr =>
    have hcalme : ¬ lieu'.Appelle := by
      intro happ
      rcases hsuite happ with ⟨hp, _⟩ | ⟨m', hp⟩
      · cases hl.symm.trans hp
      · cases hl.symm.trans hp
    rcases Salle.handleRoom_lobby hr with ⟨hc, hd⟩ | ⟨hst, hobj, _⟩
    · have hlignes : th.salle.jeu.deuxLignes serveur = true := by
        simpa [assezHaute, hl, hc] using hok
      have hsec := Salle.auSec_demarre hd hlignes
      exact auSec_marge (fun _ => hsec) (fun happ => absurd happ hcalme) (hsec.mono (Nat.zero_le 2))
    · refine auSec_marge (fun hg obj ho => ?_) (fun happ => absurd happ hcalme) fun obj ho => ?_
      · exact h2 (hst.symm.trans hg) obj (hobj.symm.trans ho)
      · exact h0 obj (hobj.symm.trans ho)
  | game m env db s' hl hgame hr =>
    obtain ⟨s₁, fin, ht, hfin⟩ := Salle.handleGame_cases hr
    have hsec : s₁.jeu.AuSec 2 := Salle.auSec_traite (s := { th.salle with db }) (h2 hgame) ht
    have hst : s₁.currentStep = stepGame := (Salle.traite_cases ht).1.trans hgame
    rcases hfin with ⟨_, hend⟩ | ⟨_, rfl⟩
    · obtain ⟨h2', h0', h1'⟩ := auSec_appel (fun _ => hsec) (hsec.mono (by decide)) (by rw [hst]; decide) hend
      exact auSec_marge h2' (fun _ => h1' hst) h0'
    · exact auSec_marge (fun _ => hsec) (fun _ => hsec.mono (by decide)) (hsec.mono (by decide))
  | heure env db s' hl hne hr =>
    obtain ⟨h2', h0', _⟩ := auSec_appel (s := { th.salle with db }) h2 (h1 (by rw [hl]; trivial)) hne hr
    refine auSec_marge h2' (fun happ => ?_) h0'
    rcases hsuite happ with ⟨hp, _⟩ | ⟨m, hp⟩
    · cases hl.symm.trans hp
    · cases hl.symm.trans hp

/-- What every room keeps: nothing, but where the thread is. -/
theorem garde_lieu (serveur : Serveur) (ok : Evenement → Thread → Prop) :
    Garde serveur ok fun _ => True where
  init _ _ _ := trivial
  db _ _ := trivial
  quit _ _ _ := trivial
  room _ _ _ _ _ := trivial
  game _ _ _ _ _ := trivial
  heure _ _ _ _ _ := trivial

/-- **The water stays in the map**: in every run where each START places a worm or finds two rows, the
level is at most the height and every row that `end_round` may write is one of the map. -/
theorem niveau_of_reach (serveur : Serveur) (th : Thread)
    (h : Runs.Reach (etape serveur) (fun e th => assezHaute serveur e th = true) Depart th) :
    EauDansLaCarte serveur th := by
  have hinv : th.salle.jeu.AuSec th.marge ∧ Attente th.salle.currentStep th.lieu := by
    refine h.invariant (I := fun th => th.salle.jeu.AuSec th.marge ∧
      Attente th.salle.currentStep th.lieu) (fun th h0 => ?_) fun e th th' hI hok hs => ⟨marge_etape hI.1 hI.2 hok hs, ?_⟩
    · obtain ⟨owner, roomId, db, rfl⟩ := h0
      refine ⟨fun obj hobj => ?_, trivial⟩
      cases hobj
    · exact ((garde_lieu serveur fun e th => assezHaute serveur e th = true).etape trivial hI.2 hok hs).2
  exact eauDansLaCarte_of_marge hinv.1

/-! ## A game of spectators -/

/-- Six columns of AIR, one row. -/
def uneLigne : Map := Map.new 6 1 (fun _ _ => air) (by decide) (by decide)

/-- The owner starts the game as a spectator and passes the turn when the time of the game is over. -/
def spectateur : List Evenement :=
  let suite : Evenement := .suite (envPetit 0) petiteBase
  [suite, .recoit ⟨1, .infoRoom⟩, suite, .recoit ⟨1, .start⟩, suite, suite, suite,
    .recoit ⟨1, .shoot ⟨2, 0, 0⟩⟩, .suite { envPetit 0 with heure := 31 } petiteBase]

/-- The shot raises the water over the only row and ends the game; the timer that follows would write a
row that does not exist. -/
theorem carte_dune_ligne : ∃ th obj, Runs.Reach (etape (serveurDe uneLigne)) (fun _ _ => True) Depart th ∧
    th.lieu = .minuterie ∧ th.salle.jeu.gameObject = some obj ∧ obj.carte.waterLevel = obj.carte.hauteur ∧
      ¬ EauDansLaCarte (serveurDe uneLigne) th := by
  obtain ⟨th, _, hr, hp⟩ := Runs.exists_of_exec (etape (serveurDe uneLigne)) (fun _ _ => True)
    (show Depart (new 1 1 petiteBase) from ⟨1, 1, petiteBase, rfl⟩) spectateur
    (fun th => th.lieu == .minuterie && th.salle.jeu.gameObject.any fun obj =>
      obj.carte.waterLevel == obj.carte.hauteur && obj.increaseWaterLevel.isNone) (by decide +kernel)
  rw [Bool.and_eq_true, beq_iff_eq] at hp
  obtain ⟨hl, hp⟩ := hp
  obtain ⟨obj, hobj, hp⟩ := Option.any_eq_true _ _ |>.mp hp
  rw [Bool.and_eq_true, beq_iff_eq] at hp
  refine ⟨th, obj, hr, hl, hobj, hp.1, fun heau => ?_⟩
  exact heau.minuterie hl obj hobj (Option.isNone_iff_eq_none.mp hp.2)

/-- Two users and two worms each. -/
def baseNoyade : DataBase :=
  ⟨[⟨1, "", 0⟩, ⟨2, "", 0⟩], [⟨7, 1, ""⟩, ⟨8, 2, ""⟩, ⟨9, 1, ""⟩, ⟨10, 2, ""⟩],
    [⟨1, fun _ => 0, fun _ => 0, false⟩]⟩

/-- Each player has a worm on the step and one below it; player 1 passes its turn when the time of the game
is over. -/
def noyade : List Evenement :=
  let suite (heure : Int) (rand : List Nat) : Evenement := .suite ⟨0, heure, 0, rand, 45, 0, 0⟩ baseNoyade
  [suite 0 [], .recoit ⟨1, .clientModifyNbLombrics 2⟩, suite 0 [], .recoit ⟨1, .infoRoom⟩, suite 0 [],
    .recoit ⟨2, .infoRoom⟩, suite 0 [], .recoit ⟨1, .clientJoinTeam 1⟩, suite 0 [],
    .recoit ⟨2, .clientJoinTeam 2⟩, suite 0 [], .recoit ⟨1, .start⟩, suite 0 [0, 0, 1, 0, 0, 0, 1, 0],
    suite 0 [], suite 0 [], .recoit ⟨1, .shoot ⟨2, 0, 0⟩⟩, suite 31 [99], suite 0 []]

/-- The water drowns the two worms below, and the game goes on. -/
theorem noyade_dans_la_carte : ∃ th obj, Runs.exec (etape (serveurDe marche))
      (fun e th => assezHaute (serveurDe marche) e th = true) noyade (new 1 1 baseNoyade) = some th ∧
    th.salle.currentStep = stepGame ∧ th.salle.jeu.gameObject = some obj ∧ obj.carte.waterLevel = 1 ∧
      obj.spriteVector.map Sprite.getId = [7, 8] ∧ EauDansLaCarte (serveurDe marche) th := by
  obtain ⟨th, hth, hr, hp⟩ := Runs.exists_of_exec (etape (serveurDe marche))
    (fun e th => assezHaute (serveurDe marche) e th = true)
    (show Depart (new 1 1 baseNoyade) from ⟨1, 1, baseNoyade, rfl⟩) noyade
    (fun th => th.salle.currentStep == stepGame && th.salle.jeu.gameObject.any fun obj =>
      obj.carte.waterLevel == 1 && obj.spriteVector.map Sprite.getId == [7, 8]) (by decide +kernel)
  rw [Bool.and_eq_true, beq_iff_eq] at hp
  obtain ⟨hjeu, hp⟩ := hp
  obtain ⟨obj, hobj, hp⟩ := Option.any_eq_true _ _ |>.mp hp
  rw [Bool.and_eq_true, beq_iff_eq, beq_iff_eq] at hp
  exact ⟨th, obj, hth, hjeu, hobj, hp.1, hp.2, niveau_of_reach (serveurDe marche) th hr⟩

end Thread
end LombricABrac
