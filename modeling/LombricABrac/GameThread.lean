import LombricABrac.GameSpec
import LombricABrac.Lib.Runs

/-!
# The thread of a room

`game_thread` of `Server/src/game_thread.cpp` as a machine: one control point for each place where
`current_step` is tested or handed to a handler.  Other threads write to the tables between two
points, so each event brings the tables as they are then.

    etape_passage        : the only changes of `current_step`
    finUnique_of_reach   : in a run whose timer never fires on a finished game, `end_game` runs once
                           at most and the room is closed once
    rappel_ferme_mal     : a last shot past the end of the round breaks all of it
-/

namespace LombricABrac

/-- Where the thread is; a received message waits for its second handler. -/
inductive Lieu where
  | tete
  | salle
  | salleMsg (m : ZmqMsg)
  | partie
  | partieMsg (m : ZmqMsg)
  | minuterie
  | fini
  deriving DecidableEq

/-- A message arrives, the receive times out, or the thread goes on. -/
inductive Evenement where
  | recoit (m : ZmqMsg)
  | silence
  | suite (env : Env) (db : DataBase)

/-- The locals of `game_thread`; `closeRooms` counts the calls of `db.close_room(room_id)`. -/
structure Thread where
  lieu : Lieu
  salle : Salle
  closeRooms : Nat

namespace Thread

def new (owner roomId : Nat) (db : DataBase) : Thread where
  lieu := .tete
  salle := ⟨Game.new owner roomId, stepRoom, db, [], 0⟩
  closeRooms := 0

/-- The `switch` of the main loop. -/
def aiguille (th : Thread) : Thread :=
  if th.salle.currentStep = stepRoom then { th with lieu := .salle }
  else if th.salle.currentStep = stepGame then { th with lieu := .partie }
  else if th.salle.currentStep = stepEndscreen then
    { th with
      lieu := .fini
      salle := { th.salle with db := th.salle.db.closeRoom th.salle.jeu.gameId }
      closeRooms := th.closeRooms + 1 }
  else { th with lieu := .fini }

/-- `if(check_round_time()) end_round(&current_step)`. -/
def verifieHeure (env : Env) (s : Salle) : Option Salle :=
  if s.jeu.checkRoundTime env.heureRound then s.endRound env else some s

def etape (serveur : Serveur) (e : Evenement) (th : Thread) : Option Thread :=
  match th.lieu, e with
  | .tete, .suite _ db => some (aiguille { th with salle := { th.salle with db } })
  | .salle, .recoit m =>
    if th.salle.currentStep = stepRoom then
      some { th with lieu := .salleMsg m, salle := th.salle.handleQuit m }
    else none
  | .salle, .suite _ _ =>
    if th.salle.currentStep = stepRoom then none else some { th with lieu := .tete }
  | .salleMsg m, .suite env db =>
    (Salle.handleRoom serveur env m { th.salle with db }).map fun salle =>
      { th with lieu := .salle, salle }
  | .partie, .recoit m =>
    if th.salle.currentStep = stepGame then
      some { th with lieu := .partieMsg m, salle := th.salle.handleQuit m }
    else none
  | .partie, .silence =>
    if th.salle.currentStep = stepGame then some { th with lieu := .minuterie } else none
  | .partie, .suite _ _ =>
    if th.salle.currentStep = stepGame then none else some { th with lieu := .tete }
  | .partieMsg m, .suite env db =>
    (Salle.handleGame serveur env m { th.salle with db }).map fun salle =>
      { th with lieu := .minuterie, salle }
  | .minuterie, .suite env db =>
    (verifieHeure env { th.salle with db }).map fun salle => { th with lieu := .partie, salle }
  | _, _ => none

end Thread

/-! ## What the handlers do to `current_step` -/

/-- The call left `current_step` and the count alone, or it was one `end_game`. -/
def UnPas (s s' : Salle) : Prop :=
  s'.currentStep = s.currentStep ∧ s'.endGames = s.endGames ∨
    s'.currentStep = s.currentStep + 1 ∧ s'.endGames = s.endGames + 1

namespace Salle

variable {serveur : Serveur} {env : Env} {m : ZmqMsg} {s s' : Salle}

theorem endRound_step (h : endRound env s = some s') : UnPas s s' := by
  obtain ⟨g, nbrTeam, lastTeam, _, _, ⟨_, rfl⟩ | ⟨_, ht⟩⟩ := endRound_cases h
  · exact Or.inr ⟨rfl, rfl⟩
  · obtain ⟨id, g', obj, obj', x, y, _, _, _, rfl⟩ := tourSuivant_cases ht
    exact Or.inl ⟨rfl, rfl⟩

theorem handleGame_step (h : handleGame serveur env m s = some s') : UnPas s s' := by
  obtain ⟨s₁, fin, ht, hfin⟩ := handleGame_cases h
  obtain ⟨hs, _, he, _⟩ := traite_cases ht
  rcases hfin with ⟨_, hr⟩ | ⟨_, rfl⟩
  · unfold UnPas
    rw [← hs, ← he]
    exact endRound_step hr
  · exact Or.inl ⟨hs, he⟩

/-- START is the only message of the lobby that writes `current_step`. -/
theorem handleRoom_step (h : handleRoom serveur env m s = some s') :
    s'.endGames = s.endGames ∧ (s'.currentStep = s.currentStep ∨
      s'.currentStep = stepGame ∧ m.contenu = .start) := by
  rcases handleRoom_cases h with ⟨hc, _, hd⟩ | ⟨hs, he, _⟩
  · obtain ⟨obj, id, g, lombs, _, _, rfl⟩ := demarre_cases hd
    exact ⟨rfl, Or.inr ⟨rfl, hc⟩⟩
  · exact ⟨he, Or.inl hs⟩

end Salle

/-- CLIENT_QUIT_ROOM, which neither `handle_room` nor `handle_game` treats. -/
def ZmqMsg.estQuit (m : ZmqMsg) : Bool :=
  match m.contenu with
  | .clientQuitRoom _ => true
  | _ => false

namespace Salle

variable {serveur : Serveur} {env : Env} {m : ZmqMsg} {s s' : Salle}

theorem handleQuit_step (m : ZmqMsg) (s : Salle) : (s.handleQuit m).endGames = s.endGames ∧
    ((s.handleQuit m).currentStep = s.currentStep ∨
      (s.handleQuit m).currentStep = stepEndscreen ∧ m.estQuit = true) := by
  unfold handleQuit
  split
  · next hc =>
    refine ⟨rfl, ?_⟩
    simp only
    split
    · exact Or.inr ⟨rfl, by rw [ZmqMsg.estQuit, hc]⟩
    · exact Or.inl rfl
  · exact ⟨rfl, Or.inl rfl⟩

theorem handleQuit_jeu (hm : m.estQuit = true) : (s.handleQuit m).jeu = s.jeu.handleQuit m.receiverId := by
  unfold handleQuit
  split
  · rfl
  · next hc =>
    unfold ZmqMsg.estQuit at hm
    split at hm
    · next p hp => exact absurd hp (hc p)
    · cases hm

theorem handleQuit_of_not (hm : m.estQuit = false) : s.handleQuit m = s := by
  unfold handleQuit
  split
  · next hc =>
    rw [ZmqMsg.estQuit, hc] at hm
    cases hm
  · rfl

theorem handleRoom_quit (hm : m.estQuit = true) : handleRoom serveur env m s = some s := by
  obtain ⟨id, c⟩ := m
  cases c <;> simp_all [ZmqMsg.estQuit, handleRoom, regle, Game.parametre]

theorem handleGame_quit (hm : m.estQuit = true) : handleGame serveur env m s = some s := by
  obtain ⟨id, c⟩ := m
  cases c <;> simp_all [ZmqMsg.estQuit, handleGame, traite]

end Salle

/-! ## Runs -/

namespace Thread

/-- The second handler of a message of the lobby. -/
theorem etape_salleMsg {serveur : Serveur} {m : ZmqMsg} {env : Env} {db : DataBase} {th th' : Thread}
    (hl : th.lieu = .salleMsg m) (hs : etape serveur (.suite env db) th = some th') :
    Salle.handleRoom serveur env m { th.salle with db } = some th'.salle := by
  unfold etape at hs
  simp only [hl] at hs
  obtain ⟨s', hr, rfl⟩ := Option.map_eq_some_iff.mp hs
  exact hr

/-- The second handler of a message of the game. -/
theorem etape_partieMsg {serveur : Serveur} {m : ZmqMsg} {env : Env} {db : DataBase} {th th' : Thread}
    (hl : th.lieu = .partieMsg m) (hs : etape serveur (.suite env db) th = some th') :
    Salle.handleGame serveur env m { th.salle with db } = some th'.salle := by
  unfold etape at hs
  simp only [hl] at hs
  obtain ⟨s', hr, rfl⟩ := Option.map_eq_some_iff.mp hs
  exact hr

/-- `STEP_ROOM → STEP_GAME → STEP_ENDSCREEN`, or `STEP_ROOM → STEP_ENDSCREEN`. -/
def Passage (a b : Nat) : Prop :=
  a = b ∨ a = stepRoom ∧ b = stepGame ∨ a = stepGame ∧ b = stepEndscreen ∨
    a = stepRoom ∧ b = stepEndscreen

/-- The round timer is tested on a game that is still on, or it has not elapsed. -/
def minuterieUtile (e : Evenement) (th : Thread) : Bool :=
  match th.lieu, e with
  | .minuterie, .suite env _ =>
    th.salle.currentStep == stepGame || !th.salle.jeu.checkRoundTime env.heureRound
  | _, _ => true

/-- What a run should keep. -/
structure FinUnique (th : Thread) : Prop where
  endGames : th.salle.endGames ≤ 1
  step : th.salle.currentStep = stepRoom ∨ th.salle.currentStep = stepGame ∨
    th.salle.currentStep = stepEndscreen
  closeRoom : th.lieu = .fini → th.closeRooms = 1

/-- The values of `current_step` that each control point can see. -/
def AuLieu (step : Nat) : Lieu → Prop
  | .tete | .salle => True
  | .salleMsg m => step = 0 ∨ step = 2 ∧ m.estQuit = true
  | .partie | .minuterie => 1 ≤ step
  | .partieMsg m => step = 1 ∨ step = 2 ∧ m.estQuit = true
  | .fini => step = 2

/-- `end_game` has run at most once, and then the step is the last one. -/
structure Compte (s : Salle) : Prop where
  step_le : s.currentStep ≤ 2
  endGames_le : s.endGames ≤ 1
  endGames : s.endGames = 1 → s.currentStep = 2

structure Inv (th : Thread) : Prop where
  compte : Compte th.salle
  auLieu : AuLieu th.salle.currentStep th.lieu
  closeRooms : th.closeRooms = if th.lieu = .fini then 1 else 0

theorem inv_new (owner roomId : Nat) (db : DataBase) : (new owner roomId db).Inv :=
  ⟨⟨Nat.zero_le 2, Nat.zero_le 1, fun h => by cases h⟩, trivial, rfl⟩

theorem Inv.finUnique {th : Thread} (h : th.Inv) : th.FinUnique := by
  refine ⟨h.compte.endGames_le, ?_, fun hf => ?_⟩
  · have := h.compte.step_le
    simp only [stepRoom, stepGame, stepEndscreen]
    omega
  · rw [h.closeRooms, if_pos hf]

/-- A handler of the game, called while it is on. -/
theorem Compte.unPas {s s' : Salle} (h : Compte s) (h1 : s.currentStep = 1) (hp : UnPas s s') :
    Compte s' ∧ 1 ≤ s'.currentStep ∧ Passage s.currentStep s'.currentStep := by
  have h0 : s.endGames = 0 := by
    have := h.endGames_le
    have := h.endGames
    omega
  rcases hp with ⟨hs, he⟩ | ⟨hs, he⟩
  · exact ⟨⟨by omega, by omega, by omega⟩, by omega, Or.inl hs.symm⟩
  · refine ⟨⟨by omega, by omega, by omega⟩, by omega, Or.inr (Or.inr (Or.inl ⟨h1, ?_⟩))⟩
    rw [hs, h1]
    rfl

/-- `handle_quit`, called while the step is not the last. -/
theorem Compte.handleQuit {s : Salle} (h : Compte s) (h1 : s.currentStep ≤ 1) (m : ZmqMsg) :
    Compte (s.handleQuit m) ∧ ((s.handleQuit m).currentStep = s.currentStep ∨
        (s.handleQuit m).currentStep = 2 ∧ m.estQuit = true) ∧
      Passage s.currentStep (s.handleQuit m).currentStep := by
  obtain ⟨he, hst⟩ := Salle.handleQuit_step m s
  have h0 := h.endGames_le
  have h2 := h.endGames
  refine ⟨?_, hst, ?_⟩
  · rcases hst with hst | ⟨hst, _⟩
    · exact ⟨by omega, by omega, by omega⟩
    · have hst : (s.handleQuit m).currentStep = 2 := hst
      exact ⟨by omega, by omega, by omega⟩
  · rcases hst with hst | ⟨hst, _⟩
    · exact Or.inl hst.symm
    · rcases Nat.le_one_iff_eq_zero_or_eq_one.mp h1 with h1 | h1
      · exact Or.inr (Or.inr (Or.inr ⟨h1, hst⟩))
      · exact Or.inr (Or.inr (Or.inl ⟨h1, hst⟩))

/-- `handle_room`, called in the lobby. -/
theorem Compte.handleRoom {serveur : Serveur} {env : Env} {m : ZmqMsg} {s s' : Salle} (h : Compte s)
    (h0 : s.currentStep = 0) (hr : Salle.handleRoom serveur env m s = some s') :
    Compte s' ∧ Passage s.currentStep s'.currentStep := by
  obtain ⟨he, hst⟩ := Salle.handleRoom_step hr
  have hle := h.endGames_le
  have h2 := h.endGames
  rcases hst with hst | ⟨hst, _⟩
  · exact ⟨⟨by omega, by omega, by omega⟩, Or.inl hst.symm⟩
  · have hst' : s'.currentStep = 1 := hst
    exact ⟨⟨by omega, by omega, by omega⟩, Or.inr (Or.inl ⟨h0, hst⟩)⟩

theorem inv_aiguille {th : Thread} (h : th.Inv) (hl : th.lieu = .tete) :
    th.aiguille.Inv ∧ th.aiguille.salle.currentStep = th.salle.currentStep := by
  have hc := h.closeRooms
  rw [if_neg (by rw [hl]; decide)] at hc
  have hle := h.compte.step_le
  unfold aiguille
  split
  · exact ⟨⟨h.compte, trivial, hc⟩, rfl⟩
  · next h0 =>
    split
    · next h1 => exact ⟨⟨h.compte, le_of_eq h1.symm, hc⟩, rfl⟩
    · next h1 =>
      have h2 : th.salle.currentStep = 2 := by
        simp only [stepRoom, stepGame] at h0 h1
        omega
      rw [if_pos (show th.salle.currentStep = stepEndscreen from h2)]
      exact ⟨⟨⟨hle, h.compte.endGames_le, h.compte.endGames⟩, h2, by rw [hc]; rfl⟩, rfl⟩

/-- **One step.**  One case for each control point and event. -/
theorem inv_etape {serveur : Serveur} {e : Evenement} {th th' : Thread} (h : th.Inv)
    (hok : minuterieUtile e th = true) (hs : etape serveur e th = some th') :
    th'.Inv ∧ Passage th.salle.currentStep th'.salle.currentStep := by
  obtain ⟨lieu, salle, closes⟩ := th
  obtain ⟨hco, hat, hcl⟩ := h
  unfold etape at hs
  simp only at hs hco hat hcl
  split at hs
  · -- the switch; the tables may have changed before it
    next env db =>
    cases hs
    have hinv : Inv ⟨.tete, { salle with db }, closes⟩ :=
      ⟨⟨hco.step_le, hco.endGames_le, hco.endGames⟩, trivial, hcl⟩
    obtain ⟨hi, he⟩ := inv_aiguille hinv rfl
    exact ⟨hi, Or.inl he.symm⟩
  · split at hs
    · next m h0 =>
      cases hs
      obtain ⟨hc', hst, hp⟩ := hco.handleQuit (by rw [h0]; decide) m
      exact ⟨⟨hc', hst.imp_left fun he => he.trans h0, hcl⟩, hp⟩
    · simp at hs
  · split at hs
    · simp at hs
    · cases hs
      exact ⟨⟨hco, trivial, hcl⟩, Or.inl rfl⟩
  · next m env db =>
    obtain ⟨s', hr, rfl⟩ := Option.map_eq_some_iff.mp hs
    have hco' : Compte { salle with db } := ⟨hco.step_le, hco.endGames_le, hco.endGames⟩
    rcases hat with h0 | ⟨h2, hq⟩
    · obtain ⟨hc', hp⟩ := hco'.handleRoom h0 hr
      exact ⟨⟨hc', trivial, hcl⟩, hp⟩
    · rw [Salle.handleRoom_quit hq] at hr
      cases hr
      exact ⟨⟨hco', trivial, hcl⟩, Or.inl rfl⟩
  · split at hs
    · next m h1 =>
      cases hs
      obtain ⟨hc', hst, hp⟩ := hco.handleQuit (by rw [h1]; decide) m
      exact ⟨⟨hc', hst.imp_left fun he => he.trans h1, hcl⟩, hp⟩
    · simp at hs
  · split at hs
    · next h1 =>
      cases hs
      exact ⟨⟨hco, hat, hcl⟩, Or.inl rfl⟩
    · simp at hs
  · split at hs
    · simp at hs
    · cases hs
      exact ⟨⟨hco, trivial, hcl⟩, Or.inl rfl⟩
  · next m env db =>
    obtain ⟨s', hr, rfl⟩ := Option.map_eq_some_iff.mp hs
    have hco' : Compte { salle with db } := ⟨hco.step_le, hco.endGames_le, hco.endGames⟩
    rcases hat with h1 | ⟨h2, hq⟩
    · obtain ⟨hc', hge, hp⟩ := hco'.unPas h1 (Salle.handleGame_step hr)
      exact ⟨⟨hc', hge, hcl⟩, hp⟩
    · rw [Salle.handleGame_quit hq] at hr
      cases hr
      exact ⟨⟨hco', show 1 ≤ salle.currentStep by omega, hcl⟩, Or.inl rfl⟩
  · -- the guard: `end_round` is only called while the game is on
    next env db =>
    obtain ⟨s', hr, rfl⟩ := Option.map_eq_some_iff.mp hs
    have hco' : Compte { salle with db } := ⟨hco.step_le, hco.endGames_le, hco.endGames⟩
    unfold verifieHeure at hr
    split at hr
    · next ht =>
      have h1 : salle.currentStep = 1 := by
        simp only [minuterieUtile, Bool.or_eq_true, beq_iff_eq, Bool.not_eq_true'] at hok
        rcases hok with hok | hok
        · exact hok
        · rw [hok] at ht
          cases ht
      obtain ⟨hc', hge, hp⟩ := hco'.unPas h1 (Salle.endRound_step hr)
      exact ⟨⟨hc', hge, hcl⟩, hp⟩
    · cases hr
      exact ⟨⟨hco', hat, hcl⟩, Or.inl rfl⟩
  · simp at hs

/-- The runs of a room: any owner, any room id, any tables. -/
def Depart (th : Thread) : Prop := ∃ owner roomId db, th = new owner roomId db

/-- **Runs whose timer is only acted upon while the game is on.** -/
theorem finUnique_of_reach (serveur : Serveur) (th : Thread)
    (h : Runs.Reach (etape serveur) (fun e th => minuterieUtile e th = true) Depart th) :
    th.FinUnique ∧ ∀ e th', minuterieUtile e th = true → etape serveur e th = some th' →
      Passage th.salle.currentStep th'.salle.currentStep := by
  have hinv : th.Inv := by
    refine h.invariant (fun th h0 => ?_) fun e th th' hI hok hs => (inv_etape hI hok hs).1
    obtain ⟨owner, roomId, db, rfl⟩ := h0
    exact inv_new owner roomId db
  exact ⟨hinv.finUnique, fun e th' hok hs => (inv_etape hinv hok hs).2⟩

/-! ## A last shot at the end of the round -/

/-- One map for every id; every shot goes straight ahead. -/
def serveurDe (m : Map) : Serveur :=
  ⟨fun _ => some ⟨m.largeur, m.hauteur, m.mur, m.largeur_lt, m.hauteur_lt⟩, fun _ => (1, 0)⟩

/-- Player 1 and its eight worms; room 1. -/
def petiteBase : DataBase :=
  ⟨[⟨1, "", 0⟩], (List.range' 1 8).map fun id => ⟨id, 1, ""⟩, [⟨1, fun _ => 0, fun _ => 0, false⟩]⟩

/-- The clock stays at 0, but for the test of the round. -/
def envPetit (heureRound : Int) : Env := ⟨heureRound, 0, 0, List.replicate 16 0, 1, 0, 0⟩

/-- Player 1 joins its room, plays alone and passes its turn; the timer is then read at `heureRound`. -/
def partieSeule (heureRound : Int) : List Evenement :=
  let suite : Evenement := .suite (envPetit heureRound) petiteBase
  [suite, .recoit ⟨1, .infoRoom⟩, suite, .recoit ⟨1, .clientJoinTeam 1⟩, suite, .recoit ⟨1, .start⟩,
    suite, suite, suite, .recoit ⟨1, .shoot ⟨2, 0, 0⟩⟩, suite, suite, suite, suite]

/-- The shot ends the game, then so does the timer: the room is never closed. -/
theorem rappel_ferme_mal :
    ∃ th, Runs.Reach (etape (serveurDe Map.petite)) (fun _ _ => True) Depart th ∧
      th.salle.endGames = 2 ∧
      th.salle.currentStep = 3 ∧ th.lieu = .fini ∧ th.closeRooms = 0 ∧ ¬ th.FinUnique := by
  obtain ⟨th, _, hr, hp⟩ := Runs.exists_of_exec (etape (serveurDe Map.petite)) (fun _ _ => True)
    (show Depart (new 1 1 petiteBase) from ⟨1, 1, petiteBase, rfl⟩) (partieSeule 21)
    (fun th => th.salle.endGames == 2 && th.salle.currentStep == 3 && th.lieu == .fini &&
      th.closeRooms == 0) (by decide +kernel)
  simp only [Bool.and_eq_true, beq_iff_eq] at hp
  obtain ⟨⟨⟨he, hs⟩, hl⟩, hc⟩ := hp
  refine ⟨th, hr, he, hs, hl, hc, fun hf => ?_⟩
  have := hf.endGames
  omega

/-- With time left the same run closes the room. -/
theorem partieSeule_finUnique :
    ∃ th, Runs.exec (etape (serveurDe Map.petite)) (fun e th => minuterieUtile e th = true) (partieSeule 0)
      (new 1 1 petiteBase) = some th ∧ th.lieu = .fini ∧ th.FinUnique := by
  obtain ⟨th, hth, hr, hl⟩ := Runs.exists_of_exec (etape (serveurDe Map.petite))
    (fun e th => minuterieUtile e th = true)
    (show Depart (new 1 1 petiteBase) from ⟨1, 1, petiteBase, rfl⟩)
    (partieSeule 0) (fun th => th.lieu == .fini) (by decide +kernel)
  exact ⟨th, hth, beq_iff_eq.mp hl, (finUnique_of_reach (serveurDe Map.petite) th hr).1⟩

end Thread
end LombricABrac
