import LombricABrac.Instructions
import LombricABrac.GameThread

/-!
# The mutexes of a room

What `handle_quit`, `handle_room` and `handle_game` of `Server/src/game.cpp` lock, release and publish,
in order, up to their end or to the fault that stops them.  `Joueur::sendMessage` locks `pub_mutex` for
each message; `std::mutex` may not be locked again by the thread that has it.

    envois_handleRoom   : what is published is what the handlers append to `envois`
    balanced_actesRoom  : the lobby and the game release what they lock
    tranquille_iff      : `handle_quit` locks once only where nobody remains
    quitte_eq           : elsewhere it stops before its first message
    Fil.court_or_bloque : a run of the thread with its locks
    depart_bloque       : one of two players quits
-/

namespace LombricABrac

inductive Acte where
  | verrouille (v : Verrou)
  | libere (v : Verrou)
  | publie (c : Canal) (a : Annonce)

def Acte.act : Acte → Option (Mutex.Act Verrou)
  | .verrouille v => some (.lock v)
  | .libere v => some (.unlock v)
  | .publie _ _ => none

def Acte.envoi : Acte → Option (Canal × Annonce)
  | .publie c a => some (c, a)
  | _ => none

/-- `Joueur::sendMessage`, and the same lines in the case PING. -/
def sendMessage (e : Canal × Annonce) : List Acte := [.verrouille .pub, .publie e.1 e.2, .libere .pub]

/-- A lookup in the tables. -/
def consulte : List Acte := [.verrouille .dataBase, .libere .dataBase]

namespace Salle

/-! ## The handlers -/

def actesQuit (m : ZmqMsg) (s : Salle) : List Acte :=
  match m.contenu with
  | .clientQuitRoom pseudo =>
    .verrouille .pub :: ((s.jeu.handleQuit m.receiverId).annonce
      (.serverClientQuittedRoom pseudo)).flatMap sendMessage ++ [.libere .pub]
  | _ => []

/-- The tables are locked while END_GAME goes out. -/
def actesEndGame (s : Salle) : List Acte :=
  .verrouille .dataBase :: (s.jeu.annonce .endGame).flatMap sendMessage ++ [.libere .dataBase]

def actesTourSuivant (env : Env) (s : Salle) : List Acte :=
  match s.jeu.chercheTour env.fuel with
  | none => []
  | some (id, g) =>
    match g.gameObject.bind fun obj => g.caisse env (obj.setCurrentLomb id) with
    | none => []
    | some (obj, x, y) => (g.annonceTour ⟨id, false, obj.carte.waterLevel, x, y⟩).flatMap sendMessage

def actesEndRound (env : Env) (s : Salle) : List Acte :=
  match s.jeu.monteeEau env with
  | none => []
  | some g =>
    match g.nbAliveTeams env.lastTeam with
    | none => []
    | some (nbrTeam, _) =>
      if nbrTeam ≤ 1 then actesEndGame { s with jeu := g } else actesTourSuivant env { s with jeu := g }

/-- START: three names of each worm, the worms, then the first turn. -/
def actesDemarre (serveur : Serveur) (env : Env) (s : Salle) : List Acte :=
  match s.jeu.spawnLombric serveur env with
  | none => []
  | some obj =>
    obj.spriteVector.flatMap (fun _ => consulte) ++
      (s.jeu.annonce (.start (obj.spriteVector.map (s.jeu.lombricInfo env s.db)))).flatMap sendMessage ++
      match (s.jeu.commence env obj).getNextLombricId with
      | none => []
      | some (id, g) => (g.annonceTour ⟨id, false, 0, -1, -1⟩).flatMap sendMessage

/-- `set_player_id` and `init_worms` look the user up. -/
def actesAddUser (m : ZmqMsg) (s : Salle) : List Acte :=
  consulte ++ consulte ++
    match s.jeu.nouveauJoueur s.db m.receiverId with
    | none => []
    | some j => ((s.jeu.addUser j).annonce (.serverUserJoined j.pseudo)).flatMap sendMessage ++
      sendMessage (.joueur j.playerId, .infoRoom (s.jeu.addUser j).infoRoom)

def actesRegle (c : Contenu) (s : Salle) : List Acte :=
  match s.jeu.parametre c with
  | some _ => (s.jeu.annonce (.recu c)).flatMap sendMessage
  | none => []

def actesRoom (serveur : Serveur) (env : Env) (m : ZmqMsg) (s : Salle) : List Acte :=
  match m.contenu with
  | .ping => sendMessage (if m.receiverId ≠ 0 then .joueur m.receiverId else .all,
      .ping (s.jeu.players.length < 4) s.jeu.gameId)
  | .clientJoinTeam id => consulte ++
      (s.jeu.annonce (.clientJoinedTeamResponse (s.db.getUserUsername m.receiverId) id)).flatMap sendMessage
  | .infoRoom => s.actesAddUser m
  | .start => if m.receiverId = s.jeu.ownerId then s.actesDemarre serveur env else []
  | c => if m.receiverId = s.jeu.ownerId then s.actesRegle c else []

/-- SHOOT is sent before the shot is computed. -/
def actesTire (serveur : Serveur) (env : Env) (tir : Partie.Tir) (s : Salle) : List Acte :=
  (s.jeu.annonce (.shoot tir)).flatMap sendMessage ++
    match s.jeu.gameObject.bind fun obj => obj.useWeapon serveur.calculDirVect env.fuel tir with
    | none => []
    | some (_, murs, degats) => (s.jeu.annonce (.updateWall murs)).flatMap sendMessage ++
      (s.jeu.annonce (.lombDmg degats)).flatMap sendMessage

/-- Up to the call of `end_round`. -/
def actesTraite (serveur : Serveur) (env : Env) (m : ZmqMsg) (s : Salle) : List Acte :=
  match m.contenu with
  | .posLombS lp =>
    match s.jeu.gameObject.bind fun obj => obj.moveCurrentLombric env.fuel lp with
    | none => []
    | some _ => (s.jeu.annonce (.posLombR lp)).flatMap sendMessage
  | .clientChangeWeapon id => (s.jeu.annonce (.serverDifferentWeapon id)).flatMap sendMessage
  | .clientSendInGameMessage msg =>
    (s.jeu.annonce (.inGameMessage (s.db.getUserUsername m.receiverId) msg)).flatMap sendMessage
  | .shoot tir => s.actesTire serveur env tir
  | _ => []

def actesGame (serveur : Serveur) (env : Env) (m : ZmqMsg) (s : Salle) : List Acte :=
  s.actesTraite serveur env m ++
    match s.traite serveur env m with
    | none => []
    | some (s, fin) => if fin then s.actesEndRound env else []

end Salle

/-! ## What is published -/

def publies (l : List Acte) : List (Canal × Annonce) := l.filterMap Acte.envoi

theorem publies_append (l l' : List Acte) : publies (l ++ l') = publies l ++ publies l' :=
  List.filterMap_append

theorem publies_sendMessage (l : List (Canal × Annonce)) : publies (l.flatMap sendMessage) = l := by
  induction l with
  | nil => rfl
  | cons e l ih =>
    rw [List.flatMap_cons, publies_append, ih]
    rfl

theorem publies_consulte {α : Type} (l : List α) : publies (l.flatMap fun _ => consulte) = [] := by
  induction l with
  | nil => rfl
  | cons a l ih =>
    rw [List.flatMap_cons, publies_append, ih]
    rfl

theorem publies_bracket (v : Verrou) (l : List Acte) :
    publies (.verrouille v :: l ++ [.libere v]) = publies l := by
  rw [List.cons_append, ← List.singleton_append, publies_append, publies_append]
  exact List.append_nil _

theorem Game.annonce_of_fixe {g g' : Game} (h : g'.fixe = g.fixe) (a : Annonce) :
    g'.annonce a = g.annonce a :=
  eq_of_fixe (fun g => g.annonce a) (fun g => by simp [Game.annonce, fixe, Joueur.fixe]) h

namespace Salle

variable {serveur : Serveur} {env : Env} {m : ZmqMsg} {s s' : Salle}

theorem envois_handleQuit (m : ZmqMsg) (s : Salle) :
    (s.handleQuit m).envois = s.envois ++ publies (s.actesQuit m) := by
  obtain ⟨receiverId, contenu⟩ := m
  cases contenu with
  | clientQuitRoom pseudo =>
    rw [actesQuit, publies_bracket, publies_sendMessage]
    rfl
  | _ => exact (List.append_nil _).symm

theorem envois_tourSuivant (h : tourSuivant env s = some s') :
    s'.envois = s.envois ++ publies (s.actesTourSuivant env) := by
  unfold tourSuivant at h
  unfold actesTourSuivant
  cases hg : s.jeu.chercheTour env.fuel with
  | none => simp [hg] at h
  | some r =>
    obtain ⟨id, g⟩ := r
    simp only [hg] at h ⊢
    cases hx : g.gameObject.bind fun obj => g.caisse env (obj.setCurrentLomb id) with
    | none => simp [hx] at h
    | some r =>
      obtain ⟨obj, x, y⟩ := r
      simp only [hx] at h ⊢
      cases h
      rw [publies_sendMessage]

theorem envois_endRound (h : endRound env s = some s') :
    s'.envois = s.envois ++ publies (s.actesEndRound env) := by
  unfold endRound at h
  unfold actesEndRound
  cases hg : s.jeu.monteeEau env with
  | none => simp [hg] at h
  | some g =>
    simp only [hg] at h ⊢
    cases hn : g.nbAliveTeams env.lastTeam with
    | none => simp [hn] at h
    | some r =>
      obtain ⟨nbrTeam, lastTeam⟩ := r
      simp only [hn] at h ⊢
      by_cases hle : nbrTeam ≤ 1
      · rw [if_pos hle] at h ⊢
        cases h
        rw [actesEndGame, publies_bracket, publies_sendMessage]
        rfl
      · rw [if_neg hle] at h ⊢
        exact envois_tourSuivant h

theorem envois_demarre (h : demarre serveur env s = some s') :
    s'.envois = s.envois ++ publies (s.actesDemarre serveur env) := by
  unfold demarre at h
  unfold actesDemarre
  cases hobj : s.jeu.spawnLombric serveur env with
  | none => simp [hobj] at h
  | some obj =>
    simp only [hobj] at h ⊢
    cases hg : (s.jeu.commence env obj).getNextLombricId with
    | none => simp [hg] at h
    | some r =>
      obtain ⟨id, g⟩ := r
      simp only [hg] at h ⊢
      cases h
      -- the search of the first turn moves a cursor only
      have hann : ∀ a, g.annonce a = s.jeu.annonce a :=
        fun a => Game.annonce_of_fixe (Game.getNextLombricId_spec hg).1 a
      simp only [hann, publies_append, publies_consulte, publies_sendMessage, List.nil_append,
        List.append_assoc]

theorem envois_traite {fin : Bool} (h : traite serveur env m s = some (s', fin)) :
    s'.envois = s.envois ++ publies (s.actesTraite serveur env m) := by
  obtain ⟨receiverId, contenu⟩ := m
  cases contenu with
  | posLombS lp =>
    obtain ⟨obj, hobj, he⟩ := Option.map_eq_some_iff.mp h
    cases he
    simp only [actesTraite, hobj, publies_sendMessage]
    rfl
  | clientChangeWeapon id =>
    cases h
    rw [actesTraite, publies_sendMessage]
    rfl
  | clientSendInGameMessage msg =>
    cases h
    rw [actesTraite, publies_sendMessage]
    rfl
  | shoot tir =>
    obtain ⟨⟨obj, murs, degats⟩, hobj, he⟩ := Option.map_eq_some_iff.mp h
    cases he
    simp only [actesTraite, actesTire, hobj, publies_append, publies_sendMessage]
    rw [← List.append_assoc (s.jeu.annonce _)]
    rfl
  | _ =>
    cases h
    exact (List.append_nil _).symm

/-- **The game** publishes what the model says. -/
theorem envois_handleGame (h : handleGame serveur env m s = some s') :
    s'.envois = s.envois ++ publies (s.actesGame serveur env m) := by
  obtain ⟨s₁, fin, ht, hfin⟩ := handleGame_cases h
  rw [actesGame, ht, publies_append, ← List.append_assoc, ← envois_traite ht]
  rcases hfin with ⟨rfl, hr⟩ | ⟨rfl, rfl⟩
  · exact envois_endRound hr
  · exact (List.append_nil _).symm

theorem envois_regle (c : Contenu) (s : Salle) :
    (s.regle c).envois = s.envois ++ publies (s.actesRegle c) := by
  unfold regle actesRegle
  cases s.jeu.parametre c with
  | some g => exact congrArg (s.envois ++ ·) (publies_sendMessage _).symm
  | none => exact (List.append_nil _).symm

/-- **The lobby** does. -/
theorem envois_handleRoom (h : handleRoom serveur env m s = some s') :
    s'.envois = s.envois ++ publies (s.actesRoom serveur env m) := by
  obtain ⟨receiverId, contenu⟩ := m
  have hregle : ∀ c : Contenu, (if receiverId = s.jeu.ownerId then some (s.regle c) else some s) = some s' →
      s'.envois = s.envois ++ publies (if receiverId = s.jeu.ownerId then s.actesRegle c else []) := by
    intro c hc
    by_cases ho : receiverId = s.jeu.ownerId
    · rw [if_pos ho] at hc ⊢
      cases hc
      exact envois_regle c s
    · rw [if_neg ho] at hc ⊢
      cases hc
      exact (List.append_nil _).symm
  cases contenu with
  | ping =>
    cases h
    rfl
  | clientJoinTeam id =>
    cases h
    rw [actesRoom, publies_append, publies_sendMessage]
    rfl
  | infoRoom =>
    obtain ⟨j, hj, rfl⟩ := Option.map_eq_some_iff.mp h
    simp only [actesRoom, actesAddUser, hj, publies_append, publies_sendMessage]
    rfl
  | start =>
    by_cases ho : receiverId = s.jeu.ownerId
    · simp only [handleRoom, actesRoom, if_pos ho] at h ⊢
      exact envois_demarre h
    · simp only [handleRoom, actesRoom, if_neg ho] at h ⊢
      cases h
      exact (List.append_nil _).symm
  | _ => exact hregle _ h

end Salle

/-! ## The mutexes -/

/-- The thread does not lock `pub_mutex` while it has it, and is left without it. -/
def Tranquille (l : List Acte) : Prop := Mutex.holds .pub false (l.filterMap Acte.act) = some false

instance (l : List Acte) : Decidable (Tranquille l) := inferInstanceAs (Decidable (_ = _))

/-- What is locked is released, both mutexes. -/
def Equilibre (l : List Acte) : Prop := Mutex.Balanced (l.filterMap Acte.act)

theorem Equilibre.tranquille {l : List Acte} (h : Equilibre l) : Tranquille l := h .pub

theorem equilibre_nil : Equilibre [] := Mutex.balanced_nil

theorem Equilibre.append {l l' : List Acte} (h : Equilibre l) (h' : Equilibre l') : Equilibre (l ++ l') := by
  unfold Equilibre
  rw [List.filterMap_append]
  exact Mutex.Balanced.append h h'

theorem filterMap_sendMessage (l : List (Canal × Annonce)) :
    (l.flatMap sendMessage).filterMap Acte.act = l.flatMap fun _ => [.lock .pub, .unlock .pub] := by
  rw [List.filterMap_flatMap]
  rfl

theorem equilibre_sendMessage (l : List (Canal × Annonce)) : Equilibre (l.flatMap sendMessage) := by
  unfold Equilibre
  rw [filterMap_sendMessage]
  exact Mutex.balanced_flatMap l fun _ _ =>
    Mutex.balanced_bracket Mutex.balanced_nil List.not_mem_nil List.not_mem_nil

theorem equilibre_consulte {α : Type} (l : List α) : Equilibre (l.flatMap fun _ => consulte) := by
  unfold Equilibre
  rw [List.filterMap_flatMap]
  exact Mutex.balanced_flatMap l fun _ _ =>
    Mutex.balanced_bracket Mutex.balanced_nil List.not_mem_nil List.not_mem_nil

namespace Salle

variable (serveur : Serveur) (env : Env) (m : ZmqMsg) (s : Salle)

theorem equilibre_endGame : Equilibre s.actesEndGame := by
  have h := equilibre_sendMessage (s.jeu.annonce .endGame)
  unfold Equilibre at h ⊢
  have he : s.actesEndGame.filterMap Acte.act =
      .lock .dataBase :: ((s.jeu.annonce .endGame).flatMap sendMessage).filterMap Acte.act ++
        [.unlock .dataBase] := by
    rw [actesEndGame, List.filterMap_append]
    rfl
  rw [he]
  refine Mutex.balanced_bracket h ?_ ?_
  · rw [filterMap_sendMessage]
    simp
  · rw [filterMap_sendMessage]
    simp

theorem equilibre_endRound : Equilibre (s.actesEndRound env) := by
  unfold actesEndRound
  split
  · exact equilibre_nil
  · split
    · exact equilibre_nil
    · split
      · exact equilibre_endGame _
      · unfold actesTourSuivant
        split
        · exact equilibre_nil
        · split
          · exact equilibre_nil
          · exact equilibre_sendMessage _

/-- The lobby releases what it locks, on every path. -/
theorem equilibre_actesRoom : Equilibre (s.actesRoom serveur env m) := by
  unfold actesRoom
  split
  · exact equilibre_sendMessage [_]
  · exact (equilibre_consulte [()]).append (equilibre_sendMessage _)
  · refine ((equilibre_consulte [()]).append (equilibre_consulte [()])).append ?_
    split
    · exact equilibre_nil
    · exact (equilibre_sendMessage _).append (equilibre_sendMessage [_])
  · split
    · unfold actesDemarre
      split
      · exact equilibre_nil
      · refine ((equilibre_consulte _).append (equilibre_sendMessage _)).append ?_
        split
        · exact equilibre_nil
        · exact equilibre_sendMessage _
    · exact equilibre_nil
  · split
    · unfold actesRegle
      split
      · exact equilibre_sendMessage _
      · exact equilibre_nil
    · exact equilibre_nil

/-- So does the game. -/
theorem equilibre_actesGame : Equilibre (s.actesGame serveur env m) := by
  unfold actesGame
  refine Equilibre.append ?_ ?_
  · unfold actesTraite
    split
    · split
      · exact equilibre_nil
      · exact equilibre_sendMessage _
    · exact equilibre_sendMessage _
    · exact equilibre_sendMessage _
    · refine (equilibre_sendMessage _).append ?_
      split
      · exact equilibre_nil
      · exact (equilibre_sendMessage _).append (equilibre_sendMessage _)
    · exact equilibre_nil
  · split
    · exact equilibre_nil
    · split
      · exact equilibre_endRound env _
      · exact equilibre_nil

/-! ## Who quits -/

/-- Nobody is left to be told: no player, or the one entry of the player that quits. -/
def quitteSeul : Bool :=
  match s.jeu.players with
  | [] => true
  | [j] => j.playerId == m.receiverId
  | _ => false

variable {m s}

theorem retire_eq_nil (id : Nat) (players : List Joueur) :
    Game.retire id players = [] ↔ players = [] ∨ ∃ j, players = [j] ∧ j.playerId = id := by
  match players with
  | [] => simp [Game.retire]
  | [j] => by_cases hj : j.playerId = id <;> simp [Game.retire, hj]
  | j :: k :: js => by_cases hj : j.playerId = id <;> simp [Game.retire, hj]

theorem quitteSeul_iff : s.quitteSeul m = true ↔ Game.retire m.receiverId s.jeu.players = [] := by
  rw [retire_eq_nil, quitteSeul]
  split
  · next h => simp [h]
  · next j h => simp [h]
  · next h0 h1 =>
    refine iff_of_false Bool.false_ne_true ?_
    rintro (h | ⟨j, h, _⟩)
    · exact h0 h
    · exact h1 j h

theorem tranquille_actesQuit : Tranquille (s.actesQuit m) ↔ m.estQuit = false ∨ s.quitteSeul m = true := by
  rw [quitteSeul_iff]
  obtain ⟨id, contenu⟩ := m
  cases contenu with
  | clientQuitRoom pseudo =>
    rw [or_iff_right (show ¬ ZmqMsg.estQuit ⟨id, .clientQuitRoom pseudo⟩ = false from nofun)]
    show Tranquille (.verrouille .pub :: List.flatMap sendMessage ((Game.retire id s.jeu.players).map _) ++
      [.libere .pub]) ↔ Game.retire id s.jeu.players = []
    cases Game.retire id s.jeu.players with
    | nil => exact iff_of_true rfl rfl
    | cons j js =>
      refine iff_of_false (fun h => ?_) (List.cons_ne_nil j js)
      -- the first message locks again
      cases h
  | _ => exact iff_of_true rfl (Or.inl rfl)

end Salle

/-- **The room locks `pub_mutex` once at a time, and releases it, if and only if the message is not a
departure that leaves somebody**; what it publishes between is what the model appends. -/
theorem tranquille_iff (m : ZmqMsg) (s : Salle) :
    (∀ serveur env, Tranquille (s.actesQuit m) ∧ Tranquille (s.actesRoom serveur env m) ∧
      Tranquille (s.actesGame serveur env m)) ↔ m.estQuit = false ∨ s.quitteSeul m = true := by
  rw [← Salle.tranquille_actesQuit]
  constructor
  · exact fun h => (h ⟨fun _ => none, fun _ => (0, 0)⟩ ⟨0, 0, 0, [], 0, 0, 0⟩).1
  · exact fun h serveur env => ⟨h, (s.equilibre_actesRoom serveur env m).tranquille,
      (s.equilibre_actesGame serveur env m).tranquille⟩

/-! ## Where a thread stops -/

/-- What a thread does up to the lock of a `pub_mutex` that it has, and whether it comes to the end. -/
def deroule : Bool → List Acte → List Acte × Bool
  | _, [] => ([], true)
  | true, .verrouille .pub :: _ => ([], false)
  | false, .verrouille .pub :: l => (.verrouille .pub :: (deroule true l).1, (deroule true l).2)
  | _, .libere .pub :: l => (.libere .pub :: (deroule false l).1, (deroule false l).2)
  | b, a :: l => (a :: (deroule b l).1, (deroule b l).2)

namespace Salle

variable {m : ZmqMsg} {s : Salle}

/-- `handle_quit` with its locks, and whether it returns. -/
def quitte (m : ZmqMsg) (s : Salle) : Salle × Bool :=
  if (deroule false (s.actesQuit m)).2 then (s.handleQuit m, true)
  else ({ s with
    jeu := s.jeu.handleQuit m.receiverId
    envois := s.envois ++ publies (deroule false (s.actesQuit m)).1 }, false)

theorem deroule_actesQuit (h : s.quitteSeul m = false) (hm : m.estQuit = true) :
    deroule false (s.actesQuit m) = ([.verrouille .pub], false) := by
  have hne : Game.retire m.receiverId s.jeu.players ≠ [] := by
    rw [ne_eq, ← quitteSeul_iff, h]
    exact Bool.false_ne_true
  obtain ⟨id, contenu⟩ := m
  cases contenu with
  | clientQuitRoom pseudo =>
    show deroule false (.verrouille .pub :: List.flatMap sendMessage ((Game.retire id s.jeu.players).map _) ++
      [.libere .pub]) = _
    obtain ⟨j, js, hj⟩ := List.exists_cons_of_ne_nil hne
    rw [hj]
    rfl
  | _ => cases hm

/-- **Where somebody remains, `handle_quit` has taken the entry out and never returns.** -/
theorem quitte_bloque (h : s.quitteSeul m = false) (hm : m.estQuit = true) :
    s.quitte m = ({ s with jeu := s.jeu.handleQuit m.receiverId }, false) := by
  rw [quitte, deroule_actesQuit h hm, if_neg Bool.false_ne_true]
  show ({ s with jeu := _, envois := s.envois ++ [] }, false) = _
  rw [List.append_nil]

theorem quitte_rend (h : m.estQuit = false ∨ s.quitteSeul m = true) : s.quitte m = (s.handleQuit m, true) := by
  have hfin : (deroule false (s.actesQuit m)).2 = true := by
    rw [quitteSeul_iff] at h
    obtain ⟨id, contenu⟩ := m
    cases contenu with
    | clientQuitRoom pseudo =>
      have hnil : Game.retire id s.jeu.players = [] := h.resolve_left nofun
      show (deroule false (.verrouille .pub :: List.flatMap sendMessage
        ((Game.retire id s.jeu.players).map _) ++ [.libere .pub])).2 = true
      rw [hnil]
      rfl
    | _ => rfl
  rw [quitte, hfin, if_pos rfl]

end Salle

/-- The thread of a room, which may have stopped in `handle_quit`. -/
inductive Fil where
  | court (th : Thread)
  | bloque (s : Salle)

namespace Fil

def salle : Fil → Salle
  | court th => th.salle
  | bloque s => s

/-- The thread runs, and `p` holds of it. -/
def siCourt (p : Thread → Bool) : Fil → Bool
  | court th => p th
  | bloque _ => false

/-- A message comes to `handle_quit` first. -/
def etape (serveur : Serveur) (e : Evenement) : Fil → Option Fil
  | bloque _ => none
  | court th => (th.etape serveur e).map fun th' =>
    match e with
    | .recoit m => if (th.salle.quitte m).2 then court th' else bloque (th.salle.quitte m).1
    | _ => court th'

def Depart (f : Fil) : Prop := ∃ th, f = court th ∧ Thread.Depart th

/-- The message leaves nobody in the room, or is no departure. -/
def Rend (e : Evenement) (th : Thread) : Prop :=
  ∀ m, e = .recoit m → m.estQuit = false ∨ th.salle.quitteSeul m = true

variable {serveur : Serveur} {e : Evenement} {th : Thread} {f' : Fil}

theorem etape_court (h : etape serveur e (court th) = some f') :
    (∃ th', Rend e th ∧ th.etape serveur e = some th' ∧ f' = court th') ∨
      ∃ m th', e = .recoit m ∧ m.estQuit = true ∧ th.salle.quitteSeul m = false ∧
        th.etape serveur e = some th' ∧ f' = bloque { th.salle with jeu := th.salle.jeu.handleQuit m.receiverId } := by
  obtain ⟨th', hth, hf⟩ := Option.map_eq_some_iff.mp h
  cases e with
  | recoit m =>
    simp only at hf
    by_cases hr : m.estQuit = false ∨ th.salle.quitteSeul m = true
    · rw [Salle.quitte_rend hr, if_pos rfl] at hf
      refine Or.inl ⟨th', ?_, hth, hf.symm⟩
      rintro m' ⟨⟩
      exact hr
    · rw [not_or, Bool.not_eq_false, Bool.not_eq_true] at hr
      rw [Salle.quitte_bloque hr.2 hr.1, if_neg Bool.false_ne_true] at hf
      exact Or.inr ⟨m, th', rfl, hr.1, hr.2, hth, hf.symm⟩
  | silence => exact Or.inl ⟨th', nofun, hth, hf.symm⟩
  | suite env db => exact Or.inl ⟨th', nofun, hth, hf.symm⟩

/-- Nothing comes after. -/
theorem etape_bloque (s : Salle) : etape serveur e (bloque s) = none := rfl

end Fil

/-! ## One of two players quits -/

namespace Thread

/-- Players 1 and 2, with eight worms each. -/
def baseDepart : DataBase :=
  { petiteBase with
    users := [⟨1, "a", 0⟩, ⟨2, "b", 0⟩]
    worms := (List.range' 1 16).map fun id => ⟨id, if id ≤ 8 then 1 else 2, ""⟩ }

/-- Both ask for room 1. -/
def deuxArrivent : List Evenement :=
  let suite : Evenement := .suite (envPetit 0) baseDepart
  [suite, .recoit ⟨1, .infoRoom⟩, suite, .recoit ⟨2, .infoRoom⟩, suite]

/-- Player 2 quits: the thread has `pub_mutex` when it wants to lock it for the message to player 1. -/
theorem depart_bloque : ∃ th, Runs.Reach (etape (serveurDe Map.petite)) (fun _ _ => True) Depart th ∧
    th.lieu = .salle ∧ th.salle.jeu.players.map (·.playerId) = [1, 2] ∧
    ¬ ∀ serveur env, Tranquille (th.salle.actesQuit ⟨2, .clientQuitRoom "b"⟩) ∧
      Tranquille (th.salle.actesRoom serveur env ⟨2, .clientQuitRoom "b"⟩) ∧
      Tranquille (th.salle.actesGame serveur env ⟨2, .clientQuitRoom "b"⟩) := by
  obtain ⟨th, _, hr, hp⟩ := Runs.exists_of_exec (etape (serveurDe Map.petite)) (fun _ _ => True)
    (show Depart (new 1 1 baseDepart) from ⟨1, 1, baseDepart, rfl⟩) deuxArrivent
    (fun th => th.lieu == .salle && th.salle.jeu.players.map (·.playerId) == [1, 2] &&
      !decide (Tranquille (th.salle.actesQuit ⟨2, .clientQuitRoom "b"⟩))) (by decide +kernel)
  simp only [Bool.and_eq_true, beq_iff_eq, Bool.not_eq_true', decide_eq_false_iff_not] at hp
  obtain ⟨⟨hl, hids⟩, hbloque⟩ := hp
  exact ⟨th, hr, hl, hids, fun h => hbloque (h (serveurDe Map.petite) (envPetit 0)).1⟩

end Thread
end LombricABrac
