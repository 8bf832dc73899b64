import LombricABrac.Admission
import LombricABrac.CommMacros

/-!
# A connection and its room

`client_thread` of `Server/src/user_thread.cpp` for a user, from its login to its DECO, beside the thread
of one room.  That the user is in the room is held twice: in `m_players`, and by the connection in `is_on_game`
and `game_url`.  The room tells the connection that it has ended by ROOM_CLOSED, from `~Game`, and tells
it nothing when the user quits.  A message is two frames that arrive together; the connection takes one
at a time.

    mem_retire_iff   : when the loop of `handle_quit` leaves an entry of the user
    accord_etape     : the steps that keep the two records in accord
    dehors_of_reach  : the runs of such steps let the user back to the menu
    quitte_reste     : CLIENT_QUIT_ROOM
-/

namespace LombricABrac

/-! ## Messages -/

/-- The contents of a message for the user; those of ROOM_CLOSED are the text "56" from any room. -/
inductive Pli where
  | courrier (c : Courrier)
  | roomClosed (room : Nat)
  deriving DecidableEq

/-- A frame: the channel `users/<id>/room` or else `users/<id>/broker`, or contents. -/
inductive Trame where
  | adresse (room : Bool)
  | contenu (p : Pli)
  deriving DecidableEq

/-- The room of a CLIENT_CREATE_ROOM_RESPONSE or a CLIENT_LOOKUP_RESPONSE; the other contents, and an
address read as contents, have another `type_message`. -/
def Trame.admission : Trame → Option Nat
  | .contenu (.courrier (.createRoomResponse room)) => some room
  | .contenu (.courrier (.lookupResponse room)) => some room
  | _ => none

def Trame.estRoomClosed : Trame → Bool
  | .contenu (.roomClosed _) => true
  | _ => false

/-- Of what a room publishes, what comes on the channel of user `id`. -/
def Annonce.pourConnexion (id : Nat) (e : Canal × Annonce) : Option (Bool × Pli) :=
  (pourUsager e).bind fun (id', c) => if id' = id then some (true, .courrier c) else none

/-- What the client asks for: to join a room, or anything else. -/
inductive Connexion.Requete where
  | joinRequest (room : Nat)
  | autre (c : Contenu)
  deriving DecidableEq

/-- As a message for the room. -/
def Connexion.Requete.contenu : Requete → Contenu
  | .joinRequest _ => .autre MsgType.CLIENT_JOIN_REQUEST.toNat
  | .autre c => c

/-! ## State -/

/-- The room is at its `switch`, which leaves the main loop. -/
def Thread.finit (th : Thread) : Bool :=
  th.lieu == .tete && th.salle.currentStep != stepRoom && th.salle.currentStep != stepGame

/-- Where `client_thread` is: the first receive of its loop, the second with what the first gave, its
client, or the receive after a CLIENT_JOIN_REQUEST. -/
inductive Connexion.Point where
  | tete
  | contents (address : Trame)
  | client
  | attend (room : Nat)
  deriving DecidableEq

/-- User `id` and room `roomId`: `file` is on its way to the room, `enVol` to the connection, and `boite`
are the frames it can read.  `sorti` says that the room has removed the user from `m_players` since it
was last let in. -/
structure Connexion where
  id : Nat
  roomId : Nat
  salle : Thread
  file : List ZmqMsg
  enVol : List (Bool × Pli)
  boite : List Trame
  point : Connexion.Point
  isOnGame : Bool
  gameUrl : Nat
  connected : Bool
  sorti : Bool

namespace Connexion

def new (id owner roomId : Nat) (db : DataBase) : Connexion where
  id
  roomId
  salle := Thread.new owner roomId db
  file := []
  enVol := []
  boite := []
  point := .tete
  isOnGame := false
  gameUrl := 0
  connected := true
  sorti := false

/-- The connection takes its user to be in the room. -/
def dansSalle (st : Connexion) : Bool := st.isOnGame && st.gameUrl == st.roomId

/-- A ROOM_CLOSED of the room is still to be read. -/
def attendue (enVol : List (Bool × Pli)) (boite : List Trame) (st : Connexion) : Bool :=
  (enVol.map Prod.snd).contains (.roomClosed st.roomId) || boite.contains (.contenu (.roomClosed st.roomId))

/-! ## The connection -/

/-- `is_on_game = true; game_url = …`. -/
def entre (room : Nat) (st : Connexion) : Connexion :=
  { st with isOnGame := true, gameUrl := room, sorti := st.sorti && room != st.roomId, point := .tete }

/-- A message: `room_channel` during a game, the broker's answers, or `handle_instruction`. -/
def traite (address contents : Trame) (st : Connexion) : Connexion :=
  if st.isOnGame ∧ address = .adresse true then
    { st with isOnGame := !contents.estRoomClosed, point := .tete }
  else
    match contents.admission with
    | some room => st.entre room
    | none => { st with point := .tete }

/-- A receive of one frame. -/
def recoit (b : Trame) (st : Connexion) : Option Connexion :=
  match st.point with
  | .tete => some { st with point := .contents b }
  | .contents a => some (st.traite a b)
  | .attend room => some (st.entre room)
  | .client => none

/-- A receive that times out gives "": the client's turn, a message without contents, or SERVER_JOIN_RESPONSE
false. -/
def expire (st : Connexion) : Option Connexion :=
  match st.point with
  | .tete => some { st with point := .client }
  | .contents _ => some { st with point := .tete }
  | .attend _ => some { st with point := .tete }
  | .client => none

/-- What is redirected for a request, and to which room; two requests are answered here all the same. -/
def redirige (r : Requete) (st : Connexion) : Option (Nat × ZmqMsg) :=
  if st.isOnGame ∧ r.contenu ≠ .autre MsgType.CLIENT_ASK_FRIENDSHIP_LIST.toNat ∧
      r.contenu ≠ .autre MsgType.CLIENT_SEND_INVITE.toNat then
    some (st.gameUrl, ⟨st.id, r.contenu⟩)
  else none

/-- Message `m` is published on the channel of `room`. -/
def publie (room : Nat) (m : ZmqMsg) (st : Connexion) : Connexion :=
  if room = st.roomId then { st with file := st.file ++ [m] } else st

def requete (r : Requete) (st : Connexion) : Connexion :=
  if st.isOnGame then
    match st.redirige r with
    | some (room, m) => { st.publie room m with point := .tete }
    | none => { st with point := .tete }
  else
    match r with
    | .joinRequest room => { st.publie room ⟨st.id, .ping⟩ with point := .attend room }
    | _ => { st with point := .tete }

/-- The end of the thread. -/
def ferme (pseudo : String) (st : Connexion) : Connexion :=
  { (if st.isOnGame then st.publie st.gameUrl ⟨st.id, .clientQuitRoom pseudo⟩ else st) with
    connected := false }

/-! ## Steps -/

/-- The broker sends to the user, another room does, another user sends to the room; the room goes on; the
next message arrives; the connection receives, does not, or turns to its client. -/
inductive Pas where
  | broker (c : Courrier)
  | ailleurs (p : Pli)
  | autre (m : ZmqMsg)
  | salle (e : Evenement)
  | livre
  | recoit
  | expire
  | requete (r : Requete)
  | rien
  | ferme (pseudo : String)

/-- The room's thread has made a step; after the last one, `~Game`. -/
def avance (th : Thread) (file : List ZmqMsg) (st : Connexion) : Connexion :=
  let l := th.salle.envois.drop st.salle.salle.envois.length
  let closes := if th.lieu = .fini then th.salle.jeu.ids.count st.id else 0
  { st with
    salle := th
    file
    enVol := st.enVol ++ l.filterMap (Annonce.pourConnexion st.id) ++
      List.replicate closes (true, .roomClosed st.roomId)
    sorti := !th.salle.jeu.ids.contains st.id && (st.sorti || st.salle.salle.jeu.ids.contains st.id) }

def etapeSalle (serveur : Serveur) (e : Evenement) (st : Connexion) : Option Connexion :=
  match e with
  | .recoit m =>
    match st.file with
    | [] => none
    | m' :: file =>
      if m = m' then (Thread.etape serveur e st.salle).map fun th => st.avance th file else none
  | e => (Thread.etape serveur e st.salle).map fun th => st.avance th st.file

def etape (serveur : Serveur) (p : Pas) (st : Connexion) : Option Connexion :=
  match p with
  | .broker c => some { st with enVol := st.enVol ++ [(false, .courrier c)] }
  | .ailleurs p =>
    if p = .roomClosed st.roomId then none else some { st with enVol := st.enVol ++ [(true, p)] }
  | .autre m => if m.receiverId = st.id then none else some { st with file := st.file ++ [m] }
  | .salle e => st.etapeSalle serveur e
  | .livre =>
    match st.enVol with
    | [] => none
    | (room, p) :: enVol => some { st with enVol, boite := st.boite ++ [.adresse room, .contenu p] }
  | .recoit =>
    match st.connected, st.boite with
    | true, b :: boite => { st with boite }.recoit b
    | _, _ => none
  | .expire =>
    match st.connected, st.boite with
    | true, [] => st.expire
    | _, _ => none
  | .requete r => if st.connected ∧ st.point = .client then some (st.requete r) else none
  | .rien => if st.connected ∧ st.point = .client then some { st with point := .tete } else none
  | .ferme pseudo => if st.connected ∧ st.point = .client then some (st.ferme pseudo) else none

/-! ## The two records -/

/-- Nothing is on its way, and the connection is at the top of its loop. -/
def auRepos (st : Connexion) : Bool :=
  st.enVol.isEmpty && st.boite.isEmpty && (st.point == .tete || st.point == .client) &&
    (st.salle.lieu == .fini || st.file.isEmpty)

/-- Once the room has removed the user or has ended and nothing is on its way, the connection is back in the
menu, or in another room; no request goes to this one. -/
def Dehors (st : Connexion) : Prop :=
  st.connected = true → st.auRepos = true → st.sorti = true ∨ st.salle.lieu = .fini →
    st.dansSalle = false ∧ ∀ r room m, st.redirige r = some (room, m) → room ≠ st.roomId

/-- A connection that takes its user to be in the room has not been left behind: the room still has the
user, or it has ended and says so. -/
def Accord (st : Connexion) : Prop :=
  st.connected = true → st.dansSalle = true →
    st.sorti = false ∧ (st.salle.lieu = .fini → st.attendue st.enVol st.boite = true)

/-- CLIENT_QUIT_ROOM removes the user: two entries one after the other are what `handle_quit` misses. -/
def retireTout (m : ZmqMsg) (st : Connexion) : Bool :=
  m.estQuit && m.receiverId == st.id && st.salle.salle.jeu.ids.contains st.id &&
    !decide ([st.id, st.id] <:+: st.salle.salle.jeu.ids)

/-- Frame `b` is taken for a ROOM_CLOSED of a game that is on. -/
def sort (b : Trame) (st : Connexion) : Bool :=
  st.isOnGame && st.point == .contents (.adresse true) && b.estRoomClosed

/-- The room that frame `b` lets the user into. -/
def entree (b : Trame) (st : Connexion) : Option Nat :=
  match st.point with
  | .contents a => if st.isOnGame ∧ a = .adresse true then none else b.admission
  | .attend room => some room
  | _ => none

/-- The room removes no user whose connection takes it to be in the room, it has the user when it ends, and
after its end such a connection is let in, or passes over a ROOM_CLOSED, only where another one follows. -/
def prevenu (p : Pas) (st : Connexion) : Bool :=
  !st.connected ||
    match p with
    | .salle (.recoit m) => !(st.dansSalle && st.retireTout m)
    | .salle (.suite _ _) => !(st.dansSalle && st.salle.finit) || st.salle.salle.jeu.ids.contains st.id
    | .recoit =>
      match st.boite with
      | b :: boite =>
        st.salle.lieu != .fini || st.attendue st.enVol boite || st.sort b ||
          !(((st.entree b).isNone && st.dansSalle) || st.entree b == some st.roomId)
      | [] => true
    | _ => true

def Depart (st : Connexion) : Prop := ∃ id owner roomId db, st = new id owner roomId db

end Connexion

/-! ## The room -/

namespace Game

/-- **The loop of `handle_quit`** leaves an entry of the user where two follow each other. -/
theorem mem_retire_iff (id : Nat) (js : List Joueur) :
    id ∈ (retire id js).map (·.playerId) ↔ [id, id] <:+: js.map (·.playerId) := by
  induction js using retire.induct id with
  | case1 => simp [retire]
  | case2 j hj =>
    rw [retire, if_pos hj]
    simp [List.infix_cons_iff]
  | case3 j hj =>
    rw [retire, if_neg hj]
    simp [List.infix_cons_iff, Ne.symm hj]
  | case4 j k js hj ih =>
    rw [retire, if_pos hj, List.map_cons, List.mem_cons, ih]
    simp only [List.map_cons]
    rw [List.infix_cons_iff, List.infix_cons_iff, List.cons_prefix_cons, List.cons_prefix_cons]
    by_cases hk : id = k.playerId
    · simp [hj, hk]
    · simp [hk]
  | case5 j k js hj ih =>
    have hne : ¬ id = j.playerId := Ne.symm hj
    rw [retire, if_neg hj, List.map_cons, List.mem_cons, ih, List.map_cons (l := k :: js), List.infix_cons_iff,
      List.cons_prefix_cons]
    simp [hne]

theorem mem_retire_of_ne {id autre : Nat} (hne : autre ≠ id) (js : List Joueur) :
    autre ∈ (retire id js).map (·.playerId) ↔ autre ∈ js.map (·.playerId) := by
  induction js using retire.induct id with
  | case1 => rfl
  | case2 j hj => simp [retire, hj, hne]
  | case3 j hj => rw [retire, if_neg hj]
  | case4 j k js hj ih =>
    rw [retire, if_pos hj, List.map_cons, List.mem_cons, ih]
    simp [hj, hne]
  | case5 j k js hj ih => rw [retire, if_neg hj, List.map_cons, List.mem_cons, ih, ← List.mem_cons, ← List.map_cons]

end Game

namespace Salle

variable {serveur : Serveur} {env : Env} {m : ZmqMsg} {s s' : Salle}

/-- Messages of the lobby remove nobody. -/
theorem ids_handleRoom (h : handleRoom serveur env m s = some s') {id : Nat} (hid : id ∈ s.jeu.ids) :
    id ∈ s'.jeu.ids := by
  rcases handleRoom_cases h with ⟨_, _, hd⟩ | ⟨_, _, hj | ⟨e, _, hj⟩ | ⟨j, _, _, hj⟩ | ⟨g, hg, hj⟩⟩
  · rw [Game.ids_of_stable (stable_demarre hd)]
    exact hid
  · rw [hj]
    exact hid
  · rw [hj]
    show id ∈ (Game.changeEquipe m.receiverId (uint8 e) s.jeu.players).map (·.playerId)
    rw [Game.map_changeEquipe]
    exact hid
  · rw [hj, Game.ids, Game.addUser, List.map_append]
    exact List.mem_append_left _ hid
  · rw [hj, Game.ids_parametre hg]
    exact hid

end Salle

namespace Thread

variable {serveur : Serveur} {env : Env} {db : DataBase} {m : ZmqMsg} {th th' : Thread}

/-- A message is taken by `handle_quit`. -/
theorem etape_recoit (h : etape serveur (.recoit m) th = some th') :
    th'.salle = th.salle.handleQuit m ∧ th.lieu ≠ .fini ∧ th'.lieu ≠ .fini := by
  obtain ⟨lieu, salle, closeRooms⟩ := th
  cases lieu with
  | salle | partie =>
    simp only [etape] at h
    split at h
    · cases h
      exact ⟨rfl, nofun, nofun⟩
    · cases h
  | _ => simp [etape] at h

theorem etape_silence (h : etape serveur .silence th = some th') :
    th'.salle = th.salle ∧ th.lieu ≠ .fini ∧ th'.lieu ≠ .fini := by
  obtain ⟨lieu, salle, closeRooms⟩ := th
  cases lieu with
  | partie =>
    simp only [etape] at h
    split at h
    · cases h
      exact ⟨rfl, nofun, nofun⟩
    · cases h
  | _ => simp [etape] at h

/-- Between two messages the room removes nobody. -/
theorem ids_suite (ha : Attente th.salle.currentStep th.lieu)
    (h : etape serveur (.suite env db) th = some th') {id : Nat} (hid : id ∈ th.salle.jeu.ids) :
    id ∈ th'.salle.jeu.ids := by
  have hap := (etape_appel ha h).1
  generalize th'.salle = s' at hap ⊢
  cases hap with
  | rien => exact hid
  | room m _ _ _ _ _ hr => exact Salle.ids_handleRoom hr hid
  | game m _ _ _ _ _ hr =>
    rw [Game.ids_of_stable (Salle.stable_handleGame hr)]
    exact hid
  | heure _ _ _ _ _ hr =>
    rw [Game.ids_of_stable (Salle.stable_endRound hr)]
    exact hid

/-- The thread ends at its `switch`. -/
theorem etape_fini (h : etape serveur (.suite env db) th = some th') :
    th.lieu ≠ .fini ∧ (th'.lieu = .fini ↔ th.finit = true) ∧
      (th'.lieu = .fini → th'.salle.jeu = th.salle.jeu) := by
  obtain ⟨lieu, salle, closeRooms⟩ := th
  cases lieu with
  | tete =>
    cases h
    unfold aiguille finit
    by_cases h0 : salle.currentStep = stepRoom
    · simp [h0]
    · by_cases h1 : salle.currentStep = stepGame
      · simp [h1, stepGame, stepRoom]
      · simp only [if_neg h0, if_neg h1]
        split <;> simp [h0, h1]
  | salle | partie =>
    simp only [etape] at h
    split at h
    · cases h
    · cases h
      simp [finit]
  | salleMsg m | partieMsg m | minuterie =>
    obtain ⟨s', _, rfl⟩ := Option.map_eq_some_iff.mp h
    simp [finit]
  | fini => simp [etape] at h

end Thread

/-! ## One step -/

namespace Connexion

variable {serveur : Serveur} {p : Pas} {st st' : Connexion}

theorem attendue_iff {enVol : List (Bool × Pli)} {boite : List Trame} :
    st.attendue enVol boite = true ↔
      .roomClosed st.roomId ∈ enVol.map Prod.snd ∨ .contenu (.roomClosed st.roomId) ∈ boite := by
  rw [attendue, Bool.or_eq_true, List.contains_iff_mem, List.contains_iff_mem]

theorem retireTout_iff (m : ZmqMsg) (st : Connexion) : st.retireTout m = true ↔
    st.id ∈ st.salle.salle.jeu.ids ∧ st.id ∉ (st.salle.salle.handleQuit m).jeu.ids := by
  unfold retireTout
  cases hm : m.estQuit with
  | false =>
    rw [Salle.handleQuit_of_not hm]
    simp
  | true =>
    rw [Salle.handleQuit_jeu hm]
    have hids : (st.salle.salle.jeu.handleQuit m.receiverId).ids =
        (Game.retire m.receiverId st.salle.salle.jeu.players).map (·.playerId) := rfl
    rw [hids]
    by_cases hid : m.receiverId = st.id
    · rw [hid, Game.mem_retire_iff]
      simp only [beq_self_eq_true, Bool.true_and, Bool.and_eq_true, List.contains_iff_mem, Bool.not_eq_true',
        decide_eq_false_iff_not]
      rfl
    · rw [Game.mem_retire_of_ne (Ne.symm hid)]
      simp [hid, Game.ids]

/-- What holds of every run: the room's thread, and ROOM_CLOSED comes after its end. -/
structure Suivi (st : Connexion) : Prop where
  attente : Thread.Attente st.salle.salle.currentStep st.salle.lieu
  annonce : st.attendue st.enVol st.boite = true → st.salle.lieu = .fini

/-- What a room publishes is not ROOM_CLOSED. -/
theorem roomClosed_not_mem (id room : Nat) (l : List (Canal × Annonce)) :
    Pli.roomClosed room ∉ (l.filterMap (Annonce.pourConnexion id)).map Prod.snd := by
  intro hin
  obtain ⟨⟨_, q⟩, he, rfl⟩ := List.mem_map.mp hin
  obtain ⟨e, _, he⟩ := List.mem_filterMap.mp he
  obtain ⟨⟨id', c⟩, _, hc⟩ := Option.bind_eq_some_iff.mp he
  by_cases hid : id' = id
  · simp [hid] at hc
  · simp [hid] at hc

theorem attendue_avance (th : Thread) (file : List ZmqMsg) (st : Connexion) :
    (st.avance th file).attendue (st.avance th file).enVol (st.avance th file).boite = true ↔
      st.attendue st.enVol st.boite = true ∨ th.lieu = .fini ∧ st.id ∈ th.salle.jeu.ids := by
  rw [attendue_iff, attendue_iff]
  simp only [avance, List.map_append, List.mem_append, roomClosed_not_mem, or_false, List.map_replicate,
    List.mem_replicate, and_true]
  have hcount : (if th.lieu = .fini then th.salle.jeu.ids.count st.id else 0) ≠ 0 ↔
      th.lieu = .fini ∧ st.id ∈ th.salle.jeu.ids := by
    split
    · next hl => simp [hl, List.count_eq_zero]
    · next hl => simp [hl]
  rw [hcount]
  tauto

theorem suivi_avance {e : Evenement} {th : Thread} (file : List ZmqMsg) (h : st.Suivi)
    (hs : Thread.etape serveur e st.salle = some th) : (st.avance th file).Suivi where
  attente := (Thread.etape_appel h.attente hs).2
  annonce ha := by
    rcases (attendue_avance th file st).mp ha with ha | ⟨hl, _⟩
    · -- the thread of a room that has ended makes no step
      have hf := h.annonce ha
      unfold Thread.etape at hs
      simp [hf] at hs
    · exact hl

/-- Where the connection does not take its user to be in the room there is nothing to tell it. -/
theorem accord_of_dehors (h : st.connected = true → st.dansSalle = false) : st.Accord := by
  intro hc hd
  rw [h hc] at hd
  cases hd

/-- After a step of the room. -/
theorem accord_avance_iff {th : Thread} (file : List ZmqMsg) (hc : st.connected = true)
    (hd : st.dansSalle = true) (hs : st.sorti = false) : (st.avance th file).Accord ↔
      (st.id ∈ st.salle.salle.jeu.ids → st.id ∈ th.salle.jeu.ids) ∧
        (th.lieu = .fini → st.attendue st.enVol st.boite = true ∨ st.id ∈ th.salle.jeu.ids) := by
  have hsorti : (st.avance th file).sorti = false ↔
      (st.id ∈ st.salle.salle.jeu.ids → st.id ∈ th.salle.jeu.ids) := by
    simp only [avance, hs, Bool.false_or]
    by_cases h' : st.id ∈ th.salle.jeu.ids <;> simp [h']
  have hfin : ((st.avance th file).salle.lieu = .fini →
        (st.avance th file).attendue (st.avance th file).enVol (st.avance th file).boite = true) ↔
      (th.lieu = .fini → st.attendue st.enVol st.boite = true ∨ st.id ∈ th.salle.jeu.ids) := by
    rw [attendue_avance]
    show (th.lieu = .fini → _) ↔ _
    tauto
  rw [← hsorti, ← hfin]
  exact ⟨fun hA => hA hc hd, fun hA _ _ => hA⟩

/-- **The room makes a step.** -/
theorem accord_salle {e : Evenement} {th : Thread} (file : List ZmqMsg) (hS : st.Suivi) (hA : st.Accord)
    (hs : Thread.etape serveur e st.salle = some th) :
    prevenu (.salle e) st = true ↔ (st.avance th file).Accord := by
  by_cases hc : st.connected = true
  · by_cases hd : st.dansSalle = true
    · obtain ⟨hsorti, hfin⟩ := hA hc hd
      rw [accord_avance_iff file hc hd hsorti]
      simp only [prevenu, hc, hd, Bool.not_true, Bool.false_or, Bool.true_and]
      cases e with
      | recoit m =>
        obtain ⟨hq, _, hl⟩ := Thread.etape_recoit hs
        rw [Bool.not_eq_true', Bool.eq_false_iff, ne_eq, retireTout_iff, ← hq]
        simp [hl]
      | silence =>
        obtain ⟨hq, _, hl⟩ := Thread.etape_silence hs
        simp [hq, hl]
      | suite env db =>
        obtain ⟨hne, hl, hjeu⟩ := Thread.etape_fini hs
        have hids : st.id ∈ st.salle.salle.jeu.ids → st.id ∈ th.salle.jeu.ids :=
          Thread.ids_suite hS.attente hs
        have hrien : ¬ st.attendue st.enVol st.boite = true := fun ha => hne (hS.annonce ha)
        rw [Bool.or_eq_true, Bool.not_eq_true', Bool.eq_false_iff, ne_eq, ← hl, List.contains_iff_mem]
        constructor
        · rintro (hok | hok)
          · exact ⟨hids, fun hf => absurd hf hok⟩
          · exact ⟨hids, fun _ => Or.inr (hids hok)⟩
        · rintro ⟨_, hfini⟩
          by_cases hf : th.lieu = .fini
          · refine Or.inr ?_
            rw [← hjeu hf]
            exact (hfini hf).resolve_left hrien
          · exact Or.inl hf
    · have hd : st.dansSalle = false := Bool.eq_false_iff.mpr hd
      refine ⟨fun _ => accord_of_dehors fun _ => hd, fun _ => ?_⟩
      simp only [prevenu, hd, Bool.false_and, Bool.not_false, Bool.true_or]
      cases e <;> simp
  · refine ⟨fun _ => accord_of_dehors fun hc' => absurd hc' hc, fun _ => ?_⟩
    simp [prevenu, hc]

/-- What a frame leaves alone. -/
structure MemeMonde (st st' : Connexion) : Prop where
  salle : st'.salle = st.salle
  roomId : st'.roomId = st.roomId
  enVol : st'.enVol = st.enVol
  boite : st'.boite = st.boite
  connected : st'.connected = st.connected

/-- **A frame** ends the game, lets the user into a room, or does nothing to `is_on_game` and `game_url`. -/
theorem recoit_cases {b : Trame} (h : st.recoit b = some st') : st.MemeMonde st' ∧
    (st.sort b = true ∧ st'.dansSalle = false ∨
      st.sort b = false ∧ (∃ room, st.entree b = some room ∧ st' = st.entre room) ∨
      st.sort b = false ∧ st.entree b = none ∧ st'.dansSalle = st.dansSalle ∧ st'.sorti = st.sorti) := by
  unfold recoit at h
  unfold sort entree
  split at h <;> rename_i hp <;> rw [hp]
  · cases h
    exact ⟨⟨rfl, rfl, rfl, rfl, rfl⟩, Or.inr (Or.inr ⟨by simp, rfl, rfl, rfl⟩)⟩
  · next a =>
    cases h
    unfold traite
    by_cases hr : st.isOnGame = true ∧ a = .adresse true
    · obtain ⟨hg, rfl⟩ := hr
      simp only [hg, true_and, if_true]
      refine ⟨⟨rfl, rfl, rfl, rfl, rfl⟩, ?_⟩
      cases hb : b.estRoomClosed with
      | true => exact Or.inl ⟨rfl, by simp [dansSalle]⟩
      | false => exact Or.inr (Or.inr (by simp [dansSalle, hg]))
    · have hsort : (st.isOnGame && Point.contents a == .contents (.adresse true) && b.estRoomClosed) = false := by
        simp only [not_and] at hr
        cases hg : st.isOnGame with
        | false => rfl
        | true => simp [hr hg]
      simp only [if_neg hr, hsort]
      split
      · next room hroom => exact ⟨⟨rfl, rfl, rfl, rfl, rfl⟩, Or.inr (Or.inl ⟨trivial, room, hroom, rfl⟩)⟩
      · next hroom => exact ⟨⟨rfl, rfl, rfl, rfl, rfl⟩, Or.inr (Or.inr ⟨trivial, hroom, rfl, rfl⟩)⟩
  · next room =>
    cases h
    exact ⟨⟨rfl, rfl, rfl, rfl, rfl⟩, Or.inr (Or.inl ⟨by simp, room, rfl, rfl⟩)⟩
  · cases h

theorem accord_iff (hc : st.connected = true) (hd : st.dansSalle = true) (hs : st.sorti = false) :
    st.Accord ↔ (st.salle.lieu = .fini → st.attendue st.enVol st.boite = true) :=
  ⟨fun hA => (hA hc hd).2, fun hf _ _ => ⟨hs, hf⟩⟩

/-- **The connection takes a frame.** -/
theorem accord_recoit {b : Trame} {boite : List Trame} (hA : st.Accord) (hc : st.connected = true)
    (hb : st.boite = b :: boite) (h : { st with boite }.recoit b = some st') :
    prevenu .recoit st = true ↔ st'.Accord := by
  obtain ⟨hm, hcases⟩ := recoit_cases h
  have hc' : st'.connected = true := hm.connected.trans hc
  have hfin : (st'.salle.lieu = .fini → st'.attendue st'.enVol st'.boite = true) ↔
      (st.salle.lieu ≠ .fini ∨ st.attendue st.enVol boite = true) := by
    rw [attendue_iff, attendue_iff, hm.salle, hm.roomId, hm.enVol, hm.boite, imp_iff_not_or]
  simp only [prevenu, hc, hb, Bool.not_true, Bool.false_or]
  rcases hcases with ⟨hs, hd⟩ | ⟨hs, room, he, rfl⟩ | ⟨hs, he, hd, hsorti⟩
  · have hs : st.sort b = true := hs
    refine ⟨fun _ => accord_of_dehors fun _ => hd, fun _ => ?_⟩
    simp [hs]
  · -- let into a room: this one, or another
    have hs : st.sort b = false := hs
    have he : st.entree b = some room := he
    by_cases hr : room = st.roomId
    · rw [accord_iff hc' (by simp [entre, dansSalle, hr]) (by simp [entre, hr]), hfin]
      simp [hs, he, hr]
    · refine ⟨fun _ => accord_of_dehors fun _ => by simp [entre, dansSalle, hr], fun _ => ?_⟩
      simp [hs, he, hr]
  · have hs : st.sort b = false := hs
    have he : st.entree b = none := he
    have hd : st'.dansSalle = st.dansSalle := hd
    have hsorti : st'.sorti = st.sorti := hsorti
    by_cases hin : st.dansSalle = true
    · rw [accord_iff hc' (hd.trans hin) (hsorti.trans (hA hc hin).1), hfin]
      simp [hs, he, hin]
    · have hin : st.dansSalle = false := Bool.eq_false_iff.mpr hin
      refine ⟨fun _ => accord_of_dehors fun _ => hd.trans hin, fun _ => ?_⟩
      simp [hs, he, hin]

/-- A step that changes neither record. -/
structure Calme (st st' : Connexion) : Prop where
  salle : st'.salle = st.salle
  sorti : st'.sorti = st.sorti
  connected : st'.connected = true → st.connected = true
  dansSalle : st'.dansSalle = st.dansSalle
  attendue : st'.attendue st'.enVol st'.boite = true ↔ st.attendue st.enVol st.boite = true

theorem Suivi.calme (hS : st.Suivi) (h : Calme st st') : st'.Suivi where
  attente := h.salle ▸ hS.attente
  annonce ha := h.salle ▸ hS.annonce (h.attendue.mp ha)

theorem Accord.calme (hA : st.Accord) (h : Calme st st') : st'.Accord := by
  intro hc hd
  obtain ⟨hs, hf⟩ := hA (h.connected hc) (h.dansSalle ▸ hd)
  exact ⟨h.sorti.trans hs, fun hl => h.attendue.mpr (hf (h.salle ▸ hl))⟩

theorem publie_eq (room : Nat) (m : ZmqMsg) (st : Connexion) : ∃ file, st.publie room m = { st with file } := by
  unfold publie
  split
  · exact ⟨_, rfl⟩
  · exact ⟨st.file, rfl⟩

theorem calme_requete (r : Requete) (st : Connexion) : Calme st (st.requete r) := by
  have hcalme : ∀ file point, Calme st { st with file, point } := fun _ _ => ⟨rfl, rfl, fun hc => hc, rfl, Iff.rfl⟩
  unfold requete
  split
  · split
    · next room m _ =>
      obtain ⟨file, hf⟩ := publie_eq room m st
      rw [hf]
      exact hcalme file .tete
    · exact hcalme st.file .tete
  · split
    · next room =>
      obtain ⟨file, hf⟩ := publie_eq room ⟨st.id, .ping⟩ st
      rw [hf]
      exact hcalme file (.attend room)
    · exact hcalme st.file .tete

theorem calme_ferme (pseudo : String) (st : Connexion) : Calme st (st.ferme pseudo) := by
  unfold ferme
  split
  · obtain ⟨file, hf⟩ := publie_eq st.gameUrl ⟨st.id, .clientQuitRoom pseudo⟩ st
    rw [hf]
    exact ⟨rfl, rfl, nofun, rfl, Iff.rfl⟩
  · exact ⟨rfl, rfl, nofun, rfl, Iff.rfl⟩

theorem calme_expire (h : st.expire = some st') : Calme st st' := by
  unfold expire at h
  split at h <;> cases h <;> exact ⟨rfl, rfl, fun hc => hc, rfl, Iff.rfl⟩

/-- A step of the room is one of its thread. -/
theorem etapeSalle_cases {e : Evenement} (h : st.etapeSalle serveur e = some st') :
    ∃ th file, Thread.etape serveur e st.salle = some th ∧ st' = st.avance th file := by
  cases e with
  | recoit m =>
    simp only [etapeSalle] at h
    split at h
    · cases h
    · split at h
      · obtain ⟨th, hth, rfl⟩ := Option.map_eq_some_iff.mp h
        exact ⟨th, _, hth, rfl⟩
      · cases h
  | silence =>
    obtain ⟨th, hth, rfl⟩ := Option.map_eq_some_iff.mp h
    exact ⟨th, _, hth, rfl⟩
  | suite env db =>
    obtain ⟨th, hth, rfl⟩ := Option.map_eq_some_iff.mp h
    exact ⟨th, _, hth, rfl⟩

/-- The room, the connection with a frame, or a step that changes neither record. -/
theorem etape_cases (h : etape serveur p st = some st') :
    (∃ e th file, p = .salle e ∧ Thread.etape serveur e st.salle = some th ∧ st' = st.avance th file) ∨
    (∃ b boite, p = .recoit ∧ st.connected = true ∧ st.boite = b :: boite ∧
      { st with boite }.recoit b = some st') ∨
    Calme st st' ∧ prevenu p st = true := by
  cases p with
  | broker c =>
    cases h
    refine Or.inr (Or.inr ⟨⟨rfl, rfl, fun hc => hc, rfl, ?_⟩, by simp [prevenu]⟩)
    simp [attendue_iff]
  | ailleurs p =>
    simp only [etape] at h
    split at h
    · cases h
    · next hp =>
      cases h
      refine Or.inr (Or.inr ⟨⟨rfl, rfl, fun hc => hc, rfl, ?_⟩, by simp [prevenu]⟩)
      simp [attendue_iff, Ne.symm hp]
  | autre m =>
    simp only [etape] at h
    split at h
    · cases h
    · cases h
      exact Or.inr (Or.inr ⟨⟨rfl, rfl, fun hc => hc, rfl, Iff.rfl⟩, by simp [prevenu]⟩)
  | salle e =>
    obtain ⟨th, file, hth, rfl⟩ := etapeSalle_cases h
    exact Or.inl ⟨e, th, file, rfl, hth, rfl⟩
  | livre =>
    simp only [etape] at h
    split at h
    · cases h
    · next room p enVol hv =>
      cases h
      refine Or.inr (Or.inr ⟨⟨rfl, rfl, fun hc => hc, rfl, ?_⟩, by simp [prevenu]⟩)
      rw [attendue_iff, attendue_iff, hv]
      simp only [List.map_cons, List.mem_cons, List.mem_append, List.not_mem_nil, or_false]
      simp only [reduceCtorEq, false_or, Trame.contenu.injEq]
      tauto
  | recoit =>
    simp only [etape] at h
    split at h
    · next b boite hc hb => exact Or.inr (Or.inl ⟨b, boite, rfl, hc, hb, h⟩)
    · cases h
  | expire =>
    simp only [etape] at h
    split at h
    · exact Or.inr (Or.inr ⟨calme_expire h, by simp [prevenu]⟩)
    · cases h
  | requete r =>
    simp only [etape] at h
    split at h
    · cases h
      exact Or.inr (Or.inr ⟨calme_requete r st, by simp [prevenu]⟩)
    · cases h
  | rien =>
    simp only [etape] at h
    split at h
    · cases h
      exact Or.inr (Or.inr ⟨⟨rfl, rfl, fun hc => hc, rfl, Iff.rfl⟩, by simp [prevenu]⟩)
    · cases h
  | ferme pseudo =>
    simp only [etape] at h
    split at h
    · cases h
      exact Or.inr (Or.inr ⟨calme_ferme pseudo st, by simp [prevenu]⟩)
    · cases h

theorem suivi_etape (hS : st.Suivi) (h : etape serveur p st = some st') : st'.Suivi := by
  rcases etape_cases h with ⟨e, th, file, _, hth, rfl⟩ | ⟨b, boite, _, _, hb, hr⟩ | ⟨hcalme, _⟩
  · exact suivi_avance file hS hth
  · obtain ⟨hm, _⟩ := recoit_cases hr
    refine ⟨hm.salle ▸ hS.attente, fun ha => hm.salle ▸ hS.annonce ?_⟩
    rw [attendue_iff, hm.roomId, hm.enVol, hm.boite] at ha
    rw [attendue_iff, hb]
    exact ha.imp_right (List.mem_cons_of_mem b)
  · exact hS.calme hcalme

/-- **The steps that keep the two records in accord.** -/
theorem accord_etape (hS : st.Suivi) (hA : st.Accord) (h : etape serveur p st = some st') :
    prevenu p st = true ↔ st'.Accord := by
  rcases etape_cases h with ⟨e, th, file, rfl, hth, rfl⟩ | ⟨b, boite, rfl, hc, hb, hr⟩ | ⟨hcalme, hp⟩
  · exact accord_salle file hS hA hth
  · exact accord_recoit hA hc hb hr
  · exact ⟨fun _ => hA.calme hcalme, fun _ => hp⟩

/-! ## Runs -/

/-- Where nothing is on its way the connection is not left in the room. -/
theorem Accord.dehors (hA : st.Accord) : st.Dehors := by
  intro hc hrepos hparti
  have hd : st.dansSalle = false := by
    refine Bool.eq_false_iff.mpr fun hd => ?_
    obtain ⟨hs, hf⟩ := hA hc hd
    rcases hparti with hparti | hparti
    · rw [hs] at hparti
      cases hparti
    · have ha := hf hparti
      simp only [auRepos, Bool.and_eq_true, List.isEmpty_iff] at hrepos
      rw [attendue_iff, hrepos.1.1.1, hrepos.1.1.2] at ha
      simp at ha
  refine ⟨hd, fun r room m hr => ?_⟩
  unfold redirige at hr
  split at hr
  · next hg =>
    cases hr
    simpa [dansSalle, hg.1] using hd
  · cases hr

/-- **Back to the menu**: in every run whose steps leave no connection behind, a user that the room has
removed, or whose room has ended, is not in it for its connection either; the first step that does leaves
the records apart. -/
theorem dehors_of_reach (serveur : Serveur) (st : Connexion)
    (h : Runs.Reach (etape serveur) (fun p st => prevenu p st = true) Depart st) :
    st.Dehors ∧ ∀ p st', etape serveur p st = some st' → (prevenu p st = true ↔ st'.Accord) := by
  have hinv : st.Suivi ∧ st.Accord := by
    refine h.invariant (I := fun st => st.Suivi ∧ st.Accord) (fun st h0 => ?_) fun p st st' hI hok hs =>
      ⟨suivi_etape hI.1 hs, (accord_etape hI.1 hI.2 hs).mp hok⟩
    obtain ⟨id, owner, roomId, db, rfl⟩ := h0
    exact ⟨⟨trivial, nofun⟩, accord_of_dehors fun _ => rfl⟩
  exact ⟨hinv.2.dehors, fun p st' hs => accord_etape hinv.1 hinv.2 hs⟩

/-! ## One player alone -/

open Thread (envPetit petiteBase serveurDe)

/-- The owner 1 of room 1 is let in and comes in. -/
def arrivee : List Pas :=
  let suite : Pas := .salle (.suite (envPetit 0) petiteBase)
  [suite, .broker (.createRoomResponse 1), .livre, .recoit, .recoit, .expire, .requete (.autre .infoRoom),
    .salle (.recoit ⟨1, .infoRoom⟩), suite]

/-- Then it sends `c`, and the room treats it. -/
def demande (c : Contenu) : List Pas :=
  [.expire, .requete (.autre c), .salle (.recoit ⟨1, c⟩), .salle (.suite (envPetit 0) petiteBase)]

/-- What the room has published arrives and is read. -/
def lecture (n : Nat) : List Pas := (List.replicate n [Pas.livre, .recoit, .recoit]).flatten

/-- It quits the room, and the room ends. -/
def quitte : List Pas :=
  let suite : Pas := .salle (.suite (envPetit 0) petiteBase)
  arrivee ++ demande (.clientQuitRoom "") ++ [suite, suite] ++ lecture 2

/-- It plays, and its shot ends the game. -/
def joue : List Pas :=
  let suite : Pas := .salle (.suite (envPetit 0) petiteBase)
  arrivee ++ demande (.clientJoinTeam 1) ++ demande .start ++ [suite, suite] ++ demande (.shoot ⟨2, 0, 0⟩) ++
    [suite, suite, suite] ++ lecture 10

/-- The room has removed the user and has ended; a demand for the history still goes to it. -/
theorem quitte_reste : ∃ st, Runs.Reach (etape (serveurDe Map.petite)) (fun _ _ => True) Depart st ∧
    st.connected = true ∧ st.auRepos = true ∧ st.sorti = true ∧ st.salle.lieu = .fini ∧ st.isOnGame = true ∧
    st.redirige (.autre (.autre MsgType.GET_HISTORY.toNat)) =
      some (st.roomId, ⟨1, .autre MsgType.GET_HISTORY.toNat⟩) ∧ ¬ st.Dehors := by
  obtain ⟨st, _, hr, hp⟩ := Runs.exists_of_exec (etape (serveurDe Map.petite)) (fun _ _ => True)
    (show Depart (new 1 1 1 petiteBase) from ⟨1, 1, 1, petiteBase, rfl⟩) quitte
    (fun st => st.connected && st.auRepos && st.sorti && st.salle.lieu == .fini && st.isOnGame &&
      st.redirige (.autre (.autre MsgType.GET_HISTORY.toNat)) ==
        some (st.roomId, ⟨1, .autre MsgType.GET_HISTORY.toNat⟩)) (by decide +kernel)
  simp only [Bool.and_eq_true, beq_iff_eq] at hp
  obtain ⟨⟨⟨⟨⟨hc, hrepos⟩, hs⟩, hl⟩, hg⟩, hredirige⟩ := hp
  refine ⟨st, hr, hc, hrepos, hs, hl, hg, hredirige, fun hd => ?_⟩
  exact (hd hc hrepos (Or.inl hs)).2 _ _ _ hredirige rfl

/-- ROOM_CLOSED lets the player back to the menu. -/
theorem joue_dehors : ∃ st, Runs.exec (etape (serveurDe Map.petite)) (fun p st => prevenu p st = true) joue
      (new 1 1 1 petiteBase) = some st ∧
    st.connected = true ∧ st.auRepos = true ∧ st.salle.lieu = .fini ∧ st.isOnGame = false ∧ st.Dehors := by
  obtain ⟨st, hst, hr, hp⟩ := Runs.exists_of_exec (etape (serveurDe Map.petite))
    (fun p st => prevenu p st = true)
    (show Depart (new 1 1 1 petiteBase) from ⟨1, 1, 1, petiteBase, rfl⟩) joue
    (fun st => st.connected && st.auRepos && st.salle.lieu == .fini && !st.isOnGame) (by decide +kernel)
  simp only [Bool.and_eq_true, beq_iff_eq, Bool.not_eq_true'] at hp
  obtain ⟨⟨⟨hc, hrepos⟩, hl⟩, hg⟩ := hp
  exact ⟨st, hst, hc, hrepos, hl, hg, (dehors_of_reach (serveurDe Map.petite) st hr).1⟩

end Connexion
end LombricABrac
