import LombricABrac.Tables
import LombricABrac.Lib.Mutex
import LombricABrac.Requests
import LombricABrac.Partie

/-!
# The instructions of a client

`handle_instruction` of `Server/src/utils.cpp`, with `register_user` and `ask_friendship_list`.  What it
does besides the tables is kept, in order, in `journal`: its locks and releases, the reception of a body,
what goes to the client and what is published.

    calme_authentifie    : the cases of a user who is logged in leave the tables' mutex alone
    journal_instruction  : it is locked first, and released last unless a registration is refused
    rendu_iff            : it is released exactly where no registration is refused
    inscription_refusee  : a pseudonym that is taken
-/

namespace LombricABrac

/-! ## What it works with -/

inductive Verrou where
  | dataBase
  | pub
  deriving DecidableEq

/-- `History`. -/
structure Histoire where
  pseudo : List String
  point : List Nat
  date : Nat
  deriving DecidableEq

/-- What is written to the socket of the client. -/
inductive Poste where
  | authentificationResponse (ok : Bool)
  | serverMessageTransfer (msgs : List (String × String))
  | getLombricNamesResponse (lombs : List String)
  | serverHistoryResponse (history : List Histoire)
  | serverRankResponse (players : List (String × Nat))
  | clientAsksAllInvitations (invits : List String)
  | serverRespondsFriendshipList (user : List String)
  | serverReceiveInvite (zmqMsg : List UInt8)
  | notif (zmqMsg : List UInt8)
  deriving DecidableEq

/-- What is published, on the channel of the broker or on that of a room. -/
inductive Diffusion where
  | chatBroker (receiverId : Nat) (pseudo msg : String)
  | serverReceiveInvite (receiverId : Nat) (pseudo : String) (type : Bool) (gameId : Nat)
  | clientCreateRoom (usrId : Nat)
  | clientLookupMatch (receiverId : Nat)
  | room (gameUrl : String) (type : MsgType) (usrId : Nat) (message : List UInt8)
  deriving DecidableEq

inductive Geste where
  | verrouille (v : Verrou)
  | libere (v : Verrou)
  | recoit
  | envoie (p : Poste)
  | publie (d : Diffusion)
  deriving DecidableEq

structure ConnectedPlayer where
  isregister : Bool
  pseudo : String
  password : String
  isAuth : Bool
  id : Int
  deriving DecidableEq

/-- What `ParseFromString` makes of a body. -/
structure Lecture where
  userConnect : List UInt8 → Bool × String × String
  chat : List UInt8 → String × String
  convo : List UInt8 → String
  invitation : List UInt8 → String
  lombMod : List UInt8 → Nat × String
  getHistory : List UInt8 → String × Nat × Nat
  getRank : List UInt8 → Nat × Nat
  friAdd : List UInt8 → String
  friAccept : List UInt8 → Bool × String
  friRmv : List UInt8 → String

/-- The libraries, the salt of each hash with it, and what a variable holds that is not set. -/
structure Outils where
  sql : Sqlite
  checkpw : String → String → Bool
  hashpw : Nat → String → String
  lecture : Lecture
  indefini : Int

/-- The tables and the number of statements so far, the user of the connection and what was done. -/
structure Contexte where
  tables : Tables
  pas : Nat
  usr : ConnectedPlayer
  journal : List Geste

namespace Contexte

variable (o : Outils)

def note (l : List Geste) (c : Contexte) : Contexte := { c with journal := c.journal ++ l }

def publie (d : Diffusion) (c : Contexte) : Contexte :=
  c.note [.verrouille .pub, .publie d, .libere .pub]

/-- A statement without a string of the user: it reads, or writes. -/
def lit {α : Type} (f : Tables → α) (defaut : α) (c : Contexte) : α × Contexte :=
  (if o.sql.ok c.pas then f c.tables else defaut, { c with pas := c.pas + 1 })

def ecrit (f : Tables → Tables) (c : Contexte) : Contexte :=
  { c with tables := if o.sql.ok c.pas then f c.tables else c.tables, pas := c.pas + 1 }

/-- A statement with one. -/
def exec (r : Ordre) (c : Contexte) : Reponse × Contexte :=
  let rep := o.sql.exec c.pas r c.tables
  (rep, { c with tables := rep.tables, pas := c.pas + 1 })

/-- `db.get_user_id(username, &id)`, where `id` holds `avant`. -/
def getUserId (username : String) (avant : Int) (c : Contexte) : Int × Contexte :=
  let (rep, c) := c.exec o (.getUserId username)
  (rep.entiers.getLast?.getD avant, c)

/-- `db.get_user_username(user_id, &username)`. -/
def getUserUsername (userId : Int) (avant : String) (c : Contexte) : String × Contexte :=
  c.lit o (fun t => (t.noms [userId]).getLast?.getD avant) avant

/-! ## Authentication -/

/-- `usr->ParseFromString`. -/
def parse (recu : List UInt8) (c : Contexte) : Contexte :=
  let (isregister, pseudo, password) := o.lecture.userConnect recu
  { c with usr := { c.usr with isregister, pseudo, password } }

def checkPasswd (passwd : String) (c : Contexte) : Bool × Contexte :=
  let (rep, c) := c.exec o (.getPasswd c.usr.pseudo)
  (o.checkpw passwd (rep.textes.getLast?.getD ""), c)

/-- The eight worms of a new user, `i` and the following. -/
def addLombrics (userId : Int) : Nat → Nat → Contexte → Contexte
  | 0, _, c => c
  | n + 1, i, c => addLombrics userId n (i + 1) (c.ecrit o fun t => t.addLombric userId i "anélonyme")

def registerUser (c : Contexte) : Nat × Contexte :=
  let (id, c) := c.getUserId o c.usr.pseudo 0
  if 0 < id then (0, c.note [.envoie (.authentificationResponse false)])
  else
    let c := (c.exec o (.registerUser c.usr.pseudo (o.hashpw c.pas c.usr.password))).2
    let (userId, c) := c.getUserId o c.usr.pseudo o.indefini
    let c := (c.exec o (.connectUser true c.usr.pseudo)).2
    let c := { c with usr := { c.usr with id := userId, isAuth := true } }
    let c := c.addLombrics o userId 8 0
    (1, c.note [.envoie (.authentificationResponse true), .libere .dataBase])

/-- The case of a log-in; `none` goes on to the end of `handle_instruction`. -/
def connexion (c : Contexte) : Option Nat × Contexte :=
  let (accepte, c) := c.checkPasswd o c.usr.password
  if accepte then
    let (userId, c) := c.getUserId o c.usr.pseudo o.indefini
    let c := { c with usr := { c.usr with id := userId, isAuth := true } }
    let c := c.note [.envoie (.authentificationResponse true)]
    let c := (c.exec o (.connectUser true c.usr.pseudo)).2
    (some 1, c.note [.libere .dataBase])
  else (none, c.note [.envoie (.authentificationResponse false)])

/-! ## The cases of a user who is logged in -/

def clientSendMessage (recu : List UInt8) (c : Contexte) : Contexte :=
  let c := c.note [.recoit]
  let (pseudo, msg) := o.lecture.chat recu
  let (receiverId, c) := c.getUserId o pseudo o.indefini
  let c := (c.exec o (.sendMessage c.usr.id receiverId msg)).2
  c.publie (.chatBroker (u32 receiverId) c.usr.pseudo msg)

/-- The loop of GET_CONVO: the names of the senders. -/
def auteurs : List (String × Int) → Contexte → List (String × String) × Contexte
  | [], c => ([], c)
  | (msg, id) :: msgs, c =>
    let (pseudo, c) := c.getUserUsername o id ""
    let (suite, c) := auteurs msgs c
    ((pseudo, msg) :: suite, c)

def getConvo (recu : List UInt8) (c : Contexte) : Contexte :=
  let c := c.note [.recoit]
  let (friendId, c) := c.getUserId o (o.lecture.convo recu) o.indefini
  let userId := c.usr.id
  let (msgs, c) := c.lit o (fun t => t.getConvo userId friendId) []
  let (msgs, c) := c.auteurs o msgs
  c.note [.envoie (.serverMessageTransfer msgs)]

def getLombricNames (c : Contexte) : Contexte :=
  let userId := c.usr.id
  let (lombs, c) := c.lit o (fun t => t.getLombrics userId) []
  c.note [.envoie (.getLombricNamesResponse lombs)]

def updateLombricsNames (recu : List UInt8) (c : Contexte) : Contexte :=
  let c := c.note [.recoit]
  let (idLomb, nameLomb) := o.lecture.lombMod recu
  (c.exec o (.setLombricName (Partie.int32 idLomb) c.usr.id nameLomb)).2

/-- The pseudonyms of a game; the variable keeps the last name read. -/
def pseudos : List Nat → String → Contexte → List String × Contexte
  | [], _, c => ([], c)
  | id :: ids, username, c =>
    let (username, c) := if id ≠ 0 then c.getUserUsername o id username else ("", c)
    let (suite, c) := pseudos ids username c
    (username :: suite, c)

/-- The loop of GET_HISTORY; the first user is looked up whatever its id. -/
def parties : List PartieRow → Contexte → List Histoire × Contexte
  | [], c => ([], c)
  | h :: hs, c =>
    let (pseudo1, c) := c.getUserUsername o (h.userId 0) ""
    let (autres, c) := c.pseudos o [h.userId 1, h.userId 2, h.userId 3] pseudo1
    let (suite, c) := parties hs c
    (⟨pseudo1 :: autres, (List.ofFn h.points).map u32, h.timestamp⟩ :: suite, c)

def getHistory (recu : List UInt8) (c : Contexte) : Contexte :=
  let c := c.note [.recoit]
  let (pseudo, firstGame, nbrGame) := o.lecture.getHistory recu
  let (userId, c) := c.getUserId o pseudo o.indefini
  let (rows, c) := c.lit o (fun t => t.getHistory userId (Partie.int32 firstGame) (Partie.int32 nbrGame)) []
  let (history, c) := c.parties o rows
  c.note [.envoie (.serverHistoryResponse history)]

def getRank (recu : List UInt8) (c : Contexte) : Contexte :=
  let c := c.note [.recoit]
  let (firstPlayer, nbrPlayer) := o.lecture.getRank recu
  let (players, c) := c.lit o (fun t => t.getRank (Partie.int32 firstPlayer) (Partie.int32 nbrPlayer)) []
  c.note [.envoie (.serverRankResponse (players.map fun p => (p.1, u32 p.2)))]

def clientAskFriendship (recu : List UInt8) (c : Contexte) : Contexte :=
  let c := c.note [.recoit]
  let user := o.lecture.friAdd recu
  let (friendId, c) := c.getUserId o user o.indefini
  let userId := c.usr.id
  let (friendList, c) := c.lit o (fun t => t.getAllFriendList userId) []
  if user ∈ friendList then c
  else
    let c := c.ecrit o fun t => t.addFriend userId friendId
    let (online, c) := c.lit o (fun t => (t.isOnline friendId).getD false) false
    if online then c.publie (.serverReceiveInvite (u32 friendId) c.usr.pseudo false 0) else c

def clientAsksAllInvitations (c : Contexte) : Contexte :=
  let userId := c.usr.id
  let (invits, c) := c.lit o (fun t => t.getFriendInvites userId) []
  c.note [.envoie (.clientAsksAllInvitations invits)]

def clientAcceptFriendship (recu : List UInt8) (c : Contexte) : Contexte :=
  let c := c.note [.recoit]
  let (accept, user) := o.lecture.friAccept recu
  let (friendId, c) := c.getUserId o user o.indefini
  let userId := c.usr.id
  if accept then c.ecrit o fun t => t.acceptFriendInvite userId friendId
  else c.ecrit o fun t => t.removeFriend userId friendId

def askFriendshipList (c : Contexte) : Contexte :=
  let userId := c.usr.id
  let (user, c) := c.lit o (fun t => t.getFriendList userId) []
  c.note [.envoie (.serverRespondsFriendshipList user)]

def clientDeleteFriendship (recu : List UInt8) (c : Contexte) : Contexte :=
  let c := c.note [.recoit]
  let (friendId, c) := c.getUserId o (o.lecture.friRmv recu) o.indefini
  let userId := c.usr.id
  c.ecrit o fun t => t.removeFriend userId friendId

def deco (c : Contexte) : Contexte :=
  let c := (c.exec o (.connectUser false c.usr.pseudo)).2
  { c with usr := { c.usr with id := -1 } }

open MsgType

/-- The `switch`. -/
def authentifie (type : MsgType) (recu zmqMsg : List UInt8) (c : Contexte) : Contexte :=
  match type with
  | CLIENT_SEND_MESSAGE => c.clientSendMessage o recu
  | GET_CONVO => c.getConvo o recu
  | CLIENT_SEND_INVITE => c.note [.recoit]
  | GET_LOMBRIC_NAMES => c.getLombricNames o
  | UPDATE_LOMBRICS_NAMES => c.updateLombricsNames o recu
  | GET_HISTORY => c.getHistory o recu
  | GET_RANK => c.getRank o recu
  | CLIENT_ASK_FRIENDSHIP => c.clientAskFriendship o recu
  | CLIENT_ASKS_ALL_INVITATIONS => c.clientAsksAllInvitations o
  | CLIENT_ACCEPT_FRIENDSHIP => c.clientAcceptFriendship o recu
  | CLIENT_ASK_FRIENDSHIP_LIST => c.askFriendshipList o
  | SERVER_RECEIVE_INVITE => c.note [.envoie (.serverReceiveInvite zmqMsg)]
  | CLIENT_DELETE_FRIENDSHIP => c.clientDeleteFriendship o recu
  | CLIENT_CREATE_ROOM => c.publie (.clientCreateRoom (u32 c.usr.id))
  | CHAT_BROKER => c.note [.envoie (.notif zmqMsg)]
  | DECO => c.deco o
  | CLIENT_LOOKUP_MATCH => c.publie (.clientLookupMatch (u32 c.usr.id))
  | _ => c

/-- `recu` is what the buffer holds after a reception.  The result 1 is `USER_CONNECTED`. -/
def handleInstruction (type : MsgType) (recu zmqMsg : List UInt8) (c : Contexte) : Nat × Contexte :=
  let c := c.note [.verrouille .dataBase]
  if type = CLIENT_AUTHENTIFICATION then
    let c := (c.note [.recoit]).parse o recu
    if c.usr.isregister then
      match c.connexion o with
      | (some res, c) => (res, c)
      | (none, c) => (0, c.note [.libere .dataBase])
    else c.registerUser o
  else
    let c := if c.usr.isAuth then c.authentifie o type recu zmqMsg else c
    (0, c.note [.libere .dataBase])

/-- `send_room_invite`, which locks on its own. -/
def sendRoomInvite (recu : List UInt8) (c : Contexte) : Bool × Contexte :=
  let c := c.note [.recoit, .verrouille .dataBase]
  let (friendId, c) := c.getUserId o (o.lecture.invitation recu) o.indefini
  let userId := c.usr.id
  let (online, c) := c.lit o (fun t => (t.isOnline friendId).getD false) false
  let (roomId, c) := c.lit o (fun t => ((t.getRoomIdFromOwnerId userId).map Int.ofNat).getD o.indefini)
    o.indefini
  let c := c.note [.libere .dataBase]
  if online then (true, c.publie (.serverReceiveInvite (u32 friendId) c.usr.pseudo true (u32 roomId)))
  else (false, c)

end Contexte

/-! ## The mutexes -/

/-- What a gesture does to the mutexes. -/
def Geste.act : Geste → Option (Mutex.Act Verrou)
  | .verrouille v => some (.lock v)
  | .libere v => some (.unlock v)
  | _ => none

def verrous (l : List Geste) : List (Mutex.Act Verrou) := l.filterMap Geste.act

/-- What is added to the journal leaves the mutex of the tables alone and releases the other. -/
def Calme (j j' : List Geste) : Prop :=
  ∃ l, j' = j ++ l ∧ Mutex.Balanced (verrous l) ∧ .lock .dataBase ∉ verrous l ∧
    .unlock .dataBase ∉ verrous l

namespace Calme

variable {j j₁ j₂ : List Geste}

theorem trans (h : Calme j j₁) (h' : Calme j₁ j₂) : Calme j j₂ := by
  obtain ⟨l, hl, hb, hlock, hunlock⟩ := h
  obtain ⟨l', hl', hb', hlock', hunlock'⟩ := h'
  refine ⟨l ++ l', by rw [hl', hl, List.append_assoc], ?_, ?_, ?_⟩
  · rw [verrous, List.filterMap_append]
    exact hb.append hb'
  · rw [verrous, List.filterMap_append, List.mem_append, not_or]
    exact ⟨hlock, hlock'⟩
  · rw [verrous, List.filterMap_append, List.mem_append, not_or]
    exact ⟨hunlock, hunlock'⟩

theorem of_verrous {l : List Geste} (h : verrous l = []) (j : List Geste) : Calme j (j ++ l) := by
  refine ⟨l, rfl, ?_, ?_, ?_⟩ <;> rw [h]
  · exact Mutex.balanced_nil
  · exact List.not_mem_nil
  · exact List.not_mem_nil

theorem rien (j : List Geste) : Calme j j := by
  have h := of_verrous (l := []) rfl j
  rwa [List.append_nil] at h

theorem recoit (j : List Geste) : Calme j (j ++ [.recoit]) := of_verrous rfl j

theorem envoie (p : Poste) (j : List Geste) : Calme j (j ++ [.envoie p]) := of_verrous rfl j

theorem publie (d : Diffusion) (j : List Geste) :
    Calme j (j ++ [.verrouille .pub, .publie d, .libere .pub]) := by
  have hl : verrous [.verrouille .pub, .publie d, .libere .pub] = [.lock .pub, .unlock .pub] := rfl
  refine ⟨_, rfl, ?_, ?_, ?_⟩ <;> rw [hl]
  · exact Mutex.balanced_bracket Mutex.balanced_nil List.not_mem_nil List.not_mem_nil
  · decide
  · decide

end Calme

namespace Contexte

variable (o : Outils)

/-! ### The loops -/

theorem journal_addLombrics (userId : Int) (n : Nat) : ∀ (i : Nat) (c : Contexte),
    (c.addLombrics o userId n i).journal = c.journal := by
  induction n with
  | zero => exact fun _ _ => rfl
  | succ n ih => exact fun i c => ih (i + 1) _

theorem journal_auteurs (msgs : List (String × Int)) : ∀ c : Contexte,
    (c.auteurs o msgs).2.journal = c.journal := by
  induction msgs with
  | nil => exact fun _ => rfl
  | cons m msgs ih => exact fun c => ih _

theorem journal_pseudos (ids : List Nat) : ∀ (username : String) (c : Contexte),
    (c.pseudos o ids username).2.journal = c.journal := by
  induction ids with
  | nil => exact fun _ _ => rfl
  | cons id ids ih =>
    intro username c
    by_cases hid : id ≠ 0
    · simp only [pseudos, if_pos hid]
      exact ih _ _
    · simp only [pseudos, if_neg hid]
      exact ih _ _

theorem journal_parties (hs : List PartieRow) : ∀ c : Contexte,
    (c.parties o hs).2.journal = c.journal := by
  induction hs with
  | nil => exact fun _ => rfl
  | cons h hs ih =>
    intro c
    simp only [parties]
    rw [ih, journal_pseudos]
    rfl

/-! ### The cases -/

theorem calme_clientAskFriendship (recu : List UInt8) (c : Contexte) :
    Calme c.journal (c.clientAskFriendship o recu).journal := by
  unfold clientAskFriendship
  simp only
  split
  · exact Calme.recoit _
  · split
    · exact (Calme.recoit _).trans (Calme.publie _ _)
    · exact Calme.recoit _

theorem calme_clientAcceptFriendship (recu : List UInt8) (c : Contexte) :
    Calme c.journal (c.clientAcceptFriendship o recu).journal := by
  unfold clientAcceptFriendship
  simp only
  split
  · exact Calme.recoit _
  · exact Calme.recoit _

theorem calme_getConvo (recu : List UInt8) (c : Contexte) :
    Calme c.journal (c.getConvo o recu).journal := by
  refine Calme.trans ?_ (Calme.envoie _ _)
  rw [journal_auteurs]
  exact Calme.recoit _

theorem calme_getHistory (recu : List UInt8) (c : Contexte) :
    Calme c.journal (c.getHistory o recu).journal := by
  refine Calme.trans ?_ (Calme.envoie _ _)
  rw [journal_parties]
  exact Calme.recoit _

/-- **Who is logged in** leaves the mutex of the tables alone, whatever the request. -/
theorem calme_authentifie (type : MsgType) (recu zmqMsg : List UInt8) (c : Contexte) :
    Calme c.journal (c.authentifie o type recu zmqMsg).journal := by
  unfold authentifie
  split
  · exact (Calme.recoit _).trans (Calme.publie _ _)
  · exact calme_getConvo o recu c
  · exact Calme.recoit _
  · exact Calme.envoie _ _
  · exact Calme.recoit _
  · exact calme_getHistory o recu c
  · exact (Calme.recoit _).trans (Calme.envoie _ _)
  · exact calme_clientAskFriendship o recu c
  · exact Calme.envoie _ _
  · exact calme_clientAcceptFriendship o recu c
  · exact Calme.envoie _ _
  · exact Calme.envoie _ _
  · exact Calme.recoit _
  · exact Calme.publie _ _
  · exact Calme.envoie _ _
  · exact Calme.rien _
  · exact Calme.publie _ _
  · exact Calme.rien _

/-! ### A call -/

theorem journal_registerUser (c : Contexte) : (c.registerUser o).2.journal =
    if 0 < (c.getUserId o c.usr.pseudo 0).1 then c.journal ++ [.envoie (.authentificationResponse false)]
    else c.journal ++ [.envoie (.authentificationResponse true), .libere .dataBase] := by
  unfold registerUser
  simp only
  split
  · rfl
  · rw [note, journal_addLombrics]
    rfl

/-- A log-in is accepted, or it goes on to the end. -/
theorem connexion_cases (c : Contexte) :
    (∃ c', c.connexion o = (some 1, c') ∧
      c'.journal = c.journal ++ [.envoie (.authentificationResponse true)] ++ [.libere .dataBase]) ∨
    ∃ c', c.connexion o = (none, c') ∧
      c'.journal = c.journal ++ [.envoie (.authentificationResponse false)] := by
  unfold connexion
  simp only
  split
  · exact Or.inl ⟨_, rfl, rfl⟩
  · exact Or.inr ⟨_, rfl, rfl⟩

/-- A registration whose pseudonym `get_user_id` finds, with an id that is positive. -/
def inscriptionRefusee (type : MsgType) (recu : List UInt8) (c : Contexte) : Bool :=
  decide (type = MsgType.CLIENT_AUTHENTIFICATION) && !(c.parse o recu).usr.isregister &&
    decide (0 < ((c.parse o recu).getUserId o (c.parse o recu).usr.pseudo 0).1)

/-- **What a call does**: it locks the tables, and releases them unless it refuses a registration. -/
theorem journal_instruction (type : MsgType) (recu zmqMsg : List UInt8) (c : Contexte) :
    ∃ j, Calme (c.journal ++ [.verrouille .dataBase]) j ∧
      (c.handleInstruction o type recu zmqMsg).2.journal =
        j ++ if c.inscriptionRefusee o type recu then [] else [.libere .dataBase] := by
  by_cases htype : type = MsgType.CLIENT_AUTHENTIFICATION
  · unfold handleInstruction inscriptionRefusee
    rw [if_pos htype, decide_eq_true htype, Bool.true_and]
    -- the locks change nothing of what is parsed
    generalize hc' : ((c.note [.verrouille .dataBase]).note [.recoit]).parse o recu = c'
    have husr : (c.parse o recu).usr = c'.usr := by rw [← hc']; rfl
    have hid : ((c.parse o recu).getUserId o c'.usr.pseudo 0).1 =
        (c'.getUserId o c'.usr.pseudo 0).1 := by rw [← hc']; rfl
    have hj : Calme (c.journal ++ [.verrouille .dataBase]) c'.journal := by
      rw [← hc']
      exact Calme.recoit _
    rw [husr, hid]
    simp only
    cases hreg : c'.usr.isregister with
    | true =>
      rw [if_pos rfl]
      rcases c'.connexion_cases o with ⟨c'', hcon, hj'⟩ | ⟨c'', hcon, hj'⟩
      · rw [hcon]
        exact ⟨_, hj.trans (Calme.envoie _ _), hj'⟩
      · rw [hcon]
        refine ⟨c''.journal, ?_, rfl⟩
        rw [hj']
        exact hj.trans (Calme.envoie _ _)
    | false =>
      rw [if_neg Bool.false_ne_true, journal_registerUser]
      by_cases hpos : 0 < (c'.getUserId o c'.usr.pseudo 0).1
      · rw [if_pos hpos, decide_eq_true hpos]
        exact ⟨_, hj.trans (Calme.envoie _ _), (List.append_nil _).symm⟩
      · rw [if_neg hpos, decide_eq_false hpos]
        refine ⟨_, hj.trans (Calme.envoie (.authentificationResponse true) _), ?_⟩
        rw [List.append_assoc]
        rfl
  · have hno : c.inscriptionRefusee o type recu = false := by simp [inscriptionRefusee, htype]
    unfold handleInstruction
    rw [if_neg htype, hno]
    refine ⟨_, ?_, rfl⟩
    split
    · exact calme_authentifie o type recu zmqMsg _
    · exact Calme.rien _

end Contexte

/-! ## The mutex is released -/

/-- What is added to the journal locks the tables once, and has them released at the end. -/
def Rendu (j j' : List Geste) : Prop :=
  ∃ l, j' = j ++ l ∧ (verrous l).count (.lock .dataBase) = 1 ∧
    Mutex.holds .dataBase false (verrous l) = some false

namespace Contexte

variable (o : Outils)

/-- What a call does to the mutexes. -/
def verrousInstruction (type : MsgType) (recu zmqMsg : List UInt8) (c : Contexte) :
    List (Mutex.Act Verrou) :=
  verrous ((c.handleInstruction o type recu zmqMsg).2.journal.drop c.journal.length)

theorem verrousInstruction_cases (type : MsgType) (recu zmqMsg : List UInt8) (c : Contexte) :
    (∃ l, (c.handleInstruction o type recu zmqMsg).2.journal = c.journal ++ l) ∧
    ∃ l, Mutex.Balanced l ∧ .lock .dataBase ∉ l ∧ .unlock .dataBase ∉ l ∧
      c.verrousInstruction o type recu zmqMsg =
        .lock .dataBase :: l ++ if c.inscriptionRefusee o type recu then [] else [.unlock .dataBase] := by
  obtain ⟨j, ⟨l, rfl, hb, hl, hu⟩, hj⟩ := c.journal_instruction o type recu zmqMsg
  rw [List.append_assoc, List.append_assoc] at hj
  refine ⟨⟨_, hj⟩, verrous l, hb, hl, hu, ?_⟩
  rw [verrousInstruction, hj, List.drop_left]
  unfold verrous
  rw [List.filterMap_append, List.filterMap_append]
  split
  · rfl
  · rfl

/-- **One call.** -/
theorem rendu_instruction (type : MsgType) (recu zmqMsg : List UInt8) (c : Contexte) :
    Rendu c.journal (c.handleInstruction o type recu zmqMsg).2.journal ↔
      c.inscriptionRefusee o type recu = false := by
  obtain ⟨⟨l, hj⟩, lv, _, hl, hu, hv⟩ := c.verrousInstruction_cases o type recu zmqMsg
  rw [verrousInstruction, hj, List.drop_left] at hv
  have hrendu : Rendu c.journal (c.handleInstruction o type recu zmqMsg).2.journal ↔
      (verrous l).count (.lock .dataBase) = 1 ∧
        Mutex.holds .dataBase false (verrous l) = some false := by
    constructor
    · rintro ⟨l', hj', h⟩
      rw [hj] at hj'
      rw [List.append_cancel_left hj']
      exact h
    · exact fun h => ⟨l, hj, h⟩
  have hcount : lv.count (.lock .dataBase) = 0 := List.count_eq_zero.mpr hl
  have hholds : ∀ fin, Mutex.holds .dataBase false (.lock .dataBase :: lv ++ fin) =
      Mutex.holds .dataBase true fin := by
    intro fin
    rw [List.cons_append, Mutex.holds, if_pos rfl, Mutex.holds_append, Mutex.holds_of_not_mem hl hu]
    rfl
  rw [hrendu, hv, hholds, List.cons_append, List.count_cons_self, List.count_append, hcount]
  cases c.inscriptionRefusee o type recu with
  | true => exact iff_of_false (fun h => absurd h.2 (by decide)) (by decide)
  | false => exact iff_of_true ⟨by decide, by decide⟩ rfl

theorem balanced_instruction {type : MsgType} {recu : List UInt8} {c : Contexte}
    (h : c.inscriptionRefusee o type recu = false) (zmqMsg : List UInt8) :
    Mutex.Balanced (c.verrousInstruction o type recu zmqMsg) := by
  obtain ⟨_, lv, hb, hl, hu, hv⟩ := c.verrousInstruction_cases o type recu zmqMsg
  rw [hv, h]
  exact Mutex.balanced_bracket hb hl hu

/-- An invitation to a room locks the tables for its lookups only. -/
theorem balanced_sendRoomInvite (recu : List UInt8) (c : Contexte) :
    Mutex.Balanced (verrous ((c.sendRoomInvite o recu).2.journal.drop c.journal.length)) := by
  have hbase : Mutex.Balanced [.lock Verrou.dataBase, .unlock .dataBase] :=
    Mutex.balanced_bracket Mutex.balanced_nil List.not_mem_nil List.not_mem_nil
  have hpub : Mutex.Balanced [.lock Verrou.pub, .unlock .pub] :=
    Mutex.balanced_bracket Mutex.balanced_nil List.not_mem_nil List.not_mem_nil
  unfold sendRoomInvite
  simp only
  split
  · have hj : ∀ d, ((((c.note [.recoit, .verrouille .dataBase]).note [.libere .dataBase]).publie d).journal.drop
        c.journal.length) = [.recoit, .verrouille .dataBase, .libere .dataBase, .verrouille .pub,
          .publie d, .libere .pub] := by
      intro d
      simp [note, Contexte.publie]
    exact (hj _).symm ▸ hbase.append hpub
  · have hj : ((c.note [.recoit, .verrouille .dataBase]).note [.libere .dataBase]).journal.drop
        c.journal.length = [.recoit, .verrouille .dataBase, .libere .dataBase] := by
      simp [note]
    exact hj.symm ▸ hbase

end Contexte

/-! ## Threads -/

/-- What `client_thread` calls that locks. -/
inductive Appel where
  | handleInstruction (o : Outils) (type : MsgType) (recu zmqMsg : List UInt8) (c : Contexte)
  | sendRoomInvite (o : Outils) (recu : List UInt8) (c : Contexte)
  | publie (d : Diffusion) (c : Contexte)

namespace Appel

def verrous : Appel → List (Mutex.Act Verrou)
  | handleInstruction o type recu zmqMsg c => c.verrousInstruction o type recu zmqMsg
  | sendRoomInvite o recu c => LombricABrac.verrous ((c.sendRoomInvite o recu).2.journal.drop c.journal.length)
  | publie d c => LombricABrac.verrous ((c.publie d).journal.drop c.journal.length)

/-- It refuses no registration. -/
def accepte : Appel → Bool
  | handleInstruction o type recu _ c => !c.inscriptionRefusee o type recu
  | _ => true

theorem balanced {a : Appel} (h : a.accepte = true) : Mutex.Balanced a.verrous := by
  cases a with
  | handleInstruction o type recu zmqMsg c =>
    rw [accepte, Bool.not_eq_true'] at h
    exact Contexte.balanced_instruction o h zmqMsg
  | sendRoomInvite o recu c => exact Contexte.balanced_sendRoomInvite o recu c
  | publie d c =>
    have hj : (c.publie d).journal.drop c.journal.length =
        [.verrouille .pub, .publie d, .libere .pub] := List.drop_left
    rw [verrous, hj]
    exact Mutex.balanced_bracket Mutex.balanced_nil List.not_mem_nil List.not_mem_nil

end Appel

/-- The threads start calls that refuse no registration. -/
def appelAccepte {ι : Type} (e : Mutex.Event Verrou ι) (_ : Mutex.State Verrou ι) : Prop :=
  match e with
  | .start _ l => ∃ a : Appel, a.verrous = l ∧ a.accepte = true
  | .go _ => True

/-- **A call locks the tables once and releases them if and only if it refuses no registration**; with
such calls whoever has a mutex is in a call that is about to release it. -/
theorem rendu_iff (o : Outils) (type : MsgType) (recu zmqMsg : List UInt8) (c : Contexte) :
    (Rendu c.journal (c.handleInstruction o type recu zmqMsg).2.journal ↔
      c.inscriptionRefusee o type recu = false) ∧
    ∀ (ι : Type) [DecidableEq ι] (s : Mutex.State Verrou ι),
      Runs.Reach Mutex.step appelAccepte (fun s => s = Mutex.State.idle) s → ∀ i v, s.owner v = some i →
        .unlock v ∈ s.rest i ∧ ∀ l, s.rest i ≠ .lock v :: l := by
  refine ⟨c.rendu_instruction o type recu zmqMsg, fun ι _ s h i v ho => ?_⟩
  refine Mutex.released_of_reach (h.mono fun e s he => ?_) ho
  cases e with
  | start i l =>
    obtain ⟨a, rfl, ha⟩ := he
    exact Appel.balanced ha
  | go i => trivial

/-! ## A pseudonym that is taken -/

def inscription : List UInt8 := [18, 1, 97, 26, 1, 98]

def outilsSimples : Outils where
  sql := ⟨fun _ => true, fun n => n, fun _ t => ⟨t, [], []⟩⟩
  checkpw p h := p = h
  hashpw _ p := p
  lecture := {
    userConnect := fun b => if b = inscription then (false, "a", "b") else (false, "", "")
    chat := fun _ => ("", "")
    convo := fun _ => ""
    invitation := fun _ => ""
    lombMod := fun _ => (0, "")
    getHistory := fun _ => ("", 0, 0)
    getRank := fun _ => (0, 0)
    friAdd := fun _ => ""
    friAccept := fun _ => (false, "")
    friRmv := fun _ => "" }
  indefini := 0

/-- A connection on which nobody is logged in; "a" has an account. -/
def pseudoPris : Contexte := ⟨⟨[⟨1, "a", "b", false, 0⟩], [], [], [], []⟩, 0, ⟨false, "", "", false, -1⟩, []⟩

/-- The registration of "a" is refused and the tables remain locked: the next call of another thread waits
for a thread that is in no call. -/
theorem inscription_refusee :
    let appel := Appel.handleInstruction outilsSimples .CLIENT_AUTHENTIFICATION inscription [] pseudoPris
    let fin := (pseudoPris.handleInstruction outilsSimples .CLIENT_AUTHENTIFICATION inscription []).2
    fin.journal = [.verrouille .dataBase, .recoit, .envoie (.authentificationResponse false)] ∧
    ¬ Rendu pseudoPris.journal fin.journal ∧
    (Runs.exec Mutex.step (fun _ _ => True) [.start 0 appel.verrous, .go 0, .start 1 appel.verrous]
      (Mutex.State.idle : Mutex.State Verrou Nat)).any fun s =>
        s.owner .dataBase = some 0 ∧ s.rest 0 = [] ∧ s.rest 1 ≠ [] ∧
          (Mutex.step (.go 1) s).isNone = true := by
  refine ⟨by decide +kernel, ?_, by decide +kernel⟩
  rw [Contexte.rendu_instruction]
  decide +kernel

end LombricABrac
