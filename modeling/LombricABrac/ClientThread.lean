import LombricABrac.Comptes
import LombricABrac.Voies
import LombricABrac.Lib.Runs

/-!
# The thread of a connection

`client_thread` of `Server/src/user_thread.cpp`, from the first request on its socket to the last, whoever
logs in on it.  A message of the broker or of a room has two parts, its address and its contents, which
arrive together; the thread takes one at a time, in two places of its loop.

    etape_lecture    : what a step takes of the parts that have arrived
    entieres_of_reach : the runs in which each message is taken as one unit
    joint_decale     : a join that is answered
-/

namespace LombricABrac

open MsgType

/-! ## Messages -/

/-- The contents of a message; those of ROOM_CLOSED are the text "56". -/
inductive ClientThread.Contents where
  | zmq (type : MsgType) (receiverId : Nat) (message : List UInt8)
  | roomClosed
  deriving DecidableEq

inductive ClientThread.Part where
  | adresse (v : Voie)
  | contenu (p : Contents)
  deriving DecidableEq

/-- A part, and the message that it is of. -/
structure ClientThread.Trame where
  numero : Nat
  part : Part
  deriving DecidableEq

/-- What the loop itself writes to the socket of the client. -/
inductive ClientThread.Ecrit where
  | message (type : MsgType) (message : List UInt8)
  | createRoomResponse
  | lookupResponse
  | joinResponse (ok : Bool)
  deriving DecidableEq

/-- Where the loop is: its first receive, its second with what the first gave, its client, or the receive
after a CLIENT_JOIN_REQUEST. -/
inductive ClientThread.Point where
  | tete
  | contents (address : Trame)
  | client
  | attend (gameUrl : String)
  deriving DecidableEq

/-- What `ParseFromString` makes of a `Join` too. -/
structure OutilsThread extends Outils where
  join : List UInt8 → Nat

/-- `boite` are the parts that have arrived, `livres` the number of messages so far, `poste` what the loop
has written and `unites` what it has taken of each message. -/
structure ClientThread where
  c : Contexte
  zmqMsg : List UInt8
  isOnGame : Bool
  gameUrl : String
  roomChannel : String
  connected : Bool
  abonnements : List Voie
  boite : List ClientThread.Trame
  livres : Nat
  point : ClientThread.Point
  poste : List ClientThread.Ecrit
  unites : List (ClientThread.Trame × Option ClientThread.Trame)

namespace ClientThread

def new (t : Tables) : ClientThread where
  c := ⟨t, 0, ⟨false, "", "", false, -1⟩, []⟩
  zmqMsg := []
  isOnGame := false
  gameUrl := ""
  roomChannel := ""
  connected := true
  abonnements := []
  boite := []
  livres := 0
  point := .tete
  poste := []
  unites := []

/-! ## What is read -/

/-- `zmqmsg.ParseFromString`, its type, its receiver and its message: an address sets none of them, nor
does "56", nor "". -/
def parse : Option Trame → MsgType × Nat × List UInt8
  | some ⟨_, .contenu (.zmq type receiverId message)⟩ => (type, receiverId, message)
  | _ => (0, 0, [])

/-- `address == channel`; contents are no channel. -/
def Trame.estVoie (channel : String) (a : Trame) : Bool :=
  match a.part with
  | .adresse v => v.texte == channel
  | .contenu _ => false

/-- `contents == std::to_string(ROOM_CLOSED)`. -/
def estRoomClosed : Option Trame → Bool
  | some ⟨_, .contenu .roomClosed⟩ => true
  | _ => false

/-- The bytes of a channel are characters. -/
def texteDe (message : List UInt8) : String := String.ofList (message.map fun b => Char.ofNat b.toNat)

/-! ## The parts of the loop -/

/-- `DataBase_mutex` is free, as far as this thread goes. -/
def libre (st : ClientThread) : Bool :=
  Mutex.holds Verrou.dataBase false (verrous st.c.journal) == some false

variable (o : OutilsThread)

/-- `handle_instruction`, which waits for the tables. -/
def instruction (type : MsgType) (recu : List UInt8) (st : ClientThread) : Option (Nat × ClientThread) :=
  if st.libre then
    let (res, c) := st.c.handleInstruction o.toOutils type recu st.zmqMsg
    some (res, { st with c })
  else none

/-- A message: `room_channel` during a game, the broker's answers, or `handle_instruction`. -/
def traite (address : Trame) (contents : Option Trame) (st : ClientThread) : Option ClientThread :=
  let (type, receiverId, message) := parse contents
  let st := { st with zmqMsg := message, point := .tete, unites := st.unites ++ [(address, contents)] }
  if st.isOnGame ∧ address.estVoie st.roomChannel then
    if estRoomClosed contents then some { st with isOnGame := false }
    else some { st with poste := st.poste ++ [.message type message] }
  else if type = CLIENT_CREATE_ROOM_RESPONSE then
    some { st with
      isOnGame := true
      gameUrl := texteDe message
      poste := st.poste ++ [.createRoomResponse] }
  else if type = CLIENT_LOOKUP_RESPONSE then
    some { st with
      isOnGame := true
      gameUrl := (Voie.salle receiverId).texte
      poste := st.poste ++ [.lookupResponse] }
  else (st.instruction o type []).map Prod.snd

/-- A receive of one part; the one after a CLIENT_JOIN_REQUEST looks no further. -/
def recoit (b : Trame) (st : ClientThread) : Option ClientThread :=
  match st.point with
  | .tete => if st.c.usr.isAuth then some { st with point := .contents b } else none
  | .contents a => st.traite o a (some b)
  | .attend gameUrl => some { st with
      isOnGame := true
      gameUrl
      point := .tete
      poste := st.poste ++ [.joinResponse true]
      unites := st.unites ++ [(b, none)] }
  | .client => none

/-- A receive that times out gives "". -/
def expire (st : ClientThread) : Option ClientThread :=
  match st.point with
  | .tete => if st.c.usr.isAuth then some { st with point := .client } else none
  | .contents a => st.traite o a none
  | .attend _ => some { st with point := .tete, poste := st.poste ++ [.joinResponse false] }
  | .client => none

/-- A request for the room: two types have no body. -/
def redirige (type : MsgType) (recu : List UInt8) (st : ClientThread) : Contexte :=
  if type ≠ INFO_ROOM ∧ type ≠ START then
    (st.c.note [.recoit]).publie (.room st.gameUrl type (u32 st.c.usr.id) recu)
  else st.c.publie (.room st.gameUrl type (u32 st.c.usr.id) "msg".toUTF8.toList)

/-- `recu` is what the buffer holds after a reception. -/
def join (recu : List UInt8) (st : ClientThread) : ClientThread :=
  let gameUrl := (Voie.salle (Partie.int32 (o.join recu))).texte
  { st with
    c := (st.c.note [.recoit]).publie (.room gameUrl PING (u32 st.c.usr.id) "ping".toUTF8.toList)
    point := .attend gameUrl }

/-- USER_CONNECTED: the two channels of the user. -/
def abonne (st : ClientThread) : ClientThread :=
  { st with
    roomChannel := (Voie.joueur st.c.usr.id).texte
    abonnements := st.abonnements ++ [.broker st.c.usr.id, .joueur st.c.usr.id] }

def requete (type : MsgType) (recu : List UInt8) (st : ClientThread) : Option ClientThread :=
  if st.isOnGame then
    if type = CLIENT_ASK_FRIENDSHIP_LIST then
      some { st with c := st.c.askFriendshipList o.toOutils, point := .tete }
    else if type = CLIENT_SEND_INVITE then
      if st.libre then some { st with c := (st.c.sendRoomInvite o.toOutils recu).2, point := .tete } else none
    else some { st with c := st.redirige type recu, point := .tete }
  else if type = CLIENT_JOIN_REQUEST then some (st.join o recu)
  else (st.instruction o type recu).map fun (res, st) =>
    { (if res = 1 then st.abonne else st) with point := .tete }

/-- The end of the thread. -/
def ferme (st : ClientThread) : ClientThread :=
  { st with
    c := if st.isOnGame then
        st.c.publie (.room st.gameUrl CLIENT_QUIT_ROOM (u32 st.c.usr.id) st.c.usr.pseudo.toUTF8.toList)
      else st.c
    connected := false }

/-! ## Steps -/

/-- The requests of `handle_instruction`; the other threads publish none to a user. -/
def demandes : List MsgType :=
  [CLIENT_AUTHENTIFICATION, CLIENT_SEND_MESSAGE, GET_CONVO, CLIENT_SEND_INVITE, GET_LOMBRIC_NAMES,
    UPDATE_LOMBRICS_NAMES, GET_HISTORY, GET_RANK, CLIENT_ASK_FRIENDSHIP, CLIENT_ASKS_ALL_INVITATIONS,
    CLIENT_ACCEPT_FRIENDSHIP, CLIENT_ASK_FRIENDSHIP_LIST, CLIENT_DELETE_FRIENDSHIP, CLIENT_CREATE_ROOM,
    DECO, CLIENT_LOOKUP_MATCH]

def Contents.estDemande : Contents → Bool
  | .zmq type _ _ => decide (type ∈ demandes)
  | .roomClosed => false

/-- Another thread changes the tables, or publishes a message on a channel; the thread receives, does not,
or turns to its client. -/
inductive Pas where
  | ailleurs (t : Tables)
  | livre (v : Voie) (p : Contents)
  | recoit
  | expire
  | requete (type : MsgType) (recu : List UInt8)
  | silence
  | ferme

/-- The thread reads the type of a request: 0 is none, and `EXIT_FAILURE` is 1. -/
def auClient (st : ClientThread) : Bool :=
  st.connected && (st.point == .client || st.point == .tete && !st.c.usr.isAuth)

def etape (p : Pas) (st : ClientThread) : Option ClientThread :=
  match p with
  | .ailleurs t => some { st with c := { st.c with tables := t } }
  | .livre v p =>
    if p.estDemande then none
    else if st.abonnements.any fun w => w.prend v then
      some { st with
        boite := st.boite ++ [⟨st.livres, .adresse v⟩, ⟨st.livres, .contenu p⟩]
        livres := st.livres + 1 }
    else some st
  | .recoit =>
    match st.connected, st.boite with
    | true, b :: boite => { st with boite }.recoit o b
    | _, _ => none
  | .expire =>
    match st.connected, st.boite with
    | true, [] => st.expire o
    | _, _ => none
  | .requete type recu =>
    if st.auClient ∧ type ≠ 0 ∧ type ≠ 1 then st.requete o type recu else none
  | .silence => if st.auClient then some { st with point := .tete } else none
  | .ferme => if st.auClient then some st.ferme else none

def Depart (st : ClientThread) : Prop := ∃ t, st = new t

/-! ## Fields -/

section

variable {o : OutilsThread} {type : MsgType} {recu : List UInt8} {st st' : ClientThread}

/-- An instruction changes the context. -/
theorem instruction_cases {res : Nat} (h : st.instruction o type recu = some (res, st')) :
    st.libre = true ∧ res = (st.c.handleInstruction o.toOutils type recu st.zmqMsg).1 ∧
      st' = { st with c := (st.c.handleInstruction o.toOutils type recu st.zmqMsg).2 } := by
  unfold instruction at h
  split at h
  · next hl =>
    cases h
    exact ⟨hl, rfl, rfl⟩
  · cases h

/-- **A request** is answered or redirected during a game; else it asks to join, or it is an instruction. -/
theorem requete_cases (h : st.requete o type recu = some st') :
    (st.isOnGame = true ∧ ∃ c, st' = { st with c, point := .tete }) ∨
    (st.isOnGame = false ∧ type = CLIENT_JOIN_REQUEST ∧ st' = st.join o recu) ∨
    (st.isOnGame = false ∧ type ≠ CLIENT_JOIN_REQUEST ∧ ∃ c, st.libre = true ∧
      c = (st.c.handleInstruction o.toOutils type recu st.zmqMsg).2 ∧
      st' = { (if (st.c.handleInstruction o.toOutils type recu st.zmqMsg).1 = 1 then { st with c }.abonne
        else { st with c }) with point := .tete }) := by
  unfold requete at h
  split at h
  · next hg =>
    left
    refine ⟨hg, ?_⟩
    split at h
    · cases h
      exact ⟨_, rfl⟩
    · split at h
      · split at h
        · cases h
          exact ⟨_, rfl⟩
        · cases h
      · cases h
        exact ⟨_, rfl⟩
  · next hg =>
    right
    rw [Bool.not_eq_true] at hg
    split at h
    · next hj =>
      cases h
      exact Or.inl ⟨hg, hj, rfl⟩
    · next hj =>
      obtain ⟨⟨res, s⟩, hi, rfl⟩ := Option.map_eq_some_iff.mp h
      obtain ⟨hl, rfl, rfl⟩ := instruction_cases hi
      exact Or.inr ⟨hg, hj, _, hl, rfl, rfl⟩

/-- **A message** that is taken leaves the parts that have arrived. -/
theorem traite_cases {a : Trame} {b : Option Trame} (h : st.traite o a b = some st') :
    st'.boite = st.boite ∧ st'.livres = st.livres ∧ st'.point = .tete ∧
      st'.unites = st.unites ++ [(a, b)] ∧ st'.abonnements = st.abonnements := by
  unfold traite at h
  simp only at h
  split at h
  · split at h
    · cases h
      exact ⟨rfl, rfl, rfl, rfl, rfl⟩
    · cases h
      exact ⟨rfl, rfl, rfl, rfl, rfl⟩
  · split at h
    · cases h
      exact ⟨rfl, rfl, rfl, rfl, rfl⟩
    · split at h
      · cases h
        exact ⟨rfl, rfl, rfl, rfl, rfl⟩
      · obtain ⟨⟨res, s⟩, hi, rfl⟩ := Option.map_eq_some_iff.mp h
        obtain ⟨_, _, rfl⟩ := instruction_cases hi
        exact ⟨rfl, rfl, rfl, rfl, rfl⟩

end

/-! ## The parts that are still to be taken -/

/-- The address that is read without its contents, and the parts that have arrived. -/
def suite (st : ClientThread) : List Trame :=
  match st.point with
  | .contents a => a :: st.boite
  | _ => st.boite

theorem suite_contents {st : ClientThread} {a : Trame} (h : st.point = .contents a) :
    st.suite = a :: st.boite := by
  rw [suite, h]

theorem suite_ailleurs {st : ClientThread} (h : ∀ a, st.point ≠ .contents a) : st.suite = st.boite := by
  unfold suite
  split
  · next a ha => exact absurd ha (h a)
  · rfl

theorem auClient_point {st : ClientThread} (h : st.auClient = true) (a : Trame) : st.point ≠ .contents a := by
  rw [auClient, Bool.and_eq_true] at h
  intro hp
  rw [hp] at h
  exact absurd h.2 (by simp)

/-- What each step does, and when. -/
inductive Effet (o : OutilsThread) (st : ClientThread) : Pas → ClientThread → Prop
  | ailleurs (t : Tables) : Effet o st (.ailleurs t) { st with c := { st.c with tables := t } }
  | livre (v : Voie) (p : Contents) (hv : (st.abonnements.any fun w => w.prend v) = true) :
      Effet o st (.livre v p) { st with
        boite := st.boite ++ [⟨st.livres, .adresse v⟩, ⟨st.livres, .contenu p⟩]
        livres := st.livres + 1 }
  | perdu (v : Voie) (p : Contents) : Effet o st (.livre v p) st
  | adresse (b : Trame) (boite : List Trame) (hb : st.boite = b :: boite) (hpt : st.point = .tete) :
      Effet o st .recoit { st with boite, point := .contents b }
  | contenu (a b : Trame) (boite : List Trame) (st' : ClientThread) (hb : st.boite = b :: boite)
      (hpt : st.point = .contents a) (h : { st with boite }.traite o a (some b) = some st') :
      Effet o st .recoit st'
  | joint (gameUrl : String) (b : Trame) (boite : List Trame) (hb : st.boite = b :: boite)
      (hpt : st.point = .attend gameUrl) :
      Effet o st .recoit { st with
        boite
        isOnGame := true
        gameUrl
        point := .tete
        poste := st.poste ++ [.joinResponse true]
        unites := st.unites ++ [(b, none)] }
  | tour (hb : st.boite = []) (hpt : st.point = .tete) : Effet o st .expire { st with point := .client }
  | vide (a : Trame) (st' : ClientThread) (hb : st.boite = []) (hpt : st.point = .contents a)
      (h : st.traite o a none = some st') : Effet o st .expire st'
  | seul (gameUrl : String) (hb : st.boite = []) (hpt : st.point = .attend gameUrl) :
      Effet o st .expire { st with point := .tete, poste := st.poste ++ [.joinResponse false] }
  | requete (type : MsgType) (recu : List UInt8) (st' : ClientThread) (hcl : st.auClient = true)
      (h : st.requete o type recu = some st') : Effet o st (.requete type recu) st'
  | silence (hcl : st.auClient = true) : Effet o st .silence { st with point := .tete }
  | ferme : Effet o st .ferme st.ferme

variable {o : OutilsThread} {p : Pas} {st st' : ClientThread}

theorem etape_effet (h : etape o p st = some st') : Effet o st p st' := by
  cases p with
  | ailleurs t =>
    cases h
    exact .ailleurs t
  | livre v c =>
    simp only [etape] at h
    split at h
    · cases h
    · split at h
      · next hv =>
        cases h
        exact .livre v c hv
      · cases h
        exact .perdu v c
  | recoit =>
    simp only [etape] at h
    split at h
    · next b boite _ hb =>
      simp only [recoit] at h
      split at h
      · next hpt =>
        split at h
        · cases h
          exact .adresse b boite hb hpt
        · cases h
      · next a hpt => exact .contenu a b boite st' hb hpt h
      · next gameUrl hpt =>
        cases h
        exact .joint gameUrl b boite hb hpt
      · cases h
    · cases h
  | expire =>
    simp only [etape] at h
    split at h
    · next _ hb =>
      simp only [expire] at h
      split at h
      · next hpt =>
        split at h
        · cases h
          exact .tour hb hpt
        · cases h
      · next a hpt => exact .vide a st' hb hpt h
      · next gameUrl hpt =>
        cases h
        exact .seul gameUrl hb hpt
      · cases h
    · cases h
  | requete type recu =>
    simp only [etape] at h
    split at h
    · next hcl => exact .requete type recu st' hcl.1 h
    · cases h
  | silence =>
    simp only [etape] at h
    split at h
    · next hcl =>
      cases h
      exact .silence hcl
    · cases h
  | ferme =>
    simp only [etape] at h
    split at h
    · cases h
      exact .ferme
    · cases h

/-- A message is there when the thread receives after a CLIENT_JOIN_REQUEST. -/
def Pas.joint (p : Pas) (st : ClientThread) : Bool :=
  match p, st.point with
  | .recoit, .attend _ => true
  | _, _ => false

theorem Pas.joint_iff {p : Pas} {st : ClientThread} :
    p.joint st = true ↔ p = .recoit ∧ ∃ gameUrl, st.point = .attend gameUrl := by
  unfold joint
  split
  · next gameUrl hp => exact iff_of_true rfl ⟨rfl, gameUrl, hp⟩
  · next hne => exact iff_of_false Bool.false_ne_true fun ⟨hp, g, hpt⟩ => hne g hp hpt

/-- **What a step takes**: nothing; a message arrives; an address and what follows it are taken; or only the
first part, by the receive of a join. -/
theorem etape_lecture (h : etape o p st = some st') :
    (st'.suite = st.suite ∧ st'.unites = st.unites) ∨
    (∃ v c, (st.abonnements.any fun w => w.prend v) = true ∧
      st'.suite = st.suite ++ [⟨st.livres, .adresse v⟩, ⟨st.livres, .contenu c⟩] ∧ st'.unites = st.unites) ∨
    (∃ a b, st.suite = a :: b :: st'.suite ∧ st'.unites = st.unites ++ [(a, some b)]) ∨
    (∃ a, st.suite = [a] ∧ st'.suite = [] ∧ st'.unites = st.unites ++ [(a, none)]) ∨
    (∃ b, p.joint st = true ∧ st.suite = b :: st'.suite ∧ st'.unites = st.unites ++ [(b, none)]) := by
  cases etape_effet h with
  | ailleurs t => exact Or.inl ⟨rfl, rfl⟩
  | livre v c hv =>
    refine Or.inr (Or.inl ⟨v, c, hv, ?_, rfl⟩)
    unfold suite
    cases st.point with
    | contents a => rfl
    | _ => rfl
  | perdu v c => exact Or.inl ⟨rfl, rfl⟩
  | adresse b boite hb hpt =>
    refine Or.inl ⟨?_, rfl⟩
    rw [suite_contents rfl, suite_ailleurs (by simp [hpt]), hb]
  | contenu a b boite _ hb hpt ht =>
    obtain ⟨hboite, _, hpoint, hu, _⟩ := traite_cases ht
    refine Or.inr (Or.inr (Or.inl ⟨a, b, ?_, hu⟩))
    rw [suite_contents hpt, suite_ailleurs (by simp [hpoint]), hboite, hb]
  | joint gameUrl b boite hb hpt =>
    refine Or.inr (Or.inr (Or.inr (Or.inr ⟨b, Pas.joint_iff.mpr ⟨rfl, gameUrl, hpt⟩, ?_, rfl⟩)))
    rw [suite_ailleurs (by simp [hpt]), suite_ailleurs (by simp), hb]
  | tour hb hpt =>
    refine Or.inl ⟨?_, rfl⟩
    rw [suite_ailleurs (by simp), suite_ailleurs (by simp [hpt])]
  | vide a _ hb hpt ht =>
    obtain ⟨hboite, _, hpoint, hu, _⟩ := traite_cases ht
    refine Or.inr (Or.inr (Or.inr (Or.inl ⟨a, ?_, ?_, hu⟩)))
    · rw [suite_contents hpt, hb]
    · rw [suite_ailleurs (by simp [hpoint]), hboite, hb]
  | seul gameUrl hb hpt =>
    refine Or.inl ⟨?_, rfl⟩
    rw [suite_ailleurs (by simp), suite_ailleurs (by simp [hpt])]
  | requete type recu _ hcl hr =>
    have hsuite := suite_ailleurs (auClient_point hcl)
    left
    rcases requete_cases hr with ⟨_, c, rfl⟩ | ⟨_, _, rfl⟩ | ⟨_, _, c, _, _, rfl⟩
    · exact ⟨by rw [hsuite, suite_ailleurs (by simp)], rfl⟩
    · exact ⟨by rw [hsuite, suite_ailleurs (by simp [join])]; rfl, rfl⟩
    · rw [hsuite, suite_ailleurs (by simp)]
      split
      · exact ⟨rfl, rfl⟩
      · exact ⟨rfl, rfl⟩
  | silence hcl =>
    exact Or.inl ⟨by rw [suite_ailleurs (auClient_point hcl), suite_ailleurs (by simp)], rfl⟩
  | ferme => exact Or.inl ⟨rfl, rfl⟩

/-! ## Whole messages -/

/-- Messages, each with its two parts. -/
def messages (l : List (Nat × Voie × Contents)) : List Trame :=
  l.flatMap fun (n, v, p) => [⟨n, .adresse v⟩, ⟨n, .contenu p⟩]

theorem messages_append (l l' : List (Nat × Voie × Contents)) :
    messages (l ++ l') = messages l ++ messages l' := List.flatMap_append

/-- The first two parts of whole messages are those of one message. -/
theorem messages_cons {a b : Trame} {l : List Trame} {ms : List (Nat × Voie × Contents)}
    (h : messages ms = a :: b :: l) :
    ∃ n v p ms', a = ⟨n, .adresse v⟩ ∧ b = ⟨n, .contenu p⟩ ∧ l = messages ms' := by
  cases ms with
  | nil => cases h
  | cons m ms =>
    obtain ⟨n, v, p⟩ := m
    cases h
    exact ⟨n, v, p, ms, rfl, rfl, rfl⟩

theorem messages_ne_singleton {a : Trame} (ms : List (Nat × Voie × Contents)) : messages ms ≠ [a] := by
  intro h
  cases ms with
  | nil => cases h
  | cons m ms => cases h

/-- Whole messages are still to be taken. -/
def Aligne (st : ClientThread) : Prop := ∃ ms, st.suite = messages ms

/-- Each message that is taken is taken as one unit: its address first, then its contents. -/
def Entieres (st : ClientThread) : Prop :=
  ∀ u ∈ st.unites, ∃ n v p, u = (⟨n, .adresse v⟩, some ⟨n, .contenu p⟩)

theorem unites_joint (hp : p.joint st = true) (h : etape o p st = some st') :
    ∃ b, st'.unites = st.unites ++ [(b, none)] := by
  obtain ⟨rfl, gameUrl, hpt⟩ := Pas.joint_iff.mp hp
  cases etape_effet h with
  | adresse b boite hb hpt' | contenu a b boite _ hb hpt' ht =>
    rw [hpt] at hpt'
    cases hpt'
  | joint gameUrl b boite hb hpt' => exact ⟨b, rfl⟩

/-- **One step** takes whole messages exactly where it is no such receive. -/
theorem entieres_etape (hA : st.Aligne) (hE : st.Entieres) (h : etape o p st = some st') :
    (p.joint st = false → st'.Aligne) ∧ (p.joint st = false ↔ st'.Entieres) := by
  obtain ⟨ms, hms⟩ := hA
  cases hp : p.joint st with
  | true =>
    obtain ⟨b, hu⟩ := unites_joint hp h
    refine ⟨nofun, iff_of_false nofun fun hE' => ?_⟩
    obtain ⟨n, v, p, he⟩ := hE' (b, none) (by rw [hu]; simp)
    cases he
  | false =>
    suffices hs : st'.Aligne ∧ st'.Entieres from ⟨fun _ => hs.1, iff_of_true rfl hs.2⟩
    rcases etape_lecture h with ⟨hs, hu⟩ | ⟨v, c, _, hs, hu⟩ | ⟨a, b, hs, hu⟩ | ⟨a, hs, _⟩ | ⟨b, hj, _⟩
    · refine ⟨⟨ms, hs.trans hms⟩, ?_⟩
      rw [Entieres, hu]
      exact hE
    · refine ⟨⟨ms ++ [(st.livres, v, c)], ?_⟩, ?_⟩
      · rw [messages_append, ← hms]
        exact hs
      · rw [Entieres, hu]
        exact hE
    · obtain ⟨n, v, p, ms', rfl, rfl, hms'⟩ := messages_cons (hms.symm.trans hs)
      refine ⟨⟨ms', hms'⟩, fun u hin => ?_⟩
      rw [hu, List.mem_append, List.mem_singleton] at hin
      rcases hin with hin | rfl
      · exact hE u hin
      · exact ⟨n, v, p, rfl⟩
    · exact absurd (hms.symm.trans hs) (messages_ne_singleton ms)
    · rw [hp] at hj
      cases hj

/-- **Each message is taken as one unit**: in every run in which no message is there when the thread
receives after a CLIENT_JOIN_REQUEST, what is read as an address is the first part of a message, and
what is read as its contents the second part of the same one; the first such message is not. -/
theorem entieres_of_reach (o : OutilsThread) (st : ClientThread)
    (h : Runs.Reach (etape o) (fun p st => p.joint st = false) Depart st) :
    st.Entieres ∧ ∀ p st', etape o p st = some st' → (p.joint st = false ↔ st'.Entieres) := by
  have hI : st.Aligne ∧ st.Entieres := by
    refine h.invariant (I := fun st => st.Aligne ∧ st.Entieres) ?_ ?_
    · rintro _ ⟨t, rfl⟩
      exact ⟨⟨[], rfl⟩, nofun⟩
    · intro p st st' ⟨hA, hE⟩ hp hs
      obtain ⟨hA', hE'⟩ := entieres_etape hA hE hs
      exact ⟨hA' hp, hE'.mp hp⟩
  exact ⟨hI.2, fun p st' hs => (entieres_etape hI.1 hI.2 hs).2⟩

/-! ## A join -/

/-- Every join is for room 5. -/
def outilsThread : OutilsThread := { outilsComptes with join := fun _ => 5 }

/-- "a" logs in and asks to join room 5. -/
def demandeJoint : List Pas :=
  [.requete CLIENT_AUTHENTIFICATION [1], .expire, .requete CLIENT_JOIN_REQUEST []]

/-- The room answers on the channel of "a". -/
def reponse : Pas := .livre (.joueur 1) (.zmq PING 5 [116, 114, 117, 101])

/-- The answer's contents are read as an address, with the next message's address for contents. -/
theorem joint_decale : ∃ st, Runs.Reach (etape outilsThread) (fun _ _ => True) Depart st ∧
    st.unites = [(⟨0, .adresse (.joueur 1)⟩, none),
      (⟨0, .contenu (.zmq PING 5 [116, 114, 117, 101])⟩, some ⟨1, .adresse (.broker 1)⟩)] ∧
    ¬ st.Entieres := by
  obtain ⟨st, _, hr, hp⟩ := Runs.exists_of_exec (etape outilsThread) (fun _ _ => True)
    (show Depart (new deuxComptes) from ⟨deuxComptes, rfl⟩)
    (demandeJoint ++ [reponse, .recoit, .livre (.broker 1) (.zmq CHAT_BROKER 1 [104, 105]), .recoit, .recoit])
    (fun st => st.unites == [(⟨0, .adresse (.joueur 1)⟩, none),
      (⟨0, .contenu (.zmq PING 5 [116, 114, 117, 101])⟩, some ⟨1, .adresse (.broker 1)⟩)])
    (by decide +kernel)
  refine ⟨st, hr, beq_iff_eq.mp hp, fun hE => ?_⟩
  rw [Entieres, beq_iff_eq.mp hp] at hE
  obtain ⟨n, v, p, he⟩ := hE _ List.mem_cons_self
  cases he

/-- No room answers in time, and a message of the broker is read. -/
theorem joint_expire : ∃ st, Runs.exec (etape outilsThread) (fun p st => p.joint st = false)
      (demandeJoint ++ [.expire, .livre (.broker 1) (.zmq CHAT_BROKER 1 [104, 105]), .recoit, .recoit])
      (new deuxComptes) = some st ∧
    st.unites = [(⟨0, .adresse (.broker 1)⟩, some ⟨0, .contenu (.zmq CHAT_BROKER 1 [104, 105])⟩)] ∧
    st.Entieres := by
  obtain ⟨st, hst, hr, hp⟩ := Runs.exists_of_exec (etape outilsThread) (fun p st => p.joint st = false)
    (show Depart (new deuxComptes) from ⟨deuxComptes, rfl⟩)
    (demandeJoint ++ [.expire, .livre (.broker 1) (.zmq CHAT_BROKER 1 [104, 105]), .recoit, .recoit])
    (fun st => st.unites == [(⟨0, .adresse (.broker 1)⟩, some ⟨0, .contenu (.zmq CHAT_BROKER 1 [104, 105])⟩)])
    (by decide +kernel)
  exact ⟨st, hst, beq_iff_eq.mp hp, (entieres_of_reach outilsThread st hr).1⟩

end ClientThread
end LombricABrac
