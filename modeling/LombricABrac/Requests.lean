import Mathlib.Data.List.TakeWhile
import LombricABrac.CommMacros
import LombricABrac.Lib.Wire

/-!
# The requests of the client

`Client::sendMessage` writes a type, then a length and the payload, but only for a payload that is
not empty or that it is forced to send.  `client_thread` and `handle_instruction` read a length and a
body for some types, in a room and out of it.

    take_cStr_iff : the payloads that are sent whole
    convient_iff  : the table of the calls for which the two sides agree
-/

namespace LombricABrac

/-- `SerializeToString`: a message whose fields are all by default, and no other, is empty. -/
structure Proto3 where
  serialize : List Wire.Field → List UInt8
  serialize_eq_nil : ∀ fields, serialize fields = [] ↔ ∀ f ∈ fields, f.2.isDefault = true

/-- A `message` and the flag `forceSend`. -/
structure Requete where
  type : MsgType
  text : List UInt8
  forceSend : Bool

namespace Requete

open MsgType

/-! ## The client -/

/-- The calls of the class `Client` that send a request.  An empty in-game message sends nothing. -/
inductive Appel where
  | setMap (idMap : UInt32)
  | setTime (time : UInt32)
  | setTimeRound (timeRound : UInt32)
  | setInitLife (vie : UInt32)
  | setProbaCaisse (valeur : UInt32)
  | setLifeCaisse (valeur : UInt32)
  | setMaxLife (vie : UInt32)
  | setNrbLombrics (nbrLomb : UInt32)
  | setNbrEquipes (nbrEq : UInt32)
  | setLombricName (id : UInt32) (name : List UInt8)
  | connection (username password : List UInt8) (inscription : Bool)
  | deconnection
  | createRoom
  | quitRoom
  | startGame
  | addToGame (destinataire : List UInt8)
  | joinPartie (roomId : UInt32)
  | getLombricsName
  | getAllInvits
  | getHistory (user : List UInt8) (firstGame nbrGame : UInt32)
  | getRank (nbrPlayers : UInt32)
  | changeTeam (idEquipe : UInt32)
  | getInfoRoom
  | findMatch
  | chatSend (m destinataire : List UInt8)
  | getFriendList
  | delFriend (destinataire : List UInt8)
  | addFriend (user : List UInt8)
  | acceptFriend (username : List UInt8) (ok : Bool)
  | getConvo (username : List UInt8)
  | shoot (idArme force angle : UInt32)
  | updatePos (id x y : UInt32)
  | endTour (deadLombrics : List UInt32)
  | endGame
  | changeWeapon (id : UInt32)
  | sendInGameMessage (text : List UInt8) (h : text ≠ [])

def uint32 (number : Nat) (n : UInt32) : Wire.Field := (number, .varint n.toNat)
def bool (number : Nat) (b : Bool) : Wire.Field := (number, .varint b.toNat)
def string (number : Nat) (s : List UInt8) : Wire.Field := (number, .bytes s)

def repeatedUint32 (number : Nat) (l : List UInt32) : Wire.Field :=
  (number, .bytes (l.flatMap fun n => Wire.encode n.toNat))

/-- The type, the fields and `forceSend` of a call; no field for `m.text = ""`. -/
def Appel.message : Appel → MsgType × List Wire.Field × Bool
  | setMap idMap => (CLIENT_MODIFY_MAP, [uint32 1 idMap], false)
  | setTime time => (CLIENT_MODIFY_TIME, [uint32 1 time], false)
  | setTimeRound timeRound => (CLIENT_MODIFY_ROUND_TIME, [uint32 1 timeRound], false)
  | setInitLife vie => (CLIENT_MODIFY_INIT_VIE, [uint32 1 vie], false)
  | setProbaCaisse valeur => (CLIENT_MODIFY_PROBA_CAISSE, [uint32 1 valeur], false)
  | setLifeCaisse valeur => (CLIENT_MODIFY_VIE_CAISSE, [uint32 1 valeur], false)
  | setMaxLife vie => (CLIENT_MODIFY_MAX_VIE, [uint32 1 vie], false)
  | setNrbLombrics nbrLomb => (CLIENT_MODIFY_NB_LOMBRICS, [uint32 1 nbrLomb], false)
  | setNbrEquipes nbrEq => (CLIENT_MODIFY_NB_TEAMS, [uint32 1 nbrEq], false)
  | setLombricName id name => (UPDATE_LOMBRICS_NAMES, [uint32 1 id, string 2 name], false)
  | connection username password inscription =>
    (CLIENT_AUTHENTIFICATION, [bool 1 inscription, string 2 username, string 3 password], false)
  | deconnection => (DECO, [], false)
  | createRoom => (CLIENT_CREATE_ROOM, [], false)
  | quitRoom => (CLIENT_QUIT_ROOM, [], false)
  | startGame => (START, [], false)
  | addToGame destinataire => (CLIENT_SEND_INVITE, [string 1 destinataire], false)
  | joinPartie roomId => (CLIENT_JOIN_REQUEST, [uint32 1 roomId], false)
  | getLombricsName => (GET_LOMBRIC_NAMES, [], false)
  | getAllInvits => (CLIENT_ASKS_ALL_INVITATIONS, [], false)
  | getHistory user firstGame nbrGame =>
    (GET_HISTORY, [string 1 user, uint32 2 firstGame, uint32 3 nbrGame], false)
  | getRank nbrPlayers => (GET_RANK, [uint32 1 0, uint32 2 nbrPlayers], false)
  | changeTeam idEquipe => (CLIENT_JOIN_TEAM, [uint32 1 idEquipe], true)
  | getInfoRoom => (INFO_ROOM, [], false)
  | findMatch => (CLIENT_LOOKUP_MATCH, [], false)
  | chatSend m destinataire =>
    (CLIENT_SEND_MESSAGE, [string 1 destinataire, string 2 m], false)
  | getFriendList => (CLIENT_ASK_FRIENDSHIP_LIST, [], false)
  | delFriend destinataire => (CLIENT_DELETE_FRIENDSHIP, [string 1 destinataire], false)
  | addFriend user => (CLIENT_ASK_FRIENDSHIP, [string 1 user], false)
  | acceptFriend username ok =>
    (CLIENT_ACCEPT_FRIENDSHIP, [bool 1 ok, string 2 username], false)
  | getConvo username => (GET_CONVO, [string 1 username], false)
  | shoot idArme force angle =>
    (SHOOT, [uint32 1 idArme, uint32 2 (if force = 0 then 1 else force), uint32 3 angle], true)
  | updatePos id x y => (POS_LOMB_S, [uint32 1 id, uint32 2 x, uint32 3 y], false)
  | endTour deadLombrics => (END_TOUR, [repeatedUint32 1 deadLombrics], false)
  | endGame => (END_GAME, [], false)
  | changeWeapon id => (CLIENT_CHANGE_WEAPON, [uint32 1 id], true)
  | sendInGameMessage text _ =>
    (CLIENT_SEND_IN_GAME_MESSAGE, [string 1 [], string 2 text], true)

def Appel.requete (proto : Proto3) (a : Appel) : Requete :=
  ⟨a.message.1, proto.serialize a.message.2.1, a.message.2.2⟩

/-- The string that `c_str` gives: up to the first zero byte. -/
def cStr (text : List UInt8) : List UInt8 := text.takeWhile fun b => b ≠ 0

/-- `htonl`, as four bytes. -/
def htonl (n : Nat) : List UInt8 :=
  [.ofNat (n / 2 ^ 24), .ofNat (n / 2 ^ 16), .ofNat (n / 2 ^ 8), .ofNat n]

def aCorps (r : Requete) : Bool := !r.text.isEmpty || r.forceSend

def sendMessage (r : Requete) : List UInt8 :=
  let size := (cStr r.text).length % 2 ^ 32
  r.type :: if r.aCorps then htonl size ++ (cStr r.text).take size else []

/-- The type and the payload of a request; `none` when no length is written or read. -/
abbrev Paire := MsgType × Option (List UInt8)

def paire (r : Requete) : Paire := (r.type, if r.aCorps then some r.text else none)

/-! ## The server -/

/-- `usr.is_auth()` and `is_on_game`. -/
structure Etat where
  auth : Bool
  isOnGame : Bool

/-- Whether `handle_instruction` calls `reception`. -/
def handleInstruction (auth : Bool) (type : MsgType) : Bool :=
  if type = CLIENT_AUTHENTIFICATION then true
  else if auth then
    match type with
    | CLIENT_SEND_MESSAGE => true
    | GET_CONVO => true
    | CLIENT_SEND_INVITE => true
    | UPDATE_LOMBRICS_NAMES => true
    | GET_HISTORY => true
    | GET_RANK => true
    | CLIENT_ASK_FRIENDSHIP => true
    | CLIENT_ACCEPT_FRIENDSHIP => true
    | CLIENT_DELETE_FRIENDSHIP => true
    | _ => false
  else false

/-- Whether the body of a request is read. -/
def Etat.lit (type : MsgType) (e : Etat) : Bool :=
  if e.isOnGame then
    if type = CLIENT_ASK_FRIENDSHIP_LIST then false
    else if type = CLIENT_SEND_INVITE then true
    else type != INFO_ROOM && type != START
  else if type = CLIENT_JOIN_REQUEST then true
  else handleInstruction e.auth type

/-- The state after a request. -/
def Etat.apres (type : MsgType) (ok : Bool) (e : Etat) : Etat :=
  if e.isOnGame then e
  else if type = CLIENT_JOIN_REQUEST then { e with isOnGame := ok }
  else if type = CLIENT_AUTHENTIFICATION then { e with auth := e.auth || ok }
  else e

/-! ## The payload -/

theorem toNat_ofNat (n : Nat) : (UInt8.ofNat n).toNat = n % 256 := UInt8.toNat_ofNat'

theorem cStr_take (text : List UInt8) (n : Nat) : cStr ((cStr text).take n) = (cStr text).take n := by
  rw [cStr, List.takeWhile_eq_self_iff]
  intro b hb
  have hmem : b ∈ text.takeWhile fun b => b ≠ 0 := List.mem_of_mem_take hb
  exact List.mem_takeWhile_imp (p := fun b => decide (b ≠ 0)) hmem

/-- The payload is sent whole: no zero byte, and a length that its four bytes can say. -/
def Entier (text : List UInt8) : Prop := (∀ b ∈ text, b ≠ 0) ∧ text.length < 2 ^ 32

instance (text : List UInt8) : Decidable (Entier text) := inferInstanceAs (Decidable (_ ∧ _))

theorem take_cStr_iff (text : List UInt8) :
    (cStr text).take ((cStr text).length % 2 ^ 32) = text ↔ Entier text := by
  constructor
  · intro h
    have hpre : (cStr text).take ((cStr text).length % 2 ^ 32) <+: cStr text := List.take_prefix _ _
    rw [h] at hpre
    have hcStr : cStr text = text := (List.takeWhile_prefix _).eq_of_length_le hpre.length_le
    rw [hcStr] at h
    refine ⟨fun b hb => ?_, ?_⟩
    · rw [← hcStr] at hb
      simpa using List.mem_takeWhile_imp hb
    · have hlen := congrArg List.length h
      rw [List.length_take] at hlen
      omega
  · rintro ⟨h0, hlen⟩
    have hcStr : cStr text = text := by
      rw [cStr, List.takeWhile_eq_self_iff]
      simpa using h0
    rw [hcStr, Nat.mod_eq_of_lt hlen, List.take_length]

/-! ## The calls -/

/-- For which fields and in which states the two sides agree. -/
def Appel.Convient (e : Etat) : Appel → Prop
  | startGame | getInfoRoom | getFriendList => True
  | deconnection | createRoom | quitRoom | getLombricsName | getAllInvits | findMatch | endGame =>
    e.isOnGame = false
  | setMap n | setTime n | setTimeRound n | setInitLife n | setProbaCaisse n | setLifeCaisse n
  | setMaxLife n | setNrbLombrics n | setNbrEquipes n => e.isOnGame = true ↔ n ≠ 0
  | updatePos id x y => e.isOnGame = true ↔ id ≠ 0 ∨ x ≠ 0 ∨ y ≠ 0
  | endTour deadLombrics => e.isOnGame = true ↔ deadLombrics ≠ []
  | changeTeam _ | changeWeapon _ | shoot _ _ _ | sendInGameMessage _ _ => e.isOnGame = true
  | connection username password inscription =>
    inscription = true ∨ username ≠ [] ∨ password ≠ []
  | joinPartie roomId => roomId ≠ 0
  | chatSend m destinataire =>
    e.isOnGame = true ∨ e.auth = true ↔ destinataire ≠ [] ∨ m ≠ []
  | setLombricName id name => e.isOnGame = true ∨ e.auth = true ↔ id ≠ 0 ∨ name ≠ []
  | getHistory user firstGame nbrGame =>
    e.isOnGame = true ∨ e.auth = true ↔ user ≠ [] ∨ firstGame ≠ 0 ∨ nbrGame ≠ 0
  | getRank nbrPlayers => e.isOnGame = true ∨ e.auth = true ↔ nbrPlayers ≠ 0
  | acceptFriend username ok => e.isOnGame = true ∨ e.auth = true ↔ ok = true ∨ username ≠ []
  | addToGame s | delFriend s | addFriend s | getConvo s =>
    e.isOnGame = true ∨ e.auth = true ↔ s ≠ []

variable (proto : Proto3)

theorem aCorps_requete (a : Appel) :
    (a.requete proto).aCorps = (!(a.message.2.1.all fun f => f.2.isDefault) || a.message.2.2) := by
  have hnil := proto.serialize_eq_nil a.message.2.1
  have hempty : (proto.serialize a.message.2.1).isEmpty =
      a.message.2.1.all fun f => f.2.isDefault := by
    rw [Bool.eq_iff_iff, List.isEmpty_iff, hnil, List.all_eq_true]
  rw [aCorps, Appel.requete, hempty]

@[simp] theorem isDefault_uint32 (number : Nat) (n : UInt32) :
    (uint32 number n).2.isDefault = decide (n = 0) := by
  rw [Bool.eq_iff_iff]
  simp [uint32, Wire.Value.isDefault, ← UInt32.toNat_inj]

@[simp] theorem isDefault_bool (number : Nat) (b : Bool) : (bool number b).2.isDefault = !b := by
  cases b <;> rfl

@[simp] theorem isDefault_string (number : Nat) (s : List UInt8) :
    (string number s).2.isDefault = s.isEmpty := rfl

@[simp] theorem isDefault_repeatedUint32 (number : Nat) (l : List UInt32) :
    (repeatedUint32 number l).2.isDefault = l.isEmpty := by
  cases l with
  | nil => rfl
  | cons n l =>
    have hpos := Wire.length_encode_pos n.toNat
    rw [Bool.eq_iff_iff]
    simp [repeatedUint32, Wire.Value.isDefault, ← List.length_eq_zero_iff]
    omega

/-- Types whose body only a room reads. -/
def deSalle : List MsgType :=
  [CLIENT_MODIFY_MAP, CLIENT_MODIFY_TIME, CLIENT_MODIFY_ROUND_TIME, CLIENT_MODIFY_NB_LOMBRICS,
    CLIENT_MODIFY_NB_TEAMS, CLIENT_MODIFY_VIE_CAISSE, CLIENT_MODIFY_PROBA_CAISSE,
    CLIENT_MODIFY_INIT_VIE, CLIENT_MODIFY_MAX_VIE, CLIENT_JOIN_TEAM, POS_LOMB_S, SHOOT, END_TOUR,
    CLIENT_CHANGE_WEAPON, CLIENT_SEND_IN_GAME_MESSAGE, DECO, CLIENT_CREATE_ROOM, CLIENT_QUIT_ROOM,
    GET_LOMBRIC_NAMES, CLIENT_ASKS_ALL_INVITATIONS, CLIENT_LOOKUP_MATCH, END_GAME]

/-- Types whose body the menus read too, once the user is logged in. -/
def deMenu : List MsgType :=
  [CLIENT_SEND_MESSAGE, GET_CONVO, CLIENT_SEND_INVITE, UPDATE_LOMBRICS_NAMES, GET_HISTORY, GET_RANK,
    CLIENT_ASK_FRIENDSHIP, CLIENT_ACCEPT_FRIENDSHIP, CLIENT_DELETE_FRIENDSHIP]

theorem lit_deSalle {type : MsgType} (h : type ∈ deSalle) (e : Etat) : e.lit type = e.isOnGame := by
  have hall : (deSalle.all fun type => e.lit type == e.isOnGame) = true := by
    obtain ⟨auth, isOnGame⟩ := e
    cases auth <;> cases isOnGame <;> rfl
  exact beq_iff_eq.mp (List.all_eq_true.mp hall type h)

theorem lit_deMenu {type : MsgType} (h : type ∈ deMenu) (e : Etat) :
    e.lit type = (e.isOnGame || e.auth) := by
  have hall : (deMenu.all fun type => e.lit type == (e.isOnGame || e.auth)) = true := by
    obtain ⟨auth, isOnGame⟩ := e
    cases auth <;> cases isOnGame <;> rfl
  exact beq_iff_eq.mp (List.all_eq_true.mp hall type h)

theorem lit_toujours {type : MsgType} (h : type ∈ [CLIENT_AUTHENTIFICATION, CLIENT_JOIN_REQUEST])
    (e : Etat) : e.lit type = true := by
  have hall : ([CLIENT_AUTHENTIFICATION, CLIENT_JOIN_REQUEST].all e.lit) = true := by
    obtain ⟨auth, isOnGame⟩ := e
    cases auth <;> cases isOnGame <;> rfl
  exact List.all_eq_true.mp hall type h

theorem lit_jamais {type : MsgType} (h : type ∈ [START, INFO_ROOM, CLIENT_ASK_FRIENDSHIP_LIST])
    (e : Etat) : e.lit type = false := by
  have hall : ([START, INFO_ROOM, CLIENT_ASK_FRIENDSHIP_LIST].any e.lit) = false := by
    obtain ⟨auth, isOnGame⟩ := e
    cases auth <;> cases isOnGame <;> rfl
  by_contra hne
  rw [Bool.not_eq_false] at hne
  rw [List.any_eq_true.mpr ⟨type, h, hne⟩] at hall
  cases hall

theorem convient_iff (e : Etat) (a : Appel) :
    e.lit (a.requete proto).type = (a.requete proto).aCorps ↔ a.Convient e := by
  rw [aCorps_requete, Appel.requete, Bool.eq_iff_iff]
  cases a <;>
    simp (disch := decide) only [Appel.message, lit_deSalle, lit_deMenu, lit_toujours,
      lit_jamais] <;>
    simp [Appel.Convient]

theorem type_requete (a : Appel) :
    (a.requete proto).type ≠ 0 ∧ (a.requete proto).type ≠ 1 := by
  cases a <;> simp +decide only [Appel.requete, Appel.message, ne_eq, and_self]

/-- Fields on the wire. -/
def wire : Proto3 := ⟨Wire.write, Wire.write_eq_nil_iff⟩

end Requete
end LombricABrac
