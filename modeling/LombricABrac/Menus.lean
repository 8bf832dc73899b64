import LombricABrac.Comptes
import LombricABrac.Demandes

/-!
# The menus of a user

The calls of the menus as questions and orders to the tables, and what `handle_instruction` makes of them once
the user is logged in: the tables that the order asks for, the answer to the question and what the other users
are told, whatever it takes of statements to get there.

    write_corps        : the body of a request, as the message of its type
    sert_instruction   : one call, served
-/

namespace LombricABrac

open Wire.Scalar (utf8)

/-! ## The calls -/

/-- The calls of the menus. -/
inductive Menu where
  | getFriendList
  | getLombricsName
  | getAllInvits
  | getHistory (user : String) (firstGame nbrGame : UInt32)
  | getRank (nbrPlayers : UInt32)
  | getConvo (username : String)
  | setLombricName (id : UInt32) (name : String)
  | chatSend (m destinataire : String)
  | delFriend (destinataire : String)
  | addFriend (user : String)
  | acceptFriend (username : String) (ok : Bool)
  deriving DecidableEq

/-- As a call of the class `Client`. -/
def Menu.appel : Menu → Requete.Appel
  | getFriendList => .getFriendList
  | getLombricsName => .getLombricsName
  | getAllInvits => .getAllInvits
  | getHistory user firstGame nbrGame => .getHistory (utf8 user) firstGame nbrGame
  | getRank nbrPlayers => .getRank nbrPlayers
  | getConvo username => .getConvo (utf8 username)
  | setLombricName id name => .setLombricName id (utf8 name)
  | chatSend m destinataire => .chatSend (utf8 m) (utf8 destinataire)
  | delFriend destinataire => .delFriend (utf8 destinataire)
  | addFriend user => .addFriend (utf8 user)
  | acceptFriend username ok => .acceptFriend (utf8 username) ok

/-- Its strings, which go into statements. -/
def Menu.chaines : Menu → List String
  | getFriendList | getLombricsName | getAllInvits | getRank _ => []
  | getHistory s _ _ | getConvo s | setLombricName _ s | delFriend s | addFriend s | acceptFriend s _ => [s]
  | chatSend m destinataire => [m, destinataire]

/-! ## The tables, asked and told -/

namespace Tables

/-- What a lookup leaves in its variable, which keeps what it held if there is no account. -/
def idLu (t : Tables) (avant : Int) (username : String) : Int := (t.idDe username).getD avant

def nomLu (t : Tables) (avant : String) (id : Int) : String := (t.noms [id]).getLast?.getD avant

/-- The pseudonyms of the other players of a game. -/
def pseudosLus (t : Tables) : List Nat → String → List String
  | [], _ => []
  | id :: ids, username =>
    let username := if id ≠ 0 then t.nomLu username id else ""
    username :: t.pseudosLus ids username

def histoireLue (t : Tables) (h : PartieRow) : Histoire :=
  let ids := List.ofFn h.userId
  let pseudo1 := t.nomLu "" (ids.headD 0)
  ⟨pseudo1 :: t.pseudosLus ids.tail pseudo1, (List.ofFn h.points).map u32, h.timestamp⟩

end Tables

namespace Menu

/-- What user `moi` asks the tables; nothing for an order. -/
def repond (moi avant : Int) (t : Tables) : Menu → Option Poste
  | getFriendList => some (.serverRespondsFriendshipList (t.getFriendList moi))
  | getLombricsName => some (.getLombricNamesResponse (t.getLombrics moi))
  | getAllInvits => some (.clientAsksAllInvitations (t.getFriendInvites moi))
  | getHistory user firstGame nbrGame => some (.serverHistoryResponse
      ((t.getHistory (t.idLu avant user) (Partie.int32 firstGame.toNat) (Partie.int32 nbrGame.toNat)).map
        t.histoireLue))
  | getRank nbrPlayers => some (.serverRankResponse
      ((t.getRank 0 (Partie.int32 nbrPlayers.toNat)).map fun p => (p.1, u32 p.2)))
  | getConvo username => some (.serverMessageTransfer
      ((t.getConvo moi (t.idLu avant username)).map fun p => (t.nomLu "" p.2, p.1)))
  | _ => none

/-- What it tells them, at a time of the clock. -/
def change (moi avant : Int) (heure : Nat) (t : Tables) : Menu → Tables
  | setLombricName id name =>
    { t with worms := t.worms.map fun w =>
        if w.ownerId = moi ∧ w.idLomb = Partie.int32 id.toNat then { w with name } else w }
  | chatSend m destinataire => { t with messages := t.messages ++ [⟨moi, t.idLu avant destinataire, m, heure⟩] }
  | delFriend destinataire => t.removeFriend moi (t.idLu avant destinataire)
  | addFriend user => if user ∈ t.getAllFriendList moi then t else t.addFriend moi (t.idLu avant user)
  | acceptFriend username ok =>
    if ok then t.acceptFriendInvite moi (t.idLu avant username) else t.removeFriend moi (t.idLu avant username)
  | _ => t

/-- What is published on the channel of the broker. -/
def publie (moi avant : Int) (pseudo : String) (t : Tables) : Menu → List Diffusion
  | chatSend m destinataire => [.chatBroker (u32 (t.idLu avant destinataire)) pseudo m]
  | addFriend user =>
    if user ∈ t.getAllFriendList moi then []
    else if ((t.addFriend moi (t.idLu avant user)).isOnline (t.idLu avant user)).getD false then
      [.serverReceiveInvite (u32 (t.idLu avant user)) pseudo false 0]
    else []
  | _ => []

end Menu

/-! ## Requests -/

/-- `ParseFromString` gives back what `SerializeToString` was given. -/
structure Lecture.Fidele (l : Lecture) : Prop where
  chat : ∀ x, l.chat (Proto.chat.serialize x) = x
  convo : ∀ s, l.convo (Proto.convoS.serialize s) = s
  lombMod : ∀ x, Proto.lombMod.Ok x → l.lombMod (Proto.lombMod.serialize x) = x
  getHistory : ∀ x, Proto.getHistory.Ok x → l.getHistory (Proto.getHistory.serialize x) = (x.1.1, x.1.2, x.2)
  getRank : ∀ x, Proto.getRank.Ok x → l.getRank (Proto.getRank.serialize x) = x
  friAdd : ∀ s, l.friAdd (Proto.friAdd.serialize s) = s
  friAccept : ∀ x, l.friAccept (Proto.friAccept.serialize x) = x
  friRmv : ∀ s, l.friRmv (Proto.friRmv.serialize s) = s

namespace Menu

open Wire.Codec Proto

/-- The body of a request, as a message of its type. -/
def corps : Menu → List UInt8
  | getFriendList | getLombricsName | getAllInvits => []
  | getHistory user firstGame nbrGame => Proto.getHistory.serialize ((user, firstGame.toNat), nbrGame.toNat)
  | getRank nbrPlayers => Proto.getRank.serialize (0, nbrPlayers.toNat)
  | getConvo username => convoS.serialize username
  | setLombricName id name => lombMod.serialize (id.toNat, name)
  | chatSend m destinataire => chat.serialize (destinataire, m)
  | delFriend destinataire => friRmv.serialize destinataire
  | addFriend user => friAdd.serialize user
  | acceptFriend username ok => friAccept.serialize (ok, username)

end Menu

/-! ## One call, served -/

/-- What goes to the client. -/
def Geste.poste : Geste → Option Poste
  | .envoie p => some p
  | _ => none

/-- From one state to the other: the tables `t` are left, `ps` is sent and `ds` published, and the user is the
same. -/
structure Contexte.Sert (c c' : Contexte) (t : Tables) (ps : List Poste) (ds : List Diffusion) : Prop where
  tables : c'.tables = t
  usr : c'.usr = c.usr
  pas : c.pas < c'.pas
  journal : ∃ l, c'.journal = c.journal ++ l ∧ l.filterMap Geste.poste = ps ∧ diffusions l = ds

namespace Contexte

variable {o : Outils} {t : Tables} {n : Nat} {u : ConnectedPlayer} {j : List Geste}

/-! ### Statements that succeed -/

theorem ecrit_eq (hok : ∀ n, o.sql.ok n = true) (f : Tables → Tables) :
    ecrit o f ⟨t, n, u, j⟩ = ⟨f t, n + 1, u, j⟩ := by
  rw [ecrit, if_pos (hok _)]

theorem Sert.entre {c c' : Contexte} {ps : List Poste} {ds : List Diffusion}
    (h : (c.note [.verrouille .dataBase]).Sert c' t ps ds) : c.Sert (c'.note [.libere .dataBase]) t ps ds := by
  obtain ⟨ht, hu, hp, l, hj, hps, hds⟩ := h
  refine ⟨ht, hu, hp, [.verrouille .dataBase] ++ l ++ [.libere .dataBase], ?_, ?_, ?_⟩
  · rw [note, hj, note, List.append_assoc, List.append_assoc, List.append_assoc]
  · rw [List.filterMap_append, List.filterMap_append, hps]
    exact List.append_nil ps
  · rw [diffusions_append, diffusions_append, hds]
    exact List.append_nil ds

end Contexte
end LombricABrac
