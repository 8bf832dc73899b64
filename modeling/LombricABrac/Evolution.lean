import LombricABrac.Inertes
import LombricABrac.Isolement
import LombricABrac.Lib.Table

/-!
# What a request leaves

`handle_instruction` and `send_room_invite` on the tables, where the strings that they splice are read as they
are meant.  Whichever statements succeed, no account and no message goes: an account gets no other id, name or
password and no victory, and the table of the games stays as it is.

    evolue_prevu       : a statement with strings
    evolue_authentifie : the cases of a user who is logged in
    evolue_instruction : a call
-/

namespace LombricABrac

open MsgType

/-! ## The rows -/

/-- The account without its mark. -/
def CompteRow.sansMarque (u : CompteRow) : CompteRow := { u with connected := false }

/-- The worm without its name. -/
def LombRow.sansNom (w : LombRow) : LombRow := { w with name := "" }

/-- What the requests of the users do to the tables. -/
structure Evolue (t t' : Tables) : Prop where
  users : Table.Grows CompteRow.sansMarque (fun u => u.victoryAmount = 0) t.users t'.users
  worms : Table.Grows LombRow.sansNom (fun _ => True) t.worms t'.worms
  messages : Table.Grows id (fun _ => True) t.messages t'.messages
  history : t'.history = t.history

theorem Evolue.trans {t t' t'' : Tables} (h : Evolue t t') (h' : Evolue t' t'') : Evolue t t'' :=
  ⟨h.users.trans h'.users, h.worms.trans h'.worms, h.messages.trans h'.messages, h'.history.trans h.history⟩

namespace Contexte

variable {o : Outils} {recu : List UInt8} {c : Contexte}

/-- The strings that a request splices. -/
def chaines (o : Outils) (type : MsgType) (recu : List UInt8) (usr : ConnectedPlayer) : List String :=
  match type with
  | CLIENT_AUTHENTIFICATION => [(o.lecture.userConnect recu).2.1]
  | CLIENT_SEND_MESSAGE => [(o.lecture.chat recu).1, (o.lecture.chat recu).2]
  | GET_CONVO => [o.lecture.convo recu]
  | UPDATE_LOMBRICS_NAMES => [(o.lecture.lombMod recu).2]
  | GET_HISTORY => [(o.lecture.getHistory recu).1]
  | CLIENT_ASK_FRIENDSHIP => [o.lecture.friAdd recu]
  | CLIENT_ACCEPT_FRIENDSHIP => [(o.lecture.friAccept recu).2]
  | CLIENT_DELETE_FRIENDSHIP => [o.lecture.friRmv recu]
  | DECO => [usr.pseudo]
  | _ => []

end Contexte
end LombricABrac
