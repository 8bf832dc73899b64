import LombricABrac.ClientThread

/-!
# The users of a connection

The users that log in on one connection, one after the other, beside `client_thread`.  Who is logged in is
held by the connection in its id and its pseudonym; the channels that it has subscribed to are those of
all of them.  DECO leaves `m_is_auth` and the channels as they are.

    ajout_authentifie : what each case adds to the journal
    isole_etape       : the steps that write nothing for another user
    isole_of_reach    : the runs of such steps
    deco_ecoute       : a user who has left
-/

namespace LombricABrac

open MsgType

/-! ## What is done -/

/-- A message of the broker or of a room goes to the client. -/
def Geste.transfere : Geste → Bool
  | .envoie (.serverReceiveInvite _) => true
  | .envoie (.notif _) => true
  | _ => false

def ClientThread.Ecrit.transfere : Ecrit → Bool
  | .joinResponse _ => false
  | _ => true

/-- The gesture is neither a lock nor a release. -/
def Geste.agit (g : Geste) : Bool := g.act.isNone

namespace Contexte

/-- The requests that have a case, but for CLIENT_AUTHENTIFICATION. -/
def traitees : List MsgType :=
  [CLIENT_SEND_MESSAGE, GET_CONVO, CLIENT_SEND_INVITE, GET_LOMBRIC_NAMES, UPDATE_LOMBRICS_NAMES, GET_HISTORY,
    GET_RANK, CLIENT_ASK_FRIENDSHIP, CLIENT_ASKS_ALL_INVITATIONS, CLIENT_ACCEPT_FRIENDSHIP,
    CLIENT_ASK_FRIENDSHIP_LIST, SERVER_RECEIVE_INVITE, CLIENT_DELETE_FRIENDSHIP, CLIENT_CREATE_ROOM,
    CHAT_BROKER, DECO, CLIENT_LOOKUP_MATCH]

/-- What is added to the journal has a message for the client or not; something is done. -/
def Ajout (transfert : Bool) (c c' : Contexte) : Prop :=
  ∃ l, c'.journal = c.journal ++ l ∧ l.any Geste.transfere = transfert ∧
    (c.pas < c'.pas ∨ l.any Geste.agit = true)

variable (o : Outils) (recu zmqMsg : List UInt8) (c : Contexte)

theorem Ajout.of_journal {transfert : Bool} {c c' : Contexte} (l : List Geste) (h : c'.journal = c.journal ++ l)
    (ht : l.any Geste.transfere = transfert) (ha : l.any Geste.agit = true) : Ajout transfert c c' :=
  ⟨l, h, ht, Or.inr ha⟩

theorem ajout_clientAskFriendship : Ajout false c (c.clientAskFriendship o recu) := by
  unfold clientAskFriendship
  simp only
  split
  · exact .of_journal [.recoit] rfl rfl rfl
  · split
    · exact .of_journal [.recoit, .verrouille .pub, .publie _, .libere .pub] (List.append_assoc ..) rfl rfl
    · exact .of_journal [.recoit] rfl rfl rfl

theorem ajout_clientAcceptFriendship : Ajout false c (c.clientAcceptFriendship o recu) := by
  unfold clientAcceptFriendship
  simp only
  split
  · exact .of_journal [.recoit] rfl rfl rfl
  · exact .of_journal [.recoit] rfl rfl rfl

theorem ajout_getConvo : Ajout false c (c.getConvo o recu) := by
  obtain ⟨msgs, hj⟩ : ∃ msgs, (c.getConvo o recu).journal =
      c.journal ++ [.recoit, .envoie (.serverMessageTransfer msgs)] := by
    apply Exists.intro
    rw [getConvo, note_journal, journal_auteurs]
    exact List.append_assoc ..
  exact .of_journal _ hj rfl rfl

theorem ajout_getHistory : Ajout false c (c.getHistory o recu) := by
  obtain ⟨history, hj⟩ : ∃ history, (c.getHistory o recu).journal =
      c.journal ++ [.recoit, .envoie (.serverHistoryResponse history)] := by
    apply Exists.intro
    rw [getHistory, note_journal, journal_parties]
    exact List.append_assoc ..
  exact .of_journal _ hj rfl rfl

theorem ajout_sendRoomInvite : Ajout false c (c.sendRoomInvite o recu).2 := by
  unfold sendRoomInvite
  simp only
  split
  · have hj : ∀ d, (((c.note [.recoit, .verrouille .dataBase]).note [.libere .dataBase]).publie d).journal =
        c.journal ++ [.recoit, .verrouille .dataBase, .libere .dataBase, .verrouille .pub, .publie d,
          .libere .pub] := by
      intro d
      simp
    exact .of_journal _ (hj _) rfl rfl
  · exact .of_journal [.recoit, .verrouille .dataBase, .libere .dataBase] (List.append_assoc ..) rfl rfl

/-- **Each case** does something, and two of them write a message to the client. -/
theorem ajout_authentifie (type : MsgType) :
    (type ∈ traitees ∧ Ajout (type == SERVER_RECEIVE_INVITE || type == CHAT_BROKER) c
      (c.authentifie o type recu zmqMsg)) ∨
    (type ∉ traitees ∧ c.authentifie o type recu zmqMsg = c) := by
  by_cases htype : type ∈ traitees
  · refine Or.inl ⟨htype, ?_⟩
    simp only [traitees, List.mem_cons, List.not_mem_nil, or_false] at htype
    rcases htype with rfl | rfl | rfl | rfl | rfl | rfl | rfl | rfl | rfl | rfl | rfl | rfl | rfl | rfl | rfl |
      rfl | rfl
    · exact .of_journal [.recoit, .verrouille .pub, .publie _, .libere .pub] (List.append_assoc ..) rfl rfl
    · exact ajout_getConvo o recu c
    · exact .of_journal [.recoit] rfl rfl rfl
    · exact .of_journal [.envoie (.getLombricNamesResponse _)] rfl rfl rfl
    · exact .of_journal [.recoit] rfl rfl rfl
    · exact ajout_getHistory o recu c
    · exact .of_journal [.recoit, .envoie (.serverRankResponse _)] (List.append_assoc ..) rfl rfl
    · exact ajout_clientAskFriendship o recu c
    · exact .of_journal [.envoie (.clientAsksAllInvitations _)] rfl rfl rfl
    · exact ajout_clientAcceptFriendship o recu c
    · exact .of_journal [.envoie (.serverRespondsFriendshipList _)] rfl rfl rfl
    · exact .of_journal [.envoie (.serverReceiveInvite zmqMsg)] rfl rfl rfl
    · exact .of_journal [.recoit] rfl rfl rfl
    · exact .of_journal [.verrouille .pub, .publie _, .libere .pub] rfl rfl rfl
    · exact .of_journal [.envoie (.notif zmqMsg)] rfl rfl rfl
    · exact ⟨[], (List.append_nil _).symm, rfl, Or.inl (Nat.lt_succ_self _)⟩
    · exact .of_journal [.verrouille .pub, .publie _, .libere .pub] rfl rfl rfl
  · refine Or.inr ⟨htype, ?_⟩
    simp only [traitees, List.mem_cons, List.not_mem_nil, or_false, not_or] at htype
    unfold authentifie
    split <;> first | rfl | simp_all

/-- What a log-in or a registration adds has no message for the client. -/
theorem ajout_authentification : ∃ l, (c.handleInstruction o CLIENT_AUTHENTIFICATION recu zmqMsg).2.journal =
    c.journal ++ l ∧ l.any Geste.transfere = false := by
  obtain ⟨c₁, hc₁⟩ : ∃ c₁, c₁ = ((c.note [.verrouille .dataBase]).note [.recoit]).parse o recu := ⟨_, rfl⟩
  have hj : c₁.journal = c.journal ++ [.verrouille .dataBase, .recoit] := by
    rw [hc₁]
    exact List.append_assoc ..
  cases hreg : c₁.usr.isregister with
  | true =>
    rcases c₁.connexion_cases o with ⟨c', hcon, hj'⟩ | ⟨c', hcon, hj'⟩
    · rw [authentification_acceptee hreg hcon hc₁]
      refine ⟨[.verrouille .dataBase, .recoit, .envoie (.authentificationResponse true),
        .libere .dataBase], ?_, rfl⟩
      rw [hj', hj]
      simp
    · rw [authentification_refusee hreg hcon hc₁]
      refine ⟨[.verrouille .dataBase, .recoit, .envoie (.authentificationResponse false),
        .libere .dataBase], ?_, rfl⟩
      rw [note_journal, hj', hj]
      simp
  | false =>
    rw [authentification_inscription hreg hc₁, journal_registerUser]
    split
    · exact ⟨[.verrouille .dataBase, .recoit, .envoie (.authentificationResponse false)], by simp [hj], rfl⟩
    · exact ⟨[.verrouille .dataBase, .recoit, .envoie (.authentificationResponse true), .libere .dataBase],
        by simp [hj], rfl⟩

/-- **Another request**, whose result is 0, does something where the user is logged in and there is a case. -/
theorem ajout_instruction {type : MsgType} (htype : type ≠ CLIENT_AUTHENTIFICATION) :
    (c.handleInstruction o type recu zmqMsg).1 = 0 ∧
    ∃ l, (c.handleInstruction o type recu zmqMsg).2.journal = c.journal ++ l ∧
      l.any Geste.transfere = (c.usr.isAuth && (type == SERVER_RECEIVE_INVITE || type == CHAT_BROKER)) ∧
      ((c.pas < (c.handleInstruction o type recu zmqMsg).2.pas ∨ l.any Geste.agit = true) ↔
        c.usr.isAuth = true ∧ type ∈ traitees) := by
  unfold handleInstruction
  rw [if_neg htype]
  refine ⟨rfl, ?_⟩
  simp only [note_usr, note_journal, note_pas]
  by_cases hauth : c.usr.isAuth = true
  · simp only [hauth, if_true, Bool.true_and, true_and]
    rcases (c.note [.verrouille .dataBase]).ajout_authentifie o recu zmqMsg type with
      ⟨hin, l, hj, ht, ha⟩ | ⟨hnot, heq⟩
    · refine ⟨.verrouille .dataBase :: l ++ [.libere .dataBase], ?_, ?_, iff_of_true ?_ hin⟩
      · rw [hj]
        simp
      · rw [← ht]
        simp [Geste.transfere]
      · refine ha.imp (fun h => h) fun h => ?_
        rw [List.any_append, List.any_cons, h]
        simp
    · refine ⟨[.verrouille .dataBase, .libere .dataBase], ?_, ?_, iff_of_false ?_ hnot⟩
      · rw [heq]
        exact List.append_assoc ..
      · have h8 : type ≠ SERVER_RECEIVE_INVITE := fun h => hnot (by rw [h]; decide)
        have h100 : type ≠ CHAT_BROKER := fun h => hnot (by rw [h]; decide)
        simp [Geste.transfere, h8, h100]
      · rw [heq]
        simp [Geste.agit, Geste.act]
  · rw [Bool.not_eq_true] at hauth
    simp only [hauth, Bool.false_eq_true, if_false, Bool.false_and, false_and, iff_false]
    refine ⟨[.verrouille .dataBase, .libere .dataBase], ?_, rfl, ?_⟩
    · exact List.append_assoc ..
    · simp [Geste.agit, Geste.act]

end Contexte
namespace ClientThread

/-- A step writes a message to the client; it does something. -/
def transmis (st st' : ClientThread) : Bool :=
  (st'.c.journal.drop st.c.journal.length).any Geste.transfere ||
    (st'.poste.drop st.poste.length).any Ecrit.transfere

def agit (st st' : ClientThread) : Bool :=
  decide (st.c.pas < st'.c.pas) || (st'.c.journal.drop st.c.journal.length).any Geste.agit

def Trame.voie (a : Trame) : Option Voie :=
  match a.part with
  | .adresse v => some v
  | .contenu _ => none

/-- Contents `b` at address `a` are a message for the client. -/
def transmet (a : Trame) (b : Option Trame) (st : ClientThread) : Bool :=
  if st.isOnGame ∧ a.estVoie st.roomChannel then !estRoomClosed b
  else
    let type := (parse b).1
    type == CLIENT_CREATE_ROOM_RESPONSE || type == CLIENT_LOOKUP_RESPONSE ||
      st.c.usr.isAuth && (type == SERVER_RECEIVE_INVITE || type == CHAT_BROKER)

/-- The request is treated without a log-in. -/
def honore (type : MsgType) (st : ClientThread) : Bool :=
  st.isOnGame || type == CLIENT_JOIN_REQUEST || st.c.usr.isAuth && decide (type ∈ Contexte.traitees)

variable {o : OutilsThread} {st st' : ClientThread}

theorem transmis_of {l : List Geste} {e : List Ecrit} (hj : st'.c.journal = st.c.journal ++ l)
    (he : st'.poste = st.poste ++ e) : st.transmis st' = (l.any Geste.transfere || e.any Ecrit.transfere) := by
  rw [transmis, hj, he, List.drop_left, List.drop_left]

theorem transmis_meme (hj : st'.c.journal = st.c.journal) (he : st'.poste = st.poste) :
    st.transmis st' = false :=
  transmis_of (l := []) (e := []) (by rw [hj, List.append_nil]) (by rw [he, List.append_nil])

theorem agit_of {l : List Geste} (hj : st'.c.journal = st.c.journal ++ l) :
    st.agit st' = true ↔ st.c.pas < st'.c.pas ∨ l.any Geste.agit = true := by
  rw [agit, hj, List.drop_left, Bool.or_eq_true, decide_eq_true_eq]

/-- **A message that is read** goes to the client as its type and the state say. -/
theorem transmis_traite {a : Trame} {b : Option Trame} (h : st.traite o a b = some st') :
    st.transmis st' = st.transmet a b := by
  unfold traite at h
  unfold transmet
  simp only at h
  split at h
  · next hg =>
    rw [if_pos hg]
    split at h
    · next hc =>
      cases h
      refine Eq.trans (transmis_meme rfl rfl) ?_
      rw [hc]
      rfl
    · next hc =>
      cases h
      rw [Bool.not_eq_true] at hc
      refine Eq.trans (transmis_of (l := []) (List.append_nil _).symm rfl) ?_
      rw [hc]
      rfl
  · next hg =>
    rw [if_neg hg]
    simp only
    split at h
    · next ht =>
      cases h
      refine Eq.trans (transmis_of (l := []) (List.append_nil _).symm rfl) ?_
      rw [ht]
      rfl
    · next hcreate =>
      split at h
      · next ht =>
        cases h
        refine Eq.trans (transmis_of (l := []) (List.append_nil _).symm rfl) ?_
        rw [ht]
        rfl
      · next hlookup =>
        obtain ⟨⟨res, s⟩, hi, rfl⟩ := Option.map_eq_some_iff.mp h
        obtain ⟨_, _, rfl⟩ := instruction_cases hi
        rw [beq_false_of_ne hcreate, beq_false_of_ne hlookup, Bool.false_or, Bool.false_or]
        by_cases htype : (parse b).1 = CLIENT_AUTHENTIFICATION
        · obtain ⟨l, hj, ht⟩ := st.c.ajout_authentification o.toOutils [] (parse b).2.2
          rw [← htype] at hj
          refine Eq.trans (transmis_of (e := []) hj (List.append_nil _).symm) ?_
          rw [ht, htype]
          cases st.c.usr.isAuth <;> rfl
        · obtain ⟨_, l, hj, ht, _⟩ := st.c.ajout_instruction o.toOutils [] (parse b).2.2 htype
          refine Eq.trans (transmis_of (e := []) hj (List.append_nil _).symm) ?_
          rw [ht]
          exact Bool.or_false _

theorem ajout_redirige (type : MsgType) (recu : List UInt8) (st : ClientThread) :
    Contexte.Ajout false st.c (st.redirige type recu) := by
  unfold redirige
  split
  · exact .of_journal [.recoit, .verrouille .pub, .publie _, .libere .pub] (List.append_assoc ..) rfl rfl
  · exact .of_journal [.verrouille .pub, .publie _, .libere .pub] rfl rfl rfl

theorem transmis_ajout {transfert : Bool} (h : Contexte.Ajout transfert st.c st'.c)
    (hp : st'.poste = st.poste) : st.transmis st' = transfert ∧ st.agit st' = true := by
  obtain ⟨l, hj, ht, ha⟩ := h
  refine ⟨?_, (agit_of hj).mpr ha⟩
  rw [transmis_of (e := []) hj (by rw [hp, List.append_nil]), ht]
  exact Bool.or_false _

/-- During a game a request is treated, and writes no message. -/
theorem transmis_enJeu {type : MsgType} {recu : List UInt8} (hg : st.isOnGame = true)
    (h : st.requete o type recu = some st') : st.transmis st' = false ∧ st.agit st' = true := by
  unfold requete at h
  rw [if_pos hg] at h
  split at h
  · cases h
    exact transmis_ajout (.of_journal [.envoie (.serverRespondsFriendshipList _)] rfl rfl rfl) rfl
  · split at h
    · split at h
      · cases h
        exact transmis_ajout (st.c.ajout_sendRoomInvite o.toOutils recu) rfl
      · cases h
    · cases h
      exact transmis_ajout (st.ajout_redirige type recu) rfl

/-- In the menu it writes one where it asks for the last message again. -/
theorem transmis_menu {type : MsgType} {recu : List UInt8} (hg : st.isOnGame = false)
    (h : st.requete o type recu = some st') :
    st.transmis st' = (st.c.usr.isAuth && (type == SERVER_RECEIVE_INVITE || type == CHAT_BROKER)) ∧
      (type ≠ CLIENT_AUTHENTIFICATION → (st.agit st' = true ↔ st.honore type = true)) := by
  have hgame : ¬ st.isOnGame = true := by rw [hg]; exact Bool.false_ne_true
  rcases requete_cases h with ⟨hno, _⟩ | ⟨_, rfl, rfl⟩ | ⟨_, hjoin, c, _, hc, rfl⟩
  · exact absurd hno hgame
  · have hajout : Contexte.Ajout false st.c (st.join o recu).c :=
      .of_journal [.recoit, .verrouille .pub, .publie _, .libere .pub] (List.append_assoc ..) rfl rfl
    obtain ⟨ht, ha⟩ := @transmis_ajout st (st.join o recu) false hajout rfl
    refine ⟨?_, fun _ => iff_of_true ha (by simp [honore])⟩
    rw [ht]
    cases st.c.usr.isAuth <;> rfl
  · generalize hst' : ({ (if (st.c.handleInstruction o.toOutils type recu st.zmqMsg).1 = 1 then
      { st with c }.abonne else { st with c }) with point := .tete } : ClientThread) = st'
    have hc' : st'.c = (st.c.handleInstruction o.toOutils type recu st.zmqMsg).2 := by
      rw [← hst', ← hc]
      split
      · rfl
      · rfl
    have hposte : st'.poste = st.poste ++ [] := by
      rw [← hst', List.append_nil]
      split
      · rfl
      · rfl
    by_cases htype : type = CLIENT_AUTHENTIFICATION
    · obtain ⟨l, hj, ht⟩ := st.c.ajout_authentification o.toOutils recu st.zmqMsg
      refine ⟨?_, fun hne => absurd htype hne⟩
      rw [← htype, ← hc'] at hj
      rw [transmis_of hj hposte, ht, htype]
      cases st.c.usr.isAuth <;> rfl
    · obtain ⟨_, l, hj, ht, ha⟩ := st.c.ajout_instruction o.toOutils recu st.zmqMsg htype
      rw [← hc'] at hj ha
      refine ⟨?_, fun _ => ?_⟩
      · rw [transmis_of hj hposte, ht]
        exact Bool.or_false _
      · rw [agit_of hj, ha]
        simp [honore, hg, hjoin]

/-- Contents that are read as an address, with an address for contents, or with none. -/
theorem transmet_decale {a : Trame} {b : Option Trame} (ha : a.voie = none)
    (hb : ∀ t, b = some t → ∃ v, t.part = .adresse v) (st : ClientThread) : st.transmet a b = false := by
  have hparse : parse b = (0, 0, []) := by
    cases b with
    | none => rfl
    | some t =>
      obtain ⟨v, hv⟩ := hb t rfl
      obtain ⟨n, part⟩ := t
      cases hv
      rfl
  have hvoie : a.estVoie st.roomChannel = false := by
    unfold Trame.voie at ha
    unfold Trame.estVoie
    cases hpart : a.part with
    | adresse v =>
      rw [hpart] at ha
      cases ha
    | contenu p => rfl
  unfold transmet
  rw [if_neg (by simp [hvoie]), hparse]
  cases st.c.usr.isAuth <;> rfl

/-- The step writes a message to the client. -/
def Pas.transmet (p : Pas) (st : ClientThread) : Bool :=
  match p, st.point, st.boite with
  | .recoit, .contents a, b :: _ => st.transmet a (some b)
  | .expire, .contents a, _ => st.transmet a none
  | .requete type _, _, _ =>
    !st.isOnGame && st.c.usr.isAuth && (type == SERVER_RECEIVE_INVITE || type == CHAT_BROKER)
  | _, _, _ => false

/-- **What a step writes.** -/
theorem transmis_etape {p : Pas} (h : etape o p st = some st') : st.transmis st' = p.transmet st := by
  cases etape_effet h with
  | ailleurs t => exact transmis_meme rfl rfl
  | livre v c hv => exact transmis_meme rfl rfl
  | perdu v c => exact transmis_meme rfl rfl
  | adresse b boite hb hpt =>
    unfold Pas.transmet
    rw [hpt]
    exact transmis_meme rfl rfl
  | contenu a b boite _ hb hpt ht =>
    unfold Pas.transmet
    rw [hpt, hb]
    exact @transmis_traite o { st with boite } st' a (some b) ht
  | joint gameUrl b boite hb hpt =>
    unfold Pas.transmet
    rw [hpt]
    exact Eq.trans (transmis_of (l := []) (List.append_nil _).symm rfl) rfl
  | tour hb hpt =>
    unfold Pas.transmet
    rw [hpt]
    exact transmis_meme rfl rfl
  | vide a _ hb hpt ht =>
    unfold Pas.transmet
    rw [hpt]
    exact transmis_traite ht
  | seul gameUrl hb hpt =>
    unfold Pas.transmet
    rw [hpt]
    exact Eq.trans (transmis_of (l := []) (List.append_nil _).symm rfl) rfl
  | requete type recu _ hcl hr =>
    unfold Pas.transmet
    cases hg : st.isOnGame with
    | true => exact (transmis_enJeu hg hr).1
    | false => exact (transmis_menu hg hr).1
  | silence hcl => exact transmis_meme rfl rfl
  | ferme =>
    by_cases hg : st.isOnGame = true
    · have hajout : Contexte.Ajout false st.c st.ferme.c := by
        rw [ferme, if_pos hg]
        exact .of_journal [.verrouille .pub, .publie _, .libere .pub] rfl rfl rfl
      exact (transmis_ajout hajout rfl).1
    · refine transmis_meme ?_ rfl
      rw [ferme, if_neg hg]

end ClientThread

/-! ## The users -/

def Voie.usager : Voie → Option Int
  | .broker id => some id
  | .joueur id => some id
  | _ => none

open ClientThread (Pas outilsThread)

/-- `session` is the user who is logged in, `deco` says that it has left by DECO, `anciens` are all users so
far and `dernier` is the channel of the message that the thread has read last.  Each message that is written is
kept with its channel and the user at the time; so are the requests that are treated after a DECO. -/
structure Isolement where
  st : ClientThread
  session : Option Int
  deco : Bool
  anciens : List Int
  dernier : Option Voie
  transferts : List (Option Voie × Option Int)
  horsSession : List MsgType

namespace Isolement

/-- The connection has subscribed to the channels of a user: its log-in or registration is accepted. -/
def accueille (st st' : ClientThread) : Bool := decide (st.abonnements.length < st'.abonnements.length)

def quitte (p : Pas) (s : Isolement) : Bool :=
  match p with
  | .requete type _ => type == DECO && !s.st.isOnGame && s.st.c.usr.isAuth
  | _ => false

/-- The account with the pseudonym of the connection, after a log-in. -/
def sessionApres (p : Pas) (st' : ClientThread) (s : Isolement) : Option Int :=
  if accueille s.st st' then st'.c.tables.idDe st'.c.usr.pseudo
  else if s.quitte p then none else s.session

def dernierApres (p : Pas) (s : Isolement) : Option Voie :=
  match p, s.st.point with
  | .recoit, .contents a => a.voie
  | .expire, .contents _ => none
  | _, _ => s.dernier

/-- CLIENT_AUTHENTIFICATION in the menu. -/
def authentifie (type : MsgType) (st : ClientThread) : Bool :=
  type == CLIENT_AUTHENTIFICATION && !st.isOnGame

def estReception : Pas → Bool
  | .recoit => true
  | .expire => true
  | _ => false

def apres (p : Pas) (s : Isolement) (st' : ClientThread) : Isolement where
  st := st'
  session := s.sessionApres p st'
  deco := !accueille s.st st' && (s.quitte p || s.deco)
  anciens := s.anciens ++ if accueille s.st st' then (s.sessionApres p st').toList else []
  dernier := s.dernierApres p
  transferts := s.transferts ++
    if s.st.transmis st' && (estReception p || (s.dernierApres p).isSome) then [(s.dernierApres p, s.session)]
    else []
  horsSession := s.horsSession ++
    match p with
    | .requete type _ => if s.deco && !authentifie type s.st && s.st.agit st' then [type] else []
    | _ => []

def etape (o : OutilsThread) (p : Pas) (s : Isolement) : Option Isolement :=
  (ClientThread.etape o p s.st).map (s.apres p)

def new (t : Tables) : Isolement := ⟨ClientThread.new t, none, false, [], none, [], []⟩

def Depart (s : Isolement) : Prop := ∃ t, s = new t

/-- Each message that is written is for the user who is logged in, and no request is treated between a DECO and
the next log-in. -/
structure Isole (s : Isolement) : Prop where
  transferts : ∀ t ∈ s.transferts, ∃ id, t.1.bind Voie.usager = some id ∧ t.2 = some id
  horsSession : s.horsSession = []

/-! ## The condition -/

/-- The channel is that of a user who has left. -/
def parti (v : Option Voie) (s : Isolement) : Bool :=
  (v.bind Voie.usager).any fun id => s.anciens.contains id && s.session != some id

/-- After a DECO, a request that is no log-in and that has a case. -/
def tardif (p : Pas) (s : Isolement) : Bool :=
  match p with
  | .requete type _ => s.deco && !authentifie type s.st && s.st.honore type
  | _ => false

/-- No message is written for a user who has left, and no request is treated after a DECO. -/
def isole (p : Pas) (s : Isolement) : Bool :=
  !(p.transmet s.st && s.parti (s.dernierApres p)) && !s.tardif p

/-- A log-in or a registration has a pseudonym without quote or null; where it is accepted, the connection reads
the id of the account. -/
def identifie (o : OutilsThread) (p : Pas) (s : Isolement) : Bool :=
  match p with
  | .requete type recu =>
    !authentifie type s.st || decide (Propre (o.lecture.userConnect recu).2.1) &&
      (!s.st.c.accepte o.toOutils recu || s.st.c.identifie o.toOutils recu)
  | _ => true

/-! ## What the steps keep -/

/-- The channel is that of a user who has logged in. -/
def Connu (v : Voie) (s : Isolement) : Prop := ∃ id ∈ s.anciens, v.usager = some id

/-- Addresses and contents follow each other. -/
def Alterne (l : List ClientThread.Trame) : Prop :=
  ∃ ms, l = ClientThread.messages ms ∨ ∃ n p, l = ⟨n, .contenu p⟩ :: ClientThread.messages ms

structure Suivi (s : Isolement) : Prop where
  abonnes : ∀ v ∈ s.st.abonnements, s.Connu v
  trames : ∀ t ∈ s.st.suite, ∀ v, t.voie = some v → s.Connu v
  dernier : ∀ v, s.dernier = some v → s.Connu v
  alterne : Alterne s.st.suite

variable {o : OutilsThread} {p : Pas} {s : Isolement} {st' : ClientThread}

theorem alterne_tail {a : ClientThread.Trame} {l : List ClientThread.Trame} (h : Alterne (a :: l)) :
    Alterne l ∧ ((∃ v b l', a.voie = some v ∧ l = b :: l') ∨
      a.voie = none ∧ ∀ b l', l = b :: l' → ∃ v, b.part = .adresse v) := by
  obtain ⟨ms, h | ⟨n, p, h⟩⟩ := h
  · cases ms with
    | nil => cases h
    | cons m ms =>
      obtain ⟨n, v, p⟩ := m
      cases h
      exact ⟨⟨ms, Or.inr ⟨n, p, rfl⟩⟩, Or.inl ⟨v, _, _, rfl, rfl⟩⟩
  · cases h
    refine ⟨⟨ms, Or.inl rfl⟩, Or.inr ⟨rfl, fun b l' hl => ?_⟩⟩
    cases ms with
    | nil => cases hl
    | cons m ms =>
      cases hl
      exact ⟨_, rfl⟩

theorem alterne_etape (hA : Alterne s.st.suite) (h : ClientThread.etape o p s.st = some st') :
    Alterne st'.suite := by
  rcases ClientThread.etape_lecture h with ⟨hs, _⟩ | ⟨v, c, _, hs, _⟩ | ⟨a, b, hs, _⟩ | ⟨a, _, hs, _⟩ |
    ⟨b, _, hs, _⟩
  · rw [hs]
    exact hA
  · obtain ⟨ms, hm⟩ := hA
    refine ⟨ms ++ [(s.st.livres, v, c)], ?_⟩
    rw [hs, ClientThread.messages_append]
    rcases hm with hm | ⟨n, q, hm⟩
    · exact Or.inl (by rw [hm]; rfl)
    · exact Or.inr ⟨n, q, by rw [hm]; rfl⟩
  · rw [hs] at hA
    exact (alterne_tail (alterne_tail hA).1).1
  · rw [hs]
    exact ⟨[], Or.inl rfl⟩
  · rw [hs] at hA
    exact (alterne_tail hA).1

/-- **The channels** of a connection grow by a log-in or a registration that is accepted. -/
theorem abonnements_etape {st : ClientThread} (h : ClientThread.etape o p st = some st') :
    st'.abonnements = st.abonnements ∨ ∃ recu, p = .requete CLIENT_AUTHENTIFICATION recu ∧
      st.isOnGame = false ∧
      (st.c.handleInstruction o.toOutils CLIENT_AUTHENTIFICATION recu st.zmqMsg).1 = 1 ∧
      st'.c = (st.c.handleInstruction o.toOutils CLIENT_AUTHENTIFICATION recu st.zmqMsg).2 ∧
      st'.abonnements = st.abonnements ++ [.broker st'.c.usr.id, .joueur st'.c.usr.id] := by
  cases ClientThread.etape_effet h with
  | contenu a b boite _ hb hpt ht => exact Or.inl (ClientThread.traite_cases ht).2.2.2.2
  | vide a _ hb hpt ht => exact Or.inl (ClientThread.traite_cases ht).2.2.2.2
  | requete type recu _ hcl hr =>
    rcases ClientThread.requete_cases hr with ⟨_, c, rfl⟩ | ⟨_, _, rfl⟩ | ⟨hg, _, c, _, rfl, rfl⟩
    · exact Or.inl rfl
    · exact Or.inl rfl
    · by_cases hres : (st.c.handleInstruction o.toOutils type recu st.zmqMsg).1 = 1
      · by_cases htype : type = CLIENT_AUTHENTIFICATION
        · subst htype
          rw [if_pos hres]
          exact Or.inr ⟨recu, rfl, hg, hres, rfl, rfl⟩
        · rw [(st.c.ajout_instruction o.toOutils recu st.zmqMsg htype).1] at hres
          cases hres
      · rw [if_neg hres]
        exact Or.inl rfl
  | _ => exact Or.inl rfl

/-- Where the condition holds, the account that logs in is the user of the connection. -/
theorem session_accueille (hh : o.HachePropre) {recu : List UInt8} (hg : s.st.isOnGame = false)
    (hi : identifie o (.requete CLIENT_AUTHENTIFICATION recu) s = true)
    (hres : (s.st.c.handleInstruction o.toOutils CLIENT_AUTHENTIFICATION recu s.st.zmqMsg).1 = 1) :
    let c := (s.st.c.handleInstruction o.toOutils CLIENT_AUTHENTIFICATION recu s.st.zmqMsg).2
    c.tables.idDe c.usr.pseudo = some c.usr.id := by
  intro c
  simp only [identifie, authentifie, hg, Bool.not_false, Bool.and_true, beq_self_eq_true, Bool.not_true,
    Bool.false_or, Bool.and_eq_true, decide_eq_true_eq] at hi
  obtain ⟨hp, hi⟩ := hi
  rcases Contexte.authentification_cases (c := s.st.c) hp hh s.st.zmqMsg with
    ⟨hacc, _, husr, ht⟩ | ⟨_, hno, _⟩
  · rw [hacc, Bool.not_true, Bool.false_or] at hi
    have hid := Contexte.identite_eq hi
    have husers : c.tables.users = (s.st.c.marques o.toOutils recu).users := by rw [ht]
    rw [husr, ← hid]
    unfold Tables.idDe Tables.comptes
    rw [husers]
  · rw [hno] at hres
    cases hres

theorem connu_apres {v : Voie} (h : s.Connu v) (p : Pas) (st' : ClientThread) : (s.apres p st').Connu v := by
  obtain ⟨id, hid, hv⟩ := h
  exact ⟨id, List.mem_append_left _ hid, hv⟩

/-- **What carries it.** -/
theorem suivi_etape (hh : o.HachePropre) (hS : s.Suivi) (hi : identifie o p s = true)
    (h : ClientThread.etape o p s.st = some st') : (s.apres p st').Suivi := by
  constructor
  · intro v hv
    rcases abonnements_etape h with hab | ⟨recu, rfl, hg, hres, hc, hab⟩
    · exact connu_apres (hS.abonnes v (hab ▸ hv)) p st'
    · have hacc : accueille s.st st' = true := by
        rw [accueille, hab, List.length_append]
        simp
      have hsession : s.sessionApres (.requete CLIENT_AUTHENTIFICATION recu) st' = some st'.c.usr.id := by
        rw [sessionApres, if_pos hacc, hc]
        exact session_accueille hh hg hi hres
      have hmem : st'.c.usr.id ∈ (s.apres (.requete CLIENT_AUTHENTIFICATION recu) st').anciens := by
        simp [apres, hacc, hsession]
      rw [show (s.apres _ st').st = st' from rfl, hab, List.mem_append] at hv
      rcases hv with hv | hv
      · exact connu_apres (hS.abonnes v hv) _ st'
      · simp only [List.mem_cons, List.not_mem_nil, or_false] at hv
        rcases hv with rfl | rfl
        · exact ⟨_, hmem, rfl⟩
        · exact ⟨_, hmem, rfl⟩
  · intro t ht v hv
    refine connu_apres ?_ p st'
    have hmem : t ∈ st'.suite := ht
    rcases ClientThread.etape_lecture h with ⟨hs, _⟩ | ⟨w, c, hw, hs, _⟩ | ⟨a, b, hs, _⟩ | ⟨a, _, hs, _⟩ |
      ⟨b, _, hs, _⟩
    · exact hS.trames t (hs ▸ hmem) v hv
    · rw [hs, List.mem_append] at hmem
      rcases hmem with hmem | hmem
      · exact hS.trames t hmem v hv
      · simp only [List.mem_cons, List.not_mem_nil, or_false] at hmem
        rcases hmem with rfl | rfl
        · cases hv
          obtain ⟨v', hv', hpre⟩ := List.any_eq_true.mp hw
          rw [Voie.prefixe_iff] at hpre
          exact hS.abonnes _ (hpre ▸ hv')
        · cases hv
    · exact hS.trames t (by rw [hs]; exact List.mem_cons_of_mem _ (List.mem_cons_of_mem _ hmem)) v hv
    · rw [hs] at hmem
      cases hmem
    · exact hS.trames t (by rw [hs]; exact List.mem_cons_of_mem _ hmem) v hv
  · intro v hv
    refine connu_apres ?_ p st'
    have hv : s.dernierApres p = some v := hv
    unfold dernierApres at hv
    split at hv
    · next a hpt hv =>
      refine hS.trames a ?_ v hv
      rw [ClientThread.suite_contents hpt]
      exact List.mem_cons_self
    · cases hv
    · exact hS.dernier v hv
  · exact alterne_etape hS.alterne h

/-- The channel of a message that is written is known. -/
theorem dernier_connu (hS : s.Suivi) (h : ClientThread.etape o p s.st = some st')
    (ht : p.transmet s.st = true) (hp : (estReception p || (s.dernierApres p).isSome) = true) :
    ∃ v, s.dernierApres p = some v ∧ s.Connu v := by
  cases ClientThread.etape_effet h with
  | contenu a b boite _ hb hpt =>
    have hsuite : s.st.suite = a :: b :: boite := by rw [ClientThread.suite_contents hpt, hb]
    have hdernier : s.dernierApres .recoit = a.voie := by
      unfold dernierApres
      rw [hpt]
    have halt := hS.alterne
    rw [hsuite] at halt
    rcases (alterne_tail halt).2 with ⟨v, _, _, hv, _⟩ | ⟨hv, hb'⟩
    · refine ⟨v, hdernier.trans hv, hS.trames a ?_ v hv⟩
      rw [hsuite]
      exact List.mem_cons_self
    · -- contents that are read as an address are followed by an address
      unfold ClientThread.Pas.transmet at ht
      rw [hpt, hb] at ht
      simp only at ht
      rw [ClientThread.transmet_decale hv] at ht
      · cases ht
      · rintro t ⟨⟩
        exact hb' b boite rfl
  | vide a _ hb hpt =>
    have halt := hS.alterne
    rw [ClientThread.suite_contents hpt, hb] at halt
    rcases (alterne_tail halt).2 with ⟨_, _, _, _, hl⟩ | ⟨hv, _⟩
    · cases hl
    · unfold ClientThread.Pas.transmet at ht
      rw [hpt] at ht
      simp only at ht
      rw [ClientThread.transmet_decale hv (by simp)] at ht
      cases ht
  | requete type recu _ hcl hr =>
    obtain ⟨v, hv⟩ := Option.isSome_iff_exists.mp hp
    exact ⟨v, hv, hS.dernier v hv⟩
  | adresse b boite hb hpt | joint gameUrl b boite hb hpt | tour hb hpt | seul gameUrl hb hpt =>
    unfold ClientThread.Pas.transmet at ht
    rw [hpt] at ht
    cases ht
  | _ => cases ht

/-- A message that is written is for the user who is logged in, unless it is for one who has left. -/
theorem transferts_etape (hS : s.Suivi) (hI : s.Isole) (h : ClientThread.etape o p s.st = some st') :
    (p.transmet s.st && s.parti (s.dernierApres p)) = false ↔
      ∀ t ∈ (s.apres p st').transferts, ∃ id, t.1.bind Voie.usager = some id ∧ t.2 = some id := by
  have happres : (s.apres p st').transferts = s.transferts ++
      if p.transmet s.st && (estReception p || (s.dernierApres p).isSome) then [(s.dernierApres p, s.session)]
      else [] := by
    rw [← ClientThread.transmis_etape h]
    rfl
  rw [happres]
  cases ht : p.transmet s.st with
  | false => simpa using hI.transferts
  | true =>
    cases hp : estReception p || (s.dernierApres p).isSome with
    | false =>
      rw [Bool.or_eq_false_iff, Option.isSome_eq_false_iff, Option.isNone_iff_eq_none] at hp
      simpa [hp.2, parti] using hI.transferts
    | true =>
      obtain ⟨v, hv, id, hid, husager⟩ := dernier_connu hS h ht hp
      have hparti : s.parti (some v) = false ↔ s.session = some id := by
        simp [parti, husager, hid]
      rw [hv, Bool.true_and, hparti, Bool.and_self, if_pos rfl]
      constructor
      · intro hs t hmem
        rcases List.mem_append.mp hmem with hmem | hmem
        · exact hI.transferts t hmem
        · rw [List.mem_singleton] at hmem
          subst hmem
          exact ⟨id, husager, hs⟩
      · intro hall
        obtain ⟨id', hid', hs⟩ := hall _ (List.mem_append_right _ (List.mem_singleton.mpr rfl))
        have heq : some id = some id' := husager.symm.trans hid'
        exact hs.trans heq.symm

/-- **One step** keeps it exactly where no message is written for a user who has left, and no request is
treated after a DECO. -/
theorem isole_etape (hS : s.Suivi) (hI : s.Isole) (h : ClientThread.etape o p s.st = some st') :
    s.isole p = true ↔ (s.apres p st').Isole := by
  have htrans := transferts_etape hS hI h
  have hhors : s.tardif p = false ↔ (s.apres p st').horsSession = [] := by
    simp only [apres, hI.horsSession, List.nil_append]
    cases ClientThread.etape_effet h with
    | requete type recu _ hcl hr =>
      have hagit : authentifie type s.st = true ∨ s.st.agit st' = s.st.honore type := by
        cases hg : s.st.isOnGame with
        | true =>
          right
          rw [(ClientThread.transmis_enJeu hg hr).2, ClientThread.honore, hg]
          rfl
        | false =>
          by_cases htype : type = CLIENT_AUTHENTIFICATION
          · left
            rw [authentifie, htype, hg]
            rfl
          · right
            exact Bool.eq_iff_iff.mpr ((ClientThread.transmis_menu hg hr).2 htype)
      simp only [tardif]
      rcases hagit with ha | ha
      · simp [ha]
      · rw [ha]
        cases s.deco && !authentifie type s.st && s.st.honore type <;> simp
    | _ => exact iff_of_true rfl rfl
  rw [isole, Bool.and_eq_true, Bool.not_eq_true', Bool.not_eq_true', htrans, hhors]
  exact ⟨fun h => ⟨h.1, h.2⟩, fun h => ⟨h.transferts, h.horsSession⟩⟩

/-- **Each message is for the user who is logged in**: in every run in which no message is written for a
user who has left, no request is treated after a DECO, and a log-in has a clean pseudonym and reads the
id of its account, the messages that are written are for the user who is logged in, and nothing is done
between a DECO and the next log-in; the first step that writes or treats such a one does not keep it. -/
theorem isole_of_reach (o : OutilsThread) (hh : o.HachePropre) (s : Isolement)
    (h : Runs.Reach (etape o) (fun p s => s.isole p = true ∧ identifie o p s = true) Depart s) :
    s.Isole ∧ ∀ p s', etape o p s = some s' → (s.isole p = true ↔ s'.Isole) := by
  have hinv : s.Suivi ∧ s.Isole := by
    refine h.invariant (I := fun s => s.Suivi ∧ s.Isole) ?_ ?_
    · rintro _ ⟨t, rfl⟩
      exact ⟨⟨nofun, nofun, nofun, [], Or.inl rfl⟩, nofun, rfl⟩
    · rintro p s s' ⟨hS, hI⟩ ⟨hok, hi⟩ hs
      obtain ⟨st', hst, rfl⟩ := Option.map_eq_some_iff.mp hs
      exact ⟨suivi_etape hh hS hi hst, (isole_etape hS hI hst).mp hok⟩
  refine ⟨hinv.2, fun p s' hs => ?_⟩
  obtain ⟨st', hst, rfl⟩ := Option.map_eq_some_iff.mp hs
  exact isole_etape hinv.1 hinv.2 hst

/-! ## A user who has left -/

/-- The broker has a message for user `id`, and the connection reads it. -/
def chat (id : Int) : List Pas := [.livre (.broker id) (.zmq CHAT_BROKER 1 [104, 105]), .recoit, .recoit]

/-- "a" leaves, and the message for it goes to the client all the same; so it does when "b" has logged in. -/
theorem deco_ecoute : ∃ s, Runs.Reach (etape outilsThread) (fun _ _ => True) Depart s ∧
    s.transferts = [(some (.broker 1), none), (some (.broker 1), some 2)] ∧ ¬ s.Isole := by
  obtain ⟨s, _, hr, hp⟩ := Runs.exists_of_exec (etape outilsThread) (fun _ _ => True)
    (show Depart (new deuxComptes) from ⟨_, rfl⟩)
    ([.requete CLIENT_AUTHENTIFICATION [1], .expire, .requete DECO []] ++ chat 1 ++
      [.expire, .requete CLIENT_AUTHENTIFICATION [2]] ++ chat 1)
    (fun s => s.transferts == [(some (.broker 1), none), (some (.broker 1), some 2)]) (by decide +kernel)
  refine ⟨s, hr, beq_iff_eq.mp hp, fun hI => ?_⟩
  obtain ⟨_, _, hs⟩ := hI.transferts (some (.broker 1), none) (by rw [beq_iff_eq.mp hp]; simp)
  cases hs

/-- Each of them gets its own messages. -/
theorem deco_suivante : ∃ s, Runs.exec (etape outilsThread)
      (fun p s => s.isole p = true ∧ identifie outilsThread p s = true)
      ([.requete CLIENT_AUTHENTIFICATION [1]] ++ chat 1 ++ [.expire, .requete DECO [], .expire,
        .requete CLIENT_AUTHENTIFICATION [2]] ++ chat 2) (new deuxComptes) = some s ∧
    s.transferts = [(some (.broker 1), some 1), (some (.broker 2), some 2)] ∧ s.Isole := by
  obtain ⟨s, hs, hr, hp⟩ := Runs.exists_of_exec (etape outilsThread)
    (fun p s => s.isole p = true ∧ identifie outilsThread p s = true)
    (show Depart (new deuxComptes) from ⟨_, rfl⟩)
    ([.requete CLIENT_AUTHENTIFICATION [1]] ++ chat 1 ++ [.expire, .requete DECO [], .expire,
      .requete CLIENT_AUTHENTIFICATION [2]] ++ chat 2)
    (fun s => s.transferts == [(some (.broker 1), some 1), (some (.broker 2), some 2)]) (by decide +kernel)
  exact ⟨s, hs, beq_iff_eq.mp hp, (isole_of_reach outilsThread hachePropre_outilsComptes s hr).1⟩

end Isolement
end LombricABrac
