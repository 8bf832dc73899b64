import LombricABrac.Inertes
import LombricABrac.ClientThread
import LombricABrac.Listener

/-!
# A body that does not come

`client_thread` over its socket.  Where the peer closes or a call fails before a body is read whole, `reception`
says so, and no caller looks at what it says: the request goes on with the buffer as it is.

    requete_inerte_iff : the requests that do nothing all the same
    sains_of_reach     : the runs of such requests
    message_redit      : a message that is sent again
-/

namespace LombricABrac

open MsgType

/-- SQLite may make something else of a text that is not the statement meant. -/
def OutilsThread.avec (autre : String → Tables → Reponse) (o : OutilsThread) : OutilsThread :=
  { o with toOutils := o.toOutils.avec autre o.indefini }

/-! ## The buffer -/

namespace Listener

/-- `reception` where the peer closes, or a call fails, once `coupe` bytes are read; the others stay. -/
def receptionCoupee (m : Monde) (coupe : Nat) (l : Listener) (p : Prise) : Bool × Listener × Prise :=
  let (ok, l, q) := l.reception m ⟨p.socket.take coupe, p.appels⟩
  (ok, l, ⟨q.socket ++ p.socket.drop coupe, q.appels⟩)

end Listener

/-! ## A request -/

namespace ClientThread

/-- The request has a body. -/
def litCorps (type : MsgType) (st : ClientThread) : Bool :=
  Requete.Etat.lit type ⟨st.c.usr.isAuth, st.isOnGame⟩

/-- The request does nothing, for what the buffer holds: it waits for the tables, or its case does nothing.
What goes to a room does something. -/
def inerte (o : OutilsThread) (type : MsgType) (recu : List UInt8) (st : ClientThread) : Bool :=
  if st.isOnGame then type == CLIENT_SEND_INVITE && (!st.libre || st.c.salleInerte o.toOutils recu)
  else type != CLIENT_JOIN_REQUEST && (!st.libre || st.c.inerte o.toOutils recu type)

variable {o : OutilsThread} {type : MsgType} {recu : List UInt8} {st : ClientThread}

theorem not_rien_room {c c' : Contexte} {gameUrl : String} {usrId : Nat} {message : List UInt8}
    (hd : diffusions c'.journal = diffusions c.journal ++ [.room gameUrl type usrId message]) :
    ¬ Contexte.Rien c c' := by
  rw [Contexte.rien_of _ hd]
  rintro ⟨_, h⟩
  exact Bool.noConfusion (h _ (List.mem_singleton.mpr rfl))

/-- **An invitation** from a game. -/
theorem inviteSalle_inerte_iff (hg : st.isOnGame = true) :
    (∀ autre st', st.requete (o.avec autre) CLIENT_SEND_INVITE recu = some st' → Contexte.Rien st.c st'.c) ↔
      (!st.libre || st.c.salleInerte o.toOutils recu) = true := by
  have hrequete : ∀ autre, st.requete (o.avec autre) CLIENT_SEND_INVITE recu = if st.libre then
      some { st with c := (st.c.sendRoomInvite (o.avec autre).toOutils recu).2, point := .tete } else none := by
    intro autre
    unfold requete
    rw [if_pos hg, if_neg (by decide), if_pos rfl]
  simp only [hrequete]
  cases st.libre with
  | true =>
    refine Iff.trans ?_ (@Contexte.salleInerte_iff o.toOutils recu st.c)
    exact ⟨fun h autre => h autre _ rfl, fun h autre st' hs => by cases hs; exact h autre⟩
  | false => exact iff_of_true (fun _ _ hs => by cases hs) rfl

theorem not_rien_redirige (ht : type ≠ INFO_ROOM ∧ type ≠ START) :
    ¬ Contexte.Rien st.c (st.redirige type recu) := by
  have hd : diffusions (st.redirige type recu).journal =
      diffusions st.c.journal ++ [.room st.gameUrl type (u32 st.c.usr.id) recu] := by
    rw [redirige, if_pos ht, Contexte.publie_journal, Contexte.note_journal, diffusions_publie,
      diffusions_muet _ rfl]
  exact not_rien_room hd

theorem not_rien_join : ¬ Contexte.Rien st.c (st.join o recu).c := by
  have hj : (st.join o recu).c.journal = st.c.journal ++ [.recoit] ++ [.verrouille .pub,
      .publie (.room (Voie.salle (Partie.int32 (o.join recu))).texte PING (u32 st.c.usr.id)
        "ping".toUTF8.toList), .libere .pub] := rfl
  have hd : diffusions (st.join o recu).c.journal = diffusions st.c.journal ++
      [.room (Voie.salle (Partie.int32 (o.join recu))).texte PING (u32 st.c.usr.id) "ping".toUTF8.toList] := by
    rw [hj, diffusions_publie, diffusions_muet _ rfl]
  exact not_rien_room hd

/-- **A call of `handle_instruction`**, and the subscriptions that may follow. -/
theorem instruction_inerte_iff (hg : st.isOnGame = false) (hjoin : type ≠ CLIENT_JOIN_REQUEST)
    (hlit : Requete.handleInstruction st.c.usr.isAuth type = true) :
    (∀ autre st', st.requete (o.avec autre) type recu = some st' → Contexte.Rien st.c st'.c) ↔
      (!st.libre || st.c.inerte o.toOutils recu type) = true := by
  have hrequete : ∀ autre, st.requete (o.avec autre) type recu =
      (st.instruction (o.avec autre) type recu).map fun r =>
        { (if r.1 = 1 then r.2.abonne else r.2) with point := .tete } := by
    intro autre
    unfold requete
    rw [if_neg (by rw [hg]; exact Bool.false_ne_true), if_neg hjoin]
  simp only [hrequete, instruction]
  cases st.libre with
  | true =>
    refine Iff.trans ?_ (@Contexte.inerte_iff o.toOutils recu st.c st.zmqMsg type hlit)
    have hc : ∀ (res : Nat) (s : ClientThread),
        ({ (if res = 1 then s.abonne else s) with point := .tete } : ClientThread).c = s.c := by
      intro res s
      split
      · rfl
      · rfl
    constructor
    · intro h autre
      have hautre := h autre _ rfl
      rwa [hc] at hautre
    · rintro h autre st' hs
      cases hs
      rw [hc]
      exact h autre
  | false => exact iff_of_true (fun _ _ hs => by cases hs) rfl

/-- **A request** does nothing, whatever SQLite makes of a text that is not the statement meant. -/
theorem requete_inerte_iff (hlit : st.litCorps type = true) :
    (∀ autre st', st.requete (o.avec autre) type recu = some st' → Contexte.Rien st.c st'.c) ↔
      st.inerte o type recu = true := by
  unfold litCorps Requete.Etat.lit at hlit
  unfold inerte
  by_cases hg : st.isOnGame = true
  · rw [if_pos hg] at hlit ⊢
    have hlist : type ≠ CLIENT_ASK_FRIENDSHIP_LIST := by
      rintro rfl
      cases hlit
    rw [if_neg hlist] at hlit
    by_cases hinvite : type = CLIENT_SEND_INVITE
    · subst hinvite
      exact inviteSalle_inerte_iff hg
    · rw [if_neg hinvite, Bool.and_eq_true, bne_iff_ne, bne_iff_ne] at hlit
      refine iff_of_false (fun h => ?_) (by simp [hinvite])
      have hrequete : st.requete (o.avec o.sql.autre) type recu =
          some { st with c := st.redirige type recu, point := .tete } := by
        unfold requete
        rw [if_pos hg, if_neg hlist, if_neg hinvite]
      exact not_rien_redirige hlit (h o.sql.autre _ hrequete)
  · rw [if_neg hg] at hlit ⊢
    by_cases hjoin : type = CLIENT_JOIN_REQUEST
    · subst hjoin
      refine iff_of_false (fun h => ?_) (by simp)
      have hrequete : st.requete (o.avec o.sql.autre) CLIENT_JOIN_REQUEST recu =
          some (st.join (o.avec o.sql.autre) recu) := by
        unfold requete
        rw [if_neg hg, if_pos rfl]
      exact not_rien_join (h o.sql.autre _ hrequete)
    · rw [if_neg hjoin] at hlit
      have hne : (type != CLIENT_JOIN_REQUEST) = true := bne_iff_ne.mpr hjoin
      rw [hne, Bool.true_and]
      exact instruction_inerte_iff (Bool.eq_false_iff.mpr hg) hjoin hlit

end ClientThread

/-! ## A connection -/

/-- `echecs` are the requests whose body was not read whole: what there was before and after. -/
structure Liaison where
  thread : ClientThread
  laPoste : Listener
  prise : Prise
  echecs : List (Contexte × Contexte)

namespace Liaison

/-- A step of the thread without its client, or the next byte that the client has sent; the peer closes, or a
call fails, `coupe` bytes later, and the buffer holds `recu` then. -/
inductive Pas where
  | thread (p : ClientThread.Pas)
  | lit (coupe : Nat) (recu : List UInt8)

variable (o : OutilsThread) (m : Monde)

/-- What `reception` returns is not looked at. -/
def demande (type : MsgType) (coupe : Nat) (recu : List UInt8) (p : Prise) (b : Liaison) : Option Liaison :=
  if b.thread.litCorps type then
    let (ok, laPoste, prise) := b.laPoste.receptionCoupee m coupe p
    if Memory.CString laPoste.strBuffer recu then
      (ClientThread.etape o (.requete type recu) b.thread).map fun thread =>
        { thread, laPoste, prise, echecs := if ok then b.echecs else b.echecs ++ [(b.thread.c, thread.c)] }
    else none
  else (ClientThread.etape o (.requete type recu) b.thread).map fun thread => { b with thread, prise := p }

def estRequete : ClientThread.Pas → Bool
  | .requete _ _ => true
  | _ => false

def etape (pas : Pas) (b : Liaison) : Option Liaison :=
  match pas with
  | .thread p =>
    if estRequete p then none else (ClientThread.etape o p b.thread).map fun thread => { b with thread }
  | .lit coupe recu =>
    match b.prise.recv m.part 1 with
    | ([type], p) =>
      if type = 0 then (ClientThread.etape o .silence b.thread).map fun thread => { b with thread, prise := p }
      else if type = 1 then (ClientThread.etape o .ferme b.thread).map fun thread => { b with thread, prise := p }
      else b.demande o m type coupe recu p
    | _ => none

/-- The start of `client_thread`. -/
def new (t : Tables) (laPoste : Listener) (socket : List UInt8) : Liaison :=
  ⟨ClientThread.new t, laPoste, ⟨socket, 0⟩, []⟩

/-- The buffer is what the memory held. -/
def Depart (b : Liaison) : Prop :=
  ∃ t strBuffer packetSize socket, b = new t (Listener.new strBuffer packetSize) socket

/-- The requests whose body was not read whole have done nothing. -/
def Sains (b : Liaison) : Prop := ∀ e ∈ b.echecs, Contexte.Rien e.1 e.2

/-! ## The condition -/

/-- The body of a request is not read whole. -/
def ratee (type : MsgType) (coupe : Nat) (recu : List UInt8) (p : Prise) (b : Liaison) : Bool :=
  b.thread.auClient && type != 0 && type != 1 && b.thread.litCorps type &&
    !(b.laPoste.receptionCoupee m coupe p).1 &&
    decide (Memory.CString (b.laPoste.receptionCoupee m coupe p).2.1.strBuffer recu)

/-- Where a body is not read whole, the request does nothing with what the buffer holds. -/
def inerte (pas : Pas) (b : Liaison) : Bool :=
  match pas with
  | .thread _ => true
  | .lit coupe recu =>
    match b.prise.recv m.part 1 with
    | ([type], p) => !b.ratee m type coupe recu p || b.thread.inerte o type recu
    | _ => true

variable {o m} {b b' : Liaison}

/-! ## Runs -/

theorem sains_append (h : b.Sains) (c c' : Contexte) (hb : b'.echecs = b.echecs ++ [(c, c')]) :
    b'.Sains ↔ Contexte.Rien c c' := by
  rw [Sains, hb, List.forall_mem_append, List.forall_mem_singleton]
  exact and_iff_right h

/-- A step that adds none. -/
theorem sains_map (h : b.Sains) {s : Option ClientThread} {f : ClientThread → Liaison} (hs : s.map f = some b')
    (hf : ∀ thread, (f thread).echecs = b.echecs) : b'.Sains := by
  obtain ⟨thread, _, rfl⟩ := Option.map_eq_some_iff.mp hs
  rw [Sains, hf]
  exact h

/-- **A request of the client.** -/
theorem sains_demande (h : b.Sains) {type : MsgType} (h0 : type ≠ 0) (h1 : type ≠ 1) (coupe : Nat)
    (recu : List UInt8) (p : Prise) :
    (∀ autre b', b.demande (o.avec autre) m type coupe recu p = some b' → b'.Sains) ↔
      (!b.ratee m type coupe recu p || b.thread.inerte o type recu) = true := by
  have hetape : ∀ autre, ClientThread.etape (o.avec autre) (.requete type recu) b.thread =
      if b.thread.auClient then b.thread.requete (o.avec autre) type recu else none := by
    intro autre
    show (if b.thread.auClient ∧ type ≠ 0 ∧ type ≠ 1 then _ else _) = _
    simp only [h0, h1, ne_eq, not_false_eq_true, and_self, and_true]
  have hne0 : (type != 0) = true := bne_iff_ne.mpr h0
  have hne1 : (type != 1) = true := bne_iff_ne.mpr h1
  unfold demande ratee
  rw [hne0, hne1, Bool.and_true, Bool.and_true]
  by_cases hlit : b.thread.litCorps type = true
  · rw [hlit, Bool.and_true]
    obtain ⟨ok, laPoste, prise, hr⟩ : ∃ ok l q, b.laPoste.receptionCoupee m coupe p = (ok, l, q) :=
      ⟨_, _, _, rfl⟩
    simp only [hr, if_true, hetape]
    by_cases hstr : Memory.CString laPoste.strBuffer recu
    · simp only [if_pos hstr, decide_eq_true hstr, Bool.and_true]
      cases hcl : b.thread.auClient with
      | false => exact iff_of_true (fun _ _ hs => by cases hs) rfl
      | true =>
        cases ok with
        | true => exact iff_of_true (fun _ _ hs => sains_map h hs fun _ => rfl) rfl
        | false =>
          refine Iff.trans ?_ (@ClientThread.requete_inerte_iff o type recu b.thread hlit)
          constructor
          · intro hall autre st' hs
            have hb := hall autre _ (Option.map_eq_some_iff.mpr ⟨st', hs, rfl⟩)
            exact (sains_append h _ _ rfl).mp hb
          · intro hall autre b' hs
            obtain ⟨st', hst, rfl⟩ := Option.map_eq_some_iff.mp hs
            exact (sains_append h _ _ rfl).mpr (hall autre st' hst)
    · simp only [if_neg hstr, decide_eq_false hstr, Bool.and_false]
      exact iff_of_true (fun _ _ hs => by cases hs) rfl
  · rw [Bool.not_eq_true] at hlit
    simp only [hlit, Bool.and_false, Bool.false_eq_true, if_false]
    exact iff_of_true (fun _ _ hs => sains_map h hs fun _ => rfl) rfl

theorem sains_etape (h : b.Sains) (pas : Pas) :
    (∀ autre b', etape (o.avec autre) m pas b = some b' → b'.Sains) ↔ inerte o m pas b = true := by
  cases pas with
  | thread p =>
    refine iff_of_true (fun autre b' hs => ?_) rfl
    simp only [etape] at hs
    split at hs
    · cases hs
    · exact sains_map h hs fun _ => rfl
  | lit coupe recu =>
    obtain ⟨lus, p, hr⟩ : ∃ lus p, b.prise.recv m.part 1 = (lus, p) := ⟨_, _, rfl⟩
    simp only [etape, inerte, hr]
    match lus with
    | [] => exact iff_of_true (fun _ _ hs => by cases hs) rfl
    | [type] =>
      simp only
      by_cases h0 : type = 0
      · simp only [if_pos h0]
        refine iff_of_true (fun _ _ hs => sains_map h hs fun _ => rfl) ?_
        simp [ratee, h0]
      · by_cases h1 : type = 1
        · simp only [if_neg h0, if_pos h1]
          refine iff_of_true (fun _ _ hs => sains_map h hs fun _ => rfl) ?_
          simp [ratee, h1]
        · simp only [if_neg h0, if_neg h1]
          exact sains_demande h h0 h1 coupe recu p
    | _ :: _ :: _ => exact iff_of_true (fun _ _ hs => by cases hs) rfl

/-- **A request whose body does not come does nothing**, in every run in which each of them does nothing with
what the buffer holds; the first one that does something is no such request. -/
theorem sains_of_reach (o : OutilsThread) (m : Monde) (b : Liaison)
    (h : Runs.Reach (etape o m) (fun p b => inerte o m p b = true) Depart b) :
    b.Sains ∧ ∀ p, (∀ autre b', etape (o.avec autre) m p b = some b' → b'.Sains) ↔ inerte o m p b = true := by
  have hS : b.Sains := by
    refine h.invariant (I := Sains) ?_ fun p b b' hI hok hs => (sains_etape hI p).mpr hok o.sql.autre b' hs
    rintro _ ⟨t, strBuffer, packetSize, socket, rfl⟩
    exact nofun
  exact ⟨hS, sains_etape hS⟩

/-! ## The peer closes -/

/-- The body [7] is a message for "b". -/
def outilsChat : OutilsThread :=
  { ClientThread.outilsThread with lecture := { ClientThread.outilsThread.lecture with
      chat := fun b => if b = [7] then ("b", "x") else ("", "") } }

/-- Each call moves all that it is asked for, and new memory is clear. -/
def monde : Monde := ⟨fun _ => 128, fun _ => 0⟩

/-- "a" logs in; `suite` are the next bytes of the client, then it closes. -/
def ouverte (suite : List UInt8) : Liaison :=
  new deuxComptes (Listener.new (fun _ => 0) fun _ => 0) ([2, 0, 0, 0, 1, 1] ++ suite)

theorem depart_ouverte (suite : List UInt8) : Depart (ouverte suite) := ⟨_, _, _, _, rfl⟩

def lus (suite : List Pas) : List Pas := [.lit 128 [1], .thread .expire] ++ suite

/-- "a" sends a message to "b", then the type of another one and nothing more: the first is sent again. -/
theorem message_redit : ∃ b, Runs.Reach (etape outilsChat monde) (fun _ _ => True) Depart b ∧
    b.thread.c.tables.messages.map (fun r => (r.receiverId, r.content)) = [(2, "x"), (2, "x")] ∧
    b.echecs.length = 1 ∧ ¬ b.Sains := by
  obtain ⟨b, _, hr, hp⟩ := Runs.exists_of_exec (etape outilsChat monde) (fun _ _ => True)
    (depart_ouverte [4, 0, 0, 0, 1, 7, 4]) (lus [.lit 128 [7], .thread .expire, .lit 128 [7]])
    (fun b => b.thread.c.tables.messages.map (fun r => (r.receiverId, r.content)) == [(2, "x"), (2, "x")] &&
      b.echecs.map (fun e => (e.1.tables.messages.length, e.2.tables.messages.length)) == [(1, 2)])
    (by decide +kernel)
  rw [Bool.and_eq_true, beq_iff_eq, beq_iff_eq] at hp
  obtain ⟨hmessages, hechecs⟩ := hp
  obtain ⟨e, he, hlen⟩ := List.map_eq_singleton_iff.mp hechecs
  refine ⟨b, hr, hmessages, by rw [he]; rfl, fun hS => ?_⟩
  have hrien := hS e (by rw [he]; exact List.mem_singleton.mpr rfl)
  rw [hrien.tables] at hlen
  have h12 := (Prod.mk.inj hlen).1.symm.trans (Prod.mk.inj hlen).2
  exact absurd h12 (by decide)

/-- "a" asks for a conversation and closes once the length is sent. -/
theorem convo_coupee : ∃ b, Runs.exec (etape outilsChat monde) (fun p b => inerte outilsChat monde p b = true)
      (lus [.lit 128 []]) (ouverte [6, 0, 0, 0, 1]) = some b ∧ b.echecs.length = 1 ∧ b.Sains := by
  obtain ⟨b, hb, hr, hp⟩ := Runs.exists_of_exec (etape outilsChat monde)
    (fun p b => inerte outilsChat monde p b = true) (depart_ouverte [6, 0, 0, 0, 1]) (lus [.lit 128 []])
    (fun b => b.echecs.length == 1) (by decide +kernel)
  exact ⟨b, hb, beq_iff_eq.mp hp, (sains_of_reach outilsChat monde b hr).1⟩

end Liaison
end LombricABrac
