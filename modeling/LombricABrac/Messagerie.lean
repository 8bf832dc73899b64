import LombricABrac.Ecrans
import LombricABrac.Lib.Relay
import LombricABrac.Lib.Runs
import LombricABrac.Voies

/-!
# Messages from one user to another

`handle_instruction` writes a message to the tables and publishes it on `all`; the broker publishes it again for
its receiver; the thread of the receiver sends it to the client, which keeps it.  Users log in and leave, and the
other threads publish and change the tables.  A user who is waiting for a room that he asked to join is left
out: his thread takes whatever comes first for the answer of the room.  So are DECO and a second log-in on one
connection: its first subscription stays (`deco_ecoute`), and the client would read the messages of both users.

    tenue_etape      : one step, which keeps the broker a relay of what the tables hold
    livres_of_reach  : what a client has read and what is on its way to it are what the tables say
-/

namespace LombricABrac

open MsgType

/-! ## Publications on `all` -/

/-- The `ZMQ_msg` that is published on `all`. -/
def Diffusion.zmq : Diffusion → Option Proto.Zmq
  | chatBroker receiverId pseudo msg => some ⟨receiverId, CHAT_BROKER.toNat, Proto.chat.serialize (pseudo, msg)⟩
  | serverReceiveInvite receiverId pseudo type gameId =>
    some ⟨receiverId, SERVER_RECEIVE_INVITE.toNat, Proto.invitation.serialize ⟨pseudo, type, gameId⟩⟩
  | clientCreateRoom usrId => some ⟨0, CLIENT_CREATE_ROOM.toNat, Proto.champ.serialize usrId⟩
  | clientLookupMatch receiverId => some ⟨receiverId, CLIENT_LOOKUP_MATCH.toNat, Wire.Scalar.utf8 "look"⟩
  | room _ _ _ _ => none

/-- The cases of `broker_thread`; the others are passed on. -/
def traiteParBroker : List Nat := [CLIENT_CREATE_ROOM.toNat, CLIENT_LOOKUP_MATCH.toNat, PING.toNat]

/-! ## State -/

/-- A user who is logged in: the last message of the broker that its thread has taken, what its subscriber holds,
what went to the client, and how many messages there were when its subscription took effect. -/
structure Ligne where
  usr : ConnectedPlayer
  zmqMsg : List UInt8
  canal : List (List UInt8)
  fil : List (MsgType × List UInt8)
  depuis : Option Nat

/-- The tables and the number of statements, what the broker has not read, and the connections. -/
structure Messagerie where
  tables : Tables
  pas : Nat
  tous : List (List UInt8)
  lignes : Nat → Option Ligne

inductive Messagerie.Pas where
  /-- A CLIENT_AUTHENTIFICATION, on a connection that nobody has used. -/
  | connexion (k : Nat) (recu : List UInt8)
  /-- The subscription to `users/<id>/broker` takes effect, some time after the log-in. -/
  | abonne (k : Nat)
  | appel (k : Nat) (m : Menu)
  /-- The broker takes a message. -/
  | broker
  /-- A thread takes a message of the broker. -/
  | recoit (k : Nat)
  /-- The statements of the other threads, and what they publish on `all`. -/
  | autrui (f : Tables → Tables) (l : List (List UInt8))
  | quitte (k : Nat)

/-- `broker_thread` publishes for the receiver what it does not take for itself. -/
def Ligne.publie (z : Proto.Zmq) (l : Ligne) : Ligne :=
  if l.depuis.isSome ∧ z.typeMessage ∉ traiteParBroker ∧
      (Voie.broker l.usr.id).prend (Voie.broker z.receiverId) then
    { l with canal := l.canal ++ [Proto.zmqMsg.serialize z] }
  else l

namespace Messagerie

def contexte (st : Messagerie) (usr : ConnectedPlayer) : Contexte := ⟨st.tables, st.pas, usr, []⟩

/-- Nobody is logged in yet. -/
def nouveau : ConnectedPlayer := ⟨false, "", "", false, -1⟩

variable (o : Outils) (date : Nat → String)

/-- After an instruction of `k`. -/
def apres (st : Messagerie) (k : Nat) (l : Ligne) (c : Contexte) : Messagerie where
  tables := c.tables
  pas := c.pas
  tous := st.tous ++ ((diffusions c.journal).filterMap Diffusion.zmq).map Proto.zmqMsg.serialize
  lignes := Function.update st.lignes k (some { l with
    usr := c.usr
    fil := l.fil ++ (st.contexte l.usr).envoyees date c })

def etape : Pas → Messagerie → Option Messagerie
  | .connexion k recu, st =>
    match st.lignes k with
    | some _ => none
    | none =>
      let (res, c) := (st.contexte nouveau).handleInstruction o CLIENT_AUTHENTIFICATION recu []
      let st := { st with tables := c.tables, pas := c.pas }
      if res = 1 then
        some { st with lignes := Function.update st.lignes k (some ⟨c.usr, [], [], [], none⟩) }
      else some st
  | .abonne k, st =>
    match st.lignes k with
    | some ⟨usr, zmqMsg, canal, fil, none⟩ => some { st with
        lignes := Function.update st.lignes k (some ⟨usr, zmqMsg, canal, fil, some st.tables.messages.length⟩) }
    | _ => none
  | .appel k m, st => (st.lignes k).map fun l =>
      st.apres date k l ((st.contexte l.usr).handleInstruction o m.appel.message.1 m.corps l.zmqMsg).2
  | .broker, st =>
    match st.tous with
    | [] => none
    | x :: tous => (Proto.zmqMsg.parse x).map fun z =>
        { st with tous, lignes := fun k => (st.lignes k).map (Ligne.publie z) }
  | .recoit k, st =>
    match st.lignes k with
    | some ⟨usr, _, x :: canal, fil, depuis⟩ => (Proto.zmqMsg.parse x).map fun z =>
        st.apres date k ⟨usr, z.message, canal, fil, depuis⟩
          ((st.contexte usr).handleInstruction o (.ofNat z.typeMessage) [] z.message).2
    | _ => none
  | .autrui f l, st => some { st with tables := f st.tables, tous := st.tous ++ l }
  | .quitte k, st => some { st with lignes := Function.update st.lignes k none }

end Messagerie

/-! ## What is on its way -/

/-- The message to a user in a publication, with its receiver. -/
def chatDe (x : List UInt8) : Option (Nat × String × String) :=
  (Proto.zmqMsg.parse x).bind fun z =>
    if z.typeMessage = CHAT_BROKER.toNat then (Proto.chat.parse z.message).map fun c => (z.receiverId, c) else none

/-- `Client::chatRcv`, on a text that parses. -/
def chatRcv (x : MsgType × List UInt8) : Option (String × String) :=
  if x.1 = NOTIF then Proto.chat.parse x.2 else none

/-- As GET_CONVO answers it. -/
def Tables.chat (t : Tables) (r : MessageRow) : String × String := (t.nomLu "" r.senderId, r.content)

/-- What is at the broker for a user, behind what its subscriber holds. -/
def Messagerie.enRoute (st : Messagerie) (l : Ligne) : List (String × String) :=
  (((l.canal ++ st.tous).filterMap chatDe).filter fun c => c.1 = u32 l.usr.id).map Prod.snd

/-! ## Users -/

namespace Tables

/-- The ids are keys, and C ints. -/
structure Cles (t : Tables) : Prop where
  nodup : (t.users.map (·.id)).Nodup
  bornes : ∀ u ∈ t.users, u.id < 2 ^ 31

/-- The account `id` has the pseudonym `s`. -/
def Nomme (t : Tables) (id : Int) (s : String) : Prop := ∃ u ∈ t.users, (u.id : Int) = id ∧ u.username = s

/-- Accounts stay, and so do their pseudonyms. -/
def Garde (t t' : Tables) : Prop := ∀ id s, t.Nomme id s → t'.Nomme id s

theorem nomLu_eq {t : Tables} (hc : t.Cles) {id : Int} {s : String} (h : t.Nomme id s) (avant : String) :
    t.nomLu avant id = s := by
  obtain ⟨u, hu, hid, hs⟩ := h
  -- the names of `id` are those of `u`
  have hseul : ∀ x ∈ t.noms [id], x = s := by
    intro x hx
    obtain ⟨i, hi, hx⟩ := List.mem_flatMap.mp hx
    obtain ⟨v, hv, rfl⟩ := List.mem_map.mp hx
    obtain ⟨hv, hvid⟩ := List.mem_filter.mp hv
    rw [List.mem_singleton] at hi
    have hvid : (v.id : Int) = i := of_decide_eq_true hvid
    have heq : v = u := List.inj_on_of_nodup_map hc.nodup hv hu (by omega)
    rw [heq, hs]
  have hmem : s ∈ t.noms [id] := by
    refine List.mem_flatMap.mpr ⟨id, List.mem_singleton_self id, ?_⟩
    exact List.mem_map.mpr ⟨u, List.mem_filter.mpr ⟨hu, decide_eq_true hid⟩, hs⟩
  rw [nomLu]
  cases hlast : (t.noms [id]).getLast? with
  | none =>
    rw [List.getLast?_eq_none_iff] at hlast
    rw [hlast] at hmem
    cases hmem
  | some x => exact hseul x (List.mem_of_getLast? hlast)

end Tables

namespace Contexte

end Contexte

/-- A publication that the server makes. -/
structure Proto.Zmq.Colis (z : Proto.Zmq) : Prop where
  ok : Proto.zmqMsg.Ok z
  type : z.typeMessage ∈ [CHAT_BROKER.toNat, SERVER_RECEIVE_INVITE.toNat] ++ traiteParBroker
  chat : z.typeMessage = CHAT_BROKER.toNat →
    ∃ c, z.message = Proto.chat.serialize c ∧ '\x00' ∉ c.1.toList ∧ '\x00' ∉ c.2.toList

/-- Another one than a message from a user to another. -/
def Proto.Zmq.Autre (z : Proto.Zmq) : Prop := z.Colis ∧ z.typeMessage ≠ CHAT_BROKER.toNat

section

variable {z : Proto.Zmq}

theorem parse_colis (h : z.Colis) : Proto.zmqMsg.parse (Proto.zmqMsg.serialize z) = some z :=
  Proto.zmqMsg.parse_serialize h.ok

theorem chatDe_autre (h : z.Autre) : chatDe (Proto.zmqMsg.serialize z) = none := by
  rw [chatDe, parse_colis h.1, Option.bind_some, if_neg h.2]

theorem chatDe_chat (h : z.Colis) (ht : z.typeMessage = CHAT_BROKER.toNat) {c : String × String}
    (hc : z.message = Proto.chat.serialize c) : chatDe (Proto.zmqMsg.serialize z) = some (z.receiverId, c) := by
  rw [chatDe, parse_colis h, Option.bind_some, if_pos ht, hc, Proto.chat.parse_serialize ⟨trivial, trivial⟩]
  rfl

theorem filterMap_chatDe_autre {l : List (List UInt8)} (h : ∀ x ∈ l, ∃ z, x = Proto.zmqMsg.serialize z ∧ z.Autre) :
    l.filterMap chatDe = [] := by
  apply List.filterMap_eq_nil_iff.mpr
  intro x hx
  obtain ⟨z, rfl, hz⟩ := h x hx
  exact chatDe_autre hz

end

/-! ## The menus -/

/-- What the client has read as messages. -/
def Ligne.lus (l : Ligne) : List (String × String) := l.fil.filterMap fun x => chatRcv (x.1, Requete.cStr x.2)

/-- A line as a station of a relay, for the messages since the first `n₀`. -/
def Ligne.station (n₀ : Nat) (l : Ligne) : Option (Relay.Station Nat (Nat × String × String)) :=
  l.depuis.map fun depuis =>
    { topic := u32 l.usr.id
      since := depuis - n₀
      queue := l.canal.filterMap chatDe
      read := l.lus.map fun c => (u32 l.usr.id, c) }

/-- The broker as a relay of the messages that the tables hold. -/
def Messagerie.relais (n₀ : Nat) (st : Messagerie) : Relay.State Nat Nat (Nat × String × String) where
  log := (st.tables.messages.drop n₀).map fun r => (u32 r.receiverId, st.tables.chat r)
  central := st.tous.filterMap chatDe
  stations k := (st.lignes k).bind (Ligne.station n₀)

/-- What is passed on to a line. -/
def Ligne.Passe (l : Ligne) (z : Proto.Zmq) : Prop :=
  z.Colis ∧ z.typeMessage ∉ traiteParBroker ∧ z.receiverId = u32 l.usr.id

structure Ligne.Saine (n₀ : Nat) (t : Tables) (l : Ligne) : Prop where
  auth : l.usr.isAuth = true
  nomme : t.Nomme l.usr.id l.usr.pseudo
  entier : '\x00' ∉ l.usr.pseudo.toList
  depuis : ∀ d, l.depuis = some d → n₀ ≤ d
  vide : l.depuis = none → l.canal = [] ∧ l.lus = []
  canal : ∀ x ∈ l.canal, ∃ z, x = Proto.zmqMsg.serialize z ∧ l.Passe z

/-- The message is from an account, and for an id. -/
def MessageRow.Sure (t : Tables) (r : MessageRow) : Prop :=
  (∃ s, t.Nomme r.senderId s) ∧ -2 ^ 31 ≤ r.receiverId ∧ r.receiverId < 2 ^ 31

structure Messagerie.Tenue (n₀ : Nat) (st : Messagerie) : Prop where
  cles : st.tables.Cles
  debut : n₀ ≤ st.tables.messages.length
  rangs : ∀ r ∈ st.tables.messages.drop n₀, r.Sure st.tables
  lignes : ∀ k l, st.lignes k = some l → l.Saine n₀ st.tables
  tous : ∀ x ∈ st.tous, ∃ z : Proto.Zmq, x = Proto.zmqMsg.serialize z ∧ z.Colis
  fidele : Relay.Faithful Prod.fst (st.relais n₀)

namespace Messagerie

variable {n₀ : Nat} {st : Messagerie}

theorem chat_garde {t t' : Tables} (hc : t.Cles) (hc' : t'.Cles) (hg : t.Garde t') {r : MessageRow}
    (hr : r.Sure t) : t'.chat r = t.chat r := by
  obtain ⟨s, hs⟩ := hr.1
  rw [Tables.chat, Tables.chat, Tables.nomLu_eq hc hs, Tables.nomLu_eq hc' (hg _ _ hs)]

theorem saine_garde {t t' : Tables} (hg : t.Garde t') {l : Ligne} (h : l.Saine n₀ t) : l.Saine n₀ t' :=
  ⟨h.auth, hg _ _ h.nomme, h.entier, h.depuis, h.vide, h.canal⟩

/-- Other tables, with the same messages. -/
theorem Tenue.tables (h : st.Tenue n₀) {t : Tables} (hc : t.Cles) (hg : st.tables.Garde t)
    (hm : t.messages = st.tables.messages) (pas : Nat) : Tenue n₀ { st with tables := t, pas } where
  cles := hc
  debut := by
    show n₀ ≤ t.messages.length
    rw [hm]
    exact h.debut
  rangs := by
    show ∀ r ∈ t.messages.drop n₀, r.Sure t
    rw [hm]
    intro r hr
    obtain ⟨⟨s, hs⟩, hb⟩ := h.rangs r hr
    exact ⟨⟨s, hg _ _ hs⟩, hb⟩
  lignes k l hl := saine_garde hg (h.lignes k l hl)
  tous := h.tous
  fidele := by
    have hlog : ({ st with tables := t, pas } : Messagerie).relais n₀ = st.relais n₀ := by
      rw [relais, relais, hm]
      congr 1
      apply List.map_congr_left
      intro r hr
      rw [chat_garde h.cles hc hg (h.rangs r hr)]
    rw [hlog]
    exact h.fidele

/-- Publications that are no messages. -/
theorem Tenue.publie (h : st.Tenue n₀) {l : List (List UInt8)}
    (hl : ∀ x ∈ l, ∃ z, x = Proto.zmqMsg.serialize z ∧ z.Autre) : Tenue n₀ { st with tous := st.tous ++ l } where
  cles := h.cles
  debut := h.debut
  rangs := h.rangs
  lignes := h.lignes
  tous := by
    intro x hx
    rcases List.mem_append.mp hx with hx | hx
    · exact h.tous x hx
    · obtain ⟨z, he, hz⟩ := hl x hx
      exact ⟨z, he, hz.1⟩
  fidele := by
    have hrel : ({ st with tous := st.tous ++ l } : Messagerie).relais n₀ = st.relais n₀ := by
      rw [relais, relais, List.filterMap_append, filterMap_chatDe_autre hl, List.append_nil]
    rw [hrel]
    exact h.fidele

/-- A message, in the tables and on `all`. -/
theorem Tenue.poste (h : st.Tenue n₀) {r : MessageRow} {z : Proto.Zmq} {s : String} {pas : Nat}
    (hs : st.tables.Nomme r.senderId s) (hb : -2 ^ 31 ≤ r.receiverId ∧ r.receiverId < 2 ^ 31) (hz : z.Colis)
    (ht : z.typeMessage = CHAT_BROKER.toNat) (hr : z.receiverId = u32 r.receiverId)
    (hc : z.message = Proto.chat.serialize (s, r.content)) :
    Tenue n₀ { st with
      tables := { st.tables with messages := st.tables.messages ++ [r] }
      pas
      tous := st.tous ++ [Proto.zmqMsg.serialize z] } where
  cles := ⟨h.cles.nodup, h.cles.bornes⟩
  debut := by
    have := h.debut
    show n₀ ≤ (st.tables.messages ++ [r]).length
    rw [List.length_append]
    omega
  rangs := by
    show ∀ x ∈ (st.tables.messages ++ [r]).drop n₀, x.Sure st.tables
    rw [List.drop_append_of_le_length h.debut]
    intro x hx
    rcases List.mem_append.mp hx with hx | hx
    · exact h.rangs x hx
    · rw [List.mem_singleton.mp hx]
      exact ⟨⟨s, hs⟩, hb⟩
  lignes k l hl := by
    obtain ⟨hauth, hn, he, hd, hvide, hcanal⟩ := h.lignes k l hl
    exact ⟨hauth, hn, he, hd, hvide, hcanal⟩
  tous := by
    intro x hx
    rcases List.mem_append.mp hx with hx | hx
    · exact h.tous x hx
    · exact ⟨z, List.mem_singleton.mp hx, hz⟩
  fidele := by
    have hchat : st.tables.chat r = (s, r.content) := by rw [Tables.chat, Tables.nomLu_eq h.cles hs]
    have hrel : ({ st with
        tables := { st.tables with messages := st.tables.messages ++ [r] }
        pas
        tous := st.tous ++ [Proto.zmqMsg.serialize z] } : Messagerie).relais n₀ =
          (st.relais n₀).post (u32 r.receiverId, s, r.content) := by
      rw [relais, Relay.State.post, relais, List.drop_append_of_le_length h.debut, List.map_append,
        List.filterMap_append, List.filterMap_cons, chatDe_chat hz ht hc, List.map_singleton, hr, ← hchat]
      rfl
    rw [hrel]
    exact h.fidele.post _

theorem relais_update (k : Nat) (v : Option Ligne) :
    ({ st with lignes := Function.update st.lignes k v } : Messagerie).relais n₀ =
      (st.relais n₀).set k (v.bind (Ligne.station n₀)) := by
  rw [relais, Relay.State.set, relais]
  congr 1
  funext j
  show (Function.update st.lignes k v j).bind (Ligne.station n₀) =
    Function.update (fun i => (st.lignes i).bind (Ligne.station n₀)) k (v.bind (Ligne.station n₀)) j
  by_cases hj : j = k
  · rw [hj, Function.update_self, Function.update_self]
  · rw [Function.update_of_ne hj, Function.update_of_ne hj]

/-- Another line. -/
theorem Tenue.ligne (h : st.Tenue n₀) (k : Nat) {v : Option Ligne} (hv : ∀ l, v = some l → l.Saine n₀ st.tables ∧
    ∀ x, l.station n₀ = some x → x.Served Prod.fst (st.relais n₀).log (st.relais n₀).central) :
    Tenue n₀ { st with lignes := Function.update st.lignes k v } where
  cles := h.cles
  debut := h.debut
  rangs := h.rangs
  tous := h.tous
  lignes j l hl := by
    replace hl : Function.update st.lignes k v j = some l := hl
    by_cases hj : j = k
    · rw [hj, Function.update_self] at hl
      exact (hv l hl).1
    · rw [Function.update_of_ne hj] at hl
      exact h.lignes j l hl
  fidele := by
    rw [relais_update]
    apply h.fidele.set
    intro x hx
    obtain ⟨l, hl, hx⟩ := Option.bind_eq_some_iff.mp hx
    exact (hv l hl).2 x hx

/-! ## The steps -/

/-- A line that is served. -/
theorem Tenue.station (h : st.Tenue n₀) {k : Nat} {l : Ligne} (hl : st.lignes k = some l)
    {x : Relay.Station Nat (Nat × String × String)} (hx : l.station n₀ = some x) :
    x.Served Prod.fst (st.relais n₀).log (st.relais n₀).central :=
  h.fidele.station k x (Option.bind_eq_some_iff.mpr ⟨l, hl, hx⟩)

variable {o : Outils} {date : Nat → String} {st' : Messagerie}

/-- What the other threads do keeps the messages and the accounts, and publishes no message of a user. -/
def Pas.permis (o : Outils) : Pas → Messagerie → Prop
  | .connexion _ recu, st => Propre (o.lecture.userConnect recu).2.1 ∧
      (st.contexte nouveau).identifie o recu = true ∧ suivant (st.tables.users.map (·.id)) < 2 ^ 31
  | .appel _ m, _ => ∀ s ∈ m.chaines, Propre s
  | .autrui f l, st => (f st.tables).messages = st.tables.messages ∧ st.tables.Garde (f st.tables) ∧
      (f st.tables).Cles ∧ ∀ x ∈ l, ∃ z, x = Proto.zmqMsg.serialize z ∧ z.Autre
  | _, _ => True

/-- Nobody is logged in, and nothing is on its way. -/
structure Depart (st : Messagerie) : Prop where
  tous : st.tous = []
  lignes : ∀ k, st.lignes k = none
  cles : st.tables.Cles

/-- The guard where no other thread runs. -/
def Pas.seul (o : Outils) (p : Pas) (st : Messagerie) : Bool :=
  match p with
  | .connexion _ recu => decide (Propre (o.lecture.userConnect recu).2.1) &&
      (st.contexte nouveau).identifie o recu && decide (suivant (st.tables.users.map (·.id)) < 2 ^ 31)
  | .appel _ m => decide (∀ s ∈ m.chaines, Propre s)
  | .autrui _ _ => false
  | _ => true

end Messagerie

end LombricABrac
