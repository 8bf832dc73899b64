import LombricABrac.Listener

/-!
# What the server takes off the socket

`client_thread`, `handle_instruction` and `send_room_invite` against `Client::sendMessage`: a type, then
a length and a body read by `Listener::reception`, for some types, in a room and out of it.  A thread that
waits for a mutex takes nothing more: DataBase_mutex is locked before a request is read out of a room, and
`register_user` returns with it when it refuses a sign-up.

    recoit_octets : a body that comes in one transfer
    convient_iff  : the table of the calls for which the two sides agree
    pris_iff      : the server takes what was sent exactly when they agree at each request
-/

namespace LombricABrac

/-- `get_buffer`, as a string: what stands before the first zero byte. -/
def Listener.chaine (l : Listener) : List UInt8 :=
  Requete.cStr ((List.range l.lenChar).map l.strBuffer)

theorem Listener.chaine_eq {l : Listener} {s : List UInt8} (h : Memory.CString l.strBuffer s)
    (hl : s.length = l.lenChar) : l.chaine = s := by
  have hmap : (List.range l.lenChar).map l.strBuffer = s := by
    apply List.ext_getElem?
    intro i
    rw [List.getElem?_map]
    by_cases hi : i < l.lenChar
    · rw [List.getElem?_range hi, h.char i (by omega)]
      rfl
    · rw [List.getElem?_eq_none (by simpa using hi), List.getElem?_eq_none (by omega)]
      rfl
  rw [chaine, hmap, Requete.cStr, List.takeWhile_eq_self_iff]
  simpa using h.nonzero

namespace Requete

open MsgType

/-! ## The server -/

/-- A thread of `client_thread`: whether it keeps DataBase_mutex for ever, and whether it waits for ever. -/
structure Fil extends Etat where
  tient : Bool
  dort : Bool

/-- What a pass of the loop depends on: the `is_on_game` that the broker and the room left, and whether
`handle_instruction` was called for a notice of theirs; whether the log-in is accepted or the room answers,
and whether a sign-up is refused; whether another thread keeps DataBase_mutex or pub_mutex for ever; whether
an invitation is published; and the transfers of the socket. -/
structure Tour where
  surJeu : Option Bool := none
  avis : Bool := false
  ok : Bool := true
  refusee : Bool := false
  base : Bool := false
  pub : Bool := false
  publie : Bool := false
  monde : Monde := ⟨fun _ => 2 ^ 32, fun _ => 0⟩

namespace Fil

/-- The broker and the room are heard first, once the user is logged in. -/
def broker (t : Tour) (f : Fil) : Fil :=
  if f.auth then { f with
    isOnGame := t.surJeu.getD f.isOnGame
    dort := f.dort || (t.avis && (f.tient || t.base)) }
  else f

/-- `DataBase_mutex.lock()`, the first line of `handle_instruction`. -/
def verrouille (t : Tour) (type : MsgType) (f : Fil) : Fil :=
  { f with
    dort := f.dort || (!f.isOnGame && type != CLIENT_JOIN_REQUEST && (f.tient || t.base)) }

/-- Whether a request is published, under pub_mutex. -/
def publieSous (t : Tour) (type : MsgType) (f : Fil) : Bool :=
  if f.isOnGame then
    if type = CLIENT_ASK_FRIENDSHIP_LIST then false
    else if type = CLIENT_SEND_INVITE then t.publie
    else true
  else if type = CLIENT_JOIN_REQUEST then true
  else f.auth && (type == CLIENT_SEND_MESSAGE || type == CLIENT_CREATE_ROOM || type == CLIENT_LOOKUP_MATCH ||
    (type == CLIENT_ASK_FRIENDSHIP && t.publie))

/-- The state after a request; `send_room_invite` locks DataBase_mutex once it has read the body. -/
def apres (t : Tour) (type : MsgType) (f : Fil) : Fil where
  toEtat := f.toEtat.apres type t.ok
  tient := f.tient || (!f.isOnGame && type == CLIENT_AUTHENTIFICATION && !t.ok && t.refusee)
  dort := f.dort || (f.isOnGame && type == CLIENT_SEND_INVITE && (f.tient || t.base)) ||
    (t.pub && f.publieSous t type)

end Fil

/-- `Listener::reception`, then `get_buffer`; `none` waits for bytes that do not come. -/
def recoit (m : Monde) (l : Listener) (socket : List UInt8) :
    Option (List UInt8 × Listener × List UInt8) :=
  let (ok, l, p) := l.reception m ⟨socket, 0⟩
  if ok then some (l.chaine, l, p.socket) else none

/-- The requests that `client_thread` takes off the socket; type 1 is `EXIT_FAILURE`. -/
def clientThread : List Tour → Fil → Listener → List UInt8 → List Paire
  | [], _, _, _ => []
  | _ :: _, _, _, [] => []
  | t :: tours, f, l, type :: socket =>
    let f := f.broker t
    if f.dort || type == 1 then []
    else if type = 0 then clientThread tours f l socket
    else
      let f := f.verrouille t type
      if f.dort then []
      else if f.lit type then
        match recoit t.monde l socket with
        | some (payload, l, socket) =>
          (type, some payload) :: clientThread tours (f.apres t type) l socket
        | none => []
      else (type, none) :: clientThread tours (f.apres t type) l socket

/-! ## One request -/

/-- The bytes of the payload that are sent. -/
def octets (text : List UInt8) : List UInt8 := (cStr text).take ((cStr text).length % 2 ^ 32)

theorem length_octets (text : List UInt8) : (octets text).length = (cStr text).length % 2 ^ 32 := by
  rw [octets, List.length_take]
  exact Nat.min_eq_left (Nat.mod_le _ _)

theorem octets_ne_zero (text : List UInt8) : ∀ b ∈ octets text, b ≠ 0 := by
  intro b hb
  have hmem : b ∈ text.takeWhile fun b => b ≠ 0 := List.mem_of_mem_take hb
  exact of_decide_eq_true (List.mem_takeWhile_imp (p := fun b => decide (b ≠ 0)) hmem)

/-- The length comes in one transfer, and so does the body. -/
def Tour.Entiere (t : Tour) (r : Requete) : Prop :=
  Listener.Entiere t.monde.part 0 4 ∧
    (octets r.text = [] ∨ Listener.Entiere t.monde.part 1 (octets r.text).length)

instance (t : Tour) (r : Requete) : Decidable (t.Entiere r) := inferInstanceAs (Decidable (_ ∧ _))

variable {t : Tour} {tours : List Tour} {f : Fil} {l : Listener} {r : Requete} {socket : List UInt8}

/-- **A body that comes in one transfer** is read, unless its length is not an `int`. -/
theorem recoit_octets (h : t.Entiere r) (l : Listener) (socket : List UInt8) :
    if (octets r.text).length + 1 < 2 ^ 32 then
      ∃ l', recoit t.monde l (Listener.trame (octets r.text) ++ socket) = some (octets r.text, l', socket)
    else recoit t.monde l (Listener.trame (octets r.text) ++ socket) = none := by
  obtain ⟨hentete, hcorps⟩ := h
  split
  · next hmax =>
    obtain ⟨l', p', hr, hs, hp⟩ :=
      Listener.recoitJuste_entiere (octets_ne_zero r.text) hmax hentete hcorps l socket
    refine ⟨l', ?_⟩
    have hlen : (octets r.text).length = l'.lenChar := by
      rw [Listener.lenChar_reception hr, Listener.recv_trame, hentete,
        List.take_of_length_le (Nat.le_refl 4), Listener.lenChar_lisTaille, Nat.mod_eq_of_lt (by omega)]
    rw [recoit, hr]
    simp only [if_true, hp, Listener.chaine_eq hs hlen]
  · next hmax =>
    have hlt := Nat.mod_lt (cStr r.text).length (show 0 < 2 ^ 32 by decide)
    rw [← length_octets] at hlt
    have hne : octets r.text ≠ [] := by
      intro hnil
      rw [hnil] at hmax
      exact hmax (by decide)
    have hr := Listener.reception_moinsUn hentete (hcorps.resolve_left hne) (by omega) l socket
    rw [recoit]
    generalize l.reception t.monde _ = x at hr ⊢
    obtain ⟨ok, l', p'⟩ := x
    cases hr
    rfl

/-- The payload survives: no zero byte, and a length that is an `int`. -/
def Indemne (text : List UInt8) : Prop := (∀ b ∈ text, b ≠ 0) ∧ text.length + 1 < 2 ^ 32

instance (text : List UInt8) : Decidable (Indemne text) := inferInstanceAs (Decidable (_ ∧ _))

theorem octets_of_indemne {text : List UInt8} (h : Indemne text) :
    octets text = text ∧ (octets text).length + 1 < 2 ^ 32 := by
  have hlt : text.length < 2 ^ 32 := Nat.lt_of_succ_lt h.2
  have he : octets text = text := (take_cStr_iff text).mpr ⟨h.1, hlt⟩
  exact ⟨he, by rw [he]; exact h.2⟩

/-- The two sides agree on a request: a body is read if one is written, and it survives. -/
structure Convient (e : Etat) (r : Requete) : Prop where
  corps : e.lit r.type = r.aCorps
  indemne : r.aCorps = true → Indemne r.text

/-- The thread as it is when it may read a request of this type. -/
def Fil.pret (t : Tour) (type : MsgType) (f : Fil) : Fil := (f.broker t).verrouille t type

theorem clientThread_cons (h0 : r.type ≠ 0) (h1 : r.type ≠ 1) :
    clientThread (t :: tours) f l (r.type :: socket) =
      if (f.pret t r.type).dort then []
      else if (f.pret t r.type).lit r.type then
        match recoit t.monde l socket with
        | some (payload, l, socket) =>
          (r.type, some payload) :: clientThread tours ((f.pret t r.type).apres t r.type) l socket
        | none => []
      else (r.type, none) :: clientThread tours ((f.pret t r.type).apres t r.type) l socket := by
  have h1' : (r.type == 1) = false := beq_false_of_ne h1
  rw [clientThread]
  simp only [h1', Bool.or_false, if_neg h0]
  by_cases hdort : (f.broker t).dort = true
  · have hpret : (f.pret t r.type).dort = true := by simp [Fil.pret, Fil.verrouille, hdort]
    rw [if_pos hdort, if_pos hpret]
  · rw [if_neg hdort]
    rfl

theorem sendMessage_eq (r : Requete) :
    r.sendMessage = r.type :: if r.aCorps then Listener.trame (octets r.text) else [] := by
  rw [sendMessage, Listener.trame, length_octets]
  rfl

/-- A request on which the two sides agree is taken. -/
theorem clientThread_convient (h0 : r.type ≠ 0) (h1 : r.type ≠ 1) (hw : r.aCorps = true → t.Entiere r)
    (hd : (f.pret t r.type).dort = false) (h : Convient (f.pret t r.type).toEtat r) (l : Listener)
    (socket : List UInt8) :
    ∃ l', clientThread (t :: tours) f l (r.sendMessage ++ socket) =
      r.paire :: clientThread tours ((f.pret t r.type).apres t r.type) l' socket := by
  rw [sendMessage_eq, List.cons_append, clientThread_cons h0 h1, hd, if_neg Bool.false_ne_true, h.corps,
    paire]
  by_cases hc : r.aCorps = true
  · obtain ⟨he, hmax⟩ := octets_of_indemne (h.indemne hc)
    have hr := recoit_octets (hw hc) l socket
    rw [if_pos hmax] at hr
    obtain ⟨l', hr⟩ := hr
    refine ⟨l', ?_⟩
    simp only [hc, if_true, hr]
    rw [he]
  · exact ⟨l, by simp [hc]⟩

/-- The first request taken is right only if the two sides agree on it. -/
theorem convient_of_head {paires : List Paire} (h0 : r.type ≠ 0) (h1 : r.type ≠ 1)
    (hw : r.aCorps = true → t.Entiere r)
    (h : clientThread (t :: tours) f l (r.sendMessage ++ socket) = r.paire :: paires) :
    (f.pret t r.type).dort = false ∧ Convient (f.pret t r.type).toEtat r := by
  rw [sendMessage_eq, List.cons_append, clientThread_cons h0 h1, paire] at h
  by_cases hd : (f.pret t r.type).dort = true
  · rw [if_pos hd] at h
    cases h
  refine ⟨eq_false_of_ne_true hd, ?_⟩
  rw [if_neg hd] at h
  by_cases hc : r.aCorps = true
  · by_cases hlit : (f.pret t r.type).lit r.type = true
    · refine ⟨hlit.trans hc.symm, fun _ => ?_⟩
      simp only [hc, hlit, if_true] at h
      have hr := recoit_octets (hw hc) l socket
      split at hr
      · next hmax =>
        obtain ⟨l', hr⟩ := hr
        rw [hr] at h
        have hpayload : octets r.text = r.text := by
          have := (List.cons.inj h).1
          rwa [Prod.mk.injEq, Option.some.injEq, and_iff_right rfl] at this
        refine ⟨((take_cStr_iff r.text).mp hpayload).1, ?_⟩
        rwa [hpayload] at hmax
      · rw [hr] at h
        cases h
    · simp only [hc, hlit, if_true] at h
      cases (List.cons.inj h).1
  · by_cases hlit : (f.pret t r.type).lit r.type = true
    · -- A length and a body are read where there is none.
      simp only [hc, hlit, if_true] at h
      split at h
      · cases (List.cons.inj h).1
      · cases h
    · exact ⟨by rw [Bool.eq_false_iff.mpr hc, Bool.eq_false_iff.mpr hlit], fun hc' => absurd hc' hc⟩

/-! ## The calls -/

variable (proto : Proto3)

theorem convient_requete (e : Etat) (a : Appel) :
    Convient e (a.requete proto) ↔ a.Convient e ∧ Indemne (a.requete proto).text := by
  rw [← convient_iff proto]
  constructor
  · rintro ⟨hcorps, hindemne⟩
    refine ⟨hcorps, ?_⟩
    by_cases htext : (a.requete proto).text = []
    · rw [htext]
      exact ⟨nofun, by decide⟩
    · exact hindemne (by simp [aCorps, htext])
  · rintro ⟨hcorps, hindemne⟩
    exact ⟨hcorps, fun _ => hindemne⟩

/-- At each call the thread does not wait for ever, the call meets its line of the table in the state where
it is taken, and its payload survives. -/
def Accord : Fil → List (Appel × Tour) → Prop
  | _, [] => True
  | f, (a, t) :: suite =>
    let type := (a.requete proto).type
    ((f.pret t type).dort = false ∧ a.Convient (f.pret t type).toEtat ∧ Indemne (a.requete proto).text) ∧
      Accord ((f.pret t type).apres t type) suite

/-- Each length and each body that is sent comes in one transfer. -/
def Entieres (echanges : List (Appel × Tour)) : Prop :=
  ∀ x ∈ echanges, (x.1.requete proto).aCorps = true → x.2.Entiere (x.1.requete proto)

instance (echanges : List (Appel × Tour)) : Decidable (Entieres proto echanges) :=
  inferInstanceAs (Decidable (∀ x ∈ echanges, _ → _))

/-- What the server takes of the calls of a client, each with the pass of the loop that takes it. -/
def pris (f : Fil) (l : Listener) (echanges : List (Appel × Tour)) : List Paire :=
  clientThread (echanges.map (·.2)) f l
    (echanges.flatMap fun x => (x.1.requete proto).sendMessage)

def envoyes (echanges : List (Appel × Tour)) : List Paire :=
  echanges.map fun x => (x.1.requete proto).paire

/-- The rest of a session, once its first call is taken. -/
theorem pris_cons {f : Fil} {l : Listener} {x : Appel × Tour} {echanges : List (Appel × Tour)}
    (hw : Entieres proto (x :: echanges)) (hd : (f.pret x.2 (x.1.requete proto).type).dort = false)
    (hc : Convient (f.pret x.2 (x.1.requete proto).type).toEtat (x.1.requete proto)) :
    ∃ l', pris proto f l (x :: echanges) = (x.1.requete proto).paire ::
      pris proto ((f.pret x.2 (x.1.requete proto).type).apres x.2 (x.1.requete proto).type) l' echanges := by
  obtain ⟨h0, h1⟩ := type_requete proto x.1
  exact clientThread_convient h0 h1 (hw x List.mem_cons_self) hd hc l _

theorem pris_of_accord {f : Fil} (l : Listener) {echanges : List (Appel × Tour)}
    (hw : Entieres proto echanges) (h : Accord proto f echanges) :
    pris proto f l echanges = envoyes proto echanges := by
  induction echanges generalizing f l with
  | nil => rfl
  | cons x echanges ih =>
    obtain ⟨⟨hd, hc⟩, hsuite⟩ := h
    obtain ⟨l', hl⟩ := pris_cons proto (l := l) hw hd ((convient_requete proto _ x.1).mpr hc)
    rw [hl, envoyes, List.map_cons]
    exact congrArg _ (ih l' (fun y hy => hw y (List.mem_cons_of_mem _ hy)) hsuite)

/-- **The server takes off the socket what the client sent, if and only if each call suits the state
in which it is taken**, where transfers are not cut. -/
theorem pris_iff (f : Fil) (l : Listener) {echanges : List (Appel × Tour)} (hw : Entieres proto echanges) :
    pris proto f l echanges = envoyes proto echanges ↔ Accord proto f echanges := by
  refine ⟨fun h => ?_, pris_of_accord proto l hw⟩
  induction echanges generalizing f l with
  | nil => trivial
  | cons x echanges ih =>
    obtain ⟨h0, h1⟩ := type_requete proto x.1
    obtain ⟨hd, hc⟩ := convient_of_head h0 h1 (hw x List.mem_cons_self) h
    obtain ⟨l', hl⟩ := pris_cons proto (l := l) hw hd hc
    rw [hl, envoyes, List.map_cons] at h
    exact ⟨⟨hd, (convient_requete proto _ x.1).mp hc⟩,
      ih _ l' (fun y hy => hw y (List.mem_cons_of_mem _ hy)) (List.cons.inj h).2⟩

/-! ## Two sessions -/

/-- A connection that has sent nothing yet. -/
def connecte : Fil := ⟨⟨false, false⟩, false, false⟩

def tampon : Listener := .new (fun _ => 0) fun _ => 0

/-- A pass in which nothing else happens. -/
def libre : Tour := { surJeu := none }

/-- A user logs in and creates a room, and the broker answers. -/
def ouvre : List (Appel × Tour) := [(.connection [97] [98] true, libre), (.createRoom, libre)]

/-- No health boxes, then map 2. -/
def sansCaisse : List (Appel × Tour) :=
  ouvre ++ [(.setProbaCaisse 0, { surJeu := some true }), (.setMap 2, libre)]

/-- The probability 0 is sent without a length; the server waits for one and takes the next request
for it. -/
theorem sansCaisse_bloque :
    pris wire connecte tampon sansCaisse = envoyes wire ouvre ∧
      ¬ ∀ f l echanges, Entieres wire echanges → pris wire f l echanges = envoyes wire echanges := by
  refine ⟨by decide +kernel, fun h => ?_⟩
  have hsans := h connecte tampon sansCaisse (by decide +kernel)
  revert hsans
  decide +kernel

/-- A sign-up under a name that exists, then the log-in: the first keeps DataBase_mutex. -/
def refusee : List (Appel × Tour) :=
  [(.connection [97] [98] false, { ok := false, refusee := true }), (.connection [97] [98] true, libre)]

example : pris wire connecte tampon refusee = [(.connection [97] [98] false : Appel).requete wire |>.paire] := by
  decide +kernel

/-- A few boxes, map 2, team 1, then START. -/
def avecCaisse : List (Appel × Tour) :=
  ouvre ++ [(.setProbaCaisse 5, { surJeu := some true }), (.setMap 2, libre), (.changeTeam 1, libre),
    (.startGame, libre)]

theorem avecCaisse_pris : pris wire connecte tampon avecCaisse = envoyes wire avecCaisse := by
  refine (pris_iff wire connecte tampon (by decide +kernel)).mpr ?_
  refine ⟨⟨rfl, ?_, by decide +kernel⟩, ⟨rfl, ?_, by decide +kernel⟩, ⟨rfl, ?_, by decide +kernel⟩,
    ⟨rfl, ?_, by decide +kernel⟩, ⟨rfl, ?_, by decide +kernel⟩, ⟨rfl, ?_, by decide +kernel⟩, trivial⟩
  all_goals simp +decide [Appel.Convient]

end Requete
end LombricABrac
