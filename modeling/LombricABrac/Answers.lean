import LombricABrac.Requests
import LombricABrac.Lib.Runs

/-!
# Messages and answers of the client

The client has one place for a message, `msg`.  `Client::run` reads into it when its type is 0 and treats
the types of its switch; the calls of `waitAnswers`, one at a time, clear the type, send a request, poll
`msg` for the type of the answer, clear the type and copy the text.  Both clearings are outside `msgMutex`.

    fidele_iff_aligne : the steps that lose a message or mix two
    conclut           : a state of the invariant leads to one where every message is delivered
    fidele_of_runs    : the runs whose steps clear an empty place and read nothing before the copy
-/

namespace LombricABrac

open MsgType

/-- What waits in `msg`, and what was read into it; the text ends at its first zero byte. -/
structure Reception.Lecture where
  type : MsgType
  text : List UInt8
  deriving DecidableEq

/-- `run` is before `readMessage` or before the switch. -/
inductive Reception.Run where
  | lecture
  | switch
  deriving DecidableEq

/-- Where `waitAnswers` is: before the sending, in the loop, after it, and after the second clearing;
`numero` is the message that ended the loop. -/
inductive Reception.Appel where
  | repos
  | envoi (typeAttendu : MsgType)
  | boucle (typeAttendu : MsgType)
  | trouve (typeAttendu : MsgType) (numero : Nat)
  | copie (typeAttendu : MsgType) (numero : Nat)
  deriving DecidableEq

/-- A call that has returned. -/
structure Reception.Retour where
  typeAttendu : MsgType
  numero : Nat
  res : List UInt8
  deriving DecidableEq

/-- `msg` and the two threads; `recus` are the messages read so far, the others name them by their places
in it. -/
structure Reception where
  msg : Reception.Lecture
  run : Reception.Run
  appel : Reception.Appel
  recus : List Reception.Lecture
  traites : List Nat
  retours : List Reception.Retour
  deriving DecidableEq

inductive Reception.Evenement where
  | readMessage (type : MsgType) (buffer : List UInt8)
  | switch
  | waitAnswers (typeAttendu : MsgType)
  | sendMessage
  | msgReady
  | efface
  | copie
  deriving DecidableEq

namespace Reception

/-- The cases of the switch in `run`. -/
def inattendus : List MsgType :=
  [NOTIF, SERVER_RECEIVE_INVITE, START, SHOOT, UPDATE_WALL, LOMB_DMG, POS_LOMB_R,
    CLIENT_JOINED_TEAM_RESPONSE, SERVER_USER_JOINED, SERVER_CLIENT_QUITTED_ROOM, CLIENT_MODIFY_MAP,
    CLIENT_MODIFY_TIME, CLIENT_MODIFY_ROUND_TIME, CLIENT_MODIFY_NB_LOMBRICS, CLIENT_MODIFY_NB_TEAMS,
    SERVER_DIFFERENT_WEAPON, NEXT_ROUND, END_GAME, CLIENT_LOOKUP_RESPONSE, CLIENT_SEND_IN_GAME_MESSAGE,
    CLIENT_MODIFY_INIT_VIE, CLIENT_MODIFY_MAX_VIE, CLIENT_MODIFY_VIE_CAISSE, CLIENT_MODIFY_PROBA_CAISSE]

/-- The types that the calls of `waitAnswers` in the client pass. -/
def attendus : List MsgType :=
  [SERVER_RESPONDS_FRIENDSHIP_LIST, SERVER_MESSAGE_TRANSFER, AUTHENTIFICATION_RESPONSE,
    CLIENT_CREATE_ROOM_RESPONSE, SERVER_JOIN_RESPONSE, GET_LOMBRIC_NAMES_RESPONSE,
    CLIENT_ASKS_ALL_INVITATIONS, SERVER_HISTORY_RESPONSE, SERVER_RANK_RESPONSE, INFO_ROOM]

def recoit (m : Lecture) (s : Reception) : Reception :=
  { s with msg := m, recus := s.recus ++ [m], run := .switch }

/-- Nothing is read while a type waits in `msg`. -/
def readMessage (type : MsgType) (buffer : List UInt8) (s : Reception) : Reception :=
  if s.msg.type = 0 then s.recoit ⟨type, Requete.cStr buffer⟩ else { s with run := .switch }

/-- The last message that was read. -/
def dernier (s : Reception) : Nat := s.recus.length - 1

def switch (s : Reception) : Reception :=
  if s.msg.type ∈ inattendus then
    { s with traites := s.traites ++ [s.dernier], msg := { s.msg with type := 0 }, run := .lecture }
  else { s with run := .lecture }

/-- One step of a thread; `none` where it is at another place. -/
def etape (e : Evenement) (s : Reception) : Option Reception :=
  match e with
  | .readMessage type buffer => if s.run = .lecture then some (s.readMessage type buffer) else none
  | .switch => if s.run = .switch then some s.switch else none
  | .waitAnswers typeAttendu =>
    if s.appel = .repos ∧ typeAttendu ∈ attendus then
      some { s with msg := { s.msg with type := 0 }, appel := .envoi typeAttendu }
    else none
  | .sendMessage =>
    match s.appel with
    | .envoi typeAttendu => some { s with appel := .boucle typeAttendu }
    | _ => none
  | .msgReady =>
    match s.appel with
    | .boucle typeAttendu =>
      if s.msg.type = typeAttendu then some { s with appel := .trouve typeAttendu s.dernier } else some s
    | _ => none
  | .efface =>
    match s.appel with
    | .trouve typeAttendu numero =>
      some { s with msg := { s.msg with type := 0 }, appel := .copie typeAttendu numero }
    | _ => none
  | .copie =>
    match s.appel with
    | .copie typeAttendu numero =>
      some { s with retours := s.retours ++ [⟨typeAttendu, numero, s.msg.text⟩], appel := .repos }
    | _ => none

/-- The client before its first message. -/
def Depart (s : Reception) : Prop :=
  s.msg.type = 0 ∧ s.run = .lecture ∧ s.appel = .repos ∧ s.recus = [] ∧ s.traites = [] ∧ s.retours = []

/-! ## What is asked -/

/-- How often a message has been treated or returned. -/
def fois (s : Reception) (k : Nat) : Nat := s.traites.count k + (s.retours.map Retour.numero).count k

/-- The last message waits in `msg` for the switch or for the call that awaits its type. -/
def Attend (s : Reception) (k : Nat) : Prop :=
  k + 1 = s.recus.length ∧ s.recus[k]? = some s.msg ∧
    (s.run = .switch ∧ s.msg.type ∈ inattendus ∨
      s.appel = .boucle s.msg.type ∨ s.appel = .trouve s.msg.type k)

/-- A message that is not delivered yet: it waits, or a call is about to copy its text. -/
def EnRoute (s : Reception) (k : Nat) : Prop :=
  s.Attend k ∨ ∃ typeAttendu, s.appel = .copie typeAttendu k ∧ s.recus[k]? = some ⟨typeAttendu, s.msg.text⟩

/-- Every message is treated once by the switch, or returned once with its text by a call that awaits its
type, or on its way to that. -/
structure Fidele (s : Reception) : Prop where
  traites : ∀ k ∈ s.traites, ∃ m, s.recus[k]? = some m ∧ m.type ∈ inattendus
  retours : ∀ r ∈ s.retours, s.recus[r.numero]? = some ⟨r.typeAttendu, r.res⟩
  une : ∀ k < s.recus.length, s.fois k = 1 ∧ ¬ s.EnRoute k ∨ s.fois k = 0 ∧ s.EnRoute k

/-- The copy of a text is not due, or it would not see the difference. -/
def copieSure (text : List UInt8) (s : Reception) : Bool :=
  match s.appel with
  | .copie _ _ => text == s.msg.text
  | _ => true

/-- `waitAnswers` finds `msg` empty; `readMessage` reads a message that the switch treats or the call
awaits, and none with another text before the copy. -/
def aligne (e : Evenement) (s : Reception) : Prop :=
  match e with
  | .waitAnswers _ => s.msg.type = 0
  | .readMessage type buffer => s.msg.type = 0 →
    (type ∈ inattendus ∨ s.appel = .boucle type) ∧ s.copieSure (Requete.cStr buffer) = true
  | _ => True

instance : ∀ (e : Evenement) (s : Reception), Decidable (aligne e s)
  | .waitAnswers _, s => inferInstanceAs (Decidable (s.msg.type = 0))
  | .readMessage type buffer, s => inferInstanceAs (Decidable (s.msg.type = 0 →
      (type ∈ inattendus ∨ s.appel = .boucle type) ∧ s.copieSure (Requete.cStr buffer) = true))
  | .switch, _ | .sendMessage, _ | .msgReady, _ | .efface, _ | .copie, _ => inferInstanceAs (Decidable True)

/-- Every message is delivered. -/
def Conclu (s : Reception) : Prop := ∀ k < s.recus.length, s.fois k = 1

/-! ## The invariant -/

/-- `msg` is empty or its message waits; a call that has found its answer has it in `msg`. -/
structure Inv (s : Reception) : Prop extends Fidele s where
  plein : s.msg.type ≠ 0 → ∃ k, s.Attend k
  appel : ∀ typeAttendu, s.appel = .envoi typeAttendu ∨ s.appel = .boucle typeAttendu → typeAttendu ∈ attendus
  trouve : ∀ typeAttendu numero, s.appel = .trouve typeAttendu numero →
    s.msg.type = typeAttendu ∧ typeAttendu ∈ attendus
  copie : ∀ typeAttendu numero, s.appel = .copie typeAttendu numero →
    typeAttendu ∈ attendus ∧ s.recus[numero]? = some ⟨typeAttendu, s.msg.text⟩

theorem zero_notMem_inattendus : (0 : MsgType) ∉ inattendus := by decide

theorem zero_notMem_attendus : (0 : MsgType) ∉ attendus := by decide

/-- The switch treats no answer. -/
theorem notMem_of_attendu {type : MsgType} (h : type ∈ attendus) : type ∉ inattendus := by
  have hall : (attendus.all fun type => !inattendus.contains type) = true := by decide
  simpa using List.all_eq_true.mp hall type h

variable {s s' : Reception} {e : Evenement} {k : Nat}

theorem Attend.eq_dernier (h : s.Attend k) : k = s.dernier := by
  have := h.1
  unfold dernier
  omega

theorem Attend.lt (h : s.Attend k) : k < s.recus.length := by
  have := h.1
  omega

/-- No call polls for it: it waits for the switch. -/
theorem Attend.switch (h : s.Attend k) (hb : ∀ T, s.appel ≠ .boucle T) (ht : ∀ T n, s.appel ≠ .trouve T n) :
    s.run = .switch ∧ s.msg.type ∈ inattendus := by
  rcases h.2.2 with hi | h' | h'
  · exact hi
  · exact absurd h' (hb _)
  · exact absurd h' (ht _ _)

theorem Fidele.fois_of_le (h : Fidele s) (hk : s.recus.length ≤ k) : s.fois k = 0 := by
  have h1 : s.traites.count k = 0 := List.count_eq_zero.mpr fun hm => by
    obtain ⟨m, hm, _⟩ := h.traites k hm
    rw [List.getElem?_eq_none hk] at hm
    cases hm
  have h2 : (s.retours.map Retour.numero).count k = 0 := List.count_eq_zero.mpr fun hm => by
    obtain ⟨r, hr, rfl⟩ := List.mem_map.mp hm
    have := h.retours r hr
    rw [List.getElem?_eq_none hk] at this
    cases this
  rw [fois, h1, h2]

theorem Fidele.fois_of_enRoute (h : Fidele s) (hk : k < s.recus.length) (he : s.EnRoute k) : s.fois k = 0 := by
  rcases h.une k hk with ⟨_, hn⟩ | ⟨h0, _⟩
  · exact absurd he hn
  · exact h0

/-- A step that leaves the lists alone has to leave what is on its way. -/
theorem Fidele.congr (h : Fidele s) (hr : s'.recus = s.recus) (ht : s'.traites = s.traites)
    (hret : s'.retours = s.retours) (he : ∀ k, s'.EnRoute k ↔ s.EnRoute k) : Fidele s' := by
  refine ⟨?_, ?_, fun k hk => ?_⟩
  · rw [hr, ht]
    exact h.traites
  · rw [hr, hret]
    exact h.retours
  · rw [hr] at hk
    rw [he, fois, ht, hret]
    exact h.une k hk

/-- An empty place holds no message back. -/
theorem Inv.not_attend (h : Inv s) (h0 : s.msg.type = 0) (k : Nat) : ¬ s.Attend k := by
  rintro ⟨_, _, ⟨_, hin⟩ | hb | ht⟩
  · exact zero_notMem_inattendus (h0 ▸ hin)
  · exact zero_notMem_attendus (h0 ▸ h.appel _ (Or.inr hb))
  · exact zero_notMem_attendus (h0 ▸ (h.trouve _ _ ht).2)

theorem Inv.enRoute_of_vide (h : Inv s) (h0 : s.msg.type = 0) (k : Nat) :
    s.EnRoute k ↔ ∃ typeAttendu, s.appel = .copie typeAttendu k ∧ s.recus[k]? = some ⟨typeAttendu, s.msg.text⟩ :=
  or_iff_right (h.not_attend h0 k)

theorem Inv.attend_dernier (h : Inv s) (h0 : s.msg.type ≠ 0) : s.Attend s.dernier := by
  obtain ⟨k, hk⟩ := h.plein h0
  exact hk.eq_dernier ▸ hk

theorem inv_depart (h : Depart s) : Inv s := by
  obtain ⟨h0, _, ha, hr, ht, hret⟩ := h
  refine ⟨⟨?_, ?_, ?_⟩, fun hn => absurd h0 hn, ?_, ?_, ?_⟩
  · rw [ht]
    simp
  · rw [hret]
    simp
  · rw [hr]
    simp
  all_goals simp [ha]

/-! ## The steps of `run` -/

theorem inv_readMessage_plein (h : Inv s) (h0 : s.msg.type ≠ 0) : Inv { s with run := .switch } := by
  have hatt : ∀ k, ({ s with run := .switch } : Reception).Attend k ↔ s.Attend k := by
    intro k
    constructor
    · intro hk
      have hd := h.attend_dernier h0
      have : k = s.dernier := hk.eq_dernier
      rwa [this]
    · rintro ⟨h1, h2, ⟨_, hin⟩ | hb⟩
      · exact ⟨h1, h2, Or.inl ⟨rfl, hin⟩⟩
      · exact ⟨h1, h2, Or.inr hb⟩
  exact ⟨h.toFidele.congr rfl rfl rfl fun k => or_congr (hatt k) Iff.rfl,
    fun hn => (h.plein hn).imp fun k hk => (hatt k).mpr hk, h.appel, h.trouve, h.copie⟩

/-- A message that is read is the last one; before a copy it changes the text of `msg`. -/
theorem inv_recoit (h : Inv s) (h0 : s.msg.type = 0) {m : Lecture}
    (htype : m.type ∈ inattendus ∨ s.appel = .boucle m.type)
    (htext : s.copieSure m.text = true) : Inv (s.recoit m) := by
  have hold : ∀ k < s.recus.length, (s.recoit m).recus[k]? = s.recus[k]? := fun k hk =>
    List.getElem?_append_left hk
  have hcopie : ∀ typeAttendu k, s.appel = .copie typeAttendu k →
      (s.recoit m).recus[k]? = some ⟨typeAttendu, m.text⟩ := by
    intro typeAttendu k hk
    have hr := (h.copie _ _ hk).2
    have ht : m.text = s.msg.text := by simpa [copieSure, hk] using htext
    rw [hold k (List.getElem?_eq_some_iff.mp hr).1, ht]
    exact hr
  have hattend : (s.recoit m).Attend s.recus.length := by
    refine ⟨by simp [recoit], by simp [recoit], ?_⟩
    rcases htype with hin | hb
    · exact Or.inl ⟨rfl, hin⟩
    · exact Or.inr (Or.inl hb)
  refine ⟨⟨fun k hk => ?_, fun r hr => ?_, fun k hk => ?_⟩, fun _ => ⟨_, hattend⟩, h.appel, fun T n hn => ?_,
    fun T n hn => ⟨(h.copie T n hn).1, hcopie T n hn⟩⟩
  · obtain ⟨x, hx, hin⟩ := h.traites k hk
    exact ⟨x, (hold k (List.getElem?_eq_some_iff.mp hx).1).trans hx, hin⟩
  · have hx := h.retours r hr
    exact (hold _ (List.getElem?_eq_some_iff.mp hx).1).trans hx
  · rw [recoit, List.length_append, List.length_singleton] at hk
    rcases Nat.lt_succ_iff_lt_or_eq.mp hk with hlt | rfl
    · -- an older message: only its copy may still be due
      have hroute : (s.recoit m).EnRoute k ↔ s.EnRoute k := by
        rw [h.enRoute_of_vide h0]
        constructor
        · rintro (ha | ⟨T, hT, _⟩)
          · have := ha.1
            simp only [recoit, List.length_append, List.length_singleton] at this
            omega
          · exact ⟨T, hT, (h.copie T k hT).2⟩
        · rintro ⟨T, hT, _⟩
          exact Or.inr ⟨T, hT, hcopie T k hT⟩
      rw [hroute]
      exact h.une k hlt
    · exact Or.inr ⟨h.toFidele.fois_of_le le_rfl, Or.inl hattend⟩
  · have hT := h.trouve T n hn
    exact absurd (hT.1.symm.trans h0) fun he => zero_notMem_attendus (he ▸ hT.2)

theorem inv_readMessage (h : Inv s) {type : MsgType} {buffer : List UInt8}
    (hg : aligne (.readMessage type buffer) s) : Inv (s.readMessage type buffer) := by
  by_cases h0 : s.msg.type = 0
  · rw [readMessage, if_pos h0]
    exact inv_recoit h h0 (hg h0).1 (hg h0).2
  · rw [readMessage, if_neg h0]
    exact inv_readMessage_plein h h0

/-- The message that waits for the switch is the last one. -/
theorem attend_of_inattendu (h : Inv s) (hin : s.msg.type ∈ inattendus) :
    s.Attend s.dernier ∧ ∀ typeAttendu, s.appel ≠ .copie typeAttendu s.dernier := by
  have hd := h.attend_dernier fun h0 => zero_notMem_inattendus (h0 ▸ hin)
  refine ⟨hd, fun T hT => ?_⟩
  obtain ⟨hatt, hr⟩ := h.copie T _ hT
  have heq := Option.some.inj (hd.2.1.symm.trans hr)
  exact notMem_of_attendu hatt (by rw [heq] at hin; exact hin)

theorem fois_switch (hin : s.msg.type ∈ inattendus) (k : Nat) :
    s.switch.fois k = s.fois k + if k = s.dernier then 1 else 0 := by
  have hs' : s.switch.fois k = (s.traites ++ [s.dernier]).count k + (s.retours.map Retour.numero).count k := by
    rw [switch, if_pos hin, fois]
  rw [hs', fois, List.count_append, List.count_singleton]
  by_cases hk : k = s.dernier
  · rw [if_pos hk, hk, beq_self_eq_true, if_pos rfl]
    omega
  · rw [if_neg hk, if_neg (by simpa using fun he => hk he.symm)]
    omega

theorem inv_switch (h : Inv s) : Inv s.switch := by
  by_cases hin : s.msg.type ∈ inattendus
  · obtain ⟨hd, hnc⟩ := attend_of_inattendu h hin
    have hfois := fois_switch hin
    have hs' : s.switch = { s with
        traites := s.traites ++ [s.dernier], msg := { s.msg with type := 0 }, run := .lecture } :=
      if_pos hin
    have hroute : ∀ k, s.switch.EnRoute k ↔ ∃ T, s.appel = .copie T k ∧ s.recus[k]? = some ⟨T, s.msg.text⟩ := by
      intro k
      rw [hs']
      refine or_iff_right ?_
      rintro ⟨_, _, ⟨hr, _⟩ | hb | ht⟩
      · cases hr
      · exact zero_notMem_attendus (h.appel _ (Or.inr hb))
      · exact zero_notMem_attendus (h.trouve _ _ ht).2
    refine ⟨⟨fun k hk => ?_, ?_, fun k hk => ?_⟩, fun hn => ?_, ?_, fun T n hn => ?_, ?_⟩
    · rw [hs'] at hk ⊢
      rcases List.mem_append.mp hk with hk | hk
      · exact h.traites k hk
      · rw [List.mem_singleton] at hk
        subst hk
        exact ⟨_, hd.2.1, hin⟩
    · rw [hs']
      exact h.retours
    · have hk' : k < s.recus.length := by
        rw [hs'] at hk
        exact hk
      rw [hroute, hfois]
      by_cases hkd : k = s.dernier
      · subst hkd
        have h0 := h.toFidele.fois_of_enRoute hk' (Or.inl hd)
        exact Or.inl ⟨by rw [h0, if_pos rfl], fun ⟨T, hT, _⟩ => hnc T hT⟩
      · rw [if_neg hkd]
        have hr : s.EnRoute k ↔ ∃ T, s.appel = .copie T k ∧ s.recus[k]? = some ⟨T, s.msg.text⟩ :=
          or_iff_right fun ha => hkd ha.eq_dernier
        rw [← hr]
        exact h.une k hk'
    · rw [hs'] at hn
      exact absurd rfl hn
    · rw [hs']
      exact h.appel
    · rw [hs'] at hn ⊢
      obtain ⟨he, hatt⟩ := h.trouve T n hn
      exact absurd hin (notMem_of_attendu (he ▸ hatt))
    · rw [hs']
      exact h.copie
  · have hatt : ∀ k, ({ s with run := .lecture } : Reception).Attend k ↔ s.Attend k := by
      intro k
      constructor
      · rintro ⟨h1, h2, ⟨_, hi⟩ | hb⟩
        · exact absurd hi hin
        · exact ⟨h1, h2, Or.inr hb⟩
      · rintro ⟨h1, h2, ⟨_, hi⟩ | hb⟩
        · exact absurd hi hin
        · exact ⟨h1, h2, Or.inr hb⟩
    rw [switch, if_neg hin]
    exact ⟨h.toFidele.congr rfl rfl rfl fun k => or_congr (hatt k) Iff.rfl,
      fun hn => (h.plein hn).imp fun k hk => (hatt k).mpr hk, h.appel, h.trouve, h.copie⟩

/-! ## The steps of `waitAnswers` -/

theorem inv_waitAnswers (h : Inv s) (ha : s.appel = .repos) {T : MsgType} (hT : T ∈ attendus)
    (h0 : s.msg.type = 0) : Inv { s with msg := { s.msg with type := 0 }, appel := .envoi T } := by
  have hmsg : ({ s.msg with type := 0 } : Lecture) = s.msg := by rw [← h0]
  rw [hmsg]
  refine ⟨h.toFidele.congr rfl rfl rfl fun k => ?_, fun hn => absurd h0 hn, ?_, ?_, ?_⟩
  · rw [h.enRoute_of_vide h0]
    constructor
    · rintro (⟨_, _, ⟨_, hin⟩ | hb | ht⟩ | ⟨T', hc, _⟩)
      · exact absurd (h0 ▸ hin) zero_notMem_inattendus
      · cases hb
      · cases ht
      · cases hc
    · rintro ⟨T', hc, _⟩
      rw [ha] at hc
      cases hc
  · rintro T' (hT' | hT') <;> cases hT'
    exact hT
  · intro T' n hn
    cases hn
  · intro T' n hn
    cases hn

theorem inv_sendMessage (h : Inv s) {T : MsgType} (ha : s.appel = .envoi T) :
    Inv { s with appel := .boucle T } := by
  have hT := h.appel T (Or.inl ha)
  have hb : ∀ T', s.appel ≠ .boucle T' := by simp [ha]
  have ht : ∀ T' n, s.appel ≠ .trouve T' n := by simp [ha]
  have hne : s.msg.type ≠ T := by
    intro he
    have hd := h.attend_dernier fun h0 => zero_notMem_attendus (by rwa [← h0, he])
    exact notMem_of_attendu hT (he ▸ (hd.switch hb ht).2)
  have hatt : ∀ k, ({ s with appel := .boucle T } : Reception).Attend k ↔ s.Attend k := by
    intro k
    constructor
    · rintro ⟨h1, h2, hi | hb' | ht'⟩
      · exact ⟨h1, h2, Or.inl hi⟩
      · exact absurd (Appel.boucle.inj hb').symm hne
      · cases ht'
    · intro hk
      exact ⟨hk.1, hk.2.1, Or.inl (hk.switch hb ht)⟩
  refine ⟨h.toFidele.congr rfl rfl rfl fun k => or_congr (hatt k) ?_,
    fun hn => (h.plein hn).imp fun k hk => (hatt k).mpr hk, ?_, ?_, ?_⟩
  · constructor
    · rintro ⟨T', hc, _⟩
      cases hc
    · rintro ⟨T', hc, _⟩
      rw [ha] at hc
      cases hc
  · rintro T' (hT' | hT') <;> cases hT'
    exact hT
  · intro T' n hn
    cases hn
  · intro T' n hn
    cases hn

/-- The loop ends on the last message. -/
theorem inv_trouve (h : Inv s) {T : MsgType} (ha : s.appel = .boucle T) (ht : s.msg.type = T) :
    Inv { s with appel := .trouve T s.dernier } := by
  have hT := h.appel T (Or.inr ha)
  have hd := h.attend_dernier fun h0 => zero_notMem_attendus (by rwa [← h0, ht])
  have hd' : ({ s with appel := .trouve T s.dernier } : Reception).Attend s.dernier :=
    ⟨hd.1, hd.2.1, Or.inr (Or.inr (by rw [ht]))⟩
  refine ⟨h.toFidele.congr rfl rfl rfl fun k => ?_, fun _ => ⟨_, hd'⟩, ?_, ?_, ?_⟩
  · constructor
    · rintro (hk | ⟨T', hc, _⟩)
      · have : k = s.dernier := hk.eq_dernier
        rw [this]
        exact Or.inl hd
      · cases hc
    · rintro (hk | ⟨T', hc, _⟩)
      · rw [hk.eq_dernier]
        exact Or.inl hd'
      · rw [ha] at hc
        cases hc
  · rintro T' (hT' | hT') <;> cases hT'
  · intro T' n hn
    cases hn
    exact ⟨ht, hT⟩
  · intro T' n hn
    cases hn

theorem inv_efface (h : Inv s) {T : MsgType} {n : Nat} (ha : s.appel = .trouve T n) :
    Inv { s with msg := { s.msg with type := 0 }, appel := .copie T n } := by
  obtain ⟨ht, hT⟩ := h.trouve T n ha
  have hd := h.attend_dernier fun h0 => zero_notMem_attendus (by rwa [← h0, ht])
  have hn : n = s.dernier := by
    rcases hd.2.2 with ⟨_, hin⟩ | hb | htr
    · exact absurd (ht ▸ hin) (notMem_of_attendu hT)
    · rw [ha] at hb
      cases hb
    · rw [ha] at htr
      exact (Appel.trouve.inj htr).2
  have hr : s.recus[n]? = some ⟨T, s.msg.text⟩ := by
    rw [hn, hd.2.1, ← ht]
  refine ⟨h.toFidele.congr rfl rfl rfl fun k => ?_, fun hne => absurd rfl hne, ?_, ?_, ?_⟩
  · constructor
    · rintro (⟨_, _, ⟨_, hin⟩ | hb | htr⟩ | ⟨T', hc, _⟩)
      · exact absurd hin zero_notMem_inattendus
      · cases hb
      · cases htr
      · cases hc
        exact Or.inl (hn ▸ hd)
    · rintro (hk | ⟨T', hc, _⟩)
      · have hkn : k = n := hk.eq_dernier.trans hn.symm
        exact Or.inr ⟨T, by rw [hkn], by rw [hkn]; exact hr⟩
      · rw [ha] at hc
        cases hc
  · rintro T' (hT' | hT') <;> cases hT'
  · intro T' m hm
    cases hm
  · intro T' m hm
    cases hm
    exact ⟨hT, hr⟩

theorem inv_copie (h : Inv s) {T : MsgType} {n : Nat} (ha : s.appel = .copie T n) :
    Inv { s with retours := s.retours ++ [⟨T, n, s.msg.text⟩], appel := .repos } := by
  obtain ⟨hT, hr⟩ := h.copie T n ha
  have hlt := (List.getElem?_eq_some_iff.mp hr).1
  have hb : ∀ T', s.appel ≠ .boucle T' := by simp [ha]
  have ht : ∀ T' m, s.appel ≠ .trouve T' m := by simp [ha]
  have hatt : ∀ k, ({ s with
      retours := s.retours ++ [⟨T, n, s.msg.text⟩], appel := .repos } : Reception).EnRoute k ↔
        s.Attend k := by
    intro k
    constructor
    · rintro (⟨h1, h2, hi | hb' | ht'⟩ | ⟨T', hc, _⟩)
      · exact ⟨h1, h2, Or.inl hi⟩
      · cases hb'
      · cases ht'
      · cases hc
    · intro hk
      exact Or.inl ⟨hk.1, hk.2.1, Or.inl (hk.switch hb ht)⟩
  -- the message of the copy does not wait for the switch
  have hna : ¬ s.Attend n := by
    intro hk
    have hin := (hk.switch hb ht).2
    rw [Option.some.inj (hk.2.1.symm.trans hr)] at hin
    exact notMem_of_attendu hT hin
  refine ⟨⟨h.traites, fun r hr' => ?_, fun k hk => ?_⟩, fun hne => ?_, ?_, ?_, ?_⟩
  · rcases List.mem_append.mp hr' with hr' | hr'
    · exact h.retours r hr'
    · rw [List.mem_singleton] at hr'
      subst hr'
      exact hr
  · have hf : ({ s with retours := s.retours ++ [⟨T, n, s.msg.text⟩], appel := .repos } : Reception).fois k =
        s.fois k + if k = n then 1 else 0 := by
      have hcount : (List.map Retour.numero (s.retours ++ [⟨T, n, s.msg.text⟩])).count k =
          (s.retours.map Retour.numero).count k + if k = n then 1 else 0 := by
        rw [List.map_append, List.count_append, List.map_singleton, List.count_singleton]
        by_cases hkn : k = n
        · simp [hkn]
        · simp [hkn, Ne.symm hkn]
      rw [fois, fois, hcount]
      exact (Nat.add_assoc _ _ _).symm
    rw [hatt, hf]
    by_cases hkn : k = n
    · subst hkn
      have h0 := h.toFidele.fois_of_enRoute hlt (Or.inr ⟨T, ha, hr⟩)
      exact Or.inl ⟨by rw [h0, if_pos rfl], hna⟩
    · have hk' : s.EnRoute k ↔ s.Attend k := or_iff_left fun ⟨T', hc, _⟩ => by
        rw [ha] at hc
        exact hkn (Appel.copie.inj hc).2.symm
      rw [if_neg hkn, ← hk']
      exact h.une k hk
  · obtain ⟨k, hk⟩ := h.plein hne
    rcases (hatt k).mpr hk with hk' | ⟨T', hc, _⟩
    · exact ⟨k, hk'⟩
    · cases hc
  · rintro T' (hT' | hT') <;> cases hT'
  · intro T' m hm
    cases hm
  · intro T' m hm
    cases hm

/-- **Every aligned step keeps the invariant.** -/
theorem inv_etape (h : Inv s) (hg : aligne e s) (hs : etape e s = some s') : Inv s' := by
  cases e with
  | readMessage type buffer =>
    rw [etape] at hs
    split at hs
    · cases hs
      exact inv_readMessage h hg
    · cases hs
  | switch =>
    rw [etape] at hs
    split at hs
    · cases hs
      exact inv_switch h
    · cases hs
  | waitAnswers T =>
    rw [etape] at hs
    split at hs
    · next hc =>
      cases hs
      exact inv_waitAnswers h hc.1 hc.2 hg
    · cases hs
  | sendMessage =>
    rw [etape] at hs
    split at hs
    · next T ha =>
      cases hs
      exact inv_sendMessage h ha
    · cases hs
  | msgReady =>
    rw [etape] at hs
    split at hs
    · next T ha =>
      split at hs
      · next ht =>
        cases hs
        exact inv_trouve h ha ht
      · cases hs
        exact h
    · cases hs
  | efface =>
    rw [etape] at hs
    split at hs
    · next T n ha =>
      cases hs
      exact inv_efface h ha
    · cases hs
  | copie =>
    rw [etape] at hs
    split at hs
    · next T n ha =>
      cases hs
      exact inv_copie h ha
    · cases hs

/-! ## The other steps lose a message -/

/-- A clearing of `msg` before the switch loses what waits there. -/
theorem vide_of_fidele (h : Inv s) {T : MsgType}
    (hf : Fidele { s with msg := { s.msg with type := 0 }, appel := .envoi T }) : s.msg.type = 0 := by
  by_contra h0
  have hd := h.attend_dernier h0
  have hzero := h.toFidele.fois_of_enRoute hd.lt (Or.inl hd)
  rcases hf.une s.dernier hd.lt with ⟨h1, _⟩ | ⟨_, hroute⟩
  · have : s.fois s.dernier = 1 := h1
    omega
  · rcases hroute with ⟨_, _, ⟨_, hin⟩ | hb | ht⟩ | ⟨T', hc, _⟩
    · exact zero_notMem_inattendus hin
    · cases hb
    · cases ht
    · cases hc

theorem utile_of_fidele (h : Inv s) (h0 : s.msg.type = 0) {m : Lecture} (hf : Fidele (s.recoit m)) :
    m.type ∈ inattendus ∨ s.appel = .boucle m.type := by
  have hfois : (s.recoit m).fois s.recus.length = 0 := h.toFidele.fois_of_le le_rfl
  rcases hf.une s.recus.length (by simp [recoit]) with ⟨h1, _⟩ | ⟨_, ⟨_, _, ⟨_, hin⟩ | hb | ht⟩ | ⟨T, hc, _⟩⟩
  · omega
  · exact Or.inl hin
  · exact Or.inr hb
  · have ht' := h.trouve _ _ ht
    exact absurd (ht'.1.symm.trans h0) fun he => zero_notMem_attendus (he ▸ ht'.2)
  · have hlt := (List.getElem?_eq_some_iff.mp (h.copie T _ hc).2).1
    omega

theorem copieSure_of_fidele (h : Inv s) {m : Lecture} (hf : Fidele (s.recoit m)) :
    s.copieSure m.text = true := by
  unfold copieSure
  split
  · next T n hc =>
    obtain ⟨hT, hr⟩ := h.copie T n hc
    have hlt := (List.getElem?_eq_some_iff.mp hr).1
    have hold : (s.recoit m).recus[n]? = s.recus[n]? := List.getElem?_append_left hlt
    have hzero : (s.recoit m).fois n = 0 := h.toFidele.fois_of_enRoute hlt (Or.inr ⟨T, hc, hr⟩)
    rcases hf.une n (by rw [recoit, List.length_append]; omega) with ⟨h1, _⟩ | ⟨_, ha | ⟨T', hc', hr'⟩⟩
    · omega
    · have := ha.1
      simp only [recoit, List.length_append, List.length_singleton] at this
      omega
    · rw [hold, hr] at hr'
      have htext : (s.recoit m).msg.text = s.msg.text := (congrArg Lecture.text (Option.some.inj hr')).symm
      exact beq_iff_eq.mpr htext
  · rfl

/-- **One step, exactly.** -/
theorem fidele_iff_aligne (h : Inv s) (hs : etape e s = some s') : Fidele s' ↔ aligne e s := by
  refine ⟨fun hf => ?_, fun hg => (inv_etape h hg hs).toFidele⟩
  cases e with
  | waitAnswers T =>
    rw [etape] at hs
    split at hs
    · cases hs
      exact vide_of_fidele h hf
    · cases hs
  | readMessage type buffer =>
    rw [etape] at hs
    split at hs
    · cases hs
      intro h0
      rw [readMessage, if_pos h0] at hf
      exact ⟨utile_of_fidele h h0 hf, copieSure_of_fidele h hf⟩
    · cases hs
  | _ => trivial

/-! ## Runs -/

theorem Fidele.conclu (h : Fidele s) (hn : ∀ k, ¬ s.EnRoute k) : s.Conclu := by
  intro k hk
  rcases h.une k hk with ⟨h1, _⟩ | ⟨_, he⟩
  · exact h1
  · exact absurd he (hn k)

/-- Without a message for the switch, a call outside its loop leaves nothing on its way. -/
theorem Inv.conclu (h : Inv s) (hin : s.msg.type ∉ inattendus) (hb : s.appel ≠ .boucle s.msg.type)
    (ht : ∀ n, s.appel ≠ .trouve s.msg.type n) (hc : ∀ T n, s.appel ≠ .copie T n) : s.Conclu := by
  refine h.toFidele.conclu fun k => ?_
  rintro (⟨_, _, ⟨_, hi⟩ | hb' | ht'⟩ | ⟨T, hc', _⟩)
  · exact hin hi
  · exact hb hb'
  · exact ht _ ht'
  · exact hc _ _ hc'

variable {init : Reception → Prop}

/-- The steps that a call has left deliver its answer. -/
theorem conclut_copie (h : Inv s) (hr : Runs.Reach etape aligne init s) (hin : s.msg.type ∉ inattendus)
    {T : MsgType} {n : Nat} (ha : s.appel = .copie T n) :
    ∃ s', Runs.Reach etape aligne init s' ∧ s'.recus = s.recus ∧ Inv s' ∧ s'.Conclu := by
  have hs : etape .copie s = some { s with retours := s.retours ++ [⟨T, n, s.msg.text⟩], appel := .repos } := by
    rw [etape, ha]
  have hi := inv_copie h ha
  exact ⟨_, .next .copie hr trivial hs, rfl, hi, hi.conclu hin nofun (fun _ => nofun) (fun _ _ => nofun)⟩

theorem conclut_trouve (h : Inv s) (hr : Runs.Reach etape aligne init s) {T : MsgType} {n : Nat}
    (ha : s.appel = .trouve T n) :
    ∃ s', Runs.Reach etape aligne init s' ∧ s'.recus = s.recus ∧ Inv s' ∧ s'.Conclu := by
  have hs : etape .efface s = some { s with msg := { s.msg with type := 0 }, appel := .copie T n } := by
    rw [etape, ha]
  have hfin := conclut_copie (inv_efface h ha) (.next .efface hr trivial hs) zero_notMem_inattendus rfl
  exact hfin

theorem conclut_appel (h : Inv s) (hr : Runs.Reach etape aligne init s) (hin : s.msg.type ∉ inattendus) :
    ∃ s', Runs.Reach etape aligne init s' ∧ s'.recus = s.recus ∧ Inv s' ∧ s'.Conclu := by
  cases ha : s.appel with
  | repos => exact ⟨s, hr, rfl, h, h.conclu hin (by simp [ha]) (by simp [ha]) (by simp [ha])⟩
  | envoi T => exact ⟨s, hr, rfl, h, h.conclu hin (by simp [ha]) (by simp [ha]) (by simp [ha])⟩
  | boucle T =>
    by_cases ht : s.msg.type = T
    · have hs : etape .msgReady s = some { s with appel := .trouve T s.dernier } := by
        rw [etape, ha]
        exact if_pos ht
      have hfin := conclut_trouve (inv_trouve h ha ht) (.next .msgReady hr trivial hs) rfl
      exact hfin
    · refine ⟨s, hr, rfl, h, h.conclu hin ?_ (by simp [ha]) (by simp [ha])⟩
      rw [ha]
      exact fun he => ht (Appel.boucle.inj he).symm
  | trouve T n => exact conclut_trouve h hr ha
  | copie T n => exact conclut_copie h hr hin ha

/-- **Nothing is stuck**: the switch, then the call, deliver what is on its way. -/
theorem conclut (h : Inv s) (hr : Runs.Reach etape aligne init s) :
    ∃ s', Runs.Reach etape aligne init s' ∧ s'.recus = s.recus ∧ Inv s' ∧ s'.Conclu := by
  by_cases hin : s.msg.type ∈ inattendus
  · have hrun : s.run = .switch := by
      obtain ⟨_, _, ⟨hrun, _⟩ | hb | ht⟩ := (attend_of_inattendu h hin).1
      · exact hrun
      · exact absurd hin (notMem_of_attendu (h.appel _ (Or.inr hb)))
      · exact absurd hin (notMem_of_attendu (h.trouve _ _ ht).2)
    have hs : etape .switch s = some s.switch := if_pos hrun
    have hvide : s.switch.msg.type = 0 ∧ s.switch.recus = s.recus := by
      rw [switch, if_pos hin]
      exact ⟨rfl, rfl⟩
    obtain ⟨s', h1, h2, h3⟩ := conclut_appel (inv_switch h) (.next .switch hr trivial hs)
      (by rw [hvide.1]; exact zero_notMem_inattendus)
    exact ⟨s', h1, h2.trans hvide.2, h3⟩
  · exact conclut_appel h hr hin

/-- **The runs that deliver every message** once, with its text, to the switch or to the call that awaits
its type: `waitAnswers` finds `msg` empty, and nothing else is read before the copy.  Any other step loses
a message or mixes two. -/
theorem fidele_of_runs (h : Runs.Reach etape aligne Depart s) :
    (Fidele s ∧ ∃ s', Runs.Reach etape aligne (· = s) s' ∧ s'.recus = s.recus ∧ Fidele s' ∧ s'.Conclu) ∧
      ∀ e s', etape e s = some s' → (Fidele s' ↔ aligne e s) := by
  have hi : Inv s := h.invariant (fun _ => inv_depart) fun e s s' hs hg he => inv_etape hs hg he
  have hdebut : Runs.Reach etape aligne (· = s) s := .init rfl
  obtain ⟨s', h1, h2, h3, h4⟩ := conclut hi hdebut
  exact ⟨⟨hi.toFidele, s', h1, h2, h3.toFidele, h4⟩, fun e s' hs => fidele_iff_aligne hi hs⟩

def depart : Reception := ⟨⟨0, []⟩, .lecture, .repos, [], [], []⟩

/-- The lobby is asked for; a chat message arrives when its answer has been copied. -/
theorem fidele_salon : ∃ s, Runs.exec etape aligne
    [.waitAnswers INFO_ROOM, .sendMessage, .readMessage INFO_ROOM [65], .switch, .msgReady, .efface, .copie,
      .readMessage NOTIF [66], .switch] depart = some s ∧ Fidele s ∧
    ∃ s', Runs.Reach etape aligne (· = s) s' ∧ s'.recus = s.recus ∧ Fidele s' ∧ s'.Conclu := by
  have hdepart : Depart depart := ⟨rfl, rfl, rfl, rfl, rfl, rfl⟩
  obtain ⟨s, hs, hr, _⟩ := Runs.exists_of_exec etape aligne hdepart
    [.waitAnswers INFO_ROOM, .sendMessage, .readMessage INFO_ROOM [65], .switch, .msgReady, .efface, .copie,
      .readMessage NOTIF [66], .switch] (fun s => s.traites == [1]) (by decide +kernel)
  exact ⟨s, hs, (fidele_of_runs hr).1⟩

/-- The chat message that waits for the switch is cleared by a request; one that arrives before the copy
gives its text to the answer. -/
theorem perdu_melange :
    Runs.exec etape (fun _ _ => True) [.readMessage NOTIF [66], .waitAnswers INFO_ROOM] depart =
      some ⟨⟨0, [66]⟩, .switch, .envoi INFO_ROOM, [⟨NOTIF, [66]⟩], [], []⟩ ∧
    ¬ Fidele ⟨⟨0, [66]⟩, .switch, .envoi INFO_ROOM, [⟨NOTIF, [66]⟩], [], []⟩ ∧
    (Runs.exec etape (fun _ _ => True)
      [.waitAnswers INFO_ROOM, .sendMessage, .readMessage INFO_ROOM [65], .switch, .msgReady, .efface,
        .readMessage NOTIF [66], .copie] depart).map (fun s => s.retours) = some [⟨INFO_ROOM, 0, [66]⟩] := by
  refine ⟨by decide +kernel, fun h => ?_, by decide +kernel⟩
  rcases h.une 0 (by decide) with ⟨h1, _⟩ | ⟨_, ⟨_, _, ⟨_, hin⟩ | hb | ht⟩ | ⟨T, hc, _⟩⟩
  · exact absurd h1 (by decide)
  · exact zero_notMem_inattendus hin
  · cases hb
  · cases ht
  · cases hc

end Reception

end LombricABrac
