import LombricABrac.Inscription
import LombricABrac.Inconnus

/-!
# The requests that do nothing

Each request with a body, for what the buffer holds: when the tables stay as they are and nothing is published
to a room or to another user.  A statement whose text is not the one meant may do anything; the conditions
hold whatever it does.

    tables_exec_iff : a statement that changes nothing
    rien_message, rien_invitation, rien_reponse, rien_connexion, rien_inscription : the cases
    inerte_iff      : a call of `handle_instruction`
-/

namespace LombricABrac

open MsgType

namespace Contexte

/-- The message goes to a room, or to another user than `id`. -/
def atteint (id : Int) (t : Tables) (d : Diffusion) : Bool :=
  match d with
  | .room .. => true
  | _ => versAutre id t d

/-- The tables are as they were, and nothing is published to a room or to another user. -/
structure Rien (c c' : Contexte) : Prop where
  tables : c'.tables = c.tables
  publies : ∀ d ∈ publies c c', atteint c.usr.id c.tables d = false

/-! ## Conditions -/

variable (o : Outils) (recu : List UInt8) (c : Contexte)

/-- The id that a lookup gives in statement `pas`. -/
def idLu (s : String) : Int := if o.sql.ok c.pas then (c.tables.idDe s).getD o.indefini else o.indefini

/-- The broker takes `friendId` for another user. -/
def autreUsager (friendId : Int) : Bool :=
  c.tables.users.any fun u => (u.id : Int) != c.usr.id && u32 friendId == u32 u.id

/-- Statement `n`, a mark of a pseudonym, fails, or its users are connected already. -/
def marqueVaine (n : Nat) (pseudo : String) : Bool :=
  !o.sql.ok n || decide (Propre pseudo) && c.tables.users.all fun u => u.username != pseudo || u.connected

/-- The password is wrong, or the mark is vain. -/
def connexionVaine (pseudo password : String) : Bool :=
  o.sql.sure c.pas [pseudo] && (!o.checkpw password (c.stocke o pseudo) ||
    o.sql.sure (c.pas + 1) [pseudo] && c.marqueVaine o (c.pas + 2) pseudo)

/-- The pseudonym is taken, or no statement that writes succeeds. -/
def inscriptionVaine (pseudo : String) : Bool :=
  o.sql.sure c.pas [pseudo] && (decide (0 < c.connu o pseudo) ||
    !o.sql.ok (c.pas + 1) && o.sql.sure (c.pas + 2) [pseudo] && c.marqueVaine o (c.pas + 3) pseudo &&
      reussis o.sql (c.pas + 4) 8 == 0)

/-- No worm gets another name. -/
def nomVain : Bool :=
  !o.sql.ok c.pas || decide (Propre (o.lecture.lombMod recu).2) && c.tables.worms.all fun w =>
    w.ownerId != c.usr.id || w.idLomb != Partie.int32 (o.lecture.lombMod recu).1 ||
      w.name == (o.lecture.lombMod recu).2

/-- The user is in the list; or the insertion fails, and who is invited is not logged in, or is no other
user. -/
def invitationVaine : Bool :=
  let friendId := c.idLu o (o.lecture.friAdd recu)
  o.sql.ok (c.pas + 1) && decide (o.lecture.friAdd recu ∈ c.tables.getAllFriendList c.usr.id) ||
    !o.sql.ok (c.pas + 2) && !(enLigne o (c.pas + 3) c.tables friendId && c.autreUsager friendId)

/-- The case does nothing. -/
def inerte (type : MsgType) : Bool :=
  match type with
  | CLIENT_AUTHENTIFICATION =>
    let (isregister, pseudo, password) := o.lecture.userConnect recu
    if isregister then c.connexionVaine o pseudo password else c.inscriptionVaine o pseudo
  | CLIENT_SEND_MESSAGE => o.sql.sure c.pas [nom o type recu] && (!o.sql.ok (c.pas + 1) &&
      !c.autreUsager (c.idLu o (nom o type recu)))
  | GET_CONVO => o.sql.sure c.pas [o.lecture.convo recu]
  | UPDATE_LOMBRICS_NAMES => c.nomVain o recu
  | GET_HISTORY => o.sql.sure c.pas [(o.lecture.getHistory recu).1]
  | CLIENT_ASK_FRIENDSHIP => o.sql.sure c.pas [nom o type recu] && c.invitationVaine o recu
  | CLIENT_ACCEPT_FRIENDSHIP => o.sql.sure c.pas [nom o type recu] &&
      reponseVaine o (o.lecture.friAccept recu).1 (c.idLu o (nom o type recu)) c
  | CLIENT_DELETE_FRIENDSHIP => o.sql.sure c.pas [nom o type recu] &&
      reponseVaine o false (c.idLu o (nom o type recu)) c
  | _ => true

/-- An invitation to a room tells no other user. -/
def salleInerte : Bool :=
  let friendId := c.idLu o (o.lecture.invitation recu)
  o.sql.sure c.pas [o.lecture.invitation recu] &&
    !(enLigne o (c.pas + 1) c.tables friendId && c.autreUsager friendId)

variable {o recu c} {c' c'' : Contexte} {zmqMsg : List UInt8}

/-! ## What is done -/

theorem rien_of (l : List Diffusion) (hd : diffusions c'.journal = diffusions c.journal ++ l) :
    Rien c c' ↔ c'.tables = c.tables ∧ ∀ d ∈ l, atteint c.usr.id c.tables d = false := by
  have h : publies c c' = l := by rw [publies, hd, List.drop_left]
  constructor
  · rintro ⟨ht, hp⟩
    exact ⟨ht, h ▸ hp⟩
  · rintro ⟨ht, hp⟩
    exact ⟨ht, h.symm ▸ hp⟩

/-- Nothing is published. -/
theorem rien_muet (hd : diffusions c'.journal = diffusions c.journal) :
    Rien c c' ↔ c'.tables = c.tables := by
  rw [rien_of [] (by rw [hd, List.append_nil])]
  simp

theorem rien_congr (ht : c'.tables = c''.tables) (hd : diffusions c'.journal = diffusions c''.journal) :
    Rien c c' ↔ Rien c c'' := by
  have h : publies c c' = publies c c'' := by rw [publies, publies, hd]
  constructor
  · rintro ⟨ht', hp⟩
    exact ⟨ht ▸ ht', h ▸ hp⟩
  · rintro ⟨ht', hp⟩
    exact ⟨ht.symm ▸ ht', h.symm ▸ hp⟩

theorem rien_note {v : Verrou} : Rien (c.note [.verrouille v]) c' ↔ Rien c c' := by
  have h : publies (c.note [.verrouille v]) c' = publies c c' := by
    rw [publies, publies, note_journal, diffusions_muet _ rfl]
  constructor
  · rintro ⟨ht, hp⟩
    exact ⟨ht, h ▸ hp⟩
  · rintro ⟨ht, hp⟩
    exact ⟨ht, h.symm ▸ hp⟩

theorem atteint_chatBroker (friendId : Int) (pseudo msg : String) :
    atteint c.usr.id c.tables (.chatBroker (u32 friendId) pseudo msg) = c.autreUsager friendId := by
  simp [atteint, versAutre, autreUsager, Diffusion.destinataire]

theorem atteint_serverReceiveInvite (friendId : Int) (pseudo : String) (type : Bool) (gameId : Nat) :
    atteint c.usr.id c.tables (.serverReceiveInvite (u32 friendId) pseudo type gameId) =
      c.autreUsager friendId := by
  simp [atteint, versAutre, autreUsager, Diffusion.destinataire]

/-! ## A statement -/

/-- The rows that no statement deletes here. -/
def taille (t : Tables) : Nat := t.messages.length + t.users.length + t.worms.length

theorem taille_exec (n : Nat) (r : Ordre) (t : Tables) (i : Int) :
    taille t ≤ taille ((o.avec ajoute i).sql.exec n r t).tables := by
  unfold Sqlite.exec
  split
  · split
    · cases r <;> simp [Ordre.prevu, taille]
    · simp [Outils.avec, ajoute, taille]
  · exact le_rfl

/-- An account adds a row, and so may a text that is not the statement meant. -/
theorem taille_lt {n : Nat} {r : Ordre} (hok : o.sql.ok n = true)
    (h : ¬ r.Lu ∨ ∃ username hash, r = .registerUser username hash) (t : Tables) (i : Int) :
    taille t < taille ((o.avec ajoute i).sql.exec n r t).tables := by
  unfold Sqlite.exec
  rw [if_pos (by exact hok)]
  split
  · next hlu =>
    obtain ⟨username, hash, rfl⟩ := h.resolve_left fun hno => hno hlu
    simp [Ordre.prevu, taille]
  · simp [Outils.avec, ajoute, taille]

theorem taille_unsure {n : Nat} {r : Ordre} (h : o.sql.sure n r.chaines = false) (t : Tables) (i : Int) :
    taille t < taille ((o.avec ajoute i).sql.exec n r t).tables := by
  rw [Sqlite.sure, Bool.or_eq_false_iff, Bool.not_eq_false', decide_eq_false_iff_not] at h
  exact taille_lt h.1 (Or.inl fun hlu => h.2 (r.lu_iff.mp hlu)) t i

theorem taille_addLombrics (userId : Int) (n : Nat) : ∀ (i : Nat) (c : Contexte),
    taille (c.addLombrics o userId n i).tables = taille c.tables + reussis o.sql c.pas n := by
  induction n with
  | zero => exact fun _ _ => rfl
  | succ n ih =>
    intro i c
    rw [addLombrics, ih, reussis_succ, ecrit_pas, ecrit_tables, ← Nat.add_assoc]
    congr 1
    split
    · simp [taille, Tables.addLombric, Nat.add_assoc]
    · rfl

theorem addLombrics_vain (userId : Int) (n : Nat) : ∀ (i : Nat) (c : Contexte),
    reussis o.sql c.pas n = 0 → (c.addLombrics o userId n i).tables = c.tables := by
  induction n with
  | zero => exact fun _ _ _ => rfl
  | succ n ih =>
    intro i c h
    rw [reussis_succ, Nat.add_eq_zero_iff] at h
    have hok : ¬ o.sql.ok c.pas = true := fun hok => by
      rw [if_pos hok] at h
      exact absurd h.1 Nat.one_ne_zero
    rw [addLombrics, ih (i + 1) _ h.2, ecrit_tables, if_neg hok]

/-- **A statement that changes nothing** fails, or is read as it is meant and changes nothing then. -/
theorem tables_exec_iff (n : Nat) (r : Ordre) (t : Tables) (i : Int) :
    (∀ autre, ((o.avec autre i).sql.exec n r t).tables = t) ↔
      o.sql.ok n = false ∨ r.Lu ∧ (r.prevu (o.sql.heure n) t).tables = t := by
  by_cases hok : o.sql.ok n = true
  · have hexec : ∀ autre, (o.avec autre i).sql.exec n r t =
        if r.Lu then r.prevu (o.sql.heure n) t else autre r.texte t := fun autre => if_pos hok
    simp only [hexec, hok, Bool.true_eq_false, false_or]
    by_cases hlu : r.Lu
    · simp only [if_pos hlu, and_iff_right hlu]
      exact ⟨fun h => h o.sql.autre, fun h _ => h⟩
    · simp only [if_neg hlu]
      refine iff_of_false (fun h => ?_) fun h => hlu h.1
      have hlen := congrArg (fun t : Tables => t.messages.length) (h ajoute)
      simp [ajoute] at hlen
  · rw [Bool.not_eq_true] at hok
    refine iff_of_true (fun autre => ?_) (Or.inl hok)
    unfold Sqlite.exec
    rw [if_neg (by exact Bool.eq_false_iff.mp hok)]

theorem lookup_iff (n : Nat) (s : String) (t : Tables) (i : Int) :
    (∀ autre, ((o.avec autre i).sql.exec n (.getUserId s) t).tables = t) ↔ o.sql.sure n [s] = true := by
  rw [tables_exec_iff, Ordre.lu_iff, Sqlite.sure, Bool.or_eq_true, Bool.not_eq_true', decide_eq_true_eq]
  exact or_congr_right (and_iff_left rfl)

/-- **A mark that changes nothing.** -/
theorem marqueVaine_iff (n : Nat) (pseudo : String) (i : Int) :
    (∀ autre, ((o.avec autre i).sql.exec n (.connectUser true pseudo) c.tables).tables = c.tables) ↔
      c.marqueVaine o n pseudo = true := by
  rw [tables_exec_iff, Ordre.lu_iff, marqueVaine, Bool.or_eq_true, Bool.and_eq_true, Bool.not_eq_true',
    decide_eq_true_eq, Ordre.chaines, List.forall_mem_singleton, List.all_eq_true]
  refine or_congr_right (and_congr_right fun _ => ?_)
  have hmap : ((Ordre.connectUser true pseudo).prevu (o.sql.heure n) c.tables).tables = c.tables ↔
      (c.tables.users.map fun u => if u.username = pseudo then { u with connected := true } else u) =
        c.tables.users.map id := by
    rw [List.map_id]
    exact ⟨fun h => congrArg Tables.users h, fun h => by rw [Ordre.prevu, h]⟩
  rw [hmap, List.map_inj_left]
  refine forall_congr' fun u => imp_congr_right fun _ => ?_
  obtain ⟨id, username, password, connected, victories⟩ := u
  by_cases hu : username = pseudo
  · simp [hu, eq_comm]
  · simp [hu]

/-! ## Lookups -/

/-- The requests that name a user, where it must be read as it is meant. -/
theorem sure_of_rien {type : MsgType} (htype : type ∈ demandesNom)
    (h : ∀ autre, Rien c (c.authentifie (o.avec autre o.indefini) type recu zmqMsg)) :
    o.sql.sure c.pas [nom o type recu] = true := by
  by_contra hno
  have hlt := messages_authentifie zmqMsg htype (Bool.eq_false_iff.mpr hno) o.indefini
  exact absurd (congrArg (fun t : Tables => t.messages.length) (h ajoute).tables) (Nat.ne_of_gt hlt)

theorem trouve_lu {s : String} (h : o.sql.sure c.pas [s] = true) : c.trouve o s o.indefini = c.idLu o s := by
  rw [trouve_sure h]
  rfl

/-- What does not depend on what SQLite makes of a text that is not the statement meant. -/
theorem forall_autre {P : (String → Tables → Reponse) → Prop} {b : Bool} (h : ∀ autre, P autre ↔ b = true) :
    (∀ autre, P autre) ↔ b = true :=
  ⟨fun hall => (h ajoute).mp (hall _), fun hb autre => (h autre).mpr hb⟩

/-- A request whose pseudonym is read first: what it does then is left. -/
theorem rien_nom {type : MsgType} (htype : type ∈ demandesNom) {b : Bool}
    (hP : o.sql.sure c.pas [nom o type recu] = true →
      ((∀ autre, Rien c (c.authentifie (o.avec autre o.indefini) type recu zmqMsg)) ↔ b = true)) :
    (∀ autre, Rien c (c.authentifie (o.avec autre o.indefini) type recu zmqMsg)) ↔
      (o.sql.sure c.pas [nom o type recu] && b) = true := by
  rw [Bool.and_eq_true]
  constructor
  · intro h
    have hs := sure_of_rien htype h
    exact ⟨hs, (hP hs).mp h⟩
  · rintro ⟨hs, hb⟩
    exact (hP hs).mpr hb

/-- **A message.** -/
theorem effet_chat (hs : o.sql.sure c.pas [(o.lecture.chat recu).1] = true) :
    Rien c (c.clientSendMessage o recu) ↔
      (o.sql.exec (c.pas + 1) (.sendMessage c.usr.id (c.idLu o (o.lecture.chat recu).1)
        (o.lecture.chat recu).2) c.tables).tables = c.tables ∧
      c.autreUsager (c.idLu o (o.lecture.chat recu).1) = false := by
  have hd := diffusions_clientSendMessage o recu c
  have ht := tables_clientSendMessage o recu c
  rw [trouve_lu hs] at hd ht
  rw [lookup_sure hs] at ht
  rw [rien_of _ hd, ht, List.forall_mem_singleton, atteint_chatBroker]

theorem rien_message (hs : o.sql.sure c.pas [(o.lecture.chat recu).1] = true) :
    (∀ autre, Rien c (c.clientSendMessage (o.avec autre o.indefini) recu)) ↔
      (!o.sql.ok (c.pas + 1) && !c.autreUsager (c.idLu o (o.lecture.chat recu).1)) = true := by
  have hrien : ∀ autre, Rien c (c.clientSendMessage (o.avec autre o.indefini) recu) ↔
      ((o.avec autre o.indefini).sql.exec (c.pas + 1) (.sendMessage c.usr.id
        (c.idLu o (o.lecture.chat recu).1) (o.lecture.chat recu).2) c.tables).tables = c.tables ∧
      c.autreUsager (c.idLu o (o.lecture.chat recu).1) = false :=
    fun autre => effet_chat (o := o.avec autre o.indefini) hs
  rw [forall_congr' hrien, Bool.and_eq_true, Bool.not_eq_true', Bool.not_eq_true']
  constructor
  · intro h
    refine ⟨?_, (h o.sql.autre).2⟩
    have hexec := (tables_exec_iff _ _ _ _).mp fun autre => (h autre).1
    -- a message that is inserted stays
    refine hexec.resolve_right fun ⟨_, ht⟩ => ?_
    have hlen := congrArg (fun t : Tables => t.messages.length) ht
    simp [Ordre.prevu] at hlen
  · rintro ⟨hok, hid⟩ autre
    exact ⟨(tables_exec_iff _ _ _ _).mpr (Or.inl hok) autre, hid⟩

/-- **An invitation.** -/
theorem rien_invitation (hs : o.sql.sure c.pas [o.lecture.friAdd recu] = true) :
    Rien c (c.clientAskFriendship o recu) ↔ c.invitationVaine o recu = true := by
  have hdeja : c.dejaInvite o (o.lecture.friAdd recu) = (o.sql.ok (c.pas + 1) &&
      decide (o.lecture.friAdd recu ∈ c.tables.getAllFriendList c.usr.id)) := by
    rw [dejaInvite, lookup_sure hs]
  unfold invitationVaine
  simp only
  rw [← hdeja]
  rcases clientAskFriendship_cases o recu c with ⟨hd, ht, hpub⟩ | ⟨hd, ht, hpub⟩
  · rw [hd, Bool.true_or, rien_muet hpub, ht, lookup_sure hs]
    simp
  · rw [hd, Bool.false_or, rien_of _ hpub, ht, trouve_lu hs, lookup_sure hs, Bool.and_eq_true,
      Bool.not_eq_true', Bool.not_eq_true']
    refine and_congr ?_ ?_
    · cases o.sql.ok (c.pas + 2) with
      | true =>
        refine iff_of_false (fun h => ?_) Bool.noConfusion
        have hlen := congrArg (fun t : Tables => t.friends.length) h
        simp [Tables.addFriend] at hlen
      | false => exact iff_of_true rfl rfl
    · cases enLigne o (c.pas + 3) c.tables (c.idLu o (o.lecture.friAdd recu)) with
      | true => rw [if_pos rfl, List.forall_mem_singleton, atteint_serverReceiveInvite, Bool.true_and]
      | false => simp

/-- **An answer, or a deletion.** -/
theorem rien_reponse (accept : Bool) (friendId : Int) (hd : diffusions c'.journal = diffusions c.journal)
    (ht : c'.tables = if o.sql.ok (c.pas + 1) then
      if accept then c.tables.acceptFriendInvite c.usr.id friendId else c.tables.removeFriend c.usr.id friendId
      else c.tables) :
    Rien c c' ↔ reponseVaine o accept friendId c = true := by
  rw [rien_muet hd, reponseVaine_iff, ht]
  constructor
  · exact fun h => congrArg Tables.friends h
  · generalize o.sql.ok (c.pas + 1) = ok
    intro h
    cases ok with
    | false => rfl
    | true =>
      rw [if_pos rfl] at h ⊢
      cases accept with
      | true =>
        have h : (c.tables.acceptFriendInvite c.usr.id friendId).friends = c.tables.friends := h
        rw [if_pos rfl, Tables.acceptFriendInvite]
        exact congrArg (fun friends => { c.tables with friends }) h
      | false =>
        have h : (c.tables.removeFriend c.usr.id friendId).friends = c.tables.friends := h
        rw [if_neg Bool.false_ne_true, Tables.removeFriend]
        exact congrArg (fun friends => { c.tables with friends }) h

theorem rien_accept (hs : o.sql.sure c.pas [(o.lecture.friAccept recu).2] = true) :
    Rien c (c.clientAcceptFriendship o recu) ↔
      reponseVaine o (o.lecture.friAccept recu).1 (c.idLu o (o.lecture.friAccept recu).2) c = true := by
  have ht := tables_clientAcceptFriendship o recu c
  simp only [trouve_lu hs, lookup_sure hs] at ht
  exact rien_reponse _ _ (diffusions_clientAcceptFriendship o recu c) ht

theorem rien_delete (hs : o.sql.sure c.pas [o.lecture.friRmv recu] = true) :
    Rien c (c.clientDeleteFriendship o recu) ↔
      reponseVaine o false (c.idLu o (o.lecture.friRmv recu)) c = true := by
  have ht := tables_clientDeleteFriendship o recu c
  simp only [trouve_lu hs, lookup_sure hs] at ht
  exact rien_reponse false _ (diffusions_clientDeleteFriendship o recu c) ht

/-! ## Requests that read -/

theorem tables_auteurs (msgs : List (String × Int)) : ∀ c : Contexte, (c.auteurs o msgs).2.tables = c.tables := by
  induction msgs with
  | nil => exact fun _ => rfl
  | cons m msgs ih => exact fun c => ih _

theorem tables_pseudos (ids : List Nat) : ∀ (username : String) (c : Contexte),
    (c.pseudos o ids username).2.tables = c.tables := by
  induction ids with
  | nil => exact fun _ _ => rfl
  | cons id ids ih =>
    intro username c
    by_cases hid : id ≠ 0
    · simp only [pseudos, if_pos hid]
      exact ih _ _
    · simp only [pseudos, if_neg hid]
      exact ih _ _

theorem tables_parties (hs : List PartieRow) : ∀ c : Contexte, (c.parties o hs).2.tables = c.tables := by
  induction hs with
  | nil => exact fun _ => rfl
  | cons h hs ih =>
    intro c
    simp only [parties]
    rw [ih, tables_pseudos]
    rfl

/-- A request that reads changes what its lookup changes. -/
theorem rien_lecture {s : String} {f : Outils → Contexte}
    (ht : ∀ autre, (f (o.avec autre o.indefini)).tables = c.lookup (o.avec autre o.indefini) s)
    (hd : ∀ autre, diffusions (f (o.avec autre o.indefini)).journal = diffusions c.journal) :
    (∀ autre, Rien c (f (o.avec autre o.indefini))) ↔ o.sql.sure c.pas [s] = true := by
  rw [← lookup_iff c.pas s c.tables o.indefini]
  refine forall_congr' fun autre => ?_
  rw [rien_muet (hd _), ht]
  rfl

theorem rien_getConvo : (∀ autre, Rien c (c.getConvo (o.avec autre o.indefini) recu)) ↔
    o.sql.sure c.pas [o.lecture.convo recu] = true := by
  refine rien_lecture (f := fun o => c.getConvo o recu) (fun autre => ?_) fun autre => ?_
  · simp only [getConvo, note_tables, tables_auteurs]
    rfl
  · simp only [getConvo]
    rw [note_journal, diffusions_muet _ rfl, journal_auteurs]
    exact diffusions_muet _ rfl

theorem rien_getHistory : (∀ autre, Rien c (c.getHistory (o.avec autre o.indefini) recu)) ↔
    o.sql.sure c.pas [(o.lecture.getHistory recu).1] = true := by
  refine rien_lecture (f := fun o => c.getHistory o recu) (fun autre => ?_) fun autre => ?_
  · simp only [getHistory, note_tables, tables_parties]
    rfl
  · simp only [getHistory]
    rw [note_journal, diffusions_muet _ rfl, journal_parties]
    exact diffusions_muet _ rfl

/-- **A name.** -/
theorem rien_nomLombric : (∀ autre, Rien c (c.updateLombricsNames (o.avec autre o.indefini) recu)) ↔
    c.nomVain o recu = true := by
  obtain ⟨idLomb, nameLomb, hl⟩ : ∃ a b, o.lecture.lombMod recu = (a, b) := ⟨_, _, rfl⟩
  have hrien : ∀ autre, Rien c (c.updateLombricsNames (o.avec autre o.indefini) recu) ↔
      ((o.avec autre o.indefini).sql.exec c.pas (.setLombricName (Partie.int32 idLomb) c.usr.id nameLomb)
        c.tables).tables = c.tables := by
    intro autre
    have hl' : (o.avec autre o.indefini).lecture.lombMod recu = (idLomb, nameLomb) := hl
    have hd : diffusions (c.updateLombricsNames (o.avec autre o.indefini) recu).journal = diffusions c.journal := by
      simp only [updateLombricsNames, hl', exec_journal]
      exact diffusions_muet _ rfl
    rw [rien_muet hd]
    simp only [updateLombricsNames, hl', exec_tables, note_tables, note_pas, note_usr]
  rw [forall_congr' hrien, tables_exec_iff, Ordre.lu_iff, nomVain, hl, Bool.or_eq_true, Bool.and_eq_true,
    Bool.not_eq_true', decide_eq_true_eq, Ordre.chaines, List.forall_mem_singleton, List.all_eq_true]
  refine or_congr_right (and_congr_right fun _ => ?_)
  have hmap : ((Ordre.setLombricName (Partie.int32 idLomb) c.usr.id nameLomb).prevu (o.sql.heure c.pas)
      c.tables).tables = c.tables ↔ (c.tables.worms.map fun w =>
        if w.ownerId = c.usr.id ∧ w.idLomb = Partie.int32 idLomb then { w with name := nameLomb } else w) =
      c.tables.worms.map id := by
    rw [List.map_id]
    exact ⟨fun h => congrArg Tables.worms h, fun h => by rw [Ordre.prevu, h]⟩
  rw [hmap, List.map_inj_left]
  refine forall_congr' fun w => imp_congr_right fun _ => ?_
  obtain ⟨id, idLomb', name, ownerId⟩ := w
  by_cases hw : ownerId = c.usr.id ∧ idLomb' = Partie.int32 idLomb
  · rw [if_pos hw, hw.1, hw.2]
    simpa using eq_comm
  · rw [if_neg hw]
    refine iff_of_true rfl ?_
    rcases Decidable.not_and_iff_or_not.mp hw with h | h
    · simp [h]
    · simp [h]

/-! ## Accounts -/

/-- The id is read, and the pseudonym marked. -/
theorem suite_vaine (n : Nat) (pseudo : String) (i : Int) :
    (∀ autre, ((o.avec autre i).sql.exec (n + 1) (.connectUser true pseudo)
      ((o.avec autre i).sql.exec n (.getUserId pseudo) c.tables).tables).tables = c.tables) ↔
      (o.sql.sure n [pseudo] && c.marqueVaine o (n + 1) pseudo) = true := by
  rw [Bool.and_eq_true, ← marqueVaine_iff (i := i)]
  have hlookup := (lookup_iff (o := o) n pseudo c.tables i).mpr
  constructor
  · intro h
    have hs : o.sql.sure n [pseudo] = true := by
      by_contra hno
      have hlt := taille_unsure (r := .getUserId pseudo) (Bool.eq_false_iff.mpr hno) c.tables i
      have hle := taille_exec (o := o) (n + 1) (.connectUser true pseudo) (((o.avec ajoute i).sql.exec n
        (.getUserId pseudo) c.tables).tables) i
      rw [h ajoute] at hle
      omega
    refine ⟨hs, fun autre => ?_⟩
    have hautre := h autre
    rwa [hlookup hs autre] at hautre
  · rintro ⟨hs, h⟩ autre
    rw [hlookup hs autre]
    exact h autre

theorem tables_connexion : (c.connexion o).2.tables =
    let rep := o.sql.exec c.pas (.getPasswd c.usr.pseudo) c.tables
    if o.checkpw c.usr.password (rep.textes.getLast?.getD "") then
      (o.sql.exec (c.pas + 2) (.connectUser true c.usr.pseudo)
        (o.sql.exec (c.pas + 1) (.getUserId c.usr.pseudo) rep.tables).tables).tables
    else rep.tables := by
  obtain ⟨ok, hok⟩ : ∃ ok, o.checkpw c.usr.password ((o.sql.exec c.pas (.getPasswd c.usr.pseudo)
      c.tables).textes.getLast?.getD "") = ok := ⟨_, rfl⟩
  have hcheck : c.checkPasswd o c.usr.password = (ok, (c.exec o (.getPasswd c.usr.pseudo)).2) := by
    rw [← hok]
    rfl
  simp only [connexion, hcheck, hok]
  cases ok with
  | true => rfl
  | false => rfl

/-- **A log-in.** -/
theorem rien_connexion : (∀ autre, (c.connexion (o.avec autre o.indefini)).2.tables = c.tables) ↔
    c.connexionVaine o c.usr.pseudo c.usr.password = true := by
  unfold connexionVaine
  rw [Bool.and_eq_true]
  by_cases hs : o.sql.sure c.pas [c.usr.pseudo] = true
  · rw [and_iff_right hs]
    have hrep : ∀ autre, (o.avec autre o.indefini).sql.exec c.pas (.getPasswd c.usr.pseudo) c.tables =
        ⟨c.tables, [], if o.sql.ok c.pas then (c.tables.comptes c.usr.pseudo).map (·.password) else []⟩ := by
      intro autre
      refine (@Sqlite.exec_sure (o.avec autre o.indefini).sql _ (.getPasswd c.usr.pseudo) hs _).trans ?_
      show (if o.sql.ok c.pas then _ else _) = _
      cases o.sql.ok c.pas <;> rfl
    have hstocke : (if o.sql.ok c.pas then (c.tables.comptes c.usr.pseudo).map (·.password) else []).getLast?.getD
        "" = c.stocke o c.usr.pseudo := by
      unfold stocke
      split
      · rfl
      · rfl
    have htables : ∀ autre, (c.connexion (o.avec autre o.indefini)).2.tables =
        if o.checkpw c.usr.password (c.stocke o c.usr.pseudo) then
          ((o.avec autre o.indefini).sql.exec (c.pas + 1 + 1) (.connectUser true c.usr.pseudo)
            ((o.avec autre o.indefini).sql.exec (c.pas + 1) (.getUserId c.usr.pseudo) c.tables).tables).tables
        else c.tables := by
      intro autre
      rw [tables_connexion, hrep]
      simp only [hstocke]
      rfl
    simp only [htables]
    cases o.checkpw c.usr.password (c.stocke o c.usr.pseudo) with
    | true => exact suite_vaine (c.pas + 1) c.usr.pseudo o.indefini
    | false => simp
  · refine iff_of_false (fun h => ?_) fun h => hs h.1
    have hlt := taille_unsure (r := .getPasswd c.usr.pseudo) (Bool.eq_false_iff.mpr hs) c.tables o.indefini
    refine absurd (congrArg taille (h ajoute)) (Nat.ne_of_gt ?_)
    rw [tables_connexion]
    simp only
    split
    · exact (hlt.trans_le (taille_exec _ _ _ _)).trans_le (taille_exec _ _ _ _)
    · exact hlt

theorem tables_registerUser : (c.registerUser o).2.tables =
    let rep := o.sql.exec c.pas (.getUserId c.usr.pseudo) c.tables
    if 0 < rep.entiers.getLast?.getD 0 then rep.tables
    else (((c.insere o).fin o)).tables := by
  rw [registerUser_eq, getUserId_fst]
  simp only
  split
  · rfl
  · rfl

theorem tables_insere : (c.insere o).tables =
    (o.sql.exec (c.pas + 1) (.registerUser c.usr.pseudo (o.hashpw (c.pas + 1) c.usr.password))
      (o.sql.exec c.pas (.getUserId c.usr.pseudo) c.tables).tables).tables := rfl

/-- The worms come after the mark. -/
theorem exists_fin : ∃ (userId : Int) (c' : Contexte), (c.fin o).tables = (c'.addLombrics o userId 8 0).tables ∧
    c'.pas = c.pas + 2 ∧ c'.tables = (o.sql.exec (c.pas + 1) (.connectUser true c.usr.pseudo)
      (o.sql.exec c.pas (.getUserId c.usr.pseudo) c.tables).tables).tables :=
  ⟨_, _, rfl, rfl, rfl⟩

/-- What a registration has inserted stays, and its worms come to it. -/
theorem taille_fin (i : Int) : taille (c.insere (o.avec ajoute i)).tables + reussis o.sql (c.pas + 4) 8 ≤
    taille ((c.insere (o.avec ajoute i)).fin (o.avec ajoute i)).tables := by
  obtain ⟨userId, c', ht, hpas, hc'⟩ := exists_fin (o := o.avec ajoute i) (c := c.insere (o.avec ajoute i))
  have hreussis : reussis (o.avec ajoute i).sql c'.pas 8 = reussis o.sql (c.pas + 4) 8 := by
    rw [hpas]
    rfl
  rw [ht, taille_addLombrics, hreussis, hc']
  exact Nat.add_le_add_right ((taille_exec _ _ _ _).trans (taille_exec _ _ _ _)) _

/-- A registration that is not refused and does nothing. -/
theorem rien_fin (hs : o.sql.sure c.pas [c.usr.pseudo] = true) :
    (∀ autre, ((c.insere (o.avec autre o.indefini)).fin (o.avec autre o.indefini)).tables = c.tables) ↔
      (!o.sql.ok (c.pas + 1) && o.sql.sure (c.pas + 2) [c.usr.pseudo] &&
        c.marqueVaine o (c.pas + 3) c.usr.pseudo && reussis o.sql (c.pas + 4) 8 == 0) = true := by
  have hlookup := (lookup_iff (o := o) c.pas c.usr.pseudo c.tables o.indefini).mpr hs
  have hinsere : o.sql.ok (c.pas + 1) = false → ∀ autre, (c.insere (o.avec autre o.indefini)).tables = c.tables := by
    intro hok autre
    rw [tables_insere, hlookup autre]
    exact (tables_exec_iff _ _ _ o.indefini).mpr (Or.inl hok) autre
  have hfin : ∀ autre, o.sql.ok (c.pas + 1) = false → reussis o.sql (c.pas + 4) 8 = 0 →
      ((c.insere (o.avec autre o.indefini)).fin (o.avec autre o.indefini)).tables =
        ((o.avec autre o.indefini).sql.exec (c.pas + 2 + 1) (.connectUser true c.usr.pseudo)
          ((o.avec autre o.indefini).sql.exec (c.pas + 2) (.getUserId c.usr.pseudo) c.tables).tables).tables := by
    intro autre hok h8
    obtain ⟨userId, c', ht, hpas, hc'⟩ := exists_fin (o := o.avec autre o.indefini)
      (c := c.insere (o.avec autre o.indefini))
    rw [ht, addLombrics_vain _ _ _ _ (by rw [hpas]; exact h8), hc', hinsere hok autre]
    rfl
  rw [Bool.and_eq_true, Bool.and_assoc, Bool.and_eq_true, Bool.not_eq_true', beq_iff_eq,
    ← suite_vaine (c.pas + 2) c.usr.pseudo o.indefini]
  constructor
  · intro h
    -- what is added stays
    have hfinal := taille_fin (o := o) (c := c) o.indefini
    rw [h ajoute] at hfinal
    have hcompte : taille c.tables ≤ taille (c.insere (o.avec ajoute o.indefini)).tables ∧
        (o.sql.ok (c.pas + 1) = true →
          taille c.tables < taille (c.insere (o.avec ajoute o.indefini)).tables) := by
      rw [tables_insere, hlookup ajoute]
      exact ⟨taille_exec _ _ _ _, fun hok => taille_lt hok (Or.inr ⟨_, _, rfl⟩) _ _⟩
    have hok : o.sql.ok (c.pas + 1) = false := by
      by_contra hok
      have := hcompte.2 (by simpa using hok)
      omega
    have h8 : reussis o.sql (c.pas + 4) 8 = 0 := by
      have := hcompte.1
      omega
    exact ⟨⟨hok, fun autre => (hfin autre hok h8).symm.trans (h autre)⟩, h8⟩
  · rintro ⟨⟨hok, h⟩, h8⟩ autre
    exact (hfin autre hok h8).trans (h autre)

/-- **A registration.** -/
theorem rien_inscription : (∀ autre, (c.registerUser (o.avec autre o.indefini)).2.tables = c.tables) ↔
    c.inscriptionVaine o c.usr.pseudo = true := by
  unfold inscriptionVaine
  rw [Bool.and_eq_true]
  by_cases hs : o.sql.sure c.pas [c.usr.pseudo] = true
  · rw [and_iff_right hs, Bool.or_eq_true, decide_eq_true_eq, ← rien_fin hs]
    have hrep : ∀ autre, (o.avec autre o.indefini).sql.exec c.pas (.getUserId c.usr.pseudo) c.tables =
        ⟨c.tables, if o.sql.ok c.pas then (c.tables.comptes c.usr.pseudo).map fun u => (u.id : Int) else [],
          []⟩ := by
      intro autre
      refine (@Sqlite.exec_sure (o.avec autre o.indefini).sql _ (.getUserId c.usr.pseudo) hs _).trans ?_
      show (if o.sql.ok c.pas then _ else _) = _
      cases o.sql.ok c.pas <;> rfl
    have htables : ∀ autre, (c.registerUser (o.avec autre o.indefini)).2.tables =
        if 0 < c.connu o c.usr.pseudo then c.tables
        else ((c.insere (o.avec autre o.indefini)).fin (o.avec autre o.indefini)).tables := by
      intro autre
      rw [tables_registerUser, hrep]
      simp only [getLast_lu]
      rfl
    simp only [htables]
    by_cases hpos : 0 < c.connu o c.usr.pseudo
    · simp [hpos]
    · simp [hpos]
  · refine iff_of_false (fun h => ?_) fun h => hs h.1
    have hlt := taille_unsure (r := .getUserId c.usr.pseudo) (Bool.eq_false_iff.mpr hs) c.tables o.indefini
    refine absurd (congrArg taille (h ajoute)) (Nat.ne_of_gt ?_)
    rw [tables_registerUser]
    simp only
    split
    · exact hlt
    · have hinsere : taille (c.lookup (o.avec ajoute o.indefini) c.usr.pseudo) ≤
          taille (c.insere (o.avec ajoute o.indefini)).tables := by
        rw [tables_insere]
        exact taille_exec _ _ _ _
      exact hlt.trans_le (hinsere.trans ((Nat.le_add_right _ _).trans (taille_fin o.indefini)))

/-- What a log-in or a registration does. -/
theorem authentification_effet (o : Outils) (recu zmqMsg : List UInt8) (c : Contexte) :
    let c₁ := ((c.note [.verrouille .dataBase]).note [.recoit]).parse o recu
    let r := (c.handleInstruction o CLIENT_AUTHENTIFICATION recu zmqMsg).2
    r.tables = (if c₁.usr.isregister then (c₁.connexion o).2.tables else (c₁.registerUser o).2.tables) ∧
      diffusions r.journal = diffusions c.journal := by
  intro c₁ r
  have hj : diffusions c₁.journal = diffusions c.journal := by
    rw [show c₁.journal = c.journal ++ [.verrouille .dataBase] ++ [.recoit] from rfl, diffusions_muet _ rfl,
      diffusions_muet _ rfl]
  cases hreg : c₁.usr.isregister with
  | true =>
    rw [if_pos rfl]
    rcases connexion_cases o c₁ with ⟨c', hc, hj'⟩ | ⟨c', hc, hj'⟩
    · have hr : r = c' := congrArg Prod.snd (authentification_acceptee hreg hc rfl)
      rw [hr, hc]
      refine ⟨rfl, ?_⟩
      rw [hj', diffusions_muet _ rfl, diffusions_muet _ rfl, hj]
    · have hr : r = c'.note [.libere .dataBase] := congrArg Prod.snd (authentification_refusee hreg hc rfl)
      rw [hr, hc]
      refine ⟨rfl, ?_⟩
      rw [note_journal, diffusions_muet _ rfl, hj', diffusions_muet _ rfl, hj]
  | false =>
    have hr : r = (c₁.registerUser o).2 := congrArg Prod.snd (authentification_inscription hreg rfl)
    rw [hr, if_neg Bool.false_ne_true]
    refine ⟨rfl, ?_⟩
    rw [journal_registerUser]
    split
    · rw [diffusions_muet _ rfl, hj]
    · rw [diffusions_muet _ rfl, hj]

theorem rien_authentification :
    (∀ autre, Rien c (c.handleInstruction (o.avec autre o.indefini) CLIENT_AUTHENTIFICATION recu zmqMsg).2) ↔
      c.inerte o recu CLIENT_AUTHENTIFICATION = true := by
  obtain ⟨isregister, pseudo, password, hd⟩ : ∃ a b d, o.lecture.userConnect recu = (a, b, d) := ⟨_, _, _, rfl⟩
  obtain ⟨c₁, hc₁⟩ : ∃ c₁, c₁ = ((c.note [.verrouille .dataBase]).note [.recoit]).parse o recu := ⟨_, rfl⟩
  have husr : c₁.usr = { c.usr with isregister, pseudo, password } := by
    rw [hc₁, parse, hd]
    rfl
  have ht : c₁.tables = c.tables := by rw [hc₁]; rfl
  have hpas : c₁.pas = c.pas := by rw [hc₁]; rfl
  have hrien : ∀ autre, Rien c (c.handleInstruction (o.avec autre o.indefini) CLIENT_AUTHENTIFICATION recu
      zmqMsg).2 ↔ (if isregister then (c₁.connexion (o.avec autre o.indefini)).2.tables
        else (c₁.registerUser (o.avec autre o.indefini)).2.tables) = c₁.tables := by
    intro autre
    obtain ⟨htables, hpub⟩ := authentification_effet (o.avec autre o.indefini) recu zmqMsg c
    have hc₁' : ((c.note [.verrouille .dataBase]).note [.recoit]).parse (o.avec autre o.indefini) recu = c₁ :=
      hc₁.symm
    rw [rien_muet hpub, htables, hc₁', ht, husr]
  have hpseudo : c₁.usr.pseudo = pseudo := by rw [husr]
  have hpassword : c₁.usr.password = password := by rw [husr]
  have hinerte : c.inerte o recu CLIENT_AUTHENTIFICATION =
      if isregister then c.connexionVaine o pseudo password else c.inscriptionVaine o pseudo := by
    suffices h : ∀ d, o.lecture.userConnect recu = d → c.inerte o recu CLIENT_AUTHENTIFICATION =
        if d.1 then c.connexionVaine o d.2.1 d.2.2 else c.inscriptionVaine o d.2.1 from h _ hd
    rintro _ rfl
    rfl
  rw [forall_congr' hrien, hinerte]
  cases isregister with
  | true =>
    have hvaine : c₁.connexionVaine o pseudo password = c.connexionVaine o pseudo password := by
      unfold connexionVaine stocke marqueVaine
      rw [ht, hpas]
    simp only [if_true]
    rw [rien_connexion, hpseudo, hpassword, hvaine]
  | false =>
    have hvaine : c₁.inscriptionVaine o pseudo = c.inscriptionVaine o pseudo := by
      unfold inscriptionVaine connu marqueVaine
      rw [ht, hpas]
    simp only [Bool.false_eq_true, if_false]
    rw [rien_inscription, hpseudo, hvaine]

/-! ## A call -/

/-- **The cases of a user who is logged in.** -/
theorem rien_authentifie (zmqMsg : List UInt8) {type : MsgType} (hlit : Requete.handleInstruction true type = true)
    (htype : type ≠ CLIENT_AUTHENTIFICATION) :
    (∀ autre, Rien c (c.authentifie (o.avec autre o.indefini) type recu zmqMsg)) ↔ c.inerte o recu type = true := by
  unfold Requete.handleInstruction at hlit
  rw [if_neg htype, if_pos rfl] at hlit
  split at hlit
  · exact rien_nom (by decide) rien_message
  · exact rien_getConvo
  · refine iff_of_true (fun autre => (rien_muet ?_).mpr rfl) rfl
    exact diffusions_muet _ rfl
  · exact rien_nomLombric
  · exact rien_getHistory
  · refine iff_of_true (fun autre => (rien_muet ?_).mpr rfl) rfl
    exact (diffusions_muet _ rfl).trans (diffusions_muet _ rfl)
  · exact rien_nom (by decide) fun hs => forall_autre fun autre => rien_invitation (o := o.avec autre o.indefini) hs
  · exact rien_nom (by decide) fun hs => forall_autre fun autre => rien_accept (o := o.avec autre o.indefini) hs
  · exact rien_nom (by decide) fun hs => forall_autre fun autre => rien_delete (o := o.avec autre o.indefini) hs
  · cases hlit

/-- **A request does nothing**, whatever SQLite makes of a text that is not the statement meant, if and only if
its case does. -/
theorem inerte_iff {type : MsgType} (hlit : Requete.handleInstruction c.usr.isAuth type = true) :
    (∀ autre, Rien c (c.handleInstruction (o.avec autre o.indefini) type recu zmqMsg).2) ↔
      c.inerte o recu type = true := by
  by_cases htype : type = CLIENT_AUTHENTIFICATION
  · subst htype
    exact rien_authentification
  · have hauth : c.usr.isAuth = true := by
      by_contra hno
      unfold Requete.handleInstruction at hlit
      rw [if_neg htype, if_neg hno] at hlit
      cases hlit
    rw [hauth] at hlit
    refine Iff.trans (forall_congr' fun autre => ?_) (rien_authentifie zmqMsg
      (c := c.note [.verrouille .dataBase]) hlit htype)
    obtain ⟨ht, hd⟩ := handleInstruction_authentifie (o.avec autre o.indefini) recu c htype hauth zmqMsg
    exact (rien_congr ht hd).trans rien_note.symm

/-! ## An invitation to a room -/

theorem sendRoomInvite_effet (o : Outils) (recu : List UInt8) (c : Contexte) :
    let friendId := c.trouve o (o.lecture.invitation recu) o.indefini
    let t := c.lookup o (o.lecture.invitation recu)
    ∃ roomId, (c.sendRoomInvite o recu).2.tables = t ∧
      diffusions (c.sendRoomInvite o recu).2.journal = diffusions c.journal ++
        if enLigne o (c.pas + 1) t friendId then
          [.serverReceiveInvite (u32 friendId) c.usr.pseudo true roomId] else [] := by
  intro friendId t
  have honline : (if o.sql.ok (c.pas + 1) then (t.isOnline friendId).getD false else false) =
      enLigne o (c.pas + 1) t friendId := by
    unfold enLigne
    cases o.sql.ok (c.pas + 1) <;> rfl
  have hj : diffusions (c.journal ++ [.recoit, .verrouille .dataBase] ++ [.libere .dataBase]) =
      diffusions c.journal := by
    rw [diffusions_muet _ rfl, diffusions_muet _ rfl]
  rw [← honline]
  refine ⟨u32 (if o.sql.ok (c.pas + 2) then ((t.getRoomIdFromOwnerId c.usr.id).map Int.ofNat).getD o.indefini
    else o.indefini), ?_⟩
  unfold sendRoomInvite
  simp only
  split
  · next h =>
    refine ⟨rfl, ?_⟩
    rw [if_pos (by exact h), publie_journal, diffusions_publie]
    exact congrArg (· ++ _) hj
  · next h =>
    refine ⟨rfl, ?_⟩
    rw [if_neg (by exact h), List.append_nil]
    exact hj

/-- **An invitation to a room.** -/
theorem rien_salle (hs : o.sql.sure c.pas [o.lecture.invitation recu] = true) :
    Rien c (c.sendRoomInvite o recu).2 ↔
      (!(enLigne o (c.pas + 1) c.tables (c.idLu o (o.lecture.invitation recu)) &&
        c.autreUsager (c.idLu o (o.lecture.invitation recu)))) = true := by
  obtain ⟨roomId, ht, hd⟩ := sendRoomInvite_effet o recu c
  rw [trouve_lu hs, lookup_sure hs] at hd
  rw [rien_of _ hd, ht, lookup_sure hs, eq_self, true_and]
  cases enLigne o (c.pas + 1) c.tables (c.idLu o (o.lecture.invitation recu)) with
  | true =>
    rw [if_pos rfl, List.forall_mem_singleton, atteint_serverReceiveInvite, Bool.true_and, Bool.not_eq_true']
  | false => simp

theorem salleInerte_iff : (∀ autre, Rien c (c.sendRoomInvite (o.avec autre o.indefini) recu).2) ↔
    c.salleInerte o recu = true := by
  unfold salleInerte
  simp only
  rw [Bool.and_eq_true]
  by_cases hs : o.sql.sure c.pas [o.lecture.invitation recu] = true
  · rw [and_iff_right hs]
    exact forall_autre fun autre => rien_salle (o := o.avec autre o.indefini) hs
  · refine iff_of_false (fun h => hs ?_) fun h => hs h.1
    refine (lookup_iff c.pas _ c.tables o.indefini).mp fun autre => ?_
    obtain ⟨_, ht, _⟩ := sendRoomInvite_effet (o.avec autre o.indefini) recu c
    exact ht.symm.trans (h autre).tables

end Contexte
end LombricABrac
