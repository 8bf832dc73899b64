import LombricABrac.Effets

/-!
# A pseudonym that no user has

A message, an invitation, an answer and a deletion, for a pseudonym of nobody: the lookup leaves the id as it
was, and the request goes on with what the variable held.

    effet_message, effet_invitation, effet_reponse : what is done with that id
    inconnu_iff       : the requests that do nothing
    inconnu_accepte   : an answer accepts the invitation of another user
-/

namespace LombricABrac

open MsgType

/-- The user whom a message of the broker is for. -/
def Diffusion.destinataire : Diffusion → Option Nat
  | .chatBroker receiverId _ _ => some receiverId
  | .serverReceiveInvite receiverId _ _ _ => some receiverId
  | _ => none

namespace Contexte

/-- The message is for a user that is not `id`. -/
def versAutre (id : Int) (t : Tables) (d : Diffusion) : Bool :=
  t.users.any fun u => (u.id : Int) != id && d.destinataire == some (u32 u.id)

/-- What is published between the two. -/
def publies (c c' : Contexte) : List Diffusion := (diffusions c'.journal).drop (diffusions c.journal).length

/-- Messages and friends are as they were, and nothing is published to another user. -/
structure Intact (c c' : Contexte) : Prop where
  messages : c'.tables.messages = c.tables.messages
  friends : c'.tables.friends = c.tables.friends
  publies : ∀ d ∈ publies c c', versAutre c.usr.id c.tables d = false

/-- The requests that name a user for the messages or the friends. -/
def demandesNom : List MsgType :=
  [CLIENT_SEND_MESSAGE, CLIENT_ASK_FRIENDSHIP, CLIENT_ACCEPT_FRIENDSHIP, CLIENT_DELETE_FRIENDSHIP]

/-- The pseudonym that the request names. -/
def nom (o : Outils) (type : MsgType) (recu : List UInt8) : String :=
  match type with
  | CLIENT_SEND_MESSAGE => (o.lecture.chat recu).1
  | CLIENT_ASK_FRIENDSHIP => o.lecture.friAdd recu
  | CLIENT_ACCEPT_FRIENDSHIP => (o.lecture.friAccept recu).2
  | _ => o.lecture.friRmv recu

/-- The statement that follows the lookup changes no row: it fails, no row is between the two users, or one that is
accepted is accepted again. -/
def reponseVaine (o : Outils) (accept : Bool) (friendId : Int) (c : Contexte) : Bool :=
  !o.sql.ok (c.pas + 1) ||
    c.tables.friends.all fun f => !f.entre c.usr.id friendId || accept && f.accepted

/-- The lookup is read as it is meant, or it fails, and so does the insertion; a message that is published
all the same is for nobody, or for the user itself. -/
def sansEffet (o : Outils) (type : MsgType) (recu : List UInt8) (c : Contexte) : Bool :=
  o.sql.sure c.pas [nom o type recu] &&
    match type with
    | CLIENT_SEND_MESSAGE => !o.sql.ok (c.pas + 1) &&
        !versAutre c.usr.id c.tables (.chatBroker (u32 o.indefini) c.usr.pseudo (o.lecture.chat recu).2)
    | CLIENT_ASK_FRIENDSHIP => !o.sql.ok (c.pas + 2) &&
        !(enLigne o (c.pas + 3) c.tables o.indefini &&
          versAutre c.usr.id c.tables (.serverReceiveInvite (u32 o.indefini) c.usr.pseudo false 0))
    | CLIENT_ACCEPT_FRIENDSHIP => reponseVaine o (o.lecture.friAccept recu).1 o.indefini c
    | _ => reponseVaine o false o.indefini c

variable {o : Outils} {type : MsgType} {recu zmqMsg : List UInt8} {c c' : Contexte}

/-! ## Rows -/

theorem map_accepte_eq_self {userId friendId : Int} {l : List FriendRow} :
    (l.map fun f => if FriendRow.entre userId friendId f then { f with accepted := true } else f) = l ↔
      ∀ f ∈ l, FriendRow.entre userId friendId f = true → f.accepted = true := by
  induction l with
  | nil => simp
  | cons f l ih =>
    rw [List.map_cons, List.cons.injEq, ih, List.forall_mem_cons]
    refine and_congr_left fun _ => ?_
    obtain ⟨s, r, a⟩ := f
    by_cases he : FriendRow.entre userId friendId ⟨s, r, a⟩ = true
    · simp [he, eq_comm]
    · simp [he]

/-- **An answer or a deletion** with the id that the lookup left. -/
theorem reponseVaine_iff (accept : Bool) (friendId : Int) : reponseVaine o accept friendId c = true ↔
    (if o.sql.ok (c.pas + 1) then
      if accept then c.tables.acceptFriendInvite c.usr.id friendId
      else c.tables.removeFriend c.usr.id friendId
    else c.tables).friends = c.tables.friends := by
  unfold reponseVaine
  cases o.sql.ok (c.pas + 1) with
  | false => exact iff_of_true rfl rfl
  | true =>
    cases accept with
    | true =>
      rw [if_pos rfl, if_pos rfl, Tables.acceptFriendInvite, map_accepte_eq_self]
      simp only [Bool.not_true, Bool.false_or, Bool.true_and, List.all_eq_true, Bool.or_eq_true,
        Bool.not_eq_true']
      refine forall_congr' fun f => imp_congr_right fun _ => ?_
      cases FriendRow.entre c.usr.id friendId f <;> simp
    | false =>
      rw [if_pos rfl, if_neg Bool.false_ne_true, Tables.removeFriend, List.filter_eq_self]
      simp

/-! ## The requests -/

theorem intact_congr {c'' : Contexte} (ht : c'.tables = c''.tables)
    (hd : diffusions c'.journal = diffusions c''.journal) : Intact c c' ↔ Intact c c'' := by
  have h : publies c c' = publies c c'' := by rw [publies, publies, hd]
  constructor
  · rintro ⟨hm, hf, hp⟩
    exact ⟨ht ▸ hm, ht ▸ hf, h ▸ hp⟩
  · rintro ⟨hm, hf, hp⟩
    exact ⟨ht.symm ▸ hm, ht.symm ▸ hf, h.symm ▸ hp⟩

theorem intact_of (l : List Diffusion) (hd : diffusions c'.journal = diffusions c.journal ++ l) :
    Intact c c' ↔ c'.tables.messages = c.tables.messages ∧ c'.tables.friends = c.tables.friends ∧
      ∀ d ∈ l, versAutre c.usr.id c.tables d = false := by
  have h : publies c c' = l := by rw [publies, hd, List.drop_left]
  constructor
  · rintro ⟨hm, hf, hp⟩
    exact ⟨hm, hf, h ▸ hp⟩
  · rintro ⟨hm, hf, hp⟩
    exact ⟨hm, hf, h.symm ▸ hp⟩

/-- A user with another pseudonym is in no list under this one. -/
theorem dejaInvite_inconnu {s : String} (h : o.sql.sure c.pas [s] = true)
    (hs : ∀ u ∈ c.tables.users, u.username ≠ s) : c.dejaInvite o s = false := by
  have hnoms : ∀ ids, s ∉ c.tables.noms ids := by
    intro ids hmem
    obtain ⟨id, _, hmem⟩ := List.mem_flatMap.mp hmem
    obtain ⟨u, hu, rfl⟩ := List.mem_map.mp hmem
    exact hs u (List.mem_of_mem_filter hu) rfl
  unfold dejaInvite
  rw [lookup_sure h, Tables.getAllFriendList, Tables.listeAmis]
  simp [hnoms]

/-- **A message**. -/
theorem effet_message (h : o.sql.sure c.pas [(o.lecture.chat recu).1] = true)
    (hs : ∀ u ∈ c.tables.users, u.username ≠ (o.lecture.chat recu).1) :
    Intact c (c.clientSendMessage o recu) ↔
      (o.sql.exec (c.pas + 1) (.sendMessage c.usr.id o.indefini (o.lecture.chat recu).2) c.tables).tables.messages =
        c.tables.messages ∧
      (o.sql.exec (c.pas + 1) (.sendMessage c.usr.id o.indefini (o.lecture.chat recu).2) c.tables).tables.friends =
        c.tables.friends ∧
      versAutre c.usr.id c.tables (.chatBroker (u32 o.indefini) c.usr.pseudo (o.lecture.chat recu).2) = false := by
  have hd := diffusions_clientSendMessage o recu c
  have ht := tables_clientSendMessage o recu c
  rw [trouve_inconnu h hs] at hd ht
  rw [lookup_sure h] at ht
  rw [intact_of _ hd, ht, List.forall_mem_singleton]

/-- **An invitation.** -/
theorem effet_invitation (h : o.sql.sure c.pas [o.lecture.friAdd recu] = true)
    (hs : ∀ u ∈ c.tables.users, u.username ≠ o.lecture.friAdd recu) :
    Intact c (c.clientAskFriendship o recu) ↔ o.sql.ok (c.pas + 2) = false ∧
      (enLigne o (c.pas + 3) c.tables o.indefini &&
        versAutre c.usr.id c.tables (.serverReceiveInvite (u32 o.indefini) c.usr.pseudo false 0)) = false := by
  rcases clientAskFriendship_cases o recu c with ⟨hdeja, _⟩ | ⟨_, ht, hd⟩
  · rw [dejaInvite_inconnu h hs] at hdeja
    cases hdeja
  · rw [trouve_inconnu h hs] at hd ht
    rw [lookup_sure h] at hd ht
    rw [intact_of _ hd, ht]
    cases o.sql.ok (c.pas + 2) with
    | true =>
      refine iff_of_false (fun ⟨_, hf, _⟩ => ?_) (fun hno => Bool.noConfusion hno.1)
      have hlen := congrArg List.length hf
      simp [Tables.addFriend] at hlen
    | false =>
      rw [if_neg Bool.false_ne_true, eq_self, eq_self, true_and, true_and]
      cases enLigne o (c.pas + 3) c.tables o.indefini with
      | true => rw [if_pos rfl, List.forall_mem_singleton]; simp
      | false => simp

/-- **An answer, or a deletion.** -/
theorem effet_reponse (accept : Bool) (hd : diffusions c'.journal = diffusions c.journal)
    (ht : c'.tables = if o.sql.ok (c.pas + 1) then
      if accept then c.tables.acceptFriendInvite c.usr.id o.indefini
      else c.tables.removeFriend c.usr.id o.indefini
      else c.tables) :
    Intact c c' ↔ reponseVaine o accept o.indefini c = true := by
  have hm : c'.tables.messages = c.tables.messages := by
    rw [ht]
    cases o.sql.ok (c.pas + 1) <;> cases accept <;> rfl
  rw [intact_of [] (by rw [hd, List.append_nil]), reponseVaine_iff, hm, ht]
  simp

theorem effet_accept (h : o.sql.sure c.pas [(o.lecture.friAccept recu).2] = true)
    (hs : ∀ u ∈ c.tables.users, u.username ≠ (o.lecture.friAccept recu).2) :
    Intact c (c.clientAcceptFriendship o recu) ↔
      reponseVaine o (o.lecture.friAccept recu).1 o.indefini c = true := by
  have ht := tables_clientAcceptFriendship o recu c
  simp only [trouve_inconnu h hs, lookup_sure h] at ht
  exact effet_reponse _ (diffusions_clientAcceptFriendship o recu c) ht

theorem effet_delete (h : o.sql.sure c.pas [o.lecture.friRmv recu] = true)
    (hs : ∀ u ∈ c.tables.users, u.username ≠ o.lecture.friRmv recu) :
    Intact c (c.clientDeleteFriendship o recu) ↔ reponseVaine o false o.indefini c = true := by
  have ht := tables_clientDeleteFriendship o recu c
  simp only [trouve_inconnu h hs, lookup_sure h] at ht
  exact effet_reponse false (diffusions_clientDeleteFriendship o recu c) ht

/-! ## A text that is not the statement meant -/

/-- It may insert a message. -/
def ajoute (_ : String) (t : Tables) : Reponse := ⟨{ t with messages := t.messages ++ [⟨0, 0, "", 0⟩] }, [], []⟩

theorem messages_exec (n : Nat) (r : Ordre) (t : Tables) (i : Int) :
    t.messages.length ≤ ((o.avec ajoute i).sql.exec n r t).tables.messages.length := by
  unfold Sqlite.exec
  split
  · split
    · cases r <;> simp [Ordre.prevu]
    · simp [Outils.avec, ajoute]
  · exact le_rfl

theorem messages_sendMessage {n : Nat} (hok : o.sql.ok n = true) (senderId receiverId : Int) (msg : String)
    (t : Tables) (i : Int) :
    t.messages.length <
      ((o.avec ajoute i).sql.exec n (.sendMessage senderId receiverId msg) t).tables.messages.length := by
  unfold Sqlite.exec
  rw [if_pos (by exact hok)]
  split
  · simp [Ordre.prevu]
  · simp [Outils.avec, ajoute]

theorem messages_lookup {s : String} (h : o.sql.sure c.pas [s] = false) (i : Int) :
    c.tables.messages.length < (c.lookup (o.avec ajoute i) s).messages.length := by
  rw [Sqlite.sure, Bool.or_eq_false_iff, Bool.not_eq_false', decide_eq_false_iff_not] at h
  have hlu : ¬ (Ordre.getUserId s).Lu := fun hlu => h.2 ((Ordre.lu_iff _).mp hlu)
  unfold lookup Sqlite.exec
  rw [if_pos (by exact h.1), if_neg hlu]
  simp [Outils.avec, ajoute]

/-- Where the lookup is such a text, the messages may change. -/
theorem messages_authentifie (zmqMsg : List UInt8) (htype : type ∈ demandesNom)
    (h : o.sql.sure c.pas [nom o type recu] = false) (i : Int) :
    c.tables.messages.length <
      (c.authentifie (o.avec ajoute i) type recu zmqMsg).tables.messages.length := by
  have hlookup := messages_lookup h i
  simp only [demandesNom, List.mem_cons, List.not_mem_nil, or_false] at htype
  rcases htype with rfl | rfl | rfl | rfl
  · exact hlookup.trans_le (messages_exec _ _ _ i)
  · refine hlookup.trans_le (le_of_eq (congrArg List.length ?_))
    rcases clientAskFriendship_cases (o.avec ajoute i) recu c with ⟨_, ht, _⟩ | ⟨_, ht, _⟩
    · exact (congrArg Tables.messages ht).symm
    · refine Eq.trans ?_ (congrArg Tables.messages ht).symm
      split
      · rfl
      · rfl
  · refine hlookup.trans_le (le_of_eq (congrArg List.length ?_))
    refine Eq.trans ?_ (congrArg Tables.messages (tables_clientAcceptFriendship (o.avec ajoute i) recu c)).symm
    simp only
    split
    · split
      · rfl
      · rfl
    · rfl
  · refine hlookup.trans_le (le_of_eq (congrArg List.length ?_))
    refine Eq.trans ?_ (congrArg Tables.messages (tables_clientDeleteFriendship (o.avec ajoute i) recu c)).symm
    simp only
    split
    · rfl
    · rfl

/-! ## Requests that do nothing -/

theorem intact_note {v : Verrou} : Intact (c.note [.verrouille v]) c' ↔ Intact c c' := by
  have h : publies (c.note [.verrouille v]) c' = publies c c' := by
    rw [publies, publies, note_journal, diffusions_muet _ rfl]
  constructor
  · rintro ⟨hm, hf, hp⟩
    exact ⟨hm, hf, h ▸ hp⟩
  · rintro ⟨hm, hf, hp⟩
    exact ⟨hm, hf, h.symm ▸ hp⟩

theorem sansEffet_iff (zmqMsg : List UInt8) (htype : type ∈ demandesNom)
    (hs : ∀ u ∈ c.tables.users, u.username ≠ nom o type recu) :
    (∀ autre, Intact c (c.authentifie (o.avec autre o.indefini) type recu zmqMsg)) ↔
      sansEffet o type recu c = true := by
  cases hsure : o.sql.sure c.pas [nom o type recu] with
  | false =>
    refine iff_of_false (fun h => ?_) (by simp [sansEffet, hsure])
    have hlt := messages_authentifie zmqMsg htype hsure o.indefini
    exact absurd (congrArg List.length (h ajoute).messages) (Nat.ne_of_gt hlt)
  | true =>
    unfold sansEffet
    rw [hsure, Bool.true_and]
    simp only [demandesNom, List.mem_cons, List.not_mem_nil, or_false] at htype
    rcases htype with rfl | rfl | rfl | rfl
    · refine (forall_congr' fun autre => effet_message (o := o.avec autre o.indefini) hsure hs).trans ?_
      show _ ↔ (!_ && !_) = true
      rw [Bool.and_eq_true, Bool.not_eq_true', Bool.not_eq_true']
      constructor
      · intro h
        refine ⟨?_, (h o.sql.autre).2.2⟩
        by_contra hok
        rw [Bool.not_eq_false] at hok
        exact absurd (congrArg List.length (h ajoute).1)
          (Nat.ne_of_gt (messages_sendMessage hok c.usr.id o.indefini (o.lecture.chat recu).2 c.tables o.indefini))
      · rintro ⟨hok, hv⟩ autre
        have hexec : (o.avec autre o.indefini).sql.exec (c.pas + 1)
            (.sendMessage c.usr.id o.indefini (o.lecture.chat recu).2) c.tables = ⟨c.tables, [], []⟩ := by
          unfold Sqlite.exec
          rw [if_neg (by exact Bool.eq_false_iff.mp hok)]
        exact ⟨congrArg (fun r => r.tables.messages) hexec, congrArg (fun r => r.tables.friends) hexec, hv⟩
    · refine (forall_congr' fun autre => effet_invitation (o := o.avec autre o.indefini) hsure hs).trans ?_
      show _ ↔ (!_ && !_) = true
      rw [Bool.and_eq_true, Bool.not_eq_true', Bool.not_eq_true']
      exact ⟨fun h => h o.sql.autre, fun h _ => h⟩
    · exact ⟨fun h => (effet_accept (o := o.avec o.sql.autre o.indefini) hsure hs).mp (h _),
        fun h autre => (effet_accept (o := o.avec autre o.indefini) hsure hs).mpr h⟩
    · exact ⟨fun h => (effet_delete (o := o.avec o.sql.autre o.indefini) hsure hs).mp (h _),
        fun h autre => (effet_delete (o := o.avec autre o.indefini) hsure hs).mpr h⟩

/-- **A request that names nobody changes nothing and tells nobody**, whatever SQLite makes of another text,
if and only if its lookup fails or has no quote and no null, the statement after it fails or touches no row
with the id that the variable held, and what is published is for no other user. -/
theorem inconnu_iff (o : Outils) (type : MsgType) (recu zmqMsg : List UInt8) (c : Contexte)
    (htype : type ∈ demandesNom) (hauth : c.usr.isAuth = true)
    (hs : ∀ u ∈ c.tables.users, u.username ≠ nom o type recu) :
    (∀ autre, Intact c (c.handleInstruction (o.avec autre o.indefini) type recu zmqMsg).2) ↔
      sansEffet o type recu c = true := by
  have hne : type ≠ CLIENT_AUTHENTIFICATION := by
    rintro rfl
    exact absurd htype (by decide)
  refine Iff.trans (forall_congr' fun autre => ?_) (sansEffet_iff (c := c.note [.verrouille .dataBase])
    zmqMsg htype hs)
  obtain ⟨ht, hd⟩ := handleInstruction_authentifie (o.avec autre o.indefini) recu c hne hauth zmqMsg
  exact (intact_congr ht hd).trans intact_note.symm

/-! ## An answer to nobody -/

/-- "a" has invited "b"; "c" has done nothing. -/
def troisUsagers : Tables :=
  ⟨[⟨1, "a", "", true, 0⟩, ⟨2, "b", "", true, 0⟩, ⟨3, "c", "", true, 0⟩], [], [], [], [⟨1, 2, false⟩]⟩

def usagerDeux : Contexte := ⟨troisUsagers, 0, ⟨true, "b", "", true, 2⟩, []⟩

/-- Every body names "z", and an unset variable holds `indefini`. -/
def outilsInconnu (indefini : Int) : Outils :=
  { outilsSimples with
    indefini
    lecture := { outilsSimples.lecture with chat := fun _ => ("z", "x"), friAccept := fun _ => (true, "z") } }

/-- "b" accepts an invitation of "z", which nobody is: the variable held 1, and that of "a" is accepted.  A
message for "z" goes to "a". -/
theorem inconnu_accepte :
    let r := (usagerDeux.handleInstruction (outilsInconnu 1) CLIENT_ACCEPT_FRIENDSHIP [] []).2
    let r' := (usagerDeux.handleInstruction (outilsInconnu 1) CLIENT_SEND_MESSAGE [] []).2
    r.tables.friends = [⟨1, 2, true⟩] ∧ ¬ Intact usagerDeux r ∧
    r'.tables.messages = [⟨2, 1, "x", 1⟩] ∧ publies usagerDeux r' = [.chatBroker 1 "b" "x"] ∧
    ¬ Intact usagerDeux r' := by
  have hamis : (usagerDeux.handleInstruction (outilsInconnu 1) CLIENT_ACCEPT_FRIENDSHIP [] []).2.tables.friends =
      [⟨1, 2, true⟩] := by decide +kernel
  have hmsg : (usagerDeux.handleInstruction (outilsInconnu 1) CLIENT_SEND_MESSAGE [] []).2.tables.messages =
      [⟨2, 1, "x", 1⟩] := by decide +kernel
  refine ⟨hamis, fun h => ?_, hmsg, by decide +kernel, fun h => ?_⟩
  · exact absurd (hamis.symm.trans h.friends) (by decide)
  · exact absurd (hmsg.symm.trans h.messages) (by decide)

/-- It held 3, and there is nothing between "b" and "c". -/
theorem inconnu_rien : Intact usagerDeux (usagerDeux.handleInstruction
    ((outilsInconnu 3).avec (fun _ t => ⟨t, [], []⟩) 3) CLIENT_ACCEPT_FRIENDSHIP [] []).2 :=
  (inconnu_iff (outilsInconnu 3) CLIENT_ACCEPT_FRIENDSHIP [] [] usagerDeux (by decide) rfl
    (by decide)).mpr (by decide) _

end Contexte
end LombricABrac
