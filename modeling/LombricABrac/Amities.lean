import LombricABrac.Effets
import LombricABrac.Lib.Runs

/-!
# Friendships

The requests of all users about friendships: an invitation, an answer to one, and a deletion, each one
call of `handle_instruction`.  A row of `friends` says who has sent the invitation; an answer looks for it
both ways.

    etape_cases          : what a request does to the table
    bascule_accept       : the invitations that an answer accepts
    receveur_of_reach    : the runs in which it is the receiver who accepts
    simples_of_reach     : the runs with one row for two users, and lists without a name twice
-/

namespace LombricABrac

open MsgType

/-- An invitation that has become accepted: its row, and the request with its user. -/
structure Bascule where
  senderId : Int
  receiverId : Int
  type : MsgType
  userId : Int
  deriving DecidableEq

structure Amities where
  tables : Tables
  pas : Nat
  bascules : List Bascule

namespace Amities

/-- A request: the user of the connection, its type and its body. -/
structure Pas where
  usr : ConnectedPlayer
  type : MsgType
  recu : List UInt8

def demandes : List MsgType := [CLIENT_ASK_FRIENDSHIP, CLIENT_ACCEPT_FRIENDSHIP, CLIENT_DELETE_FRIENDSHIP]

/-- The rows of which there are more that are accepted; no request inserts such a row. -/
def acceptees (t t' : Tables) : List FriendRow :=
  t'.friends.filter fun f => f.accepted && decide (t.friends.count f < t'.friends.count f)

def Pas.contexte (p : Pas) (st : Amities) : Contexte := ⟨st.tables, st.pas, p.usr, []⟩

def etape (o : Outils) (p : Pas) (st : Amities) : Option Amities :=
  if p.type ∈ demandes ∧ p.usr.isAuth = true then
    let c := ((p.contexte st).handleInstruction o p.type p.recu []).2
    some { tables := c.tables, pas := c.pas, bascules := st.bascules ++
      (acceptees st.tables c.tables).map fun f => ⟨f.senderId, f.receiverId, p.type, p.usr.id⟩ }
  else none

/-- The pseudonym that the request names. -/
def Pas.nom (o : Outils) (p : Pas) : String :=
  match p.type with
  | CLIENT_ASK_FRIENDSHIP => o.lecture.friAdd p.recu
  | CLIENT_ACCEPT_FRIENDSHIP => (o.lecture.friAccept p.recu).2
  | _ => o.lecture.friRmv p.recu

/-- The id that the request works with. -/
def Pas.friendId (o : Outils) (p : Pas) (st : Amities) : Int :=
  (p.contexte st).trouve o (p.nom o) o.indefini

/-- The lookup of the pseudonym fails, or the pseudonym has no quote and no null. -/
def Pas.lisible (o : Outils) (p : Pas) (st : Amities) : Bool := o.sql.sure st.pas [p.nom o]

/-! ## A request -/

variable {o : Outils} {p : Pas} {st st' : Amities}

/-- **What a request does to the tables.** -/
theorem etape_cases (hp : p.lisible o st = true) (h : etape o p st = some st') :
    p.type = CLIENT_ASK_FRIENDSHIP ∧ (p.contexte st).dejaInvite o (p.nom o) = true ∧
      st'.tables = st.tables ∨
    p.type = CLIENT_ASK_FRIENDSHIP ∧ (p.contexte st).dejaInvite o (p.nom o) = false ∧
      st'.tables = (if o.sql.ok (st.pas + 2) then st.tables.addFriend p.usr.id (p.friendId o st)
        else st.tables) ∨
    p.type = CLIENT_ACCEPT_FRIENDSHIP ∧ (o.lecture.friAccept p.recu).1 = true ∧
      st'.tables = (if o.sql.ok (st.pas + 1) then st.tables.acceptFriendInvite p.usr.id (p.friendId o st)
        else st.tables) ∨
    (p.type = CLIENT_ACCEPT_FRIENDSHIP ∧ (o.lecture.friAccept p.recu).1 = false ∨
        p.type = CLIENT_DELETE_FRIENDSHIP) ∧
      st'.tables = (if o.sql.ok (st.pas + 1) then st.tables.removeFriend p.usr.id (p.friendId o st)
        else st.tables) := by
  unfold etape at h
  split at h
  · next hd =>
    cases h
    obtain ⟨usr, type, recu⟩ := p
    obtain ⟨hdem, hauth⟩ := hd
    have hlookup := Contexte.lookup_sure (c := Pas.contexte ⟨usr, type, recu⟩ st) hp
    have hcall := fun htype : type ≠ CLIENT_AUTHENTIFICATION =>
      ((Pas.contexte ⟨usr, type, recu⟩ st).handleInstruction_authentifie o recu htype hauth []).1
    simp only [demandes, List.mem_cons, List.not_mem_nil, or_false] at hdem
    rcases hdem with rfl | rfl | rfl
    · rw [hcall (by decide)]
      rcases Contexte.clientAskFriendship_cases o recu ((Pas.contexte ⟨usr, CLIENT_ASK_FRIENDSHIP, recu⟩ st).note
        [.verrouille .dataBase]) with ⟨hd, ht, _⟩ | ⟨hd, ht, _⟩
      · exact Or.inl ⟨rfl, hd, ht.trans hlookup⟩
      · refine Or.inr (Or.inl ⟨rfl, hd, ht.trans ?_⟩)
        exact congrArg (fun t : Tables => if o.sql.ok (st.pas + 2) then t.addFriend usr.id
          (Pas.friendId o ⟨usr, CLIENT_ASK_FRIENDSHIP, recu⟩ st) else t) hlookup
    · have ht := Contexte.tables_clientAcceptFriendship o recu
        ((Pas.contexte ⟨usr, CLIENT_ACCEPT_FRIENDSHIP, recu⟩ st).note [.verrouille .dataBase])
      rw [hcall (by decide)]
      cases haccept : (o.lecture.friAccept recu).1 with
      | true =>
        simp only [haccept, if_true] at ht
        refine Or.inr (Or.inr (Or.inl ⟨rfl, rfl, ht.trans ?_⟩))
        exact congrArg (fun t : Tables => if o.sql.ok (st.pas + 1) then t.acceptFriendInvite usr.id
          (Pas.friendId o ⟨usr, CLIENT_ACCEPT_FRIENDSHIP, recu⟩ st) else t) hlookup
      | false =>
        simp only [haccept, Bool.false_eq_true, if_false] at ht
        refine Or.inr (Or.inr (Or.inr ⟨Or.inl ⟨rfl, rfl⟩, ht.trans ?_⟩))
        exact congrArg (fun t : Tables => if o.sql.ok (st.pas + 1) then t.removeFriend usr.id
          (Pas.friendId o ⟨usr, CLIENT_ACCEPT_FRIENDSHIP, recu⟩ st) else t) hlookup
    · rw [hcall (by decide)]
      refine Or.inr (Or.inr (Or.inr ⟨Or.inr rfl, ?_⟩))
      exact congrArg (fun t : Tables => if o.sql.ok (st.pas + 1) then t.removeFriend usr.id
        (Pas.friendId o ⟨usr, CLIENT_DELETE_FRIENDSHIP, recu⟩ st) else t) hlookup
  · cases h

/-! ## Who accepts -/

theorem mem_acceptees {t t' : Tables} {f : FriendRow} : f ∈ acceptees t t' ↔
    f ∈ t'.friends ∧ f.accepted = true ∧ t.friends.count f < t'.friends.count f := by
  rw [acceptees, List.mem_filter, Bool.and_eq_true, decide_eq_true_eq]

theorem acceptees_of_count_le {t t' : Tables}
    (h : ∀ f, f.accepted = true → t'.friends.count f ≤ t.friends.count f) : acceptees t t' = [] := by
  rw [acceptees, List.filter_eq_nil_iff]
  intro f _ hf
  rw [Bool.and_eq_true, decide_eq_true_eq] at hf
  exact absurd (h f hf.1) (by omega)

/-- A row that is inserted is not accepted. -/
theorem acceptees_addFriend (senderId receiverId : Int) (t : Tables) :
    acceptees t (t.addFriend senderId receiverId) = [] := by
  refine acceptees_of_count_le fun f hf => ?_
  have hne : f ≠ ⟨senderId, receiverId, false⟩ := by
    rintro rfl
    cases hf
  rw [Tables.addFriend, List.count_append, List.count_singleton, if_neg (by simpa using Ne.symm hne)]
  exact le_rfl

theorem acceptees_removeFriend (userId friendId : Int) (t : Tables) :
    acceptees t (t.removeFriend userId friendId) = [] :=
  acceptees_of_count_le fun f _ => List.filter_sublist.count_le f

/-- The rows that an answer makes of those between the two users. -/
theorem count_accept (userId friendId senderId receiverId : Int) (l : List FriendRow) :
    (l.map fun f => if FriendRow.entre userId friendId f then { f with accepted := true } else f).count
        ⟨senderId, receiverId, true⟩ =
      l.count ⟨senderId, receiverId, true⟩ +
        if FriendRow.entre userId friendId ⟨senderId, receiverId, false⟩ then
          l.count ⟨senderId, receiverId, false⟩ else 0 := by
  induction l with
  | nil => simp
  | cons g l ih =>
    obtain ⟨s, r, a⟩ := g
    rw [List.map_cons, List.count_cons, List.count_cons, List.count_cons, ih]
    by_cases hpair : s = senderId ∧ r = receiverId
    · obtain ⟨rfl, rfl⟩ := hpair
      have hentre : FriendRow.entre userId friendId ⟨s, r, a⟩ =
          FriendRow.entre userId friendId ⟨s, r, false⟩ := rfl
      rw [hentre]
      cases FriendRow.entre userId friendId ⟨s, r, false⟩ <;> cases a <;> simp <;> omega
    · have hne : ∀ b b' : Bool, ((⟨s, r, b⟩ : FriendRow) == ⟨senderId, receiverId, b'⟩) = false := by
        intro b b'
        rw [beq_eq_false_iff_ne]
        rintro he
        cases he
        exact hpair ⟨rfl, rfl⟩
      cases FriendRow.entre userId friendId ⟨s, r, a⟩ <;> simp [hne]

/-- **The invitations that an answer accepts** are those between the two users that were not. -/
theorem mem_acceptees_accept (userId friendId senderId receiverId : Int) (t : Tables) :
    ⟨senderId, receiverId, true⟩ ∈ acceptees t (t.acceptFriendInvite userId friendId) ↔
      FriendRow.entre userId friendId ⟨senderId, receiverId, false⟩ = true ∧
        ⟨senderId, receiverId, false⟩ ∈ t.friends := by
  have hcount : (t.acceptFriendInvite userId friendId).friends.count ⟨senderId, receiverId, true⟩ = _ :=
    count_accept userId friendId senderId receiverId t.friends
  rw [mem_acceptees, hcount, ← List.count_pos_iff, ← List.count_pos_iff, hcount]
  split
  · next he =>
    simp only [he, true_and]
    omega
  · next he =>
    simp [he]

/-! ## The receiver accepts -/

/-- Invitations become accepted by an answer of their receiver only. -/
def Receveur (st : Amities) : Prop :=
  ∀ b ∈ st.bascules, b.type = CLIENT_ACCEPT_FRIENDSHIP ∧ b.userId = b.receiverId

/-- The user has sent an invitation to another one, which is not accepted. -/
def enAttente (userId friendId : Int) (t : Tables) : Bool :=
  decide (userId ≠ friendId) && t.friends.contains ⟨userId, friendId, false⟩

/-- It answers one that it has sent itself. -/
def Pas.propre (o : Outils) (p : Pas) (st : Amities) : Bool :=
  p.type == CLIENT_ACCEPT_FRIENDSHIP && (o.lecture.friAccept p.recu).1 && o.sql.ok (st.pas + 1) &&
    enAttente p.usr.id (p.friendId o st) st.tables

theorem bascules_etape (h : etape o p st = some st') : st'.bascules = st.bascules ++
    (acceptees st.tables st'.tables).map fun f => ⟨f.senderId, f.receiverId, p.type, p.usr.id⟩ := by
  unfold etape at h
  split at h
  · cases h
    rfl
  · cases h

/-- **An answer that accepts** keeps to the receiver exactly where the user has sent no such invitation. -/
theorem receveur_accepte (hR : st.Receveur) (h : etape o p st = some st')
    (ht : p.type = CLIENT_ACCEPT_FRIENDSHIP)
    (hs : st'.tables = st.tables.acceptFriendInvite p.usr.id (p.friendId o st)) :
    enAttente p.usr.id (p.friendId o st) st.tables = false ↔ st'.Receveur := by
  constructor
  · intro hno b hb
    rw [bascules_etape h, List.mem_append] at hb
    rcases hb with hb | hb
    · exact hR b hb
    · obtain ⟨⟨s, r, a⟩, hf, rfl⟩ := List.mem_map.mp hb
      have ha : a = true := (mem_acceptees.mp hf).2.1
      rw [ha, hs, mem_acceptees_accept, FriendRow.entre] at hf
      simp only [Bool.or_eq_true, Bool.and_eq_true, decide_eq_true_eq] at hf
      refine ⟨ht, ?_⟩
      rcases hf with ⟨⟨hr, _⟩ | ⟨hsender, hr⟩, hin⟩
      · exact hr.symm
      · -- the user has sent this one
        subst hsender hr
        by_contra hne
        rw [enAttente, decide_eq_true hne, Bool.true_and, List.contains_eq_mem, decide_eq_false_iff_not]
          at hno
        exact hno hin
  · intro hR'
    refine Bool.eq_false_iff.mpr fun hatt => ?_
    rw [enAttente, Bool.and_eq_true, decide_eq_true_eq, List.contains_iff_mem] at hatt
    have hf : ⟨p.usr.id, p.friendId o st, true⟩ ∈ acceptees st.tables st'.tables := by
      rw [hs, mem_acceptees_accept]
      exact ⟨by simp [FriendRow.entre], hatt.2⟩
    refine hatt.1 (hR' ⟨p.usr.id, p.friendId o st, p.type, p.usr.id⟩ ?_).2
    rw [bascules_etape h]
    exact List.mem_append_right _ (List.mem_map.mpr ⟨_, hf, rfl⟩)

/-- **One request** keeps it exactly where its user does not answer its own invitation. -/
theorem receveur_etape (hp : p.lisible o st = true) (hR : st.Receveur) (h : etape o p st = some st') :
    p.propre o st = false ↔ st'.Receveur := by
  have hrien : acceptees st.tables st'.tables = [] → st'.Receveur := by
    intro hnil b hb
    rw [bascules_etape h, hnil, List.map_nil, List.append_nil] at hb
    exact hR b hb
  have hautre : p.type ≠ CLIENT_ACCEPT_FRIENDSHIP ∨ (o.lecture.friAccept p.recu).1 = false ∨
      o.sql.ok (st.pas + 1) = false → p.propre o st = false := by
    rintro (ht | ha | hok)
    · simp [Pas.propre, ht]
    · simp [Pas.propre, ha]
    · simp [Pas.propre, hok]
  have hmeme : acceptees st.tables st.tables = [] := acceptees_of_count_le fun _ _ => le_rfl
  rcases etape_cases hp h with ⟨ht, _, hs⟩ | ⟨ht, _, hs⟩ | ⟨ht, ha, hs⟩ | ⟨ht, hs⟩
  · refine iff_of_true (hautre (Or.inl (by rw [ht]; decide))) (hrien ?_)
    rw [hs]
    exact hmeme
  · refine iff_of_true (hautre (Or.inl (by rw [ht]; decide))) (hrien ?_)
    rw [hs]
    split
    · exact acceptees_addFriend _ _ _
    · exact hmeme
  · cases hok : o.sql.ok (st.pas + 1) with
    | false =>
      refine iff_of_true (hautre (Or.inr (Or.inr hok))) (hrien ?_)
      rw [hs, hok, if_neg Bool.false_ne_true]
      exact hmeme
    | true =>
      rw [hok, if_pos rfl] at hs
      have hpropre : p.propre o st = enAttente p.usr.id (p.friendId o st) st.tables := by
        rw [Pas.propre, ht, ha, hok]
        rfl
      rw [hpropre]
      exact receveur_accepte hR h ht hs
  · refine iff_of_true (hautre ?_) (hrien ?_)
    · rcases ht with ⟨_, ha⟩ | ht
      · exact Or.inr (Or.inl ha)
      · exact Or.inl (by rw [ht]; decide)
    · rw [hs]
      split
      · exact acceptees_removeFriend _ _ _
      · exact hmeme

def Depart (st : Amities) : Prop := st.bascules = []

/-- **The receiver accepts**: in every run in which no user answers an invitation that it has sent itself,
the invitations that become accepted do so by an answer of their receiver; the first such answer lets
the sender accept. -/
theorem receveur_of_reach (o : Outils) (st : Amities)
    (h : Runs.Reach (etape o) (fun p st => p.lisible o st = true ∧ p.propre o st = false) Depart st) :
    st.Receveur ∧ ∀ p st', p.lisible o st = true → etape o p st = some st' →
      (p.propre o st = false ↔ st'.Receveur) := by
  have hR : st.Receveur := by
    refine h.invariant (I := Receveur) (fun st h0 => ?_) fun p st st' hI hok hs =>
      (receveur_etape hok.1 hI hs).mp hok.2
    rw [Receveur, show st.bascules = [] from h0]
    exact nofun
  exact ⟨hR, fun p st' hp hs => receveur_etape hp hR hs⟩

/-! ## One row for two users -/

/-- No two rows are between the same users, and no list names a friend twice. -/
structure Simples (st : Amities) : Prop where
  paires : st.tables.friends.Pairwise fun f g => g.entre f.senderId f.receiverId = false
  amis : ∀ userId, (st.tables.getFriendList userId).Nodup
  tous : ∀ userId, (st.tables.getAllFriendList userId).Nodup

/-- An invitation names a user there is, and its two lookups succeed. -/
def Pas.repondue (o : Outils) (p : Pas) (st : Amities) : Bool :=
  p.lisible o st && (p.type != CLIENT_ASK_FRIENDSHIP || o.sql.ok st.pas && o.sql.ok (st.pas + 1) &&
    st.tables.users.any fun u => u.username = p.nom o)

/-- It is for another user, or it is not inserted. -/
def Pas.versAutre (o : Outils) (p : Pas) (st : Amities) : Bool :=
  p.type != CLIENT_ASK_FRIENDSHIP || !o.sql.ok (st.pas + 2) ||
    st.tables.users.all fun u => (u.id : Int) ≠ p.usr.id || u.username ≠ p.nom o

/-- What carries it: the pseudonyms are distinct, no two rows are between the same users, and none is between
a user and itself. -/
structure Rangees (t : Tables) : Prop where
  username : (t.users.map (·.username)).Nodup
  paires : t.friends.Pairwise fun f g => g.entre f.senderId f.receiverId = false
  soi : ∀ f ∈ t.friends, f.senderId ≠ f.receiverId

theorem entre_comm (f g : FriendRow) : g.entre f.senderId f.receiverId = f.entre g.senderId g.receiverId := by
  simp only [FriendRow.entre]
  rw [Bool.eq_iff_iff]
  simp only [Bool.or_eq_true, Bool.and_eq_true, decide_eq_true_eq]
  constructor <;> rintro (⟨h1, h2⟩ | ⟨h1, h2⟩) <;> simp [h1, h2]

/-- Two rows between the same users are one. -/
theorem Rangees.eq_of_entre {t : Tables} (h : Rangees t) {f g : FriendRow} (hf : f ∈ t.friends)
    (hg : g ∈ t.friends) (he : g.entre f.senderId f.receiverId = true) : f = g := by
  by_contra hne
  have hsymm : Std.Symm fun f g : FriendRow => g.entre f.senderId f.receiverId = false :=
    ⟨fun f g hfg => (entre_comm f g).symm.trans hfg⟩
  rw [h.paires.forall hf hg hne] at he
  cases he

theorem noms_append (t : Tables) (a b : List Int) : t.noms (a ++ b) = t.noms a ++ t.noms b :=
  List.flatMap_append

theorem mem_noms {t : Tables} {ids : List Int} {s : String} :
    s ∈ t.noms ids ↔ ∃ u ∈ t.users, (u.id : Int) ∈ ids ∧ u.username = s := by
  simp only [Tables.noms, List.mem_flatMap, List.mem_map, List.mem_filter, decide_eq_true_eq]
  constructor
  · rintro ⟨id, hid, u, ⟨hu, rfl⟩, rfl⟩
    exact ⟨u, hu, hid, rfl⟩
  · rintro ⟨u, hu, hid, rfl⟩
    exact ⟨u.id, hid, u, ⟨hu, rfl⟩, rfl⟩

/-- Distinct users have distinct names. -/
theorem nodup_noms {t : Tables} (h : (t.users.map (·.username)).Nodup) {ids : List Int} (hids : ids.Nodup) :
    (t.noms ids).Nodup := by
  rw [Tables.noms, List.nodup_flatMap]
  refine ⟨fun id _ => h.sublist (List.filter_sublist.map _), hids.imp ?_⟩
  intro id id' hne s hs hs'
  obtain ⟨u, hu, rfl⟩ := List.mem_map.mp hs
  obtain ⟨v, hv, he⟩ := List.mem_map.mp hs'
  rw [List.mem_filter, decide_eq_true_eq] at hu hv
  have huv : v = u := List.inj_on_of_nodup_map h hv.1 hu.1 he
  exact hne (hu.2.symm.trans (huv ▸ hv.2))

theorem nodup_listeAmis {t : Tables} (h : Rangees t) (accepte : FriendRow → Bool) (userId : Int) :
    (t.listeAmis accepte userId).Nodup := by
  rw [Tables.listeAmis, ← noms_append]
  refine nodup_noms h.username (List.nodup_append.mpr ⟨?_, ?_, ?_⟩)
  · refine List.pairwise_map.mpr ((h.paires.sublist List.filter_sublist).imp_of_mem ?_)
    intro f g hf hg hne he
    simp only [List.mem_filter, decide_eq_true_eq] at hf hg
    simp [FriendRow.entre, hf.2.1, hg.2.1, he] at hne
  · refine List.pairwise_map.mpr ((h.paires.sublist List.filter_sublist).imp_of_mem ?_)
    intro f g hf hg hne he
    simp only [List.mem_filter, decide_eq_true_eq] at hf hg
    simp [FriendRow.entre, hf.2.1, hg.2.1, he] at hne
  · rintro a ha b hb rfl
    obtain ⟨f, hf, hfa⟩ := List.mem_map.mp ha
    obtain ⟨g, hg, hga⟩ := List.mem_map.mp hb
    simp only [List.mem_filter, decide_eq_true_eq] at hf hg
    -- the two rows are between the same users, so they are one, of the user with itself
    have hfg := h.eq_of_entre hf.1 hg.1 (by simp [FriendRow.entre, hf.2.1, hg.2.1, hfa, hga])
    refine h.soi f hf.1 ?_
    rw [hf.2.1, hfg, hg.2.1]

theorem Rangees.simples (h : Rangees st.tables) : st.Simples :=
  ⟨h.paires, fun userId => nodup_listeAmis h _ userId, fun userId => nodup_listeAmis h _ userId⟩

theorem rangees_addFriend {t : Tables} (h : Rangees t) {senderId receiverId : Int} (hne : senderId ≠ receiverId)
    (hno : ∀ f ∈ t.friends, f.entre senderId receiverId = false) : Rangees (t.addFriend senderId receiverId) where
  username := h.username
  paires := by
    refine List.pairwise_append.mpr ⟨h.paires, List.pairwise_singleton _ _, fun f hf g hg => ?_⟩
    rw [List.mem_singleton.mp hg, entre_comm]
    exact hno f hf
  soi f hf := by
    rcases List.mem_append.mp hf with hf | hf
    · exact h.soi f hf
    · rw [List.mem_singleton.mp hf]
      exact hne

theorem rangees_acceptFriendInvite {t : Tables} (h : Rangees t) (userId friendId : Int) :
    Rangees (t.acceptFriendInvite userId friendId) where
  username := h.username
  paires := by
    refine List.pairwise_map.mpr (h.paires.imp fun {f g} hfg => ?_)
    split <;> split <;> exact hfg
  soi f hf := by
    obtain ⟨g, hg, rfl⟩ := List.mem_map.mp hf
    split <;> exact h.soi g hg

theorem rangees_removeFriend {t : Tables} (h : Rangees t) (userId friendId : Int) :
    Rangees (t.removeFriend userId friendId) where
  username := h.username
  paires := h.paires.sublist List.filter_sublist
  soi f hf := h.soi f (List.mem_of_mem_filter hf)

/-- The lookups of an invitation: the user named has the id, and is in the list where a row is between the
two. -/
theorem repondue_spec (hp : p.repondue o st = true) (ht : p.type = CLIENT_ASK_FRIENDSHIP) :
    (∃ u ∈ st.tables.users, u.username = p.nom o ∧ (u.id : Int) = p.friendId o st) ∧
      ((p.contexte st).dejaInvite o (p.nom o) = true ↔
        p.nom o ∈ st.tables.getAllFriendList p.usr.id) := by
  simp only [Pas.repondue, ht, bne_self_eq_false, Bool.false_or, Bool.and_eq_true, List.any_eq_true,
    decide_eq_true_eq] at hp
  obtain ⟨hlis, ⟨hok, hok1⟩, v, hv, hnom⟩ := hp
  have hlookup : (p.contexte st).lookup o (p.nom o) = st.tables := Contexte.lookup_sure (c := p.contexte st) hlis
  constructor
  · have hfid := Contexte.trouve_sure (c := p.contexte st) hlis o.indefini
    rw [if_pos (by exact hok)] at hfid
    have hmem : v ∈ st.tables.comptes (p.nom o) := List.mem_filter.mpr ⟨hv, decide_eq_true hnom⟩
    have hne : ((st.tables.comptes (p.nom o)).map fun u => (u.id : Int)) ≠ [] :=
      List.ne_nil_of_mem (List.mem_map.mpr ⟨v, hmem, rfl⟩)
    have hlast := List.getLast_mem hne
    obtain ⟨u, hu, hid⟩ := List.mem_map.mp hlast
    rw [Tables.comptes, List.mem_filter, decide_eq_true_eq] at hu
    refine ⟨u, hu.1, hu.2, ?_⟩
    rw [hid, Pas.friendId, hfid]
    show _ = ((st.tables.comptes (p.nom o)).map fun u => (u.id : Int)).getLast?.getD o.indefini
    rw [List.getLast?_eq_getLast_of_ne_nil hne]
    rfl
  · have hok1' : o.sql.ok ((p.contexte st).pas + 1) = true := hok1
    rw [Contexte.dejaInvite, hlookup, hok1', Bool.true_and, decide_eq_true_eq]
    exact Iff.rfl

/-- A row between two users puts each of them in the list of the other. -/
theorem mem_tous {t : Tables} {userId : Int} {u : CompteRow} (hu : u ∈ t.users) {f : FriendRow}
    (hf : f ∈ t.friends) (he : f.entre userId u.id = true) : u.username ∈ t.getAllFriendList userId := by
  rw [Tables.getAllFriendList, Tables.listeAmis, ← noms_append, mem_noms]
  refine ⟨u, hu, ?_, rfl⟩
  simp only [FriendRow.entre, Bool.or_eq_true, Bool.and_eq_true, decide_eq_true_eq] at he
  simp only [List.mem_append, List.mem_map, List.mem_filter, decide_eq_true_eq, and_true]
  rcases he with ⟨hr, hs⟩ | ⟨hs, hr⟩
  · exact Or.inr ⟨f, ⟨hf, hr⟩, hs⟩
  · exact Or.inl ⟨f, ⟨hf, hs⟩, hr⟩

/-- **One request** for another user keeps one row for two users. -/
theorem rangees_etape (hR : Rangees st.tables) (hp : p.repondue o st = true) (hv : p.versAutre o st = true)
    (h : etape o p st = some st') : Rangees st'.tables := by
  have hlis : p.lisible o st = true := by
    rw [Pas.repondue, Bool.and_eq_true] at hp
    exact hp.1
  rcases etape_cases hlis h with ⟨_, _, hs⟩ | ⟨ht, hd, hs⟩ | ⟨_, _, hs⟩ | ⟨_, hs⟩
  · rw [hs]
    exact hR
  · obtain ⟨⟨u, hu, hnom, hid⟩, hdeja⟩ := repondue_spec hp ht
    rw [hs]
    split
    · next hok =>
      simp only [Pas.versAutre, ht, bne_self_eq_false, hok, Bool.not_true, Bool.false_or, List.all_eq_true,
        Bool.or_eq_true, decide_eq_true_eq] at hv
      rw [← hid]
      refine rangees_addFriend hR ?_ fun f hf => Bool.eq_false_iff.mpr fun he => ?_
      · exact ((hv u hu).resolve_right fun hne => hne hnom).symm
      · rw [hdeja.mpr (hnom ▸ mem_tous hu hf he)] at hd
        cases hd
    · exact hR
  · rw [hs]
    split
    · exact rangees_acceptFriendInvite hR _ _
    · exact hR
  · rw [hs]
    split
    · exact rangees_removeFriend hR _ _
    · exact hR

/-- An invitation to oneself puts one's own name in one's list twice. -/
theorem not_simples_soi (hR : Rangees st.tables) (hp : p.repondue o st = true)
    (hv : p.versAutre o st = false) (h : etape o p st = some st') : ¬ st'.Simples := by
  simp only [Pas.versAutre, Bool.or_eq_false_iff, bne_eq_false_iff_eq, Bool.not_eq_false',
    List.all_eq_false, Bool.not_eq_true, decide_eq_false_iff_not, ne_eq, Decidable.not_not] at hv
  obtain ⟨⟨ht, hok⟩, v, hv, hid, hnom⟩ := hv
  obtain ⟨⟨u, hu, hunom, huid⟩, hdeja⟩ := repondue_spec hp ht
  have huv : u = v := List.inj_on_of_nodup_map hR.username hu hv (hunom.trans hnom.symm)
  have hlis : p.lisible o st = true := by
    rw [Pas.repondue, Bool.and_eq_true] at hp
    exact hp.1
  -- the list has no row of a user with itself, so the invitation is inserted
  have hnew : (p.contexte st).dejaInvite o (p.nom o) = false := by
    refine Bool.eq_false_iff.mpr fun hd => ?_
    have hin := hdeja.mp hd
    rw [Tables.getAllFriendList, Tables.listeAmis, ← noms_append, mem_noms] at hin
    obtain ⟨w, hw, hwid, hwnom⟩ := hin
    have hwv : w = v := List.inj_on_of_nodup_map hR.username hw hv (hwnom.trans hnom.symm)
    rw [hwv, hid] at hwid
    simp only [List.mem_append, List.mem_map, List.mem_filter, decide_eq_true_eq, and_true] at hwid
    rcases hwid with ⟨f, ⟨hf, hs⟩, hr⟩ | ⟨f, ⟨hf, hr⟩, hs⟩
    · exact hR.soi f hf (hs.trans hr.symm)
    · exact hR.soi f hf (hs.trans hr.symm)
  have htables : st'.tables = st.tables.addFriend p.usr.id p.usr.id := by
    rcases etape_cases hlis h with ⟨_, hd, _⟩ | ⟨_, _, hs⟩ | ⟨ht', _⟩ | ⟨ht' | ht', _⟩
    · rw [hnew] at hd
      cases hd
    · rw [hs, hok, if_pos rfl, ← huid, huv, hid]
    · exact absurd (ht.symm.trans ht') (by decide)
    · exact absurd (ht.symm.trans ht'.1) (by decide)
    · exact absurd (ht.symm.trans ht') (by decide)
  intro hS
  have hnodup := hS.tous p.usr.id
  rw [htables, Tables.getAllFriendList, Tables.listeAmis] at hnodup
  have hin : ∀ ids : List Int, p.usr.id ∈ ids →
      v.username ∈ (st.tables.addFriend p.usr.id p.usr.id).noms ids :=
    fun ids hids => mem_noms.mpr ⟨v, hv, hid ▸ hids, rfl⟩
  have hrow : (⟨p.usr.id, p.usr.id, false⟩ : FriendRow) ∈ (st.tables.addFriend p.usr.id p.usr.id).friends :=
    List.mem_append_right _ (List.mem_singleton.mpr rfl)
  refine (List.nodup_append.mp hnodup).2.2 v.username (hin _ ?_) v.username (hin _ ?_) rfl
  · exact List.mem_map.mpr ⟨_, List.mem_filter.mpr ⟨hrow, by simp⟩, rfl⟩
  · exact List.mem_map.mpr ⟨_, List.mem_filter.mpr ⟨hrow, by simp⟩, rfl⟩

def Ordonnees (st : Amities) : Prop := Rangees st.tables

/-- **One row for two users**: in every run whose invitations are for other users and whose lookups succeed;
the first one to oneself that is inserted breaks it. -/
theorem simples_of_reach (o : Outils) (st : Amities)
    (h : Runs.Reach (etape o) (fun p st => p.repondue o st = true ∧ p.versAutre o st = true) Ordonnees st) :
    st.Simples ∧ ∀ p st', p.repondue o st = true → etape o p st = some st' →
      (p.versAutre o st = true ↔ st'.Simples) := by
  have hR : Rangees st.tables :=
    h.invariant (I := Ordonnees) (fun _ h0 => h0) fun p st st' hI hok hs =>
      rangees_etape hI hok.1 hok.2 hs
  refine ⟨hR.simples, fun p st' hp hs => ⟨fun hv => (rangees_etape hR hp hv hs).simples, fun hS => ?_⟩⟩
  by_contra hv
  exact not_simples_soi hR hp (Bool.eq_false_iff.mpr hv) hs hS

/-! ## Two users -/

/-- The body [1] names "a", any other "b"; an answer accepts. -/
def outilsAmis : Outils :=
  let nom := fun b : List UInt8 => if b = [1] then "a" else "b"
  { outilsSimples with
    lecture := { outilsSimples.lecture with
      friAdd := nom
      friAccept := fun b => (true, nom b)
      friRmv := nom } }

def deuxUsagers : Amities :=
  ⟨⟨[⟨1, "a", "", true, 0⟩, ⟨2, "b", "", true, 0⟩], [], [], [], []⟩, 0, []⟩

theorem ordonnees_deuxUsagers : Ordonnees deuxUsagers := ⟨by decide, List.Pairwise.nil, nofun⟩

def usagerA : ConnectedPlayer := ⟨true, "a", "", true, 1⟩
def usagerB : ConnectedPlayer := ⟨true, "b", "", true, 2⟩

/-- "a" invites "b" and answers its own invitation. -/
theorem accepte_soi_meme : ∃ st, Runs.Reach (etape outilsAmis) (fun _ _ => True) Depart st ∧
    st.tables.friends = [⟨1, 2, true⟩] ∧ st.bascules = [⟨1, 2, CLIENT_ACCEPT_FRIENDSHIP, 1⟩] ∧
    ¬ st.Receveur := by
  obtain ⟨st, _, hr, hp⟩ := Runs.exists_of_exec (etape outilsAmis) (fun _ _ => True)
    (show Depart deuxUsagers from rfl)
    [⟨usagerA, CLIENT_ASK_FRIENDSHIP, [2]⟩, ⟨usagerA, CLIENT_ACCEPT_FRIENDSHIP, [2]⟩]
    (fun st => st.tables.friends == [⟨1, 2, true⟩] && st.bascules == [⟨1, 2, CLIENT_ACCEPT_FRIENDSHIP, 1⟩])
    (by decide +kernel)
  simp only [Bool.and_eq_true, beq_iff_eq] at hp
  refine ⟨st, hr, hp.1, hp.2, fun hR => ?_⟩
  rw [Receveur, hp.2] at hR
  exact absurd (hR _ (List.mem_singleton.mpr rfl)).2 (by decide)

/-- "b" answers it. -/
theorem accepte_recue : ∃ st, Runs.exec (etape outilsAmis)
      (fun p st => p.lisible outilsAmis st = true ∧ p.propre outilsAmis st = false)
      [⟨usagerA, CLIENT_ASK_FRIENDSHIP, [2]⟩, ⟨usagerB, CLIENT_ACCEPT_FRIENDSHIP, [1]⟩] deuxUsagers = some st ∧
    st.bascules = [⟨1, 2, CLIENT_ACCEPT_FRIENDSHIP, 2⟩] ∧ st.Receveur := by
  obtain ⟨st, hst, hr, hp⟩ := Runs.exists_of_exec (etape outilsAmis)
    (fun p st => p.lisible outilsAmis st = true ∧ p.propre outilsAmis st = false)
    (show Depart deuxUsagers from rfl)
    [⟨usagerA, CLIENT_ASK_FRIENDSHIP, [2]⟩, ⟨usagerB, CLIENT_ACCEPT_FRIENDSHIP, [1]⟩]
    (fun st => st.bascules == [⟨1, 2, CLIENT_ACCEPT_FRIENDSHIP, 2⟩]) (by decide +kernel)
  exact ⟨st, hst, beq_iff_eq.mp hp, (receveur_of_reach outilsAmis st hr).1⟩

/-- "a" invites itself. -/
theorem invite_soi_meme : ∃ st, Runs.Reach (etape outilsAmis) (fun _ _ => True) Ordonnees st ∧
    st.tables.friends = [⟨1, 1, false⟩] ∧ st.tables.getAllFriendList 1 = ["a", "a"] ∧ ¬ st.Simples := by
  obtain ⟨st, _, hr, hp⟩ := Runs.exists_of_exec (etape outilsAmis) (fun _ _ => True)
    ordonnees_deuxUsagers [⟨usagerA, CLIENT_ASK_FRIENDSHIP, [1]⟩]
    (fun st => st.tables.friends == [⟨1, 1, false⟩] && st.tables.getAllFriendList 1 == ["a", "a"])
    (by decide +kernel)
  simp only [Bool.and_eq_true, beq_iff_eq] at hp
  refine ⟨st, hr, hp.1, hp.2, fun hS => ?_⟩
  have hnodup := hS.tous 1
  rw [hp.2] at hnodup
  exact absurd hnodup (by decide)

/-- "a" and "b" invite each other. -/
theorem invite_autre : ∃ st, Runs.exec (etape outilsAmis)
      (fun p st => p.repondue outilsAmis st = true ∧ p.versAutre outilsAmis st = true)
      [⟨usagerA, CLIENT_ASK_FRIENDSHIP, [2]⟩, ⟨usagerB, CLIENT_ASK_FRIENDSHIP, [1]⟩] deuxUsagers = some st ∧
    st.tables.friends = [⟨1, 2, false⟩] ∧ st.Simples := by
  obtain ⟨st, hst, hr, hp⟩ := Runs.exists_of_exec (etape outilsAmis)
    (fun p st => p.repondue outilsAmis st = true ∧ p.versAutre outilsAmis st = true)
    ordonnees_deuxUsagers
    [⟨usagerA, CLIENT_ASK_FRIENDSHIP, [2]⟩, ⟨usagerB, CLIENT_ASK_FRIENDSHIP, [1]⟩]
    (fun st => st.tables.friends == [⟨1, 2, false⟩]) (by decide +kernel)
  exact ⟨st, hst, beq_iff_eq.mp hp, (simples_of_reach outilsAmis st hr).1⟩

end Amities
end LombricABrac
