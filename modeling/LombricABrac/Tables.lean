import LombricABrac.Lib.Sql
import LombricABrac.DataBase
import Mathlib.Data.List.Sort

/-!
# The tables as the connection threads use them

`Server/src/database.cpp` over all the columns of `init_db.cpp`.  A request with a string has the string
spliced into its text; SQLite then reads the text (see `Lib.Sql`).  What it makes of a text that is not
the statement meant, whether a statement succeeds and what the clock says are parameters.

    lu_iff         : a request is read as it is meant exactly where its strings are clean
    denote_iff     : the requests of a user's string, and what clean strings give
    message_perdu  : a message with an apostrophe
-/

namespace LombricABrac

/-! ## Rows -/

structure CompteRow where
  id : Nat
  username : String
  password : String
  connected : Bool
  victoryAmount : Int
  deriving DecidableEq

structure LombRow where
  id : Nat
  idLomb : Int
  name : String
  ownerId : Int
  deriving DecidableEq

/-- A row of `history`, with its time. -/
structure PartieRow extends HistoryRow where
  timestamp : Nat

structure MessageRow where
  senderId : Int
  receiverId : Int
  content : String
  timestamp : Nat
  deriving DecidableEq

structure FriendRow where
  senderId : Int
  receiverId : Int
  accepted : Bool
  deriving DecidableEq

/-- The row is between the two users, either way. -/
def FriendRow.entre (userId friendId : Int) (f : FriendRow) : Bool :=
  (f.receiverId = userId && f.senderId = friendId) || (f.senderId = userId && f.receiverId = friendId)

structure Tables where
  users : List CompteRow
  worms : List LombRow
  history : List PartieRow
  messages : List MessageRow
  friends : List FriendRow

/-- The id that a new row gets. -/
def suivant (ids : List Nat) : Nat := ids.foldr max 0 + 1

theorem lt_suivant {ids : List Nat} {n : Nat} (h : n ∈ ids) : n < suivant ids := by
  suffices hle : n ≤ ids.foldr max 0 from Nat.lt_succ_of_le hle
  induction ids with
  | nil => cases h
  | cons m ids ih =>
    rw [List.foldr_cons]
    rcases List.mem_cons.mp h with rfl | h
    · exact le_max_left _ _
    · exact (ih h).trans (le_max_right _ _)

/-! ## The requests with strings -/

/-- The arguments of the methods that splice a string into their request; `hash` is what bcrypt makes of
the password. -/
inductive Ordre where
  | getUserId (username : String)
  | getPasswd (username : String)
  | registerUser (username hash : String)
  | connectUser (connected : Bool) (username : String)
  | setLombricName (lombricId userId : Int) (name : String)
  | sendMessage (senderId receiverId : Int) (message : String)

namespace Ordre

/-- `m_sql_request`. -/
def texte : Ordre → String
  | getUserId username => "SELECT id FROM users WHERE username='" ++ username ++ "';"
  | getPasswd username => "SELECT password FROM users WHERE username='" ++ username ++ "';"
  | registerUser username hash => "INSERT INTO users (username,password,victory_amount)" ++
      "VALUES ('" ++ username ++ "', '" ++ hash ++ "', 0);"
  | connectUser connected username => "UPDATE users SET connected=" ++
      (if connected then "1" else "0") ++ " WHERE username='" ++ username ++ "';"
  | setLombricName lombricId userId name => "UPDATE worms SET name='" ++ name ++
      ("' WHERE owner_id=" ++ toString userId ++ " AND id_lomb=" ++ toString lombricId ++ ";")
  | sendMessage senderId receiverId message =>
    "INSERT INTO messages (sender_id, receiver_id, content) " ++ "VALUES (" ++ toString senderId ++ ", " ++
      toString receiverId ++ ", '" ++ message ++ "');"

def code (s : String) : List Sql.Token := s.toList.map .char
def lit (s : String) : Sql.Token := .lit s.toList

/-- The statement meant: its literals are the strings. -/
def forme : Ordre → List Sql.Token
  | getUserId username => code "SELECT id FROM users WHERE username=" ++ lit username :: code ";"
  | getPasswd username => code "SELECT password FROM users WHERE username=" ++ lit username :: code ";"
  | registerUser username hash => code ("INSERT INTO users (username,password,victory_amount)" ++
      "VALUES (") ++ lit username :: (code ", " ++ lit hash :: code ", 0);")
  | connectUser connected username => code ("UPDATE users SET connected=" ++
      (if connected then "1" else "0") ++ " WHERE username=") ++ lit username :: code ";"
  | setLombricName lombricId userId name => code "UPDATE worms SET name=" ++ lit name ::
      code (" WHERE owner_id=" ++ toString userId ++ " AND id_lomb=" ++ toString lombricId ++ ";")
  | sendMessage senderId receiverId message =>
    code ("INSERT INTO messages (sender_id, receiver_id, content) " ++ "VALUES (" ++ toString senderId ++
      ", " ++ toString receiverId ++ ", ") ++ lit message :: code ");"

/-- The strings of a request. -/
def chaines : Ordre → List String
  | getUserId username | getPasswd username | connectUser _ username => [username]
  | registerUser username hash => [username, hash]
  | setLombricName _ _ name => [name]
  | sendMessage _ _ message => [message]

/-- SQLite reads the statement meant. -/
def Lu (o : Ordre) : Prop := Sql.read o.texte.toList = some o.forme

instance (o : Ordre) : Decidable o.Lu := inferInstanceAs (Decidable (_ = _))

end Ordre

/-- No quote and no null. -/
def Propre (s : String) : Prop := '\'' ∉ s.toList ∧ '\x00' ∉ s.toList

instance (s : String) : Decidable (Propre s) := inferInstanceAs (Decidable (_ ∧ _))

theorem Propre.append {a b : String} (ha : Propre a) (hb : Propre b) : Propre (a ++ b) := by
  unfold Propre at *
  simp only [String.toList_append, List.mem_append, not_or]
  exact ⟨⟨ha.1, hb.1⟩, ha.2, hb.2⟩

theorem propre_toString (n : Int) : Propre (toString n) := by
  have hnat : ∀ n : Nat, Propre n.repr := by
    intro n
    unfold Propre
    rw [Nat.toList_repr]
    constructor
    · intro h
      exact absurd (Nat.isDigit_of_mem_toDigits (by decide) (by decide) h) (by decide)
    · intro h
      exact absurd (Nat.isDigit_of_mem_toDigits (by decide) (by decide) h) (by decide)
  rw [Int.toString_eq_repr, Int.repr_eq_if]
  split
  · exact hnat _
  · exact Propre.append (by decide) (hnat _)

namespace Ordre

/-! ## The text of a request -/

theorem splice_code (s : String) : (code s).flatMap Sql.Token.splice = s.toList := by
  unfold code
  induction s.toList with
  | nil => rfl
  | cons c cs ih =>
    rw [List.map_cons, List.flatMap_cons, ih]
    rfl

theorem splice_lit (s : String) : (lit s).splice = ("'" ++ s ++ "'").toList := by
  simp [lit, Sql.Token.splice]

theorem wf_code {a : String} (ha : Propre a) {ts : List Sql.Token} (h : Sql.Wf ts) :
    Sql.Wf (code a ++ ts) := by
  unfold code
  have ha := ha.1
  generalize a.toList = cs at ha
  induction cs with
  | nil => exact h
  | cons c cs ih => exact ⟨fun hc => ha (hc ▸ List.mem_cons_self), ih fun hc => ha (List.mem_cons_of_mem c hc)⟩

theorem wf_lit (s : String) {b : String} (hb : b ≠ "") {ts : List Sql.Token} (h : Sql.Wf (code b ++ ts)) :
    Sql.Wf (lit s :: (code b ++ ts)) := by
  obtain ⟨c, cs, hcs⟩ := List.exists_cons_of_ne_nil (fun hn => hb (String.toList_eq_nil_iff.mp hn))
  rw [code, hcs] at h ⊢
  exact h

theorem char_mem_code {a : String} (ha : Propre a) {c : Char} (h : Sql.Token.char c ∈ code a) :
    c ≠ '\x00' := by
  obtain ⟨c', hc', he⟩ := List.mem_map.mp h
  cases he
  rintro rfl
  exact ha.2 hc'

theorem lit_not_mem_code (a : String) (s : List Char) : Sql.Token.lit s ∉ code a := by
  intro h
  obtain ⟨c, _, he⟩ := List.mem_map.mp h
  cases he

/-- Strings, each with the code that follows it. -/
def morceaux (l : List (String × String)) : List Sql.Token := l.flatMap fun p => lit p.1 :: code p.2

theorem wf_morceaux {l : List (String × String)} (hl : ∀ p ∈ l, Propre p.2 ∧ p.2 ≠ "") :
    Sql.Wf (morceaux l) := by
  induction l with
  | nil => trivial
  | cons p l ih =>
    obtain ⟨hp, hne⟩ := hl p List.mem_cons_self
    exact wf_lit p.1 hne (wf_code hp (ih fun q hq => hl q (List.mem_cons_of_mem p hq)))

theorem read_morceaux {a : String} (ha : Propre a) {l : List (String × String)}
    (hl : ∀ p ∈ l, Propre p.2 ∧ p.2 ≠ "") :
    Sql.read ((code a ++ morceaux l).flatMap Sql.Token.splice) = some (code a ++ morceaux l) ↔
      ∀ p ∈ l, Propre p.1 := by
  have hchar : ∀ c, Sql.Token.char c ∈ code a ++ morceaux l → c ≠ '\x00' := by
    intro c hc
    rcases List.mem_append.mp hc with hc | hc
    · exact char_mem_code ha hc
    · obtain ⟨p, hp, hc⟩ := List.mem_flatMap.mp hc
      exact char_mem_code (hl p hp).1 ((List.mem_cons.mp hc).resolve_left nofun)
  rw [Sql.read_splice_iff (wf_code ha (wf_morceaux hl)) hchar]
  constructor
  · intro h p hp
    exact h p.1.toList (List.mem_append_right _ (List.mem_flatMap.mpr ⟨p, hp, List.mem_cons_self⟩))
  · intro h s hs
    rcases List.mem_append.mp hs with hs | hs
    · exact absurd hs (lit_not_mem_code a s)
    · obtain ⟨p, hp, hs⟩ := List.mem_flatMap.mp hs
      rcases List.mem_cons.mp hs with he | hs
      · cases he
        exact h p hp
      · exact absurd hs (lit_not_mem_code p.2 s)

/-- A request with one string. -/
theorem read_un {a b a' b' : String} (ha : Propre a) (hb : Propre b) (hne : b ≠ "") (ha' : a' = a ++ "'")
    (hb' : b' = "'" ++ b) (u : String) :
    Sql.read (a' ++ u ++ b').toList = some (code a ++ lit u :: code b) ↔ Propre u := by
  have hforme : code a ++ lit u :: code b = code a ++ morceaux [(u, b)] := by simp [morceaux]
  have htexte : (a' ++ u ++ b').toList = (code a ++ lit u :: code b).flatMap Sql.Token.splice := by
    simp only [List.flatMap_append, List.flatMap_cons, splice_code, splice_lit, ha', hb',
      String.toList_append, List.append_assoc]
  rw [htexte, hforme, read_morceaux ha (by simpa using ⟨hb, hne⟩)]
  simp

/-- A request with two. -/
theorem read_deux {a b c a' b' c' : String} (ha : Propre a) (hb : Propre b) (hc : Propre c) (hbne : b ≠ "")
    (hcne : c ≠ "") (ha' : a' = a ++ "'") (hb' : b' = "'" ++ b ++ "'") (hc' : c' = "'" ++ c) (u v : String) :
    Sql.read (a' ++ u ++ b' ++ v ++ c').toList =
      some (code a ++ lit u :: (code b ++ lit v :: code c)) ↔ Propre u ∧ Propre v := by
  have hforme : code a ++ lit u :: (code b ++ lit v :: code c) = code a ++ morceaux [(u, b), (v, c)] := by
    simp [morceaux]
  have htexte : (a' ++ u ++ b' ++ v ++ c').toList =
      (code a ++ lit u :: (code b ++ lit v :: code c)).flatMap Sql.Token.splice := by
    simp only [List.flatMap_append, List.flatMap_cons, splice_code, splice_lit, ha', hb', hc',
      String.toList_append, List.append_assoc]
  rw [htexte, hforme, read_morceaux ha (by simpa using ⟨⟨hb, hbne⟩, hc, hcne⟩)]
  simp

theorem append_quote (x : String) {b b' : String} (h : b' = b ++ "'") : x ++ b' = x ++ b ++ "'" := by
  rw [h, String.append_assoc]

theorem quote_append (x : String) {b b' : String} (h : b' = "'" ++ b) : b' ++ x = "'" ++ (b ++ x) := by
  rw [h, String.append_assoc]

theorem append_ne_empty {b : String} (h : b ≠ "") (x : String) : b ++ x ≠ "" := by
  intro he
  have hlen := congrArg (fun s : String => s.toList.length) he
  rw [String.toList_append, List.length_append] at hlen
  exact h (String.toList_eq_nil_iff.mp (List.eq_nil_of_length_eq_zero (by
    simp only [String.toList_empty, List.length_nil] at hlen
    omega)))

/-- **A request is read as it is meant** exactly where its strings are clean. -/
theorem lu_iff (o : Ordre) : o.Lu ↔ ∀ s ∈ o.chaines, Propre s := by
  unfold Lu
  cases o with
  | getUserId username =>
    rw [chaines, List.forall_mem_singleton]
    exact read_un (by decide) (by decide) (by decide) (by decide) (by decide) username
  | getPasswd username =>
    rw [chaines, List.forall_mem_singleton]
    exact read_un (by decide) (by decide) (by decide) (by decide) (by decide) username
  | registerUser username hash =>
    rw [chaines, List.forall_mem_cons, List.forall_mem_singleton]
    exact read_deux (by decide) (by decide) (by decide) (by decide) (by decide) (by decide) (by decide)
      (by decide) username hash
  | connectUser connected username =>
    rw [chaines, List.forall_mem_singleton]
    have hc : Propre (if connected then "1" else "0") := by cases connected <;> decide
    have ha := Propre.append (Propre.append (a := "UPDATE users SET connected=") (by decide) hc)
      (b := " WHERE username=") (by decide)
    exact read_un ha (by decide) (by decide) (append_quote _ (by decide)) (by decide) username
  | setLombricName lombricId userId name =>
    rw [chaines, List.forall_mem_singleton]
    have hb := (((Propre.append (a := " WHERE owner_id=") (by decide) (propre_toString userId)).append
      (b := " AND id_lomb=") (by decide)).append (propre_toString lombricId)).append (b := ";") (by decide)
    refine read_un (by decide) hb ?_ (by decide) ?_ name
    · exact append_ne_empty (append_ne_empty (append_ne_empty (append_ne_empty (by decide) _) _) _) _
    · exact quote_append _ (quote_append _ (quote_append _ (quote_append _ (by decide))))
  | sendMessage senderId receiverId message =>
    rw [chaines, List.forall_mem_singleton]
    have ha := (((Propre.append (a := "INSERT INTO messages (sender_id, receiver_id, content) " ++ "VALUES (")
      (by decide) (propre_toString senderId)).append (b := ", ") (by decide)).append
        (propre_toString receiverId)).append (b := ", ") (by decide)
    exact read_un ha (by decide) (by decide) (append_quote _ (by decide)) (by decide) message

end Ordre

/-! ## What a request does -/

/-- The tables after a request, and the values that the callback gets, row after row. -/
structure Reponse where
  tables : Tables
  entiers : List Int
  textes : List String

/-- SQLite: whether the `n`-th statement succeeds, what the clock says then, and what it makes of a text
that is not the statement meant. -/
structure Sqlite where
  ok : Nat → Bool
  heure : Nat → Nat
  autre : String → Tables → Reponse

namespace Tables

def comptes (t : Tables) (username : String) : List CompteRow :=
  t.users.filter fun u => u.username = username

/-- The usernames of users, in the order of their ids. -/
def noms (t : Tables) (ids : List Int) : List String :=
  ids.flatMap fun id => (t.users.filter fun u => (u.id : Int) = id).map (·.username)

def getConvo (t : Tables) (user1Id user2Id : Int) : List (String × Int) :=
  ((t.messages.filter fun m => (m.senderId = user1Id ∧ m.receiverId = user2Id) ∨
      (m.senderId = user2Id ∧ m.receiverId = user1Id)).insertionSort
    fun m m' => m.timestamp ≤ m'.timestamp).map fun m => (m.content, m.senderId)

/-! ### Worms, history, rank -/

def addLombric (t : Tables) (userId lombricId : Int) (lombricName : String) : Tables :=
  { t with worms := t.worms ++ [⟨suivant (t.worms.map (·.id)), lombricId, lombricName, userId⟩] }

def getLombrics (t : Tables) (ownerId : Int) : List String :=
  (t.worms.filter fun w => w.ownerId = ownerId).map (·.name)

/-- `LIMIT index, size`: a negative size sets no limit. -/
def limite {α : Type} (index size : Int) (l : List α) : List α :=
  if size < 0 then l.drop index.toNat else (l.drop index.toNat).take size.toNat

def getHistory (t : Tables) (userId index size : Int) : List PartieRow :=
  limite index size ((t.history.filter fun h => (∃ i, (h.userId i : Int) = userId) ∧ h.finished = true)
    |>.insertionSort fun h h' => h'.timestamp ≤ h.timestamp)

def getRank (t : Tables) (index size : Int) : List (String × Int) :=
  (limite index size (t.users.insertionSort fun u u' => u'.victoryAmount ≤ u.victoryAmount)).map
    fun u => (u.username, u.victoryAmount)

/-! ### Friends -/

def addFriend (t : Tables) (senderId receiverId : Int) : Tables :=
  { t with friends := t.friends ++ [⟨senderId, receiverId, false⟩] }

/-- Two statements: the invitations sent, then those received, where `accepte` says so. -/
def listeAmis (t : Tables) (accepte : FriendRow → Bool) (userId : Int) : List String :=
  t.noms ((t.friends.filter fun f => f.senderId = userId ∧ accepte f = true).map (·.receiverId)) ++
    t.noms ((t.friends.filter fun f => f.receiverId = userId ∧ accepte f = true).map (·.senderId))

def getFriendList (t : Tables) (userId : Int) : List String := t.listeAmis (·.accepted) userId

def getAllFriendList (t : Tables) (userId : Int) : List String := t.listeAmis (fun _ => true) userId

def getFriendInvites (t : Tables) (userId : Int) : List String :=
  t.noms ((t.friends.filter fun f => f.receiverId = userId ∧ f.accepted = false).map (·.senderId))

def acceptFriendInvite (t : Tables) (userId friendId : Int) : Tables :=
  { t with friends := t.friends.map fun f =>
      if FriendRow.entre userId friendId f then { f with accepted := true } else f }

def removeFriend (t : Tables) (userId friendId : Int) : Tables :=
  { t with friends := t.friends.filter fun f => !FriendRow.entre userId friendId f }

/-- The game of an owner, the first user of its row, that is not over; `none`: no row, the variable keeps
what it held. -/
def getRoomIdFromOwnerId (t : Tables) (ownerId : Int) : Option Nat :=
  ((t.history.filter fun h => (List.ofFn h.userId).head?.map Int.ofNat = some ownerId ∧
    h.finished = false).map (·.id)).getLast?

/-- `none` as well where there is no row. -/
def isOnline (t : Tables) (friendId : Int) : Option Bool :=
  ((t.users.filter fun u => (u.id : Int) = friendId).map (·.connected)).getLast?

end Tables

/-- The statement meant. -/
def Ordre.prevu (heure : Nat) (t : Tables) : Ordre → Reponse
  | getUserId username => ⟨t, (t.comptes username).map fun u => (u.id : Int), []⟩
  | getPasswd username => ⟨t, [], (t.comptes username).map (·.password)⟩
  | registerUser username hash =>
    ⟨{ t with users := t.users ++ [⟨suivant (t.users.map (·.id)), username, hash, false, 0⟩] }, [], []⟩
  | connectUser connected username =>
    ⟨{ t with users := t.users.map fun u => if u.username = username then { u with connected } else u },
      [], []⟩
  | setLombricName lombricId userId name =>
    ⟨{ t with worms := t.worms.map fun w =>
        if w.ownerId = userId ∧ w.idLomb = lombricId then { w with name } else w }, [], []⟩
  | sendMessage senderId receiverId message =>
    ⟨{ t with messages := t.messages ++ [⟨senderId, receiverId, message, heure⟩] }, [], []⟩

/-- `sqlite3_exec`. -/
def Sqlite.exec (sql : Sqlite) (n : Nat) (o : Ordre) (t : Tables) : Reponse :=
  if sql.ok n then if o.Lu then o.prevu (sql.heure n) t else sql.autre o.texte t else ⟨t, [], []⟩

theorem Sqlite.exec_propre {sql : Sqlite} {n : Nat} (hok : sql.ok n = true) {o : Ordre} {s : String}
    (ho : o.chaines = [s]) (hs : Propre s) (t : Tables) : sql.exec n o t = o.prevu (sql.heure n) t := by
  have hlu : o.Lu := o.lu_iff.mpr (by rw [ho]; exact List.forall_mem_singleton.mpr hs)
  rw [exec, if_pos hok, if_pos hlu]

/-- A message is found again. -/
theorem getConvo_sendMessage (t : Tables) (heure : Nat) (senderId receiverId : Int) (message : String) :
    ((Ordre.sendMessage senderId receiverId message).prevu heure t).tables.getConvo senderId receiverId
      |>.Perm ((message, senderId) :: t.getConvo senderId receiverId) := by
  unfold Tables.getConvo
  simp only [Ordre.prevu, List.filter_append]
  rw [List.filter_cons_of_pos (by simp), List.filter_nil]
  refine ((List.perm_insertionSort _ _).map _).trans ?_
  rw [List.map_append]
  refine List.perm_append_comm.trans (List.Perm.cons _ ?_)
  exact ((List.perm_insertionSort _ _).map _).symm

/-- What the strings of the users are for. -/
structure Fidele (sql : Sqlite) (n : Nat) (s : String) (t : Tables) : Prop where
  message : ∀ senderId receiverId, ((sql.exec n (.sendMessage senderId receiverId s) t).tables.getConvo
    senderId receiverId).Perm ((s, senderId) :: t.getConvo senderId receiverId)
  getUserId : sql.exec n (.getUserId s) t = ⟨t, (t.comptes s).map fun u => (u.id : Int), []⟩
  getPasswd : sql.exec n (.getPasswd s) t = ⟨t, [], (t.comptes s).map (·.password)⟩
  connectUser : ∀ connected, ∀ u ∈ (sql.exec n (.connectUser connected s) t).tables.users,
    u ∈ t.users ∨ u.username = s

/-- **Each request of a string is the statement meant if and only if the string has no quote and no
null**; messages are then found again, and a pseudonym selects its own rows. -/
theorem denote_iff (hash s : String) (hhash : Propre hash) (connected : Bool)
    (lombricId userId senderId receiverId : Int) :
    (∀ o ∈ [Ordre.getUserId s, .getPasswd s, .registerUser s hash, .connectUser connected s,
      .setLombricName lombricId userId s, .sendMessage senderId receiverId s], o.Lu ↔ Propre s) ∧
    (Propre s → ∀ sql n t, Sqlite.ok sql n = true → Fidele sql n s t) := by
  refine ⟨?_, fun hs sql n t hok => ?_⟩
  · simp only [Ordre.lu_iff, List.forall_mem_cons, Ordre.chaines]
    simp [hhash]
  · refine ⟨fun a b => ?_, Sqlite.exec_propre hok rfl hs t, Sqlite.exec_propre hok rfl hs t,
      fun c u hu => ?_⟩
    · rw [Sqlite.exec_propre hok rfl hs t]
      exact getConvo_sendMessage t (sql.heure n) a b s
    · rw [Sqlite.exec_propre hok rfl hs t] at hu
      obtain ⟨v, hv, rfl⟩ := List.mem_map.mp hu
      split
      · next he => exact Or.inr he
      · exact Or.inl hv

/-- A message without one is stored and found. -/
theorem message_eau : (Ordre.sendMessage 1 2 "eau").Lu ∧
    Fidele ⟨fun _ => true, fun n => n, fun _ t => ⟨t, [], []⟩⟩ 0 "eau" ⟨[], [], [], [], []⟩ := by
  have h := denote_iff "$2a$12$" "eau" (by decide) true 0 1 1 2
  exact ⟨(h.1 _ (by simp)).mpr (by decide), h.2 (by decide) _ 0 _ rfl⟩

/-- A message with an apostrophe is no statement, and another pseudonym selects a row of its choice. -/
theorem message_perdu : ¬ (Ordre.sendMessage 1 2 "l'eau").Lu ∧
    Sql.read (Ordre.sendMessage 1 2 "l'eau").texte.toList = none ∧
    ¬ (Ordre.getUserId "a' OR username='b").Lu ∧
    Sql.read (Ordre.getUserId "a' OR username='b").texte.toList =
      some (Ordre.code "SELECT id FROM users WHERE username=" ++ Ordre.lit "a" ::
        (Ordre.code " OR username=" ++ Ordre.lit "b" :: Ordre.code ";")) := by
  decide +kernel

end LombricABrac
