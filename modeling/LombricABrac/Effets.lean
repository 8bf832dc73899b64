import LombricABrac.Instructions

/-!
# What an instruction does

The tables after each case of `handle_instruction`, and what it publishes, in terms of its statements.  A
statement fails, or it is read as it is meant, or it has a string that is not clean; then anything may
happen to the tables.

    getUserId_sure   : a lookup that is read as it is meant, or fails, changes nothing
    getUserId_inconnu : where no user has the pseudonym, the variable keeps what it held
-/

namespace LombricABrac

/-- What is published. -/
def diffusions (l : List Geste) : List Diffusion :=
  l.filterMap fun g => match g with
    | .publie d => some d
    | _ => none

theorem diffusions_append (l l' : List Geste) : diffusions (l ++ l') = diffusions l ++ diffusions l' :=
  List.filterMap_append

theorem diffusions_muet (j : List Geste) {l : List Geste} (hl : diffusions l = []) :
    diffusions (j ++ l) = diffusions j := by
  rw [diffusions_append, hl, List.append_nil]

theorem diffusions_publie (j : List Geste) (d : Diffusion) :
    diffusions (j ++ [.verrouille .pub, .publie d, .libere .pub]) = diffusions j ++ [d] :=
  diffusions_append j _

/-- Statement `n`, whose strings are `chaines`, fails, or it is read as it is meant. -/
def Sqlite.sure (sql : Sqlite) (n : Nat) (chaines : List String) : Bool :=
  !sql.ok n || decide (∀ s ∈ chaines, Propre s)

theorem Sqlite.exec_sure {sql : Sqlite} {n : Nat} {r : Ordre} (h : sql.sure n r.chaines = true) (t : Tables) :
    sql.exec n r t = if sql.ok n then r.prevu (sql.heure n) t else ⟨t, [], []⟩ := by
  unfold exec
  cases hok : sql.ok n with
  | false => rfl
  | true =>
    have hlu : r.Lu := r.lu_iff.mpr (by simpa [sure, hok] using h)
    rw [if_pos rfl, if_pos hlu, if_pos rfl]

/-- SQLite may make anything of a text that is not the statement meant, and an unset variable holds
anything. -/
def Outils.avec (autre : String → Tables → Reponse) (indefini : Int) (o : Outils) : Outils :=
  { o with sql := { o.sql with autre }, indefini }

namespace Contexte

variable (o : Outils)

/-! ## Fields -/

section

variable {α : Type} (l : List Geste) (d : Diffusion) (f : Tables → α) (g : Tables → Tables) (defaut : α)
  (r : Ordre) (s : String) (avant : Int) (c : Contexte)

@[simp] theorem note_tables : (c.note l).tables = c.tables := rfl
@[simp] theorem note_pas : (c.note l).pas = c.pas := rfl
@[simp] theorem note_usr : (c.note l).usr = c.usr := rfl
@[simp] theorem note_journal : (c.note l).journal = c.journal ++ l := rfl
@[simp] theorem publie_tables : (c.publie d).tables = c.tables := rfl
@[simp] theorem publie_pas : (c.publie d).pas = c.pas := rfl
@[simp] theorem publie_usr : (c.publie d).usr = c.usr := rfl
@[simp] theorem publie_journal :
    (c.publie d).journal = c.journal ++ [.verrouille .pub, .publie d, .libere .pub] := rfl
@[simp] theorem lit_fst : (c.lit o f defaut).1 = if o.sql.ok c.pas then f c.tables else defaut := rfl
@[simp] theorem lit_pas : (c.lit o f defaut).2.pas = c.pas + 1 := rfl
@[simp] theorem lit_usr : (c.lit o f defaut).2.usr = c.usr := rfl
@[simp] theorem lit_journal : (c.lit o f defaut).2.journal = c.journal := rfl
@[simp] theorem ecrit_tables :
    (c.ecrit o g).tables = if o.sql.ok c.pas then g c.tables else c.tables := rfl
@[simp] theorem ecrit_pas : (c.ecrit o g).pas = c.pas + 1 := rfl
@[simp] theorem ecrit_usr : (c.ecrit o g).usr = c.usr := rfl
@[simp] theorem ecrit_journal : (c.ecrit o g).journal = c.journal := rfl
@[simp] theorem exec_fst : (c.exec o r).1 = o.sql.exec c.pas r c.tables := rfl
@[simp] theorem exec_tables : (c.exec o r).2.tables = (o.sql.exec c.pas r c.tables).tables := rfl
@[simp] theorem exec_pas : (c.exec o r).2.pas = c.pas + 1 := rfl
@[simp] theorem exec_usr : (c.exec o r).2.usr = c.usr := rfl
@[simp] theorem exec_journal : (c.exec o r).2.journal = c.journal := rfl
@[simp] theorem getUserId_fst : (c.getUserId o s avant).1 =
    (o.sql.exec c.pas (.getUserId s) c.tables).entiers.getLast?.getD avant := rfl
@[simp] theorem getUserId_tables : (c.getUserId o s avant).2.tables =
    (o.sql.exec c.pas (.getUserId s) c.tables).tables := rfl
@[simp] theorem getUserId_pas : (c.getUserId o s avant).2.pas = c.pas + 1 := rfl
@[simp] theorem getUserId_usr : (c.getUserId o s avant).2.usr = c.usr := rfl
@[simp] theorem getUserId_journal : (c.getUserId o s avant).2.journal = c.journal := rfl

end

/-! ## An authentication

`c₁` is what the thread has once it has read one. -/

section

variable {o : Outils} {recu zmqMsg : List UInt8} {c c₁ c' : Contexte} {n : Nat}

theorem authentification_acceptee (hreg : c₁.usr.isregister = true) (hcon : c₁.connexion o = (some n, c'))
    (hc₁ : c₁ = ((c.note [.verrouille .dataBase]).note [.recoit]).parse o recu) :
    c.handleInstruction o .CLIENT_AUTHENTIFICATION recu zmqMsg = (n, c') := by
  unfold handleInstruction
  simp only [← hc₁, if_true]
  rw [if_pos hreg, hcon]

theorem authentification_refusee (hreg : c₁.usr.isregister = true) (hcon : c₁.connexion o = (none, c'))
    (hc₁ : c₁ = ((c.note [.verrouille .dataBase]).note [.recoit]).parse o recu) :
    c.handleInstruction o .CLIENT_AUTHENTIFICATION recu zmqMsg = (0, c'.note [.libere .dataBase]) := by
  unfold handleInstruction
  simp only [← hc₁, if_true]
  rw [if_pos hreg, hcon]

theorem authentification_inscription (hreg : c₁.usr.isregister = false)
    (hc₁ : c₁ = ((c.note [.verrouille .dataBase]).note [.recoit]).parse o recu) :
    c.handleInstruction o .CLIENT_AUTHENTIFICATION recu zmqMsg = c₁.registerUser o := by
  unfold handleInstruction
  simp only [← hc₁, if_true]
  rw [if_neg (by rw [hreg]; exact Bool.false_ne_true)]

end

/-! ## A lookup -/

/-- The tables after the lookup of pseudonym `s`, and its id. -/
def lookup (s : String) (c : Contexte) : Tables := (o.sql.exec c.pas (.getUserId s) c.tables).tables

def trouve (s : String) (avant : Int) (c : Contexte) : Int :=
  (o.sql.exec c.pas (.getUserId s) c.tables).entiers.getLast?.getD avant

variable {o}

theorem lookup_sure {s : String} {c : Contexte} (h : o.sql.sure c.pas [s] = true) :
    c.lookup o s = c.tables := by
  rw [lookup, Sqlite.exec_sure (r := .getUserId s) h]
  split
  · rfl
  · rfl

/-- **A lookup** that is read as it is meant gives the id of the last user with the pseudonym. -/
theorem trouve_sure {s : String} {c : Contexte} (h : o.sql.sure c.pas [s] = true) (avant : Int) :
    c.trouve o s avant = if o.sql.ok c.pas then
      ((c.tables.comptes s).map fun u => (u.id : Int)).getLast?.getD avant else avant := by
  rw [trouve, Sqlite.exec_sure (r := .getUserId s) h]
  split
  · rfl
  · rfl

/-- Where no user has the pseudonym the variable keeps what it held. -/
theorem trouve_inconnu {s : String} {c : Contexte} (h : o.sql.sure c.pas [s] = true)
    (hs : ∀ u ∈ c.tables.users, u.username ≠ s) (avant : Int) : c.trouve o s avant = avant := by
  have hnil : c.tables.comptes s = [] :=
    List.filter_eq_nil_iff.mpr fun u hu => by simpa using hs u hu
  rw [trouve_sure h, hnil]
  split
  · rfl
  · rfl

/-! ## The cases -/

variable (o) (recu : List UInt8) (c : Contexte)

theorem tables_clientSendMessage : (c.clientSendMessage o recu).tables =
    (o.sql.exec (c.pas + 1) (.sendMessage c.usr.id (c.trouve o (o.lecture.chat recu).1 o.indefini)
      (o.lecture.chat recu).2) (c.lookup o (o.lecture.chat recu).1)).tables := rfl

theorem diffusions_clientSendMessage : diffusions (c.clientSendMessage o recu).journal =
    diffusions c.journal ++ [.chatBroker (u32 (c.trouve o (o.lecture.chat recu).1 o.indefini)) c.usr.pseudo
      (o.lecture.chat recu).2] := by
  have hj : (c.clientSendMessage o recu).journal = c.journal ++ [.recoit] ++ [.verrouille .pub, .publie
      (.chatBroker (u32 (c.trouve o (o.lecture.chat recu).1 o.indefini)) c.usr.pseudo
        (o.lecture.chat recu).2), .libere .pub] := rfl
  rw [hj, diffusions_publie, diffusions_muet _ rfl]

/-- The pseudonym of the invitation is in a list of the friends of the user, invited ones too. -/
def dejaInvite (user : String) (c : Contexte) : Bool :=
  o.sql.ok (c.pas + 1) && decide (user ∈ (c.lookup o user).getAllFriendList c.usr.id)

/-- The user that the lookup gives is logged in. -/
def enLigne (n : Nat) (t : Tables) (friendId : Int) : Bool :=
  o.sql.ok n && (t.isOnline friendId).getD false

/-- **An invitation**: nothing more for one that is in the list; else a row, and a message for who is logged
in. -/
theorem clientAskFriendship_cases :
    c.dejaInvite o (o.lecture.friAdd recu) = true ∧
      (c.clientAskFriendship o recu).tables = c.lookup o (o.lecture.friAdd recu) ∧
      diffusions (c.clientAskFriendship o recu).journal = diffusions c.journal ∨
    c.dejaInvite o (o.lecture.friAdd recu) = false ∧
      (c.clientAskFriendship o recu).tables = (if o.sql.ok (c.pas + 2) then
        (c.lookup o (o.lecture.friAdd recu)).addFriend c.usr.id (c.trouve o (o.lecture.friAdd recu) o.indefini)
        else c.lookup o (o.lecture.friAdd recu)) ∧
      diffusions (c.clientAskFriendship o recu).journal = diffusions c.journal ++
        if enLigne o (c.pas + 3) (c.lookup o (o.lecture.friAdd recu))
            (c.trouve o (o.lecture.friAdd recu) o.indefini) then
          [.serverReceiveInvite (u32 (c.trouve o (o.lecture.friAdd recu) o.indefini)) c.usr.pseudo false 0]
        else [] := by
  have hmem : (o.lecture.friAdd recu ∈ if o.sql.ok (c.pas + 1) then
      (c.lookup o (o.lecture.friAdd recu)).getAllFriendList c.usr.id else []) ↔
        c.dejaInvite o (o.lecture.friAdd recu) = true := by
    unfold dejaInvite
    cases o.sql.ok (c.pas + 1) <;> simp
  have hrecoit : diffusions (c.journal ++ [.recoit]) = diffusions c.journal := diffusions_muet _ rfl
  unfold clientAskFriendship
  simp only
  by_cases hd : c.dejaInvite o (o.lecture.friAdd recu) = true
  · refine Or.inl ⟨hd, ?_⟩
    rw [if_pos (by exact hmem.mpr hd)]
    exact ⟨rfl, hrecoit⟩
  · refine Or.inr ⟨Bool.eq_false_iff.mpr hd, ?_⟩
    rw [if_neg (by exact fun h => hd (hmem.mp h))]
    -- the new row changes nothing to who is logged in
    have honline : ∀ t : Tables, (if o.sql.ok (c.pas + 3) then ((if o.sql.ok (c.pas + 2) then
        t.addFriend c.usr.id (c.trouve o (o.lecture.friAdd recu) o.indefini) else t).isOnline
          (c.trouve o (o.lecture.friAdd recu) o.indefini)).getD false else false) =
        enLigne o (c.pas + 3) t (c.trouve o (o.lecture.friAdd recu) o.indefini) := by
      intro t
      unfold enLigne
      cases o.sql.ok (c.pas + 3) with
      | false => rfl
      | true => cases o.sql.ok (c.pas + 2) <;> rfl
    rw [← honline]
    split
    · next h =>
      refine ⟨rfl, ?_⟩
      rw [if_pos (by exact h), publie_journal, diffusions_publie]
      exact congrArg (· ++ _) hrecoit
    · next h =>
      refine ⟨rfl, ?_⟩
      rw [if_neg (by exact h), List.append_nil]
      exact hrecoit

/-- **An answer to an invitation**, or a deletion. -/
theorem tables_clientAcceptFriendship : (c.clientAcceptFriendship o recu).tables =
    let t := c.lookup o (o.lecture.friAccept recu).2
    let friendId := c.trouve o (o.lecture.friAccept recu).2 o.indefini
    if o.sql.ok (c.pas + 1) then
      if (o.lecture.friAccept recu).1 then t.acceptFriendInvite c.usr.id friendId
      else t.removeFriend c.usr.id friendId
    else t := by
  unfold clientAcceptFriendship
  simp only
  split
  · rfl
  · rfl

theorem diffusions_clientAcceptFriendship :
    diffusions (c.clientAcceptFriendship o recu).journal = diffusions c.journal := by
  unfold clientAcceptFriendship
  simp only
  split
  · exact diffusions_muet _ rfl
  · exact diffusions_muet _ rfl

theorem tables_clientDeleteFriendship : (c.clientDeleteFriendship o recu).tables =
    let t := c.lookup o (o.lecture.friRmv recu)
    if o.sql.ok (c.pas + 1) then
      t.removeFriend c.usr.id (c.trouve o (o.lecture.friRmv recu) o.indefini)
    else t := rfl

theorem diffusions_clientDeleteFriendship :
    diffusions (c.clientDeleteFriendship o recu).journal = diffusions c.journal := by
  have hj : (c.clientDeleteFriendship o recu).journal = c.journal ++ [.recoit] := rfl
  rw [hj, diffusions_muet _ rfl]

/-! ## A call -/

/-- A request that is no log-in, of a user who is logged in. -/
theorem handleInstruction_authentifie {type : MsgType} (htype : type ≠ MsgType.CLIENT_AUTHENTIFICATION)
    (hauth : c.usr.isAuth = true) (zmqMsg : List UInt8) :
    (c.handleInstruction o type recu zmqMsg).2.tables =
        ((c.note [.verrouille .dataBase]).authentifie o type recu zmqMsg).tables ∧
      diffusions (c.handleInstruction o type recu zmqMsg).2.journal =
        diffusions ((c.note [.verrouille .dataBase]).authentifie o type recu zmqMsg).journal := by
  unfold handleInstruction
  rw [if_neg htype]
  simp only [note_usr, hauth, if_true]
  refine ⟨rfl, ?_⟩
  exact diffusions_muet _ rfl

end Contexte
end LombricABrac
