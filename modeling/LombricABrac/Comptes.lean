import LombricABrac.Effets

/-!
# Accounts

CLIENT_AUTHENTIFICATION, a log-in or a registration, for a pseudonym without quote or null: whether it is
accepted, the id that the connection gets and the users after it, in terms of its statements.

    authentification_cases : an authentication that is accepted, or refused
    identite_eq            : the id is the one of the account
-/

namespace LombricABrac

/-! ## The table of users -/

namespace Tables

/-- The id of the last account with the pseudonym, which a lookup gives. -/
def idDe (t : Tables) (username : String) : Option Int :=
  ((t.comptes username).map fun u => (u.id : Int)).getLast?

def motDePasse (t : Tables) (username : String) : Option String :=
  ((t.comptes username).map (·.password)).getLast?

def inscrit (username hash : String) (t : Tables) : Tables :=
  { t with users := t.users ++ [⟨suivant (t.users.map (·.id)), username, hash, false, 0⟩] }

def marque (connected : Bool) (username : String) (t : Tables) : Tables :=
  { t with users := t.users.map fun u => if u.username = username then { u with connected } else u }

theorem idDe_marque (t : Tables) (connected : Bool) (username autre : String) :
    (t.marque connected username).idDe autre = t.idDe autre := by
  unfold idDe comptes marque
  simp only [List.filter_map, List.map_map]
  congr 1
  have hfilter : (t.users.filter ((fun u => decide (u.username = autre)) ∘ fun u =>
      if u.username = username then { u with connected } else u)) =
      t.users.filter fun u => decide (u.username = autre) := by
    refine List.filter_congr fun u _ => ?_
    simp only [Function.comp]
    split
    · rfl
    · rfl
  rw [hfilter]
  refine List.map_congr_left fun u _ => ?_
  simp only [Function.comp]
  split
  · rfl
  · rfl

theorem exists_of_idDe {t : Tables} {s : String} {id : Int} (h : t.idDe s = some id) :
    ∃ u ∈ t.users, u.username = s ∧ (u.id : Int) = id := by
  obtain ⟨u, hu, hid⟩ := List.mem_map.mp (List.mem_of_getLast? h)
  obtain ⟨hu, hs⟩ := List.mem_filter.mp hu
  exact ⟨u, hu, of_decide_eq_true hs, hid⟩

end Tables

/-- bcrypt's hashes have no quote and no null. -/
def Outils.HachePropre (o : Outils) : Prop := ∀ n p, Propre (o.hashpw n p)

namespace Contexte

variable (o : Outils) (recu : List UInt8) (c : Contexte)

/-! ## What the statements give -/

/-- The password that is read for the pseudonym. -/
def stocke (pseudo : String) : String :=
  if o.sql.ok c.pas then (c.tables.motDePasse pseudo).getD "" else ""

/-- The id that a registration reads first. -/
def connu (pseudo : String) : Int := if o.sql.ok c.pas then (c.tables.idDe pseudo).getD 0 else 0

/-- The password is right; or no account has the pseudonym. -/
def accepte : Bool :=
  let (isregister, pseudo, password) := o.lecture.userConnect recu
  if isregister then o.checkpw password (c.stocke o pseudo) else !decide (0 < c.connu o pseudo)

/-- The tables after the insertion of a registration. -/
def inscrits : Tables :=
  let (isregister, pseudo, password) := o.lecture.userConnect recu
  if !isregister && o.sql.ok (c.pas + 1) then c.tables.inscrit pseudo (o.hashpw (c.pas + 1) password)
  else c.tables

/-- The statement that reads the id, and the next one, which marks the user. -/
def lectureId : Nat := if (o.lecture.userConnect recu).1 then c.pas + 1 else c.pas + 2

def identite : Int :=
  if o.sql.ok (c.lectureId o recu) then
    ((c.inscrits o recu).idDe (o.lecture.userConnect recu).2.1).getD o.indefini
  else o.indefini

/-- The id is read, and there is an account: it was inserted, or had been before. -/
def identifie : Bool :=
  o.sql.ok (c.lectureId o recu) && ((c.inscrits o recu).idDe (o.lecture.userConnect recu).2.1).isSome

def marques : Tables :=
  if o.sql.ok (c.lectureId o recu + 1) then
    (c.inscrits o recu).marque true (o.lecture.userConnect recu).2.1
  else c.inscrits o recu

/-! ## An authentication -/

theorem tables_addLombrics (userId : Int) (n : Nat) : ∀ (i : Nat) (c : Contexte),
    (c.addLombrics o userId n i).tables =
      { c.tables with worms := (c.addLombrics o userId n i).tables.worms } := by
  induction n with
  | zero => exact fun _ _ => rfl
  | succ n ih =>
    intro i c
    rw [addLombrics, ih]
    unfold ecrit
    simp only
    split
    · rfl
    · rfl

theorem usr_addLombrics (userId : Int) (n : Nat) : ∀ (i : Nat) (c : Contexte),
    (c.addLombrics o userId n i).usr = c.usr := by
  induction n with
  | zero => exact fun _ _ => rfl
  | succ n ih => exact fun i c => ih (i + 1) _

variable {o recu c}

theorem sure_of_propre {s : String} (hs : Propre s) (n : Nat) : o.sql.sure n [s] = true := by
  rw [Sqlite.sure, Bool.or_eq_true, decide_eq_true_eq, List.forall_mem_singleton]
  exact Or.inr hs

theorem exec_connectUser {s : String} (hs : Propre s) (n : Nat) (connected : Bool) (t : Tables) :
    (o.sql.exec n (.connectUser connected s) t).tables = if o.sql.ok n then t.marque connected s else t := by
  rw [Sqlite.exec_sure (r := .connectUser connected s) (sure_of_propre hs n)]
  split
  · rfl
  · rfl

theorem exec_registerUser {s hash : String} (hs : Propre s) (hhash : Propre hash) (n : Nat) (t : Tables) :
    (o.sql.exec n (.registerUser s hash) t).tables = if o.sql.ok n then t.inscrit s hash else t := by
  have hsure : o.sql.sure n (Ordre.registerUser s hash).chaines = true := by
    rw [Sqlite.sure, Bool.or_eq_true, decide_eq_true_eq]
    exact Or.inr (List.forall_mem_cons.mpr ⟨hs, List.forall_mem_singleton.mpr hhash⟩)
  rw [Sqlite.exec_sure hsure]
  split
  · rfl
  · rfl

theorem exec_getPasswd {s : String} (hs : Propre s) (n : Nat) (t : Tables) :
    o.sql.exec n (.getPasswd s) t = ⟨t, [], if o.sql.ok n then (t.comptes s).map (·.password) else []⟩ := by
  rw [Sqlite.exec_sure (r := .getPasswd s) (sure_of_propre hs n)]
  split
  · rfl
  · rfl

theorem exec_getUserId {s : String} (hs : Propre s) (n : Nat) (t : Tables) : o.sql.exec n (.getUserId s) t =
    ⟨t, if o.sql.ok n then (t.comptes s).map fun u => (u.id : Int) else [], []⟩ := by
  rw [Sqlite.exec_sure (r := .getUserId s) (sure_of_propre hs n)]
  split
  · rfl
  · rfl

theorem getLast_lu (b : Bool) (t : Tables) (s : String) (avant : Int) :
    (if b then (t.comptes s).map fun u => (u.id : Int) else []).getLast?.getD avant =
      if b then (t.idDe s).getD avant else avant := by
  cases b with
  | false => rfl
  | true => rfl

/-- **A log-in.** -/
theorem connexion_propre (hp : Propre c.usr.pseudo) :
    (o.checkpw c.usr.password (c.stocke o c.usr.pseudo) = true ∧ ∃ c', c.connexion o = (some 1, c') ∧
      c'.usr = { c.usr with
        isAuth := true
        id := if o.sql.ok (c.pas + 1) then (c.tables.idDe c.usr.pseudo).getD o.indefini else o.indefini } ∧
      c'.tables = if o.sql.ok (c.pas + 2) then c.tables.marque true c.usr.pseudo else c.tables) ∨
    (o.checkpw c.usr.password (c.stocke o c.usr.pseudo) = false ∧ ∃ c', c.connexion o = (none, c') ∧
      c'.usr = c.usr ∧ c'.tables = c.tables) := by
  have hstocke : (if o.sql.ok c.pas then (c.tables.comptes c.usr.pseudo).map (·.password) else []).getLast?.getD
      "" = c.stocke o c.usr.pseudo := by
    unfold stocke
    split
    · rfl
    · rfl
  unfold connexion checkPasswd
  simp only [exec_fst, exec_getPasswd hp, hstocke]
  split
  · next h =>
    refine Or.inl ⟨h, _, rfl, ?_, ?_⟩
    · simp [exec_getPasswd hp, exec_getUserId hp, getLast_lu]
    · simp [exec_getPasswd hp, exec_getUserId hp, exec_connectUser hp]
  · next h =>
    refine Or.inr ⟨Bool.eq_false_iff.mpr h, _, rfl, rfl, ?_⟩
    simp [exec_getPasswd hp]

/-- The end of a registration, after the insertion. -/
def fin (o : Outils) (c : Contexte) : Contexte :=
  let (userId, c) := c.getUserId o c.usr.pseudo o.indefini
  let c := (c.exec o (.connectUser true c.usr.pseudo)).2
  let c := { c with usr := { c.usr with id := userId, isAuth := true } }
  c.addLombrics o userId 8 0

/-- The insertion. -/
def insere (o : Outils) (c : Contexte) : Contexte :=
  let c := (c.getUserId o c.usr.pseudo 0).2
  (c.exec o (.registerUser c.usr.pseudo (o.hashpw c.pas c.usr.password))).2

theorem registerUser_eq : c.registerUser o =
    if 0 < (c.getUserId o c.usr.pseudo 0).1 then
      (0, (c.getUserId o c.usr.pseudo 0).2.note [.envoie (.authentificationResponse false)])
    else (1, ((c.insere o).fin o).note [.envoie (.authentificationResponse true), .libere .dataBase]) := rfl

/-- The worms come last. -/
theorem fin_propre (hp : Propre c.usr.pseudo) :
    let id := if o.sql.ok c.pas then (c.tables.idDe c.usr.pseudo).getD o.indefini else o.indefini
    (c.fin o).usr = { c.usr with isAuth := true, id } ∧
    ∃ c' : Contexte, (c'.tables = if o.sql.ok (c.pas + 1) then c.tables.marque true c.usr.pseudo else c.tables) ∧
      c'.pas = c.pas + 2 ∧ (c.fin o).tables = (c'.addLombrics o id 8 0).tables := by
  intro id
  have hid : (c.getUserId o c.usr.pseudo o.indefini).1 = id := by
    rw [getUserId_fst, exec_getUserId hp, getLast_lu]
  unfold fin
  simp only [hid]
  refine ⟨?_, _, ?_, ?_, rfl⟩
  · rw [usr_addLombrics]
    rfl
  · simp [exec_getUserId hp, exec_connectUser hp]
  · rfl

/-- **A registration.** -/
theorem registerUser_propre (hp : Propre c.usr.pseudo) (hh : Propre (o.hashpw (c.pas + 1) c.usr.password)) :
    let t := if o.sql.ok (c.pas + 1) then
      c.tables.inscrit c.usr.pseudo (o.hashpw (c.pas + 1) c.usr.password) else c.tables
    let id := if o.sql.ok (c.pas + 2) then (t.idDe c.usr.pseudo).getD o.indefini else o.indefini
    (0 < c.connu o c.usr.pseudo ∧ (c.registerUser o).1 = 0 ∧ (c.registerUser o).2.usr = c.usr ∧
      (c.registerUser o).2.tables = c.tables) ∨
    (¬ 0 < c.connu o c.usr.pseudo ∧ (c.registerUser o).1 = 1 ∧
      (c.registerUser o).2.usr = { c.usr with isAuth := true, id } ∧
      ∃ c' : Contexte, c'.tables = (if o.sql.ok (c.pas + 3) then t.marque true c.usr.pseudo else t) ∧
        c'.pas = c.pas + 4 ∧ (c.registerUser o).2.tables = (c'.addLombrics o id 8 0).tables) := by
  intro t id
  have hconnu : (c.getUserId o c.usr.pseudo 0).1 = c.connu o c.usr.pseudo := by
    rw [getUserId_fst, exec_getUserId hp, getLast_lu]
    rfl
  rw [registerUser_eq, hconnu]
  split
  · next h =>
    refine Or.inl ⟨h, rfl, rfl, ?_⟩
    simp [exec_getUserId hp]
  · next h =>
    have ht : (c.insere o).tables = t := by
      rw [insere, exec_tables, getUserId_tables, getUserId_pas, getUserId_usr, exec_registerUser hp hh,
        exec_getUserId hp]
    have hfin := fin_propre (o := o) (c := c.insere o) hp
    rw [ht] at hfin
    exact Or.inr ⟨h, rfl, hfin⟩

/-! ## The request -/

/-- The id of the connection is that of the account. -/
theorem identite_eq (h : c.identifie o recu = true) :
    (c.marques o recu).idDe (o.lecture.userConnect recu).2.1 = some (c.identite o recu) := by
  rw [identifie, Bool.and_eq_true] at h
  obtain ⟨id, hid⟩ := Option.isSome_iff_exists.mp h.2
  rw [identite, if_pos h.1, hid, marques]
  split
  · rw [Tables.idDe_marque, hid]
    rfl
  · rw [hid]
    rfl

/-- **An authentication** that is accepted sets the user of the connection and adds at most a user and its
worms; one that is refused leaves the tables as they are. -/
theorem authentification_cases (hp : Propre (o.lecture.userConnect recu).2.1) (hh : o.HachePropre)
    (zmqMsg : List UInt8) :
    let r := c.handleInstruction o .CLIENT_AUTHENTIFICATION recu zmqMsg
    let (isregister, pseudo, password) := o.lecture.userConnect recu
    (c.accepte o recu = true ∧ r.1 = 1 ∧
      r.2.usr = ⟨isregister, pseudo, password, true, c.identite o recu⟩ ∧
      r.2.tables = { c.marques o recu with worms := r.2.tables.worms }) ∨
    (c.accepte o recu = false ∧ r.1 = 0 ∧ r.2.usr = { c.usr with isregister, pseudo, password } ∧
      r.2.tables = c.tables) := by
  intro r
  obtain ⟨c₁, hc₁⟩ : ∃ c₁, c₁ = ((c.note [.verrouille .dataBase]).note [.recoit]).parse o recu := ⟨_, rfl⟩
  obtain ⟨isregister, pseudo, password, hd⟩ : ∃ a b d, o.lecture.userConnect recu = (a, b, d) :=
    ⟨_, _, _, rfl⟩
  have husr : c₁.usr = { c.usr with isregister, pseudo, password } := by
    rw [hc₁, parse, hd]
    rfl
  have ht : c₁.tables = c.tables := by rw [hc₁]; rfl
  have hpas : c₁.pas = c.pas := by rw [hc₁]; rfl
  rw [hd] at hp
  have hc : c₁.usr.pseudo = pseudo := by rw [husr]
  simp only [hd, accepte, identite, marques, inscrits, lectureId]
  have hstocke : c₁.stocke o pseudo = c.stocke o pseudo := by rw [stocke, stocke, ht, hpas]
  have hconnu : c₁.connu o pseudo = c.connu o pseudo := by rw [connu, connu, ht, hpas]
  cases isregister with
  | true =>
    rcases connexion_propre (o := o) (c := c₁) (by rw [hc]; exact hp) with
      ⟨hok, c', hcon, husr', ht'⟩ | ⟨hok, c', hcon, husr', ht'⟩
    · have hr : r = (1, c') := authentification_acceptee (by rw [husr]) hcon hc₁
      clear_value r
      rw [husr, hstocke] at hok
      rw [husr, ht, hpas] at husr' ht'
      refine Or.inl ⟨hok, by rw [hr], by rw [hr]; exact husr', ?_⟩
      have hrt : r.2.tables = c'.tables := by rw [hr]
      rw [hrt, ht']
      cases hm : o.sql.ok (c.pas + 2) with
      | true =>
        simp [hm]
      | false => simp [hm]
    · have hr : r = (0, c'.note [.libere .dataBase]) := authentification_refusee (by rw [husr]) hcon hc₁
      clear_value r
      rw [husr, hstocke] at hok
      exact Or.inr ⟨hok, by rw [hr], by rw [hr]; exact husr'.trans husr, by rw [hr]; exact ht'.trans ht⟩
  | false =>
    have hr : r = c₁.registerUser o := authentification_inscription (by rw [husr]) hc₁
    clear_value r
    rcases registerUser_propre (o := o) (c := c₁) (by rw [hc]; exact hp) (hh _ _) with
      ⟨hpos, hres, husr', ht'⟩ | ⟨hpos, hres, husr', c', htc, _, ht'⟩
    · rw [hc, hconnu] at hpos
      refine Or.inr ⟨by simpa using hpos, by rw [hr]; exact hres, ?_, ?_⟩
      · rw [hr]
        exact husr'.trans husr
      · rw [hr]
        exact ht'.trans ht
    · rw [hc, hconnu] at hpos
      refine Or.inl ⟨by simpa using hpos, by rw [hr]; exact hres, ?_, ?_⟩
      · rw [hr]
        refine husr'.trans ?_
        rw [ht, hpas, husr]
        rfl
      · have hrt : r.2.tables = (c₁.registerUser o).2.tables := by rw [hr]
        rw [ht, hpas, husr] at htc
        rw [hrt, ht', tables_addLombrics, htc]
        rfl

end Contexte

/-! ## Two accounts -/

/-- "a" and "b" log in with the bodies [1] and [2]. -/
def outilsComptes : Outils :=
  { outilsSimples with
    hashpw := fun _ _ => "$2a$12$"
    lecture := { outilsSimples.lecture with
      userConnect := fun b => if b = [1] then (true, "a", "x") else (true, "b", "y") } }

theorem hachePropre_outilsComptes : outilsComptes.HachePropre := fun _ _ => show Propre "$2a$12$" by decide

def deuxComptes : Tables := ⟨[⟨1, "a", "x", false, 0⟩, ⟨2, "b", "y", false, 0⟩], [], [], [], []⟩

end LombricABrac
