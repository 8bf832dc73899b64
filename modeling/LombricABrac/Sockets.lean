import LombricABrac.Comptes
import LombricABrac.Lib.Runs
import Mathlib.Data.List.Perm.Basic

/-!
# Who is connected

All the open sockets of the server, with the column `connected` of its users.  A log-in or a registration
sets it for the pseudonym that it gives, DECO clears it for the pseudonym that the connection has last
given, and the end of a connection leaves it.

    any_set          : the sockets after one of them has changed
    concorde_etape   : the steps that keep the column in accord with the sockets
    concorde_of_reach : the runs of such steps
    ferme_connecte   : a socket that closes without DECO
-/

namespace LombricABrac

open MsgType

/-- `libre` says that no refused registration has kept the tables. -/
structure Sockets where
  tables : Tables
  pas : Nat
  ouverts : List ConnectedPlayer
  libre : Bool

namespace Sockets

/-- A connection opens; connection `k` sends CLIENT_AUTHENTIFICATION, or DECO; it closes. -/
inductive Pas where
  | ouvre
  | authentifie (k : Nat) (recu : List UInt8)
  | deco (k : Nat)
  | ferme (k : Nat)

def nouveau : ConnectedPlayer := ⟨false, "", "", false, -1⟩

def contexte (usr : ConnectedPlayer) (st : Sockets) : Contexte := ⟨st.tables, st.pas, usr, []⟩

/-- `handle_instruction`, which waits for the tables. -/
def instruction (o : Outils) (k : Nat) (type : MsgType) (recu : List UInt8) (st : Sockets) : Option Sockets :=
  match st.ouverts[k]? with
  | none => none
  | some usr =>
    if st.libre then
      let c := ((st.contexte usr).handleInstruction o type recu []).2
      some {
        tables := c.tables
        pas := c.pas
        ouverts := st.ouverts.set k c.usr
        libre := Mutex.holds Verrou.dataBase false (verrous c.journal) == some false }
    else none

def etape (o : Outils) (p : Pas) (st : Sockets) : Option Sockets :=
  match p with
  | .ouvre => some { st with ouverts := st.ouverts ++ [nouveau] }
  | .authentifie k recu => st.instruction o k CLIENT_AUTHENTIFICATION recu
  | .deco k => st.instruction o k DECO []
  | .ferme k => if k < st.ouverts.length then some { st with ouverts := st.ouverts.eraseIdx k } else none

/-- The connection is authenticated as user `u`. -/
def comme (u : CompteRow) (usr : ConnectedPlayer) : Bool := usr.isAuth && usr.id == u.id

/-- The column is set for a user exactly where an open connection is authenticated as that user. -/
def Concorde (st : Sockets) : Prop :=
  ∀ u ∈ st.tables.users, u.connected = true ↔ ∃ usr ∈ st.ouverts, usr.isAuth = true ∧ usr.id = u.id

/-- Another connection than `k` is authenticated as `u`. -/
def ailleurs (k : Nat) (u : CompteRow) (st : Sockets) : Bool := (st.ouverts.eraseIdx k).any (comme u)

/-! ## The condition -/

/-- A pseudonym without quote or null; where it is accepted, the connection reads the id of the account, and a
pseudonym that is inserted is new. -/
def lisibleCompte (o : Outils) (recu : List UInt8) (c : Contexte) : Bool :=
  let (isregister, pseudo, _) := o.lecture.userConnect recu
  decide (Propre pseudo) && (!c.accepte o recu || c.identifie o recu &&
    (isregister || !o.sql.ok (c.pas + 1) || c.tables.users.all fun u => u.username != pseudo))

/-- The statements are read as they are meant; that of DECO may fail. -/
def lisible (o : Outils) (p : Pas) (st : Sockets) : Bool :=
  match p with
  | .authentifie k recu => st.ouverts[k]?.all fun usr => lisibleCompte o recu (st.contexte usr)
  | .deco k => st.ouverts[k]?.all fun usr => o.sql.sure st.pas [usr.pseudo]
  | _ => true

/-- A log-in that is accepted is marked, or its user is connected already; the user that the connection had
before is the same, or another connection has it. -/
def accordeCompte (o : Outils) (recu : List UInt8) (k : Nat) (usr : ConnectedPlayer) (st : Sockets) : Bool :=
  let c := st.contexte usr
  let pseudo := (o.lecture.userConnect recu).2.1
  !c.accepte o recu ||
    (o.sql.ok (c.lectureId o recu + 1) ||
      (c.inscrits o recu).users.all fun u => u.username != pseudo || u.connected) &&
    st.tables.users.all fun u => !comme u usr || u.username == pseudo || st.ailleurs k u

/-- DECO clears the column for a user that no other connection has; its own user has this pseudonym, or
another connection has it. -/
def accordeDeco (o : Outils) (k : Nat) (usr : ConnectedPlayer) (st : Sockets) : Bool :=
  !usr.isAuth || st.tables.users.all fun u =>
    if o.sql.ok st.pas && u.username == usr.pseudo then !st.ailleurs k u else !comme u usr || st.ailleurs k u

/-- A connection that closes is not the last one of its user. -/
def accordeFin (k : Nat) (usr : ConnectedPlayer) (st : Sockets) : Bool :=
  st.tables.users.all fun u => !comme u usr || st.ailleurs k u

def accorde (o : Outils) (p : Pas) (st : Sockets) : Bool :=
  match p with
  | .ouvre => true
  | .authentifie k recu => st.ouverts[k]?.all fun usr => st.accordeCompte o recu k usr
  | .deco k => st.ouverts[k]?.all fun usr => st.accordeDeco o k usr
  | .ferme k => st.ouverts[k]?.all fun usr => st.accordeFin k usr

/-- Nobody is connected, and no two users have the same pseudonym or the same id. -/
structure Depart (st : Sockets) : Prop where
  username : (st.tables.users.map (·.username)).Nodup
  id : (st.tables.users.map (·.id)).Nodup
  connected : ∀ u ∈ st.tables.users, u.connected = false
  ouverts : st.ouverts = []

/-! ## The sockets -/

theorem any_set {l : List ConnectedPlayer} {k : Nat} (hk : k < l.length) (usr : ConnectedPlayer)
    (f : ConnectedPlayer → Bool) : (l.set k usr).any f = (f usr || (l.eraseIdx k).any f) := by
  rw [(List.set_perm_cons_eraseIdx hk usr).any_eq, List.any_cons]

theorem any_eq {l : List ConnectedPlayer} {k : Nat} {usr : ConnectedPlayer} (hk : l[k]? = some usr)
    (f : ConnectedPlayer → Bool) : l.any f = (f usr || (l.eraseIdx k).any f) := by
  obtain ⟨hlt, rfl⟩ := List.getElem?_eq_some_iff.mp hk
  rw [← (List.getElem_cons_eraseIdx_perm hlt).any_eq, List.any_cons]

theorem any_comme {l : List ConnectedPlayer} {u : CompteRow} :
    l.any (comme u) = true ↔ ∃ usr ∈ l, usr.isAuth = true ∧ usr.id = u.id := by
  simp [comme]

theorem concorde_iff {st : Sockets} :
    st.Concorde ↔ ∀ u ∈ st.tables.users, u.connected = st.ouverts.any (comme u) := by
  refine forall_congr' fun u => imp_congr_right fun _ => ?_
  rw [← any_comme]
  exact Bool.eq_iff_iff.symm

/-! ## One step -/

/-- What the column keeps from one step to the next: the pseudonyms and the ids are distinct. -/
structure Distincts (t : Tables) : Prop where
  username : (t.users.map (·.username)).Nodup
  id : (t.users.map (·.id)).Nodup

theorem eq_of_username {t : Tables} (h : Distincts t) {u v : CompteRow} (hu : u ∈ t.users) (hv : v ∈ t.users)
    (he : u.username = v.username) : u = v := List.inj_on_of_nodup_map h.username hu hv he

theorem eq_of_id {t : Tables} (h : Distincts t) {u v : CompteRow} (hu : u ∈ t.users) (hv : v ∈ t.users)
    (he : u.id = v.id) : u = v := List.inj_on_of_nodup_map h.id hu hv he

theorem distincts_congr {t t' : Tables} (he : t.users = t'.users) (h : Distincts t) : Distincts t' :=
  ⟨he ▸ h.username, he ▸ h.id⟩

theorem distincts_marque {t : Tables} (h : Distincts t) (connected : Bool) (s : String) :
    Distincts (t.marque connected s) := by
  have hmap : ∀ {β : Type} (f : CompteRow → β), (∀ u b, f { u with connected := b } = f u) →
      (t.marque connected s).users.map f = t.users.map f := by
    intro β f hf
    rw [Tables.marque, List.map_map]
    refine List.map_congr_left fun u _ => ?_
    simp only [Function.comp]
    split
    · exact hf u connected
    · rfl
  refine ⟨?_, ?_⟩
  · rw [hmap _ fun _ _ => rfl]
    exact h.username
  · rw [hmap _ fun _ _ => rfl]
    exact h.id

theorem distincts_inscrit {t : Tables} (h : Distincts t) {s : String} (hs : ∀ u ∈ t.users, u.username ≠ s)
    (hash : String) : Distincts (t.inscrit s hash) := by
  refine ⟨?_, ?_⟩
  · rw [Tables.inscrit, List.map_append, List.nodup_append]
    refine ⟨h.username, List.nodup_singleton _, ?_⟩
    intro a ha b hb
    obtain ⟨u, hu, rfl⟩ := List.mem_map.mp ha
    rw [List.map_singleton, List.mem_singleton] at hb
    subst hb
    exact hs u hu
  · rw [Tables.inscrit, List.map_append, List.nodup_append]
    refine ⟨h.id, List.nodup_singleton _, ?_⟩
    intro a ha b hb
    rw [List.map_singleton, List.mem_singleton] at hb
    subst hb
    exact Nat.ne_of_lt (lt_suivant ha)

/-- A user of the tables after a mark is one of those before. -/
theorem forall_marque {t : Tables} {connected : Bool} {s : String} {P : CompteRow → Prop} :
    (∀ u ∈ (t.marque connected s).users, P u) ↔
      ∀ u ∈ t.users, P (if u.username = s then { u with connected } else u) := by
  rw [Tables.marque, List.forall_mem_map]

variable {o : Outils} {p : Pas} {st st' : Sockets} {usr : ConnectedPlayer} {k : Nat}

/-- **DECO.** -/
theorem deco_spec (h : o.sql.sure st.pas [usr.pseudo] = true) (recu : List UInt8) :
    let c := ((st.contexte usr).handleInstruction o DECO recu []).2
    (usr.isAuth = false ∧ c.tables = st.tables ∧ c.usr = usr) ∨
    (usr.isAuth = true ∧ c.usr = { usr with id := -1 } ∧
      c.tables = if o.sql.ok st.pas then st.tables.marque false usr.pseudo else st.tables) := by
  intro c
  have hc : c = (if usr.isAuth = true then ((st.contexte usr).note [.verrouille .dataBase]).deco o
      else (st.contexte usr).note [.verrouille .dataBase]).note [.libere .dataBase] := rfl
  clear_value c
  by_cases hauth : usr.isAuth = true
  · rw [if_pos hauth] at hc
    refine Or.inr ⟨hauth, by rw [hc]; rfl, ?_⟩
    have hexec := Sqlite.exec_sure (r := .connectUser false usr.pseudo) h st.tables
    have ht : c.tables = (o.sql.exec st.pas (.connectUser false usr.pseudo) st.tables).tables := by
      rw [hc]
      rfl
    rw [ht, hexec]
    split
    · rfl
    · rfl
  · rw [if_neg hauth] at hc
    rw [hc]
    exact Or.inl ⟨Bool.eq_false_iff.mpr hauth, rfl, rfl⟩

/-- **A connection that changes**: what the column needs. -/
theorem concorde_set (t : Tables) (pas : Nat) (libre : Bool) (hk : st.ouverts[k]? = some usr) (hC : st.Concorde)
    (usr' : ConnectedPlayer) :
    (∀ u ∈ st.tables.users, u.connected = (comme u usr || st.ailleurs k u)) ∧
    (Concorde ⟨t, pas, st.ouverts.set k usr', libre⟩ ↔
      ∀ u ∈ t.users, u.connected = (comme u usr' || st.ailleurs k u)) := by
  refine ⟨fun u hu => ?_, ?_⟩
  · rw [concorde_iff.mp hC u hu, any_eq hk]
    rfl
  · obtain ⟨hlt, _⟩ := List.getElem?_eq_some_iff.mp hk
    rw [concorde_iff]
    simp only [any_set hlt]
    rfl

theorem concorde_deco (hk : st.ouverts[k]? = some usr) (hD : Distincts st.tables) (hC : st.Concorde)
    (hl : o.sql.sure st.pas [usr.pseudo] = true) (pas : Nat) (libre : Bool) :
    let c := ((st.contexte usr).handleInstruction o DECO [] []).2
    Distincts c.tables ∧
      (st.accordeDeco o k usr = true ↔ Concorde ⟨c.tables, pas, st.ouverts.set k c.usr, libre⟩) := by
  intro c
  rcases deco_spec hl [] with ⟨hauth, ht, husr⟩ | ⟨hauth, husr, ht⟩
  · obtain ⟨hav, hap⟩ := concorde_set c.tables pas libre hk hC c.usr
    rw [hap]
    refine ⟨?_, iff_of_true (by simp [accordeDeco, hauth]) ?_⟩
    · rw [ht]
      exact hD
    · rw [ht, husr]
      exact hav
  · obtain ⟨hav, hap⟩ := concorde_set c.tables pas libre hk hC c.usr
    have hmoins : ∀ u : CompteRow, comme u c.usr = false := by
      intro u
      rw [husr]
      simp [comme]
    simp only [hmoins, Bool.false_or] at hap
    rw [hap, ht, accordeDeco, hauth, Bool.not_true, Bool.false_or, List.all_eq_true]
    cases o.sql.ok st.pas with
    | false =>
      refine ⟨hD, forall_congr' fun u => forall_congr' fun hu => ?_⟩
      rw [hav u hu]
      cases comme u usr <;> cases st.ailleurs k u <;> simp
    | true =>
      rw [if_pos rfl]
      refine ⟨distincts_marque hD false usr.pseudo, ?_⟩
      rw [forall_marque]
      refine forall_congr' fun u => forall_congr' fun hu => ?_
      by_cases hname : u.username = usr.pseudo
      · rw [if_pos hname, if_pos (by simp [hname])]
        show (!st.ailleurs k u) = true ↔ false = st.ailleurs k u
        cases st.ailleurs k u <;> simp
      · rw [if_neg hname, if_neg (by simp [hname]), hav u hu]
        cases comme u usr <;> cases st.ailleurs k u <;> simp

/-- The tables after the insertion: a row that is inserted has a new pseudonym. -/
theorem inscrits_cases {recu : List UInt8} {c : Contexte} (hl : lisibleCompte o recu c = true)
    (hacc : c.accepte o recu = true) :
    c.inscrits o recu = c.tables ∨ ∃ hash, c.inscrits o recu =
      c.tables.inscrit (o.lecture.userConnect recu).2.1 hash ∧
        ∀ u ∈ c.tables.users, u.username ≠ (o.lecture.userConnect recu).2.1 := by
  simp only [lisibleCompte, hacc, Bool.not_true, Bool.false_or, Bool.and_eq_true, Bool.or_eq_true,
    Bool.not_eq_true', List.all_eq_true, bne_iff_ne] at hl
  unfold Contexte.inscrits
  simp only
  split
  · next hins =>
    rw [Bool.and_eq_true, Bool.not_eq_true'] at hins
    rcases hl.2.2 with (hreg | hok) | hnew
    · rw [hins.1] at hreg
      cases hreg
    · rw [hins.2] at hok
      cases hok
    · exact Or.inr ⟨_, rfl, hnew⟩
  · exact Or.inl rfl

/-- **A log-in or a registration that is accepted**: the account `a`, among users with distinct pseudonyms and
ids.  It is connected afterwards, and so is each other user that another connection has. -/
theorem concorde_accepte {t : Tables} {a : CompteRow} (hD : Distincts t) (ha : a ∈ t.users)
    (hav : ∀ u ∈ t.users, u.username ≠ a.username → u.connected = (comme u usr || st.ailleurs k u))
    (ok : Bool) (usr' : ConnectedPlayer) (hauth : usr'.isAuth = true) (hid : usr'.id = a.id) :
    ((ok || t.users.all fun u => u.username != a.username || u.connected) = true ∧
      ∀ u ∈ t.users, u.username ≠ a.username → comme u usr = true → st.ailleurs k u = true) ↔
    ∀ u ∈ (if ok then t.marque true a.username else t).users,
      u.connected = (comme u usr' || st.ailleurs k u) := by
  have hcomme : ∀ u ∈ t.users, comme u usr' = true ↔ u.username = a.username := by
    intro u hu
    simp only [comme, hauth, hid, Bool.true_and, beq_iff_eq, Int.natCast_inj]
    constructor
    · intro h
      rw [eq_of_id hD ha hu h]
    · intro h
      rw [eq_of_username hD hu ha h]
  -- another user
  have hautre : ∀ u ∈ t.users, u.username ≠ a.username →
      ((comme u usr = true → st.ailleurs k u = true) ↔ u.connected = (comme u usr' || st.ailleurs k u)) := by
    intro u hu hname
    rw [Bool.eq_false_iff.mpr fun h => hname ((hcomme u hu).mp h), hav u hu hname, Bool.false_or]
    cases comme u usr <;> cases st.ailleurs k u <;> simp
  cases ok with
  | false =>
    rw [Bool.false_or, List.all_eq_true, if_neg Bool.false_ne_true, ← forall₂_and]
    refine forall_congr' fun u => forall_congr' fun hu => ?_
    by_cases hname : u.username = a.username
    · rw [(hcomme u hu).mpr hname]
      simp [hname]
    · rw [← hautre u hu hname]
      simp [hname]
  | true =>
    rw [Bool.true_or, if_pos rfl, forall_marque, and_iff_right rfl]
    refine forall_congr' fun u => forall_congr' fun hu => ?_
    by_cases hname : u.username = a.username
    · rw [if_pos hname]
      have hu' : comme { u with connected := true } usr' = true := (hcomme u hu).mpr hname
      rw [hu']
      simp [hname]
    · rw [if_neg hname, ← hautre u hu hname]
      simp [hname]

theorem distincts_inscrits {recu : List UInt8} {c : Contexte} (hl : lisibleCompte o recu c = true)
    (hacc : c.accepte o recu = true) (hD : Distincts c.tables) : Distincts (c.inscrits o recu) := by
  rcases inscrits_cases hl hacc with h | ⟨hash, h, hnew⟩
  · rw [h]
    exact hD
  · rw [h]
    exact distincts_inscrit hD hnew hash

/-- The insertion adds the account alone. -/
theorem mem_inscrits {recu : List UInt8} {c : Contexte} (hl : lisibleCompte o recu c = true)
    (hacc : c.accepte o recu = true) {u : CompteRow} (hne : u.username ≠ (o.lecture.userConnect recu).2.1) :
    u ∈ (c.inscrits o recu).users ↔ u ∈ c.tables.users := by
  rcases inscrits_cases hl hacc with h | ⟨hash, h, _⟩
  · rw [h]
  · rw [h, Tables.inscrit, List.mem_append, List.mem_singleton, or_iff_left]
    rintro rfl
    exact hne rfl

/-- The account that is accepted, whose id the connection reads. -/
theorem exists_compte {recu : List UInt8} {c : Contexte} (hl : lisibleCompte o recu c = true)
    (hacc : c.accepte o recu = true) : ∃ a ∈ (c.inscrits o recu).users,
      a.username = (o.lecture.userConnect recu).2.1 ∧ c.identite o recu = a.id := by
  simp only [lisibleCompte, hacc, Bool.not_true, Bool.false_or, Bool.and_eq_true] at hl
  have hid := hl.2.1
  rw [Contexte.identifie, Bool.and_eq_true] at hid
  obtain ⟨id, hidDe⟩ := Option.isSome_iff_exists.mp hid.2
  obtain ⟨a, ha, hname, haid⟩ := Tables.exists_of_idDe hidDe
  refine ⟨a, ha, hname, ?_⟩
  rw [Contexte.identite, if_pos hid.1, hidDe, haid]
  rfl

/-- The condition of a log-in that is accepted, over the users after the insertion. -/
theorem accordeCompte_iff {recu : List UInt8} (hl : lisibleCompte o recu (st.contexte usr) = true)
    (hacc : (st.contexte usr).accepte o recu = true) :
    let pseudo := (o.lecture.userConnect recu).2.1
    let t := (st.contexte usr).inscrits o recu
    st.accordeCompte o recu k usr = true ↔
      ((o.sql.ok ((st.contexte usr).lectureId o recu + 1) ||
          t.users.all fun u => u.username != pseudo || u.connected) = true ∧
        ∀ u ∈ t.users, u.username ≠ pseudo → comme u usr = true → st.ailleurs k u = true) := by
  intro pseudo t
  rw [accordeCompte]
  simp only [hacc, Bool.not_true, Bool.false_or, Bool.and_eq_true]
  refine and_congr_right fun _ => ?_
  simp only [List.all_eq_true, Bool.or_eq_true, Bool.not_eq_true', beq_iff_eq]
  constructor
  · intro h u hu hne hcomme
    rcases h u ((mem_inscrits hl hacc hne).mp hu) with (hno | heq) | hail
    · rw [hcomme] at hno
      cases hno
    · exact absurd heq hne
    · exact hail
  · intro h u hu
    by_cases hne : u.username = pseudo
    · exact Or.inl (Or.inr hne)
    · cases hcomme : comme u usr with
      | false => exact Or.inl (Or.inl rfl)
      | true => exact Or.inr (h u ((mem_inscrits hl hacc hne).mpr hu) hne hcomme)

theorem concorde_compte (hh : o.HachePropre) (hk : st.ouverts[k]? = some usr) (hD : Distincts st.tables)
    (hC : st.Concorde) {recu : List UInt8} (hl : lisibleCompte o recu (st.contexte usr) = true) (pas : Nat)
    (libre : Bool) :
    let c := ((st.contexte usr).handleInstruction o CLIENT_AUTHENTIFICATION recu []).2
    Distincts c.tables ∧
      (st.accordeCompte o recu k usr = true ↔ Concorde ⟨c.tables, pas, st.ouverts.set k c.usr, libre⟩) := by
  intro c
  obtain ⟨hav, hap⟩ := concorde_set c.tables pas libre hk hC c.usr
  rw [hap]
  have hp : Propre (o.lecture.userConnect recu).2.1 := by
    have hl' := hl
    simp only [lisibleCompte, Bool.and_eq_true, decide_eq_true_eq] at hl'
    exact hl'.1
  rcases Contexte.authentification_cases (c := st.contexte usr) hp hh [] with
    ⟨hacc, _, husr, ht⟩ | ⟨hacc, _, husr, ht⟩
  · obtain ⟨a, ha, hname, hident⟩ := exists_compte hl hacc
    have hDi : Distincts ((st.contexte usr).inscrits o recu) := distincts_inscrits hl hacc hD
    have husers : c.tables.users = ((st.contexte usr).marques o recu).users := by rw [ht]
    have hmarques : (st.contexte usr).marques o recu =
        if o.sql.ok ((st.contexte usr).lectureId o recu + 1) then
          ((st.contexte usr).inscrits o recu).marque true a.username
        else (st.contexte usr).inscrits o recu := by
      rw [hname]
      rfl
    have hiff := @concorde_accepte st usr k _ _ hDi ha
      (fun u hu hne => hav u ((mem_inscrits hl hacc (hname ▸ hne)).mp hu))
      (o.sql.ok ((st.contexte usr).lectureId o recu + 1)) c.usr (by rw [husr]) (by rw [husr]; exact hident)
    rw [← hmarques, ← husers, hname] at hiff
    refine ⟨?_, (accordeCompte_iff hl hacc).trans hiff⟩
    refine distincts_congr husers.symm ?_
    rw [hmarques]
    split
    · exact distincts_marque hDi true a.username
    · exact hDi
  · refine ⟨?_, iff_of_true ?_ ?_⟩
    · rw [ht]
      exact hD
    · rw [accordeCompte]
      simp [hacc]
    · rw [ht]
      have hcomme : ∀ u, comme u c.usr = comme u usr := by
        intro u
        rw [husr]
        rfl
      simp only [hcomme]
      exact hav

/-! ## Runs -/

/-- **One step** keeps the column in accord exactly where the condition holds. -/
theorem concorde_etape (hh : o.HachePropre) (hD : Distincts st.tables) (hC : st.Concorde)
    (hl : lisible o p st = true) (h : etape o p st = some st') :
    Distincts st'.tables ∧ (accorde o p st = true ↔ st'.Concorde) := by
  cases p with
  | ouvre =>
    cases h
    refine ⟨hD, iff_of_true rfl ?_⟩
    rw [concorde_iff] at hC ⊢
    intro u hu
    rw [List.any_append, hC u hu]
    simp [comme, nouveau]
  | authentifie k recu =>
    simp only [etape, instruction] at h
    split at h
    · cases h
    · next usr hk =>
      split at h
      · cases h
        rw [lisible, hk] at hl
        rw [accorde, hk]
        exact concorde_compte hh hk hD hC hl _ _
      · cases h
  | deco k =>
    simp only [etape, instruction] at h
    split at h
    · cases h
    · next usr hk =>
      split at h
      · cases h
        rw [lisible, hk] at hl
        rw [accorde, hk]
        exact concorde_deco hk hD hC hl _ _
      · cases h
  | ferme k =>
    simp only [etape] at h
    split at h
    · next hlt =>
      cases h
      refine ⟨hD, ?_⟩
      have hk : st.ouverts[k]? = some st.ouverts[k] := List.getElem?_eq_getElem hlt
      rw [accorde, hk, concorde_iff]
      show (st.tables.users.all fun u => !comme u st.ouverts[k] || st.ailleurs k u) = true ↔
        ∀ u ∈ st.tables.users, u.connected = st.ailleurs k u
      rw [List.all_eq_true]
      refine forall_congr' fun u => forall_congr' fun hu => ?_
      rw [concorde_iff.mp hC u hu, any_eq hk]
      show _ ↔ (comme u st.ouverts[k] || st.ailleurs k u) = st.ailleurs k u
      cases comme u st.ouverts[k] <;> cases st.ailleurs k u <;> simp
    · cases h

/-- **The column is set for the users that have a connection**, in every run in which statements are read as
they are meant and a log-in reads its account, no connection of a user is the last one when it closes or
changes its user, and DECO clears the column for a user that has no other connection; the first step that
does not meet it does not keep it. -/
theorem concorde_of_reach (o : Outils) (hh : o.HachePropre) (st : Sockets)
    (h : Runs.Reach (etape o) (fun p st => lisible o p st = true ∧ accorde o p st = true) Depart st) :
    st.Concorde ∧ ∀ p st', lisible o p st = true → etape o p st = some st' →
      (accorde o p st = true ↔ st'.Concorde) := by
  have hinv : Distincts st.tables ∧ st.Concorde := by
    refine h.invariant (I := fun st => Distincts st.tables ∧ st.Concorde) ?_ ?_
    · intro st h0
      refine ⟨⟨h0.username, h0.id⟩, ?_⟩
      rw [concorde_iff, h0.ouverts]
      exact h0.connected
    · rintro p st st' ⟨hD, hC⟩ ⟨hl, hok⟩ hs
      obtain ⟨hD', hiff⟩ := concorde_etape hh hD hC hl hs
      exact ⟨hD', hiff.mp hok⟩
  exact ⟨hinv.2, fun p st' hl hs => (concorde_etape hh hinv.1 hinv.2 hl hs).2⟩

/-! ## A socket that closes -/

def repos : Sockets := ⟨deuxComptes, 0, [], true⟩

theorem depart_repos : Depart repos := ⟨by decide, by decide, by decide, rfl⟩

/-- "a" logs in and its socket closes: it is connected, and there is no connection. -/
theorem ferme_connecte : ∃ st, Runs.Reach (etape outilsComptes) (fun _ _ => True) Depart st ∧
    st.ouverts = [] ∧ st.tables.users.map (fun u => (u.id, u.connected)) = [(1, true), (2, false)] ∧
    ¬ st.Concorde := by
  obtain ⟨st, _, hr, hp⟩ := Runs.exists_of_exec (etape outilsComptes) (fun _ _ => True) depart_repos
    [.ouvre, .authentifie 0 [1], .ferme 0]
    (fun st => st.ouverts == [] && st.tables.users == [⟨1, "a", "x", true, 0⟩, ⟨2, "b", "y", false, 0⟩])
    (by decide +kernel)
  simp only [Bool.and_eq_true, beq_iff_eq] at hp
  refine ⟨st, hr, hp.1, by rw [hp.2]; rfl, fun hC => ?_⟩
  obtain ⟨usr, husr, _⟩ := (hC ⟨1, "a", "x", true, 0⟩ (by rw [hp.2]; simp)).mp rfl
  rw [hp.1] at husr
  cases husr

/-- "a" leaves by DECO before its socket closes; "b" stays. -/
theorem ferme_apres_deco : ∃ st, Runs.exec (etape outilsComptes)
      (fun p st => lisible outilsComptes p st = true ∧ accorde outilsComptes p st = true)
      [.ouvre, .authentifie 0 [1], .ouvre, .authentifie 1 [2], .deco 0, .ferme 0] repos = some st ∧
    st.tables.users.map (fun u => (u.id, u.connected)) = [(1, false), (2, true)] ∧ st.Concorde := by
  obtain ⟨st, hst, hr, hp⟩ := Runs.exists_of_exec (etape outilsComptes)
    (fun p st => lisible outilsComptes p st = true ∧ accorde outilsComptes p st = true) depart_repos
    [.ouvre, .authentifie 0 [1], .ouvre, .authentifie 1 [2], .deco 0, .ferme 0]
    (fun st => st.tables.users.map (fun u => (u.id, u.connected)) == [(1, false), (2, true)]) (by decide +kernel)
  exact ⟨st, hst, beq_iff_eq.mp hp, (concorde_of_reach outilsComptes hachePropre_outilsComptes st hr).1⟩

end Sockets
end LombricABrac
