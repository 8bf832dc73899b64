import LombricABrac.Comptes

/-!
# A registration

`register_user` is a dozen statements whose results it ignores: a lookup, the insertion of the user, a second
lookup, the mark, and eight worms.  Its result id is in a variable that a lookup without a row leaves unset.

    possedes_addLombrics : the worms that are inserted
    atomique_iff         : the registrations that are done whole or not at all
    insertion_ratee      : the user is not inserted
-/

namespace LombricABrac

namespace Contexte

/-- The worms of a user. -/
def possedes (id : Int) (t : Tables) : Nat := t.worms.countP fun w => w.ownerId = id

/-- The statements that succeed, among `n` of them from statement `pas` on. -/
def reussis (sql : Sqlite) (pas n : Nat) : Nat := (List.range n).countP fun i => sql.ok (pas + i)

/-- A registration is done whole, or not at all. -/
def Atomique (o : Outils) (c : Contexte) : Prop :=
  let r := c.registerUser o
  (∃ u ∈ r.2.tables.users, u.username = c.usr.pseudo ∧ 8 ≤ possedes u.id r.2.tables ∧
    r.2.usr.isAuth = true ∧ r.2.usr.id = u.id ∧
    r.2.journal = c.journal ++ [.envoie (.authentificationResponse true), .libere .dataBase]) ∨
  (r.2.tables.users = c.tables.users ∧ r.2.tables.worms = c.tables.worms ∧ r.2.usr.isAuth = c.usr.isAuth ∧
    r.2.usr.id = c.usr.id ∧ r.2.journal = c.journal ++ [.envoie (.authentificationResponse false)])

/-- The users after the insertion. -/
def inseres (o : Outils) (c : Contexte) : Tables :=
  if o.sql.ok (c.pas + 1) then c.tables.inscrit c.usr.pseudo (o.hashpw (c.pas + 1) c.usr.password)
  else c.tables

/-- The first lookup finds an account. -/
def dejaPris (o : Outils) (c : Contexte) : Bool := decide (0 < c.connu o c.usr.pseudo)

/-- The second finds one, and it has eight worms in the end. -/
def Complete (o : Outils) (c : Contexte) : Prop :=
  o.sql.ok (c.pas + 2) = true ∧ ∃ id, (c.inseres o).idDe c.usr.pseudo = some id ∧
    8 ≤ possedes id c.tables + reussis o.sql (c.pas + 4) 8

variable {o : Outils} {c : Contexte}

/-! ## The worms -/

theorem reussis_succ (sql : Sqlite) (pas n : Nat) :
    reussis sql pas (n + 1) = (if sql.ok pas then 1 else 0) + reussis sql (pas + 1) n := by
  unfold reussis
  rw [List.range_succ_eq_map, List.countP_cons, List.countP_map, Nat.add_comm]
  congr 1
  refine List.countP_congr fun i _ => ?_
  simp only [Function.comp, Nat.succ_eq_add_one]
  rw [Nat.add_right_comm, Nat.add_assoc]

/-- **The loop of the worms** adds one for each statement that succeeds. -/
theorem possedes_addLombrics (userId : Int) (n : Nat) : ∀ (i : Nat) (c : Contexte),
    possedes userId (c.addLombrics o userId n i).tables =
      possedes userId c.tables + reussis o.sql c.pas n := by
  induction n with
  | zero => exact fun _ _ => rfl
  | succ n ih =>
    intro i c
    rw [addLombrics, ih, reussis_succ, ecrit_pas, ecrit_tables, ← Nat.add_assoc]
    congr 1
    split
    · simp [possedes, Tables.addLombric, List.countP_append]
    · rfl

/-! ## The users -/

/-- The mark leaves the pseudonyms and the ids. -/
theorem exists_marque (b connected : Bool) (t : Tables) (s : String) (P : String → Nat → Prop) :
    (∃ u ∈ (if b then t.marque connected s else t).users, P u.username u.id) ↔
      ∃ u ∈ t.users, P u.username u.id := by
  cases b with
  | false => rfl
  | true =>
    have hmarque : ∀ u : CompteRow, (if u.username = s then { u with connected } else u).username = u.username ∧
        (if u.username = s then { u with connected } else u).id = u.id := by
      intro u
      split
      · exact ⟨rfl, rfl⟩
      · exact ⟨rfl, rfl⟩
    simp only [if_true, Tables.marque, List.mem_map]
    constructor
    · rintro ⟨_, ⟨u, hu, rfl⟩, hP⟩
      rw [(hmarque u).1, (hmarque u).2] at hP
      exact ⟨u, hu, hP⟩
    · rintro ⟨u, hu, hP⟩
      refine ⟨_, ⟨u, hu, rfl⟩, ?_⟩
      rw [(hmarque u).1, (hmarque u).2]
      exact hP

/-! ## Whole or not at all -/

theorem journal_ne (j : List Geste) : j ++ [.envoie (.authentificationResponse true), .libere .dataBase] ≠
    j ++ [.envoie (.authentificationResponse false)] := by
  intro h
  have hl := congrArg List.length h
  simp at hl

/-- A pseudonym with a quote or a null may be found by no lookup. -/
theorem not_atomique (hp : ¬ Propre c.usr.pseudo) :
    ¬ Atomique (o.avec (fun _ t => ⟨t, [], []⟩) (-1)) c := by
  have hexec : ∀ n t,
      (o.avec (fun _ t => ⟨t, [], []⟩) (-1)).sql.exec n (.getUserId c.usr.pseudo) t = ⟨t, [], []⟩ := by
    intro n t
    have hlu : ¬ (Ordre.getUserId c.usr.pseudo).Lu := by
      rw [Ordre.lu_iff]
      simpa [Ordre.chaines] using hp
    unfold Sqlite.exec
    rw [if_neg hlu]
    split
    · rfl
    · rfl
  have hno : ¬ 0 < (c.getUserId (o.avec (fun _ t => ⟨t, [], []⟩) (-1)) c.usr.pseudo 0).1 := by
    rw [getUserId_fst, hexec]
    exact Int.lt_irrefl 0
  have hid : ((c.insere (o.avec (fun _ t => ⟨t, [], []⟩) (-1))).fin (o.avec (fun _ t => ⟨t, [], []⟩) (-1))).usr.id =
      -1 := by
    unfold fin
    simp only [usr_addLombrics]
    rw [getUserId_fst]
    exact congrArg (fun r : Reponse => r.entiers.getLast?.getD (-1)) (hexec _ _)
  unfold Atomique
  rw [registerUser_eq, if_neg hno]
  rintro (⟨u, _, _, _, _, hu, _⟩ | ⟨_, _, _, _, hj⟩)
  · rw [note_usr, hid] at hu
    omega
  · have hjournal := journal_registerUser (o.avec (fun _ t => ⟨t, [], []⟩) (-1)) c
    rw [registerUser_eq, if_neg hno, if_neg hno] at hjournal
    exact journal_ne _ (hjournal.symm.trans hj)

/-- The id of the connection after a registration that is accepted. -/
def idInscrit (o : Outils) (c : Contexte) : Int :=
  if o.sql.ok (c.pas + 2) then ((c.inseres o).idDe c.usr.pseudo).getD o.indefini else o.indefini

/-- **For a clean pseudonym**: it is taken, or its account has the id of the connection and eight worms. -/
theorem atomique_propre (hp : Propre c.usr.pseudo) (hh : Propre (o.hashpw (c.pas + 1) c.usr.password)) :
    Atomique o c ↔ c.dejaPris o = true ∨ ∃ u ∈ (c.inseres o).users, u.username = c.usr.pseudo ∧
      (u.id : Int) = c.idInscrit o ∧ 8 ≤ possedes u.id c.tables + reussis o.sql (c.pas + 4) 8 := by
  have hconnu : (c.getUserId o c.usr.pseudo 0).1 = c.connu o c.usr.pseudo := by
    rw [getUserId_fst, exec_getUserId hp, getLast_lu]
    rfl
  have hj := journal_registerUser o c
  rw [hconnu] at hj
  unfold Atomique dejaPris
  rcases registerUser_propre (o := o) hp hh with ⟨hpos, _, husr, ht⟩ | ⟨hpos, _, husr, c', htc, hpas, ht⟩
  · rw [if_pos hpos] at hj
    exact iff_of_true (Or.inr ⟨by rw [ht], by rw [ht], by rw [husr], by rw [husr], hj⟩)
      (Or.inl (decide_eq_true hpos))
  · rw [if_neg hpos] at hj
    have hid : (c.registerUser o).2.usr.id = c.idInscrit o := by rw [husr]; rfl
    have husers : (c.registerUser o).2.tables.users = c'.tables.users := by rw [ht, tables_addLombrics]
    have hworms : possedes (c.idInscrit o) (c.registerUser o).2.tables =
        possedes (c.idInscrit o) c.tables + reussis o.sql (c.pas + 4) 8 := by
      have hc' : possedes (c.idInscrit o) c'.tables = possedes (c.idInscrit o) c.tables := by
        rw [htc]
        cases o.sql.ok (c.pas + 3) <;> cases o.sql.ok (c.pas + 1) <;> rfl
      have hadd := possedes_addLombrics (o := o) (c.idInscrit o) 8 0 c'
      rw [hpas, hc'] at hadd
      rw [ht]
      exact hadd
    have hmarque := exists_marque (o.sql.ok (c.pas + 3)) true (c.inseres o) c.usr.pseudo fun username id =>
      username = c.usr.pseudo ∧ (id : Int) = c.idInscrit o ∧
        8 ≤ possedes id c.tables + reussis o.sql (c.pas + 4) 8
    rw [or_iff_right (show ¬ decide (0 < c.connu o c.usr.pseudo) = true by simpa using hpos), ← hmarque]
    constructor
    · rintro (⟨u, hu, hname, h8, _, heq, _⟩ | ⟨_, _, _, _, hj'⟩)
      · rw [hid] at heq
        rw [husers, htc] at hu
        rw [← heq, hworms, heq] at h8
        exact ⟨u, hu, hname, heq.symm, h8⟩
      · exact absurd (hj.symm.trans hj') (journal_ne _)
    · rintro ⟨u, hu, hname, heq, h8⟩
      refine Or.inl ⟨u, ?_, hname, ?_, by rw [husr], by rw [hid, heq], hj⟩
      · rw [husers, htc]
        exact hu
      · rw [heq, hworms, ← heq]
        exact h8

/-- **A registration is done whole or not at all**, whatever SQLite makes of another text and whatever an unset
variable holds, if and only if its pseudonym has no quote and no null and either the first lookup finds an
account, or the second finds one that has eight worms, those it had with those whose statements succeed. -/
theorem atomique_iff (o : Outils) (c : Contexte) (hh : Propre (o.hashpw (c.pas + 1) c.usr.password)) :
    (∀ autre indefini, Atomique (o.avec autre indefini) c) ↔
      Propre c.usr.pseudo ∧ (c.dejaPris o = true ∨ c.Complete o) := by
  by_cases hp : Propre c.usr.pseudo
  · have hiff := fun autre indefini => atomique_propre (o := o.avec autre indefini) hp hh
    rw [and_iff_right hp]
    constructor
    · intro h
      -- no user has the id -1
      refine ((hiff o.sql.autre (-1)).mp (h _ _)).imp (fun h => h) ?_
      rintro ⟨u, hu, hname, hid, h8⟩
      unfold idInscrit at hid
      split at hid
      · next hok =>
        cases hidDe : ((c.inseres (o.avec o.sql.autre (-1))).idDe c.usr.pseudo) with
        | none =>
          rw [hidDe] at hid
          exact absurd hid (by simp [Outils.avec])
        | some id =>
          rw [hidDe] at hid
          have hid : (u.id : Int) = id := hid
          exact ⟨hok, id, hidDe, hid ▸ h8⟩
      · exact absurd hid (by simp [Outils.avec])
    · intro h autre indefini
      refine (hiff autre indefini).mpr (h.imp (fun h => h) ?_)
      rintro ⟨hok, id, hidDe, h8⟩
      obtain ⟨u, hu, hname, rfl⟩ := Tables.exists_of_idDe hidDe
      refine ⟨u, hu, hname, ?_, h8⟩
      have hidDe' : (c.inseres (o.avec autre indefini)).idDe c.usr.pseudo = some (u.id : Int) := hidDe
      rw [idInscrit, if_pos (by exact hok), hidDe']
      rfl
  · exact iff_of_false (fun h => not_atomique hp (h _ _)) fun h => hp h.1

/-! ## A statement that fails -/

/-- Every statement succeeds, but for number `n`. -/
def outilsSauf (n : Nat) : Outils :=
  { outilsSimples with sql := { outilsSimples.sql with ok := fun i => i ≠ n } }

/-- "a" registers; there is no account. -/
def nouvelle : Contexte := ⟨⟨[], [], [], [], []⟩, 0, ⟨false, "a", "b", false, -1⟩, []⟩

/-- The insertion of the user fails: the client is told true, and there is no account; or that of a worm. -/
theorem insertion_ratee : ¬ Atomique (outilsSauf 1) nouvelle ∧
    (nouvelle.registerUser (outilsSauf 1)).1 = 1 ∧
    (nouvelle.registerUser (outilsSauf 1)).2.usr.isAuth = true ∧
    (nouvelle.registerUser (outilsSauf 1)).2.tables.users = [] ∧
    ¬ Atomique (outilsSauf 4) nouvelle ∧
    (nouvelle.registerUser (outilsSauf 4)).2.tables.worms.length = 7 := by
  have hclean : Propre nouvelle.usr.pseudo := by decide
  refine ⟨?_, by decide +kernel, by decide +kernel, by decide +kernel, ?_, by decide +kernel⟩
  · rw [atomique_propre hclean (by decide)]
    decide +kernel
  · rw [atomique_propre hclean (by decide)]
    decide +kernel

/-- Where all succeed it is done whole. -/
theorem insertion_faite : Atomique (outilsSimples.avec (fun _ t => ⟨t, [], []⟩) 7) nouvelle :=
  (atomique_iff outilsSimples nouvelle (by decide)).mpr
    ⟨by decide, Or.inr ⟨rfl, 1, by decide +kernel, by decide +kernel⟩⟩ _ _

end Contexte
end LombricABrac
