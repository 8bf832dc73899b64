import LombricABrac.Chronique
import LombricABrac.Tours

/-!
# The indexes that messages decide

`m_lomb_nb` is what the last CLIENT_MODIFY_NB_LOMBRICS gave, cut to a byte: nothing compares it with
the 8 slots of `m_Lombrics`, with the list that `get_x_lombrics` filled, or with 0 before the `%` of
`getNextLombricId`.  `id_arme` goes from the message to `armesVector` as it is.  Each call of a handler
is given with the accesses that it makes, in order, up to the first that is not valid.

    Joueur.initWorms_of_valides   : a call whose accesses are valid does not fault; so for each function
                                    that has such a list, and for the handlers
    Salle.handleRoom_of_valides   : a message of the lobby
    Salle.endRound_of_valides     : a round, as far as its search for a turn ends
    Salle.arme_of_traite          : a shot with a weapon past the vector faults
    Thread.acces                  : the accesses of one step of the thread
    Thread.garde_borne            : what a guarded run keeps: the cursor at 0 in the lobby, counts of 8 at
                                    most, no worm where each player has 0
    Thread.acces_valides_of_reach : in every guarded run each access is valid, and the guard is exact
    Thread.fautifs                : without it each of the five kinds goes wrong
-/

namespace LombricABrac

/-- `armesVector` has 3 entries. -/
theorem Partie.idArme_lt_of_shoot {calculDirVect : Direction} {tir : Tir} {p p' : Partie}
    (h : p.shoot calculDirVect tir = some p') : tir.idArme < 3 := by
  unfold shoot at h
  split at h
  · next h0 => omega
  · next h1 => omega
  · next h2 => omega
  · cases h

/-- An access with its bound: `% n`, `m_Lombrics[i]`, `id_lomb_mort(i)`, `m_players[i]`,
`armesVector[i]`. -/
inductive Acces where
  | modulo (n : Nat)
  | lombric (i : Nat)
  | idLombMort (i size : Nat)
  | joueur (i size : Nat)
  | arme (i : Nat)
  deriving DecidableEq

namespace Acces

/-- `m_Lombrics` has 8 slots, `setParam` puts 3 weapons into `armesVector`. -/
def Valide : Acces → Prop
  | .modulo n => n ≠ 0
  | .lombric i => i < 8
  | .idLombMort i size => i < size
  | .joueur i size => i < size
  | .arme i => i < 3

instance : DecidablePred Valide
  | .modulo n => inferInstanceAs (Decidable (n ≠ 0))
  | .lombric i => inferInstanceAs (Decidable (i < 8))
  | .idLombMort i size => inferInstanceAs (Decidable (i < size))
  | .joueur i size => inferInstanceAs (Decidable (i < size))
  | .arme i => inferInstanceAs (Decidable (i < 3))

end Acces

/-! ## The accesses of a player -/

namespace Joueur

/-- `add_worms`, from slot `x` on: it reads up to the first empty slot. -/
def accesAddWorms : Nat → Nat → List Nat → List Acces
  | 0, _, _ => []
  | _ + 1, x, [] => [.lombric x]
  | n + 1, x, y :: l => .lombric x :: if y = 0 then [] else accesAddWorms n (x + 1) l

/-- The loop of `init_worms` over the values of `x` left, with the slots as they are. -/
def accesInit (lombs : List Nat) (lombNb : Nat) : List Nat → List Nat → List Acces
  | [], _ => []
  | x :: reste, l => .idLombMort x lombs.length ::
    match lombs[x]? with
    | none => []
    | some worm => accesAddWorms lombNb 0 l ++
      match addWorms worm lombNb l with
      | none => []
      | some l => accesInit lombs lombNb reste l

def accesInitWorms (db : DataBase) (lombNb : Nat) (j : Joueur) : List Acces :=
  accesInit (db.getXLombrics j.playerId lombNb) lombNb (List.range lombNb) j.lombrics

/-- A loop that looks at the worms of some slots, up to one that lives; `avant` comes before each. -/
def accesJusque (obj : Partie) (avant : List Acces) (j : Joueur) : List Nat → List Acces
  | [] => []
  | i :: reste => avant ++ .lombric i ::
    if (j.lombrics[i]?).any obj.isLombAlive then [] else accesJusque obj avant j reste

def accesGetNextLombricId (obj : Partie) (nbLomb : Nat) (j : Joueur) : List Acces :=
  j.accesJusque obj [.modulo nbLomb]
    ((List.range' 1 j.nbrLomb).map fun next => (next + j.currentLombric) % nbLomb)

def accesIsStillAlive (obj : Partie) (j : Joueur) : List Acces :=
  j.accesJusque obj [] (List.range j.nbrLomb)

end Joueur

/-! ## The accesses of a room -/

namespace Game

def accesGetNextLombricId (g : Game) : List Acces :=
  .joueur g.currentPlayerId g.players.length ::
    match g.players[g.currentPlayerId]?, g.gameObject with
    | some j, some obj => if j.equipe = 0 then [] else j.accesGetNextLombricId obj g.lombNb
    | _, _ => []

/-- The `do … while` of `end_round`. -/
def accesChercheTour : Nat → Game → List Acces
  | 0, _ => []
  | fuel + 1, g => g.joueurSuivant.accesGetNextLombricId ++
    match g.joueurSuivant.getNextLombricId with
    | some (0, g) => accesChercheTour fuel g
    | _ => []

def accesNbAliveTeams (g : Game) : List Acces :=
  match g.gameObject with
  | none => []
  | some obj => g.players.flatMap fun j => if j.equipe = 0 then [] else j.accesIsStillAlive obj

def accesEndRound (env : Env) (g : Game) : List Acces :=
  match g.monteeEau env with
  | none => []
  | some g => g.accesNbAliveTeams ++
    match g.nbAliveTeams env.lastTeam with
    | none => []
    | some (nbrTeam, _) => if nbrTeam ≤ 1 then [] else g.accesChercheTour env.fuel

/-- `get_lombric_id(j)`, for each player who has a team. -/
def accesSpawnLombric (g : Game) : List Acces :=
  g.players.flatMap fun j => if j.equipe = 0 then [] else (List.range g.lombNb).map .lombric

def accesStart (serveur : Serveur) (env : Env) (g : Game) : List Acces :=
  g.accesSpawnLombric ++
    match g.spawnLombric serveur env with
    | none => []
    | some obj => (g.commence env obj).accesGetNextLombricId

end Game

/-- The `id_arme` of a shot. -/
def ZmqMsg.idArme (m : ZmqMsg) : Option Nat :=
  match m.contenu with
  | .shoot tir => some tir.idArme
  | _ => none

namespace Salle

def accesHandleRoom (serveur : Serveur) (env : Env) (m : ZmqMsg) (s : Salle) : List Acces :=
  match m.contenu with
  | .infoRoom =>
    { Joueur.new with playerId := m.receiverId, nbrLomb := s.jeu.lombNb }.accesInitWorms s.db s.jeu.lombNb
  | .start => if m.receiverId = s.jeu.ownerId then s.jeu.accesStart serveur env else []
  | _ => []

/-- `useWeapon` reads `armesVector` first. -/
def accesHandleGame (serveur : Serveur) (env : Env) (m : ZmqMsg) (s : Salle) : List Acces :=
  m.idArme.toList.map .arme ++
  match s.traite serveur env m with
  | some (s, true) => s.jeu.accesEndRound env
  | _ => []

end Salle

namespace Thread

/-- The accesses of one step: a message of the lobby, a message of the game, or the round timer. -/
def acces (serveur : Serveur) (e : Evenement) (th : Thread) : List Acces :=
  match th.lieu, e with
  | .salleMsg m, .suite env db => Salle.accesHandleRoom serveur env m { th.salle with db }
  | .partieMsg m, .suite env db => Salle.accesHandleGame serveur env m { th.salle with db }
  | .minuterie, .suite env _ =>
    if th.salle.jeu.checkRoundTime env.heureRound then th.salle.jeu.accesEndRound env else []
  | _, _ => []

end Thread

/-! ## The accesses of a call -/

namespace Joueur

variable {obj : Partie} {j : Joueur} {a : Acces}

theorem mem_accesAddWorms (l : List Nat) : ∀ {n x : Nat}, a ∈ accesAddWorms n x l →
    ∃ i, i < x + n ∧ a = .lombric i := by
  induction l with
  | nil =>
    intro n x ha
    cases n with
    | zero => cases ha
    | succ n => exact ⟨x, by omega, List.mem_singleton.mp ha⟩
  | cons y l ih =>
    intro n x ha
    cases n with
    | zero => cases ha
    | succ n =>
      rw [accesAddWorms] at ha
      rcases List.mem_cons.mp ha with rfl | ha
      · exact ⟨x, by omega, rfl⟩
      · split at ha
        · cases ha
        · obtain ⟨i, hi, he⟩ := ih ha
          exact ⟨i, by omega, he⟩

theorem mem_accesInit {lombs : List Nat} {lombNb : Nat} (reste : List Nat) : ∀ {l : List Nat},
    a ∈ accesInit lombs lombNb reste l →
      (∃ x ∈ reste, a = .idLombMort x lombs.length) ∨ ∃ i, i < lombNb ∧ a = .lombric i := by
  induction reste with
  | nil =>
    intro l ha
    cases ha
  | cons x reste ih =>
    intro l ha
    rw [accesInit] at ha
    rcases List.mem_cons.mp ha with rfl | ha
    · exact Or.inl ⟨x, List.mem_cons_self, rfl⟩
    · split at ha
      · cases ha
      · rcases List.mem_append.mp ha with ha | ha
        · obtain ⟨i, hi, he⟩ := mem_accesAddWorms _ ha
          exact Or.inr ⟨i, by omega, he⟩
        · split at ha
          · cases ha
          · refine (ih ha).imp_left ?_
            rintro ⟨y, hy, he⟩
            exact ⟨y, List.mem_cons_of_mem _ hy, he⟩

/-- Worms for each slot, and a slot for each worm. -/
theorem accesInitWorms_valides {db : DataBase} {lombNb : Nat} (h8 : lombNb ≤ 8)
    (hdb : lombNb ≤ (db.lombricsDe j.playerId).length) : ∀ a ∈ j.accesInitWorms db lombNb, a.Valide := by
  intro a ha
  rcases mem_accesInit _ ha with ⟨x, hx, rfl⟩ | ⟨i, hi, rfl⟩
  · have hx := List.mem_range.mp hx
    have hlen : (db.getXLombrics j.playerId lombNb).length = lombNb := by
      rw [DataBase.getXLombrics, List.length_take]
      omega
    exact lt_of_lt_of_eq hx hlen.symm
  · exact lt_of_lt_of_le hi h8

theorem length_addWorms {worm : Nat} (l : List Nat) : ∀ {n : Nat} {l' : List Nat},
    addWorms worm n l = some l' → l'.length = l.length := by
  induction l with
  | nil =>
    intro n l' h
    cases n with
    | zero =>
      cases h
      rfl
    | succ n => cases h
  | cons y l ih =>
    intro n l' h
    cases n with
    | zero =>
      cases h
      rfl
    | succ n =>
      rw [addWorms] at h
      split at h
      · cases h
        rfl
      · obtain ⟨l₁, hl₁, rfl⟩ := Option.map_eq_some_iff.mp h
        exact congrArg (· + 1) (ih hl₁)

/-- A full array is read past its end. -/
theorem mem_of_addWorms_eq_none {worm : Nat} (l : List Nat) : ∀ {n x : Nat}, addWorms worm n l = none →
    .lombric (x + l.length) ∈ accesAddWorms n x l := by
  induction l with
  | nil =>
    intro n x h
    cases n with
    | zero => cases h
    | succ n => exact List.mem_singleton_self _
  | cons y l ih =>
    intro n x h
    cases n with
    | zero => cases h
    | succ n =>
      rw [addWorms] at h
      split at h
      · cases h
      · next hy =>
        have hmem := ih (x := x + 1) (Option.map_eq_none_iff.mp h)
        rw [accesAddWorms, if_neg hy, List.length_cons, Nat.add_comm l.length, ← Nat.add_assoc]
        exact List.mem_cons_of_mem _ hmem

/-- More worms than the list has: it is read past its end, if the array is not before. -/
theorem exists_invalide_init {lombs : List Nat} {lombNb : Nat} (n : Nat) : ∀ {x : Nat} {l : List Nat},
    x ≤ lombs.length → lombs.length < x + n → l.length = 8 →
      ∃ a ∈ accesInit lombs lombNb (List.range' x n) l, ¬ a.Valide := by
  induction n with
  | zero =>
    intro x l hx hlt _
    omega
  | succ n ih =>
    intro x l hx hlt hl
    rw [List.range'_succ, accesInit]
    rcases Nat.lt_or_ge x lombs.length with hlx | hlx
    · rw [List.getElem?_eq_getElem hlx]
      simp only
      cases hadd : addWorms lombs[x] lombNb l with
      | none =>
        have hmem := mem_of_addWorms_eq_none (x := 0) l hadd
        rw [hl] at hmem
        exact ⟨_, List.mem_cons_of_mem _ (List.mem_append_left _ hmem), Nat.lt_irrefl 8⟩
      | some l' =>
        obtain ⟨a, ha, hv⟩ := ih (x := x + 1) hlx (by omega) ((length_addWorms l hadd).trans hl)
        exact ⟨a, List.mem_cons_of_mem _ (List.mem_append_right _ ha), hv⟩
    · exact ⟨_, List.mem_cons_self, Nat.not_lt.mpr hlx⟩

/-- `init_worms` faults on these accesses only.  Induction on the worms left. -/
theorem foldlM_of_accesInit {lombs : List Nat} {lombNb : Nat} (n : Nat) : ∀ {x : Nat} {l : List Nat},
    x + n = lombs.length → l.length = 8 →
      (∀ a ∈ accesInit lombs lombNb (List.range' x n) l, a.Valide) →
        ∃ l', (lombs.drop x).foldlM (fun l worm => addWorms worm lombNb l) l = some l' := by
  induction n with
  | zero =>
    intro x l hx _ _
    rw [List.drop_eq_nil_of_le (by omega)]
    exact ⟨l, rfl⟩
  | succ n ih =>
    intro x l hx hl h
    have hlt : x < lombs.length := by omega
    rw [List.range'_succ, accesInit, List.getElem?_eq_getElem hlt] at h
    rw [List.drop_eq_getElem_cons hlt, List.foldlM_cons]
    cases hadd : addWorms lombs[x] lombNb l with
    | none =>
      have hmem := mem_of_addWorms_eq_none (x := 0) l hadd
      rw [Nat.zero_add, hl] at hmem
      exact absurd (h _ (List.mem_cons_of_mem _ (List.mem_append_left _ hmem))) (Nat.lt_irrefl 8)
    | some l' =>
      simp only [hadd] at h
      exact ih (by omega) ((length_addWorms l hadd).trans hl) fun a ha =>
        h a (List.mem_cons_of_mem _ (List.mem_append_right _ ha))

theorem initWorms_of_valides {db : DataBase} {lombNb : Nat} (hl : j.lombrics.length = 8)
    (h : ∀ a ∈ j.accesInitWorms db lombNb, a.Valide) : ∃ j', j.initWorms db lombNb = some j' := by
  unfold accesInitWorms at h
  rw [List.range_eq_range'] at h
  have hle : (db.getXLombrics j.playerId lombNb).length ≤ lombNb := List.length_take_le _ _
  have hge : ¬ (db.getXLombrics j.playerId lombNb).length < lombNb := by
    intro hlt
    obtain ⟨a, ha, hv⟩ : ∃ a ∈ accesInit (db.getXLombrics j.playerId lombNb) lombNb
        (List.range' 0 lombNb) j.lombrics, ¬ a.Valide :=
      exists_invalide_init lombNb (Nat.zero_le _) (by omega) hl
    exact hv (h a ha)
  obtain ⟨l', hl'⟩ := foldlM_of_accesInit lombNb (by omega) hl h
  rw [List.drop_zero] at hl'
  refine ⟨{ j with lombrics := l' }, ?_⟩
  rw [initWorms, if_neg hge, hl']
  rfl

theorem mem_accesJusque {avant : List Acces} (l : List Nat) (ha : a ∈ j.accesJusque obj avant l) :
    l ≠ [] ∧ a ∈ avant ∨ ∃ i ∈ l, a = .lombric i := by
  induction l with
  | nil => cases ha
  | cons i l ih =>
    rw [accesJusque] at ha
    rcases List.mem_append.mp ha with ha | ha
    · exact Or.inl ⟨List.cons_ne_nil i l, ha⟩
    · rcases List.mem_cons.mp ha with rfl | ha
      · exact Or.inr ⟨i, List.mem_cons_self, rfl⟩
      · split at ha
        · cases ha
        · rcases ih ha with ⟨_, ha⟩ | ⟨k, hk, he⟩
          · exact Or.inl ⟨List.cons_ne_nil i l, ha⟩
          · exact Or.inr ⟨k, List.mem_cons_of_mem _ hk, he⟩

theorem modulo_mem {nbLomb : Nat} (h0 : j.nbrLomb ≠ 0) :
    .modulo nbLomb ∈ j.accesGetNextLombricId obj nbLomb := by
  obtain ⟨n, hn⟩ := Nat.exists_eq_succ_of_ne_zero h0
  rw [accesGetNextLombricId, hn, List.range'_succ]
  exact List.mem_cons_self

theorem accesGetNextLombricId_valides {nbLomb : Nat} (h0 : j.nbrLomb ≠ 0 → nbLomb ≠ 0) (h8 : nbLomb ≤ 8) :
    ∀ a ∈ j.accesGetNextLombricId obj nbLomb, a.Valide := by
  intro a ha
  have hne : List.range' 1 j.nbrLomb ≠ [] → nbLomb ≠ 0 := fun h => h0 fun hn => h (by rw [hn]; rfl)
  rcases mem_accesJusque _ ha with ⟨hl, ha⟩ | ⟨i, hi, rfl⟩
  · rw [List.mem_singleton.mp ha]
    exact hne fun hl' => hl (by rw [hl']; rfl)
  · obtain ⟨next, hnext, rfl⟩ := List.mem_map.mp hi
    have hpos := hne (List.ne_nil_of_mem hnext)
    exact lt_of_lt_of_le (Nat.mod_lt _ (Nat.pos_of_ne_zero hpos)) h8

/-- `getNextLombricId` faults on these accesses only; with `nbr_lomb = 255` it may have no end. -/
theorem getNextLombricId_of_valides {nbLomb : Nat} (hl : j.lombrics.length = 8) (h255 : j.nbrLomb ≠ 255)
    (h : ∀ a ∈ j.accesGetNextLombricId obj nbLomb, a.Valide) : ∃ r, j.getNextLombricId obj nbLomb = some r := by
  unfold accesGetNextLombricId at h
  unfold getNextLombricId
  generalize List.range' 1 j.nbrLomb = l at h ⊢
  induction l with
  | nil => exact ⟨_, if_neg h255⟩
  | cons next reste ih =>
    rw [List.map_cons, accesJusque] at h
    have h0 : nbLomb ≠ 0 := h (.modulo nbLomb) List.mem_cons_self
    have h8 : (next + j.currentLombric) % nbLomb < j.lombrics.length := by
      rw [hl]
      exact h (.lombric _) (List.mem_cons_of_mem _ List.mem_cons_self)
    rw [chercheLombric, if_neg h0]
    simp only [List.getElem?_eq_getElem h8, Option.any_some] at h ⊢
    split
    · exact ⟨_, rfl⟩
    · next ha =>
      rw [if_neg ha] at h
      exact ih fun a hmem => h a (List.mem_cons_of_mem _ (List.mem_cons_of_mem _ hmem))

theorem accesIsStillAlive_valides (h8 : j.nbrLomb ≤ 8) : ∀ a ∈ j.accesIsStillAlive obj, a.Valide := by
  intro a ha
  rcases mem_accesJusque _ ha with ⟨_, ha⟩ | ⟨i, hi, rfl⟩
  · cases ha
  · exact lt_of_lt_of_le (List.mem_range.mp hi) h8

/-- `is_still_alive` faults on these accesses only.  Induction on the slots left. -/
theorem isStillAlive_of_valides (hl : j.lombrics.length = 8) (h : ∀ a ∈ j.accesIsStillAlive obj, a.Valide) :
    ∃ b, j.isStillAlive obj = some b := by
  unfold accesIsStillAlive at h
  unfold isStillAlive
  generalize List.range j.nbrLomb = l at h ⊢
  induction l with
  | nil => exact ⟨false, rfl⟩
  | cons i reste ih =>
    rw [accesJusque, List.nil_append] at h
    have h8 : i < j.lombrics.length := by
      rw [hl]
      exact h (.lombric i) List.mem_cons_self
    rw [chercheVivant]
    simp only [List.getElem?_eq_getElem h8, Option.any_some] at h ⊢
    split
    · exact ⟨true, rfl⟩
    · next ha =>
      rw [if_neg ha] at h
      exact ih fun a hmem => h a (List.mem_cons_of_mem _ hmem)

/-- What the code takes for granted of a player: 8 slots, and a search that ends. -/
structure EnOrdre (j : Joueur) : Prop where
  lombrics : j.lombrics.length = 8
  nbrLomb : j.nbrLomb ≠ 255

/-- Cursors apart, the same player. -/
theorem EnOrdre.of_fixe {j' : Joueur} (h : j.EnOrdre) (hf : j'.fixe = j.fixe) : j'.EnOrdre :=
  ⟨(congrArg List.length (eq_of_fixe Joueur.lombrics (fun _ => rfl) hf)).trans h.lombrics,
    fun h255 => h.nbrLomb ((eq_of_fixe Joueur.nbrLomb (fun _ => rfl) hf).symm.trans h255)⟩

end Joueur

namespace Game

variable {g g' : Game} {env : Env} {serveur : Serveur}

theorem accesGetNextLombricId_valides (hc : g.currentPlayerId < g.players.length)
    (hj : ∀ j, g.players[g.currentPlayerId]? = some j → j.equipe ≠ 0 →
      (j.nbrLomb ≠ 0 → g.lombNb ≠ 0) ∧ g.lombNb ≤ 8) :
    ∀ a ∈ g.accesGetNextLombricId, a.Valide := by
  intro a ha
  rw [accesGetNextLombricId] at ha
  rcases List.mem_cons.mp ha with rfl | ha
  · exact hc
  · split at ha
    · next j obj hgj _ =>
      split at ha
      · cases ha
      · next he =>
        obtain ⟨h0, h8⟩ := hj j hgj he
        exact Joueur.accesGetNextLombricId_valides h0 h8 a ha
    · cases ha

/-- The search of a turn.  Induction on its bound: a call moves a cursor only. -/
theorem accesChercheTour_valides (fuel : Nat) : ∀ g : Game, g.players ≠ [] → g.lombNb ≠ 0 →
    g.lombNb ≤ 8 → ∀ a ∈ g.accesChercheTour fuel, a.Valide := by
  induction fuel with
  | zero =>
    intro g _ _ _ a ha
    cases ha
  | succ fuel ih =>
    intro g hne h0 h8 a ha
    rw [accesChercheTour] at ha
    rcases List.mem_append.mp ha with ha | ha
    · have hlen := List.length_pos_iff.mpr hne
      exact accesGetNextLombricId_valides (joueurSuivant_lt hlen) (fun j _ _ => ⟨fun _ => h0, h8⟩) a ha
    · split at ha
      · next g' hg' =>
        have hf : g'.fixe = g.fixe := (getNextLombricId_spec hg').1
        have hlen := length_of_fixe hf
        refine ih g' (fun hnil => hne ?_) ?_ ?_ a ha
        · rw [hnil] at hlen
          exact List.eq_nil_of_length_eq_zero hlen.symm
        · rwa [lombNb_of_fixe hf]
        · rwa [lombNb_of_fixe hf]
      · cases ha

/-! ## The functions fault on these accesses only -/

theorem getNextLombricId_of_valides {obj : Partie} (hobj : g.gameObject = some obj)
    (hj : ∀ j ∈ g.players, j.EnOrdre) (h : ∀ a ∈ g.accesGetNextLombricId, a.Valide) :
    ∃ r, g.getNextLombricId = some r := by
  rw [accesGetNextLombricId] at h
  have hlt : g.currentPlayerId < g.players.length := h _ List.mem_cons_self
  have hreg := hj _ (List.getElem_mem hlt)
  rw [getNextLombricId]
  simp only [List.getElem?_eq_getElem hlt, hobj, Option.bind_some] at h ⊢
  split
  · exact ⟨_, rfl⟩
  · next he =>
    rw [if_neg he] at h
    obtain ⟨r, hr⟩ := Joueur.getNextLombricId_of_valides hreg.lombrics hreg.nbrLomb fun a ha =>
      h a (List.mem_cons_of_mem _ ha)
    rw [hr]
    exact ⟨_, rfl⟩

/-- A search that finds nobody in `n` calls. -/
def Sterile : Nat → Game → Prop
  | 0, _ => True
  | n + 1, g => ∃ g', g.joueurSuivant.getNextLombricId = some (0, g') ∧ Sterile n g'

/-- The `do … while` finds a worm or goes on.  Induction on its bound. -/
theorem chercheTour_of_valides {obj : Partie} (fuel : Nat) : ∀ g : Game, g.gameObject = some obj →
    (∀ j ∈ g.players, j.EnOrdre) → (∀ a ∈ g.accesChercheTour fuel, a.Valide) →
      (∃ r, g.chercheTour fuel = some r) ∨ g.Sterile fuel := by
  induction fuel with
  | zero =>
    intro g _ _ _
    exact Or.inr trivial
  | succ fuel ih =>
    intro g hobj hj h
    rw [accesChercheTour] at h
    obtain ⟨⟨id, g'⟩, hr⟩ := getNextLombricId_of_valides (g := g.joueurSuivant) hobj hj fun a ha =>
      h a (List.mem_append_left _ ha)
    rw [chercheTour, Sterile, hr]
    rw [hr] at h
    cases id with
    | zero =>
      have hf : g'.fixe = g.fixe := (getNextLombricId_spec hr).1
      have hj' : ∀ j ∈ g'.players, j.EnOrdre := by
        intro j' hmem
        obtain ⟨j, hmem, hfj⟩ := mem_of_fixe_eq hf hmem
        exact (hj j hmem).of_fixe hfj
      rcases ih g' ((gameObject_of_fixe hf).trans hobj) hj' fun a ha => h a (List.mem_append_right _ ha)
        with hret | hst
      · exact Or.inl hret
      · exact Or.inr ⟨g', rfl, hst⟩
    | succ n => exact Or.inl ⟨_, rfl⟩

/-- With teams of 4 at most `m_alive_team` has a place for each.  Induction on the players left. -/
theorem compteEquipes_of_valides {obj : Partie} (js : List Joueur) :
    (∀ j ∈ js, j.EnOrdre ∧ j.equipe ≤ 4) →
    (∀ a ∈ js.flatMap fun j => if j.equipe = 0 then [] else j.accesIsStillAlive obj, a.Valide) →
      ∀ aliveTeam nbrTeams lastTeam, ∃ r, compteEquipes obj js aliveTeam nbrTeams lastTeam = some r := by
  induction js with
  | nil =>
    intro _ _ aliveTeam nbrTeams lastTeam
    exact ⟨_, rfl⟩
  | cons j js ih =>
    intro hj h aliveTeam nbrTeams lastTeam
    rw [List.flatMap_cons] at h
    have hreste := ih (fun k hk => hj k (List.mem_cons_of_mem _ hk)) fun a ha => h a (List.mem_append_right _ ha)
    obtain ⟨hreg, h4⟩ := hj j List.mem_cons_self
    rw [compteEquipes]
    split
    · exact hreste _ _ _
    · next he =>
      rw [if_neg he] at h
      obtain ⟨vivant, hv⟩ := Joueur.isStillAlive_of_valides hreg.lombrics fun a ha =>
        h a (List.mem_append_left _ ha)
      rw [hv]
      cases vivant with
      | false => exact hreste _ _ _
      | true =>
        simp only
        rw [if_neg (Nat.not_lt.mpr h4)]
        split
        · exact hreste _ _ _
        · exact hreste _ _ _

theorem nbAliveTeams_of_valides {obj : Partie} (hobj : g.gameObject = some obj)
    (hj : ∀ j ∈ g.players, j.EnOrdre ∧ j.equipe ≤ 4) (h : ∀ a ∈ g.accesNbAliveTeams, a.Valide)
    (lastTeam : Nat) : ∃ r, g.nbAliveTeams lastTeam = some r := by
  rw [accesNbAliveTeams, hobj] at h
  rw [nbAliveTeams, hobj]
  exact compteEquipes_of_valides g.players hj h _ _ _

theorem idsLombrics_of_valides (hj : ∀ j ∈ g.players, j.EnOrdre) (h : ∀ a ∈ g.accesSpawnLombric, a.Valide) :
    ∃ ids, g.idsLombrics = some ids := by
  have hslot : ∀ j ∈ g.players.filter fun j => j.equipe ≠ 0, ((List.range g.lombNb).mapM fun i =>
      j.lombrics[i]?) = some ((List.range g.lombNb).map fun i => (j.lombrics[i]?).getD 0) := by
    intro j hmem
    obtain ⟨hmem, he⟩ := List.mem_filter.mp hmem
    refine mapM_of_forall _ fun i hi => ?_
    have hlt : i < j.lombrics.length := by
      rw [(hj j hmem).lombrics]
      refine h (.lombric i) (List.mem_flatMap.mpr ⟨j, hmem, ?_⟩)
      rw [if_neg (by simpa using he)]
      exact List.mem_map_of_mem hi
    rw [List.getElem?_eq_getElem hlt, Option.getD_some]
  rw [idsLombrics, mapM_of_forall _ hslot]
  exact ⟨_, rfl⟩

/-! ## What a guarded step keeps -/

/-- The counts that a room was given: each player looks at 8 slots at most; in a game so does the room,
where somebody plays, and a count of 0 has placed no worm. -/
structure Borne (g : Game) : Prop where
  nbrLomb : ∀ j ∈ g.players, j.nbrLomb ≤ 8
  lombNb : g.gameObject ≠ none → ∀ j ∈ g.players, j.equipe ≠ 0 → g.lombNb ≤ 8
  vers : ∀ obj, g.gameObject = some obj → g.lombNb = 0 → obj.vers = []

/-- In the lobby. -/
theorem Borne.of_lobby (hno : g.gameObject = none) (h : ∀ j ∈ g.players, j.nbrLomb ≤ 8) : g.Borne :=
  ⟨h, fun ho => absurd hno ho, fun obj ho => by rw [hno] at ho; cases ho⟩

/-- Cursors and the current player have no part in it. -/
theorem Borne.of_fixe (h : g.Borne) (hf : g'.fixe = g.fixe) : g'.Borne := by
  have hn := lombNb_of_fixe hf
  have ho := gameObject_of_fixe hf
  refine ⟨fun j' hj' => ?_, fun hobj j' hj' he' => ?_, fun obj hobj h0 => ?_⟩
  · obtain ⟨j, hj, he⟩ := mem_of_fixe_eq hf hj'
    rw [Joueur.eq_of_fixe Joueur.nbrLomb (fun _ => rfl) he]
    exact h.nbrLomb j hj
  · obtain ⟨j, hj, he⟩ := mem_of_fixe_eq hf hj'
    rw [Joueur.eq_of_fixe Joueur.equipe (fun _ => rfl) he] at he'
    rw [hn]
    exact h.lombNb (ho ▸ hobj) j hj he'
  · exact h.vers obj (ho ▸ hobj) (hn ▸ h0)

/-- The object changes, and gets no worm. -/
theorem Borne.avec (h : g.Borne) {obj obj' : Partie} (hobj : g.gameObject = some obj)
    (hv : obj'.vers ⊆ obj.vers) : Borne { g with gameObject := some obj' } where
  nbrLomb := h.nbrLomb
  lombNb _ := h.lombNb (by rw [hobj]; exact Option.some_ne_none obj)
  vers o ho h0 := by
    cases ho
    rw [h.vers obj hobj h0] at hv
    exact List.subset_nil.mp hv

theorem Borne.entre (h : g.Borne) (he : g.Entre g') : g'.Borne := by
  rcases he with rfl | ⟨obj, obj', hobj, rfl, he⟩
  · exact h
  · exact h.avec hobj he.vers

theorem Borne.handleQuit (h : g.Borne) (id : Nat) : (g.handleQuit id).Borne := by
  have hsub := (retire_sublist id g.players).subset
  exact ⟨fun j hj => h.nbrLomb j (hsub hj), fun ho j hj => h.lombNb ho j (hsub hj), h.vers⟩

/-- **The end of a round.**  Somebody who is counted has a living worm, so the `%` is not by 0. -/
theorem Borne.accesEndRound_valides (h : g.Borne) : ∀ a ∈ g.accesEndRound env, a.Valide := by
  intro a ha
  unfold accesEndRound at ha
  split at ha
  · cases ha
  · next g₁ hm =>
    have h₁ : g₁.Borne := h.entre (.of_monteeEau hm)
    rcases List.mem_append.mp ha with ha | ha
    · unfold accesNbAliveTeams at ha
      split at ha
      · cases ha
      · obtain ⟨j, hj, ha⟩ := List.mem_flatMap.mp ha
        split at ha
        · cases ha
        · exact Joueur.accesIsStillAlive_valides (h₁.nbrLomb j hj) a ha
    · split at ha
      · cases ha
      · next nbrTeam lastTeam hn =>
        split at ha
        · cases ha
        · obtain ⟨obj, j, i, id, hobj, hj, he, _, _, hv⟩ := nbAliveTeams_pos hn (by omega)
          refine accesChercheTour_valides env.fuel g₁ (List.ne_nil_of_mem hj) (fun h0 => ?_) ?_ a ha
          · have hid := Partie.mem_vers_of_alive hv
            rw [h₁.vers obj hobj h0] at hid
            cases hid
          · exact h₁.lombNb (by rw [hobj]; exact Option.some_ne_none obj) j hj he

/-- What START needs: a player for `m_current_player_id = 0`; no more worms than slots where somebody
plays; and a count for the `%` of the first player, unless it is a spectator or looks at no slot. -/
structure PeutDemarrer (g : Game) : Prop where
  joueurs : g.players ≠ []
  lombNb_le : ∀ j ∈ g.players, j.equipe ≠ 0 → g.lombNb ≤ 8
  lombNb_pos : ∀ j ∈ g.players.head?, j.equipe ≠ 0 → j.nbrLomb ≠ 0 → g.lombNb ≠ 0

instance (g : Game) : Decidable g.PeutDemarrer :=
  decidable_of_iff (g.players ≠ [] ∧ (∀ j ∈ g.players, j.equipe ≠ 0 → g.lombNb ≤ 8) ∧
      ∀ j ∈ g.players.head?, j.equipe ≠ 0 → j.nbrLomb ≠ 0 → g.lombNb ≠ 0)
    ⟨fun ⟨h, hl, h0⟩ => ⟨h, hl, h0⟩, fun h => ⟨h.joueurs, h.lombNb_le, h.lombNb_pos⟩⟩

/-- START with a count of 0 places no worm. -/
theorem vers_spawnLombric {obj : Partie} (h : g.spawnLombric serveur env = some obj) (h0 : g.lombNb = 0) :
    obj.vers = [] := by
  obtain ⟨f, ids, lombs, reste, _, hids, hl, rfl⟩ := spawnLombric_spec h
  refine List.eq_nil_iff_forall_not_mem.mpr fun id hid => ?_
  obtain ⟨n, hn, _⟩ := List.mem_filterMap.mp hid
  obtain ⟨s, hs, _⟩ := List.mem_map.mp hn
  obtain ⟨k, hk, _⟩ := Partie.corps_nouveauxLombrics hl hs
  obtain ⟨_, _, _, i, hi, _⟩ := mem_idsLombrics hids hk
  omega

theorem PeutDemarrer.accesStart_valides (h : g.PeutDemarrer) (hc : g.currentPlayerId = 0) :
    ∀ a ∈ g.accesStart serveur env, a.Valide := by
  intro a ha
  rcases List.mem_append.mp ha with ha | ha
  · obtain ⟨j, hj, ha⟩ := List.mem_flatMap.mp ha
    split at ha
    · cases ha
    · next he =>
      obtain ⟨i, hi, rfl⟩ := List.mem_map.mp ha
      exact lt_of_lt_of_le (List.mem_range.mp hi) (h.lombNb_le j hj he)
  · split at ha
    · cases ha
    · next obj _ =>
      have hcur : (g.commence env obj).currentPlayerId = 0 := hc
      refine accesGetNextLombricId_valides ?_ (fun j hj he => ⟨?_, ?_⟩) a ha
      · rw [hcur]
        exact List.length_pos_iff.mpr h.joueurs
      · rw [hcur, ← List.head?_eq_getElem?] at hj
        exact h.lombNb_pos j hj he
      · exact h.lombNb_le j (List.mem_of_getElem? hj) he

/-- START asks for nothing more, where the map could be read. -/
theorem peutDemarrer_of_valides (hc : g.currentPlayerId = 0) {obj : Partie}
    (hs : g.spawnLombric serveur env = some obj) (h : ∀ a ∈ g.accesStart serveur env, a.Valide) :
    g.PeutDemarrer := by
  have hspawn : ∀ a ∈ g.accesSpawnLombric, a.Valide := fun a ha => h a (List.mem_append_left _ ha)
  have hnext : ∀ a ∈ (g.commence env obj).accesGetNextLombricId, a.Valide := fun a ha =>
    h a (List.mem_append_right _ (by rwa [hs]))
  refine ⟨fun hnil => ?_, fun j hj he => ?_, fun j hj he hn h0 => ?_⟩
  · have hlt : g.currentPlayerId < g.players.length := hnext _ List.mem_cons_self
    rw [hnil] at hlt
    exact absurd hlt (Nat.not_lt_zero _)
  · by_contra hgt
    refine absurd (hspawn (.lombric 8) (List.mem_flatMap.mpr ⟨j, hj, ?_⟩)) (Nat.lt_irrefl 8)
    rw [if_neg he]
    exact List.mem_map_of_mem (List.mem_range.mpr (Nat.lt_of_not_ge hgt))
  · have hj0 : (g.commence env obj).players[(g.commence env obj).currentPlayerId]? = some j := by
      rw [show (g.commence env obj).currentPlayerId = 0 from hc, ← List.head?_eq_getElem?]
      exact hj
    refine hnext (.modulo g.lombNb) (List.mem_cons_of_mem _ ?_) h0
    rw [hj0]
    show .modulo g.lombNb ∈ if j.equipe = 0 then [] else j.accesGetNextLombricId obj g.lombNb
    rw [if_neg he]
    exact Joueur.modulo_mem hn

end Game

namespace Salle

variable {serveur : Serveur} {env : Env} {m : ZmqMsg} {s s' : Salle}

/-- A round that the water lets begin, with a number left for its box, ends unless its search goes on. -/
theorem endRound_of_valides {g : Game} {obj : Partie} (hm : s.jeu.monteeEau env = some g)
    (hobj : g.gameObject = some obj) (hj : ∀ j ∈ g.players, j.EnOrdre ∧ j.equipe ≤ 4)
    (hb : ∀ obj, ∃ r, g.caisse env obj = some r) (h : ∀ a ∈ s.jeu.accesEndRound env, a.Valide) :
    (∃ s', s.endRound env = some s') ∨ g.Sterile env.fuel := by
  rw [Game.accesEndRound, hm] at h
  obtain ⟨⟨nbrTeam, lastTeam⟩, hn⟩ := Game.nbAliveTeams_of_valides hobj hj
    (fun a ha => h a (List.mem_append_left _ ha)) env.lastTeam
  rw [endRound, hm]
  simp only [hn] at h ⊢
  split
  · exact Or.inl ⟨_, rfl⟩
  · next hgt =>
    rw [if_neg hgt] at h
    rcases Game.chercheTour_of_valides env.fuel g hobj (fun j hmem => (hj j hmem).1) fun a ha =>
      h a (List.mem_append_right _ ha) with ⟨⟨id, g'⟩, hc⟩ | hst
    · left
      have hf := (Game.chercheTour_spec env.fuel hc).1
      obtain ⟨⟨obj', x, y⟩, hr⟩ := hb (obj.setCurrentLomb id)
      have hr' : g'.caisse env (obj.setCurrentLomb id) = some (obj', x, y) :=
        (congrFun (Game.eq_of_fixe (fun g => g.caisse env) (fun _ => rfl) hf) _).trans hr
      have hobj' : g'.gameObject = some obj := (Game.gameObject_of_fixe hf).trans hobj
      rw [tourSuivant]
      simp only [hc, hobj', Option.bind_some, hr']
      exact ⟨_, rfl⟩
    · exact Or.inr hst

/-- A message of the lobby whose accesses are valid does not fault, where START finds a map file and
places for its worms. -/
theorem handleRoom_of_valides (hj : ∀ j ∈ s.jeu.players, j.EnOrdre)
    (hs : m.contenu = .start → ∀ ids, s.jeu.idsLombrics = some ids →
      ∃ obj, s.jeu.spawnLombric serveur env = some obj)
    (h : ∀ a ∈ s.accesHandleRoom serveur env m, a.Valide) :
    ∃ s', s.handleRoom serveur env m = some s' := by
  unfold accesHandleRoom at h
  unfold handleRoom
  split
  · exact ⟨_, rfl⟩
  · exact ⟨_, rfl⟩
  · next hc =>
    rw [hc] at h
    obtain ⟨j, hj⟩ := Joueur.initWorms_of_valides (List.length_replicate) h
    rw [Game.nouveauJoueur, hj]
    exact ⟨_, rfl⟩
  · next hc =>
    rw [hc] at h
    simp only at h
    split
    · next ho =>
      rw [if_pos ho, Game.accesStart] at h
      obtain ⟨ids, hids⟩ := Game.idsLombrics_of_valides hj fun a ha => h a (List.mem_append_left _ ha)
      obtain ⟨obj, hobj⟩ := hs hc ids hids
      rw [hobj] at h
      obtain ⟨⟨id, g⟩, hn⟩ := Game.getNextLombricId_of_valides (g := s.jeu.commence env obj) rfl hj
        fun a ha => h a (List.mem_append_right _ ha)
      rw [demarre, hobj]
      simp only [hn]
      exact ⟨_, rfl⟩
    · exact ⟨_, rfl⟩
  · split
    · exact ⟨_, rfl⟩
    · exact ⟨_, rfl⟩

/-- A weapon past the vector faults. -/
theorem arme_of_traite {fin : Bool} (h : s.traite serveur env m = some (s', fin)) :
    ∀ i ∈ m.idArme, (Acces.arme i).Valide := by
  intro i hi
  obtain ⟨tir, hc, rfl⟩ : ∃ tir, m.contenu = .shoot tir ∧ tir.idArme = i := by
    unfold ZmqMsg.idArme at hi
    split at hi
    · next tir hc => exact ⟨tir, hc, Option.some_inj.mp hi⟩
    · cases hi
  rw [traite, hc] at h
  obtain ⟨q, hq, _⟩ := Option.map_eq_some_iff.mp h
  obtain ⟨obj, _, hu⟩ := Option.bind_eq_some_iff.mp hq
  obtain ⟨obj₁, hu, _⟩ := Option.map_eq_some_iff.mp hu
  obtain ⟨obj₂, hs, _⟩ := Option.bind_eq_some_iff.mp hu
  exact Partie.idArme_lt_of_shoot hs

/-- A message of the game that ends the turn, up to the search of the next one. -/
theorem handleGame_of_valides {s₁ : Salle} {g : Game} {obj : Partie}
    (ht : s.traite serveur env m = some (s₁, true)) (hm : s₁.jeu.monteeEau env = some g)
    (hobj : g.gameObject = some obj) (hj : ∀ j ∈ g.players, j.EnOrdre ∧ j.equipe ≤ 4)
    (hb : ∀ obj, ∃ r, g.caisse env obj = some r) (h : ∀ a ∈ s.accesHandleGame serveur env m, a.Valide) :
    (∃ s', s.handleGame serveur env m = some s') ∨ g.Sterile env.fuel := by
  rw [accesHandleGame, ht] at h
  rw [handleGame, ht]
  exact endRound_of_valides hm hobj hj hb fun a ha => h a (List.mem_append_right _ ha)

theorem borne_endRound (h : s.jeu.Borne) (hr : endRound env s = some s') : s'.jeu.Borne := by
  obtain ⟨g, hm, ⟨hj, _⟩ | ⟨id, g', obj, obj', hc, hobj, hv, hj, _⟩⟩ := endRound_manche hr
  · rw [hj]
    exact h.entre (.of_monteeEau hm)
  · have hg' : g'.Borne := (h.entre (.of_monteeEau hm)).of_fixe (Game.chercheTour_spec _ hc).1
    have havec := hg'.avec hobj (by rw [hv.vers]; exact fun _ hx => hx)
    rw [hj]
    exact ⟨havec.nbrLomb, havec.lombNb, havec.vers⟩

theorem borne_handleGame (h : s.jeu.Borne) (hg : handleGame serveur env m s = some s') : s'.jeu.Borne := by
  obtain ⟨s₁, he, _, hr | rfl⟩ := entre_handleGame hg
  · exact borne_endRound (h.entre he) hr
  · exact h.entre he

theorem borne_handleQuit (h : s.jeu.Borne) (m : ZmqMsg) : (s.handleQuit m).jeu.Borne := by
  cases hq : m.estQuit with
  | true =>
    rw [handleQuit_jeu hq]
    exact h.handleQuit m.receiverId
  | false => rwa [handleQuit_of_not hq]

/-- What a message of the lobby needs. -/
def permisRoom (m : ZmqMsg) (s : Salle) : Bool :=
  match m.contenu with
  | .infoRoom => decide (s.jeu.lombNb ≤ 8)
  | .start => decide (m.receiverId = s.jeu.ownerId → s.jeu.PeutDemarrer)
  | _ => true

theorem borne_demarre (h : s.jeu.Borne) (hp : s.jeu.PeutDemarrer) (hd : demarre serveur env s = some s') :
    s'.jeu.Borne := by
  obtain ⟨obj, id, g, lombs, hs, hn, rfl⟩ := demarre_cases hd
  have hcommence : (s.jeu.commence env obj).Borne := by
    refine ⟨h.nbrLomb, fun _ => hp.lombNb_le, fun o ho h0 => ?_⟩
    cases ho
    exact Game.vers_spawnLombric hs h0
  have hf := (Game.getNextLombricId_spec hn).1
  have hg : g.Borne := hcommence.of_fixe hf
  exact hg.avec (Game.gameObject_of_fixe hf) fun x hx => hx

/-- A message of the lobby; a new player looks at as many slots as the room counts. -/
theorem borne_handleRoom (h : s.jeu.Borne) (hno : s.jeu.gameObject = none) (hp : s.permisRoom m = true)
    (hr : handleRoom serveur env m s = some s') : s'.jeu.Borne := by
  unfold permisRoom at hp
  rcases handleRoom_cases hr with ⟨hc, ho, hd⟩ | ⟨_, _, hj | ⟨id, _, hj⟩ | ⟨j, hc, hn, hj⟩ | ⟨g, hg, hj⟩⟩
  · rw [hc] at hp
    exact borne_demarre h (of_decide_eq_true hp ho) hd
  · rwa [hj]
  · rw [hj]
    refine .of_lobby hno fun j' hj' => ?_
    obtain ⟨j, hj, e, rfl⟩ := Game.mem_changeEquipe hj'
    exact h.nbrLomb j hj
  · rw [hc] at hp
    rw [hj]
    refine .of_lobby hno fun j' hj' => ?_
    rcases List.mem_append.mp hj' with hj' | hj'
    · exact h.nbrLomb j' hj'
    · obtain ⟨lombrics, pseudo, rfl⟩ := Game.nouveauJoueur_eq hn
      rw [List.mem_singleton.mp hj']
      exact of_decide_eq_true hp
  · obtain ⟨ho, _, hpl, _⟩ := Game.parametre_cases hg
    rw [hj]
    refine .of_lobby (ho.trans hno) fun j' hj' => ?_
    obtain ⟨j, hj, e, rfl⟩ := hpl j' hj'
    exact h.nbrLomb j hj

/-- What a guarded run keeps of the room: its counts, and in the lobby no game and the cursor at 0. -/
structure Borne (s : Salle) : Prop where
  jeu : s.jeu.Borne
  salon : s.currentStep = stepRoom → s.jeu.gameObject = none ∧ s.jeu.currentPlayerId = 0

/-- `handle_quit` may close the room; it moves no cursor. -/
theorem Borne.handleQuit (h : s.Borne) (m : ZmqMsg) : (s.handleQuit m).Borne := by
  refine ⟨borne_handleQuit h.jeu m, fun h0 => ?_⟩
  rcases Thread.step_handleQuit m s with hs | ⟨hs, _⟩
  · obtain ⟨ho, hc⟩ := h.salon (hs.symm.trans h0)
    cases hq : m.estQuit with
    | true =>
      rw [handleQuit_jeu hq]
      exact ⟨ho, hc⟩
    | false =>
      rw [handleQuit_of_not hq]
      exact ⟨ho, hc⟩
  · exact absurd h0 hs

end Salle

/-! ## Runs -/

namespace Thread

variable {serveur : Serveur} {e : Evenement} {th : Thread}

/-- The users who ask to enter own eight worms. -/
def huitVers (e : Evenement) (th : Thread) : Bool :=
  match th.lieu, e with
  | .salleMsg m, .suite _ db => m.contenu != .infoRoom || (db.lombricsDe m.receiverId).length == 8
  | _, _ => true

/-- The values that the handlers take without a test. -/
def permis (e : Evenement) (th : Thread) : Bool :=
  match th.lieu, e with
  | .salleMsg m, .suite _ _ => th.salle.permisRoom m
  | .partieMsg m, .suite _ _ => decide (∀ i ∈ m.idArme, i < 3)
  | _, _ => true

/-- **Each handler keeps it**, called as the guard asks. -/
theorem garde_borne (serveur : Serveur) :
    Garde serveur (fun e th => huitVers e th = true ∧ permis e th = true) Salle.Borne where
  init _ _ _ := ⟨.of_lobby rfl (fun _ hj => by cases hj), fun _ => ⟨rfl, rfl⟩⟩
  db _ h := ⟨h.jeu, h.salon⟩
  quit _ _ h := h.handleQuit _
  room {m} {env} {db} {th} {s'} hl hok h0 h hr := by
    have hp : th.salle.permisRoom m = true := by
      have hp := hok.2
      unfold permis at hp
      rwa [hl] at hp
    obtain ⟨ho, hc⟩ := h.salon h0
    refine ⟨Salle.borne_handleRoom (s := { th.salle with db }) h.jeu ho hp hr, fun h0' => ?_⟩
    rcases Salle.handleRoom_lobby hr with ⟨_, hd⟩ | ⟨_, ho', hc', _⟩
    · obtain ⟨_, _, _, _, _, _, rfl⟩ := Salle.demarre_cases hd
      cases h0'
    · exact ⟨ho'.trans ho, hc'.trans hc⟩
  game {m} {env} {db} {th} {s'} _ _ h1 h hg := by
    refine ⟨Salle.borne_handleGame h.jeu hg, fun h0 => absurd h0 ((Salle.handleGame_step hg).ne_stepRoom ?_)⟩
    rw [h1]
    decide
  heure _ _ h0 h hr :=
    ⟨Salle.borne_endRound h.jeu hr, fun h0' => absurd h0' ((Salle.endRound_step hr).ne_stepRoom h0)⟩

/-- The accesses of a message of the lobby. -/
theorem accesHandleRoom_valides {env : Env} {m : ZmqMsg} {s : Salle} (hc : s.jeu.currentPlayerId = 0)
    (h8 : m.contenu = .infoRoom → (s.db.lombricsDe m.receiverId).length = 8)
    (hp : s.permisRoom m = true) : ∀ a ∈ s.accesHandleRoom serveur env m, a.Valide := by
  intro a ha
  unfold Salle.accesHandleRoom at ha
  unfold Salle.permisRoom at hp
  split at ha
  · next hm =>
    rw [hm] at hp
    have hle : s.jeu.lombNb ≤ 8 := of_decide_eq_true hp
    exact Joueur.accesInitWorms_valides hle (hle.trans_eq (h8 hm).symm) a ha
  · next hm =>
    rw [hm] at hp
    split at ha
    · next ho => exact (of_decide_eq_true hp ho).accesStart_valides hc a ha
    · cases ha
  · cases ha

theorem accesHandleRoom_quit {env : Env} {m : ZmqMsg} {s : Salle} (hq : m.estQuit = true) :
    s.accesHandleRoom serveur env m = [] := by
  obtain ⟨id, c⟩ := m
  cases c <;> simp_all [ZmqMsg.estQuit, Salle.accesHandleRoom]

/-- The accesses of a message of the game. -/
theorem accesHandleGame_valides {env : Env} {m : ZmqMsg} {s : Salle} (h : s.jeu.Borne)
    (hp : ∀ i ∈ m.idArme, i < 3) : ∀ a ∈ s.accesHandleGame serveur env m, a.Valide := by
  intro a ha
  rcases List.mem_append.mp ha with ha | ha
  · obtain ⟨i, hi, rfl⟩ := List.mem_map.mp ha
    exact hp i (Option.mem_toList.mp hi)
  · split at ha
    · next s₁ ht => exact (h.entre (Salle.entre_traite ht)).accesEndRound_valides a ha
    · cases ha

/-- The guard is enough. -/
theorem acces_valides (hb : th.salle.Borne) (ha : Attente th.salle.currentStep th.lieu)
    (h8 : huitVers e th = true) (hp : permis e th = true) : ∀ a ∈ acces serveur e th, a.Valide := by
  intro a hacc
  obtain ⟨lieu, salle, closes⟩ := th
  unfold acces at hacc
  simp only at hacc
  split at hacc
  · next m env db =>
    rcases ha with h0 | hq
    · refine accesHandleRoom_valides (s := { salle with db }) (hb.salon h0).2 (fun hm => ?_) hp a hacc
      simpa [huitVers, hm] using h8
    · rw [accesHandleRoom_quit hq] at hacc
      cases hacc
  · next m env db =>
    exact accesHandleGame_valides (s := { salle with db }) hb.jeu (of_decide_eq_true hp) a hacc
  · next env db =>
    split at hacc
    · exact hb.jeu.accesEndRound_valides a hacc
    · cases hacc
  · cases hacc

theorem permisRoom_quit {m : ZmqMsg} {s : Salle} (hq : m.estQuit = true) : s.permisRoom m = true := by
  obtain ⟨id, c⟩ := m
  cases c <;> simp_all [ZmqMsg.estQuit, Salle.permisRoom]

theorem permisRoom_of_valides {env : Env} {m : ZmqMsg} {s : Salle} (hc : s.jeu.currentPlayerId = 0)
    (h8 : m.contenu = .infoRoom → (s.db.lombricsDe m.receiverId).length = 8)
    (hs : m.contenu = .start → ∃ obj, s.jeu.spawnLombric serveur env = some obj)
    (h : ∀ a ∈ s.accesHandleRoom serveur env m, a.Valide) : s.permisRoom m = true := by
  unfold Salle.accesHandleRoom at h
  unfold Salle.permisRoom
  split at h
  · next hm =>
    rw [decide_eq_true_eq]
    by_contra hgt
    have hlen : (s.db.getXLombrics m.receiverId s.jeu.lombNb).length = 8 := by
      rw [DataBase.getXLombrics, List.length_take, h8 hm]
      omega
    obtain ⟨a, ha, hv⟩ : ∃ a ∈ Joueur.accesInit (s.db.getXLombrics m.receiverId s.jeu.lombNb) s.jeu.lombNb
        (List.range' 0 s.jeu.lombNb) Joueur.new.lombrics, ¬ a.Valide :=
      Joueur.exists_invalide_init s.jeu.lombNb (Nat.zero_le _) (by omega) rfl
    rw [← List.range_eq_range'] at ha
    exact hv (h a ha)
  · next hm =>
    obtain ⟨obj, hobj⟩ := hs hm
    rw [decide_eq_true_eq]
    intro ho
    rw [if_pos ho] at h
    exact Game.peutDemarrer_of_valides hc hobj h
  · rfl

/-- START reads its map and finds a cell for each worm. -/
def lombricsPlaces (serveur : Serveur) (e : Evenement) (th : Thread) : Bool :=
  match th.lieu, e with
  | .salleMsg m, .suite env _ => m.contenu != .start || (th.salle.jeu.spawnLombric serveur env).isSome
  | _, _ => true

/-- The guard asks for nothing more. -/
theorem permis_of_valides (hb : th.salle.Borne) (ha : Attente th.salle.currentStep th.lieu)
    (h8 : huitVers e th = true) (hs : lombricsPlaces serveur e th = true)
    (h : ∀ a ∈ acces serveur e th, a.Valide) : permis e th = true := by
  obtain ⟨lieu, salle, closes⟩ := th
  unfold permis
  simp only
  split
  · next m env db =>
    rcases ha with h0 | hq
    · refine permisRoom_of_valides (s := { salle with db }) (hb.salon h0).2
        (fun hm => ?_) (fun hm => ?_) h
      · simpa [huitVers, hm] using h8
      · simpa [lombricsPlaces, hm, Option.isSome_iff_exists] using hs
    · exact permisRoom_quit hq
  · next m env db =>
    refine decide_eq_true fun i hi => ?_
    exact h (.arme i) (List.mem_append_left _ (List.mem_map_of_mem (Option.mem_toList.mpr hi)))
  · rfl

/-- **Runs whose counts and weapons exist.**  From their states the guard is exact. -/
theorem acces_valides_of_reach (serveur : Serveur) (th : Thread)
    (h : Runs.Reach (etape serveur) (fun e th => huitVers e th = true ∧ permis e th = true) Depart th)
    (e : Evenement) (h8 : huitVers e th = true) :
    (permis e th = true → ∀ a ∈ acces serveur e th, a.Valide) ∧
      (lombricsPlaces serveur e th = true → (∀ a ∈ acces serveur e th, a.Valide) → permis e th = true) := by
  obtain ⟨hb, ha⟩ := (garde_borne serveur).reach h
  exact ⟨acces_valides hb ha h8, permis_of_valides hb ha h8⟩

/-- Player 1 enters, plays and shoots: what is read then. -/
theorem acces_valides_partieSeule :
    ∃ th, Runs.exec (etape (serveurDe Map.petite)) (fun e th => huitVers e th = true ∧ permis e th = true)
        ((partieSeule 0).take 10) (new 1 1 petiteBase) = some th ∧
      .arme 2 ∈ acces (serveurDe Map.petite) (.suite (envPetit 0) petiteBase) th ∧
      ∀ a ∈ acces (serveurDe Map.petite) (.suite (envPetit 0) petiteBase) th, a.Valide := by
  obtain ⟨th, hth, hr, hp⟩ := Runs.exists_of_exec (etape (serveurDe Map.petite))
    (fun e th => huitVers e th = true ∧ permis e th = true)
    (show Depart (new 1 1 petiteBase) from ⟨1, 1, petiteBase, rfl⟩) ((partieSeule 0).take 10)
    (fun th => huitVers (.suite (envPetit 0) petiteBase) th && permis (.suite (envPetit 0) petiteBase) th &&
      decide (.arme 2 ∈ acces (serveurDe Map.petite) (.suite (envPetit 0) petiteBase) th)) (by decide +kernel)
  rw [Bool.and_eq_true, Bool.and_eq_true, decide_eq_true_eq] at hp
  obtain ⟨⟨h8, hok⟩, ha⟩ := hp
  exact ⟨th, hth, ha, (acces_valides_of_reach (serveurDe Map.petite) th hr _ h8).1 hok⟩

/-! ## Counts and weapons that do not exist -/

/-- An access that some run makes, of users who own eight worms, and that is not valid. -/
def Fautif (a : Acces) : Prop :=
  ¬ a.Valide ∧ ∃ serveur th e, Runs.Reach (etape serveur) (fun e th => huitVers e th = true) Depart th ∧
    huitVers e th = true ∧ a ∈ acces serveur e th

/-- The thread goes on, over `petiteBase`. -/
def suitePetite : Evenement := .suite (envPetit 0) petiteBase

/-- The next step after the run `es` of a room of player 1. -/
theorem fautif_of_exec {a : Acces} (hv : ¬ a.Valide) (es : List Evenement)
    (h : (Runs.exec (etape (serveurDe Map.petite)) (fun e th => huitVers e th = true) es
      (new 1 1 petiteBase)).any (fun th => huitVers suitePetite th &&
        decide (a ∈ acces (serveurDe Map.petite) suitePetite th)) = true) : Fautif a := by
  obtain ⟨th, _, hr, hp⟩ := Runs.exists_of_exec (etape (serveurDe Map.petite))
    (fun e th => huitVers e th = true) (show Depart (new 1 1 petiteBase) from ⟨1, 1, petiteBase, rfl⟩) es
    (fun th => huitVers suitePetite th && decide (a ∈ acces (serveurDe Map.petite) suitePetite th)) h
  rw [Bool.and_eq_true, decide_eq_true_eq] at hp
  exact ⟨hv, serveurDe Map.petite, th, suitePetite, hr, hp⟩

/-- Player 1 enters, joins team 1, and sends `c`. -/
def entreEtEnvoie (c : Contenu) : List Evenement :=
  [suitePetite, .recoit ⟨1, .infoRoom⟩, suitePetite, .recoit ⟨1, .clientJoinTeam 1⟩, suitePetite,
    .recoit ⟨1, c⟩]

/-- **Nothing stops the values**: nine worms before somebody enters; nine, or none, before START; START in
an empty room; a shot with the fourth weapon. -/
theorem fautifs : Fautif (.idLombMort 8 8) ∧ Fautif (.lombric 8) ∧ Fautif (.modulo 0) ∧
    Fautif (.joueur 0 0) ∧ Fautif (.arme 3) := by
  refine ⟨?_, ?_, ?_, ?_, ?_⟩
  · exact fautif_of_exec (by decide) [suitePetite, .recoit ⟨1, .clientModifyNbLombrics 9⟩, suitePetite,
      .recoit ⟨1, .infoRoom⟩] (by decide +kernel)
  · exact fautif_of_exec (by decide) (entreEtEnvoie (.clientModifyNbLombrics 9) ++
      [suitePetite, .recoit ⟨1, .start⟩]) (by decide +kernel)
  · exact fautif_of_exec (by decide) (entreEtEnvoie (.clientModifyNbLombrics 0) ++
      [suitePetite, .recoit ⟨1, .start⟩]) (by decide +kernel)
  · exact fautif_of_exec (by decide) [suitePetite, .recoit ⟨1, .start⟩] (by decide +kernel)
  · exact fautif_of_exec (by decide) (entreEtEnvoie .start ++ [suitePetite, suitePetite, suitePetite,
      .recoit ⟨1, .shoot ⟨3, 0, 0⟩⟩]) (by decide +kernel)

end Thread

end LombricABrac
