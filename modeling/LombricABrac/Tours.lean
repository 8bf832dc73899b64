import LombricABrac.GameRuns
import LombricABrac.Registre
import LombricABrac.Lib.Cyclic

/-!
# The search for the next turn ends

`is_still_alive` looks at the `nbr_lomb` slots a player had when it joined; `getNextLombricId` tries
`nbr_lomb` offsets modulo `m_lomb_nb`, which the owner may have changed since.  When START finds no
count above what a player joined with, a living worm is in one of the `m_lomb_nb` first slots, and
these the offsets all reach.

`V` lists the pairs (id, owner) of all the rows that `worms` will ever have.

    chercheTour_returns     : the search ends in a game that is `Suivi`
    rechercheFinie_of_reach : so it does in every run without such a START
    nombreMonte_sansFin     : one raise of the count, and it never ends
-/

namespace LombricABrac

/-! ## The worms of an owner -/

def DataBase.vers (db : DataBase) : List (Nat × Nat) := db.worms.map fun w => (w.id, w.ownerId)

/-- The ids of an owner, in the order of the table. -/
def lombricsDe (V : List (Nat × Nat)) (o : Nat) : List Nat := (V.filter fun v => v.2 = o).map (·.1)

theorem DataBase.lombricsDe_eq (db : DataBase) (o : Nat) :
    db.lombricsDe o = LombricABrac.lombricsDe db.vers o := by
  rw [DataBase.lombricsDe, LombricABrac.lombricsDe, vers, List.filter_map, List.map_map]
  rfl

theorem lombricsDe_prefix {V V' : List (Nat × Nat)} (h : V <+: V') (o : Nat) :
    lombricsDe V o <+: lombricsDe V' o := (h.filter _).map _

/-- `id` is the primary key, and starts at 1. -/
structure Cle (V : List (Nat × Nat)) : Prop where
  nodup : (V.map Prod.fst).Nodup
  pos : 0 ∉ V.map Prod.fst

namespace Cle

variable {V : List (Nat × Nat)}

theorem ne_zero (h : Cle V) {o x : Nat} (hx : x ∈ lombricsDe V o) : x ≠ 0 := by
  rintro rfl
  exact h.pos ((List.filter_sublist.map Prod.fst).subset hx)

theorem unique (h : Cle V) {o o' i i' x : Nat} (hi : (lombricsDe V o)[i]? = some x)
    (hi' : (lombricsDe V o')[i']? = some x) : o = o' ∧ i = i' := by
  have ho : o = o' := by
    obtain ⟨⟨a, b⟩, hv, rfl⟩ := List.mem_map.mp (List.mem_of_getElem? hi)
    obtain ⟨⟨a', b'⟩, hv', he⟩ := List.mem_map.mp (List.mem_of_getElem? hi')
    obtain ⟨hv, hb⟩ := List.mem_filter.mp hv
    obtain ⟨hv', hb'⟩ := List.mem_filter.mp hv'
    have := List.inj_on_of_nodup_map h.nodup hv' hv he
    simp_all
  subst ho
  have hnd : (lombricsDe V o).Nodup := h.nodup.sublist (List.filter_sublist.map _)
  refine ⟨rfl, ?_⟩
  exact (List.getElem?_inj (List.getElem?_eq_some_iff.mp hi).1 hnd).mp (hi.trans hi'.symm)

end Cle

/-! ## The slots of a player -/

namespace Joueur

/-- The slots that count hold the first worms of the player, in order. -/
structure Porte (V : List (Nat × Nat)) (j : Joueur) : Prop where
  nbrLomb_le : j.nbrLomb ≤ 8
  slots : ∀ i, i < j.nbrLomb → ∃ x, j.lombrics[i]? = some x ∧ (lombricsDe V j.playerId)[i]? = some x

theorem Porte.of_eq {V : List (Nat × Nat)} {j j' : Joueur} (h : j.Porte V)
    (hn : j'.nbrLomb = j.nbrLomb) (hl : j'.lombrics = j.lombrics) (hp : j'.playerId = j.playerId) :
    j'.Porte V := by
  refine ⟨hn ▸ h.nbrLomb_le, ?_⟩
  rw [hn, hl, hp]
  exact h.slots

theorem porte_fixe (V : List (Nat × Nat)) (j : Joueur) : j.fixe.Porte V ↔ j.Porte V :=
  ⟨fun h => h.of_eq rfl rfl rfl, fun h => h.of_eq rfl rfl rfl⟩

theorem addWorms_first (worm : Nat) (k : Nat) (l : List Nat) : ∀ (n : Nat), 0 ∉ l → l.length < n →
    addWorms worm n (l ++ List.replicate (k + 1) 0) = some (l ++ worm :: List.replicate k 0) := by
  induction l with
  | nil =>
    intro n _ hn
    obtain ⟨n, rfl⟩ := Nat.exists_eq_add_of_lt hn
    rfl
  | cons x l ih =>
    intro n h0 hn
    obtain ⟨n, rfl⟩ : ∃ m, n = m + 1 := ⟨n - 1, by simp at hn; omega⟩
    have hx : x ≠ 0 := fun hx => h0 (hx ▸ List.mem_cons_self)
    rw [List.cons_append, addWorms, if_neg hx, ih n (fun h => h0 (List.mem_cons_of_mem _ h)) (by
      simp at hn
      omega)]
    rfl

/-- The fold of `init_worms`, from `l` slots taken and `k` empty. -/
theorem foldlM_addWorms (n : Nat) (worms : List Nat) :
    ∀ (l : List Nat) (k : Nat), 0 ∉ l → 0 ∉ worms →
    l.length + worms.length ≤ n → worms.length ≤ k →
    worms.foldlM (fun l worm => addWorms worm n l) (l ++ List.replicate k 0) =
      some (l ++ worms ++ List.replicate (k - worms.length) 0) := by
  induction worms with
  | nil =>
    intro l k _ _ _ _
    simp
  | cons w worms ih =>
    intro l k h0 hw hn hk
    rw [List.length_cons] at hn hk
    obtain ⟨k, rfl⟩ : ∃ m, k = m + 1 := ⟨k - 1, by omega⟩
    rw [List.foldlM_cons, addWorms_first w k l n h0 (by omega)]
    have hne : w ≠ 0 := fun hx => hw (hx ▸ List.mem_cons_self)
    have := ih (l ++ [w]) k (by simp [h0, hne.symm]) (fun h => hw (List.mem_cons_of_mem _ h))
      (by simp; omega) (by omega)
    simp only [List.append_assoc, List.singleton_append] at this
    rw [Option.bind_eq_bind, Option.bind_some, this]
    simp

end Joueur

/-- The slots of a player that joins: its first worms, then zeros. -/
theorem nouveauJoueur_lombrics {V : List (Nat × Nat)} (hV : Cle V) {db : DataBase} (hdb : db.vers <+: V)
    {g : Game} {id : Nat} {j : Joueur} (hn : g.lombNb ≤ 8) (h : g.nouveauJoueur db id = some j) :
    j.nbrLomb = g.lombNb ∧ j.playerId = id ∧ g.lombNb ≤ (db.lombricsDe id).length ∧
      j.lombrics = (db.lombricsDe id).take g.lombNb ++ List.replicate (8 - g.lombNb) 0 := by
  obtain ⟨j₁, hj₁, rfl⟩ := Option.map_eq_some_iff.mp h
  unfold Joueur.initWorms at hj₁
  simp only at hj₁
  split at hj₁
  · simp at hj₁
  · next hlen =>
    obtain ⟨lombrics, hl, rfl⟩ := Option.map_eq_some_iff.mp hj₁
    have hpre : db.lombricsDe id <+: lombricsDe V id := by
      rw [DataBase.lombricsDe_eq]
      exact lombricsDe_prefix hdb id
    rw [DataBase.getXLombrics, List.length_take] at hlen
    have hlen' : ((db.lombricsDe id).take g.lombNb).length = g.lombNb := by
      rw [List.length_take]
      omega
    have h0 : 0 ∉ (db.lombricsDe id).take g.lombNb := fun h0 =>
      hV.ne_zero (hpre.subset (List.mem_of_mem_take h0)) rfl
    have hfold := Joueur.foldlM_addWorms g.lombNb ((db.lombricsDe id).take g.lombNb) [] 8
      (by simp) h0 (by simp) (by omega)
    rw [DataBase.getXLombrics, show Joueur.new.lombrics = [] ++ List.replicate 8 0 from rfl, hfold] at hl
    cases hl
    refine ⟨rfl, rfl, by omega, ?_⟩
    show [] ++ (db.lombricsDe id).take g.lombNb ++ _ = _
    rw [List.nil_append, hlen']

/-- A player that joins carries its first worms. -/
theorem porte_nouveauJoueur {V : List (Nat × Nat)} (hV : Cle V) {db : DataBase} (hdb : db.vers <+: V)
    {g : Game} {id : Nat} {j : Joueur} (hn : g.lombNb ≤ 8) (h : g.nouveauJoueur db id = some j) :
    j.Porte V ∧ j.nbrLomb = g.lombNb := by
  obtain ⟨hnb, rfl, hlen, hl⟩ := nouveauJoueur_lombrics hV hdb hn h
  refine ⟨⟨by omega, fun i hi => ?_⟩, hnb⟩
  have hid : i < (db.lombricsDe j.playerId).length := by omega
  refine ⟨(db.lombricsDe j.playerId)[i], ?_, ?_⟩
  · rw [hl, List.getElem?_append_left (by rw [List.length_take]; omega), List.getElem?_take,
      if_pos (by omega), List.getElem?_eq_getElem hid]
  · obtain ⟨reste, hr⟩ := lombricsDe_prefix hdb j.playerId
    rw [← hr, ← DataBase.lombricsDe_eq, List.getElem?_append_left hid, List.getElem?_eq_getElem hid]

/-! ## Games whose slots are followed -/

/-- The id, if it is one, is among the `n` first of its owner. -/
def Place (V : List (Nat × Nat)) (n : Nat) (nature : Sprite.Nature) : Prop :=
  nature.id ≠ 0 → ∃ o i, i < n ∧ (lombricsDe V o)[i]? = some nature.id

namespace Game

structure Suivi (V : List (Nat × Nat)) (g : Game) : Prop where
  porte : ∀ j ∈ g.players, j.Porte V
  nb_pos : 0 < g.lombNb
  nb_le : g.lombNb ≤ 8
  length_le : g.gameObject ≠ none → g.players.length ≤ 256
  couvre : g.gameObject ≠ none → ∀ j ∈ g.players, j.equipe ≠ 0 → g.lombNb ≤ j.nbrLomb
  registre : ∀ obj, g.gameObject = some obj → obj.Registre (Place V g.lombNb)

variable {V : List (Nat × Nat)} {g g' : Game}

/-- Cursors and the current player have no part in it. -/
theorem Suivi.of_fixe (h : g.Suivi V) (hf : g'.fixe = g.fixe) : g'.Suivi V := by
  have hn := lombNb_of_fixe hf
  have ho := gameObject_of_fixe hf
  refine ⟨fun j' hj' => ?_, ?_, ?_, ?_, ?_, ?_⟩
  · obtain ⟨j, hj, he⟩ := mem_of_fixe_eq hf hj'
    exact (h.porte j hj).of_eq (Joueur.eq_of_fixe Joueur.nbrLomb (fun _ => rfl) he)
      (Joueur.eq_of_fixe Joueur.lombrics (fun _ => rfl) he)
      (Joueur.eq_of_fixe Joueur.playerId (fun _ => rfl) he)
  · rw [hn]
    exact h.nb_pos
  · rw [hn]
    exact h.nb_le
  · rw [ho, length_of_fixe hf]
    exact h.length_le
  · intro hobj j' hj' he'
    rw [ho] at hobj
    obtain ⟨j, hj, he⟩ := mem_of_fixe_eq hf hj'
    rw [Joueur.eq_of_fixe Joueur.equipe (fun _ => rfl) he] at he'
    rw [hn, Joueur.eq_of_fixe Joueur.nbrLomb (fun _ => rfl) he]
    exact h.couvre hobj j hj he'
  · rw [ho, hn]
    exact h.registre

theorem Suivi.avec (h : g.Suivi V) (hobj : g.gameObject ≠ none) {obj' : Partie}
    (hr : obj'.Registre (Place V g.lombNb)) : Suivi V { g with gameObject := some obj' } where
  porte := h.porte
  nb_pos := h.nb_pos
  nb_le := h.nb_le
  length_le _ := h.length_le hobj
  couvre _ := h.couvre hobj
  registre obj hobj' := by
    cases hobj'
    exact hr

/-! ## The search -/

/-- Player `k` has a team and a living worm in a slot that counts. -/
def Vivant (g : Game) (k : Nat) : Prop :=
  ∃ obj j i id, g.gameObject = some obj ∧ g.players[k]? = some j ∧ j.equipe ≠ 0 ∧ i < j.nbrLomb ∧
    j.lombrics[i]? = some id ∧ obj.isLombAlive id = true

theorem Vivant.of_fixe {k : Nat} (h : g.Vivant k) (hf : g'.fixe = g.fixe) : g'.Vivant k := by
  obtain ⟨obj, j, i, id, hobj, hj, he, hi, hji, ha⟩ := h
  obtain ⟨j', hj', hfj⟩ := exists_of_fixe_eq hf hj
  refine ⟨obj, j', i, id, (gameObject_of_fixe hf).trans hobj, hj', ?_, ?_, ?_, ha⟩
  · rwa [Joueur.eq_of_fixe Joueur.equipe (fun _ => rfl) hfj]
  · rwa [Joueur.eq_of_fixe Joueur.nbrLomb (fun _ => rfl) hfj]
  · rwa [Joueur.eq_of_fixe Joueur.lombrics (fun _ => rfl) hfj]

/-- The slot of a living worm is one of the `m_lomb_nb` first. -/
theorem Suivi.slot_lt (hV : Cle V) (h : g.Suivi V) {obj : Partie} (hobj : g.gameObject = some obj)
    {j : Joueur} (hj : j ∈ g.players) {i id : Nat} (hi : i < j.nbrLomb)
    (hji : j.lombrics[i]? = some id) (ha : obj.isLombAlive id = true) : i < g.lombNb := by
  obtain ⟨x, hx, hVx⟩ := (h.porte j hj).slots i hi
  rw [hji] at hx
  cases hx
  have hid : id ≠ 0 := hV.ne_zero (List.mem_of_getElem? hVx)
  obtain ⟨s, hs, _⟩ := Partie.isLombAlive_spec ha
  obtain ⟨hmem, hsid, _⟩ := Partie.findLombric_spec hs
  rw [Sprite.getId_eq] at hsid
  obtain ⟨o, i', hi', hVi'⟩ :=
    (h.registre obj hobj).nature s.nature (List.mem_map_of_mem hmem) (hsid ▸ hid)
  rw [hsid] at hVi'
  rw [(hV.unique hVx hVi').2]
  exact hi'

/-- One player looks for its next worm: it answers, with a worm if it has one. -/
theorem Suivi.getNextLombricId (hV : Cle V) (h : g.Suivi V) (hobj : g.gameObject ≠ none)
    (hc : g.currentPlayerId < g.players.length) : ∃ id g', g.getNextLombricId = some (id, g') ∧
      (g.Vivant g.currentPlayerId → id ≠ 0) := by
  obtain ⟨obj, hobj'⟩ := Option.ne_none_iff_exists'.mp hobj
  have hj := List.getElem?_eq_getElem hc
  have hmem := List.getElem_mem hc
  generalize g.players[g.currentPlayerId] = j at hj hmem
  unfold Game.getNextLombricId
  simp only [hj, hobj', Option.bind_some]
  by_cases he : j.equipe = 0
  · refine ⟨0, g, if_pos he, ?_⟩
    rintro ⟨_, j', _, _, _, hj', he', _⟩
    rw [hj] at hj'
    cases hj'
    exact absurd he he'
  · have hp := h.porte j hmem
    have hcouvre := h.couvre hobj j hmem he
    have hslots : ∀ i, i < g.lombNb → ∃ x, j.lombrics[i]? = some x := by
      intro i hi
      obtain ⟨x, hx, _⟩ := hp.slots i (by omega)
      exact ⟨x, hx⟩
    have h8 := hp.nbrLomb_le
    obtain ⟨id, j', hr, hfind⟩ := Joueur.chercheLombric_returns obj h.nb_pos
      (show j.nbrLomb ≠ 255 by omega) hslots (List.range' 1 j.nbrLomb)
    rw [if_neg he, Joueur.getNextLombricId, hr]
    refine ⟨id, _, rfl, ?_⟩
    rintro ⟨obj₁, j₁, i, x, hobj₁, hj₁, _, hi, hji, ha⟩
    rw [hobj'] at hobj₁
    rw [hj] at hj₁
    cases hobj₁
    cases hj₁
    -- the offsets reach the slot of the living worm
    obtain ⟨d, hd1, hd2, hd⟩ :=
      Cyclic.exists_offset hcouvre j.currentLombric (h.slot_lt hV hobj' hmem hi hji ha)
    obtain ⟨_, i', hi', hid⟩ := hfind ⟨d, List.mem_range'_1.mpr (by omega), x, by rw [hd, hji], ha⟩
    obtain ⟨y, hy, hVy⟩ := hp.slots i' (by omega)
    rw [hid] at hy
    cases hy
    exact hV.ne_zero (List.mem_of_getElem? hVy)

theorem joueurSuivant_lt (h : 0 < g.players.length) :
    g.joueurSuivant.currentPlayerId < g.players.length := by
  unfold joueurSuivant
  simp only
  split <;> omega

theorem joueurSuivant_eq (h : g.players.length ≤ 256) (hc : g.currentPlayerId < g.players.length) :
    g.joueurSuivant.currentPlayerId = Cyclic.next g.players.length g.currentPlayerId := by
  unfold joueurSuivant Cyclic.next uint8
  simp only
  split <;> split <;> omega

/-- **The search ends** at the living player at the latest.  Induction on its distance. -/
theorem chercheTour_returns (hV : Cle V) {k : Nat} (d : Nat) : ∀ g : Game, g.Suivi V → g.Vivant k →
    (Cyclic.next g.players.length)^[d] g.joueurSuivant.currentPlayerId = k →
    ∃ fuel id g', g.chercheTour fuel = some (id, g') ∧ id ≠ 0 := by
  induction d with
  | zero =>
    intro g h hk hd
    obtain ⟨obj, j, i, x, hobj, hj, hk'⟩ := id hk
    have hlen := (List.getElem?_eq_some_iff.mp hj).1
    have hf : g.joueurSuivant.fixe = g.fixe := rfl
    obtain ⟨id, g', hg', h0⟩ := (h.of_fixe hf).getNextLombricId hV (by
      rw [gameObject_of_fixe hf, hobj]
      exact Option.some_ne_none obj) (joueurSuivant_lt (by omega))
    have hid : id ≠ 0 := h0 (by
      rw [show g.joueurSuivant.currentPlayerId = k from hd]
      exact hk.of_fixe hf)
    refine ⟨1, id, g', ?_, hid⟩
    rw [chercheTour, hg']
    cases id with
    | zero => exact absurd rfl hid
    | succ n => rfl
  | succ d ih =>
    intro g h hk hd
    obtain ⟨obj, j, i, x, hobj, hj, hk'⟩ := id hk
    have hlen := (List.getElem?_eq_some_iff.mp hj).1
    have hobj' : g.gameObject ≠ none := by
      rw [hobj]
      exact Option.some_ne_none obj
    have hf : g.joueurSuivant.fixe = g.fixe := rfl
    have hlt := joueurSuivant_lt (g := g) (by omega)
    obtain ⟨id, g', hg', _⟩ := (h.of_fixe hf).getNextLombricId hV hobj' hlt
    by_cases hid : id = 0
    · -- nobody here: the distance from the next player is one less
      subst hid
      obtain ⟨hf', hc', _⟩ := getNextLombricId_spec hg'
      have hlen' : g'.players.length = g.players.length := length_of_fixe (hf'.trans hf)
      have hnext : g'.joueurSuivant.currentPlayerId =
          Cyclic.next g.players.length g.joueurSuivant.currentPlayerId := by
        rw [joueurSuivant_eq (by rw [hlen']; exact h.length_le hobj') (by rw [hlen', hc']; exact hlt),
          hlen', hc']
      obtain ⟨fuel, id, g'', hr, h0⟩ := ih g' (h.of_fixe (hf'.trans hf)) (hk.of_fixe (hf'.trans hf)) (by
        rw [hlen', hnext]
        exact hd)
      exact ⟨fuel + 1, id, g'', by rw [chercheTour, hg']; exact hr, h0⟩
    · refine ⟨1, id, g', ?_, hid⟩
      rw [chercheTour, hg']
      cases id with
      | zero => exact absurd rfl hid
      | succ n => rfl

/-- Where `nb_alive_teams` counts at least two teams, the search of `end_round` ends. -/
def TourTrouve (g : Game) : Prop :=
  ∀ lastTeam nbrTeam last, g.nbAliveTeams lastTeam = some (nbrTeam, last) → 2 ≤ nbrTeam →
    ∃ fuel id g', g.chercheTour fuel = some (id, g') ∧ id ≠ 0

theorem Suivi.tourTrouve (hV : Cle V) (h : g.Suivi V) : g.TourTrouve := by
  intro lastTeam nbrTeam last hn h2
  obtain ⟨obj, j, i, id, hobj, hj, he, hi, hji, ha⟩ := nbAliveTeams_pos hn (by omega)
  obtain ⟨k, hk⟩ := List.getElem?_of_mem hj
  obtain ⟨d, hd⟩ := Cyclic.exists_turn g.joueurSuivant.currentPlayerId (List.getElem?_eq_some_iff.mp hk).1
  exact chercheTour_returns hV d g h ⟨obj, j, i, id, hobj, hk, he, hi, hji, ha⟩ hd

/-! ## What keeps the slots followed -/

theorem Suivi.monteeEau {env : Env} (h : g.Suivi V) (hm : g.monteeEau env = some g') : g'.Suivi V := by
  rcases monteeEau_cases hm with rfl | ⟨obj, obj₁, obj', hobj, hw, hu, rfl⟩
  · exact h
  · refine h.avec (by rw [hobj]; exact Option.some_ne_none obj) ?_
    exact ((h.registre obj hobj).increaseWaterLevel hw).update hu

theorem Suivi.handleQuit (h : g.Suivi V) (id : Nat) : (g.handleQuit id).Suivi V where
  porte j hj := h.porte j ((retire_sublist id g.players).subset hj)
  nb_pos := h.nb_pos
  nb_le := h.nb_le
  length_le hobj := (retire_sublist id g.players).length_le.trans (h.length_le hobj)
  couvre hobj j hj := h.couvre hobj j ((retire_sublist id g.players).subset hj)
  registre := h.registre

/-- No player joined with fewer worms than the count is at START, and the turn can count them all. -/
def compteJuste (g : Game) : Bool :=
  decide (g.players.length ≤ 256) && g.players.all fun j => j.equipe == 0 || decide (g.lombNb ≤ j.nbrLomb)

theorem Suivi.spawnLombric (h : g.Suivi V) (hj : g.compteJuste = true) {serveur : Serveur} {env : Env}
    {obj : Partie} (hs : g.spawnLombric serveur env = some obj) :
    Suivi V { g with gameObject := some obj } := by
  simp only [compteJuste, Bool.and_eq_true, decide_eq_true_eq, List.all_eq_true, Bool.or_eq_true,
    beq_iff_eq] at hj
  have hcouvre : ∀ j ∈ g.players, j.equipe ≠ 0 → g.lombNb ≤ j.nbrLomb :=
    fun j hmem he => (hj.2 j hmem).resolve_left he
  refine ⟨h.porte, h.nb_pos, h.nb_le, fun _ => hj.1, fun _ => hcouvre, fun obj' hobj' => ?_⟩
  cases hobj'
  obtain ⟨carte, ids, lombs, reste, _, hids, hl, rfl⟩ := spawnLombric_spec hs
  refine Partie.registre_setParam hl true fun id hid _ => ?_
  obtain ⟨j, hmem, he, i, hi, hji⟩ := mem_idsLombrics hids hid
  obtain ⟨x, hx, hVx⟩ := (h.porte j hmem).slots i (hi.trans_le (hcouvre j hmem he))
  rw [hji] at hx
  cases hx
  exact ⟨j.playerId, i, hi, hVx⟩

end Game

namespace Salle

variable {V : List (Nat × Nat)} {serveur : Serveur} {env : Env} {m : ZmqMsg} {s s' : Salle}

theorem suivi_traite (h : s.jeu.Suivi V) {fin : Bool} (ht : traite serveur env m s = some (s', fin)) :
    s'.jeu.Suivi V := by
  obtain ⟨_, _, _, _, ⟨hj, _⟩ | ⟨obj, obj', hobj, hj, hcall⟩⟩ := traite_cases ht
  · rw [hj]
    exact h
  · rw [hj]
    refine h.avec (by rw [hobj]; exact Option.some_ne_none obj) ?_
    rcases hcall with ⟨lp, _, hm, _⟩ | ⟨tir, murs, degats, _, _, hu⟩
    · exact (h.registre obj hobj).moveCurrentLombric hm
    · exact (h.registre obj hobj).useWeapon hu fun h0 => absurd rfl h0

theorem suivi_endRound (h : s.jeu.Suivi V) (hr : endRound env s = some s') : s'.jeu.Suivi V := by
  obtain ⟨g, nbrTeam, lastTeam, hm, _, ⟨_, rfl⟩ | ⟨_, ht⟩⟩ := endRound_cases hr
  · exact h.monteeEau hm
  · obtain ⟨id, g', obj, obj', x, y, hc, hobj, hcaisse, rfl⟩ := tourSuivant_cases ht
    have hg' : g'.Suivi V := (h.monteeEau hm).of_fixe (Game.chercheTour_spec _ hc).1
    have hreg := (hg'.registre obj hobj).setCurrentLomb id
    have hav : Game.Suivi V { g' with gameObject := some obj' } := by
      refine hg'.avec (by rw [hobj]; exact Option.some_ne_none obj) ?_
      rcases Game.caisse_cases hcaisse with rfl | ⟨rand, pos, reste, hd⟩
      · exact hreg
      · exact hreg.dropHealthBox hd fun h0 => absurd rfl h0
    exact ⟨hav.porte, hav.nb_pos, hav.nb_le, hav.length_le, hav.couvre, hav.registre⟩

theorem suivi_demarre (h : s.jeu.Suivi V) (hj : s.jeu.compteJuste = true)
    (hd : demarre serveur env s = some s') : s'.jeu.Suivi V := by
  obtain ⟨obj, id, g, lombs, hobj, hg, rfl⟩ := demarre_cases hd
  have hsp := h.spawnLombric hj hobj
  have hcom : (s.jeu.commence env obj).Suivi V :=
    ⟨hsp.porte, hsp.nb_pos, hsp.nb_le, hsp.length_le, hsp.couvre, hsp.registre⟩
  have hf := (Game.getNextLombricId_spec hg).1
  have hgo : g.gameObject = some obj := Game.gameObject_of_fixe hf
  have hg' := hcom.of_fixe hf
  refine hg'.avec (by rw [hgo]; exact Option.some_ne_none obj) ?_
  exact (hg'.registre obj hgo).setCurrentLomb id

end Salle

namespace Thread

/-- The tables hold rows of `V`, and the counts asked for are between 1 and 8. -/
def histoire (V : List (Nat × Nat)) (e : Evenement) (th : Thread) : Bool :=
  match th.lieu, e with
  | .salleMsg m, .suite _ db =>
    decide (db.vers <+: V) &&
      match m.contenu with
      | .clientModifyNbLombrics n => decide (1 ≤ n) && decide (n ≤ 8)
      | _ => true
  | _, _ => true

/-- START finds the count right. -/
def departJuste (e : Evenement) (th : Thread) : Bool :=
  match th.lieu, e with
  | .salleMsg m, .suite _ _ => m.contenu != .start || th.salle.jeu.compteJuste
  | _, _ => true

/-- Before START there is no object. -/
def Suivie (V : List (Nat × Nat)) (s : Salle) : Prop :=
  s.jeu.Suivi V ∧ (s.currentStep = stepRoom → s.jeu.gameObject = none)

theorem garde_suivie {V : List (Nat × Nat)} (hV : Cle V) (serveur : Serveur) :
    Garde serveur (fun e th => (histoire V e th && departJuste e th) = true) (Suivie V) where
  init owner roomId db := by
    refine ⟨⟨?_, Nat.succ_pos 7, le_rfl, fun h => absurd rfl h, fun h => absurd rfl h, ?_⟩, fun _ => rfl⟩
    · intro j hj
      cases hj
    · intro obj hobj
      cases hobj
  db _ h := h
  quit {m th} _ _ h := by
    unfold Salle.handleQuit
    split
    · refine ⟨h.1.handleQuit m.receiverId, fun hs => h.2 ?_⟩
      simp only at hs
      split at hs
      · cases hs
      · exact hs
    · exact h
  room {m env db th s'} hl hok h0 h hr := by
    simp only [histoire, departJuste, hl, Bool.and_eq_true, decide_eq_true_eq] at hok
    obtain ⟨⟨hpre, hok⟩, hjuste⟩ := hok
    rcases Salle.handleRoom_lobby hr with ⟨hc, hd⟩ | ⟨hs, ho, _, hp, hn⟩
    · rw [hc] at hjuste
      refine ⟨Salle.suivi_demarre h.1 (by simpa using hjuste) hd, fun hs => ?_⟩
      obtain ⟨obj, id, g, lombs, _, _, rfl⟩ := Salle.demarre_cases hd
      cases hs
    · have hnone : s'.jeu.gameObject = none := ho.trans (h.2 h0)
      have hnb : 0 < s'.jeu.lombNb ∧ s'.jeu.lombNb ≤ 8 := by
        rcases hn with hn | ⟨n, hc, hn⟩
        · rw [hn]
          exact ⟨h.1.nb_pos, h.1.nb_le⟩
        · rw [hc] at hok
          simp only [Bool.and_eq_true, decide_eq_true_eq] at hok
          rw [hn, uint8, Nat.mod_eq_of_lt (by omega)]
          exact hok
      refine ⟨⟨fun j' hj' => ?_, hnb.1, hnb.2, ?_, ?_, ?_⟩, fun _ => hnone⟩
      · rcases hp j' hj' with ⟨j, hj, e, rfl⟩ | hnew
        · exact (h.1.porte j hj).of_eq rfl rfl rfl
        · exact (porte_nouveauJoueur hV hpre h.1.nb_le hnew).1
      · rw [hnone]
        exact fun hne => absurd rfl hne
      · rw [hnone]
        exact fun hne => absurd rfl hne
      · rw [hnone]
        intro obj hobj
        cases hobj
  game {m env db th s'} _ _ h1 h hr := by
    refine ⟨?_, fun hs => absurd hs ((Salle.handleGame_step hr).ne_stepRoom (by rw [h1]; decide))⟩
    obtain ⟨s₁, fin, ht, ⟨_, hfin⟩ | ⟨_, rfl⟩⟩ := Salle.handleGame_cases hr
    · exact Salle.suivi_endRound (Salle.suivi_traite h.1 ht) hfin
    · exact Salle.suivi_traite h.1 ht
  heure {env db th s'} _ _ h0 h hr :=
    ⟨Salle.suivi_endRound h.1 hr, fun hs => absurd hs ((Salle.endRound_step hr).ne_stepRoom h0)⟩

/-- Wherever this thread may call `end_round` next, the search ends: on the game as it is, after a
message, and in both cases when the water rises first. -/
structure RechercheFinie (serveur : Serveur) (th : Thread) : Prop where
  repos : th.salle.jeu.TourTrouve
  montee : ∀ env g, th.salle.jeu.monteeEau env = some g → g.TourTrouve
  message : ∀ m env db s fin, Salle.traite serveur env m { th.salle with db } = some (s, fin) →
    s.jeu.TourTrouve ∧ ∀ g, s.jeu.monteeEau env = some g → g.TourTrouve

/-- **In every state of every run whose STARTs find the count right, the search of `end_round`
ends.** -/
theorem rechercheFinie_of_reach (serveur : Serveur) (V : List (Nat × Nat)) (hV : Cle V) (th : Thread)
    (h : Runs.Reach (etape serveur) (fun e th => (histoire V e th && departJuste e th) = true)
      Depart th) : th.RechercheFinie serveur := by
  have hs : th.salle.jeu.Suivi V := ((garde_suivie hV serveur).reach h).1.1
  refine ⟨hs.tourTrouve hV, fun env g hm => (hs.monteeEau hm).tourTrouve hV, ?_⟩
  intro m env db s fin ht
  have hs' : s.jeu.Suivi V := Salle.suivi_traite (s := { th.salle with db }) hs ht
  exact ⟨hs'.tourTrouve hV, fun g hm => (hs'.monteeEau hm).tourTrouve hV⟩

/-! ## One worm when the players join, three when they start -/

/-- No offset of any player has a worm. -/
def Bredouille (obj : Partie) (g : Game) : Prop :=
  g.gameObject = some obj ∧ ∀ j ∈ g.players, j.getNextLombricId obj g.lombNb = some (0, j)

theorem Bredouille.getNextLombricId {obj : Partie} {g g' : Game} {id : Nat} (hb : Bredouille obj g)
    (h : g.getNextLombricId = some (id, g')) : id = 0 ∧ g' = g := by
  unfold Game.getNextLombricId at h
  split at h
  · simp at h
  · next j hget =>
    split at h
    · cases h
      exact ⟨rfl, rfl⟩
    · have hn : (g.gameObject.bind fun obj => j.getNextLombricId obj g.lombNb) = some (0, j) := by
        rw [hb.1]
        exact hb.2 j (List.mem_of_getElem? hget)
      rw [hn] at h
      cases h
      obtain ⟨hlt, rfl⟩ := List.getElem?_eq_some_iff.mp hget
      rw [List.set_getElem_self]
      exact ⟨rfl, rfl⟩

/-- The search asks each player in turn, for ever. -/
theorem Bredouille.chercheTour {obj : Partie} (fuel : Nat) : ∀ {g : Game}, Bredouille obj g →
    g.chercheTour fuel = none := by
  induction fuel with
  | zero =>
    intro g _
    rfl
  | succ fuel ih =>
    intro g hb
    have hb' : Bredouille obj g.joueurSuivant := hb
    rw [Game.chercheTour]
    split
    · rfl
    · next g' h =>
      rw [(hb'.getNextLombricId h).2]
      exact ih hb'
    · next id g' h0 h => exact absurd (hb'.getNextLombricId h).1 h0

/-- A step down to the right: two columns of AIR over a wall. -/
def marche : Map :=
  Map.new 2 4 (fun y x => if y.val = 3 ∨ (x.val = 0 ∧ 1 ≤ y.val) then lightWall else air)
    (by decide) (by decide)

/-- Players 1 and 2 and a worm each. -/
def baseDeux : DataBase :=
  ⟨[⟨1, "", 0⟩, ⟨2, "", 0⟩], [⟨7, 1, ""⟩, ⟨8, 2, ""⟩], [⟨1, fun _ => 0, fun _ => 0, false⟩]⟩

/-- The clock shows `heure`; the first worm of each player goes to the left, the others to the right. -/
def envDeux (heure : Int) (nb : Nat) : Env :=
  let premier := [0, 0] ++ (List.replicate (nb - 1) [1, 0]).flatten
  ⟨0, heure, 0, premier ++ premier, 45, 0, 0⟩

/-- The owner sets the count to 1, players 1 and 2 join and take a team, the owner sets the count to
`nb` and starts. -/
def partieADeux (nb : Nat) : List Evenement :=
  let suite : Evenement := .suite (envDeux 0 nb) baseDeux
  [suite, .recoit ⟨1, .clientModifyNbLombrics 1⟩, suite, .recoit ⟨1, .infoRoom⟩, suite,
    .recoit ⟨2, .infoRoom⟩, suite, .recoit ⟨1, .clientJoinTeam 1⟩, suite,
    .recoit ⟨2, .clientJoinTeam 2⟩, suite, .recoit ⟨1, .clientModifyNbLombrics nb⟩, suite,
    .recoit ⟨1, .start⟩, suite, suite, suite]

/-- The water drowns the worms without id; worms 7 and 8 live, and neither is ever found. -/
theorem nombreMonte_sansFin : ∃ th, Runs.Reach (etape (serveurDe marche))
      (fun e th => histoire baseDeux.vers e th = true) Depart th ∧
    ∃ g, th.salle.jeu.monteeEau (envDeux 31 3) = some g ∧ (g.nbAliveTeams 0).map Prod.fst = some 2 ∧
      (∀ fuel, g.chercheTour fuel = none) ∧ ¬ th.RechercheFinie (serveurDe marche) := by
  obtain ⟨th, _, hr, hp⟩ := Runs.exists_of_exec (etape (serveurDe marche))
    (fun e th => histoire baseDeux.vers e th = true)
    (show Depart (new 1 1 baseDeux) from ⟨1, 1, baseDeux, rfl⟩) (partieADeux 3)
    (fun th => (th.salle.jeu.monteeEau (envDeux 31 3)).any fun g =>
      (g.nbAliveTeams 0).map Prod.fst == some 2 && g.gameObject.any fun obj =>
        g.players.all fun j => j.getNextLombricId obj g.lombNb == some (0, j)) (by decide +kernel)
  obtain ⟨g, hg, hp⟩ := Option.any_eq_true _ _ |>.mp hp
  simp only [Bool.and_eq_true, beq_iff_eq] at hp
  obtain ⟨h2, hp⟩ := hp
  obtain ⟨obj, hobj, hp⟩ := Option.any_eq_true _ _ |>.mp hp
  have hb : Bredouille obj g := ⟨hobj, by simpa using hp⟩
  refine ⟨th, hr, g, hg, h2, fun fuel => hb.chercheTour fuel, fun hf => ?_⟩
  obtain ⟨⟨nbrTeam, last⟩, hn, rfl⟩ := Option.map_eq_some_iff.mp h2
  obtain ⟨fuel, id, g', hc, _⟩ := hf.montee (envDeux 31 3) g hg 0 2 last hn le_rfl
  rw [hb.chercheTour fuel] at hc
  cases hc

/-- With one worm from the start to the end, every search ends. -/
theorem nombreGarde_rechercheFinie : ∃ th, Runs.exec (etape (serveurDe marche))
      (fun e th => (histoire baseDeux.vers e th && departJuste e th) = true) (partieADeux 1)
      (new 1 1 baseDeux) = some th ∧
    th.salle.currentStep = stepGame ∧ th.RechercheFinie (serveurDe marche) := by
  obtain ⟨th, hth, hr, hp⟩ := Runs.exists_of_exec (etape (serveurDe marche))
    (fun e th => (histoire baseDeux.vers e th && departJuste e th) = true)
    (show Depart (new 1 1 baseDeux) from ⟨1, 1, baseDeux, rfl⟩) (partieADeux 1)
    (fun th => th.salle.currentStep == stepGame) (by decide +kernel)
  exact ⟨th, hth, beq_iff_eq.mp hp,
    rechercheFinie_of_reach (serveurDe marche) baseDeux.vers ⟨by decide, by decide⟩ th hr⟩

end Thread
end LombricABrac
