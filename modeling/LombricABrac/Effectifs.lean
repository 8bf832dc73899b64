import LombricABrac.Presents
import LombricABrac.Tours
import LombricABrac.Demarrage

/-!
# The worms that START places

`add_user` fetches the worms of a player once, as many as `m_lomb_nb` says then; `spawn_lombric` takes
`m_lomb_nb` slots of each player later.  A slot that was not filled holds the id `0`, and
`Game::set_lomb`, which would tell the players of a new count, is never called.

`V` lists the pairs (id, owner) of all the rows that `worms` will ever have.

    idsLombrics_garni : the ids that START reads, where every player joined with enough worms
    complet_iff       : START places `m_lomb_nb` worms of each player if and only if that is so
    comptes_montes    : players who joined with one worm start with three, two of them without id
-/

namespace LombricABrac

/-- The slots after those that count are empty. -/
def Joueur.Libre (j : Joueur) : Prop := ∀ i, j.nbrLomb ≤ i → i < 8 → j.lombrics[i]? = some 0

namespace Game

/-- Each player with a team has `m_lomb_nb` worms of its own in the game, and no others are there. -/
def Complet (V : List (Nat × Nat)) (g : Game) (obj : Partie) : Prop :=
  ∃ rangs : List (List Nat),
    obj.spriteVector.map (·.corps) =
      rangs.flatten.map (fun id => Corps.lombric ⟨id, g.lombPvInit, g.lombPvMax⟩) ∧
    rangs.flatten.Nodup ∧
    List.Forall₂ (fun j ids => ids.length = g.lombNb ∧ ∀ id ∈ ids, id ≠ 0 ∧ (id, j.playerId) ∈ V)
      (g.players.filter fun j => j.equipe ≠ 0) rangs

/-- What the lobby keeps: the players are distinct and hold their first worms. -/
structure Garni (V : List (Nat × Nat)) (g : Game) : Prop where
  nodup : g.ids.Nodup
  nb_pos : 0 < g.lombNb
  nb_le : g.lombNb ≤ 8
  porte : ∀ j ∈ g.players, j.Porte V
  libre : ∀ j ∈ g.players, j.Libre

/-! ## The ids that START reads -/

variable {V : List (Nat × Nat)} {g g' : Game} {obj : Partie}

/-- The slots that START reads of a player that joined with enough worms. -/
theorem mapM_lombrics {j : Joueur} (h : j.Porte V) {n : Nat} (hn : n ≤ j.nbrLomb) :
    ((List.range n).mapM fun i => j.lombrics[i]?) = some ((lombricsDe V j.playerId).take n) := by
  have hlen : n ≤ (lombricsDe V j.playerId).length := by
    by_cases h0 : n = 0
    · omega
    · obtain ⟨x, _, hx⟩ := h.slots (n - 1) (by omega)
      have := (List.getElem?_eq_some_iff.mp hx).1
      omega
  have hall : ∀ i ∈ List.range n, j.lombrics[i]? = some ((lombricsDe V j.playerId).getD i 0) := by
    intro i hi
    have hi : i < n := List.mem_range.mp hi
    obtain ⟨x, hjx, hx⟩ := h.slots i (by omega)
    rw [hjx, List.getD_eq_getElem?_getD, hx]
    rfl
  rw [mapM_of_forall _ hall]
  congr 1
  apply List.ext_getElem
  · simp only [List.length_map, List.length_range, List.length_take]
    omega
  · intro i h₁ h₂
    rw [List.getElem_map, List.getElem_range, List.getElem_take]
    exact (List.getElem_eq_getD 0).symm

/-- **The ids that START reads**, player after player. -/
theorem idsLombrics_garni (h : g.Garni V) (hc : ∀ j ∈ g.players, j.equipe ≠ 0 → g.lombNb ≤ j.nbrLomb) :
    g.idsLombrics = some ((g.players.filter fun j => j.equipe ≠ 0).flatMap fun j =>
      (lombricsDe V j.playerId).take g.lombNb) := by
  have hall : ∀ j ∈ g.players.filter fun j => j.equipe ≠ 0,
      ((List.range g.lombNb).mapM fun i => j.lombrics[i]?) =
        some ((lombricsDe V j.playerId).take g.lombNb) := by
    intro j hj
    obtain ⟨hj, he⟩ := List.mem_filter.mp hj
    exact mapM_lombrics (h.porte j hj) (hc j hj (by simpa using he))
  rw [idsLombrics, mapM_of_forall _ hall, Option.map_some, List.flatMap_def]

theorem nodup_rangs (hV : Cle V) (h : g.ids.Nodup) (n : Nat) :
    ((g.players.filter fun j => j.equipe ≠ 0).flatMap fun j =>
      (lombricsDe V j.playerId).take n).Nodup := by
  rw [List.nodup_flatMap]
  constructor
  · intro j _
    have hnd : (lombricsDe V j.playerId).Nodup := hV.nodup.sublist (List.filter_sublist.map _)
    exact hnd.sublist (List.take_sublist _ _)
  · have hids : (g.players.filter fun j => j.equipe ≠ 0).Pairwise fun j k => j.playerId ≠ k.playerId :=
      (List.pairwise_map.mp h).sublist List.filter_sublist
    apply hids.imp
    intro j k hne x hx hx'
    obtain ⟨i, hi⟩ := List.mem_iff_getElem?.mp (List.mem_of_mem_take hx)
    obtain ⟨i', hi'⟩ := List.mem_iff_getElem?.mp (List.mem_of_mem_take hx')
    exact hne (hV.unique hi hi').1

theorem corps_spawnLombric {serveur : Serveur} {env : Env} (h : g.spawnLombric serveur env = some obj) :
    ∃ ids, g.idsLombrics = some ids ∧ obj.spriteVector.map (·.corps) =
      ids.map fun id => Corps.lombric ⟨id, g.lombPvInit, g.lombPvMax⟩ := by
  obtain ⟨f, ids, lombs, reste, _, hids, hl, rfl⟩ := spawnLombric_spec h
  exact ⟨ids, hids, (Partie.nouveauxLombrics_spec ids hl).2⟩

/-- One START: it places what it should exactly where no player has fewer worms than it takes. -/
theorem Garni.complet_spawnLombric (hV : Cle V) (h : g.Garni V) {serveur : Serveur} {env : Env}
    (hs : g.spawnLombric serveur env = some obj) :
    g.Complet V obj ↔ ∀ j ∈ g.players, j.equipe ≠ 0 → g.lombNb ≤ j.nbrLomb := by
  obtain ⟨ids, hids, hcorps⟩ := corps_spawnLombric hs
  constructor
  · rintro ⟨rangs, hr, _, hall⟩ j hj he
    by_contra hlt
    -- the first slot that is not filled
    have h0 : j.lombrics[j.nbrLomb]? = some 0 := by
      have := h.nb_le
      exact h.libre j hj j.nbrLomb le_rfl (by omega)
    have hid : 0 ∈ ids := idsLombrics_mem hids hj he (by omega) h0
    have hmem := List.mem_map_of_mem (f := fun id => Corps.lombric ⟨id, g.lombPvInit, g.lombPvMax⟩) hid
    rw [← hcorps, hr] at hmem
    obtain ⟨x, hx, he⟩ := List.mem_map.mp hmem
    have hx0 : x = 0 := by
      simpa using he
    obtain ⟨l, hl, hxl⟩ := List.mem_flatten.mp hx
    obtain ⟨i, hi⟩ := List.mem_iff_getElem?.mp hl
    obtain ⟨hlen, hget⟩ := List.forall₂_iff_get.mp hall
    obtain ⟨hi, hil⟩ := List.getElem?_eq_some_iff.mp hi
    have hrang := (hget i (by omega) hi).2 x (by simpa [hil] using hxl)
    exact hrang.1 hx0
  · intro hc
    have hids' := idsLombrics_garni h hc
    rw [hids] at hids'
    refine ⟨(g.players.filter fun j => j.equipe ≠ 0).map fun j => (lombricsDe V j.playerId).take g.lombNb,
      ?_, ?_, ?_⟩
    · rw [hcorps, Option.some.inj hids', List.flatMap_def]
    · rw [← List.flatMap_def]
      exact nodup_rangs hV h.nodup g.lombNb
    · rw [List.forall₂_map_right_iff, List.forall₂_same]
      intro j hj
      obtain ⟨hj, he⟩ := List.mem_filter.mp hj
      have hnb := hc j hj (by simpa using he)
      obtain ⟨x, _, hx⟩ := (h.porte j hj).slots (g.lombNb - 1) (by have := h.nb_pos; omega)
      have hlen := (List.getElem?_eq_some_iff.mp hx).1
      refine ⟨by rw [List.length_take]; omega, fun id hid => ?_⟩
      have hid := List.mem_of_mem_take hid
      refine ⟨hV.ne_zero hid, ?_⟩
      obtain ⟨⟨a, b⟩, hv, rfl⟩ := List.mem_map.mp hid
      obtain ⟨hv, hb⟩ := List.mem_filter.mp hv
      rw [← of_decide_eq_true hb]
      exact hv

/-! ## What the handlers keep -/

theorem Garni.of_stable (h : g.Garni V) (hst : g'.stable = g.stable) : g'.Garni V where
  nodup := nodup_of_stable h.nodup hst
  nb_pos := eq_of_stable lombNb (fun _ => rfl) hst ▸ h.nb_pos
  nb_le := eq_of_stable lombNb (fun _ => rfl) hst ▸ h.nb_le
  porte := forall_players_of_stable (Joueur.porte_fixe V) h.porte hst
  libre := forall_players_of_stable (fun _ => Iff.rfl) h.libre hst

theorem Garni.handleQuit (h : g.Garni V) (id : Nat) : (g.handleQuit id).Garni V where
  nodup := nodup_handleQuit h.nodup id
  nb_pos := h.nb_pos
  nb_le := h.nb_le
  porte j hj := h.porte j ((retire_sublist id g.players).subset hj)
  libre j hj := h.libre j ((retire_sublist id g.players).subset hj)

theorem libre_nouveauJoueur (hV : Cle V) {db : DataBase} (hdb : db.vers <+: V) {id : Nat} {j : Joueur}
    (hn : g.lombNb ≤ 8) (h : g.nouveauJoueur db id = some j) : j.Libre := by
  obtain ⟨hnb, _, hlen, hl⟩ := nouveauJoueur_lombrics hV hdb hn h
  intro i hi h8
  have htake : ((db.lombricsDe id).take g.lombNb).length = g.lombNb := by
    rw [List.length_take]
    omega
  rw [hl, List.getElem?_append_right (by omega), List.getElem?_replicate, if_pos (by omega)]

end Game

/-- A message of the lobby, from distinct users and with counts between 1 and 8. -/
theorem Salle.garni_handleRoom {V : List (Nat × Nat)} (hV : Cle V) {serveur : Serveur} {env : Env}
    {m : ZmqMsg} {s s' : Salle} (h : s.jeu.Garni V) (hdb : s.db.vers <+: V)
    (hnb : ∀ n, m.contenu = .clientModifyNbLombrics n → 1 ≤ n ∧ n ≤ 8)
    (hnew : m.contenu = .infoRoom → m.receiverId ∉ s.jeu.ids)
    (hr : handleRoom serveur env m s = some s') : s'.jeu.Garni V := by
  have hnodup := (nodup_handleRoom h.nodup hr).mpr hnew
  rcases handleRoom_lobby hr with ⟨_, hd⟩ | ⟨_, _, _, hp, hn⟩
  · exact h.of_stable (stable_demarre hd)
  · have hnb : 0 < s'.jeu.lombNb ∧ s'.jeu.lombNb ≤ 8 := by
      rcases hn with hn | ⟨n, hc, hn⟩
      · rw [hn]
        exact ⟨h.nb_pos, h.nb_le⟩
      · have := hnb n hc
        rw [hn, uint8]
        omega
    refine ⟨hnodup, hnb.1, hnb.2, fun j' hj' => ?_, fun j' hj' => ?_⟩
    · rcases hp j' hj' with ⟨j, hj, e, rfl⟩ | hj
      · exact (h.porte j hj).of_eq rfl rfl rfl
      · exact (porte_nouveauJoueur hV hdb h.nb_le hj).1
    · rcases hp j' hj' with ⟨j, hj, e, rfl⟩ | hj
      · exact h.libre j hj
      · exact Game.libre_nouveauJoueur hV hdb h.nb_le hj

/-! ## Runs -/

namespace Thread

/-- The lobby of distinct users: see `histoire` and `nouveauVenu`. -/
def salonSain (V : List (Nat × Nat)) (e : Evenement) (th : Thread) : Bool :=
  histoire V e th && nouveauVenu e th

theorem garde_garni {V : List (Nat × Nat)} (hV : Cle V) (serveur : Serveur) :
    Garde serveur (fun e th => salonSain V e th = true) fun s => s.jeu.Garni V := by
  refine garde_of_stable (I := Game.Garni V) Game.Garni.of_stable
    (fun _ _ => ⟨List.nodup_nil, Nat.succ_pos 7, le_rfl, nofun, nofun⟩) (fun id h => h.handleQuit id)
    fun {m env db th s'} hl hok h hr => ?_
  simp only [salonSain, histoire, nouveauVenu, hl, Bool.and_eq_true, decide_eq_true_eq] at hok
  obtain ⟨⟨hpre, hnb⟩, hnew⟩ := hok
  refine Salle.garni_handleRoom (s := { th.salle with db }) hV h hpre (fun n hc => ?_) (fun hc => ?_) hr
  · simpa [hc] using hnb
  · simpa [hc] using hnew

/-- **After any lobby of distinct users START places `m_lomb_nb` worms of each player, its own and all
different, if and only if each player with a team joined with that many at least.** -/
theorem complet_iff (serveur : Serveur) (V : List (Nat × Nat)) (hV : Cle V) (th th' : Thread) (m : ZmqMsg)
    (env : Env) (db : DataBase)
    (h : Runs.Reach (etape serveur) (fun e th => salonSain V e th = true) Depart th)
    (hl : th.lieu = .salleMsg m) (hm : m = ⟨th.salle.jeu.ownerId, .start⟩)
    (hs : etape serveur (.suite env db) th = some th') :
    ∃ obj, th'.salle.jeu.gameObject = some obj ∧ (th.salle.jeu.Complet V obj ↔
      ∀ j ∈ th.salle.jeu.players, j.equipe ≠ 0 → th.salle.jeu.lombNb ≤ j.nbrLomb) := by
  have hg : th.salle.jeu.Garni V := ((garde_garni hV serveur).reach h).1
  have hr := etape_salleMsg hl hs
  have hd : Salle.demarre serveur env { th.salle with db } = some th'.salle := by
    subst hm
    simpa [Salle.handleRoom] using hr
  obtain ⟨obj, id, hsp, hobj, _⟩ := Salle.demarre_start hd
  refine ⟨obj.setCurrentLomb id, hobj, ?_⟩
  show th.salle.jeu.Complet V obj ↔ _
  exact hg.complet_spawnLombric hV hsp

/-! ## One worm, then three -/

/-- Player 1, who owns eight worms, sets the count to `avant`, joins and takes a team, then sets it to
`apres` and sends START. -/
def salonDeUn (avant apres : Nat) : List Evenement :=
  let suite : Evenement := .suite (envPetit 0) petiteBase
  [suite, .recoit ⟨1, .clientModifyNbLombrics avant⟩, suite, .recoit ⟨1, .infoRoom⟩, suite,
    .recoit ⟨1, .clientJoinTeam 1⟩, suite, .recoit ⟨1, .clientModifyNbLombrics apres⟩, suite,
    .recoit ⟨1, .start⟩]

/-- With a count of 1, then 3, worm 1 comes with two worms that have no id. -/
theorem comptes_montes : ∃ th th' obj, Runs.Reach (etape (serveurDe Map.petite))
      (fun e th => salonSain petiteBase.vers e th = true) Depart th ∧
    th.lieu = .salleMsg ⟨th.salle.jeu.ownerId, .start⟩ ∧
    etape (serveurDe Map.petite) (.suite (envPetit 0) petiteBase) th = some th' ∧
    th'.salle.jeu.gameObject = some obj ∧ obj.spriteVector.map Sprite.getId = [1, 0, 0] ∧
    ¬ th.salle.jeu.Complet petiteBase.vers obj := by
  obtain ⟨th, _, hr, hp⟩ := Runs.exists_of_exec (etape (serveurDe Map.petite))
    (fun e th => salonSain petiteBase.vers e th = true)
    (show Depart (new 1 1 petiteBase) from ⟨1, 1, petiteBase, rfl⟩) (salonDeUn 1 3)
    (fun th => th.lieu == .salleMsg ⟨th.salle.jeu.ownerId, .start⟩ &&
      (etape (serveurDe Map.petite) (.suite (envPetit 0) petiteBase) th).any fun th' =>
        th'.salle.jeu.gameObject.any fun obj => obj.spriteVector.map Sprite.getId == [1, 0, 0])
    (by decide +kernel)
  rw [Bool.and_eq_true, beq_iff_eq] at hp
  obtain ⟨hl, hp⟩ := hp
  obtain ⟨th', hs, hp⟩ := Option.any_eq_true _ _ |>.mp hp
  obtain ⟨obj, hobj, hp⟩ := Option.any_eq_true _ _ |>.mp hp
  have hids : obj.spriteVector.map Sprite.getId = [1, 0, 0] := beq_iff_eq.mp hp
  refine ⟨th, th', obj, hr, hl, hs, hobj, hids, ?_⟩
  rintro ⟨rangs, hcorps, hnodup, _⟩
  have hmap := congrArg (List.map fun c => Sprite.getId ⟨⟨0, 0, 0, none⟩, c⟩) hcorps
  rw [List.map_map, List.map_map] at hmap
  have hflat : rangs.flatten = [1, 0, 0] := by
    rw [← hids]
    exact (hmap.trans (List.map_id rangs.flatten)).symm
  rw [hflat] at hnodup
  exact absurd hnodup (by decide)

/-- With a count of 3, then 1, it comes alone. -/
theorem comptes_baisses : ∃ th th', Runs.exec (etape (serveurDe Map.petite))
      (fun e th => salonSain petiteBase.vers e th = true) (salonDeUn 3 1) (new 1 1 petiteBase) = some th ∧
    etape (serveurDe Map.petite) (.suite (envPetit 0) petiteBase) th = some th' ∧
    ∃ obj, th'.salle.jeu.gameObject = some obj ∧ th.salle.jeu.Complet petiteBase.vers obj := by
  obtain ⟨th, hth, hr, hp⟩ := Runs.exists_of_exec (etape (serveurDe Map.petite))
    (fun e th => salonSain petiteBase.vers e th = true)
    (show Depart (new 1 1 petiteBase) from ⟨1, 1, petiteBase, rfl⟩) (salonDeUn 3 1)
    (fun th => th.lieu == .salleMsg ⟨th.salle.jeu.ownerId, .start⟩ &&
      (th.salle.jeu.players.all fun j => decide (th.salle.jeu.lombNb ≤ j.nbrLomb)) &&
      (etape (serveurDe Map.petite) (.suite (envPetit 0) petiteBase) th).isSome) (by decide +kernel)
  simp only [Bool.and_eq_true, beq_iff_eq, List.all_eq_true, decide_eq_true_eq] at hp
  obtain ⟨⟨hl, hc⟩, hp⟩ := hp
  obtain ⟨th', hs⟩ := Option.isSome_iff_exists.mp hp
  refine ⟨th, th', hth, hs, ?_⟩
  obtain ⟨obj, hobj, hiff⟩ := complet_iff (serveurDe Map.petite) petiteBase.vers ⟨by decide, by decide⟩
    th th' _ (envPetit 0) petiteBase hr hl rfl hs
  exact ⟨obj, hobj, hiff.mpr fun j hj _ => hc j hj⟩

end Thread
end LombricABrac
