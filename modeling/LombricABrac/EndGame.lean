import LombricABrac.Game

/-!
# Who wins: `nb_alive_teams`, `end_round`, `end_game`

`nb_alive_teams` leaves the *index* of the last living team it met, its number less one, or
nothing where there is none; `end_game` compares it with team numbers.

    compteEquipes_spec   : what the two results are, for at most one living team
    classe_foldl         : the points and victories `end_game` writes
    endRound_credit_iff  : `end_game` credits the right players exactly when nobody survives and the
                           uninitialised index is nobody's team, in a game of at most four players
-/

namespace LombricABrac

/-- Not a spectator. -/
def Joueur.enLice (j : Joueur) : Bool := j.equipe != 0

/-- Team `t` has a living worm. -/
def survit (obj : Partie) (players : List Joueur) (t : Nat) : Bool :=
  players.any fun j => j.equipe == t && j.enLice && j.isStillAlive obj == some true

/-- What `end_game` should leave: final points `1` and one more victory for the players of a
surviving team, final points `0` and nothing more for the others who play. -/
structure CreditJuste (obj : Partie) (players : List Joueur) (gameId : Nat) (db db' : DataBase) :
    Prop where
  points : ∀ i j, (players.filter Joueur.enLice)[i]? = some j →
    db'.finalPoints gameId (i + 1) = some (if survit obj players j.equipe then 1 else 0)
  victoires : ∀ u, db'.getUserPoints u = (db.getUserPoints u).map fun (n : Int) =>
    n + ((players.filter Joueur.enLice).countP fun j => j.playerId = u ∧ survit obj players j.equipe : Nat)

/-! ## `nb_alive_teams` -/

theorem survit_iff {obj : Partie} {players : List Joueur} {t : Nat} : survit obj players t = true ↔
    ∃ j ∈ players, j.equipe = t ∧ j.equipe ≠ 0 ∧ j.isStillAlive obj = some true := by
  simp only [survit, Joueur.enLice, List.any_eq_true, Bool.and_eq_true, beq_iff_eq, bne_iff_ne, ne_eq,
    and_assoc]

theorem survit_cons {obj : Partie} {j : Joueur} {js : List Joueur} {t : Nat} :
    survit obj (j :: js) t = true ↔
      (j.equipe = t ∧ j.equipe ≠ 0 ∧ j.isStillAlive obj = some true) ∨ survit obj js t = true := by
  rw [survit_iff, survit_iff]
  constructor
  · rintro ⟨k, hk, h⟩
    rcases List.mem_cons.mp hk with rfl | hk
    · exact Or.inl h
    · exact Or.inr ⟨k, hk, h⟩
  · rintro (h | ⟨k, hk, h⟩)
    · exact ⟨j, List.mem_cons_self, h⟩
    · exact ⟨k, List.mem_cons_of_mem _ hk, h⟩

/-- What the loop adds to its counter, from any state of `m_alive_team`.  Induction on the players
left; the case that registers a team is the one that uses up the difference. -/
theorem compteEquipes_spec (obj : Partie) (players : List Joueur) :
    ∀ (aliveTeam : Nat → Bool) (n last n' last' : Nat),
    Game.compteEquipes obj players aliveTeam n last = some (n', last') →
    n ≤ n' ∧
    (n' = n → last' = last ∧ ∀ t, survit obj players t = true → aliveTeam (t - 1) = true) ∧
    (n' = n + 1 → ∃ t, t ≠ 0 ∧ last' = t - 1 ∧ survit obj players t = true ∧
      ∀ t', survit obj players t' = true → aliveTeam (t' - 1) = true ∨ t' = t) := by
  induction players with
  | nil =>
    intro aliveTeam n last n' last' h
    cases h
    exact ⟨le_rfl, fun _ => ⟨rfl, fun t ht => by cases ht⟩, fun h => by omega⟩
  | cons j js ih =>
    intro aliveTeam n last n' last' h
    -- a player that registers nothing: the survivors are those of the others, or registered
    have hskip : (∀ t, survit obj (j :: js) t = true → survit obj js t = true ∨
          aliveTeam (t - 1) = true) →
        Game.compteEquipes obj js aliveTeam n last = some (n', last') →
        n ≤ n' ∧
        (n' = n → last' = last ∧ ∀ t, survit obj (j :: js) t = true → aliveTeam (t - 1) = true) ∧
        (n' = n + 1 → ∃ t, t ≠ 0 ∧ last' = t - 1 ∧ survit obj (j :: js) t = true ∧
          ∀ t', survit obj (j :: js) t' = true → aliveTeam (t' - 1) = true ∨ t' = t) := by
      intro hj hr
      obtain ⟨h1, h2, h3⟩ := ih _ _ _ _ _ hr
      refine ⟨h1, fun he => ⟨(h2 he).1, fun t ht => ?_⟩, fun he => ?_⟩
      · rcases hj t ht with ht | ht
        · exact (h2 he).2 t ht
        · exact ht
      · obtain ⟨t, ht0, hl, hs, hall⟩ := h3 he
        refine ⟨t, ht0, hl, survit_cons.mpr (Or.inr hs), fun t' ht' => ?_⟩
        rcases hj t' ht' with ht' | ht'
        · exact hall t' ht'
        · exact Or.inl ht'
    rw [Game.compteEquipes] at h
    split at h
    · next h0 =>
      refine hskip (fun t ht => ?_) h
      rcases survit_cons.mp ht with ⟨_, hne, _⟩ | ht
      · exact absurd h0 hne
      · exact Or.inl ht
    · next h0 =>
      split at h
      · simp at h
      · next hd =>
        refine hskip (fun t ht => ?_) h
        rcases survit_cons.mp ht with ⟨_, _, hv⟩ | ht
        · rw [hd] at hv
          cases hv
        · exact Or.inl ht
      · next hv =>
        split at h
        · simp at h
        · split at h
          · next hr =>
            refine hskip (fun t ht => ?_) h
            rcases survit_cons.mp ht with ⟨he, _, _⟩ | ht
            · exact Or.inr (he ▸ hr)
            · exact Or.inl ht
          · obtain ⟨h1, h2, h3⟩ := ih _ _ _ _ _ h
            refine ⟨by omega, fun he => by omega, fun he => ?_⟩
            obtain ⟨hl, hall⟩ := h2 he
            refine ⟨j.equipe, h0, hl, survit_cons.mpr (Or.inl ⟨rfl, h0, hv⟩), fun t' ht' => ?_⟩
            rcases survit_cons.mp ht' with ⟨he', _, _⟩ | ht'
            · exact Or.inr he'.symm
            · have ht0 : t' ≠ 0 := by
                obtain ⟨k, _, hk, hk0, _⟩ := survit_iff.mp ht'
                omega
              have := hall t' ht'
              simp only [Bool.or_eq_true, beq_iff_eq] at this
              rcases this with he' | hr
              · exact Or.inr (by omega)
              · exact Or.inl hr

/-- No survivor: the caller's variable is as it was. -/
theorem nbAliveTeams_zero {g : Game} {obj : Partie} {lastTeam last : Nat}
    (hobj : g.gameObject = some obj) (h : g.nbAliveTeams lastTeam = some (0, last)) :
    last = lastTeam ∧ ∀ t, survit obj g.players t = false := by
  rw [Game.nbAliveTeams, hobj] at h
  obtain ⟨_, h2, _⟩ := compteEquipes_spec obj g.players _ _ _ _ _ h
  obtain ⟨hl, hall⟩ := h2 rfl
  refine ⟨hl, fun t => ?_⟩
  by_contra ht
  have := hall t (by simpa using ht)
  cases this

/-- One survivor: its number less one. -/
theorem nbAliveTeams_one {g : Game} {obj : Partie} {lastTeam last : Nat}
    (hobj : g.gameObject = some obj) (h : g.nbAliveTeams lastTeam = some (1, last)) :
    ∃ t, t ≠ 0 ∧ last = t - 1 ∧ survit obj g.players t = true := by
  rw [Game.nbAliveTeams, hobj] at h
  obtain ⟨_, _, h3⟩ := compteEquipes_spec obj g.players _ _ _ _ _ h
  obtain ⟨t, ht0, hl, hs, _⟩ := h3 rfl
  exact ⟨t, ht0, hl, hs⟩

/-! ## `end_game` -/

/-- What one player who plays gets. -/
theorem classe_enLice (room last k : Nat) {db : DataBase} {j : Joueur} (hj : j.enLice = true)
    (hr : db.HasRoom room) :
    ∃ db', Game.classe room last (db, k) j = (db', k + 1) ∧ db'.HasRoom room ∧
      (1 ≤ k ∧ k ≤ 4 → db'.finalPoints room k = some (if j.equipe = last then 1 else 0)) ∧
      (∀ i, i ≠ k → db'.finalPoints room i = db.finalPoints room i) ∧
      ∀ u, db'.getUserPoints u = (db.getUserPoints u).map fun (n : Int) =>
        n + (if j.playerId = u ∧ j.equipe = last then 1 else 0) := by
  have h0 : j.equipe ≠ 0 := by simpa [Joueur.enLice] using hj
  rw [Game.classe, if_neg h0]
  refine ⟨_, rfl, ?_⟩
  split
  · next hl =>
    refine ⟨DataBase.hasRoom_addPlayer
      (DataBase.hasRoom_ajouteVictoire (DataBase.hasRoom_setFinalPoints hr 1 k) _) _ _,
      fun hk => ?_, fun i hi => ?_, fun u => ?_⟩
    · rw [DataBase.finalPoints_addPlayer, DataBase.finalPoints_ajouteVictoire,
        DataBase.finalPoints_setFinalPoints hr 1 hk]
    · rw [DataBase.finalPoints_addPlayer, DataBase.finalPoints_ajouteVictoire,
        DataBase.finalPoints_setFinalPoints_of_ne _ _ _ hi]
    · rw [DataBase.getUserPoints_addPlayer, DataBase.getUserPoints_ajouteVictoire,
        DataBase.getUserPoints_setFinalPoints]
      simp [hl]
  · next hl =>
    refine ⟨DataBase.hasRoom_addPlayer (DataBase.hasRoom_setFinalPoints hr 0 k) _ _, fun hk => ?_,
      fun i hi => ?_, fun u => ?_⟩
    · rw [DataBase.finalPoints_addPlayer, DataBase.finalPoints_setFinalPoints hr 0 hk]
    · rw [DataBase.finalPoints_addPlayer, DataBase.finalPoints_setFinalPoints_of_ne _ _ _ hi]
    · rw [DataBase.getUserPoints_addPlayer, DataBase.getUserPoints_setFinalPoints]
      simp [hl]

/-- **What `end_game` writes**: the players whose team *is* `last` are credited, the others get 0.
Induction on the players, with the index reached so far. -/
theorem classe_foldl (room last : Nat) (players : List Joueur) : ∀ (db : DataBase) (k : Nat),
    db.HasRoom room → 1 ≤ k →
    (∀ i, i < k → (players.foldl (Game.classe room last) (db, k)).1.finalPoints room i =
      db.finalPoints room i) ∧
    (∀ i j, (players.filter Joueur.enLice)[i]? = some j → k + i ≤ 4 →
      (players.foldl (Game.classe room last) (db, k)).1.finalPoints room (k + i) =
        some (if j.equipe = last then 1 else 0)) ∧
    ∀ u, (players.foldl (Game.classe room last) (db, k)).1.getUserPoints u =
      (db.getUserPoints u).map fun (n : Int) =>
        n + ((players.filter Joueur.enLice).countP fun j => j.playerId = u ∧ j.equipe = last : Nat) := by
  induction players with
  | nil =>
    intro db k _ _
    refine ⟨fun _ _ => rfl, fun i j h => by simp at h, fun u => ?_⟩
    simp
  | cons j js ih =>
    intro db k hr hk
    rw [List.foldl_cons]
    by_cases hj : j.enLice = true
    · obtain ⟨db', he, hr', hpk, hpi, hu⟩ := classe_enLice room last k hj hr
      obtain ⟨h1, h2, h3⟩ := ih db' (k + 1) hr' (by omega)
      rw [he, List.filter_cons_of_pos hj]
      refine ⟨fun i hi => ?_, fun i p hp hle => ?_, fun u => ?_⟩
      · rw [h1 i (by omega), hpi i (by omega)]
      · cases i with
        | zero =>
          obtain rfl : j = p := by simpa using hp
          exact (h1 k (Nat.lt_succ_self k)).trans (hpk ⟨hk, by omega⟩)
        | succ i =>
          rw [← h2 i p (by simpa using hp) (by omega), Nat.add_right_comm, Nat.add_assoc]
      · rw [h3 u, hu u, Option.map_map, List.countP_cons]
        congr 1
        funext n
        simp only [Function.comp_apply, decide_eq_true_eq]
        split <;> push_cast <;> ring
    · have h0 : j.equipe = 0 := by simpa [Joueur.enLice] using hj
      rw [List.filter_cons_of_neg hj, Game.classe, if_pos h0]
      exact ih db k hr hk

/-! ## Credits -/

namespace Salle

variable {env : Env} {s : Salle} {g : Game} {obj : Partie} {nbrTeam lastTeam : Nat}

/-- `end_game` is right about the index `last`. -/
theorem creditJuste_iff (obj : Partie) (players : List Joueur) (room last : Nat) (db : DataBase)
    (hr : db.HasRoom room) :
    CreditJuste obj players room db (players.foldl (Game.classe room last) (db, 1)).1 ↔
      (∀ j ∈ players, j.enLice = true → (survit obj players j.equipe = true ↔ j.equipe = last)) ∧
        (players.filter Joueur.enLice).length ≤ 4 := by
  obtain ⟨_, h2, h3⟩ := classe_foldl room last players db 1 hr le_rfl
  constructor
  · intro h
    have hlen : (players.filter Joueur.enLice).length ≤ 4 := by
      by_contra hgt
      have hi : 4 < (players.filter Joueur.enLice).length := by omega
      have := h.points 4 _ (List.getElem?_eq_getElem hi)
      rw [DataBase.finalPoints_eq_none _ _ (by omega)] at this
      cases this
    refine ⟨fun j hj hl => ?_, hlen⟩
    obtain ⟨i, hi, he⟩ := List.getElem_of_mem (List.mem_filter.mpr ⟨hj, hl⟩)
    have hget : (players.filter Joueur.enLice)[i]? = some j := by rw [List.getElem?_eq_getElem hi, he]
    have hp := h.points i j hget
    rw [Nat.add_comm, h2 i j hget (by omega)] at hp
    by_cases hs : survit obj players j.equipe = true
    · refine ⟨fun _ => ?_, fun _ => hs⟩
      by_contra hlast
      simp [hs, hlast] at hp
    · refine ⟨fun hs' => absurd hs' hs, fun hlast => ?_⟩
      rw [if_pos hlast, if_neg hs] at hp
      simp at hp
  · rintro ⟨hiff, hlen⟩
    refine ⟨fun i j hget => ?_, fun u => ?_⟩
    · have hmem := List.mem_filter.mp (List.mem_of_getElem? hget)
      have hi : i < 4 := by
        have := (List.getElem?_eq_some_iff.mp hget).1
        omega
      rw [Nat.add_comm, h2 i j hget (by omega)]
      by_cases hs : survit obj players j.equipe = true
      · rw [if_pos ((hiff j hmem.1 hmem.2).mp hs), if_pos hs]
      · rw [if_neg fun hl => hs ((hiff j hmem.1 hmem.2).mpr hl), if_neg hs]
    · rw [h3 u]
      congr 1
      funext n
      congr 2
      refine List.countP_congr fun j hj => ?_
      have hmem := List.mem_filter.mp hj
      simp [hiff j hmem.1 hmem.2]

theorem endRound_of_le_one (hm : s.jeu.monteeEau env = some g)
    (hn : g.nbAliveTeams env.lastTeam = some (nbrTeam, lastTeam)) (hle : nbrTeam ≤ 1) :
    endRound env s = some (endGame lastTeam { s with jeu := g }) := by
  unfold endRound
  simp only [hm, hn, if_pos hle]

/-- **When the winners are credited.**  `g` is the game that `end_round` counts the teams of. -/
theorem endRound_credit_iff (hm : s.jeu.monteeEau env = some g) (hobj : g.gameObject = some obj)
    (hn : g.nbAliveTeams env.lastTeam = some (nbrTeam, lastTeam)) (hle : nbrTeam ≤ 1)
    (hr : s.db.HasRoom g.gameId) :
    ∃ s', endRound env s = some s' ∧ (CreditJuste obj g.players g.gameId s.db s'.db ↔
      (∀ t, survit obj g.players t = false) ∧
        (∀ j ∈ g.players, j.enLice = true → j.equipe ≠ env.lastTeam) ∧
          (g.players.filter Joueur.enLice).length ≤ 4) := by
  refine ⟨_, endRound_of_le_one hm hn hle, ?_⟩
  rw [endGame]
  refine (creditJuste_iff obj g.players g.gameId lastTeam s.db hr).trans ?_
  obtain rfl | rfl : nbrTeam = 0 ∨ nbrTeam = 1 := by omega
  · obtain ⟨rfl, hnone⟩ := nbAliveTeams_zero hobj hn
    simp [hnone]
  · -- the survivors' number is not the index that `end_game` looks for
    obtain ⟨t, ht0, rfl, ht⟩ := nbAliveTeams_one hobj hn
    constructor
    · rintro ⟨hiff, _⟩
      obtain ⟨j, hj, he, h0, _⟩ := survit_iff.mp ht
      have := (hiff j hj (by simpa [Joueur.enLice] using h0)).mp (he ▸ ht)
      omega
    · rintro ⟨hnone, _⟩
      rw [hnone t] at ht
      cases ht

/-! ## A victory for the losers, and a draw -/

/-- Player 1 of team 1 has worm 7, player 2 of team 2 has worm 8; the worms of `vivants` are left. -/
def duel (vivants : List Nat) : Salle where
  jeu := { Game.new 1 1 with
    gameObject := some (Partie.setParam Map.petite
      (vivants.map fun id => ⟨⟨id, 0, 2, none⟩, .lombric ⟨id, 100, 150⟩⟩) false)
    players :=
      [⟨1, 1, 0, 1, "", [7, 0, 0, 0, 0, 0, 0, 0]⟩, ⟨2, 2, 0, 1, "", [8, 0, 0, 0, 0, 0, 0, 0]⟩] }
  currentStep := stepGame
  db := ⟨[⟨1, "", 0⟩, ⟨2, "", 0⟩], [⟨7, 1, ""⟩, ⟨8, 2, ""⟩], [⟨1, fun _ => 0, fun _ => 0, false⟩]⟩
  envois := []
  endGames := 0

/-- A call at time 0; `lastTeam` holds 9. -/
def envZero : Env := ⟨0, 0, 0, [], 1, 9, 0⟩

/-- Team 2 survives, and player 1 gets the point. -/
theorem duel_credit_faux : ∃ obj s', (duel [8]).jeu.gameObject = some obj ∧
    endRound envZero (duel [8]) = some s' ∧
      ¬ CreditJuste obj (duel [8]).jeu.players 1 (duel [8]).db s'.db := by
  have hpoint : (endRound envZero (duel [8])).bind (fun s' => s'.db.finalPoints 1 1) = some 1 := by
    decide +kernel
  obtain ⟨s', hs', hp⟩ := Option.bind_eq_some_iff.mp hpoint
  refine ⟨_, s', rfl, hs', fun hc => ?_⟩
  have h0 := hc.points 0 ⟨1, 1, 0, 1, "", [7, 0, 0, 0, 0, 0, 0, 0]⟩ rfl
  rw [hp] at h0
  revert h0
  decide +kernel

/-- Nobody survives, and nobody gets a point. -/
theorem duel_credit_juste : ∃ obj s', (duel []).jeu.gameObject = some obj ∧
    endRound envZero (duel []) = some s' ∧
      CreditJuste obj (duel []).jeu.players 1 (duel []).db s'.db := by
  have hn : (duel []).jeu.nbAliveTeams 9 = some (0, 9) := by decide +kernel
  have hm : (duel []).jeu.monteeEau envZero = some (duel []).jeu := rfl
  obtain ⟨s', hs', hiff⟩ := endRound_credit_iff hm rfl hn (by decide) ⟨_, rfl⟩
  exact ⟨_, s', rfl, hs', hiff.mpr ⟨(nbAliveTeams_zero rfl hn).2, by decide, by decide⟩⟩

end Salle
end LombricABrac
