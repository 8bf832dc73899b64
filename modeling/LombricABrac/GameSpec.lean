import LombricABrac.Game
import LombricABrac.PartieRest

/-!
# What the handlers of a room do

One inversion lemma for each function of `Game.lean` that later proofs meet: everything it can
leave, guards included.  The search for a turn moves cursors and nothing else, so it keeps what a
game is once its cursors are forgotten (`Game.fixe`).

    getNextLombricId_spec : the next worm of a player is alive and in one of its slots
    chercheTour_spec      : so is the worm of the next turn, for the player whose turn it is
    endRound_cases        : a round ends the game, or starts a turn
-/

namespace LombricABrac

theorem exists_of_mem_mapM {α β : Type} {f : α → Option β} {l : List α} : ∀ {l' : List β},
    l.mapM f = some l' → ∀ y ∈ l', ∃ x ∈ l, f x = some y := by
  induction l with
  | nil =>
    intro l' h y hy
    cases h
    cases hy
  | cons x l ih =>
    intro l' h y hy
    rw [List.mapM_cons] at h
    obtain ⟨z, hz, h⟩ := Option.bind_eq_some_iff.mp h
    obtain ⟨zs, hzs, h⟩ := Option.bind_eq_some_iff.mp h
    cases h
    rcases List.mem_cons.mp hy with rfl | hy
    · exact ⟨x, List.mem_cons_self, hz⟩
    · obtain ⟨w, hw, hf⟩ := ih hzs y hy
      exact ⟨w, List.mem_cons_of_mem _ hw, hf⟩

theorem mem_of_mapM {α β : Type} {f : α → Option β} {l : List α} : ∀ {l' : List β},
    l.mapM f = some l' → ∀ x ∈ l, ∃ y ∈ l', f x = some y := by
  induction l with
  | nil =>
    intro l' _ x hx
    cases hx
  | cons a l ih =>
    intro l' h x hx
    rw [List.mapM_cons] at h
    obtain ⟨z, hz, h⟩ := Option.bind_eq_some_iff.mp h
    obtain ⟨zs, hzs, h⟩ := Option.bind_eq_some_iff.mp h
    cases h
    rcases List.mem_cons.mp hx with rfl | hx
    · exact ⟨z, List.mem_cons_self, hz⟩
    · obtain ⟨y, hy, hf⟩ := ih hzs x hx
      exact ⟨y, List.mem_cons_of_mem _ hy, hf⟩

theorem mapM_of_forall {α β : Type} {f : α → Option β} {g : α → β} (l : List α)
    (h : ∀ x ∈ l, f x = some (g x)) : l.mapM f = some (l.map g) := by
  induction l with
  | nil => rfl
  | cons x l ih =>
    rw [List.mapM_cons, h x List.mem_cons_self, ih fun y hy => h y (List.mem_cons_of_mem x hy)]
    rfl

namespace Joueur

variable {obj : Partie} {nbLomb : Nat} {j j' : Joueur} {id : Nat}

/-- The player without its cursor. -/
def fixe (j : Joueur) : Joueur := { j with currentLombric := 0 }

/-- A field that is not the cursor. -/
theorem eq_of_fixe {α : Type} (f : Joueur → α) (hf : ∀ j, f j.fixe = f j) (h : j'.fixe = j.fixe) :
    f j' = f j := by
  rw [← hf j', ← hf j, h]

/-- Induction on the offsets left. -/
theorem chercheLombric_spec : ∀ {l : List Nat}, j.chercheLombric obj nbLomb l = some (id, j') →
    j'.fixe = j.fixe ∧ (id ≠ 0 → obj.isLombAlive id = true ∧
      ∃ i, i < nbLomb ∧ j.lombrics[i]? = some id) := by
  intro l
  induction l with
  | nil =>
    intro h
    rw [chercheLombric] at h
    split at h
    · simp at h
    · cases h
      exact ⟨rfl, fun h0 => absurd rfl h0⟩
  | cons next reste ih =>
    intro h
    rw [chercheLombric] at h
    split at h
    · simp at h
    · next hn =>
      split at h
      · simp at h
      · next x hx =>
        split at h
        · next ha =>
          cases h
          exact ⟨rfl, fun _ => ⟨ha, _, Nat.mod_lt _ (Nat.pos_of_ne_zero hn), hx⟩⟩
        · exact ih h

theorem getNextLombricId_spec (h : j.getNextLombricId obj nbLomb = some (id, j')) :
    j'.fixe = j.fixe ∧ (id ≠ 0 → obj.isLombAlive id = true ∧
      ∃ i, i < nbLomb ∧ j.lombrics[i]? = some id) :=
  chercheLombric_spec h

/-- Induction on the slots left. -/
theorem chercheVivant_spec : ∀ {l : List Nat}, j.chercheVivant obj l = some true →
    ∃ i ∈ l, ∃ id, j.lombrics[i]? = some id ∧ obj.isLombAlive id = true := by
  intro l
  induction l with
  | nil =>
    intro h
    cases h
  | cons i reste ih =>
    intro h
    rw [chercheVivant] at h
    split at h
    · cases h
    · next id hid =>
      split at h
      · next ha => exact ⟨i, List.mem_cons_self, id, hid, ha⟩
      · obtain ⟨k, hk, hlive⟩ := ih h
        exact ⟨k, List.mem_cons_of_mem _ hk, hlive⟩

/-- The slots that `is_still_alive` looks at. -/
theorem isStillAlive_spec (h : j.isStillAlive obj = some true) :
    ∃ i id, i < j.nbrLomb ∧ j.lombrics[i]? = some id ∧ obj.isLombAlive id = true := by
  obtain ⟨i, hi, id, hji, ha⟩ := chercheVivant_spec h
  exact ⟨i, id, List.mem_range.mp hi, hji, ha⟩

variable (obj) in
/-- A search whose slots all hold an id returns, with a living worm if an offset has one. -/
theorem chercheLombric_returns (hn : 0 < nbLomb) (h255 : j.nbrLomb ≠ 255)
    (hslots : ∀ i, i < nbLomb → ∃ x, j.lombrics[i]? = some x) (l : List Nat) :
    ∃ id j', j.chercheLombric obj nbLomb l = some (id, j') ∧
      ((∃ d ∈ l, ∃ x, j.lombrics[(d + j.currentLombric) % nbLomb]? = some x ∧
        obj.isLombAlive x = true) → obj.isLombAlive id = true ∧
          ∃ i, i < nbLomb ∧ j.lombrics[i]? = some id) := by
  induction l with
  | nil =>
    refine ⟨0, j, ?_, ?_⟩
    · rw [chercheLombric, if_neg h255]
    · rintro ⟨d, hd, _⟩
      cases hd
  | cons next reste ih =>
    have hlt := Nat.mod_lt (next + j.currentLombric) hn
    obtain ⟨x, hx⟩ := hslots _ hlt
    rw [chercheLombric, if_neg (by omega), hx]
    by_cases ha : obj.isLombAlive x = true
    · simp only [if_pos ha]
      exact ⟨x, _, rfl, fun _ => ⟨ha, _, hlt, hx⟩⟩
    · simp only [if_neg ha]
      obtain ⟨id, j', hr, hfind⟩ := ih
      refine ⟨id, j', hr, ?_⟩
      rintro ⟨d, hd, y, hy, hya⟩
      rcases List.mem_cons.mp hd with rfl | hd
      · rw [hx] at hy
        cases hy
        exact absurd hya ha
      · exact hfind ⟨d, hd, y, hy, hya⟩

end Joueur

namespace Game

variable {env : Env} {g g' : Game} {id : Nat}

/-- The game without its cursors. -/
def fixe (g : Game) : Game := { g with players := g.players.map Joueur.fixe, currentPlayerId := 0 }

/-- A field that is not a cursor. -/
theorem eq_of_fixe {α : Type} (f : Game → α) (hf : ∀ g, f g.fixe = f g) (h : g'.fixe = g.fixe) :
    f g' = f g := by
  rw [← hf g', ← hf g, h]

theorem lombNb_of_fixe (h : g'.fixe = g.fixe) : g'.lombNb = g.lombNb :=
  eq_of_fixe lombNb (fun _ => rfl) h

theorem gameObject_of_fixe (h : g'.fixe = g.fixe) : g'.gameObject = g.gameObject :=
  eq_of_fixe gameObject (fun _ => rfl) h

theorem length_of_fixe (h : g'.fixe = g.fixe) : g'.players.length = g.players.length :=
  eq_of_fixe (fun g => g.players.length) (fun _ => List.length_map _) h

theorem map_fixe_set {l : List Joueur} {i : Nat} {j j' : Joueur} (hj : l[i]? = some j)
    (hf : j'.fixe = j.fixe) : (l.set i j').map Joueur.fixe = l.map Joueur.fixe := by
  apply List.ext_getElem?
  intro k
  rw [List.getElem?_map, List.getElem?_map, List.getElem?_set]
  split
  · next hik =>
    subst hik
    have hlt := (List.getElem?_eq_some_iff.mp hj).1
    rw [if_pos hlt, hj]
    simp [hf]
  · rfl

/-- A spectator is passed; another player looks among its own worms. -/
theorem getNextLombricId_spec (h : g.getNextLombricId = some (id, g')) :
    g'.fixe = g.fixe ∧ g'.currentPlayerId = g.currentPlayerId ∧ (id ≠ 0 →
      ∃ obj j i, g.gameObject = some obj ∧ g.players[g.currentPlayerId]? = some j ∧
        obj.isLombAlive id = true ∧ i < g.lombNb ∧ j.lombrics[i]? = some id) := by
  unfold getNextLombricId at h
  split at h
  · simp at h
  · next j hj =>
    split at h
    · cases h
      exact ⟨rfl, rfl, fun h0 => absurd rfl h0⟩
    · split at h
      · simp at h
      · next x j' hx =>
        cases h
        obtain ⟨obj, hobj, hn⟩ := Option.bind_eq_some_iff.mp hx
        obtain ⟨hf, hid⟩ := Joueur.getNextLombricId_spec hn
        refine ⟨?_, rfl, fun h0 => ?_⟩
        · simp only [fixe, map_fixe_set hj hf]
        · obtain ⟨ha, i, hi, hji⟩ := hid h0
          exact ⟨obj, j, i, hobj, hj, ha, hi, hji⟩

theorem mem_of_fixe_eq (h : g'.fixe = g.fixe) {j' : Joueur} (hj : j' ∈ g'.players) :
    ∃ j ∈ g.players, j'.fixe = j.fixe := by
  have hp : g'.players.map Joueur.fixe = g.players.map Joueur.fixe := congrArg Game.players h
  have hmem : j'.fixe ∈ g'.players.map Joueur.fixe := List.mem_map_of_mem hj
  rw [hp] at hmem
  obtain ⟨j, hj, he⟩ := List.mem_map.mp hmem
  exact ⟨j, hj, he.symm⟩

/-- What `fixe` keeps of each player. -/
theorem exists_of_fixe_eq (h : g'.fixe = g.fixe) {i : Nat} {j : Joueur} (hj : g.players[i]? = some j) :
    ∃ j', g'.players[i]? = some j' ∧ j'.fixe = j.fixe := by
  have hp : g'.players.map Joueur.fixe = g.players.map Joueur.fixe := congrArg Game.players h
  have hi : (g'.players.map Joueur.fixe)[i]? = some j.fixe := by
    rw [hp, List.getElem?_map, hj]
    rfl
  rw [List.getElem?_map] at hi
  exact Option.map_eq_some_iff.mp hi

theorem chercheTour_spec (fuel : Nat) : ∀ {g : Game}, chercheTour fuel g = some (id, g') →
    g'.fixe = g.fixe ∧ id ≠ 0 ∧ ∃ obj j i, g.gameObject = some obj ∧
      g'.players[g'.currentPlayerId]? = some j ∧ obj.isLombAlive id = true ∧ i < g.lombNb ∧
        j.lombrics[i]? = some id := by
  induction fuel with
  | zero => intro g h; cases h
  | succ fuel ih =>
    intro g h
    rw [chercheTour] at h
    split at h
    · simp at h
    · next g1 h1 =>
      have hf1 : g1.fixe = g.fixe := (getNextLombricId_spec h1).1
      obtain ⟨hf, h0, obj, j, i, hobj, hj, ha, hi, hji⟩ := ih h
      refine ⟨hf.trans hf1, h0, obj, j, i, ?_, hj, ha, ?_, hji⟩
      · exact (gameObject_of_fixe hf1).symm.trans hobj
      · rwa [lombNb_of_fixe hf1] at hi
    · next x g1 h0 h1 =>
      cases h
      obtain ⟨hf, hc, hid⟩ := getNextLombricId_spec h1
      obtain ⟨obj, j, i, hobj, hj, ha, hi, hji⟩ := hid h0
      obtain ⟨j', hj', hfj⟩ := exists_of_fixe_eq hf hj
      refine ⟨hf, h0, obj, j', i, hobj, ?_, ha, hi, ?_⟩
      · rw [hc]
        exact hj'
      · rwa [Joueur.eq_of_fixe Joueur.lombrics (fun _ => rfl) hfj]

/-- A team is counted for a player who has a living worm. -/
theorem compteEquipes_pos {obj : Partie} : ∀ {js : List Joueur} {aliveTeam : Nat → Bool}
    {n last n' last' : Nat}, compteEquipes obj js aliveTeam n last = some (n', last') → n' ≠ n →
    ∃ j ∈ js, j.equipe ≠ 0 ∧ j.isStillAlive obj = some true := by
  intro js
  induction js with
  | nil =>
    intro aliveTeam n last n' last' h hne
    cases h
    exact absurd rfl hne
  | cons j js ih =>
    intro aliveTeam n last n' last' h hne
    have hrest : (∃ k ∈ js, k.equipe ≠ 0 ∧ k.isStillAlive obj = some true) →
        ∃ k ∈ j :: js, k.equipe ≠ 0 ∧ k.isStillAlive obj = some true := by
      rintro ⟨k, hk, h⟩
      exact ⟨k, List.mem_cons_of_mem _ hk, h⟩
    rw [compteEquipes] at h
    split at h
    · exact hrest (ih h hne)
    · next h0 =>
      split at h
      · simp at h
      · exact hrest (ih h hne)
      · next hv => exact ⟨j, List.mem_cons_self, h0, hv⟩

theorem nbAliveTeams_pos {lastTeam nbrTeam last : Nat}
    (h : g.nbAliveTeams lastTeam = some (nbrTeam, last)) (h0 : nbrTeam ≠ 0) :
    ∃ obj j i id, g.gameObject = some obj ∧ j ∈ g.players ∧ j.equipe ≠ 0 ∧ i < j.nbrLomb ∧
      j.lombrics[i]? = some id ∧ obj.isLombAlive id = true := by
  obtain ⟨obj, hobj, hc⟩ := Option.bind_eq_some_iff.mp h
  obtain ⟨j, hj, he, hv⟩ := compteEquipes_pos hc h0
  obtain ⟨i, id, hi, hji, ha⟩ := Joueur.isStillAlive_spec hv
  exact ⟨obj, j, i, id, hobj, hj, he, hi, hji, ha⟩

/-- A worm that START places: an id in a slot of a player who has a team. -/
theorem mem_idsLombrics {ids : List Nat} (h : g.idsLombrics = some ids) {id : Nat} (hid : id ∈ ids) :
    ∃ j ∈ g.players, j.equipe ≠ 0 ∧ ∃ i, i < g.lombNb ∧ j.lombrics[i]? = some id := by
  obtain ⟨ls, hls, rfl⟩ := Option.map_eq_some_iff.mp h
  obtain ⟨l, hl, hidl⟩ := List.mem_flatten.mp hid
  obtain ⟨j, hj, hjl⟩ := exists_of_mem_mapM hls l hl
  obtain ⟨i, hi, hji⟩ := exists_of_mem_mapM hjl id hidl
  obtain ⟨hj, he⟩ := List.mem_filter.mp hj
  exact ⟨j, hj, by simpa using he, i, List.mem_range.mp hi, hji⟩

theorem idsLombrics_mem {ids : List Nat} (h : g.idsLombrics = some ids) {j : Joueur} (hj : j ∈ g.players)
    (he : j.equipe ≠ 0) {i : Nat} (hi : i < g.lombNb) (hji : j.lombrics[i]? = some id) : id ∈ ids := by
  obtain ⟨ls, hls, rfl⟩ := Option.map_eq_some_iff.mp h
  obtain ⟨l, hl, hjl⟩ := mem_of_mapM hls j (List.mem_filter.mpr ⟨hj, by simpa using he⟩)
  obtain ⟨y, hy, hjy⟩ := mem_of_mapM hjl i (List.mem_range.mpr hi)
  rw [hji] at hjy
  cases hjy
  exact List.mem_flatten_of_mem hl hy

theorem spawnLombric_spec {serveur : Serveur} {obj : Partie} (h : g.spawnLombric serveur env = some obj) :
    ∃ f ids lombs reste, serveur.cartes g.mapId = some f ∧ g.idsLombrics = some ids ∧
      Partie.nouveauxLombrics f.carte g.lombPvInit g.lombPvMax ids 0 env.rand = some (lombs, reste) ∧
        obj = Partie.setParam f.carte lombs true := by
  unfold spawnLombric at h
  split at h
  · next f ids hf hids =>
    obtain ⟨⟨lombs, reste⟩, hl, rfl⟩ := Option.map_eq_some_iff.mp h
    exact ⟨f, ids, lombs, reste, hf, hids, hl, rfl⟩
  · simp at h

/-! ### The lobby -/

theorem mem_changeEquipe {id equipe : Nat} {j' : Joueur} : ∀ {js : List Joueur},
    j' ∈ changeEquipe id equipe js → ∃ j ∈ js, ∃ e, j' = { j with equipe := e } := by
  intro js
  induction js with
  | nil =>
    intro h
    cases h
  | cons j js ih =>
    intro h
    rw [changeEquipe] at h
    split at h <;> rcases List.mem_cons.mp h with rfl | h
    · exact ⟨j, List.mem_cons_self, equipe, rfl⟩
    · exact ⟨j', List.mem_cons_of_mem _ h, j'.equipe, rfl⟩
    · exact ⟨j', List.mem_cons_self, j'.equipe, rfl⟩
    · obtain ⟨k, hk, e, he⟩ := ih h
      exact ⟨k, List.mem_cons_of_mem _ hk, e, he⟩

theorem retire_sublist (id : Nat) (js : List Joueur) : (retire id js).Sublist js := by
  induction js using retire.induct id with
  | case1 => exact List.Sublist.refl _
  | case2 j h => rw [retire, if_pos h]; exact List.nil_sublist _
  | case3 j h => rw [retire, if_neg h]
  | case4 j k js h ih => rw [retire, if_pos h]; exact (ih.cons_cons k).cons j
  | case5 j k js h ih => rw [retire, if_neg h]; exact ih.cons_cons j

/-- A parameter changes teams at most, and CLIENT_MODIFY_NB_LOMBRICS the number of worms. -/
theorem parametre_cases {c : Contenu} (h : g.parametre c = some g') :
    g'.gameObject = g.gameObject ∧ g'.currentPlayerId = g.currentPlayerId ∧
      (∀ j' ∈ g'.players, ∃ j ∈ g.players, ∃ e, j' = { j with equipe := e }) ∧
      (g'.lombNb = g.lombNb ∨ ∃ n, c = .clientModifyNbLombrics n ∧ g'.lombNb = uint8 n) := by
  have hid : ∀ j' ∈ g.players, ∃ j ∈ g.players, ∃ e, j' = { j with equipe := e } :=
    fun j' hj => ⟨j', hj, j'.equipe, rfl⟩
  unfold parametre at h
  split at h <;> cases h
  case h_2 n =>
    refine ⟨rfl, rfl, fun j' hj' => ?_, Or.inl rfl⟩
    obtain ⟨j, hj, he⟩ := List.mem_map.mp hj'
    subst he
    split
    · exact ⟨j, hj, 0, rfl⟩
    · exact ⟨j, hj, j.equipe, rfl⟩
  case h_5 n => exact ⟨rfl, rfl, hid, Or.inr ⟨n, rfl, rfl⟩⟩
  all_goals exact ⟨rfl, rfl, hid, Or.inl rfl⟩

/-! ### The object -/

theorem monteeEau_cases (h : g.monteeEau env = some g') :
    g' = g ∨ ∃ obj obj₁ obj', g.gameObject = some obj ∧ obj.increaseWaterLevel = some obj₁ ∧
      obj₁.update env.fuel = some obj' ∧ g' = { g with gameObject := some obj' } := by
  unfold monteeEau at h
  split at h
  · obtain ⟨obj', hb, rfl⟩ := Option.map_eq_some_iff.mp h
    obtain ⟨obj, hobj, hb⟩ := Option.bind_eq_some_iff.mp hb
    obtain ⟨obj₁, hw, hu⟩ := Option.bind_eq_some_iff.mp hb
    exact Or.inr ⟨obj, obj₁, obj', hobj, hw, hu, rfl⟩
  · cases h
    exact Or.inl rfl

theorem caisse_cases {obj obj' : Partie} {x y : Int} (h : g.caisse env obj = some (obj', x, y)) :
    obj' = obj ∨ ∃ rand pos reste, obj.dropHealthBox g.boxPv rand = some (obj', pos, reste) := by
  unfold caisse at h
  split at h
  · simp at h
  · split at h
    · obtain ⟨⟨o, pos, reste⟩, hd, he⟩ := Option.map_eq_some_iff.mp h
      cases he
      exact Or.inr ⟨_, _, _, hd⟩
    · cases h
      exact Or.inl rfl

end Game

namespace Salle

variable {serveur : Serveur} {env : Env} {m : ZmqMsg} {s s' : Salle}

/-- A turn: the worm found becomes the current one, and perhaps a box falls. -/
theorem tourSuivant_cases (h : tourSuivant env s = some s') :
    ∃ id g obj obj' x y, s.jeu.chercheTour env.fuel = some (id, g) ∧ g.gameObject = some obj ∧
      g.caisse env (obj.setCurrentLomb id) = some (obj', x, y) ∧
      s' = { s with
        jeu := { g with gameObject := some obj', beginTimeRound := env.heureFin }
        envois := s.envois ++ g.annonceTour ⟨id, false, obj'.carte.waterLevel, x, y⟩ } := by
  unfold tourSuivant at h
  split at h
  · simp at h
  · next id g hg =>
    split at h
    · simp at h
    · next obj' x y hc =>
      cases h
      obtain ⟨obj, hobj, hc⟩ := Option.bind_eq_some_iff.mp hc
      exact ⟨id, g, obj, obj', x, y, hg, hobj, hc, rfl⟩

theorem endRound_cases (h : endRound env s = some s') :
    ∃ g nbrTeam lastTeam, s.jeu.monteeEau env = some g ∧
      g.nbAliveTeams env.lastTeam = some (nbrTeam, lastTeam) ∧
      (nbrTeam ≤ 1 ∧ s' = endGame lastTeam { s with jeu := g } ∨
        2 ≤ nbrTeam ∧ tourSuivant env { s with jeu := g } = some s') := by
  unfold endRound at h
  split at h
  · simp at h
  · next g hg =>
    split at h
    · simp at h
    · next nbrTeam lastTeam hn =>
      split at h
      · next hle =>
        cases h
        exact ⟨g, nbrTeam, lastTeam, hg, hn, Or.inl ⟨hle, rfl⟩⟩
      · next hgt => exact ⟨g, nbrTeam, lastTeam, hg, hn, Or.inr ⟨by omega, h⟩⟩

/-- A message of the game: it moves the current object, or leaves the game alone. -/
theorem traite_cases {fin : Bool} (h : traite serveur env m s = some (s', fin)) :
    s'.currentStep = s.currentStep ∧ s'.db = s.db ∧ s'.endGames = s.endGames ∧
      (∃ l, s'.envois = s.envois ++ l) ∧
      (s'.jeu = s.jeu ∧ fin = false ∨ ∃ obj obj', s.jeu.gameObject = some obj ∧
        s'.jeu = { s.jeu with gameObject := some obj' } ∧
        ((∃ lp, m.contenu = .posLombS lp ∧ obj.moveCurrentLombric env.fuel lp = some obj' ∧
            fin = obj'.endTour) ∨
          ∃ tir murs degats, m.contenu = .shoot tir ∧ fin = true ∧
            obj.useWeapon serveur.calculDirVect env.fuel tir = some (obj', murs, degats))) := by
  unfold traite at h
  split at h
  · next lp hc =>
    obtain ⟨obj', hb, he⟩ := Option.map_eq_some_iff.mp h
    obtain ⟨obj, hobj, hb⟩ := Option.bind_eq_some_iff.mp hb
    cases he
    exact ⟨rfl, rfl, rfl, ⟨_, rfl⟩, Or.inr ⟨obj, obj', hobj, rfl, Or.inl ⟨lp, hc, hb, rfl⟩⟩⟩
  · cases h
    exact ⟨rfl, rfl, rfl, ⟨_, rfl⟩, Or.inl ⟨rfl, rfl⟩⟩
  · cases h
    exact ⟨rfl, rfl, rfl, ⟨_, rfl⟩, Or.inl ⟨rfl, rfl⟩⟩
  · next tir hc =>
    obtain ⟨⟨obj', murs, degats⟩, hb, he⟩ := Option.map_eq_some_iff.mp h
    obtain ⟨obj, hobj, hb⟩ := Option.bind_eq_some_iff.mp hb
    cases he
    exact ⟨rfl, rfl, rfl, ⟨_, rfl⟩,
      Or.inr ⟨obj, obj', hobj, rfl, Or.inr ⟨tir, murs, degats, hc, rfl, hb⟩⟩⟩
  · cases h
    exact ⟨rfl, rfl, rfl, ⟨[], (List.append_nil _).symm⟩, Or.inl ⟨rfl, rfl⟩⟩

theorem handleGame_cases (h : handleGame serveur env m s = some s') :
    ∃ s₁ fin, traite serveur env m s = some (s₁, fin) ∧
      (fin = true ∧ endRound env s₁ = some s' ∨ fin = false ∧ s' = s₁) := by
  unfold handleGame at h
  split at h
  · simp at h
  · next s₁ fin ht =>
    cases fin with
    | true => exact ⟨s₁, true, ht, Or.inl ⟨rfl, h⟩⟩
    | false =>
      cases h
      exact ⟨s', false, ht, Or.inr ⟨rfl, rfl⟩⟩

/-- START: the worms are placed, and the first player looks for its next worm. -/
theorem demarre_cases (h : demarre serveur env s = some s') :
    ∃ obj id g lombs, s.jeu.spawnLombric serveur env = some obj ∧
      (s.jeu.commence env obj).getNextLombricId = some (id, g) ∧
      s' = { s with
        jeu := { g with gameObject := some (obj.setCurrentLomb id) }
        currentStep := stepGame
        envois := s.envois ++ g.annonce (.start lombs) ++ g.annonceTour ⟨id, false, 0, -1, -1⟩ } := by
  unfold demarre at h
  split at h
  · simp at h
  · next obj hobj =>
    split at h
    · simp at h
    · next id g hg =>
      cases h
      exact ⟨obj, id, g, _, hobj, hg, rfl⟩

theorem handleRoom_cases (h : handleRoom serveur env m s = some s') :
    m.contenu = .start ∧ m.receiverId = s.jeu.ownerId ∧ demarre serveur env s = some s' ∨
      s'.currentStep = s.currentStep ∧ s'.endGames = s.endGames ∧
        (s'.jeu = s.jeu ∨
          (∃ id, m.contenu = .clientJoinTeam id ∧ s'.jeu = s.jeu.setUsersTeam m.receiverId id) ∨
          (∃ j, m.contenu = .infoRoom ∧ s.jeu.nouveauJoueur s.db m.receiverId = some j ∧
            s'.jeu = s.jeu.addUser j) ∨
          ∃ g, s.jeu.parametre m.contenu = some g ∧ s'.jeu = g) := by
  unfold handleRoom at h
  split at h
  · cases h
    exact Or.inr ⟨rfl, rfl, Or.inl rfl⟩
  · next id hc =>
    cases h
    exact Or.inr ⟨rfl, rfl, Or.inr (Or.inl ⟨id, hc, rfl⟩)⟩
  · next hc =>
    obtain ⟨j, hj, rfl⟩ := Option.map_eq_some_iff.mp h
    exact Or.inr ⟨rfl, rfl, Or.inr (Or.inr (Or.inl ⟨j, hc, hj, rfl⟩))⟩
  · next hc =>
    split at h
    · next ho => exact Or.inl ⟨hc, ho, h⟩
    · cases h
      exact Or.inr ⟨rfl, rfl, Or.inl rfl⟩
  · split at h
    · cases h
      unfold regle
      split
      · next g hg => exact Or.inr ⟨rfl, rfl, Or.inr (Or.inr (Or.inr ⟨g, hg, rfl⟩))⟩
      · exact Or.inr ⟨rfl, rfl, Or.inl rfl⟩
    · cases h
      exact Or.inr ⟨rfl, rfl, Or.inl rfl⟩

/-- A message of the lobby: START, or it changes teams, the number of worms, or adds a player. -/
theorem handleRoom_lobby (h : handleRoom serveur env m s = some s') :
    m.contenu = .start ∧ demarre serveur env s = some s' ∨
      s'.currentStep = s.currentStep ∧ s'.jeu.gameObject = s.jeu.gameObject ∧
        s'.jeu.currentPlayerId = s.jeu.currentPlayerId ∧
        (∀ j' ∈ s'.jeu.players, (∃ j ∈ s.jeu.players, ∃ e, j' = { j with equipe := e }) ∨
          s.jeu.nouveauJoueur s.db m.receiverId = some j') ∧
        (s'.jeu.lombNb = s.jeu.lombNb ∨
          ∃ n, m.contenu = .clientModifyNbLombrics n ∧ s'.jeu.lombNb = uint8 n) := by
  rcases handleRoom_cases h with ⟨hc, _, hd⟩ | ⟨hs, _, hj | ⟨id, _, hj⟩ | ⟨j, _, hn, hj⟩ | ⟨g, hg, hj⟩⟩
  · exact Or.inl ⟨hc, hd⟩
  · rw [hj]
    exact Or.inr ⟨hs, rfl, rfl, fun j' hj' => Or.inl ⟨j', hj', j'.equipe, rfl⟩, Or.inl rfl⟩
  · rw [hj]
    exact Or.inr ⟨hs, rfl, rfl, fun j' hj' => Or.inl (Game.mem_changeEquipe hj'), Or.inl rfl⟩
  · rw [hj]
    refine Or.inr ⟨hs, rfl, rfl, fun j' hj' => ?_, Or.inl rfl⟩
    rcases List.mem_append.mp hj' with hj' | hj'
    · exact Or.inl ⟨j', hj', j'.equipe, rfl⟩
    · rw [List.mem_singleton.mp hj']
      exact Or.inr hn
  · obtain ⟨ho, hc, hp, hl⟩ := Game.parametre_cases hg
    rw [hj]
    exact Or.inr ⟨hs, ho, hc, fun j' hj' => Or.inl (hp j' hj'), hl⟩

end Salle
end LombricABrac
