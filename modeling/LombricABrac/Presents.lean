import LombricABrac.GameRuns

/-!
# Who is in a room

`m_players` from the first INFO_ROOM to the last CLIENT_QUIT_ROOM.  `add_user` appends whoever asks;
`handle_quit` erases inside its loop, and so never looks at the entry after the one it erased.

    stable_handleGame : a message of the game changes cursors, the object and the clock, nothing else
    retire_absent     : a user with one entry leaves for good
    presents_of_reach : in a run where INFO_ROOM only comes from users who are not in the room, each
                        id occurs once and a user who quits is gone
    deuxFois_reste    : a user who asks twice stays after it has quit
-/

namespace LombricABrac

/-! ## What a message of the game leaves alone -/

namespace Game

variable {g g' : Game}

/-- The game without its cursors, its object and its clocks. -/
def stable (g : Game) : Game :=
  { g.fixe with gameObject := none, beginTimeRound := 0, beginTimeGame := 0 }

theorem stable_of_fixe (h : g'.fixe = g.fixe) : g'.stable = g.stable := by
  unfold stable
  rw [h]

theorem eq_of_stable {α : Type} (f : Game → α) (hf : ∀ g, f g.stable = f g)
    (h : g'.stable = g.stable) : f g' = f g := by
  rw [← hf g', h, hf g]

/-- The ids of `m_players`, in order. -/
def ids (g : Game) : List Nat := g.players.map (·.playerId)

theorem ids_stable (g : Game) : ids g.stable = ids g := by
  simp [ids, stable, fixe, Joueur.fixe, List.map_map, Function.comp_def]

theorem ids_of_stable (h : g'.stable = g.stable) : g'.ids = g.ids := eq_of_stable ids ids_stable h

theorem nodup_of_stable (h : g.ids.Nodup) (hst : g'.stable = g.stable) : g'.ids.Nodup := by
  rw [ids_of_stable hst]
  exact h

/-- What is said of each player, whatever its cursor. -/
theorem forall_players_of_stable {P : Joueur → Prop} (hP : ∀ j, P j.fixe ↔ P j)
    (h : ∀ j ∈ g.players, P j) (hst : g'.stable = g.stable) : ∀ j ∈ g'.players, P j := by
  have hstable : ∀ g : Game, (∀ j ∈ g.stable.players, P j) ↔ ∀ j ∈ g.players, P j := by
    intro g
    show (∀ j ∈ g.players.map Joueur.fixe, P j) ↔ _
    rw [List.forall_mem_map]
    exact forall₂_congr fun j _ => hP j
  rw [← hstable g', hst, hstable g]
  exact h

theorem monteeEau_stable {env : Env} (h : g.monteeEau env = some g') : g'.stable = g.stable := by
  rcases monteeEau_cases h with rfl | ⟨obj, obj₁, obj', _, _, _, rfl⟩ <;> rfl

end Game

namespace Salle

variable {serveur : Serveur} {env : Env} {m : ZmqMsg} {s s' : Salle}

theorem stable_tourSuivant (h : tourSuivant env s = some s') : s'.jeu.stable = s.jeu.stable := by
  obtain ⟨id, g, obj, obj', x, y, hc, _, _, rfl⟩ := tourSuivant_cases h
  obtain ⟨hf, _⟩ := Game.chercheTour_spec env.fuel hc
  show g.stable = s.jeu.stable
  exact Game.stable_of_fixe hf

theorem stable_endRound (h : endRound env s = some s') : s'.jeu.stable = s.jeu.stable := by
  obtain ⟨g, nbrTeam, lastTeam, hm, _, ⟨_, rfl⟩ | ⟨_, ht⟩⟩ := endRound_cases h
  · exact Game.monteeEau_stable hm
  · exact (stable_tourSuivant ht).trans (Game.monteeEau_stable hm)

theorem stable_traite {fin : Bool} (h : traite serveur env m s = some (s', fin)) :
    s'.jeu.stable = s.jeu.stable := by
  obtain ⟨_, _, _, _, ⟨hj, _⟩ | ⟨obj, obj', _, hj, _⟩⟩ := traite_cases h
  · rw [hj]
  · rw [hj]
    rfl

theorem stable_handleGame (h : handleGame serveur env m s = some s') :
    s'.jeu.stable = s.jeu.stable := by
  obtain ⟨s₁, fin, ht, ⟨_, hr⟩ | ⟨_, rfl⟩⟩ := handleGame_cases h
  · exact (stable_endRound hr).trans (stable_traite ht)
  · exact stable_traite ht

theorem stable_demarre (h : demarre serveur env s = some s') : s'.jeu.stable = s.jeu.stable := by
  obtain ⟨obj, id, g, lombs, _, hn, rfl⟩ := demarre_cases h
  show g.stable = (s.jeu.commence env obj).stable
  exact Game.stable_of_fixe (Game.getNextLombricId_spec hn).1

end Salle

/-! ## Joining and leaving -/

namespace Game

variable {g g' : Game}

/-- A new player is a spectator with the worms of the tables. -/
theorem nouveauJoueur_eq {db : DataBase} {id : Nat} {j : Joueur} (h : g.nouveauJoueur db id = some j) :
    ∃ lombrics pseudo, j = { Joueur.new with playerId := id, nbrLomb := g.lombNb, lombrics, pseudo } := by
  obtain ⟨j₁, hj₁, rfl⟩ := Option.map_eq_some_iff.mp h
  unfold Joueur.initWorms at hj₁
  simp only at hj₁
  split at hj₁
  · simp at hj₁
  · obtain ⟨lombrics, _, rfl⟩ := Option.map_eq_some_iff.mp hj₁
    exact ⟨lombrics, _, rfl⟩

theorem nouveauJoueur_playerId {db : DataBase} {id : Nat} {j : Joueur}
    (h : g.nouveauJoueur db id = some j) : j.playerId = id := by
  obtain ⟨lombrics, pseudo, rfl⟩ := nouveauJoueur_eq h
  rfl

theorem map_changeEquipe (id equipe : Nat) (js : List Joueur) :
    (changeEquipe id equipe js).map (·.playerId) = js.map (·.playerId) := by
  induction js with
  | nil => rfl
  | cons j js ih =>
    unfold changeEquipe
    split
    · rfl
    · rw [List.map_cons, List.map_cons, ih]

theorem ids_parametre {c : Contenu} (h : g.parametre c = some g') : g'.ids = g.ids := by
  unfold parametre at h
  split at h <;> cases h
  case h_2 n =>
    unfold ids
    rw [List.map_map]
    refine List.map_congr_left fun j _ => ?_
    show (if uint8 n < j.equipe then { j with equipe := 0 } else j).playerId = j.playerId
    split <;> rfl
  all_goals rfl

theorem retire_of_absent {id : Nat} (js : List Joueur) (h : id ∉ js.map (·.playerId)) :
    retire id js = js := by
  induction js using retire.induct id with
  | case1 => rfl
  | case2 j hj => exact absurd (List.mem_map.mpr ⟨j, List.mem_singleton.mpr rfl, hj⟩) h
  | case3 j hj => rw [retire, if_neg hj]
  | case4 j k js hj _ => exact absurd (List.mem_map.mpr ⟨j, List.mem_cons_self, hj⟩) h
  | case5 j k js hj ih => rw [retire, if_neg hj, ih (mt (List.mem_cons_of_mem _) h)]

/-- **The loop of `handle_quit`** removes a user who has one entry. -/
theorem retire_absent {id : Nat} (js : List Joueur) (h : (js.map (·.playerId)).Nodup) :
    id ∉ (retire id js).map (·.playerId) := by
  induction js using retire.induct id with
  | case1 => exact List.not_mem_nil
  | case2 j hj =>
    rw [retire, if_pos hj]
    exact List.not_mem_nil
  | case3 j hj =>
    rw [retire, if_neg hj]
    exact fun hm => hj (List.mem_singleton.mp hm).symm
  | case4 j k js hj _ =>
    -- the next entry is skipped, but it has another id
    have hk : id ∉ (k :: js).map (·.playerId) := hj ▸ (List.nodup_cons.mp h).1
    rw [retire, if_pos hj, retire_of_absent js (mt (List.mem_cons_of_mem _) hk)]
    exact hk
  | case5 j k js hj ih =>
    rw [retire, if_neg hj, List.map_cons, List.mem_cons]
    rintro (hm | hm)
    · exact hj hm.symm
    · exact ih (List.nodup_cons.mp h).2 hm

theorem nodup_handleQuit (h : g.ids.Nodup) (id : Nat) : (g.handleQuit id).ids.Nodup :=
  h.sublist ((retire_sublist id g.players).map _)

theorem nodup_addUser (h : g.ids.Nodup) (j : Joueur) :
    (g.addUser j).ids.Nodup ↔ j.playerId ∉ g.ids := by
  simp only [ids, addUser, List.map_append, List.map_cons, List.map_nil] at h ⊢
  rw [List.nodup_append]
  constructor
  · rintro ⟨_, _, hne⟩ hm
    exact hne _ hm _ (List.mem_singleton.mpr rfl) rfl
  · intro hm
    refine ⟨h, List.nodup_singleton _, ?_⟩
    rintro a ha b hb rfl
    exact hm (List.mem_singleton.mp hb ▸ ha)

end Game

/-! ## Runs -/

namespace Thread

/-- INFO_ROOM comes from a user who is not in the room yet. -/
def nouveauVenu (e : Evenement) (th : Thread) : Bool :=
  match th.lieu, e with
  | .salleMsg m, .suite _ _ =>
    m.contenu != .infoRoom || decide (m.receiverId ∉ th.salle.jeu.ids)
  | _, _ => true

/-- Each id occurs once, and after its CLIENT_QUIT_ROOM no entry of a user remains. -/
structure Presents (s : Salle) : Prop where
  nodup : s.jeu.ids.Nodup
  quitte : ∀ m : ZmqMsg, m.estQuit = true → m.receiverId ∉ (s.handleQuit m).jeu.ids

end Thread

namespace Salle

variable {serveur : Serveur} {env : Env} {m : ZmqMsg} {s s' : Salle}

theorem presents_of_nodup (h : s.jeu.ids.Nodup) : Thread.Presents s where
  nodup := h
  quitte m hm := by
    rw [handleQuit_jeu hm]
    exact Game.retire_absent s.jeu.players h

/-- **A message of the lobby** keeps the ids apart unless it adds a user who is there. -/
theorem nodup_handleRoom (h : s.jeu.ids.Nodup) (hr : handleRoom serveur env m s = some s') :
    s'.jeu.ids.Nodup ↔ (m.contenu = .infoRoom → m.receiverId ∉ s.jeu.ids) := by
  have hof : ∀ {c : Contenu}, c ≠ .infoRoom → m.contenu = c → s'.jeu.ids = s.jeu.ids →
      (s'.jeu.ids.Nodup ↔ (m.contenu = .infoRoom → m.receiverId ∉ s.jeu.ids)) := by
    rintro c hne rfl he
    rw [he]
    exact ⟨fun _ hc => absurd hc hne, fun _ => h⟩
  by_cases hi : m.contenu = .infoRoom
  · unfold handleRoom at hr
    rw [hi] at hr
    obtain ⟨j, hj, rfl⟩ := Option.map_eq_some_iff.mp hr
    have hn := Game.nodup_addUser h j
    rw [Game.nouveauJoueur_playerId hj] at hn
    exact hn.trans ⟨fun hm _ => hm, fun hm => hm hi⟩
  · rcases handleRoom_cases hr with ⟨_, _, hd⟩ | ⟨_, _, hj | ⟨id, _, hj⟩ | ⟨j, hc, _⟩ | ⟨g, hg, hj⟩⟩
    · exact hof hi rfl (Game.ids_of_stable (stable_demarre hd))
    · exact hof hi rfl (congrArg Game.ids hj)
    · refine hof hi rfl ?_
      rw [hj]
      exact Game.map_changeEquipe m.receiverId (uint8 id) s.jeu.players
    · exact absurd hc hi
    · refine hof hi rfl ?_
      rw [hj]
      exact Game.ids_parametre hg

end Salle

namespace Thread

/-- **A rule for the lobby**: what the cursors, the object and the clocks do not bear on, the quits keep and
the messages of the lobby keep holds throughout. -/
theorem garde_of_stable {serveur : Serveur} {ok : Evenement → Thread → Prop} {I : Game → Prop}
    (hst : ∀ {g g' : Game}, I g → g'.stable = g.stable → I g')
    (h0 : ∀ owner roomId, I (Game.new owner roomId)) (hquit : ∀ {g : Game} (id : Nat), I g → I (g.handleQuit id))
    (hroom : ∀ {m : ZmqMsg} {env : Env} {db : DataBase} {th : Thread} {s' : Salle}, th.lieu = .salleMsg m →
      ok (.suite env db) th → I th.salle.jeu →
      Salle.handleRoom serveur env m { th.salle with db } = some s' → I s'.jeu) :
    Garde serveur ok fun s => I s.jeu where
  init owner roomId _ := h0 owner roomId
  db _ h := h
  quit {m th} _ _ h := by
    unfold Salle.handleQuit
    split
    · exact hquit m.receiverId h
    · exact h
  room hl hok _ h hr := hroom hl hok h hr
  game _ _ _ h hr := hst h (Salle.stable_handleGame hr)
  heure _ _ _ h hr := hst h (Salle.stable_endRound hr)

theorem garde_presents (serveur : Serveur) :
    Garde serveur (fun e th => nouveauVenu e th = true) fun s => s.jeu.ids.Nodup := by
  refine garde_of_stable (I := fun g => g.ids.Nodup) Game.nodup_of_stable (fun _ _ => List.nodup_nil)
    (fun id h => Game.nodup_handleQuit h id) fun {m env db th s'} hl hok h hr => ?_
  refine (Salle.nodup_handleRoom (s := { th.salle with db }) h hr).mpr fun hc => ?_
  unfold nouveauVenu at hok
  rw [hl] at hok
  simpa [hc] using hok

/-- **Users join once and leave for good** in a run that only adds new users; the first step that
adds another breaks it. -/
theorem presents_of_reach (serveur : Serveur) (th : Thread)
    (h : Runs.Reach (etape serveur) (fun e th => nouveauVenu e th = true) Depart th) :
    Presents th.salle ∧ ∀ e th', etape serveur e th = some th' →
      (nouveauVenu e th = true ↔ Presents th'.salle) := by
  obtain ⟨hI, ha⟩ := (garde_presents serveur).reach h
  refine ⟨Salle.presents_of_nodup hI, fun e th' hs => ⟨fun hok => ?_, fun hp => ?_⟩⟩
  · exact Salle.presents_of_nodup ((garde_presents serveur).etape hI ha hok hs).1
  · unfold nouveauVenu
    split
    · next m env db hl =>
      have hr := etape_salleMsg hl hs
      have hiff := (Salle.nodup_handleRoom (s := { th.salle with db }) hI hr).mp hp.nodup
      by_cases hc : m.contenu = .infoRoom
      · simp [hiff hc]
      · simp [hc]
    · rfl

/-! ## One user, twice -/

/-- Player 1 of room 1 asks for the room, and again where `encore` says so, then it quits. -/
def vaEtVient (encore : Bool) : List Evenement :=
  let suite : Evenement := .suite (envPetit 0) petiteBase
  [suite, .recoit ⟨1, .infoRoom⟩, suite] ++ (if encore then [.recoit ⟨1, .infoRoom⟩, suite] else []) ++
    [.recoit ⟨1, .clientQuitRoom ""⟩]

/-- The second entry is the one after the first, which the loop does not look at. -/
theorem deuxFois_reste : ∃ th, Runs.Reach (etape (serveurDe Map.petite)) (fun _ _ => True) Depart th ∧
    th.lieu = .salleMsg ⟨1, .clientQuitRoom ""⟩ ∧ th.salle.jeu.ids = [1] ∧
      ∃ th₀, Runs.Reach (etape (serveurDe Map.petite)) (fun _ _ => True) Depart th₀ ∧
        th₀.salle.jeu.ids = [1, 1] ∧ ¬ Presents th₀.salle := by
  obtain ⟨th, _, hr, hp⟩ := Runs.exists_of_exec (etape (serveurDe Map.petite)) (fun _ _ => True)
    (show Depart (new 1 1 petiteBase) from ⟨1, 1, petiteBase, rfl⟩) (vaEtVient true)
    (fun th => th.lieu == .salleMsg ⟨1, .clientQuitRoom ""⟩ && th.salle.jeu.ids == [1])
    (by decide +kernel)
  obtain ⟨th₀, _, hr₀, hp₀⟩ := Runs.exists_of_exec (etape (serveurDe Map.petite)) (fun _ _ => True)
    (show Depart (new 1 1 petiteBase) from ⟨1, 1, petiteBase, rfl⟩) ((vaEtVient true).take 5)
    (fun th => th.salle.jeu.ids == [1, 1]) (by decide +kernel)
  simp only [Bool.and_eq_true, beq_iff_eq] at hp hp₀
  refine ⟨th, hr, hp.1, hp.2, th₀, hr₀, hp₀, fun hn => ?_⟩
  have := hn.nodup
  rw [hp₀] at this
  exact absurd this (by decide)

/-- A user who asks once is gone after it has quit. -/
theorem uneFois_presents : ∃ th, Runs.exec (etape (serveurDe Map.petite))
      (fun e th => nouveauVenu e th = true) (vaEtVient false) (new 1 1 petiteBase) = some th ∧
    th.salle.jeu.ids = [] ∧ Presents th.salle := by
  obtain ⟨th, hth, hr, hp⟩ := Runs.exists_of_exec (etape (serveurDe Map.petite))
    (fun e th => nouveauVenu e th = true)
    (show Depart (new 1 1 petiteBase) from ⟨1, 1, petiteBase, rfl⟩) (vaEtVient false)
    (fun th => th.salle.jeu.ids == []) (by decide +kernel)
  exact ⟨th, hth, beq_iff_eq.mp hp, (presents_of_reach (serveurDe Map.petite) th hr).1⟩

end Thread
end LombricABrac
