import LombricABrac.Salon
import LombricABrac.Effectifs

/-!
# Teams and their numbers

`change_nb_teams` takes players out of teams that are no more; `set_users_team` lets a player into any
team.  The server indexes `m_alive_team[4]` by a team less one, a client its `teamsVector`, which has
`nbr_equipes` entries.

    bornees_of_reach : in a run where players take teams that are there, every index is in range
    equipe_7         : a player takes team 7
-/

namespace LombricABrac

namespace Game

variable {g g' : Game}

/-! ## Two entries of a user -/

/-- Only the first entry of a user may have a team. -/
def UneEquipe (g : Game) : Prop :=
  g.players.Pairwise fun j k => j.playerId = k.playerId → k.equipe = 0

theorem UneEquipe.of_stable (h : g.UneEquipe) (hst : g'.stable = g.stable) : g'.UneEquipe := by
  have hiff : ∀ g : Game, UneEquipe g.stable = UneEquipe g := fun _ => propext List.pairwise_map
  rw [eq_of_stable UneEquipe hiff hst]
  exact h

theorem mem_changeEquipe_cases {id equipe : Nat} {k : Joueur} : ∀ {js : List Joueur},
    k ∈ changeEquipe id equipe js → k ∈ js ∨ k.playerId = id := by
  intro js
  induction js with
  | nil => exact Or.inl
  | cons j js ih =>
    intro hk
    unfold changeEquipe at hk
    split at hk
    · next hj =>
      rcases List.mem_cons.mp hk with rfl | hk
      · exact Or.inr hj
      · exact Or.inl (List.mem_cons_of_mem _ hk)
    · rcases List.mem_cons.mp hk with rfl | hk
      · exact Or.inl List.mem_cons_self
      · exact (ih hk).imp_left (List.mem_cons_of_mem _)

/-- CLIENT_JOIN_TEAM changes the first entry of the user. -/
theorem UneEquipe.setUsersTeam (h : g.UneEquipe) (id equipe : Nat) : (g.setUsersTeam id equipe).UneEquipe := by
  unfold UneEquipe Game.setUsersTeam at *
  simp only
  generalize g.players = js at h
  induction js with
  | nil => exact List.Pairwise.nil
  | cons j js ih =>
    obtain ⟨hj, hjs⟩ := List.pairwise_cons.mp h
    unfold changeEquipe
    split
    · exact List.pairwise_cons.mpr ⟨hj, hjs⟩
    · next hne =>
      refine List.pairwise_cons.mpr ⟨fun k hk he => ?_, ih hjs⟩
      rcases mem_changeEquipe_cases hk with hk | hk
      · exact hj k hk he
      · exact absurd (he.trans hk) hne

theorem nouveauJoueur_equipe {db : DataBase} {id : Nat} {j : Joueur}
    (h : g.nouveauJoueur db id = some j) : j.equipe = 0 := by
  obtain ⟨lombrics, pseudo, rfl⟩ := nouveauJoueur_eq h
  rfl

theorem UneEquipe.addUser (h : g.UneEquipe) {j : Joueur} (hj : j.equipe = 0) : (g.addUser j).UneEquipe := by
  refine List.pairwise_append.mpr ⟨h, List.pairwise_singleton _ _, fun a _ b hb _ => ?_⟩
  rwa [List.mem_singleton.mp hb]

theorem UneEquipe.parametre (h : g.UneEquipe) {c : Contenu} (hg : g.parametre c = some g') :
    g'.UneEquipe := by
  unfold Game.parametre at hg
  split at hg <;> cases hg
  case h_2 n =>
    refine List.pairwise_map.mpr (h.imp fun {j k} hjk he => ?_)
    have hid : j.playerId = k.playerId := by
      split at he <;> split at he <;> exact he
    split
    · rfl
    · exact hjk hid
  all_goals exact h

end Game

theorem Salle.uneEquipe_handleRoom {serveur : Serveur} {env : Env} {m : ZmqMsg} {s s' : Salle}
    (h : s.jeu.UneEquipe) (hr : handleRoom serveur env m s = some s') : s'.jeu.UneEquipe := by
  rcases handleRoom_cases hr with ⟨_, _, hd⟩ | ⟨_, _, hj | ⟨id, _, hj⟩ | ⟨j, _, hn, hj⟩ | ⟨g, hg, hj⟩⟩
  · exact h.of_stable (stable_demarre hd)
  · rw [hj]
    exact h
  · rw [hj]
    exact h.setUsersTeam _ _
  · rw [hj]
    exact h.addUser (Game.nouveauJoueur_equipe hn)
  · rw [hj]
    exact h.parametre hg

theorem Thread.garde_uneEquipe (serveur : Serveur) (ok : Evenement → Thread → Prop) :
    Garde serveur ok fun s => s.jeu.UneEquipe :=
  garde_of_stable (I := Game.UneEquipe) Game.UneEquipe.of_stable (fun _ _ => List.Pairwise.nil)
    (fun id h => h.sublist (Game.retire_sublist id _)) fun {_ _ db th _} _ _ h hr =>
      Salle.uneEquipe_handleRoom (s := { th.salle with db }) h hr

namespace Game

/-! ## Numbers in range -/

/-- Every player is in one of the teams, or in none; there are between 2 and 4. -/
structure Bornees (g : Game) : Prop where
  deux_le : 2 ≤ g.teamNb
  le_quatre : g.teamNb ≤ 4
  equipe_le : ∀ j ∈ g.players, j.equipe ≤ g.teamNb

variable {g g' : Game}

theorem Bornees.of_stable (h : g.Bornees) (hst : g'.stable = g.stable) : g'.Bornees := by
  have hteam : g'.teamNb = g.teamNb := eq_of_stable teamNb (fun _ => rfl) hst
  refine ⟨hteam ▸ h.deux_le, hteam ▸ h.le_quatre, ?_⟩
  rw [hteam]
  exact forall_players_of_stable (fun _ => Iff.rfl) h.equipe_le hst

theorem mem_changeEquipe_iff (id equipe : Nat) {P : Nat → Prop} : ∀ {js : List Joueur},
    (∀ j ∈ js, P j.equipe) → ((∀ j ∈ changeEquipe id equipe js, P j.equipe) ↔
      (id ∈ js.map (·.playerId) → P equipe)) := by
  intro js
  induction js with
  | nil =>
    intro _
    exact ⟨fun _ h => absurd h List.not_mem_nil, fun _ j hj => absurd hj List.not_mem_nil⟩
  | cons j js ih =>
    intro h
    have ih := ih fun k hk => h k (List.mem_cons_of_mem j hk)
    rw [changeEquipe]
    by_cases hj : j.playerId = id
    · rw [if_pos hj]
      constructor
      · intro hall _
        exact hall _ List.mem_cons_self
      · intro hP k hk
        rcases List.mem_cons.mp hk with rfl | hk
        · exact hP (by rw [List.map_cons, hj]; exact List.mem_cons_self)
        · exact h k (List.mem_cons_of_mem j hk)
    · have hid : id ∈ (j :: js).map (·.playerId) ↔ id ∈ js.map (·.playerId) := by
        rw [List.map_cons, List.mem_cons]
        exact or_iff_right fun he => hj he.symm
      rw [if_neg hj, hid, ← ih, List.forall_mem_cons]
      exact and_iff_right (h j List.mem_cons_self)

/-- A player may take a team that is there; a team that is not breaks the bound at once. -/
theorem Bornees.setUsersTeam (h : g.Bornees) (id equipe : Nat) :
    (g.setUsersTeam id equipe).Bornees ↔ (id ∈ g.ids → uint8 equipe ≤ g.teamNb) := by
  have hiff := mem_changeEquipe_iff id (uint8 equipe) (P := fun e => e ≤ g.teamNb) h.equipe_le
  exact ⟨fun hb => hiff.mp hb.equipe_le, fun hid => ⟨h.deux_le, h.le_quatre, hiff.mpr hid⟩⟩

theorem Bornees.parametre (h : g.Bornees) {c : Contenu}
    (hn : ∀ n, c = .clientModifyNbTeams n → 2 ≤ n ∧ n ≤ 4) (hg : g.parametre c = some g') : g'.Bornees := by
  cases c <;> simp only [Game.parametre, Option.some.injEq, reduceCtorEq] at hg <;> subst hg
  case clientModifyNbTeams n =>
    obtain ⟨h2, h4⟩ := hn n rfl
    have hn : uint8 n = n := Nat.mod_eq_of_lt (by omega)
    refine ⟨by rw [hn]; exact h2, by rw [hn]; exact h4, fun j' hj' => ?_⟩
    obtain ⟨j, hj, rfl⟩ := List.mem_map.mp hj'
    by_cases hlt : uint8 n < j.equipe
    · rw [if_pos hlt]
      exact Nat.zero_le _
    · rw [if_neg hlt]
      exact Nat.not_lt.mp hlt
  all_goals exact ⟨h.deux_le, h.le_quatre, h.equipe_le⟩

theorem Bornees.handleQuit (h : g.Bornees) (id : Nat) : (g.handleQuit id).Bornees where
  deux_le := h.deux_le
  le_quatre := h.le_quatre
  equipe_le j hj := h.equipe_le j ((retire_sublist id g.players).subset hj)

end Game

/-! ## The teams that START sends -/

theorem Cle.of_prefix {V V' : List (Nat × Nat)} (h : Cle V) (hpre : V' <+: V) : Cle V' where
  nodup := h.nodup.sublist (hpre.sublist.map Prod.fst)
  pos h0 := h.pos ((hpre.sublist.map Prod.fst).subset h0)

/-- The row of a worm is the only one with its id. -/
theorem getLombricOwnerId_of_mem {db : DataBase} (hV : Cle db.vers) {o id : Nat}
    (h : id ∈ db.lombricsDe o) : db.getLombricOwnerId id = some o := by
  obtain ⟨w, hw, rfl⟩ := List.mem_map.mp h
  obtain ⟨hw, ho⟩ := List.mem_filter.mp hw
  have ho : w.ownerId = o := of_decide_eq_true ho
  have hnodup : (db.worms.map (·.id)).Nodup := by
    have := hV.nodup
    rwa [DataBase.vers, List.map_map] at this
  obtain ⟨w', hw'⟩ : ∃ w', Table.find WormRow.id w.id db.worms = some w' :=
    Option.isSome_iff_exists.mp (List.find?_isSome.mpr ⟨w, hw, by simp⟩)
  have hid : w'.id = w.id := by simpa using List.find?_some hw'
  have heq : w' = w := List.inj_on_of_nodup_map hnodup (List.mem_of_find?_eq_some hw') hw hid
  rw [DataBase.getLombricOwnerId, hw', heq, Option.map_some, ho]

/-- The first entry of a user has its team. -/
theorem Game.UneEquipe.find {g : Game} (h : g.UneEquipe) {j : Joueur} (hj : j ∈ g.players)
    (he : j.equipe ≠ 0) :
    ((g.players.find? fun k => k.playerId = j.playerId).map (·.equipe)).getD 0 = j.equipe := by
  obtain ⟨avant, apres, hp⟩ := List.append_of_mem hj
  unfold UneEquipe at h
  rw [hp] at h
  have havant : ∀ k ∈ avant, k.playerId ≠ j.playerId := by
    intro k hk hid
    exact he ((List.pairwise_append.mp h).2.2 k hk j List.mem_cons_self hid)
  have hnone : avant.find? (fun k => k.playerId = j.playerId) = none :=
    List.find?_eq_none.mpr fun k hk => by simpa using havant k hk
  rw [hp, List.find?_append, hnone, List.find?_cons_of_pos (by simp)]
  rfl

namespace Salle

variable {V : List (Nat × Nat)} {serveur : Serveur} {env : Env} {m : ZmqMsg} {s s' : Salle}

/-- What the lobby keeps while nobody touches the number of worms. -/
structure Equipee (V : List (Nat × Nat)) (g : Game) : Prop where
  nb : g.lombNb = 8
  porte : ∀ j ∈ g.players, j.Porte V
  nbrLomb : ∀ j ∈ g.players, j.nbrLomb = 8
  bornees : g.Bornees

theorem Equipee.of_stable {g g' : Game} (h : Equipee V g) (hst : g'.stable = g.stable) : Equipee V g' where
  nb := (Game.eq_of_stable Game.lombNb (fun _ => rfl) hst).trans h.nb
  porte := Game.forall_players_of_stable (Joueur.porte_fixe V) h.porte hst
  nbrLomb := Game.forall_players_of_stable (fun _ => Iff.rfl) h.nbrLomb hst
  bornees := h.bornees.of_stable hst

/-- The owner asks for 2 to 4 teams and leaves the number of worms; its other values fit. -/
def reglage (m : ZmqMsg) (s : Salle) : Bool :=
  decide (m.receiverId ≠ s.jeu.ownerId) ||
    match m.contenu with
    | .clientModifyNbTeams n => decide (2 ≤ n) && decide (n ≤ 4)
    | .clientModifyNbLombrics _ => false
    | c => c.borne

theorem borne_of_reglage (hr : s.reglage m = true) (ho : m.receiverId = s.jeu.ownerId) :
    m.contenu.borne = true := by
  simp only [reglage, ho, ne_eq, not_true_eq_false, decide_false, Bool.false_or] at hr
  split at hr
  · next n hc =>
    simp only [Bool.and_eq_true, decide_eq_true_eq] at hr
    simp only [hc, Contenu.borne, decide_eq_true_eq]
    omega
  · cases hr
  · exact hr

/-- Who takes a team takes one that is there, or is not in the room. -/
def equipeLa (m : ZmqMsg) (s : Salle) : Bool :=
  match m.contenu with
  | .clientJoinTeam id => decide (m.receiverId ∈ s.jeu.ids → uint8 id ≤ s.jeu.teamNb)
  | _ => true

/-- A message of the lobby keeps the bound exactly where it names a team that is there. -/
theorem bornees_handleRoom (h : s.jeu.Bornees) (hr : s.reglage m = true)
    (hs : handleRoom serveur env m s = some s') : s'.jeu.Bornees ↔ s.equipeLa m = true := by
  unfold handleRoom at hs
  split at hs
  · next hc =>
    cases hs
    exact iff_of_true h (by rw [equipeLa, hc])
  · next id hc =>
    cases hs
    rw [equipeLa, hc, decide_eq_true_eq]
    exact h.setUsersTeam m.receiverId id
  · next hc =>
    obtain ⟨j, hj, rfl⟩ := Option.map_eq_some_iff.mp hs
    refine iff_of_true ⟨h.deux_le, h.le_quatre, fun k hk => ?_⟩ (by rw [equipeLa, hc])
    rcases List.mem_append.mp hk with hk | hk
    · exact h.equipe_le k hk
    · rw [List.mem_singleton.mp hk, Game.nouveauJoueur_equipe hj]
      exact Nat.zero_le _
  · next hc =>
    have hla : s.equipeLa m = true := by rw [equipeLa, hc]
    split at hs
    · exact iff_of_true (h.of_stable (stable_demarre hs)) hla
    · cases hs
      exact iff_of_true h hla
  · next hjoin _ _ =>
    have hla : s.equipeLa m = true := by
      unfold equipeLa
      split
      · next id hc => exact absurd hc (hjoin id)
      · rfl
    split at hs
    · next ho =>
      cases hs
      refine iff_of_true ?_ hla
      unfold regle
      split
      · next g hg =>
        refine h.parametre (fun n hc => ?_) hg
        simpa [reglage, ho, hc] using hr
      · exact h
    · cases hs
      exact iff_of_true h hla

theorem Equipee.handleRoom (hV : Cle V) (h : Equipee V s.jeu) (hdb : s.db.vers <+: V)
    (hr : s.reglage m = true) (hla : s.equipeLa m = true)
    (hs : Salle.handleRoom serveur env m s = some s') : Equipee V s'.jeu := by
  have hb := (bornees_handleRoom h.bornees hr hs).mpr hla
  rcases handleRoom_lobby hs with ⟨_, hd⟩ | ⟨_, _, _, hp, hn⟩
  · exact h.of_stable (stable_demarre hd)
  · refine ⟨?_, fun j' hj' => ?_, fun j' hj' => ?_, hb⟩
    · rcases hn with hn | ⟨n, hc, hn⟩
      · rw [hn]
        exact h.nb
      · have ho : m.receiverId ≠ s.jeu.ownerId := by simpa [reglage, hc] using hr
        simp only [Salle.handleRoom, hc, if_neg ho, Option.some.injEq] at hs
        rw [← hs]
        exact h.nb
    · rcases hp j' hj' with ⟨j, hj, e, rfl⟩ | hj
      · exact (h.porte j hj).of_eq rfl rfl rfl
      · exact (porte_nouveauJoueur hV hdb (by rw [h.nb]) hj).1
    · rcases hp j' hj' with ⟨j, hj, e, rfl⟩ | hj
      · exact h.nbrLomb j hj
      · rw [(porte_nouveauJoueur hV hdb (by rw [h.nb]) hj).2]
        exact h.nb

theorem Equipee.handleQuit {g : Game} (h : Equipee V g) (id : Nat) : Equipee V (g.handleQuit id) where
  nb := h.nb
  porte j hj := h.porte j ((Game.retire_sublist id g.players).subset hj)
  nbrLomb j hj := h.nbrLomb j ((Game.retire_sublist id g.players).subset hj)
  bornees := h.bornees.handleQuit id

/-- START goes to the players only. -/
theorem mem_ids_of_start (hd : demarre serveur env s = some s') {u : Nat} {lombs : List LombricInfo}
    (hin : (Canal.joueur u, Annonce.start lombs) ∈ s'.envois.drop s.envois.length) : u ∈ s.jeu.ids := by
  have hids := Game.ids_of_stable (stable_demarre hd)
  obtain ⟨obj, id, g, lombs', _, _, rfl⟩ := demarre_cases hd
  rw [List.append_assoc, List.drop_left] at hin
  rw [← hids]
  rcases List.mem_append.mp hin with hin | hin
  · obtain ⟨j, hj, he⟩ := List.mem_map.mp hin
    cases he
    exact List.mem_map_of_mem hj
  · obtain ⟨p, _, he⟩ := List.mem_map.mp hin
    cases he

/-- **The teams that START names**: each entry has the team of its player. -/
theorem teamLomb_demarre (h : Equipee V s.jeu) (hu : s.jeu.UneEquipe) (hV : Cle s.db.vers)
    (hdb : ∀ j ∈ s.jeu.players, s.db.lombricsDe j.playerId = lombricsDe V j.playerId)
    (hd : demarre serveur env s = some s') {c : Canal} {lombs : List LombricInfo}
    (hin : (c, Annonce.start lombs) ∈ s'.envois.drop s.envois.length) :
    ∀ l ∈ lombs, ∃ j ∈ s.jeu.players, j.equipe ≠ 0 ∧ l.teamLomb = j.equipe := by
  obtain ⟨obj, id, hsp, _, henvoi⟩ := demarre_start hd
  obtain ⟨ids, hids, hcorps⟩ := Game.corps_spawnLombric hsp
  intro l hl
  rw [henvoi c lombs hin] at hl
  obtain ⟨w, hw, rfl⟩ := List.mem_map.mp hl
  have hwc := List.mem_map_of_mem (f := (·.corps)) hw
  rw [hcorps] at hwc
  obtain ⟨x, hx, hwc⟩ := List.mem_map.mp hwc
  have hwid : w.getId = x := by simp [Sprite.getId, ← hwc]
  obtain ⟨j, hj, he, i, hi, hji⟩ := Game.mem_idsLombrics hids hx
  obtain ⟨y, hy, hyV⟩ := (h.porte j hj).slots i (by rw [h.nbrLomb j hj, ← h.nb]; exact hi)
  rw [hji] at hy
  cases hy
  have howner : s.db.getLombricOwnerId x = some j.playerId :=
    getLombricOwnerId_of_mem hV (by rw [hdb j hj]; exact List.mem_of_getElem? hyV)
  refine ⟨j, hj, he, ?_⟩
  have hteam := hu.find hj he
  simp only [Game.lombricInfo, hwid, howner, Option.getD_some]
  exact hteam

end Salle

/-! ## Runs -/

namespace Thread

variable {serveur : Serveur} {V : List (Nat × Nat)} {e : Evenement} {th th' : Thread}

/-- The tables hold rows of `V`, those of the players among them, and the owner keeps to its numbers. -/
def salonRegle (V : List (Nat × Nat)) (e : Evenement) (th : Thread) : Bool :=
  match th.lieu, e with
  | .salleMsg m, .suite _ db => decide (db.vers <+: V) && th.salle.reglage m &&
      th.salle.jeu.players.all fun j => db.lombricsDe j.playerId == lombricsDe V j.playerId
  | _, _ => true

/-- The team asked for in this step is there. -/
def equipeLa (e : Evenement) (th : Thread) : Bool :=
  match th.lieu, e with
  | .salleMsg m, .suite _ _ => th.salle.equipeLa m
  | _, _ => true

theorem garde_equipee (hV : Cle V) (serveur : Serveur) :
    Garde serveur (fun e th => (salonRegle V e th && equipeLa e th) = true)
      fun s => Salle.Equipee V s.jeu := by
  refine garde_of_stable (I := Salle.Equipee V) Salle.Equipee.of_stable
    (fun _ _ => ⟨rfl, nofun, nofun, ⟨Nat.le_add_left 2 2, le_rfl, nofun⟩⟩) (fun id h => h.handleQuit id)
    fun {m env db th s'} hl hok h hr => ?_
  simp only [salonRegle, equipeLa, hl, Bool.and_eq_true, decide_eq_true_eq] at hok
  exact Salle.Equipee.handleRoom (s := { th.salle with db }) hV h hok.1.1.1 hok.1.1.2 hok.2 hr

/-- A step that sends START is START. -/
theorem start_etape (ha : Attente th.salle.currentStep th.lieu) (hs : etape serveur e th = some th')
    {c : Canal} {lombs : List LombricInfo}
    (hin : (c, Annonce.start lombs) ∈ th'.salle.envois.drop th.salle.envois.length) :
    ∃ m env db, th.lieu = .salleMsg m ∧ e = .suite env db ∧
      Salle.demarre serveur env { th.salle with db } = some th'.salle := by
  have hmuet : ∀ {P : Annonce → Prop} {s s' : Salle}, Salle.NePublieQue P s s' →
      (c, Annonce.start lombs) ∈ s'.envois.drop s.envois.length → P (.start lombs) := by
    rintro P s s' ⟨l, hl, hP⟩ h
    rw [hl, List.drop_left] at h
    exact hP _ h
  obtain ⟨hap, _⟩ := etape_appel ha hs
  generalize th'.salle = s' at hap hin ⊢
  cases hap with
  | rien _ db => exact (hmuet (P := fun _ => False) (Salle.nePublieQue_rien rfl) hin).elim
  | quit m hl => exact (hmuet (Salle.nePublieQue_handleQuit m th.salle) hin).elim
  | room m env db s' hl h0 hr =>
    rcases Salle.nePublieQue_handleRoom hr with ⟨_, _, hd⟩ | hp
    · exact ⟨m, env, db, hl, rfl, hd⟩
    · exact (hmuet hp hin).elim
  | game m env db s' hl h1 hr =>
    rcases hmuet (Salle.nePublieQue_handleGame hr) hin with h | h
    · exact h.elim
    · exact h.elim
  | heure env db s' hl h0 hr => exact (hmuet (Salle.nePublieQue_endRound hr) hin).elim

/-- **In a run where the teams asked for are there, every index is in range**: each player has a team of
the room, at most the fourth, and each worm that START names one of the teams of every client.  A step
keeps the bound exactly where the team is there. -/
theorem bornees_of_reach (serveur : Serveur) (V : List (Nat × Nat)) (hV : Cle V) (th : Thread)
    (h : Runs.Reach (etape serveur) (fun e th => (salonRegle V e th && equipeLa e th) = true) Depart th) :
    (∀ j ∈ th.salle.jeu.players, j.equipe ≤ th.salle.jeu.teamNb ∧ (j.equipe ≠ 0 → j.equipe - 1 < 4)) ∧
    ∀ e th', salonRegle V e th = true → etape serveur e th = some th' →
      (th'.salle.jeu.Bornees ↔ equipeLa e th = true) ∧
      ∀ u lombs, (Canal.joueur u, Annonce.start lombs) ∈ th'.salle.envois.drop th.salle.envois.length →
        ∀ p, ∀ l ∈ lombs,
          u32 ((l.teamLomb : Int) - 1) < (Client.litSalon u th.salle.envois p).nbrEquipes := by
  obtain ⟨heq, ha⟩ := (garde_equipee hV serveur).reach h
  have hb := heq.bornees
  have hu : th.salle.jeu.UneEquipe := ((garde_uneEquipe serveur _).reach h).1
  have hsus : th.salle.ParametresSus := by
    refine ((garde_parametresSus serveur fun {m env db th} hl hok ho => ?_).reach h).1
    simp only [salonRegle, hl, Bool.and_eq_true] at hok
    exact Salle.borne_of_reglage hok.1.1.2 ho
  refine ⟨fun j hj => ⟨hb.equipe_le j hj, fun he => ?_⟩, fun e th' hok hs => ⟨?_, ?_⟩⟩
  · have := hb.equipe_le j hj
    have := hb.le_quatre
    omega
  · by_cases hla : equipeLa e th = true
    · have hguard : (salonRegle V e th && equipeLa e th) = true := by rw [hok, hla]; rfl
      exact iff_of_true ((garde_equipee hV serveur).etape heq ha hguard hs).1.bornees hla
    · refine iff_of_false (fun hb' => hla ?_) hla
      unfold equipeLa at hla ⊢
      split at hla
      · next m env db hl =>
        simp only [salonRegle, hl, Bool.and_eq_true] at hok
        have hr := etape_salleMsg hl hs
        exact (Salle.bornees_handleRoom (s := { th.salle with db }) hb hok.1.2 hr).mp hb'
      · rfl
  · intro u lombs hin p l hl
    obtain ⟨m, env, db, hlieu, rfl, hd⟩ := start_etape ha hs hin
    simp only [salonRegle, hlieu, Bool.and_eq_true, decide_eq_true_eq, List.all_eq_true,
      beq_iff_eq] at hok
    obtain ⟨⟨hpre, _⟩, hdb⟩ := hok
    obtain ⟨j, hj, he, hteam⟩ := Salle.teamLomb_demarre (s := { th.salle with db }) heq hu
      (hV.of_prefix hpre) hdb hd hin l hl
    have hmem : u ∈ th.salle.jeu.ids := Salle.mem_ids_of_start hd hin
    rw [hteam, (hsus u hmem p).nbrEquipes]
    have hle := hb.equipe_le j hj
    have hpos : 0 < j.equipe := Nat.pos_of_ne_zero he
    rw [show (j.equipe : Int) - 1 = ((j.equipe - 1 : Nat) : Int) by omega, u32_natCast]
    omega

/-! ## Team 7 -/

/-- Player 1 joins, sets the number of teams to 2, takes team `n` and sends START. -/
def salonEquipe (n : Nat) : List Evenement :=
  let suite : Evenement := .suite (envPetit 0) petiteBase
  [suite, .recoit ⟨1, .infoRoom⟩, suite, .recoit ⟨1, .clientModifyNbTeams 2⟩, suite,
    .recoit ⟨1, .clientJoinTeam n⟩, suite, .recoit ⟨1, .start⟩]

/-- In a room of 2 teams player 1 has team 7, past `m_alive_team`, and START names it to a client of 2
teams. -/
theorem equipe_7 : ∃ th th', Runs.Reach (etape (serveurDe Map.petite))
      (fun e th => salonRegle petiteBase.vers e th = true) Depart th ∧
    etape (serveurDe Map.petite) (.suite (envPetit 0) petiteBase) th = some th' ∧
    th.salle.jeu.teamNb = 2 ∧ (∃ j ∈ th.salle.jeu.players, j.equipe = 7) ∧
    ∃ lombs, (Canal.joueur 1, Annonce.start lombs) ∈ th'.salle.envois.drop th.salle.envois.length ∧
      ∃ l ∈ lombs, ¬ u32 ((l.teamLomb : Int) - 1) <
        (Client.litSalon 1 th.salle.envois (Salle.paramsDe 100)).nbrEquipes := by
  obtain ⟨th, _, hr, hp⟩ := Runs.exists_of_exec (etape (serveurDe Map.petite))
    (fun e th => salonRegle petiteBase.vers e th = true)
    (show Depart (new 1 1 petiteBase) from ⟨1, 1, petiteBase, rfl⟩) (salonEquipe 7)
    (fun th => th.salle.jeu.teamNb == 2 && (th.salle.jeu.players.any fun j => j.equipe == 7) &&
      (Client.litSalon 1 th.salle.envois (Salle.paramsDe 100)).nbrEquipes == 2 &&
      (etape (serveurDe Map.petite) (.suite (envPetit 0) petiteBase) th).any fun th' =>
        (th'.salle.envois.drop th.salle.envois.length).any fun e =>
          e.1 == .joueur 1 &&
            match e.2 with
            | .start lombs => lombs.any fun l => l.teamLomb == 7
            | _ => false) (by decide +kernel)
  simp only [Bool.and_eq_true, beq_iff_eq, List.any_eq_true] at hp
  obtain ⟨⟨⟨h2, h7⟩, hn⟩, hp⟩ := hp
  obtain ⟨th', hs, hp⟩ := Option.any_eq_true _ _ |>.mp hp
  obtain ⟨⟨c, a⟩, he, hp⟩ := List.any_eq_true.mp hp
  rw [Bool.and_eq_true, beq_iff_eq] at hp
  obtain ⟨hc, hp⟩ := hp
  have hc : c = .joueur 1 := hc
  subst hc
  refine ⟨th, th', hr, hs, h2, h7, ?_⟩
  split at hp
  · next lombs heq =>
    have heq : a = .start lombs := heq
    subst heq
    obtain ⟨l, hl, hp⟩ := List.any_eq_true.mp hp
    refine ⟨lombs, he, l, hl, ?_⟩
    rw [hn, beq_iff_eq.mp hp]
    decide
  · cases hp

/-- With team 2 every index is in range. -/
theorem equipe_2 : ∃ th, Runs.exec (etape (serveurDe Map.petite))
      (fun e th => (salonRegle petiteBase.vers e th && equipeLa e th) = true) (salonEquipe 2)
      (new 1 1 petiteBase) = some th ∧
    (∃ th', etape (serveurDe Map.petite) (.suite (envPetit 0) petiteBase) th = some th' ∧
      th'.salle.jeu.Bornees) ∧
    ∀ j ∈ th.salle.jeu.players, j.equipe ≤ th.salle.jeu.teamNb ∧ (j.equipe ≠ 0 → j.equipe - 1 < 4) := by
  obtain ⟨th, hth, hr, hp⟩ := Runs.exists_of_exec (etape (serveurDe Map.petite))
    (fun e th => (salonRegle petiteBase.vers e th && equipeLa e th) = true)
    (show Depart (new 1 1 petiteBase) from ⟨1, 1, petiteBase, rfl⟩) (salonEquipe 2)
    (fun th => salonRegle petiteBase.vers (.suite (envPetit 0) petiteBase) th &&
      equipeLa (.suite (envPetit 0) petiteBase) th &&
      (etape (serveurDe Map.petite) (.suite (envPetit 0) petiteBase) th).isSome) (by decide +kernel)
  simp only [Bool.and_eq_true] at hp
  obtain ⟨⟨hok, hla⟩, hp⟩ := hp
  obtain ⟨th', hs⟩ := Option.isSome_iff_exists.mp hp
  obtain ⟨hb, hpas⟩ := bornees_of_reach (serveurDe Map.petite) petiteBase.vers ⟨by decide, by decide⟩ th hr
  exact ⟨th, hth, ⟨th', hs, (hpas _ _ hok hs).1.mpr hla⟩, hb⟩

end Thread

end LombricABrac
