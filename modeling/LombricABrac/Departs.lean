import LombricABrac.Equite
import LombricABrac.Verrous

/-!
# Leaving in the middle of a round

`handle_quit` erases the entry of the player and tells the others, with `pub_mutex` locked;
`Joueur::sendMessage` locks it again for the first of them.  While two teams live there is another
player, and the thread of the room stops there.

    deux_joueurs    : two living teams have two players
    bloque_of_apres : whatever comes after such a departure finds the thread stopped
    sansPerte_iff   : nobody loses a turn exactly where at most one team lives on
    tour_perdu      : the turn of user 3 never opens
-/

namespace LombricABrac

/-- Who has left is passed over. -/
def Joueur.passe (id : Nat) (j : Joueur) : Joueur :=
  if j.playerId = id then { j with equipe := 0 } else j

namespace Game

variable {g : Game} {obj : Partie}

/-- Two teams live, so that `end_round` looks for a turn.  What `last_team` held before does not matter. -/
def Dispute (g : Game) : Prop := ∃ n last, g.nbAliveTeams 0 = some (n, last) ∧ 2 ≤ n

/-- Each player brings one team at most. -/
theorem compteEquipes_le : ∀ {js : List Joueur} {aliveTeam : Nat → Bool} {n last n' last' : Nat},
    compteEquipes obj js aliveTeam n last = some (n', last') → n' ≤ n + js.length := by
  intro js
  induction js with
  | nil =>
    intro aliveTeam n last n' last' h
    cases h
    exact Nat.le_refl _
  | cons j js ih =>
    intro aliveTeam n last n' last' h
    rw [List.length_cons]
    unfold compteEquipes at h
    split at h
    · have := ih h
      omega
    · split at h
      · cases h
      · have := ih h
        omega
      · split at h
        · cases h
        · split at h
          · have := ih h
            omega
          · have := ih h
            omega

theorem deux_joueurs (h : g.Dispute) : 2 ≤ g.players.length := by
  obtain ⟨n, last, hn, h2⟩ := h
  obtain ⟨obj, _, hc⟩ := Option.bind_eq_some_iff.mp hn
  have := compteEquipes_le hc
  omega

end Game

namespace Salle

/-- Then somebody remains, whoever quits. -/
theorem quitteSeul_of_dispute {s : Salle} (h : s.jeu.Dispute) (m : ZmqMsg) : s.quitteSeul m = false := by
  have h2 := Game.deux_joueurs h
  unfold quitteSeul
  split
  · next hp => simp [hp] at h2
  · next hp => simp [hp] at h2
  · rfl

/-- A turn that the end of the round opens is the one that the search gives among `temoin`. -/
def Fidele (temoin : List Joueur) (s : Salle) : Prop :=
  ∀ env s' t, endRound env s = some s' → s.ouvre s' = some t →
    ∃ g fuel g', s.jeu.monteeEau env = some g ∧
      Game.chercheTour fuel { g with players := temoin } = some (t.lombric, g') ∧
      g'.players[g'.currentPlayerId]? = t.jeu.players[t.joueur]?

end Salle

/-! ## After a departure -/

/-- The step opens no turn, and nobody else leaves. -/
def SansTour (serveur : Serveur) (e : Evenement) (f : Fil) : Prop :=
  (∀ m, e = .recoit m → m.estQuit = false) ∧
    ∀ f', Fil.etape serveur e f = some f' → f.salle.ouvre f'.salle = none

/-- What the thread comes to once it has taken `m`, until a turn opens. -/
def Apres (serveur : Serveur) (th : Thread) (m : ZmqMsg) : Fil → Prop :=
  Runs.Reach (Fil.etape serveur) (SansTour serveur) fun f =>
    Fil.etape serveur (.recoit m) (.court th) = some f

/-- The departure `m` costs nobody a turn. -/
structure SansPerte (serveur : Serveur) (th : Thread) (m : ZmqMsg) : Prop where
  /-- While two teams live on, a turn can still open. -/
  vient : (th.salle.jeu.handleQuit m.receiverId).Dispute → ∃ f e f' t, Apres serveur th m f ∧
    Fil.etape serveur e f = some f' ∧ f.salle.ouvre f'.salle = some t
  /-- Whoever calls `end_round`, and whatever the tables hold: the turn that it opens is that of the
  players of before, where who leaves is passed over. -/
  tour : ∀ th', Apres serveur th m (.court th') →
    let temoin := th.salle.jeu.players.map (Joueur.passe m.receiverId)
    (∀ db, Salle.Fidele temoin { th'.salle with db }) ∧
      ∀ db m' env s, Salle.traite serveur env m' { th'.salle with db } = some (s, true) → s.Fidele temoin

variable {serveur : Serveur} {th : Thread} {m : ZmqMsg} {f : Fil}

theorem bloque_of_apres (hm : m.estQuit = true) (hd : th.salle.jeu.Dispute) (h : Apres serveur th m f) :
    f = .bloque { th.salle with jeu := th.salle.jeu.handleQuit m.receiverId } := by
  have hseul := Salle.quitteSeul_of_dispute hd m
  induction h with
  | init h0 =>
    rcases Fil.etape_court h0 with ⟨_, hr, _, _⟩ | ⟨m', _, he, _, _, _, rfl⟩
    · -- a thread that goes on has nobody to tell
      rcases hr m rfl with hr | hr
      · rw [hm] at hr
        cases hr
      · rw [hseul] at hr
        cases hr
    · cases he
      rfl
  | next e _ _ hs ih =>
    rw [ih, Fil.etape_bloque] at hs
    cases hs

/-- No turn opens any more. -/
theorem not_vient (hm : m.estQuit = true) (hd : th.salle.jeu.Dispute)
    (hreste : (th.salle.jeu.handleQuit m.receiverId).Dispute) : ¬ SansPerte serveur th m := by
  intro h
  obtain ⟨f, e, f', _, hf, hs, _⟩ := h.vient hreste
  rw [bloque_of_apres hm hd hf, Fil.etape_bloque] at hs
  cases hs

/-- **While two teams live, a departure costs nobody a turn exactly where it leaves at most one of them**:
then no turn was to come. -/
theorem sansPerte_iff (serveur : Serveur) (th : Thread) (m : ZmqMsg) (hm : m.estQuit = true)
    (hd : th.salle.jeu.Dispute) :
    SansPerte serveur th m ↔ ¬ (th.salle.jeu.handleQuit m.receiverId).Dispute := by
  constructor
  · exact fun h hreste => not_vient hm hd hreste h
  · intro hreste
    refine ⟨fun h => absurd h hreste, fun th' h => ?_⟩
    have hb := bloque_of_apres hm hd h
    cases hb

/-! ## Three players of two teams -/

namespace Thread

/-- Users 1, 2 and 3 play for teams 1, 2 and 1, a worm each; the turn is the one of user 1. -/
def troisJoueurs : List Evenement :=
  let suite := Chronique.suite
  [suite [], .recoit ⟨1, .clientModifyNbLombrics 1⟩, suite [], .recoit ⟨1, .infoRoom⟩, suite [],
    .recoit ⟨2, .infoRoom⟩, suite [], .recoit ⟨3, .infoRoom⟩, suite [], .recoit ⟨1, .clientJoinTeam 1⟩,
    suite [], .recoit ⟨2, .clientJoinTeam 2⟩, suite [], .recoit ⟨3, .clientJoinTeam 1⟩, suite [],
    .recoit ⟨1, .start⟩, suite [0, 0, 1, 0, 1, 0], suite [], suite []]

/-- User 1 passes its turn, and it is the one of user 2. -/
def premierPasse : List Evenement :=
  troisJoueurs ++ [.recoit ⟨1, .shoot ⟨2, 0, 0⟩⟩, Chronique.suite [99], Chronique.suite []]

theorem depart_trois : Fil.Depart (.court (new 1 1 Chronique.baseTrois)) := ⟨_, rfl, 1, 1, _, rfl⟩

/-- User 1 quits: the turn of user 3, whose worm is number 9, never opens. -/
theorem tour_perdu : ∃ th fuel g, Runs.Reach (Fil.etape (serveurDe marche)) (fun _ _ => True) Fil.Depart
      (.court th) ∧ th.lieu = .partie ∧ th.salle.jeu.ids = [1, 2, 3] ∧ th.salle.jeu.Dispute ∧
    (th.salle.jeu.handleQuit 1).Dispute ∧
    Game.chercheTour fuel { th.salle.jeu with players := th.salle.jeu.players.map (Joueur.passe 1) } =
      some (9, g) ∧
    ¬ SansPerte (serveurDe marche) th ⟨1, .clientQuitRoom ""⟩ := by
  obtain ⟨f, _, hr, hp⟩ := Runs.exists_of_exec (Fil.etape (serveurDe marche)) (fun _ _ => True)
    depart_trois premierPasse (Fil.siCourt fun th =>
      th.lieu == .partie && th.salle.jeu.ids == [1, 2, 3] &&
        th.salle.jeu.nbAliveTeams 0 == some (2, 1) &&
        (th.salle.jeu.handleQuit 1).nbAliveTeams 0 == some (2, 0) &&
        (Game.chercheTour 2 { th.salle.jeu with
          players := th.salle.jeu.players.map (Joueur.passe 1) }).any fun r => r.1 == 9)
    (by decide +kernel)
  cases f with
  | bloque s => cases hp
  | court th =>
    simp only [Fil.siCourt, Bool.and_eq_true, beq_iff_eq, Option.any_eq_true] at hp
    obtain ⟨⟨⟨⟨hl, hids⟩, hn⟩, hn'⟩, ⟨id, g⟩, hc, rfl⟩ := hp
    have hd : th.salle.jeu.Dispute := ⟨2, 1, hn, le_rfl⟩
    have hd' : (th.salle.jeu.handleQuit 1).Dispute := ⟨2, 0, hn', le_rfl⟩
    exact ⟨th, 2, g, hr, hl, hids, hd, hd', hc, not_vient rfl hd hd'⟩

/-- User 2, the only one of its team, quits during the turn of user 1. -/
theorem seul_de_son_equipe : ∃ th, Runs.Reach (Fil.etape (serveurDe marche)) (fun _ _ => True) Fil.Depart
      (.court th) ∧ th.lieu = .partie ∧ th.salle.jeu.ids = [1, 2, 3] ∧ th.salle.jeu.Dispute ∧
    (th.salle.jeu.handleQuit 2).nbAliveTeams 0 = some (1, 0) ∧
    SansPerte (serveurDe marche) th ⟨2, .clientQuitRoom ""⟩ := by
  obtain ⟨f, _, hr, hp⟩ := Runs.exists_of_exec (Fil.etape (serveurDe marche)) (fun _ _ => True)
    depart_trois troisJoueurs (Fil.siCourt fun th =>
      th.lieu == .partie && th.salle.jeu.ids == [1, 2, 3] &&
        th.salle.jeu.nbAliveTeams 0 == some (2, 1) &&
        (th.salle.jeu.handleQuit 2).nbAliveTeams 0 == some (1, 0))
    (by decide +kernel)
  cases f with
  | bloque s => cases hp
  | court th =>
    simp only [Fil.siCourt, Bool.and_eq_true, beq_iff_eq] at hp
    obtain ⟨⟨⟨hl, hids⟩, hn⟩, hn'⟩ := hp
    have hd : th.salle.jeu.Dispute := ⟨2, 1, hn, le_rfl⟩
    refine ⟨th, hr, hl, hids, hd, hn', (sansPerte_iff (serveurDe marche) th _ rfl hd).mpr ?_⟩
    rintro ⟨n, last, hd', h2⟩
    rw [hn'] at hd'
    cases hd'
    omega

end Thread
end LombricABrac
