import LombricABrac.Envois
import LombricABrac.Inondation
import LombricABrac.Lib.Broadcast
import LombricABrac.LombricCourant
import LombricABrac.Presents
import LombricABrac.Vies

/-!
# The players of a game hear the same

During the game the room sends each message to every entry of `m_players`, and to nobody else; only
`is_yours` of NEXT_ROUND differs from one player to another.  Players leave, none comes.

    transmet_handleGame : what a message makes the room send
    diffusion_of_reach  : the players that stay get the same messages in the same order
-/

namespace LombricABrac

open Broadcast (inbox Delivers)

/-! ## Messages -/

namespace Annonce

/-- The message without what is meant for one player alone. -/
def commune : Annonce → Annonce
  | .nextRound lomb => .nextRound { lomb with isYours := false }
  | a => a

def estTour : Annonce → Bool
  | .nextRound _ => true
  | _ => false

/-- NEXT_ROUND, to the player whose turn it is. -/
def tien : Canal × Annonce → Bool
  | (_, .nextRound lomb) => lomb.isYours
  | _ => false

end Annonce

namespace Game

variable {g g' : Game}

/-- The channels of the players. -/
def canaux (g : Game) : List Canal := g.ids.map .joueur

theorem canaux_of_stable (h : g'.stable = g.stable) : g'.canaux = g.canaux := by
  rw [canaux, canaux, ids_of_stable h]

theorem nodup_canaux (h : g.ids.Nodup) : g.canaux.Nodup :=
  h.map fun _ _ he => Canal.joueur.inj he

theorem fst_annonce (g : Game) (a : Annonce) : (g.annonce a).map Prod.fst = g.canaux := by
  rw [annonce, canaux, ids, List.map_map, List.map_map]
  rfl

theorem fst_annonceTour (g : Game) (lomb : NextLombric) : (g.annonceTour lomb).map Prod.fst = g.canaux := by
  have hfst : g.canaux = (g.players.zipIdx.map Prod.fst).map fun j => Canal.joueur j.playerId := by
    rw [List.zipIdx_map_fst, canaux, ids, List.map_map]
    rfl
  rw [hfst, annonceTour, List.map_map, List.map_map]
  rfl

/-- A message for every player. -/
theorem delivers_annonce (h : g.canaux.Nodup) (a : Annonce) {cs : List Canal} (hcs : g.canaux.Sublist cs) :
    Delivers Annonce.commune cs g.canaux (g.annonce a) [a.commune] := by
  have hb : ∀ e ∈ g.annonce a, e.2.commune = a.commune := forall_annonce (P := fun a' => a'.commune = a.commune) rfl
  have hd := Broadcast.delivers_batch hb (by rwa [fst_annonce])
    (by rwa [fst_annonce] : ((g.annonce a).map Prod.fst).Sublist cs)
  rwa [fst_annonce] at hd

/-- A turn. -/
theorem delivers_annonceTour (h : g.canaux.Nodup) (lomb : NextLombric) :
    Delivers Annonce.commune g.canaux g.canaux (g.annonceTour lomb)
      [.nextRound { lomb with isYours := false }] := by
  have hb : ∀ e ∈ g.annonceTour lomb, e.2.commune = .nextRound { lomb with isYours := false } := by
    intro e he
    obtain ⟨p, _, rfl⟩ := List.mem_map.mp he
    rfl
  have hd := Broadcast.delivers_batch hb (by rwa [fst_annonceTour])
    (by rw [fst_annonceTour] : ((g.annonceTour lomb).map Prod.fst).Sublist g.canaux)
  rwa [fst_annonceTour] at hd

theorem countP_zipIdx {α : Type} (c : Nat) (l : List α) : ∀ n, n ≤ c → c < n + l.length →
    (l.zipIdx n).countP (fun p => p.2 == c) = 1 := by
  induction l with
  | nil =>
    intro n hn hc
    rw [List.length_nil] at hc
    omega
  | cons a l ih =>
    intro n hn hc
    rw [List.length_cons] at hc
    rw [List.zipIdx_cons, List.countP_cons]
    by_cases he : n = c
    · have hrest : (l.zipIdx (n + 1)).countP (fun p => p.2 == c) = 0 := by
        apply List.countP_eq_zero.mpr
        rintro ⟨x, i⟩ hin
        have hi := (List.mem_zipIdx hin).1
        simp only [beq_iff_eq]
        omega
      rw [hrest, if_pos (by simpa using he)]
    · rw [ih (n + 1) (by omega) (by omega), if_neg (by simpa using he)]

/-- One player is told that the turn is its own. -/
theorem tien_annonceTour (h : g.currentPlayerId < g.players.length) (lomb : NextLombric) :
    (g.annonceTour lomb).countP Annonce.tien = 1 := by
  rw [annonceTour, List.countP_map]
  exact countP_zipIdx g.currentPlayerId g.players 0 (Nat.zero_le _) (by omega)

theorem tien_annonce {a : Annonce} (ha : a.estTour = false) (g : Game) :
    (g.annonce a).countP Annonce.tien = [a.commune].countP Annonce.estTour := by
  have h0 : (g.annonce a).countP Annonce.tien = 0 := by
    apply List.countP_eq_zero.mpr
    intro e he
    obtain ⟨j, _, rfl⟩ := List.mem_map.mp he
    cases a with
    | nextRound lomb => cases ha
    | _ => exact Bool.false_ne_true
  rw [h0]
  cases a with
  | nextRound lomb => cases ha
  | _ => rfl

end Game

/-! ## What a step sends -/

namespace Salle

variable {serveur : Serveur} {env : Env} {m : ZmqMsg} {s s' s'' : Salle}

/-- All that is sent goes to the players, the same for each, with one `is_yours` for each turn. -/
def Transmet (s s' : Salle) : Prop := ∃ l A, s'.envois = s.envois ++ l ∧
  Delivers Annonce.commune s.jeu.canaux s'.jeu.canaux l A ∧ l.countP Annonce.tien = A.countP Annonce.estTour

theorem transmet_rien (he : s'.envois = s.envois) (hc : s'.jeu.canaux = s.jeu.canaux) : Transmet s s' := by
  refine ⟨[], [], by rw [he, List.append_nil], ?_, rfl⟩
  rw [hc]
  exact Broadcast.delivers_nil _ _

theorem Transmet.trans (h : Transmet s s') (h' : Transmet s' s'') : Transmet s s'' := by
  obtain ⟨l, A, hl, hd, ht⟩ := h
  obtain ⟨l', A', hl', hd', ht'⟩ := h'
  refine ⟨l ++ l', A ++ A', by rw [hl', hl, List.append_assoc], hd.append hd', ?_⟩
  rw [List.countP_append, List.countP_append, ht, ht']

theorem Transmet.sublist (h : Transmet s s') : s'.jeu.canaux.Sublist s.jeu.canaux := by
  obtain ⟨_, _, _, hd, _⟩ := h
  exact hd.shrinks

/-- A message for every player that is left. -/
theorem transmet_annonce {a : Annonce} (ha : a.estTour = false) (hn : s'.jeu.canaux.Nodup)
    (hc : s'.jeu.canaux.Sublist s.jeu.canaux) (he : s'.envois = s.envois ++ s'.jeu.annonce a) :
    Transmet s s' :=
  ⟨_, _, he, Game.delivers_annonce hn a hc, Game.tien_annonce ha _⟩

theorem transmet_handleQuit (m : ZmqMsg) (h : s.jeu.ids.Nodup) : Transmet s (s.handleQuit m) := by
  unfold handleQuit
  split
  · have hsub : (s.jeu.handleQuit m.receiverId).ids.Sublist s.jeu.ids := (Game.retire_sublist _ _).map _
    exact transmet_annonce rfl (Game.nodup_canaux (h.sublist hsub)) (hsub.map _) rfl
  · exact transmet_rien rfl rfl

theorem transmet_traite {fin : Bool} (h : s.jeu.ids.Nodup) (ht : traite serveur env m s = some (s', fin)) :
    Transmet s s' := by
  have hcanaux := Game.canaux_of_stable (stable_traite ht)
  have hn := Game.nodup_canaux h
  have hd : ∀ a, Delivers Annonce.commune s.jeu.canaux s.jeu.canaux (s.jeu.annonce a) [a.commune] :=
    fun a => Game.delivers_annonce hn a (List.Sublist.refl _)
  -- a message that the state before announces to its players
  have hun : ∀ a : Annonce, a.estTour = false → s'.envois = s.envois ++ s.jeu.annonce a → Transmet s s' := by
    intro a ha he
    refine ⟨_, _, he, ?_, Game.tien_annonce ha _⟩
    rw [hcanaux]
    exact hd a
  unfold traite at ht
  split at ht
  · obtain ⟨obj', _, he⟩ := Option.map_eq_some_iff.mp ht
    cases he
    exact hun _ rfl rfl
  · cases ht
    exact hun _ rfl rfl
  · cases ht
    exact hun _ rfl rfl
  · obtain ⟨⟨obj', murs, degats⟩, _, he⟩ := Option.map_eq_some_iff.mp ht
    cases he
    refine ⟨_, _, rfl, ((hd _).append (hd _)).append (hd _), ?_⟩
    rw [List.countP_append, List.countP_append, Game.tien_annonce rfl, Game.tien_annonce rfl, Game.tien_annonce rfl,
      List.countP_append, List.countP_append]
  · cases ht
    exact transmet_rien rfl rfl

theorem transmet_tourSuivant (h : s.jeu.ids.Nodup) (ht : tourSuivant env s = some s') : Transmet s s' := by
  have hcanaux := Game.canaux_of_stable (stable_tourSuivant ht)
  obtain ⟨id, g, obj, obj', x, y, hc, _, _, rfl⟩ := tourSuivant_cases ht
  obtain ⟨hf, _, _, j, _, _, hj, _⟩ := Game.chercheTour_spec env.fuel hc
  have hg : g.canaux = s.jeu.canaux := Game.canaux_of_stable (Game.stable_of_fixe hf)
  have hn : g.canaux.Nodup := by
    rw [hg]
    exact Game.nodup_canaux h
  refine ⟨_, [.nextRound ⟨id, false, obj'.carte.waterLevel, x, y⟩], rfl, ?_, ?_⟩
  · rw [hcanaux, ← hg]
    exact Game.delivers_annonceTour hn _
  · rw [Game.tien_annonceTour (List.getElem?_eq_some_iff.mp hj).1]
    rfl

theorem transmet_endRound (h : s.jeu.ids.Nodup) (hr : endRound env s = some s') : Transmet s s' := by
  obtain ⟨g, nbrTeam, lastTeam, hm, _, hfin⟩ := endRound_cases hr
  have hids : g.ids = s.jeu.ids := Game.ids_of_stable (Game.monteeEau_stable hm)
  have hmontee : Transmet s { s with jeu := g } :=
    transmet_rien rfl (Game.canaux_of_stable (Game.monteeEau_stable hm))
  have hn : g.ids.Nodup := by rwa [hids]
  rcases hfin with ⟨_, rfl⟩ | ⟨_, ht⟩
  · exact hmontee.trans (transmet_annonce (a := .endGame) rfl (Game.nodup_canaux hn) (List.Sublist.refl _) rfl)
  · exact hmontee.trans (transmet_tourSuivant (s := { s with jeu := g }) hn ht)

theorem transmet_handleGame (h : s.jeu.ids.Nodup) (hg : handleGame serveur env m s = some s') : Transmet s s' := by
  obtain ⟨s₁, fin, ht, hfin⟩ := handleGame_cases hg
  have h₁ := transmet_traite h ht
  rcases hfin with ⟨_, hr⟩ | ⟨_, rfl⟩
  · have hn : s₁.jeu.ids.Nodup := by rwa [Game.ids_of_stable (stable_traite ht)]
    exact h₁.trans (transmet_endRound hn hr)
  · exact h₁

end Salle

/-! ## Runs -/

namespace Thread

theorem suite_transmet (serveur : Serveur) (s₀ : Salle) :
    Suite serveur (fun _ _ => True) fun s => Salle.Transmet s₀ s ∧ s.jeu.ids.Nodup where
  db _ h := ⟨h.1.trans (Salle.transmet_rien rfl rfl), h.2⟩
  quit {m th} _ h := by
    refine ⟨h.1.trans (Salle.transmet_handleQuit m h.2), ?_⟩
    unfold Salle.handleQuit
    split
    · exact Game.nodup_handleQuit h.2 m.receiverId
    · exact h.2
  game _ _ h hr :=
    ⟨h.1.trans (Salle.transmet_handleGame h.2 hr), Game.nodup_of_stable h.2 (Salle.stable_handleGame hr)⟩
  heure _ _ h hr :=
    ⟨h.1.trans (Salle.transmet_endRound h.2 hr), Game.nodup_of_stable h.2 (Salle.stable_endRound hr)⟩

/-- What the room has sent to a player since a state of the game. -/
def recoitDepuis (th₀ th : Thread) (id : Nat) : List Annonce :=
  inbox Annonce.commune (.joueur id) (th.salle.envois.drop th₀.salle.envois.length)

/-- **The players hear the same**: since any state of a game without a player twice, every player that is
left has got the same messages in the same order, every other one the first of them, and as many players were
told that a turn was theirs as there were turns. -/
theorem diffusion_of_reach (serveur : Serveur) (th₀ th : Thread)
    (h₀ : Runs.Reach (etape serveur) (fun _ _ => True) Depart th₀) (h1 : th₀.salle.currentStep ≠ stepRoom)
    (hids : th₀.salle.jeu.ids.Nodup) (h : Runs.Reach (etape serveur) (fun _ _ => True) (· = th₀) th) :
    ∃ A, (∀ id ∈ th.salle.jeu.ids, recoitDepuis th₀ th id = A) ∧ (∀ id, recoitDepuis th₀ th id <+: A) ∧
      (th.salle.envois.drop th₀.salle.envois.length).countP Annonce.tien = A.countP Annonce.estTour := by
  have ha := ((garde_lieu serveur _).reach h₀).2
  obtain ⟨⟨l, A, hl, hd, ht⟩, _⟩ := (suite_transmet serveur th₀.salle).reach
    ⟨Salle.transmet_rien rfl rfl, hids⟩ h1 ha h
  have hdrop : th.salle.envois.drop th₀.salle.envois.length = l := by rw [hl, List.drop_left]
  unfold recoitDepuis
  rw [hdrop]
  exact ⟨A, fun id hid => hd.stays _ (List.mem_map_of_mem hid), fun id => hd.leaves _, ht⟩

/-- A blow with the bat of player 1, and the turn of player 2. -/
def suiteATrois : List Evenement := [.recoit ⟨1, .shoot ⟨1, 0, 0⟩⟩, apres [0, 0, 0, 0, 0], apres []]

/-- The three players have got the same four messages, and a user who is not in the room none. -/
theorem diffusion_suiteATrois : ∃ th₀ th A,
    Runs.Reach (etape (serveurDe Map.petite)) (fun _ _ => True) Depart th₀ ∧
    Runs.Reach (etape (serveurDe Map.petite)) (fun _ _ => True) (· = th₀) th ∧ th.salle.jeu.ids = [1, 2, 3] ∧
    (∀ id ∈ [1, 2, 3], recoitDepuis th₀ th id = A) ∧ A.length = 4 ∧
    recoitDepuis th₀ th 4 = [] ∧ recoitDepuis th₀ th 4 <+: A := by
  obtain ⟨th₀, _, h₀, hp⟩ := Runs.exists_of_exec (etape (serveurDe Map.petite)) (fun _ _ => True)
    (show Depart (new 1 1 baseTrois) from ⟨1, 1, baseTrois, rfl⟩) (partieATrois 1)
    (fun th₀ => th₀.salle.currentStep == stepGame && decide th₀.salle.jeu.ids.Nodup &&
      (Runs.exec (etape (serveurDe Map.petite)) (fun _ _ => True) suiteATrois th₀).any fun th =>
        th.salle.jeu.ids == [1, 2, 3] && (recoitDepuis th₀ th 1).length == 4 &&
          (recoitDepuis th₀ th 4).isEmpty) (by decide +kernel)
  simp only [Bool.and_eq_true, beq_iff_eq, decide_eq_true_eq, Option.any_eq_true, List.isEmpty_iff] at hp
  obtain ⟨⟨h1, hids⟩, th, hth, ⟨hreste, h4⟩, hvide⟩ := hp
  have h : Runs.Reach (etape (serveurDe Map.petite)) (fun _ _ => True) (· = th₀) th :=
    Runs.reach_of_exec suiteATrois (.init rfl) hth
  have hne : th₀.salle.currentStep ≠ stepRoom := by rw [h1]; decide
  obtain ⟨A, hrecu, hdebut, _⟩ := diffusion_of_reach (serveurDe Map.petite) th₀ th h₀ hne hids h
  rw [hreste] at hrecu
  exact ⟨th₀, th, A, h₀, h, hreste, hrecu, hrecu 1 (by decide) ▸ h4, hvide, hdebut 4⟩

end Thread
end LombricABrac
