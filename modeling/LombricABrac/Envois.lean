import LombricABrac.GameSpec

/-!
# What a room publishes

Each handler publishes announcements of a few kinds, and only appends them to those before.

    nePublieQue_handleRoom : in the lobby, before START
    nePublieQue_handleGame : during the game
    nePublieQue_endRound   : at the end of a round
-/

namespace LombricABrac

/-! ## The kinds -/

namespace Annonce

/-- Kinds published in the lobby; a `ping` answers a PING. -/
def DuSalon (c : Contenu) : Annonce → Prop
  | .ping _ _ => c = .ping
  | .clientJoinedTeamResponse _ _ | .recu _ | .serverUserJoined _ | .infoRoom _ => True
  | _ => False

/-- Kinds published at START. -/
def DuDepart : Annonce → Prop
  | .start _ | .nextRound _ => True
  | _ => False

/-- Kinds published for a message of the game, up to the call of `end_round`. -/
def DuJeu : Annonce → Prop
  | .posLombR _ | .serverDifferentWeapon _ | .inGameMessage _ _ | .shoot _ | .updateWall _
  | .lombDmg _ => True
  | _ => False

/-- Kinds published by `end_round`. -/
def DeLaFin : Annonce → Prop
  | .nextRound _ | .endGame => True
  | _ => False

/-- The kind published when a player quits. -/
def DeSortie : Annonce → Prop
  | .serverClientQuittedRoom _ => True
  | _ => False

end Annonce

namespace Game

variable {P : Annonce → Prop} {g : Game}

theorem forall_annonce {a : Annonce} (ha : P a) : ∀ e ∈ g.annonce a, P e.2 := by
  intro e he
  obtain ⟨j, _, rfl⟩ := List.mem_map.mp he
  exact ha

theorem forall_annonceTour (ha : ∀ lomb, P (.nextRound lomb)) (lomb : NextLombric) :
    ∀ e ∈ g.annonceTour lomb, P e.2 := by
  intro e he
  obtain ⟨p, _, rfl⟩ := List.mem_map.mp he
  exact ha _

end Game

/-! ## The handlers -/

namespace Salle

/-- What is published from one state to the other meets `P`. -/
def NePublieQue (P : Annonce → Prop) (s s' : Salle) : Prop :=
  ∃ l, s'.envois = s.envois ++ l ∧ ∀ e ∈ l, P e.2

variable {P Q : Annonce → Prop} {serveur : Serveur} {env : Env} {m : ZmqMsg} {s s₁ s' : Salle}

theorem nePublieQue_rien (h : s'.envois = s.envois) : NePublieQue P s s' :=
  ⟨[], h.trans (List.append_nil _).symm, fun e he => by cases he⟩

theorem NePublieQue.mono (hPQ : ∀ a, P a → Q a) (h : NePublieQue P s s') : NePublieQue Q s s' := by
  obtain ⟨l, hl, hP⟩ := h
  exact ⟨l, hl, fun e he => hPQ e.2 (hP e he)⟩

theorem NePublieQue.trans (h : NePublieQue P s s₁) (h' : NePublieQue P s₁ s') : NePublieQue P s s' := by
  obtain ⟨l, hl, hP⟩ := h
  obtain ⟨l', hl', hP'⟩ := h'
  refine ⟨l ++ l', ?_, List.forall_mem_append.mpr ⟨hP, hP'⟩⟩
  rw [hl', hl, List.append_assoc]

theorem nePublieQue_handleQuit (m : ZmqMsg) (s : Salle) :
    NePublieQue Annonce.DeSortie s (s.handleQuit m) := by
  unfold handleQuit
  split
  · exact ⟨_, rfl, Game.forall_annonce trivial⟩
  · exact nePublieQue_rien rfl

theorem nePublieQue_traite {fin : Bool} (h : traite serveur env m s = some (s', fin)) :
    NePublieQue Annonce.DuJeu s s' := by
  unfold traite at h
  split at h
  · obtain ⟨obj', _, he⟩ := Option.map_eq_some_iff.mp h
    cases he
    exact ⟨_, rfl, Game.forall_annonce trivial⟩
  · cases h
    exact ⟨_, rfl, Game.forall_annonce trivial⟩
  · cases h
    exact ⟨_, rfl, Game.forall_annonce trivial⟩
  · obtain ⟨⟨obj', murs, degats⟩, _, he⟩ := Option.map_eq_some_iff.mp h
    cases he
    refine ⟨_, rfl, List.forall_mem_append.mpr ⟨List.forall_mem_append.mpr ⟨?_, ?_⟩, ?_⟩⟩
    · exact Game.forall_annonce trivial
    · exact Game.forall_annonce trivial
    · exact Game.forall_annonce trivial
  · cases h
    exact nePublieQue_rien rfl

theorem nePublieQue_endRound (h : endRound env s = some s') : NePublieQue Annonce.DeLaFin s s' := by
  obtain ⟨g, nbrTeam, lastTeam, _, _, ⟨_, rfl⟩ | ⟨_, ht⟩⟩ := endRound_cases h
  · exact ⟨_, rfl, Game.forall_annonce trivial⟩
  · obtain ⟨id, g', obj, obj', x, y, _, _, _, rfl⟩ := tourSuivant_cases ht
    exact ⟨_, rfl, Game.forall_annonceTour (fun _ => trivial) _⟩

theorem nePublieQue_handleGame (h : handleGame serveur env m s = some s') :
    NePublieQue (fun a => a.DuJeu ∨ a.DeLaFin) s s' := by
  obtain ⟨s₁, fin, ht, ⟨_, hr⟩ | ⟨_, rfl⟩⟩ := handleGame_cases h
  · exact ((nePublieQue_traite ht).mono fun _ => Or.inl).trans
      ((nePublieQue_endRound hr).mono fun _ => Or.inr)
  · exact (nePublieQue_traite ht).mono fun _ => Or.inl

theorem nePublieQue_demarre (h : demarre serveur env s = some s') :
    NePublieQue Annonce.DuDepart s s' := by
  obtain ⟨obj, id, g, lombs, _, _, rfl⟩ := demarre_cases h
  refine ⟨_, List.append_assoc _ _ _, List.forall_mem_append.mpr ⟨?_, ?_⟩⟩
  · exact Game.forall_annonce trivial
  · exact Game.forall_annonceTour (fun _ => trivial) _

/-- START, or announcements of the lobby. -/
theorem nePublieQue_handleRoom (h : handleRoom serveur env m s = some s') :
    m.contenu = .start ∧ m.receiverId = s.jeu.ownerId ∧ demarre serveur env s = some s' ∨
      NePublieQue (Annonce.DuSalon m.contenu) s s' := by
  unfold handleRoom at h
  split at h
  · next hc =>
    cases h
    refine Or.inr ⟨_, rfl, fun e he => ?_⟩
    rw [List.mem_singleton.mp he]
    exact hc
  · cases h
    exact Or.inr ⟨_, rfl, Game.forall_annonce trivial⟩
  · obtain ⟨j, _, rfl⟩ := Option.map_eq_some_iff.mp h
    refine Or.inr ⟨_, rfl, List.forall_mem_append.mpr ⟨Game.forall_annonce trivial, fun e he => ?_⟩⟩
    rw [List.mem_singleton.mp he]
    trivial
  · next hc =>
    split at h
    · next ho => exact Or.inl ⟨hc, ho, h⟩
    · cases h
      exact Or.inr (nePublieQue_rien rfl)
  · split at h
    · cases h
      unfold regle
      split
      · exact Or.inr ⟨_, rfl, Game.forall_annonce trivial⟩
      · exact Or.inr (nePublieQue_rien rfl)
    · cases h
      exact Or.inr (nePublieQue_rien rfl)

end Salle
end LombricABrac
