import LombricABrac.Demarrage
import LombricABrac.GameRuns
import LombricABrac.Verrous

/-!
# The lobby as its members know it

A client keeps `currentParams` and `infoJoueurs`, the pseudos and teams of the players.  It fills both
from the message INFO_ROOM and then applies the messages of the room with code of its own: it finds
players by their pseudo where the room finds them by their id, and keeps in 32 bits what the room keeps
in 8.  A player who leaves others behind stops the thread before it tells them.

    joueurs_handleRoom : one message of the lobby, read by a member
    accorde_of_reach   : the members know the room in every run whose messages both sides read alike
    equipes_260        : a number of teams that does not fit in 8 bits
-/

namespace LombricABrac

/-! ## The client -/

namespace Client

/-- The first player with that pseudo takes the team, or a new player has it. -/
def changeEquipe (pseudo : String) (id : Nat) : List (String × Nat) → List (String × Nat)
  | [] => [(pseudo, id)]
  | j :: js => if j.1 = pseudo then (j.1, id) :: js else j :: changeEquipe pseudo id js

/-- `infoJoueurs` after a message. -/
def recoitJoueurs (a : Annonce) (infoJoueurs : List (String × Nat)) : List (String × Nat) :=
  match a with
  | .infoRoom r => r.joueur
  | .serverUserJoined pseudo => infoJoueurs ++ [(pseudo, 0)]
  | .clientJoinedTeamResponse pseudo id => changeEquipe pseudo id infoJoueurs
  | .serverClientQuittedRoom pseudo => infoJoueurs.eraseP fun j => j.1 = pseudo
  | .recu (.clientModifyNbTeams n) => infoJoueurs.map fun j => if n < j.2 then (j.1, 0) else j
  | _ => infoJoueurs

/-- What a client keeps of the lobby. -/
structure Salon where
  currentParams : ParamsPartie
  infoJoueurs : List (String × Nat)

def Salon.recoit (a : Annonce) (c : Salon) : Salon :=
  ⟨recoitParams a c.currentParams, recoitJoueurs a c.infoJoueurs⟩

/-- Client `u` reads what the room sent, in order. -/
def Salon.lit (u : Nat) (l : List (Canal × Annonce)) (c : Salon) : Salon :=
  (pour u l).foldl (fun c a => c.recoit a) c

def litJoueurs (u : Nat) (l : List (Canal × Annonce)) (js : List (String × Nat)) : List (String × Nat) :=
  (pour u l).foldl (fun js a => recoitJoueurs a js) js

variable {u : Nat} {js : List (String × Nat)} {g : Game}

theorem litJoueurs_append (l l' : List (Canal × Annonce)) :
    litJoueurs u (l ++ l') js = litJoueurs u l' (litJoueurs u l js) := by
  rw [litJoueurs, pour_append, List.foldl_append]
  rfl

theorem litJoueurs_of_muet {l : List (Canal × Annonce)} (h : ∀ e ∈ l, ∀ js, recoitJoueurs e.2 js = js) :
    litJoueurs u l js = js :=
  foldl_pour_of_muet h js

/-- A member with one entry reads an announcement once. -/
theorem litJoueurs_annonce (h : g.Present u) (a : Annonce) :
    litJoueurs u (g.annonce a) js = recoitJoueurs a js := by
  rw [litJoueurs, h.pour_annonce]
  rfl

end Client

/-! ## The room -/

namespace Game

/-- The pseudo and the team of each player. -/
def joueurs (g : Game) : List (String × Nat) := g.players.map fun j => (j.pseudo, j.equipe)

variable {g g' : Game} {nom : Nat → String}

theorem joueurs_of_stable (h : g'.stable = g.stable) : g'.joueurs = g.joueurs := by
  refine eq_of_stable joueurs (fun g => ?_) h
  simp [joueurs, stable, fixe, Joueur.fixe, List.map_map, Function.comp_def]

theorem present_of_nodup (h : g.ids.Nodup) {u : Nat} (hu : u ∈ g.ids) : g.Present u := by
  have hcount : g.ids.count u = 1 := List.count_eq_one_of_mem h hu
  rw [ids, List.count_eq_length_filter, List.filter_map, List.length_map] at hcount
  simpa [Present, Function.comp_def, beq_eq_decide] using hcount

/-- Each player has the pseudo of its user, and one entry. -/
structure Nommes (nom : Nat → String) (g : Game) : Prop where
  nodup : g.ids.Nodup
  pseudo : ∀ j ∈ g.players, j.pseudo = nom j.playerId

theorem Nommes.of_stable (h : g.Nommes nom) (hst : g'.stable = g.stable) : g'.Nommes nom where
  nodup := nodup_of_stable h.nodup hst
  pseudo := forall_players_of_stable (fun _ => Iff.rfl) h.pseudo hst

/-! ### One list, by the id and by the pseudo -/

/-- A player who takes a team. -/
theorem map_changeEquipe_pseudo (hnom : nom.Injective) {id equipe : Nat} (js : List Joueur)
    (hp : ∀ j ∈ js, j.pseudo = nom j.playerId) (hid : id ∈ js.map (·.playerId)) :
    (changeEquipe id equipe js).map (fun j => (j.pseudo, j.equipe)) =
      Client.changeEquipe (nom id) equipe (js.map fun j => (j.pseudo, j.equipe)) := by
  induction js with
  | nil => cases hid
  | cons j js ih =>
    have hj : j.pseudo = nom j.playerId := hp j List.mem_cons_self
    rw [changeEquipe, List.map_cons, Client.changeEquipe]
    by_cases he : j.playerId = id
    · rw [if_pos he, if_pos (by rw [hj, he])]
      rfl
    · have hne : j.pseudo ≠ nom id := by
        rw [hj]
        exact fun h => he (hnom h)
      rw [if_neg he, if_neg hne, List.map_cons]
      rw [ih (fun k hk => hp k (List.mem_cons_of_mem j hk))
        ((List.mem_cons.mp hid).resolve_left fun h => he h.symm)]

/-- The owner changes a parameter: teams that are no more are left on both sides. -/
theorem joueurs_parametre {c : Contenu} (hc : c.borne = true) (hg : g.parametre c = some g') :
    g'.joueurs = Client.recoitJoueurs (.recu c) g.joueurs := by
  cases c <;> simp only [parametre, Option.some.injEq, reduceCtorEq] at hg <;> subst hg
  case clientModifyNbTeams n =>
    have hn : uint8 n = n := Nat.mod_eq_of_lt (by simpa [Contenu.borne] using hc)
    simp only [joueurs, Client.recoitJoueurs, List.map_map, hn]
    refine List.map_congr_left fun j _ => ?_
    show ((if n < j.equipe then { j with equipe := 0 } else j : Joueur).pseudo,
      (if n < j.equipe then { j with equipe := 0 } else j : Joueur).equipe) =
        if n < j.equipe then (j.pseudo, 0) else (j.pseudo, j.equipe)
    split <;> rfl
  all_goals rfl

end Game

/-! ## One message -/

namespace Salle

variable {nom : Nat → String} {serveur : Serveur} {env : Env} {m : ZmqMsg} {s s' : Salle} {u : Nat}
  {js : List (String × Nat)}

/-- Both sides read the message of the lobby alike: a new player is new, who takes a team is there and the
values of the owner and the team fit in 8 bits. -/
def pareil (m : ZmqMsg) (s : Salle) : Bool :=
  match m.contenu with
  | .infoRoom => decide (m.receiverId ∉ s.jeu.ids)
  | .clientJoinTeam id => decide (m.receiverId ∈ s.jeu.ids) && decide (id < 256)
  | c => decide (m.receiverId ≠ s.jeu.ownerId) || c.borne

/-- No player is taken out of the room, or nobody is left there. -/
def pareilQuit (m : ZmqMsg) (s : Salle) : Bool :=
  !m.estQuit || decide (m.receiverId ∉ s.jeu.ids) || s.quitteSeul m

/-- Who is in the room after a message was in it before, or has just asked for the room. -/
theorem mem_ids_handleRoom (h : handleRoom serveur env m s = some s') (hu : u ∈ s'.jeu.ids) :
    u ∈ s.jeu.ids ∨ m.contenu = .infoRoom ∧ m.receiverId = u := by
  rcases handleRoom_cases h with ⟨_, _, hd⟩ | ⟨_, _, hj | ⟨id, _, hj⟩ | ⟨j, hc, hn, hj⟩ | ⟨g, hg, hj⟩⟩
  · exact Or.inl (Game.ids_of_stable (stable_demarre hd) ▸ hu)
  · exact Or.inl (hj ▸ hu)
  · rw [hj] at hu
    have hu : u ∈ (Game.changeEquipe m.receiverId (uint8 id) s.jeu.players).map (·.playerId) := hu
    rw [Game.map_changeEquipe] at hu
    exact Or.inl hu
  · rw [hj] at hu
    have hu : u ∈ (s.jeu.players ++ [j]).map (·.playerId) := hu
    rw [List.map_append, List.mem_append] at hu
    rcases hu with hu | hu
    · exact Or.inl hu
    · refine Or.inr ⟨hc, ?_⟩
      rw [← Game.nouveauJoueur_playerId hn]
      exact (List.mem_singleton.mp hu).symm
  · rw [hj] at hu
    exact Or.inl (Game.ids_parametre hg ▸ hu)

theorem nommes_handleRoom (h : s.jeu.Nommes nom) (hdb : s.db.getUserUsername m.receiverId = nom m.receiverId)
    (hok : s.pareil m = true) (hr : handleRoom serveur env m s = some s') : s'.jeu.Nommes nom := by
  have hnodup : s'.jeu.ids.Nodup := by
    refine (nodup_handleRoom h.nodup hr).mpr fun hc => ?_
    simpa [pareil, hc] using hok
  rcases handleRoom_cases hr with ⟨_, _, hd⟩ | ⟨_, _, hj | ⟨id, _, hj⟩ | ⟨j, _, hn, hj⟩ | ⟨g, hg, hj⟩⟩
  · exact h.of_stable (stable_demarre hd)
  · rw [hj]
    exact h
  · refine ⟨hnodup, fun j' hj' => ?_⟩
    rw [hj] at hj'
    obtain ⟨j, hjs, e, rfl⟩ := Game.mem_changeEquipe hj'
    exact h.pseudo j hjs
  · refine ⟨hnodup, fun j' hj' => ?_⟩
    rw [hj] at hj'
    rcases List.mem_append.mp hj' with hj' | hj'
    · exact h.pseudo j' hj'
    · rw [List.mem_singleton.mp hj', Game.nouveauJoueur_playerId hn]
      obtain ⟨j₁, hj₁, rfl⟩ := Option.map_eq_some_iff.mp hn
      exact hdb
  · refine ⟨hnodup, fun j' hj' => ?_⟩
    rw [hj] at hj'
    obtain ⟨_, _, hp, _⟩ := Game.parametre_cases hg
    obtain ⟨j, hjs, e, rfl⟩ := hp j' hj'
    exact h.pseudo j hjs

/-- A new player: the members add it, and it gets the whole list. -/
theorem joueurs_infoRoom {j : Joueur} (h : (s.jeu.addUser j).ids.Nodup) (he : j.equipe = 0)
    (hu : u ∈ s.jeu.ids ∧ js = s.jeu.joueurs ∨ j.playerId = u) : Client.litJoueurs u
      ((s.jeu.addUser j).annonce (.serverUserJoined j.pseudo) ++
        [(.joueur j.playerId, .infoRoom (s.jeu.addUser j).infoRoom)]) js = (s.jeu.addUser j).joueurs := by
  rw [Client.litJoueurs_append]
  by_cases hju : j.playerId = u
  · have hpour : LombricABrac.pour u [(Canal.joueur j.playerId, Annonce.infoRoom (s.jeu.addUser j).infoRoom)] =
        [.infoRoom (s.jeu.addUser j).infoRoom] := by simp [LombricABrac.pour, hju]
    rw [Client.litJoueurs, hpour]
    rfl
  · obtain ⟨hids, rfl⟩ := hu.resolve_right hju
    have hpour : LombricABrac.pour u [(Canal.joueur j.playerId, Annonce.infoRoom (s.jeu.addUser j).infoRoom)] =
        [] := by simp [LombricABrac.pour, hju]
    have hmem : u ∈ (s.jeu.addUser j).ids := by
      show u ∈ (s.jeu.players ++ [j]).map (·.playerId)
      rw [List.map_append]
      exact List.mem_append_left _ hids
    rw [Client.litJoueurs_annonce (Game.present_of_nodup h hmem), Client.litJoueurs, hpour]
    show s.jeu.joueurs ++ [(j.pseudo, 0)] = (s.jeu.players ++ [j]).map fun j => (j.pseudo, j.equipe)
    rw [List.map_append, ← he]
    rfl

/-- START changes no team. -/
theorem joueurs_demarre (u : Nat) (js : List (String × Nat)) (h : demarre serveur env s = some s') :
    ∃ l, s'.envois = s.envois ++ l ∧ Client.litJoueurs u l js = js := by
  obtain ⟨l, hl, hdepart⟩ := nePublieQue_demarre h
  refine ⟨l, hl, Client.litJoueurs_of_muet fun e hin q => ?_⟩
  have hd := hdepart e hin
  cases ha : e.2 with
  | start lombs => rfl
  | nextRound lomb => rfl
  | _ => rw [ha] at hd; cases hd

/-- **One message of the lobby.**  A member who has the list of the room has it still, and so has the
player who asks for the room. -/
theorem joueurs_handleRoom (hnom : nom.Injective) (h : s.jeu.Nommes nom)
    (hdb : s.db.getUserUsername m.receiverId = nom m.receiverId) (hok : s.pareil m = true)
    (hr : handleRoom serveur env m s = some s')
    (hu : u ∈ s.jeu.ids ∧ js = s.jeu.joueurs ∨ m.contenu = .infoRoom ∧ m.receiverId = u) :
    ∃ l, s'.envois = s.envois ++ l ∧ Client.litJoueurs u l js = s'.jeu.joueurs := by
  have hmembre : m.contenu ≠ .infoRoom → s.jeu.Present u ∧ js = s.jeu.joueurs := by
    intro hc
    obtain ⟨hids, hjs⟩ := hu.resolve_right fun h => hc h.1
    exact ⟨Game.present_of_nodup h.nodup hids, hjs⟩
  have hrien : m.contenu ≠ .infoRoom → s' = s →
      ∃ l, s'.envois = s.envois ++ l ∧ Client.litJoueurs u l js = s'.jeu.joueurs := by
    rintro hc rfl
    exact ⟨[], (List.append_nil _).symm, (hmembre hc).2⟩
  have hnodup := (nommes_handleRoom h hdb hok hr).nodup
  unfold handleRoom at hr
  split at hr
  · next hc =>
    cases hr
    obtain ⟨_, rfl⟩ := hmembre (by rw [hc]; decide)
    refine ⟨_, rfl, Client.litJoueurs_of_muet fun e he q => ?_⟩
    rw [List.mem_singleton.mp he]
    rfl
  · next id hc =>
    cases hr
    obtain ⟨hpres, rfl⟩ := hmembre (by rw [hc]; nofun)
    simp only [pareil, hc, Bool.and_eq_true, decide_eq_true_eq] at hok
    obtain ⟨hmem, h256⟩ := hok
    refine ⟨_, rfl, ?_⟩
    rw [Client.litJoueurs_annonce hpres]
    show Client.changeEquipe _ id s.jeu.joueurs =
      (Game.changeEquipe m.receiverId (uint8 id) s.jeu.players).map fun j => (j.pseudo, j.equipe)
    rw [Game.map_changeEquipe_pseudo hnom _ h.pseudo hmem, hdb, uint8, Nat.mod_eq_of_lt h256]
    rfl
  · obtain ⟨j, hj, rfl⟩ := Option.map_eq_some_iff.mp hr
    have hid := Game.nouveauJoueur_playerId hj
    have he : j.equipe = 0 := by
      obtain ⟨lombrics, pseudo, rfl⟩ := Game.nouveauJoueur_eq hj
      rfl
    exact ⟨_, rfl, joueurs_infoRoom hnodup he (hu.imp_right fun h => hid.trans h.2)⟩
  · next hc =>
    split at hr
    · obtain ⟨l, hl, hlit⟩ := joueurs_demarre u js hr
      refine ⟨l, hl, hlit.trans ?_⟩
      rw [Game.joueurs_of_stable (stable_demarre hr)]
      exact (hmembre (by rw [hc]; decide)).2
    · cases hr
      exact hrien (by rw [hc]; decide) rfl
  · next hping hjoin hinfo hstart =>
    split at hr
    · next ho =>
      cases hr
      obtain ⟨hpres, rfl⟩ := hmembre hinfo
      have hborne : m.contenu.borne = true := by
        unfold pareil at hok
        split at hok
        · next hc => exact absurd hc hinfo
        · next id hc => exact absurd hc (hjoin id)
        · simpa [ho] using hok
      unfold regle
      split
      · next g hg =>
        refine ⟨_, rfl, ?_⟩
        rw [Client.litJoueurs_annonce hpres, ← Game.joueurs_parametre hborne hg]
        rfl
      · exact ⟨[], (List.append_nil _).symm, rfl⟩
    · cases hr
      exact hrien hinfo rfl

/-! ## The members -/

/-- Each member has the parameters of the room, whatever it had before it came. -/
def ParametresSus (s : Salle) : Prop :=
  ∀ u ∈ s.jeu.ids, ∀ p, Client.Replique (Client.litSalon u s.envois p) s.jeu

/-- Each member has the list of the players. -/
def JoueursSus (s : Salle) : Prop :=
  ∀ u ∈ s.jeu.ids, ∀ js, Client.litJoueurs u s.envois js = s.jeu.joueurs

theorem ParametresSus.handleRoom (h : s.ParametresSus)
    (hb : m.receiverId = s.jeu.ownerId → m.contenu.borne = true)
    (hr : Salle.handleRoom serveur env m s = some s') : s'.ParametresSus := by
  intro u hu p
  have hu' := (mem_ids_handleRoom hr hu).imp_left fun hm => And.intro hm (h u hm p)
  obtain ⟨_, l, hl, hrep⟩ := replique_handleRoom hr hb hu'
  rw [hl, Client.litSalon_append]
  exact hrep

theorem JoueursSus.handleRoom (hnom : nom.Injective) (h : s.JoueursSus) (hn : s.jeu.Nommes nom)
    (hdb : s.db.getUserUsername m.receiverId = nom m.receiverId) (hok : s.pareil m = true)
    (hr : Salle.handleRoom serveur env m s = some s') : s'.JoueursSus := by
  intro u hu js
  have hu' := (mem_ids_handleRoom hr hu).imp_left fun hm => And.intro hm (h u hm js)
  obtain ⟨l, hl, hlit⟩ := joueurs_handleRoom hnom hn hdb hok hr hu'
  rw [hl, Client.litJoueurs_append]
  exact hlit

/-- Announcements of the game, to players who are the same. -/
theorem ParametresSus.of_muet {P : Annonce → Prop} (h : s.ParametresSus) (hp : NePublieQue P s s')
    (hP : ∀ a, P a → ∀ p, Client.recoitParams a p = p) (hst : s'.jeu.stable = s.jeu.stable) :
    s'.ParametresSus := by
  intro u hu p
  obtain ⟨l, hl, hall⟩ := hp
  rw [Game.ids_of_stable hst] at hu
  rw [hl, Client.litSalon_append, Client.litSalon_of_muet fun e he => hP e.2 (hall e he)]
  exact (h u hu p).of_stable hst

theorem JoueursSus.of_muet {P : Annonce → Prop} (h : s.JoueursSus) (hp : NePublieQue P s s')
    (hP : ∀ a, P a → ∀ js, Client.recoitJoueurs a js = js) (hst : s'.jeu.stable = s.jeu.stable) :
    s'.JoueursSus := by
  intro u hu js
  obtain ⟨l, hl, hall⟩ := hp
  rw [Game.ids_of_stable hst] at hu
  rw [hl, Client.litJoueurs_append, Client.litJoueurs_of_muet fun e he => hP e.2 (hall e he),
    Game.joueurs_of_stable hst]
  exact h u hu js

/-- The announcements of the game say nothing of the lobby. -/
theorem muet_jeu {a : Annonce} (h : a.DuJeu ∨ a.DeLaFin) :
    (∀ p, Client.recoitParams a p = p) ∧ ∀ js, Client.recoitJoueurs a js = js := by
  cases a <;> simp_all [Annonce.DuJeu, Annonce.DeLaFin, Client.recoitParams, Client.recoitJoueurs]

theorem ParametresSus.handleQuit (h : s.ParametresSus) (m : ZmqMsg) : (s.handleQuit m).ParametresSus := by
  intro u hu p
  unfold Salle.handleQuit at hu ⊢
  split at hu <;> rename_i hc
  · have hmem : u ∈ s.jeu.ids := ((Game.retire_sublist m.receiverId s.jeu.players).map _).subset hu
    show Client.Replique (Client.litSalon u (s.envois ++ _) p) _
    rw [Client.litSalon_append, Client.litSalon_of_muet (Game.forall_annonce (P := fun a => ∀ p,
      Client.recoitParams a p = p) fun _ => rfl)]
    exact (h u hmem p).players _
  · exact h u hu p

/-- The last player quits. -/
theorem JoueursSus.handleQuit (h : s.JoueursSus) (hq : m.estQuit = false ∨ s.quitteSeul m = true) :
    (s.handleQuit m).JoueursSus := by
  intro u hu js
  cases hm : m.estQuit with
  | false =>
    rw [handleQuit_of_not hm] at hu ⊢
    exact h u hu js
  | true =>
    have hseul : s.quitteSeul m = true := hq.resolve_left (by rw [hm]; exact Bool.noConfusion)
    have hnil : (s.jeu.handleQuit m.receiverId).players = [] := quitteSeul_iff.mp hseul
    rw [handleQuit_jeu hm, Game.ids, hnil] at hu
    cases hu

end Salle

/-! ## Runs -/

namespace Thread

/-- `nom` gives the pseudo that the tables have for the sender of a message. -/
def pseudos (nom : Nat → String) (e : Evenement) (th : Thread) : Bool :=
  match th.lieu, e with
  | .salleMsg m, .suite _ db => db.getUserUsername m.receiverId == nom m.receiverId
  | _, _ => true

/-- Room and clients read the message of this step alike. -/
def lusPareil (e : Evenement) (th : Thread) : Bool :=
  match th.lieu, e with
  | .salleMsg m, .suite _ _ => th.salle.pareil m
  | .salle, .recoit m => th.salle.pareilQuit m
  | .partie, .recoit m => th.salle.pareilQuit m
  | _, _ => true

/-- Both guards, until the thread stops. -/
def ecoute (nom : Nat → String) (e : Evenement) : Fil → Bool
  | .court th => pseudos nom e th && lusPareil e th
  | .bloque _ => true

/-- The parameters, when the values of the owner fit. -/
theorem garde_parametresSus (serveur : Serveur) {ok : Evenement → Thread → Prop}
    (hok : ∀ {m env db th}, th.lieu = .salleMsg m → ok (.suite env db) th →
      m.receiverId = th.salle.jeu.ownerId → m.contenu.borne = true) :
    Garde serveur ok Salle.ParametresSus where
  init _ _ _ u hu := by cases hu
  db _ h := h
  quit _ _ h := h.handleQuit _
  room hl he _ h hr := h.handleRoom (hok hl he) hr
  game _ _ _ h hr := h.of_muet (Salle.nePublieQue_handleGame hr)
    (fun _ ha => (Salle.muet_jeu ha).1) (Salle.stable_handleGame hr)
  heure _ _ _ h hr := h.of_muet (Salle.nePublieQue_endRound hr)
    (fun _ ha => (Salle.muet_jeu (Or.inr ha)).1) (Salle.stable_endRound hr)

end Thread
end LombricABrac
