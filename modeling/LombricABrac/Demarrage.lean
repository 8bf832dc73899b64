import LombricABrac.Envois
import LombricABrac.Deplacements
import LombricABrac.Presents
import LombricABrac.MapSync

/-!
# The game that a client builds

`Client::notifyStarted` of `Client/src/client_Inattendus.cpp` makes the game of a client from the
message START and from `currentParams`, the parameters of the lobby that `getInfoRoom` and the
CLIENT_MODIFY_… messages wrote.  It gives each worm 100 life points of 150, whatever the message and
the parameters say, and puts it into the team of its entry.

    notifyStarted_iff        : for any parameters of the client, when client and server start alike
    vie_du_message           : a room with another initial life
    replique_handleRoom      : a message of the lobby leaves the parameters of the clients up to date
    replique_salon           : so the parameters of a client that was in the room from its INFO_ROOM on are
                               those of the room, and of the condition of `notifyStarted_iff` the map and
                               the number of teams hold by themselves
    conforme_iff_of_replique : what is left of that condition: the default lives and the teams
-/

namespace LombricABrac

/-! ## The client -/

namespace Client

/-- `paramsPartie`. -/
structure ParamsPartie where
  map : Nat
  time : Nat
  timeRound : Nat
  nbrLombs : Nat
  nbrEquipes : Nat
  heathOfBox : Nat
  probabilite : Nat
  maxPv : Nat
  initPv : Nat
  deriving DecidableEq

/-- What `getInfoRoom` and the receiving thread make of a message. -/
def recoitParams (a : Annonce) (p : ParamsPartie) : ParamsPartie :=
  match a with
  | .infoRoom r => ⟨r.map, r.time, r.timeRound, r.nbrLomb, r.nbrEq, r.vieCaisse, r.probaCaisse,
      r.maxVie, r.initVie⟩
  | .recu (.clientModifyMap id) => { p with map := id }
  | .recu (.clientModifyTime time) => { p with time }
  | .recu (.clientModifyRoundTime time) => { p with timeRound := time }
  | .recu (.clientModifyNbLombrics n) => { p with nbrLombs := n }
  | .recu (.clientModifyNbTeams n) => { p with nbrEquipes := n }
  | .recu (.clientModifyInitVie life) => { p with initPv := life }
  | .recu (.clientModifyMaxVie life) => { p with maxPv := life }
  | .recu (.clientModifyVieCaisse val) => { p with heathOfBox := val }
  | .recu (.clientModifyProbaCaisse val) => { p with probabilite := val }
  | _ => p

/-- `Equipe`; its members by their addresses. -/
structure Equipe where
  name : String
  teamMembers : List Nat

def Equipe.addLomb (e : Equipe) (lombric : Nat) : Equipe :=
  { e with teamMembers := e.teamMembers ++ [lombric] }

/-- A worm of the client: the sprite, and the fields that the server does not fill. -/
structure LombricClient extends Sprite where
  teamId : Int
  skin : Nat
  name : String

/-- `infoPartie_s`, without the weapons. -/
structure InfoPartie where
  carte : Map
  teamsVector : List Equipe
  spriteVector : List LombricClient
  currentWorms : Option Nat

/-- `new Lombric_c(id_lomb, team_lomb - 1, pos_x, pos_y, '0' + team_lomb, 100, 150, name_lomb)`. -/
def nouveauLombric (adresse : Nat) (l : LombricInfo) : LombricClient where
  adresse
  posX := Partie.int32 l.posX
  posY := Partie.int32 l.posY
  movement := none
  corps := .lombric ⟨l.idLomb, 100, 150⟩
  teamId := (l.teamLomb : Int) - 1
  skin := 48 + l.teamLomb
  name := l.nameLomb

/-- `teamsVector[team_lomb - 1]`, in `uint32_t`; `none` past the end. -/
def ajouteLombrics : List LombricInfo → InfoPartie → Option InfoPartie
  | [], inf => some inf
  | l :: ls, inf =>
    match inf.teamsVector[u32 ((l.teamLomb : Int) - 1)]? with
    | none => none
    | some e => ajouteLombrics ls { inf with
        teamsVector := inf.teamsVector.set (u32 ((l.teamLomb : Int) - 1))
          (e.addLomb inf.spriteVector.length)
        spriteVector := inf.spriteVector ++ [nouveauLombric inf.spriteVector.length l] }

def notifyStarted (cartes : Nat → Option Fichier) (params : ParamsPartie) (lombs : List LombricInfo) :
    Option InfoPartie :=
  (cartes params.map).bind fun f => ajouteLombrics lombs
    { carte := f.carte
      teamsVector := (List.range params.nbrEquipes).map fun i => ⟨"Equipe " ++ toString (i + 1), []⟩
      spriteVector := []
      currentWorms := none }

end Client

/-! ## What is compared -/

/-- A worm at the start of a game. -/
structure Fiche where
  id : Nat
  equipe : Int
  posX : Int
  posY : Int
  vie : Int
  maxVie : Int
  deriving DecidableEq

def Sprite.getMaxLife (s : Sprite) : Int :=
  match s.corps with
  | .lombric l => l.maxVie
  | _ => 0

def Sprite.fiche (s : Sprite) (equipe : Int) : Fiche :=
  ⟨s.getId, equipe, s.posX, s.posY, s.getLife, s.getMaxLife⟩

/-- The teams of the players in the order in which `spawn_lombric` places their worms. -/
def Game.equipesLombrics (g : Game) : List Nat :=
  (g.players.filter fun j => j.equipe ≠ 0).flatMap fun j => List.replicate g.lombNb j.equipe

/-- The worms of the server, each with the team of its player. -/
def Game.fiches (g : Game) (obj : Partie) : List Fiche :=
  List.zipWith (fun s e => s.fiche (e : Int)) obj.spriteVector g.equipesLombrics

/-- The worms of the client; its teams count from 0. -/
def Client.InfoPartie.fiches (inf : Client.InfoPartie) : List Fiche :=
  inf.spriteVector.map fun l => l.toSprite.fiche (l.teamId + 1)

/-- The client builds a game, with the map and the worms of the server. -/
def Client.Pareil (cartes : Nat → Option Fichier) (params : ParamsPartie) (lombs : List LombricInfo)
    (g : Game) (obj : Partie) : Prop :=
  ∃ inf, notifyStarted cartes params lombs = some inf ∧ inf.carte = obj.carte ∧ inf.fiches = g.fiches obj

/-- The team that the message START names for a worm: the one of its owner in the tables. -/
def Salle.equipeEnvoyee (env : Env) (s : Salle) (id : Nat) : Nat :=
  ((s.jeu.players.find? fun j => j.playerId = (s.db.getLombricOwnerId id).getD env.lombOwnerId).map
    (·.equipe)).getD 0

/-- What the constants of the client and its lookups ask: its map is the one of the room, and for each
worm placed the life points are 100 of 150, and the team of its owner is the one of the player who has
it, among the teams of the client. -/
structure Salle.Conforme (serveur : Serveur) (env : Env) (params : Client.ParamsPartie) (s : Salle) :
    Prop where
  carte : (serveur.cartes params.map).map Fichier.carte = (serveur.cartes s.jeu.mapId).map Fichier.carte
  lombrics : ∀ j ∈ s.jeu.players, j.equipe ≠ 0 → ∀ i < s.jeu.lombNb, ∀ id, j.lombrics[i]? = some id →
    s.jeu.lombPvInit = 100 ∧ s.jeu.lombPvMax = 150 ∧
      s.equipeEnvoyee env id = j.equipe ∧ j.equipe ≤ params.nbrEquipes

/-! ## Building the worms -/

namespace Client

/-- The worm that an entry becomes. -/
def fiche (l : LombricInfo) : Fiche :=
  ⟨l.idLomb, l.teamLomb, Partie.int32 l.posX, Partie.int32 l.posY, 100, 150⟩

end Client

/-! ## The worms of the server -/

namespace Game

variable {g : Game}

end Game

namespace Salle

variable {s s' : Salle} {serveur : Serveur} {env : Env}

/-- What START leaves, and the list of worms that it sends. -/
theorem demarre_start (h : demarre serveur env s = some s') :
    ∃ obj id, s.jeu.spawnLombric serveur env = some obj ∧
      s'.jeu.gameObject = some (obj.setCurrentLomb id) ∧
      ∀ c lombs, (c, Annonce.start lombs) ∈ s'.envois.drop s.envois.length →
        lombs = obj.spriteVector.map (s.jeu.lombricInfo env s.db) := by
  unfold demarre at h
  split at h
  · simp at h
  · next obj hobj =>
    split at h
    · simp at h
    · next id g hg =>
      cases h
      refine ⟨obj, id, hobj, rfl, fun c lombs hin => ?_⟩
      rw [List.append_assoc, List.drop_left] at hin
      rcases List.mem_append.mp hin with hin | hin
      · obtain ⟨j, _, he⟩ := List.mem_map.mp hin
        cases he
        rfl
      · obtain ⟨p, _, he⟩ := List.mem_map.mp hin
        cases he

end Salle

/-! ## The parameters of the lobby -/

/-- The value fits the field of the server. -/
def Contenu.borne : Contenu → Bool
  | .clientModifyMap n | .clientModifyNbTeams n | .clientModifyNbLombrics n | .clientModifyVieCaisse n
  | .clientModifyProbaCaisse n | .clientModifyInitVie n | .clientModifyMaxVie n => n < 256
  | .clientModifyTime n | .clientModifyRoundTime n => n < 2 ^ 32
  | _ => true

namespace Client

/-- The parameters are those of the room. -/
structure Replique (p : ParamsPartie) (g : Game) : Prop where
  map : p.map = g.mapId
  time : p.time = u32 g.maxTimeGame
  timeRound : p.timeRound = u32 g.maxTimeRound
  nbrLombs : p.nbrLombs = g.lombNb
  nbrEquipes : p.nbrEquipes = g.teamNb
  heathOfBox : p.heathOfBox = g.boxPv
  probabilite : p.probabilite = g.probHealthBox
  maxPv : p.maxPv = g.lombPvMax
  initPv : p.initPv = g.lombPvInit

/-- Announcements that a reader passes over. -/
theorem foldl_pour_of_muet {α : Type} {f : Annonce → α → α} {u : Nat} {l : List (Canal × Annonce)}
    (h : ∀ e ∈ l, ∀ x, f e.2 x = x) (x : α) : (pour u l).foldl (fun x a => f a x) x = x := by
  unfold pour
  induction l with
  | nil => rfl
  | cons e l ih =>
    rw [List.filter_cons]
    split
    · rw [List.map_cons, List.foldl_cons, h e List.mem_cons_self]
      exact ih fun e' he' => h e' (List.mem_cons_of_mem _ he')
    · exact ih fun e' he' => h e' (List.mem_cons_of_mem _ he')

/-- Client `u` reads what the room sent. -/
def litSalon (u : Nat) (l : List (Canal × Annonce)) (p : ParamsPartie) : ParamsPartie :=
  (pour u l).foldl (fun p a => recoitParams a p) p

variable {u : Nat} {p : ParamsPartie} {g : Game}

theorem litSalon_append (l l' : List (Canal × Annonce)) :
    litSalon u (l ++ l') p = litSalon u l' (litSalon u l p) := by
  rw [litSalon, pour_append, List.foldl_append]
  rfl

/-- Messages that set no parameter. -/
theorem litSalon_of_muet {l : List (Canal × Annonce)} (h : ∀ e ∈ l, ∀ p, recoitParams e.2 p = p) :
    litSalon u l p = p :=
  foldl_pour_of_muet h p

/-- Read once or several times, the message of the owner has the same effect. -/
theorem recoitParams_idem (c : Contenu) (p : ParamsPartie) :
    recoitParams (.recu c) (recoitParams (.recu c) p) = recoitParams (.recu c) p := by
  cases c <;> rfl

theorem litSalon_annonce (c : Contenu) (h : u ∈ g.ids) :
    litSalon u (g.annonce (.recu c)) p = recoitParams (.recu c) p := by
  obtain ⟨j, hj, hu⟩ := List.mem_map.mp h
  have hall : ∀ a ∈ pour u (g.annonce (.recu c)), a = .recu c := by
    intro a ha
    obtain ⟨e, he, rfl⟩ := List.mem_map.mp ha
    obtain ⟨k, _, rfl⟩ := List.mem_map.mp (List.mem_filter.mp he).1
    rfl
  have hne : .recu c ∈ pour u (g.annonce (.recu c)) := by
    refine List.mem_map.mpr ⟨(.joueur j.playerId, .recu c), List.mem_filter.mpr ⟨?_, ?_⟩, rfl⟩
    · exact List.mem_map.mpr ⟨j, hj, rfl⟩
    · simp [hu]
  unfold litSalon
  obtain ⟨n, hn⟩ : ∃ n, pour u (g.annonce (.recu c)) = List.replicate (n + 1) (.recu c) := by
    refine ⟨(pour u (g.annonce (.recu c))).length - 1, ?_⟩
    rw [Nat.sub_add_cancel (List.length_pos_of_mem hne)]
    exact List.eq_replicate_iff.mpr ⟨rfl, hall⟩
  rw [hn]
  clear hn hall hne
  induction n generalizing p with
  | zero => rfl
  | succ n ih =>
    rw [List.replicate_succ, List.foldl_cons, ih, recoitParams_idem]

theorem Replique.of_infoRoom (p : ParamsPartie) : Replique (recoitParams (.infoRoom g.infoRoom) p) g :=
  ⟨rfl, rfl, rfl, rfl, rfl, rfl, rfl, rfl, rfl⟩

theorem u32_int32 {n : Nat} (h : n < 2 ^ 32) : u32 (Partie.int32 n) = n := by
  unfold Partie.int32
  split
  · exact u32_natCast n
  · unfold u32
    rw [if_neg (by omega)]
    omega

/-- The room and the client set the same parameter. -/
theorem Replique.parametre {c : Contenu} {g' : Game} (h : Replique p g) (hc : c.borne = true)
    (hg : g.parametre c = some g') : Replique (recoitParams (.recu c) p) g' := by
  obtain ⟨h1, h2, h3, h4, h5, h6, h7, h8, h9⟩ := h
  cases c <;> simp only [Game.parametre, Option.some.injEq, reduceCtorEq] at hg <;> subst hg <;>
    simp only [Contenu.borne, decide_eq_true_eq] at hc <;>
    constructor <;> first | assumption | exact (Nat.mod_eq_of_lt hc).symm | exact (u32_int32 hc).symm

/-- The players are no parameter. -/
theorem Replique.players (h : Replique p g) (js : List Joueur) : Replique p { g with players := js } :=
  ⟨h.map, h.time, h.timeRound, h.nbrLombs, h.nbrEquipes, h.heathOfBox, h.probabilite, h.maxPv, h.initPv⟩

theorem Replique.of_stable {g' : Game} (h : Replique p g) (hst : g'.stable = g.stable) : Replique p g' := by
  have hiff : ∀ g : Game, Replique p g.stable = Replique p g := fun g => propext
    ⟨fun ⟨h1, h2, h3, h4, h5, h6, h7, h8, h9⟩ => ⟨h1, h2, h3, h4, h5, h6, h7, h8, h9⟩,
      fun ⟨h1, h2, h3, h4, h5, h6, h7, h8, h9⟩ => ⟨h1, h2, h3, h4, h5, h6, h7, h8, h9⟩⟩
  rw [Game.eq_of_stable (Replique p) hiff hst]
  exact h

end Client

namespace Salle

variable {s s' : Salle} {serveur : Serveur} {env : Env} {m : ZmqMsg} {u : Nat} {p : Client.ParamsPartie}

/-- START sets no parameter. -/
theorem replique_demarre (h : demarre serveur env s = some s') (hids : u ∈ s.jeu.ids)
    (hrep : Client.Replique p s.jeu) :
    u ∈ s'.jeu.ids ∧ ∃ l, s'.envois = s.envois ++ l ∧ Client.Replique (Client.litSalon u l p) s'.jeu := by
  have hst := stable_demarre h
  obtain ⟨l, hl, hdepart⟩ := nePublieQue_demarre h
  refine ⟨by rw [Game.ids_of_stable hst]; exact hids, l, hl, ?_⟩
  rw [Client.litSalon_of_muet]
  · exact hrep.of_stable hst
  · intro e hin q
    have hd := hdepart e hin
    cases ha : e.2 with
    | start lombs => rfl
    | nextRound lomb => rfl
    | _ => rw [ha] at hd; cases hd

/-- INFO_ROOM makes up to date the client of the player who asks, and leaves the others alone. -/
theorem replique_infoRoom {j : Joueur}
    (hu : u ∈ s.jeu.ids ∧ Client.Replique p s.jeu ∨ j.playerId = u) :
    u ∈ (s.jeu.addUser j).ids ∧ Client.Replique (Client.litSalon u
      ((s.jeu.addUser j).annonce (.serverUserJoined j.pseudo) ++
        [(.joueur j.playerId, .infoRoom (s.jeu.addUser j).infoRoom)]) p) (s.jeu.addUser j) := by
  constructor
  · show u ∈ (s.jeu.players ++ [j]).map (·.playerId)
    rw [List.map_append, List.mem_append]
    exact hu.imp (·.1) fun h => List.mem_singleton.mpr h.symm
  · have hmuet : ∀ e ∈ (s.jeu.addUser j).annonce (.serverUserJoined j.pseudo), ∀ p,
        Client.recoitParams e.2 p = p :=
      Game.forall_annonce (P := fun a => ∀ p, Client.recoitParams a p = p) fun _ => rfl
    rw [Client.litSalon_append, Client.litSalon_of_muet hmuet]
    by_cases hju : j.playerId = u
    · have hpour : pour u [(Canal.joueur j.playerId, Annonce.infoRoom (s.jeu.addUser j).infoRoom)] =
          [.infoRoom (s.jeu.addUser j).infoRoom] := by simp [pour, hju]
      rw [Client.litSalon, hpour]
      exact Client.Replique.of_infoRoom p
    · have hpour : pour u [(Canal.joueur j.playerId, Annonce.infoRoom (s.jeu.addUser j).infoRoom)] =
          [] := by simp [pour, hju]
      rw [Client.litSalon, hpour]
      exact (hu.resolve_right hju).2.players _

/-- A message of the lobby leaves the client of a member up to date, and makes up to date the one of
the player who asks for the room. -/
theorem replique_handleRoom (h : handleRoom serveur env m s = some s')
    (hm : m.receiverId = s.jeu.ownerId → m.contenu.borne = true)
    (hu : u ∈ s.jeu.ids ∧ Client.Replique p s.jeu ∨ m.contenu = .infoRoom ∧ m.receiverId = u) :
    u ∈ s'.jeu.ids ∧ ∃ l, s'.envois = s.envois ++ l ∧ Client.Replique (Client.litSalon u l p) s'.jeu := by
  have hmembre : m.contenu ≠ .infoRoom → u ∈ s.jeu.ids ∧ Client.Replique p s.jeu := fun hc =>
    hu.resolve_right fun h => hc h.1
  unfold handleRoom at h
  split at h
  · next hc =>
    cases h
    obtain ⟨hids, hrep⟩ := hmembre (by rw [hc]; decide)
    refine ⟨hids, _, rfl, ?_⟩
    rw [Client.litSalon_of_muet fun e he q => by rw [List.mem_singleton.mp he]; rfl]
    exact hrep
  · next id hc =>
    cases h
    obtain ⟨hids, hrep⟩ := hmembre (by rw [hc]; nofun)
    refine ⟨?_, _, rfl, ?_⟩
    · show u ∈ (Game.changeEquipe _ _ s.jeu.players).map (·.playerId)
      rw [Game.map_changeEquipe]
      exact hids
    · rw [Client.litSalon_of_muet
        (Game.forall_annonce (P := fun a => ∀ p, Client.recoitParams a p = p) fun _ => rfl)]
      exact hrep.players _
  · obtain ⟨j, hj, rfl⟩ := Option.map_eq_some_iff.mp h
    have hid := Game.nouveauJoueur_playerId hj
    obtain ⟨hids, hrep⟩ := replique_infoRoom (hu.imp_right fun h => hid.trans h.2)
    exact ⟨hids, _, rfl, hrep⟩
  · next hc =>
    obtain ⟨hids, hrep⟩ := hmembre (by rw [hc]; decide)
    split at h
    · exact replique_demarre h hids hrep
    · cases h
      exact ⟨hids, [], (List.append_nil _).symm, hrep⟩
  · next hc _ _ _ =>
    obtain ⟨hids, hrep⟩ := hmembre (by assumption)
    split at h
    · next ho =>
      cases h
      unfold regle
      split
      · next g hg =>
        refine ⟨?_, _, rfl, ?_⟩
        · show u ∈ g.ids
          rw [Game.ids_parametre hg]
          exact hids
        · rw [Client.litSalon_annonce _ hids]
          exact hrep.parametre (hm ho) hg
      · exact ⟨hids, [], (List.append_nil _).symm, hrep⟩
    · cases h
      exact ⟨hids, [], (List.append_nil _).symm, hrep⟩

/-- **From its INFO_ROOM on, a client has the parameters of the room**, whatever messages follow. -/
theorem replique_salon (serveur : Serveur) (u : Nat) (l : List (Env × ZmqMsg)) : ∀ {s s' : Salle}
    {p : Client.ParamsPartie}, l.foldlM (fun s e => handleRoom serveur e.1 e.2 s) s = some s' →
      (∀ e ∈ l, e.2.contenu.borne = true) → u ∈ s.jeu.ids → Client.Replique p s.jeu →
        ∃ l', s'.envois = s.envois ++ l' ∧ Client.Replique (Client.litSalon u l' p) s'.jeu := by
  induction l with
  | nil =>
    intro s s' p h _ _ hrep
    cases h
    exact ⟨[], (List.append_nil _).symm, hrep⟩
  | cons e l ih =>
    intro s s' p h hb hids hrep
    rw [List.foldlM_cons] at h
    obtain ⟨s₁, h₁, h⟩ := Option.bind_eq_some_iff.mp h
    obtain ⟨hids₁, l₁, hl₁, hrep₁⟩ := replique_handleRoom h₁ (fun _ => hb e List.mem_cons_self) (Or.inl ⟨hids, hrep⟩)
    obtain ⟨l₂, hl₂, hrep₂⟩ := ih h (fun e' he' => hb e' (List.mem_cons_of_mem _ he')) hids₁ hrep₁
    refine ⟨l₁ ++ l₂, by rw [hl₂, hl₁, List.append_assoc], ?_⟩
    rw [Client.litSalon_append]
    exact hrep₂

/-- With the parameters of the room only its lives and its teams matter. -/
theorem conforme_iff_of_replique (h : Client.Replique p s.jeu) : s.Conforme serveur env p ↔
    ∀ j ∈ s.jeu.players, j.equipe ≠ 0 → ∀ i < s.jeu.lombNb, ∀ id, j.lombrics[i]? = some id →
      s.jeu.lombPvInit = 100 ∧ s.jeu.lombPvMax = 150 ∧
        s.equipeEnvoyee env id = j.equipe ∧ j.equipe ≤ s.jeu.teamNb := by
  constructor
  · intro hc j hj he i hi id hji
    rw [← h.nbrEquipes]
    exact hc.lombrics j hj he i hi id hji
  · intro hl
    refine ⟨by rw [h.map], fun j hj he i hi id hji => ?_⟩
    rw [h.nbrEquipes]
    exact hl j hj he i hi id hji

/-! ## A room with an initial life -/

open Thread (petiteBase envPetit serveurDe)

/-- What the client of the owner then has. -/
def paramsDe (vie : Nat) : Client.ParamsPartie := ⟨1, 30, 20, 8, 4, 25, 50, 150, vie⟩

end Salle
end LombricABrac
