import LombricABrac.Joueur

/-!
# Rooms: the class `Game`

`Server/src/game.cpp`.  A message is read decoded, by its type; what is published is kept, in
order, in `envois`.  A handler takes the state of the room (`Salle`) to the next one; `none` is a
fault of the program (an index out of range, a null pointer) or a loop that its `fuel` or the
numbers of `rand` do not let end.  The mutexes are in `Verrous`.
-/

namespace LombricABrac

/-! ## Messages -/

/-- `type_message` and `message` of a `ZMQ_msg` that a room receives. -/
inductive Contenu where
  | ping
  | clientJoinTeam (id : Nat)
  | infoRoom
  | clientModifyMap (id : Nat)
  | clientModifyNbTeams (nbrEq : Nat)
  | clientModifyTime (time : Nat)
  | clientModifyRoundTime (time : Nat)
  | clientModifyNbLombrics (nbrLomb : Nat)
  | clientModifyVieCaisse (val : Nat)
  | clientModifyProbaCaisse (val : Nat)
  | clientModifyInitVie (life : Nat)
  | clientModifyMaxVie (life : Nat)
  | start
  | posLombS (lp : Partie.LombPos)
  | clientChangeWeapon (idWeapon : Nat)
  | clientSendInGameMessage (msg : String)
  | shoot (tir : Partie.Tir)
  | clientQuitRoom (pseudo : String)
  | autre (type : Nat)
  deriving DecidableEq

structure ZmqMsg where
  receiverId : Nat
  contenu : Contenu
  deriving DecidableEq

/-- An entry of `infoPartie_p`. -/
structure LombricInfo where
  idLomb : Nat
  teamLomb : Nat
  nameLomb : String
  namePlayer : String
  posX : Nat
  posY : Nat
  vie : Nat

/-- `Next_lombric`. -/
structure NextLombric where
  idLomb : Nat
  isYours : Bool
  waterLevel : Nat
  x : Int
  y : Int
  deriving DecidableEq

/-- `infoRoom`; `joueur` has the pseudo and the team of each player. -/
structure InfoRoom where
  nbrLomb : Nat
  nbrEq : Nat
  time : Nat
  timeRound : Nat
  map : Nat
  joueur : List (String × Nat)
  initVie : Nat
  maxVie : Nat
  probaCaisse : Nat
  vieCaisse : Nat

/-- What a room publishes; `recu` is the received message sent on as it is. -/
inductive Annonce where
  | ping (place : Bool) (gameId : Nat)
  | clientJoinedTeamResponse (pseudo : String) (id : Nat)
  | recu (contenu : Contenu)
  | serverUserJoined (pseudo : String)
  | infoRoom (room : InfoRoom)
  | start (lombs : List LombricInfo)
  | nextRound (lomb : NextLombric)
  | posLombR (lp : Partie.LombPos)
  | serverDifferentWeapon (idWeapon : Nat)
  | inGameMessage (pseudo msg : String)
  | shoot (tir : Partie.Tir)
  | updateWall (coord : List Nat)
  | lombDmg (lombUpt : List Partie.Degat)
  | endGame
  | serverClientQuittedRoom (pseudo : String)

/-- `users/<id>/room`, or the channel of the broker. -/
inductive Canal where
  | joueur (id : Nat)
  | all
  deriving DecidableEq

/-! ## State -/

/-- A map file: its size and its rows. -/
structure Fichier where
  largeur : Nat
  hauteur : Nat
  mur : Fin hauteur → Fin largeur → Char
  largeur_lt : largeur < 2 ^ 31
  hauteur_lt : hauteur < 2 ^ 31

/-- `new Map(largeur, hauteur, map_s)`. -/
def Fichier.carte (f : Fichier) : Map := Map.new f.largeur f.hauteur f.mur f.largeur_lt f.hauteur_lt

/-- What is the same for every call: the files `../map/<id>.map` and the library's `cos` and `sin`. -/
structure Serveur where
  cartes : Nat → Option Fichier
  calculDirVect : Partie.Direction

/-- What one call meets: the clock when `check_round_time` reads it, then at the start and at the end
of the call; the numbers that `rand` returns; bounds for its loops; and the values of two variables
that it may read uninitialised. -/
structure Env where
  heureRound : Int
  heure : Int
  heureFin : Int
  rand : List Nat
  fuel : Nat
  lastTeam : Nat
  lombOwnerId : Nat

structure Game where
  gameObject : Option Partie
  mapId : Nat
  beginTimeRound : Int
  maxTimeRound : Int
  beginTimeGame : Int
  maxTimeGame : Int
  lombPvInit : Nat
  lombPvMax : Nat
  boxPv : Nat
  probHealthBox : Nat
  teamNb : Nat
  lombNb : Nat
  ownerId : Nat
  gameId : Nat
  currentPlayerId : Nat
  players : List Joueur

/-- The values of `current_step`. -/
def stepRoom : Nat := 0
def stepGame : Nat := 1
def stepEndscreen : Nat := 2

/-- The room as its thread sees it: the game, `current_step`, the tables, what was published, and
how often `end_game` has run. -/
structure Salle where
  jeu : Game
  currentStep : Nat
  db : DataBase
  envois : List (Canal × Annonce)
  endGames : Nat

/-- Stored in an `uint8_t`. -/
def uint8 (n : Nat) : Nat := n % 256

namespace Game

/-- The constructor; the two start times are set by START. -/
def new (owner roomId : Nat) : Game where
  gameObject := none
  mapId := 1
  beginTimeRound := 0
  maxTimeRound := 20
  beginTimeGame := 0
  maxTimeGame := 30
  lombPvInit := 100
  lombPvMax := 150
  boxPv := 25
  probHealthBox := 50
  teamNb := 4
  lombNb := 8
  ownerId := owner
  gameId := roomId
  currentPlayerId := 0
  players := []

/-! ## Tests -/

def checkRoundTime (g : Game) (heure : Int) : Bool := g.maxTimeRound < heure - g.beginTimeRound

def checkTime (g : Game) (heure : Int) : Bool := g.maxTimeGame < heure - g.beginTimeGame

/-- The loop of `nb_alive_teams`: `m_alive_team`, `nbr_teams` and `last_team`. -/
def compteEquipes (obj : Partie) : List Joueur → (Nat → Bool) → Nat → Nat → Option (Nat × Nat)
  | [], _, nbrTeams, lastTeam => some (nbrTeams, lastTeam)
  | j :: js, aliveTeam, nbrTeams, lastTeam =>
    if j.equipe = 0 then compteEquipes obj js aliveTeam nbrTeams lastTeam
    else
      match j.isStillAlive obj with
      | none => none
      | some false => compteEquipes obj js aliveTeam nbrTeams lastTeam
      | some true =>
        if 4 < j.equipe then none
        else if aliveTeam (j.equipe - 1) then compteEquipes obj js aliveTeam nbrTeams lastTeam
        else compteEquipes obj js (fun i => i == j.equipe - 1 || aliveTeam i) (nbrTeams + 1)
          (j.equipe - 1)

/-- `lastTeam` is what the variable of the caller holds. -/
def nbAliveTeams (lastTeam : Nat) (g : Game) : Option (Nat × Nat) :=
  g.gameObject.bind fun obj => compteEquipes obj g.players (fun _ => false) 0 lastTeam

/-! ## Turns -/

def getNextLombricId (g : Game) : Option (Nat × Game) :=
  match g.players[g.currentPlayerId]? with
  | none => none
  | some j =>
    if j.equipe = 0 then some (0, g)
    else
      match g.gameObject.bind fun obj => j.getNextLombricId obj g.lombNb with
      | none => none
      | some (id, j) => some (id, { g with players := g.players.set g.currentPlayerId j })

/-- `m_current_player_id++`, then `0` past the last player. -/
def joueurSuivant (g : Game) : Game :=
  let suivant := uint8 (g.currentPlayerId + 1)
  { g with currentPlayerId := if g.players.length ≤ suivant then 0 else suivant }

/-- The `do … while` of `end_round`. -/
def chercheTour : Nat → Game → Option (Nat × Game)
  | 0, _ => none
  | fuel + 1, g =>
    match g.joueurSuivant.getNextLombricId with
    | none => none
    | some (0, g) => chercheTour fuel g
    | some (id, g) => some (id, g)

/-- The start of `end_round`: the water rises when the time of the game is over. -/
def monteeEau (env : Env) (g : Game) : Option Game :=
  if g.checkTime env.heure then
    (g.gameObject.bind fun obj => obj.increaseWaterLevel.bind (Partie.update env.fuel)).map fun obj =>
      { g with gameObject := some obj }
  else some g

/-- The health box of a turn: `rand() % 100` decides; its position goes into the message. -/
def caisse (env : Env) (g : Game) (obj : Partie) : Option (Partie × Int × Int) :=
  match env.rand with
  | [] => none
  | r :: rand =>
    if r % 100 < g.probHealthBox then
      (obj.dropHealthBox g.boxPv rand).map fun (obj, (x, y), _) => (obj, (x : Int), (y : Int))
    else some (obj, -1, -1)

/-- The message NEXT_ROUND for each player. -/
def annonceTour (g : Game) (lomb : NextLombric) : List (Canal × Annonce) :=
  g.players.zipIdx.map fun (j, i) =>
    (.joueur j.playerId, .nextRound { lomb with isYours := i == g.currentPlayerId })

/-- One message for every player. -/
def annonce (g : Game) (a : Annonce) : List (Canal × Annonce) :=
  g.players.map fun j => (.joueur j.playerId, a)

/-- One player in `end_game`; `playerIndex` counts those who play. -/
def classe (gameId lastTeam : Nat) : DataBase × Nat → Joueur → DataBase × Nat
  | (db, playerIndex), j =>
    if j.equipe = 0 then (db, playerIndex)
    else
      let db :=
        if j.equipe = lastTeam then (db.setFinalPoints gameId 1 playerIndex).ajouteVictoire j.playerId
        else db.setFinalPoints gameId 0 playerIndex
      (db.addPlayer gameId j.playerId playerIndex, playerIndex + 1)

/-! ## START -/

/-- The ids of the worms of the players who have a team. -/
def idsLombrics (g : Game) : Option (List Nat) :=
  ((g.players.filter fun j => j.equipe ≠ 0).mapM fun j =>
    (List.range g.lombNb).mapM fun i => j.lombrics[i]?).map List.flatten

/-- `endTour` is whatever the memory held: START sets it right after. -/
def spawnLombric (serveur : Serveur) (env : Env) (g : Game) : Option Partie :=
  match serveur.cartes g.mapId, g.idsLombrics with
  | some f, some ids =>
    (Partie.nouveauxLombrics f.carte g.lombPvInit g.lombPvMax ids 0 env.rand).map fun (lombs, _) =>
      Partie.setParam f.carte lombs true
  | _, _ => none

/-- The game when its first turn is chosen. -/
def commence (g : Game) (env : Env) (obj : Partie) : Game :=
  { g with gameObject := some obj, beginTimeGame := env.heure, beginTimeRound := env.heureFin }

/-- An entry of the message START. -/
def lombricInfo (env : Env) (db : DataBase) (g : Game) (s : Sprite) : LombricInfo :=
  let owner := (db.getLombricOwnerId s.getId).getD env.lombOwnerId
  { idLomb := s.getId
    teamLomb := ((g.players.find? fun j => j.playerId = owner).map (·.equipe)).getD 0
    nameLomb := db.getLombricName s.getId
    namePlayer := db.getUserUsername owner
    posX := u32 s.posX
    posY := u32 s.posY
    vie := u32 s.getLife }

/-! ## The lobby -/

/-- The new player, with its worms. -/
def nouveauJoueur (db : DataBase) (g : Game) (id : Nat) : Option Joueur :=
  (Joueur.initWorms db g.lombNb { Joueur.new with playerId := id, nbrLomb := g.lombNb }).map fun j =>
    { j with pseudo := db.getUserUsername id }

def infoRoom (g : Game) : InfoRoom where
  nbrLomb := g.lombNb
  nbrEq := g.teamNb
  time := u32 g.maxTimeGame
  timeRound := u32 g.maxTimeRound
  map := g.mapId
  joueur := g.players.map fun j => (j.pseudo, j.equipe)
  initVie := g.lombPvInit
  maxVie := g.lombPvMax
  probaCaisse := g.probHealthBox
  vieCaisse := g.boxPv

/-- The first entry with that id changes team. -/
def changeEquipe (id equipe : Nat) : List Joueur → List Joueur
  | [] => []
  | j :: js => if j.playerId = id then { j with equipe } :: js else j :: changeEquipe id equipe js

def setUsersTeam (g : Game) (id equipe : Nat) : Game :=
  { g with players := changeEquipe id (uint8 equipe) g.players }

def addUser (g : Game) (j : Joueur) : Game := { g with players := g.players ++ [j] }

/-- The loop of `handle_quit`: after an `erase` the next entry is not looked at. -/
def retire (id : Nat) : List Joueur → List Joueur
  | [] => []
  | [j] => if j.playerId = id then [] else [j]
  | j :: k :: js => if j.playerId = id then k :: retire id js else j :: retire id (k :: js)

def handleQuit (g : Game) (id : Nat) : Game := { g with players := retire id g.players }

/-- The parameters of the owner: what each of its messages writes. -/
def parametre (g : Game) : Contenu → Option Game
  | .clientModifyMap id => some { g with mapId := uint8 id }
  | .clientModifyNbTeams n => some { g with
      teamNb := uint8 n
      players := g.players.map fun j => if uint8 n < j.equipe then { j with equipe := 0 } else j }
  | .clientModifyTime t => some { g with maxTimeGame := Partie.int32 t }
  | .clientModifyRoundTime t => some { g with maxTimeRound := Partie.int32 t }
  | .clientModifyNbLombrics n => some { g with lombNb := uint8 n }
  | .clientModifyVieCaisse n => some { g with boxPv := uint8 n }
  | .clientModifyProbaCaisse n => some { g with probHealthBox := uint8 n }
  | .clientModifyInitVie n => some { g with lombPvInit := uint8 n }
  | .clientModifyMaxVie n => some { g with lombPvMax := uint8 n }
  | _ => none

end Game

namespace Salle

/-- The object of the game after a move or a shot. -/
def avec (obj : Partie) (s : Salle) : Salle := { s with jeu := { s.jeu with gameObject := some obj } }

def envoie (l : List (Canal × Annonce)) (s : Salle) : Salle := { s with envois := s.envois ++ l }

/-! ## `end_game`, `end_round` -/

def endGame (lastTeam : Nat) (s : Salle) : Salle :=
  { s with
    envois := s.envois ++ s.jeu.annonce .endGame
    db := (s.jeu.players.foldl (Game.classe s.jeu.gameId lastTeam) (s.db, 1)).1
    currentStep := s.currentStep + 1
    endGames := s.endGames + 1 }

/-- The end of `end_round`: the next turn. -/
def tourSuivant (env : Env) (s : Salle) : Option Salle :=
  match s.jeu.chercheTour env.fuel with
  | none => none
  | some (id, g) =>
    match g.gameObject.bind fun obj => g.caisse env (obj.setCurrentLomb id) with
    | none => none
    | some (obj, x, y) =>
      let lomb : NextLombric := ⟨id, false, obj.carte.waterLevel, x, y⟩
      some { s with
        jeu := { g with gameObject := some obj, beginTimeRound := env.heureFin }
        envois := s.envois ++ g.annonceTour lomb }

def endRound (env : Env) (s : Salle) : Option Salle :=
  match s.jeu.monteeEau env with
  | none => none
  | some g =>
    match g.nbAliveTeams env.lastTeam with
    | none => none
    | some (nbrTeam, lastTeam) =>
      if nbrTeam ≤ 1 then some (endGame lastTeam { s with jeu := g })
      else tourSuivant env { s with jeu := g }

/-! ## Handlers -/

/-- The case START of `handle_room`. -/
def demarre (serveur : Serveur) (env : Env) (s : Salle) : Option Salle :=
  match s.jeu.spawnLombric serveur env with
  | none => none
  | some obj =>
    match (s.jeu.commence env obj).getNextLombricId with
    | none => none
    | some (id, g) => some { s with
        jeu := { g with gameObject := some (obj.setCurrentLomb id) }
        currentStep := stepGame
        envois := s.envois ++
          g.annonce (.start (obj.spriteVector.map (s.jeu.lombricInfo env s.db))) ++
          g.annonceTour ⟨id, false, 0, -1, -1⟩ }

/-- The messages of the owner. -/
def regle (c : Contenu) (s : Salle) : Salle :=
  match s.jeu.parametre c with
  | some g => envoie (s.jeu.annonce (.recu c)) { s with jeu := g }
  | none => s

def handleRoom (serveur : Serveur) (env : Env) (m : ZmqMsg) (s : Salle) : Option Salle :=
  match m.contenu with
  | .ping => some (s.envoie [(if m.receiverId ≠ 0 then .joueur m.receiverId else .all,
      .ping (s.jeu.players.length < 4) s.jeu.gameId)])
  | .clientJoinTeam id => some (envoie
      (s.jeu.annonce (.clientJoinedTeamResponse (s.db.getUserUsername m.receiverId) id))
      { s with jeu := s.jeu.setUsersTeam m.receiverId id })
  | .infoRoom => (s.jeu.nouveauJoueur s.db m.receiverId).map fun j => envoie
      ((s.jeu.addUser j).annonce (.serverUserJoined j.pseudo) ++
        [(.joueur j.playerId, .infoRoom (s.jeu.addUser j).infoRoom)])
      { s with jeu := s.jeu.addUser j }
  | .start => if m.receiverId = s.jeu.ownerId then s.demarre serveur env else some s
  | c => if m.receiverId = s.jeu.ownerId then some (s.regle c) else some s

/-- The case POS_LOMB_S of `handle_game`; the flag asks for the end of the turn. -/
def bouge (env : Env) (lp : Partie.LombPos) (s : Salle) : Option (Salle × Bool) :=
  (s.jeu.gameObject.bind fun obj => obj.moveCurrentLombric env.fuel lp).map fun obj =>
    (envoie (s.jeu.annonce (.posLombR lp)) (s.avec obj), obj.isTourFinish)

/-- The case SHOOT of `handle_game`. -/
def tire (serveur : Serveur) (env : Env) (tir : Partie.Tir) (s : Salle) : Option (Salle × Bool) :=
  (s.jeu.gameObject.bind fun obj => obj.useWeapon serveur.calculDirVect env.fuel tir).map
    fun (obj, murs, degats) => (envoie (s.jeu.annonce (.shoot tir) ++
      s.jeu.annonce (.updateWall murs) ++ s.jeu.annonce (.lombDmg degats)) (s.avec obj), true)

/-- `handle_game` up to its call of `end_round`. -/
def traite (serveur : Serveur) (env : Env) (m : ZmqMsg) (s : Salle) : Option (Salle × Bool) :=
  match m.contenu with
  | .posLombS lp => s.bouge env lp
  | .clientChangeWeapon id =>
    some (s.envoie (s.jeu.annonce (.serverDifferentWeapon id)), false)
  | .clientSendInGameMessage msg =>
    some (s.envoie (s.jeu.annonce (.inGameMessage (s.db.getUserUsername m.receiverId) msg)), false)
  | .shoot tir => s.tire serveur env tir
  | _ => some (s, false)

def handleGame (serveur : Serveur) (env : Env) (m : ZmqMsg) (s : Salle) : Option Salle :=
  match s.traite serveur env m with
  | none => none
  | some (s, fin) => if fin then s.endRound env else some s

/-- Apart from its locks: where somebody remains the thread stops before the first message, as
`Salle.quitte` has it. -/
def handleQuit (m : ZmqMsg) (s : Salle) : Salle :=
  match m.contenu with
  | .clientQuitRoom pseudo =>
    { s with
      jeu := s.jeu.handleQuit m.receiverId
      currentStep :=
        if (s.jeu.handleQuit m.receiverId).players.isEmpty then stepEndscreen else s.currentStep
      envois := s.envois ++
        (s.jeu.handleQuit m.receiverId).annonce (.serverClientQuittedRoom pseudo) }
  | _ => s

end Salle
end LombricABrac
