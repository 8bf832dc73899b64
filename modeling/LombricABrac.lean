import LombricABrac.Lib.Table
import LombricABrac.Lib.Board
import LombricABrac.Lib.Ticks
import LombricABrac.Lib.Runs
import LombricABrac.Lib.Cyclic
import LombricABrac.Map
import LombricABrac.Physics
import LombricABrac.Sprite
import LombricABrac.Partie
import LombricABrac.Placement
import LombricABrac.PartieSpec
import LombricABrac.PartieRest
import LombricABrac.Registre
import LombricABrac.Explosions
import LombricABrac.Tours
import LombricABrac.LombricCourant
import LombricABrac.MapSync
import LombricABrac.PartieTermination
import LombricABrac.PartieRuns
import LombricABrac.DataBase
import LombricABrac.Joueur
import LombricABrac.Game
import LombricABrac.EndGame
import LombricABrac.GameSpec
import LombricABrac.Envois
import LombricABrac.GameThread
import LombricABrac.GameRuns
import LombricABrac.Presents
import LombricABrac.ClientLoop
import LombricABrac.Alignement
import LombricABrac.Lib.Wire
import LombricABrac.Replay
import LombricABrac.CommMacros
import LombricABrac.Requests
import LombricABrac.Deplacements
import LombricABrac.Immobiles
import LombricABrac.Expediteurs
import LombricABrac.LombricSync
import LombricABrac.Demarrage
import LombricABrac.Admission
import LombricABrac.Inondation
import LombricABrac.Chronique
import LombricABrac.Rotation
import LombricABrac.Equite
import LombricABrac.Departs
import LombricABrac.Effectifs
import LombricABrac.Salon
import LombricABrac.Equipes
import LombricABrac.Lib.Sql
import LombricABrac.Tables
import LombricABrac.Lib.Mutex
import LombricABrac.Instructions
import LombricABrac.Verrous
import LombricABrac.Lib.Memory
import LombricABrac.Listener
import LombricABrac.Sessions
import LombricABrac.Tampon
import LombricABrac.Messages
import LombricABrac.Connexion
import LombricABrac.Adhesion
import LombricABrac.Voies
import LombricABrac.Creations
import LombricABrac.Effets
import LombricABrac.Amities
import LombricABrac.ClientThread
import LombricABrac.Comptes
import LombricABrac.Isolement
import LombricABrac.Inscription
import LombricABrac.Inconnus
import LombricABrac.Sockets
import LombricABrac.Inertes
import LombricABrac.Coupures
import LombricABrac.Portee
import LombricABrac.Chutes
import LombricABrac.ClientTick
import LombricABrac.Morts
import LombricABrac.Answers
import LombricABrac.Indices
import LombricABrac.Lib.Codec
import LombricABrac.Protos
import LombricABrac.Trajets
import LombricABrac.Demandes
import LombricABrac.Lib.Playback
import LombricABrac.Rejeu
import LombricABrac.Ensemble
import LombricABrac.Lib.Desk
import LombricABrac.Attente
import LombricABrac.Vies
import LombricABrac.Lib.Broadcast
import LombricABrac.Diffusion
import LombricABrac.Duree
import LombricABrac.Menus
import LombricABrac.Ecrans
import LombricABrac.Lib.Relay
import LombricABrac.Messagerie
