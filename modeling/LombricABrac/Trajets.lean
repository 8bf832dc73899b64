import LombricABrac.Envois
import LombricABrac.GameRuns
import LombricABrac.Protos

/-!
# From a room to the clients

What `Joueur::sendMessage` publishes, `client_thread` sends on with `envoie_msg`, and `Client::run` reads: an
announcement of `Salle` is the message that a client parses, as long as none of its bytes is zero.

    lit_octets         : one announcement, cut at its first zero byte or whole
    zero_mem_octets    : which announcements have a zero byte
    redirige_zmq       : the thread of the user sends on what was published
    lues_iff           : a client parses what was published, if and only if nothing has a zero byte
    publiees_of_reach  : the announcements of every run of a room
    salle_lue_iff      : so each player reads the announcements of its room, in order
-/

namespace LombricABrac

open MsgType Proto

/-! ## Announcements on the wire -/

namespace Contenu

/-- A parameter of the owner, which the room sends on as it was received. -/
def reglage : Contenu → Option (MsgType × List UInt8)
  | .clientModifyMap id => some (CLIENT_MODIFY_MAP, mapMod.serialize id)
  | .clientModifyNbTeams n => some (CLIENT_MODIFY_NB_TEAMS, nbrEqMod.serialize n)
  | .clientModifyTime t => some (CLIENT_MODIFY_TIME, timeMod.serialize t)
  | .clientModifyRoundTime t => some (CLIENT_MODIFY_ROUND_TIME, timeRoundMod.serialize t)
  | .clientModifyNbLombrics n => some (CLIENT_MODIFY_NB_LOMBRICS, nbrLombMod.serialize n)
  | .clientModifyVieCaisse n => some (CLIENT_MODIFY_VIE_CAISSE, caisseMod.serialize n)
  | .clientModifyProbaCaisse n => some (CLIENT_MODIFY_PROBA_CAISSE, caisseMod.serialize n)
  | .clientModifyInitVie n => some (CLIENT_MODIFY_INIT_VIE, lifeMod.serialize n)
  | .clientModifyMaxVie n => some (CLIENT_MODIFY_MAX_VIE, lifeMod.serialize n)
  | _ => none

/-- Its number fits in its field. -/
def EnBits : Contenu → Prop
  | .clientModifyMap n | .clientModifyNbTeams n | .clientModifyTime n | .clientModifyRoundTime n
  | .clientModifyNbLombrics n | .clientModifyVieCaisse n | .clientModifyProbaCaisse n
  | .clientModifyInitVie n | .clientModifyMaxVie n => champ.Ok n
  | _ => True

end Contenu

/-- `Degats_lombric` sets four fields of a `Lombric`, which are those that are read. -/
def Partie.Degat.lombric (d : Partie.Degat) : LombricInfo := ⟨d.idLomb, 0, "", "", d.posX, d.posY, d.vie⟩

def LombricInfo.degat (l : LombricInfo) : Partie.Degat := ⟨l.idLomb, l.posX, l.posY, l.vie⟩

namespace Annonce

/-- Announcements to the players; the answer to a PING is for the thread of the user. -/
def Publiee : Annonce → Prop
  | .ping _ _ => False
  | .recu c => c.reglage.isSome = true
  | _ => True

def type : Annonce → MsgType
  | .ping _ _ => PING
  | .clientJoinedTeamResponse _ _ => CLIENT_JOINED_TEAM_RESPONSE
  | .recu c => (c.reglage.map Prod.fst).getD 0
  | .serverUserJoined _ => SERVER_USER_JOINED
  | .infoRoom _ => INFO_ROOM
  | .start _ => START
  | .nextRound _ => NEXT_ROUND
  | .posLombR _ => POS_LOMB_R
  | .serverDifferentWeapon _ => SERVER_DIFFERENT_WEAPON
  | .inGameMessage _ _ => CLIENT_SEND_IN_GAME_MESSAGE
  | .shoot _ => SHOOT
  | .updateWall _ => UPDATE_WALL
  | .lombDmg _ => LOMB_DMG
  | .endGame => END_GAME
  | .serverClientQuittedRoom _ => SERVER_CLIENT_QUITTED_ROOM

/-- `SerializeAsString` of its message; END_GAME has none. -/
def octets : Annonce → List UInt8
  | .ping place _ => Wire.Scalar.utf8 (if place then "true" else "false")
  | .clientJoinedTeamResponse pseudo id => joinGroupeR.serialize (pseudo, id)
  | .recu c => (c.reglage.map Prod.snd).getD []
  | .serverUserJoined pseudo => usrAdd.serialize pseudo
  | .infoRoom room => Proto.infoRoom.serialize room
  | .start lombs => infoPartieP.serialize lombs
  | .nextRound lomb => nextLombric.serialize lomb
  | .posLombR lp => lombPos.serialize lp
  | .serverDifferentWeapon idWeapon => changeWeapon.serialize idWeapon
  | .inGameMessage pseudo msg => chat.serialize (pseudo, msg)
  | .shoot tir => Proto.tir.serialize tir
  | .updateWall coord => blockDestroy.serialize coord
  | .lombDmg lombUpt => degatsLombric.serialize (lombUpt.map Partie.Degat.lombric)
  | .endGame => []
  | .serverClientQuittedRoom pseudo => newUser.serialize pseudo

/-- The message that the client makes of a type and a text: `none` where it parses none. -/
def lit (type : MsgType) (text : List UInt8) : Option Annonce :=
  match type with
  | CLIENT_JOINED_TEAM_RESPONSE => (joinGroupeR.parse text).map fun x => .clientJoinedTeamResponse x.1 x.2
  | CLIENT_MODIFY_MAP => (mapMod.parse text).map fun n => .recu (.clientModifyMap n)
  | CLIENT_MODIFY_NB_TEAMS => (nbrEqMod.parse text).map fun n => .recu (.clientModifyNbTeams n)
  | CLIENT_MODIFY_TIME => (timeMod.parse text).map fun n => .recu (.clientModifyTime n)
  | CLIENT_MODIFY_ROUND_TIME => (timeRoundMod.parse text).map fun n => .recu (.clientModifyRoundTime n)
  | CLIENT_MODIFY_NB_LOMBRICS => (nbrLombMod.parse text).map fun n => .recu (.clientModifyNbLombrics n)
  | CLIENT_MODIFY_VIE_CAISSE => (caisseMod.parse text).map fun n => .recu (.clientModifyVieCaisse n)
  | CLIENT_MODIFY_PROBA_CAISSE => (caisseMod.parse text).map fun n => .recu (.clientModifyProbaCaisse n)
  | CLIENT_MODIFY_INIT_VIE => (lifeMod.parse text).map fun n => .recu (.clientModifyInitVie n)
  | CLIENT_MODIFY_MAX_VIE => (lifeMod.parse text).map fun n => .recu (.clientModifyMaxVie n)
  | SERVER_USER_JOINED => (usrAdd.parse text).map .serverUserJoined
  | INFO_ROOM => (Proto.infoRoom.parse text).map .infoRoom
  | START => (infoPartieP.parse text).map .start
  | NEXT_ROUND => (nextLombric.parse text).map .nextRound
  | POS_LOMB_R => (lombPos.parse text).map .posLombR
  | SERVER_DIFFERENT_WEAPON => (changeWeapon.parse text).map .serverDifferentWeapon
  | CLIENT_SEND_IN_GAME_MESSAGE => (chat.parse text).map fun x => .inGameMessage x.1 x.2
  | SHOOT => (Proto.tir.parse text).map .shoot
  | UPDATE_WALL => (blockDestroy.parse text).map .updateWall
  | LOMB_DMG => (degatsLombric.parse text).map fun l => .lombDmg (l.map LombricInfo.degat)
  | END_GAME => some .endGame
  | SERVER_CLIENT_QUITTED_ROOM => (newUser.parse text).map .serverClientQuittedRoom
  | _ => none

/-- Each number fits in its field. -/
def EnBits : Annonce → Prop
  | .ping _ _ | .serverUserJoined _ | .inGameMessage _ _ | .endGame | .serverClientQuittedRoom _ => True
  | .clientJoinedTeamResponse pseudo id => joinGroupeR.Ok (pseudo, id)
  | .recu c => c.EnBits
  | .infoRoom room => Proto.infoRoom.Ok room
  | .start lombs => infoPartieP.Ok lombs
  | .nextRound lomb => nextLombric.Ok lomb
  | .posLombR lp => lombPos.Ok lp
  | .serverDifferentWeapon idWeapon => changeWeapon.Ok idWeapon
  | .shoot tir => Proto.tir.Ok tir
  | .updateWall coord => blockDestroy.Ok coord
  | .lombDmg lombUpt => degatsLombric.Ok (lombUpt.map Partie.Degat.lombric)

/-- No character 0 in a string, no number 0 in a packed field, no entry that is all by default. -/
def SansZero : Annonce → Prop
  | .clientJoinedTeamResponse pseudo _ | .serverUserJoined pseudo | .serverClientQuittedRoom pseudo =>
    '\x00' ∉ pseudo.toList
  | .inGameMessage pseudo msg => '\x00' ∉ pseudo.toList ∧ '\x00' ∉ msg.toList
  | .infoRoom room => ∀ j ∈ room.joueur, j ≠ ("", 0) ∧ '\x00' ∉ j.1.toList
  | .start lombs => ∀ l ∈ lombs, ¬ Proto.Vide l ∧ '\x00' ∉ l.nameLomb.toList ∧ '\x00' ∉ l.namePlayer.toList
  | .updateWall coord => 0 ∉ coord
  | .lombDmg lombUpt => ∀ d ∈ lombUpt, d ≠ ⟨0, 0, 0, 0⟩
  | _ => True

/-- What is parsed of a C string is the message, under the name of its type. -/
theorem map_parse_cStr {α : Type} (c : Wire.Codec α) {x : α} (h : c.Ok x) (f : α → Annonce) :
    (c.parse (Requete.cStr (c.serialize x))).map f = if 0 ∈ c.serialize x then none else some (f x) :=
  Proto.map_parse_cStr c h f

variable {a : Annonce}

/-- **One announcement.** -/
theorem lit_octets (hp : a.Publiee) (hb : a.EnBits) :
    lit a.type (Requete.cStr a.octets) = if 0 ∈ a.octets then none else some a := by
  cases a with
  | ping => cases hp
  | clientJoinedTeamResponse pseudo id =>
    exact map_parse_cStr joinGroupeR hb fun x => .clientJoinedTeamResponse x.1 x.2
  | recu c =>
    cases c with
    | clientModifyMap n => exact map_parse_cStr mapMod hb fun n => .recu (.clientModifyMap n)
    | clientModifyNbTeams n => exact map_parse_cStr nbrEqMod hb fun n => .recu (.clientModifyNbTeams n)
    | clientModifyTime n => exact map_parse_cStr timeMod hb fun n => .recu (.clientModifyTime n)
    | clientModifyRoundTime n => exact map_parse_cStr timeRoundMod hb fun n => .recu (.clientModifyRoundTime n)
    | clientModifyNbLombrics n => exact map_parse_cStr nbrLombMod hb fun n => .recu (.clientModifyNbLombrics n)
    | clientModifyVieCaisse n => exact map_parse_cStr caisseMod hb fun n => .recu (.clientModifyVieCaisse n)
    | clientModifyProbaCaisse n => exact map_parse_cStr caisseMod hb fun n => .recu (.clientModifyProbaCaisse n)
    | clientModifyInitVie n => exact map_parse_cStr lifeMod hb fun n => .recu (.clientModifyInitVie n)
    | clientModifyMaxVie n => exact map_parse_cStr lifeMod hb fun n => .recu (.clientModifyMaxVie n)
    | _ => cases hp
  | serverUserJoined pseudo => exact map_parse_cStr usrAdd hb .serverUserJoined
  | infoRoom room => exact map_parse_cStr Proto.infoRoom hb .infoRoom
  | start lombs => exact map_parse_cStr infoPartieP hb .start
  | nextRound lomb => exact map_parse_cStr nextLombric hb .nextRound
  | posLombR lp => exact map_parse_cStr lombPos hb .posLombR
  | serverDifferentWeapon idWeapon => exact map_parse_cStr changeWeapon hb .serverDifferentWeapon
  | inGameMessage pseudo msg => exact map_parse_cStr chat ⟨hb, hb⟩ fun x => .inGameMessage x.1 x.2
  | shoot tir => exact map_parse_cStr Proto.tir hb .shoot
  | updateWall coord => exact map_parse_cStr blockDestroy hb .updateWall
  | lombDmg lombUpt =>
    have hl : (lombUpt.map Partie.Degat.lombric).map LombricInfo.degat = lombUpt := by
      rw [List.map_map]
      exact List.map_id lombUpt
    have h := map_parse_cStr degatsLombric hb fun l => .lombDmg (l.map LombricInfo.degat)
    rwa [hl] at h
  | endGame => rfl
  | serverClientQuittedRoom pseudo => exact map_parse_cStr newUser hb .serverClientQuittedRoom

theorem vide_lombric (d : Partie.Degat) : Proto.Vide d.lombric ↔ d = ⟨0, 0, 0, 0⟩ := by
  obtain ⟨idLomb, posX, posY, vie⟩ := d
  simp only [Partie.Degat.lombric, Proto.Vide, Partie.Degat.mk.injEq, true_and]

/-- **Which announcements have a zero byte.** -/
theorem zero_mem_octets (hp : a.Publiee) : 0 ∈ a.octets ↔ ¬ a.SansZero := by
  cases a with
  | ping => cases hp
  | clientJoinedTeamResponse pseudo id =>
    rw [octets, zero_mem_joinGroupeR, SansZero, not_not]
  | recu c =>
    refine iff_of_false ?_ (not_not_intro trivial)
    cases c <;> first
      | exact zero_mem_champ _
      | cases hp
  | serverUserJoined pseudo | serverClientQuittedRoom pseudo =>
    rw [SansZero, not_not]
    exact zero_mem_texte pseudo
  | infoRoom room =>
    rw [octets, zero_mem_infoRoom, SansZero]
    simp only [not_forall, exists_prop, not_and_or, not_not, ne_eq]
  | start lombs =>
    rw [octets, zero_mem_infoPartieP, SansZero]
    simp only [not_forall, exists_prop, not_and_or, not_not]
  | nextRound lomb => exact iff_of_false (zero_mem_nextLombric lomb) (not_not_intro trivial)
  | posLombR lp => exact iff_of_false (zero_mem_lombPos lp) (not_not_intro trivial)
  | serverDifferentWeapon idWeapon => exact iff_of_false (zero_mem_champ idWeapon) (not_not_intro trivial)
  | inGameMessage pseudo msg =>
    rw [octets, zero_mem_chat, SansZero]
    simp only [not_and_or, not_not]
  | shoot tir => exact iff_of_false (zero_mem_tir tir) (not_not_intro trivial)
  | updateWall coord => rw [octets, zero_mem_blockDestroy, SansZero, not_not]
  | lombDmg lombUpt =>
    have hnom : ∀ d : Partie.Degat, '\x00' ∉ d.lombric.nameLomb.toList ∧
        '\x00' ∉ d.lombric.namePlayer.toList := fun d => by simp [Partie.Degat.lombric]
    rw [octets, zero_mem_degatsLombric, SansZero]
    simp only [List.mem_map, exists_exists_and_eq_and, vide_lombric, hnom, or_false, not_forall, exists_prop,
      not_not, ne_eq]
  | endGame => exact iff_of_false List.not_mem_nil (not_not_intro trivial)

/-! ## Three hops -/

/-- `Joueur::sendMessage`: a `ZMQ_msg` with the receiver that the room left in it. -/
def zmq (receiverId : Nat) (a : Annonce) : List UInt8 :=
  zmqMsg.serialize ⟨receiverId, a.type.toNat, a.octets⟩

end Annonce

/-- `client_thread`, of a message on the channel of the room: what `envoie_msg` writes; nothing for "56" or
for what `ParseFromString` refuses. -/
def redirige (contents : List UInt8) : Option (List UInt8) :=
  if contents = Wire.Scalar.utf8 "56" then none
  else (zmqMsg.parse contents).map fun z => Message.fil (.ofNat z.typeMessage) z.message

namespace Annonce

/-- `n` messages of `Client::run`, and what is left on the socket. -/
def lues : Nat → List UInt8 → Option (List Annonce × List UInt8)
  | 0, socket => some ([], socket)
  | n + 1, socket =>
    match Message.readMessage socket with
    | none => none
    | some (m, socket) => (lit m.1 m.2).bind fun a => (lues n socket).map fun (l, socket) => (a :: l, socket)

/-- Its length, and one more, is 32 bits. -/
def Courte (a : Annonce) : Prop := a.octets.length + 1 < 2 ^ 32

theorem redirige_zmq {receiverId : Nat} (hr : receiverId < 2 ^ 32) (a : Annonce) :
    redirige (a.zmq receiverId) = some (Message.fil a.type a.octets) := by
  have htype : a.type.toNat < 2 ^ 32 := a.type.toNat_lt.trans (by decide)
  have hparse : zmqMsg.parse (a.zmq receiverId) = some ⟨receiverId, a.type.toNat, a.octets⟩ :=
    zmqMsg.parse_serialize ⟨⟨hr, htype⟩, trivial⟩
  have hne : a.zmq receiverId ≠ Wire.Scalar.utf8 "56" := by
    intro he
    have h56 : zmqMsg.parse (Wire.Scalar.utf8 "56") = none := by decide +kernel
    rw [he, h56] at hparse
    cases hparse
  rw [redirige, if_neg hne, hparse, Option.map_some, UInt8.ofNat_toNat]

/-- What the socket of a player receives of published messages. -/
def surSocket (l : List (Nat × Annonce)) : Option (List UInt8) :=
  (l.mapM fun x => redirige (x.2.zmq x.1)).map List.flatten

theorem surSocket_eq {l : List (Nat × Annonce)} (h : ∀ x ∈ l, x.1 < 2 ^ 32) :
    surSocket l = some (l.flatMap fun x => Message.fil x.2.type x.2.octets) := by
  have hm : l.mapM (fun x => redirige (x.2.zmq x.1)) = some (l.map fun x => Message.fil x.2.type x.2.octets) := by
    induction l with
    | nil => rfl
    | cons x l ih =>
      rw [List.mapM_cons, redirige_zmq (h x List.mem_cons_self), ih fun y hy => h y (List.mem_cons_of_mem x hy)]
      rfl
  rw [surSocket, hm, Option.map_some, List.flatMap_def]

theorem readMessage_octets {a : Annonce} (hc : a.Courte) (socket : List UInt8) :
    Message.readMessage (Message.fil a.type a.octets ++ socket) =
      some ((a.type, Requete.cStr a.octets), socket) := by
  have hle : (Requete.cStr a.octets).length ≤ a.octets.length := (List.takeWhile_prefix _).length_le
  have hc : a.octets.length + 1 < 2 ^ 32 := hc
  have hmod : (Requete.cStr a.octets).length % 2 ^ 32 = (Requete.cStr a.octets).length :=
    Nat.mod_eq_of_lt (by omega)
  rw [Message.readMessage_fil, hmod, if_neg (by omega), List.take_length]

/-- What the client can read of an announcement. -/
structure Transmissible (x : Nat × Annonce) : Prop where
  receiverId : x.1 < 2 ^ 32
  publiee : x.2.Publiee
  enBits : x.2.EnBits
  courte : x.2.Courte

/-- **A client parses what was published, if and only if nothing has a zero byte.** -/
theorem lues_iff {l : List (Nat × Annonce)} (h : ∀ x ∈ l, Transmissible x) :
    (surSocket l).bind (lues l.length) = some (l.map Prod.snd, []) ↔ ∀ x ∈ l, x.2.SansZero := by
  rw [surSocket_eq fun x hx => (h x hx).receiverId, Option.bind_some]
  induction l with
  | nil => exact iff_of_true rfl nofun
  | cons x l ih =>
    obtain ⟨_, hp, hb, hc⟩ := h x List.mem_cons_self
    have ih := ih fun y hy => h y (List.mem_cons_of_mem x hy)
    rw [List.flatMap_cons, List.length_cons, lues, readMessage_octets hc]
    simp only [lit_octets hp hb, List.forall_mem_cons, ← ih]
    by_cases hz : 0 ∈ x.2.octets
    · rw [if_pos hz]
      exact iff_of_false nofun fun hs => (zero_mem_octets hp).mp hz hs.1
    · have hs : x.2.SansZero := not_not.mp (mt (zero_mem_octets hp).mpr hz)
      rw [if_neg hz, Option.bind_some, and_iff_right hs, Option.map_eq_some_iff]
      constructor
      · rintro ⟨⟨l', rest⟩, hr, he⟩
        obtain ⟨hl, hrest⟩ := Prod.mk.inj he
        exact hr.trans (congrArg some (Prod.ext (List.cons.inj hl).2 hrest))
      · exact fun hr => ⟨_, hr, rfl⟩

end Annonce

/-! ## The runs of a room -/

namespace Annonce

/-- What a room publishes: for a player, or the answer to a PING. -/
def DeSalle (a : Annonce) : Prop := a.Publiee ∨ ∃ place gameId, a = .ping place gameId

/-- What the owner sets is what is sent on. -/
theorem isSome_reglage {g g' : Game} {c : Contenu} (h : g.parametre c = some g') : c.reglage.isSome = true := by
  cases c <;> first
    | rfl
    | cases h

end Annonce

namespace Salle

variable {serveur : Serveur} {env : Env} {m : ZmqMsg} {s s' : Salle}

theorem deSalle_handleRoom (h : handleRoom serveur env m s = some s') :
    NePublieQue Annonce.DeSalle s s' := by
  unfold handleRoom at h
  split at h
  · cases h
    refine ⟨_, rfl, fun e he => ?_⟩
    rw [List.mem_singleton.mp he]
    exact Or.inr ⟨_, _, rfl⟩
  · cases h
    exact ⟨_, rfl, Game.forall_annonce (Or.inl trivial)⟩
  · obtain ⟨j, _, rfl⟩ := Option.map_eq_some_iff.mp h
    refine ⟨_, rfl, List.forall_mem_append.mpr ⟨Game.forall_annonce (Or.inl trivial), fun e he => ?_⟩⟩
    rw [List.mem_singleton.mp he]
    exact Or.inl trivial
  · split at h
    · refine (nePublieQue_demarre h).mono fun a ha => Or.inl ?_
      cases a <;> trivial
    · cases h
      exact nePublieQue_rien rfl
  · split at h
    · cases h
      unfold regle
      split
      · next g' hg =>
        exact ⟨_, rfl, Game.forall_annonce (Or.inl (Annonce.isSome_reglage hg))⟩
      · exact nePublieQue_rien rfl
    · cases h
      exact nePublieQue_rien rfl

theorem deSalle_handleQuit (m : ZmqMsg) (s : Salle) : NePublieQue Annonce.DeSalle s (s.handleQuit m) := by
  refine (nePublieQue_handleQuit m s).mono fun a ha => Or.inl ?_
  cases a <;> trivial

theorem deSalle_endRound (h : endRound env s = some s') : NePublieQue Annonce.DeSalle s s' := by
  refine (nePublieQue_endRound h).mono fun a ha => Or.inl ?_
  cases a <;> trivial

theorem deSalle_handleGame (h : handleGame serveur env m s = some s') : NePublieQue Annonce.DeSalle s s' := by
  refine (nePublieQue_handleGame h).mono fun a ha => Or.inl ?_
  cases a <;> first
    | trivial
    | cases ha <;> contradiction

/-- What is published stays published. -/
theorem NePublieQue.forall_envois {P : Annonce → Prop} (h : NePublieQue P s s') (hs : ∀ e ∈ s.envois, P e.2) :
    ∀ e ∈ s'.envois, P e.2 := by
  obtain ⟨l, hl, hP⟩ := h
  rw [hl]
  exact List.forall_mem_append.mpr ⟨hs, hP⟩

/-- The announcements to a player, in order; an answer to a PING is none. -/
def pour (id : Nat) (s : Salle) : List Annonce :=
  (s.envois.filter fun e => e.1 = .joueur id ∧ e.2.type ≠ PING).map Prod.snd

end Salle

namespace Thread

theorem garde_deSalle (serveur : Serveur) :
    Garde serveur (fun _ _ => True) fun s => ∀ e ∈ s.envois, e.2.DeSalle where
  init _ _ _ := nofun
  db _ hI := hI
  quit _ _ hI := (Salle.deSalle_handleQuit _ _).forall_envois hI
  room _ _ _ hI hr := (Salle.deSalle_handleRoom hr).forall_envois hI
  game _ _ _ hI hr := (Salle.deSalle_handleGame hr).forall_envois hI
  heure _ _ _ hI hr := (Salle.deSalle_endRound hr).forall_envois hI

/-- **In every run of a room**, the announcements to a player have a form on the wire. -/
theorem publiees_of_reach {serveur : Serveur} {th : Thread}
    (h : Runs.Reach (etape serveur) (fun _ _ => True) Depart th) (id : Nat) :
    ∀ a ∈ th.salle.pour id, a.Publiee := by
  intro a ha
  obtain ⟨e, he, rfl⟩ := List.mem_map.mp ha
  obtain ⟨hmem, hc⟩ := List.mem_filter.mp he
  rcases ((garde_deSalle serveur).reach h).1 e hmem with hp | ⟨place, gameId, hping⟩
  · exact hp
  · rw [hping] at hc
    exact absurd rfl (of_decide_eq_true hc).2

/-- **A player reads the announcements of its room in the order in which they were published, if and only if
none of them has a zero byte**: no block of coordinate 0, no character 0. -/
theorem salle_lue_iff (serveur : Serveur) (th : Thread)
    (h : Runs.Reach (etape serveur) (fun _ _ => True) Depart th) (id : Nat) (l : List (Nat × Annonce))
    (hl : l.map Prod.snd = th.salle.pour id)
    (hbits : ∀ x ∈ l, x.1 < 2 ^ 32 ∧ x.2.EnBits ∧ x.2.Courte) :
    (Annonce.surSocket l).bind (Annonce.lues l.length) = some (th.salle.pour id, []) ↔
      ∀ a ∈ th.salle.pour id, a.SansZero := by
  have ht : ∀ x ∈ l, Annonce.Transmissible x := fun x hx => by
    obtain ⟨hr, hb, hc⟩ := hbits x hx
    exact ⟨hr, publiees_of_reach h id _ (hl ▸ List.mem_map_of_mem hx), hb, hc⟩
  rw [← hl, Annonce.lues_iff ht, List.forall_mem_map]

/-- A player with a name and eight worms. -/
def baseNommee : DataBase :=
  ⟨[⟨1, "a", 0⟩], (List.range' 1 8).map fun id => ⟨id, 1, ""⟩, []⟩

/-- It enters its room. -/
def entree : List Evenement :=
  [.suite (envPetit 0) baseNommee, .recoit ⟨1, .infoRoom⟩, .suite (envPetit 0) baseNommee]

/-- The two announcements to that player. -/
def accueil : List Annonce := [.serverUserJoined "a", .infoRoom ⟨8, 4, 30, 20, 1, [("a", 0)], 100, 150, 50, 25⟩]

theorem accueil_lu : ∃ th, Runs.exec (etape (serveurDe Map.petite)) (fun _ _ => True) entree
      (new 1 1 baseNommee) = some th ∧ th.salle.pour 1 = accueil ∧
    (Annonce.surSocket (accueil.map fun a => (1, a))).bind (Annonce.lues 2) = some (accueil, []) := by
  obtain ⟨th, hth, hr, _⟩ := Runs.exists_of_exec (etape (serveurDe Map.petite)) (fun _ _ => True)
    (show Depart (new 1 1 baseNommee) from ⟨1, 1, baseNommee, rfl⟩) entree (fun _ => true) rfl
  have hpour : th.salle.pour 1 = accueil := by
    have hmap : (Runs.exec (etape (serveurDe Map.petite)) (fun _ _ => True) entree
        (new 1 1 baseNommee)).map (fun th => th.salle.pour 1) = some accueil := rfl
    rw [hth] at hmap
    exact Option.some.inj hmap
  refine ⟨th, hth, hpour, ?_⟩
  have hlue := (salle_lue_iff (serveurDe Map.petite) th hr 1 (accueil.map fun a => (1, a))
    (by rw [hpour]; rfl) ?_).mpr ?_
  · rw [hpour] at hlue
    exact hlue
  · have hcourte : ∀ a ∈ accueil, a.octets.length + 1 < 2 ^ 32 := by
      simp only [accueil, List.forall_mem_cons, List.not_mem_nil, false_imp_iff, implies_true, and_true]
      decide +kernel
    have hbits : ∀ a ∈ accueil, a.EnBits := by
      simp [accueil, Annonce.EnBits, Proto.infoRoom, joinGroupeR, Wire.Codec.equiv, Wire.Codec.prod,
        Wire.Codec.one, Wire.Codec.many, Wire.Scalar.uint32, Wire.Scalar.string, Wire.Scalar.message]
    rw [List.forall_mem_map]
    exact fun a ha => ⟨show 1 < 2 ^ 32 by decide, hbits a ha, hcourte a ha⟩
  · rw [hpour]
    simp [accueil, Annonce.SansZero]

end Thread
end LombricABrac
