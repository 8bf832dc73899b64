import LombricABrac.Protos
import LombricABrac.Sessions

/-!
# From a client to its room

A call of the class `Client` during a game, from `sendMessage` through the thread of the connection to the
handlers of the room: what `game.cpp` parses is what the client put in.

    lit_requete      : the room parses the request of each call as its contents
    seance_recue     : so it receives the calls of a session, in order
    partie_recue     : a session of eight calls
-/

namespace LombricABrac

open MsgType Proto Requete

/-! ## The room -/

/-- The type and the message of a `ZMQ_msg`, as `handle_quit`, `handle_room` and `handle_game` parse them;
what is only sent on is parsed too. -/
def Contenu.lit (type : Nat) (message : List UInt8) : Option Contenu :=
  if type < 256 then
    match UInt8.ofNat type with
    | PING => some .ping
    | CLIENT_JOIN_TEAM => (joinGroupeS.parse message).map .clientJoinTeam
    | INFO_ROOM => some .infoRoom
    | CLIENT_MODIFY_MAP => (mapMod.parse message).map .clientModifyMap
    | CLIENT_MODIFY_NB_TEAMS => (nbrEqMod.parse message).map .clientModifyNbTeams
    | CLIENT_MODIFY_TIME => (timeMod.parse message).map .clientModifyTime
    | CLIENT_MODIFY_ROUND_TIME => (timeMod.parse message).map .clientModifyRoundTime
    | CLIENT_MODIFY_NB_LOMBRICS => (nbrLombMod.parse message).map .clientModifyNbLombrics
    | CLIENT_MODIFY_VIE_CAISSE => (caisseMod.parse message).map .clientModifyVieCaisse
    | CLIENT_MODIFY_PROBA_CAISSE => (caisseMod.parse message).map .clientModifyProbaCaisse
    | CLIENT_MODIFY_INIT_VIE => (lifeMod.parse message).map .clientModifyInitVie
    | CLIENT_MODIFY_MAX_VIE => (lifeMod.parse message).map .clientModifyMaxVie
    | START => some .start
    | POS_LOMB_S => (lombPos.parse message).map .posLombS
    | CLIENT_CHANGE_WEAPON => (changeWeapon.parse message).map .clientChangeWeapon
    | CLIENT_SEND_IN_GAME_MESSAGE => (chat.parse message).map fun x => .clientSendInGameMessage x.2
    | SHOOT => (Proto.tir.parse message).map .shoot
    | CLIENT_QUIT_ROOM => (Wire.Scalar.string.dec (.bytes message)).map fun x => .clientQuitRoom (x.getD "")
    | _ => some (.autre type)
  else some (.autre type)

/-- `game_thread`: the contents that come on the channel of the room. -/
def ZmqMsg.lit (contents : List UInt8) : Option ZmqMsg :=
  (zmqMsg.parse contents).bind fun z => (Contenu.lit z.typeMessage z.message).map fun c => ⟨z.receiverId, c⟩

/-! ## The thread of the connection -/

namespace Requete

/-- A request during a game: its `ZMQ_msg`, where no body is read with the message "msg"; two types are
treated by the thread. -/
def Paire.redirigee (id : Nat) (p : Paire) : Option (List UInt8) :=
  if p.1 = CLIENT_ASK_FRIENDSHIP_LIST ∨ p.1 = CLIENT_SEND_INVITE then none
  else some (zmqMsg.serialize ⟨id, p.1.toNat, p.2.getD (Wire.Scalar.utf8 "msg")⟩)

/-- The thread of a player in a room. -/
def enSalle : Fil := ⟨⟨true, true⟩, false, false⟩

/-- What the room receives of a session: `none` if something could not be parsed. -/
def recus (l : Listener) (id : Nat) (echanges : List (Appel × Tour)) : Option (List ZmqMsg) :=
  ((pris wire enSalle l echanges).filterMap (Paire.redirigee id)).mapM ZmqMsg.lit

/-- What a call means to the room. -/
def Appel.contenu : Appel → Option Contenu
  | setMap idMap => some (.clientModifyMap idMap.toNat)
  | setTime time => some (.clientModifyTime time.toNat)
  | setTimeRound timeRound => some (.clientModifyRoundTime timeRound.toNat)
  | setInitLife vie => some (.clientModifyInitVie vie.toNat)
  | setProbaCaisse valeur => some (.clientModifyProbaCaisse valeur.toNat)
  | setLifeCaisse valeur => some (.clientModifyVieCaisse valeur.toNat)
  | setMaxLife vie => some (.clientModifyMaxVie vie.toNat)
  | setNrbLombrics nbrLomb => some (.clientModifyNbLombrics nbrLomb.toNat)
  | setNbrEquipes nbrEq => some (.clientModifyNbTeams nbrEq.toNat)
  | startGame => some .start
  | changeTeam idEquipe => some (.clientJoinTeam idEquipe.toNat)
  | getInfoRoom => some .infoRoom
  | shoot idArme force angle =>
    some (.shoot ⟨idArme.toNat, (if force = 0 then 1 else force).toNat, angle.toNat⟩)
  | updatePos id x y => some (.posLombS ⟨id.toNat, x.toNat, y.toNat⟩)
  | changeWeapon id => some (.clientChangeWeapon id.toNat)
  | sendInGameMessage text _ => (String.fromUTF8? ⟨text.toArray⟩).map .clientSendInGameMessage
  | getFriendList | addToGame _ => none
  | a => some (.autre a.message.1.toNat)

/-- An in-game message is UTF-8. -/
def Appel.Texte : Appel → Prop
  | sendInGameMessage text _ => ∃ s : String, text = Wire.Scalar.utf8 s
  | _ => True

/-! ## One call -/

theorem write_append (l l' : List Wire.Field) : Wire.write (l ++ l') = Wire.write l ++ Wire.write l' := by
  rw [Wire.write, List.filter_append, List.flatMap_append]
  rfl

/-- Three numbers. -/
theorem write_trois (a b c : Wire.Field) :
    Wire.write [a, b, c] = Wire.write [a] ++ Wire.write [b] ++ Wire.write [c] := by
  rw [← write_append, ← write_append]
  rfl

theorem parse_champ (n : UInt32) : champ.parse (Wire.write [uint32 1 n]) = some n.toNat := by
  have h := champ.parse_serialize (a := n.toNat) n.toNat_lt
  rwa [champ, Wire.Codec.serialize_one] at h

theorem parse_lombPos (id x y : UInt32) :
    lombPos.parse (Wire.write [uint32 1 id, uint32 2 x, uint32 3 y]) = some ⟨id.toNat, x.toNat, y.toNat⟩ := by
  have h := lombPos.parse_serialize (a := ⟨id.toNat, x.toNat, y.toNat⟩) ⟨⟨id.toNat_lt, x.toNat_lt⟩, y.toNat_lt⟩
  rw [write_trois]
  rwa [lombPos, Wire.Codec.serialize_equiv, Wire.Codec.serialize_prod, Wire.Codec.serialize_prod,
    Wire.Codec.serialize_one, Wire.Codec.serialize_one, Wire.Codec.serialize_one] at h

theorem parse_tir (idArme force angle : UInt32) :
    Proto.tir.parse (Wire.write [uint32 1 idArme, uint32 2 force, uint32 3 angle]) =
      some ⟨idArme.toNat, force.toNat, angle.toNat⟩ := by
  have h := Proto.tir.parse_serialize (a := ⟨idArme.toNat, force.toNat, angle.toNat⟩)
    ⟨⟨idArme.toNat_lt, force.toNat_lt⟩, angle.toNat_lt⟩
  rw [write_trois]
  rwa [Proto.tir, Wire.Codec.serialize_equiv, Wire.Codec.serialize_prod, Wire.Codec.serialize_prod,
    Wire.Codec.serialize_one, Wire.Codec.serialize_one, Wire.Codec.serialize_one] at h

theorem parse_chat (s : String) :
    chat.parse (Wire.write [string 1 [], string 2 (Wire.Scalar.utf8 s)]) = some ("", s) := by
  have h := chat.parse_serialize (a := ("", s)) ⟨trivial, trivial⟩
  have hw := write_append [string 1 []] [string 2 (Wire.Scalar.utf8 s)]
  rw [List.singleton_append] at hw
  rw [hw]
  rwa [chat, Wire.Codec.serialize_prod, Wire.Codec.serialize_one, Wire.Codec.serialize_one] at h

theorem fromUTF8?_utf8 (s : String) : String.fromUTF8? ⟨(Wire.Scalar.utf8 s).toArray⟩ = some s := by
  have h := Wire.Scalar.string.dec_enc s trivial
  change (String.fromUTF8? _).map some = some (some s) at h
  obtain ⟨s', hs, he⟩ := Option.map_eq_some_iff.mp h
  rw [hs, Option.some.inj he]

/-- The body of a request that suits the state is read, but for the types that have none. -/
theorem getD_paire {a : Appel} (hc : a.Convient ⟨true, true⟩) (msg : List UInt8)
    (ht : a.message.1 ∉ [START, INFO_ROOM, CLIENT_ASK_FRIENDSHIP_LIST]) :
    (a.requete wire).paire.2.getD msg = Wire.write a.message.2.1 := by
  have hlit : Etat.lit a.message.1 ⟨true, true⟩ = true := by
    simp only [List.mem_cons, List.not_mem_nil, or_false, not_or] at ht
    obtain ⟨hstart, hinfo, hask⟩ := ht
    simp [Etat.lit, hstart, hinfo, hask]
  have haCorps : (a.requete wire).aCorps = true := ((convient_iff wire ⟨true, true⟩ a).mpr hc).symm.trans hlit
  rw [paire, haCorps]
  rfl

/-- **The room parses the request of a call as its contents.** -/
theorem lit_requete {a : Appel} {c : Contenu} (hc : a.Convient ⟨true, true⟩) (hu : a.Texte)
    (h : a.contenu = some c) (msg : List UInt8) :
    Contenu.lit a.message.1.toNat ((a.requete wire).paire.2.getD msg) = some c := by
  cases a with
  | setMap n | setTime n | setTimeRound n | setInitLife n | setProbaCaisse n | setLifeCaisse n | setMaxLife n
  | setNrbLombrics n | setNbrEquipes n | changeTeam n | changeWeapon n =>
    rw [getD_paire hc msg (by simp +decide [Appel.message]), ← h]
    exact congrArg (Option.map _) (parse_champ n)
  | shoot idArme force angle =>
    rw [getD_paire hc msg (by simp +decide [Appel.message]), ← h]
    exact congrArg (Option.map _) (parse_tir idArme _ angle)
  | updatePos id x y =>
    rw [getD_paire hc msg (by simp +decide [Appel.message]), ← h]
    exact congrArg (Option.map _) (parse_lombPos id x y)
  | sendInGameMessage text htext =>
    obtain ⟨s, rfl⟩ := hu
    rw [getD_paire hc msg (by simp +decide [Appel.message]), ← h, Appel.contenu, fromUTF8?_utf8]
    exact congrArg (Option.map _) (parse_chat s)
  | getFriendList | addToGame _ => cases h
  | quitRoom => cases hc
  | _ =>
    cases h
    rfl

/-! ## A session -/

/-- A call of a player in a room: the game goes on and the other threads release the mutexes, the call suits
a game, and its payload survives and comes in one transfer. -/
structure EnJeu (x : Appel × Tour) : Prop where
  surJeu : x.2.surJeu ≠ some false
  base : x.2.base = false
  pub : x.2.pub = false
  convient : x.1.Convient ⟨true, true⟩
  indemne : Indemne (x.1.requete wire).text
  entiere : (x.1.requete wire).aCorps = true → x.2.Entiere (x.1.requete wire)
  texte : x.1.Texte

theorem pret_enSalle {t : Tour} (h : t.surJeu ≠ some false) (hb : t.base = false) (type : MsgType) :
    enSalle.pret t type = enSalle := by
  have hjeu : t.surJeu.getD true = true := by
    cases hs : t.surJeu with
    | none => rfl
    | some b =>
      cases b with
      | false => exact absurd hs h
      | true => rfl
  simp [Fil.pret, Fil.broker, Fil.verrouille, enSalle, hjeu, hb]

theorem apres_enSalle {t : Tour} (hb : t.base = false) (hp : t.pub = false) (type : MsgType) :
    enSalle.apres t type = enSalle := by
  simp [Fil.apres, enSalle, Etat.apres, hb, hp]

theorem accord_enJeu {echanges : List (Appel × Tour)} (h : ∀ x ∈ echanges, EnJeu x) :
    Accord wire enSalle echanges := by
  induction echanges with
  | nil => trivial
  | cons x echanges ih =>
    have hx := h x List.mem_cons_self
    have ih := ih fun y hy => h y (List.mem_cons_of_mem x hy)
    have hpret := pret_enSalle hx.surJeu hx.base (x.1.requete wire).type
    refine ⟨?_, ?_⟩
    · rw [hpret]
      exact ⟨rfl, hx.convient, hx.indemne⟩
    · rw [hpret, apres_enSalle hx.base hx.pub]
      exact ih

/-- The thread takes each request as it was sent. -/
theorem pris_enJeu (l : Listener) {echanges : List (Appel × Tour)} (h : ∀ x ∈ echanges, EnJeu x) :
    pris wire enSalle l echanges = echanges.map fun x => (x.1.requete wire).paire :=
  pris_of_accord wire l (fun x hx => (h x hx).entiere) (accord_enJeu h)

/-- What the thread does not send to the room has no contents. -/
theorem redirigee_requete (id : Nat) (a : Appel) (ht : a.Texte) :
    (a.requete wire).paire.redirigee id = a.contenu.map fun _ =>
      zmqMsg.serialize ⟨id, a.message.1.toNat, (a.requete wire).paire.2.getD (Wire.Scalar.utf8 "msg")⟩ := by
  cases a with
  | sendInGameMessage text htext =>
    obtain ⟨s, rfl⟩ := ht
    rw [Appel.contenu, fromUTF8?_utf8]
    rfl
  | _ => rfl

/-- **The room receives the calls of a session, in order**: what is set is what was meant. -/
theorem seance_recue (l : Listener) {id : Nat} (hid : id < 2 ^ 32) {echanges : List (Appel × Tour)}
    (h : ∀ x ∈ echanges, EnJeu x) :
    recus l id echanges = some ((echanges.filterMap fun x => x.1.contenu).map fun c => ⟨id, c⟩) := by
  rw [recus, pris_enJeu l h, List.filterMap_map]
  induction echanges with
  | nil => rfl
  | cons x echanges ih =>
    have hc := (h x List.mem_cons_self).convient
    have ht := (h x List.mem_cons_self).texte
    have ih := ih fun y hy => h y (List.mem_cons_of_mem x hy)
    have hr := redirigee_requete id x.1 ht
    rw [List.filterMap_cons, List.filterMap_cons, Function.comp_apply, hr]
    cases hcontenu : x.1.contenu with
    | none => exact ih
    | some c =>
      have htype : x.1.message.1.toNat < 2 ^ 32 := x.1.message.1.toNat_lt.trans (by decide)
      have hlit := lit_requete hc ht hcontenu (Wire.Scalar.utf8 "msg")
      simp only [Option.map_some, List.mapM_cons, ZmqMsg.lit,
        zmqMsg.parse_serialize (a := ⟨id, x.1.message.1.toNat, _⟩) ⟨⟨hid, htype⟩, trivial⟩, Option.bind_some,
        hlit, ih, List.map_cons]
      rfl

/-- A map, a team, START, a weapon, a step, a shot without force, "ok". -/
def partie : List (Appel × Tour) :=
  [(.setMap 2, libre), (.changeTeam 1, libre), (.getFriendList, libre), (.startGame, { surJeu := some true }),
    (.changeWeapon 0, libre), (.updatePos 3 10 0, libre), (.shoot 1 0 90, libre),
    (.sendInGameMessage [111, 107] (by decide), libre)]

theorem partie_recue : recus tampon 7 partie = some [⟨7, .clientModifyMap 2⟩, ⟨7, .clientJoinTeam 1⟩,
    ⟨7, .start⟩, ⟨7, .clientChangeWeapon 0⟩, ⟨7, .posLombS ⟨3, 10, 0⟩⟩, ⟨7, .shoot ⟨1, 1, 90⟩⟩,
    ⟨7, .clientSendInGameMessage "ok"⟩] := by
  have henJeu : ∀ x ∈ partie, EnJeu x := by
    have htexte : ([111, 107] : List UInt8) = Wire.Scalar.utf8 "ok" := by decide +kernel
    have hindemne : ∀ x ∈ partie, Indemne (x.1.requete wire).text := by decide +kernel
    have hentiere : Entieres wire partie := by decide +kernel
    intro x hx
    refine ⟨?_, ?_, ?_, ?_, hindemne x hx, hentiere x hx, ?_⟩
    · revert x
      simp [partie, libre]
    · revert x
      simp [partie, libre]
    · revert x
      simp [partie, libre]
    · revert x
      simp +decide [partie, Appel.Convient]
    · revert x
      simp [partie, Appel.Texte]
      exact ⟨"ok", htexte⟩
  rw [seance_recue tampon (show 7 < 2 ^ 32 by decide) henJeu]
  decide +kernel

end Requete
end LombricABrac
