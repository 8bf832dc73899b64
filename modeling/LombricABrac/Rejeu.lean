import LombricABrac.Lib.Playback
import LombricABrac.Protos
import LombricABrac.Replay

/-!
# Recording and replaying a game

`Client/src/client_replay.cpp`, with the cases of `Client::run` that record and the getters of the game loop.
One stream, `saveFile`, is open for the game that is recorded or for the replay that is read; only END_GAME
from the server closes it.  One reading of the clock for each call.

    enregistree    : a game that starts on a closed stream is in its file, from START to END_GAME
    muet_exec      : on an open stream nothing is recorded and no replay begins, until END_GAME
    joue_exec      : a replay plays what its file holds, one message a tick, in its time
    partie_rejouee : so what was played is played again
    occupe_exec    : but one replay only, until the server ends a game
-/

namespace LombricABrac

open MsgType Replay

/-! ## State -/

/-- `std::fstream`: closed; open for writing, and good or not; open for reading, with what can be read.
A stream that is not good reads nothing, so that it has nothing left. -/
inductive SaveFile where
  | ferme
  | ecriture (nom : String) (good : Bool)
  | lecture (reste : List UInt8)
  deriving DecidableEq

/-- What `Client` holds of a game and of its recording.  `joues` is all that was handed to the game loop. -/
structure Rejeu where
  fichiers : String → Option (List UInt8)
  saveFile : SaveFile
  currentParams : ParamsPartie
  initTime : Int
  isReplay : Bool
  nextMessage : Message
  msg : MsgType × List UInt8
  started : Bool
  thisGame : Option (ParamsPartie × List UInt8)
  tableUpdate : List (List UInt8)
  movedLomb : List Partie.LombPos
  newRound : List UInt8
  fin : Bool
  joues : List (MsgType × List UInt8)

namespace Rejeu

/-- `is_open`. -/
def isOpen (c : Rejeu) : Bool := c.saveFile != .ferme

/-- `put` and `write`. -/
def ecrit (octets : List UInt8) (c : Rejeu) : Rejeu :=
  match c.saveFile with
  | .ecriture nom true =>
    { c with fichiers := Function.update c.fichiers nom ((c.fichiers nom).map (· ++ octets)) }
  | .lecture _ => { c with saveFile := .lecture [] }
  | _ => c

/-- `open(nom, out)`: a stream that is open stays, and is not good any more. -/
def openOut (nom : String) (c : Rejeu) : Rejeu :=
  match c.saveFile with
  | .ferme => { c with saveFile := .ecriture nom true, fichiers := Function.update c.fichiers nom (some []) }
  | .ecriture nom _ => { c with saveFile := .ecriture nom false }
  | .lecture _ => { c with saveFile := .lecture [] }

/-- `open(nom, in)`. -/
def openIn (nom : String) (c : Rejeu) : Rejeu :=
  match c.saveFile with
  | .ferme => { c with saveFile := ((c.fichiers nom).map SaveFile.lecture).getD .ferme }
  | .ecriture nom _ => { c with saveFile := .ecriture nom false }
  | .lecture _ => { c with saveFile := .lecture [] }

/-- What `get` can read. -/
def lisible (c : Rejeu) : List UInt8 :=
  match c.saveFile with
  | .lecture reste => reste
  | _ => []

/-- After some `get`: a stream that is not for reading is not good any more. -/
def lu (reste : List UInt8) (c : Rejeu) : Rejeu :=
  match c.saveFile with
  | .lecture _ => { c with saveFile := .lecture reste }
  | .ecriture nom _ => { c with saveFile := .ecriture nom false }
  | .ferme => c

/-! ## The functions of `client_replay.cpp` -/

/-- Milliseconds, as an `int`. -/
def spentTime (heure : Int) (c : Rejeu) : Int32 := .ofInt (heure - c.initTime)

def addMessageTosaveFile (type : MsgType) (text : List UInt8) (heure : Int) (c : Rejeu) : Rejeu :=
  { c with initTime := heure }.ecrit (bloc protobuf ⟨type, c.spentTime heure, text⟩)

def parametres (p : ParamsPartie) : List UInt8 :=
  [put p.map.toNat, put p.time.toNat, put p.timeRound.toNat, put p.nbrLombs.toNat, put p.nbrEquipes.toNat]

def createSaveFile (type : MsgType) (text : List UInt8) (nom : String) (heure : Int) (c : Rejeu) : Rejeu :=
  ({ ((c.openOut nom).ecrit (parametres c.currentParams)) with initTime := heure }).addMessageTosaveFile
    type text heure

/-- What the game is built from: the parameters and the worms of START. -/
def notifyStarted (text : List UInt8) (c : Rejeu) : Rejeu :=
  { c with
    started := true
    thisGame := some (c.currentParams, text)
    joues := c.joues ++ [(START, text)] }

def findNextMsg (c : Rejeu) : Rejeu :=
  { c.lu (Replay.findNextMsg protobuf c.lisible).2 with nextMessage := (Replay.findNextMsg protobuf c.lisible).1 }

/-- The five `get` of `beginReplay`. -/
def litParametres (l : List UInt8) : ParamsPartie × List UInt8 :=
  let (map, l) := get l
  let (time, l) := get l
  let (timeRound, l) := get l
  let (nbrLombs, l) := get l
  let (nbrEquipes, l) := get l
  (⟨.ofInt map, .ofInt time, .ofInt timeRound, .ofInt nbrLombs, .ofInt nbrEquipes⟩, l)

/-- The result is whether the game page is shown. -/
def beginReplay (nom : String) (heure : Int) (c : Rejeu) : Bool × Rejeu :=
  let c := c.openIn nom
  if c.isOpen then
    let c := { c.lu (litParametres c.lisible).2 with
      isReplay := true
      currentParams := (litParametres c.lisible).1 }.findNextMsg
    if c.nextMessage.type = START then
      (true, { c.notifyStarted c.nextMessage.text with initTime := heure })
    else (false, c)
  else (false, c)

/-- The messages of a game that `run` records and `updateReplay` plays. -/
def deJeu : List MsgType := [SHOOT, UPDATE_WALL, LOMB_DMG, POS_LOMB_R, NEXT_ROUND, END_GAME]

/-- What both do with them. -/
def joue (type : MsgType) (text : List UInt8) (c : Rejeu) : Rejeu :=
  match type with
  | SHOOT | UPDATE_WALL | LOMB_DMG => { c with
      tableUpdate := c.tableUpdate ++ [text], joues := c.joues ++ [(type, text)] }
  | POS_LOMB_R => { c with
      movedLomb := c.movedLomb ++ [(Proto.lombPos.parse text).getD ⟨0, 0, 0⟩]
      joues := c.joues ++ [(type, text)] }
  | NEXT_ROUND => { c with newRound := text, joues := c.joues ++ [(type, text)] }
  | END_GAME => { c with fin := true, joues := c.joues ++ [(type, text)] }
  | _ => c

/-- At END_GAME the last message from the server is written to the file that is read. -/
def updateReplay (heure : Int) (c : Rejeu) : Rejeu :=
  if c.isReplay = true ∧ c.nextMessage.time.toInt ≤ (c.spentTime heure).toInt then
    let c' := c.joue c.nextMessage.type c.nextMessage.text
    if c.nextMessage.type ≠ END_GAME then { c'.findNextMsg with initTime := heure }
    else { c'.addMessageTosaveFile c.msg.1 c.msg.2 heure with isReplay := false }
  else c

/-! ## `Client::run` and the game loop -/

/-- A message of the server. -/
def recoit (type : MsgType) (text : List UInt8) (nom : String) (heure : Int) (c : Rejeu) : Rejeu :=
  let c := { c with msg := (type, text) }
  if type = START then { c with fin := false }.notifyStarted text |>.createSaveFile type text nom heure
  else if type ∈ deJeu then
    let c := (c.joue type text).addMessageTosaveFile type text heure
    if type = END_GAME then { c with saveFile := .ferme } else c
  else c

/-- A message of the server, with the name that a new file has then; the parameters change; a replay is
chosen; a tick of the game loop, which reads the clock; its getters. -/
inductive Pas where
  | recoit (type : MsgType) (text : List UInt8) (nom : String) (heure : Int)
  | regle (p : ParamsPartie)
  | beginReplay (nom : String) (heure : Int)
  | updateReplay (heure : Int)
  | getTableUpdate
  | getNewLombPos
  | getNextRound
  | resetGameParam

def etape (c : Rejeu) : Pas → Rejeu
  | .recoit type text nom heure => c.recoit type text nom heure
  | .regle p => { c with currentParams := p }
  | .beginReplay nom heure => (c.beginReplay nom heure).2
  | .updateReplay heure => c.updateReplay heure
  | .getTableUpdate => if c.tableUpdate.length = 3 then { c with tableUpdate := [] } else c
  | .getNewLombPos => { c with movedLomb := [] }
  | .getNextRound => { c with newRound := [] }
  | .resetGameParam => { c with thisGame := none, fin := false }

def exec (es : List Pas) (c : Rejeu) : Rejeu := es.foldl etape c

/-- A client that has just started. -/
def new (fichiers : String → Option (List UInt8)) : Rejeu where
  fichiers
  saveFile := .ferme
  currentParams := ⟨0, 0, 0, 0, 0⟩
  initTime := 0
  isReplay := false
  nextMessage := ⟨0, 0, []⟩
  msg := (0, [])
  started := false
  thisGame := none
  tableUpdate := []
  movedLomb := []
  newRound := []
  fin := false
  joues := []

/-! ## Recording -/

theorem exec_cons (e : Pas) (es : List Pas) (c : Rejeu) : exec (e :: es) c = exec es (etape c e) := rfl

/-- What comes between START and END_GAME: no other game and no replay. -/
def Pas.enPartie : Pas → Bool
  | .recoit type _ _ _ => type != START && type != END_GAME
  | .beginReplay _ _ => false
  | _ => true

/-- The messages of a game, each with the time since the one before. -/
def dits : Int → List Pas → List Message
  | _, [] => []
  | depuis, .recoit type text _ heure :: es =>
    if type ∈ deJeu then ⟨type, .ofInt (heure - depuis), text⟩ :: dits heure es else dits depuis es
  | depuis, _ :: es => dits depuis es

/-- A message without its time. -/
def sansHeure (m : Message) : MsgType × List UInt8 := (m.type, m.text)

/-- The game is being recorded: so far the file holds `l`. -/
structure Enregistre (nom : String) (l : List UInt8) (c : Rejeu) : Prop where
  saveFile : c.saveFile = .ecriture nom true
  isReplay : c.isReplay = false
  fichier : c.fichiers nom = some l

theorem joue_joues {type : MsgType} (h : type ∈ deJeu) (text : List UInt8) (c : Rejeu) :
    (c.joue type text).joues = c.joues ++ [(type, text)] := by
  simp only [deJeu, List.mem_cons, List.not_mem_nil, or_false] at h
  rcases h with rfl | rfl | rfl | rfl | rfl | rfl <;> rfl

theorem ecrit_ecriture {nom : String} {c : Rejeu} (h : c.saveFile = .ecriture nom true) (octets : List UInt8) :
    c.ecrit octets =
      { c with fichiers := Function.update c.fichiers nom ((c.fichiers nom).map (· ++ octets)) } := by
  rw [ecrit, h]

/-- What is handed to the game loop does not touch the file. -/
theorem joue_fichiers (type : MsgType) (text : List UInt8) (c : Rejeu) :
    (c.joue type text).fichiers = c.fichiers ∧ (c.joue type text).saveFile = c.saveFile ∧
      (c.joue type text).isReplay = c.isReplay ∧ (c.joue type text).initTime = c.initTime ∧
      (c.joue type text).nextMessage = c.nextMessage := by
  unfold joue
  split <;> exact ⟨rfl, rfl, rfl, rfl, rfl⟩

/-- A message of the game, up to the closing of the file. -/
def ajoute (type : MsgType) (text : List UInt8) (heure : Int) (c : Rejeu) : Rejeu :=
  ({ c with msg := (type, text) }.joue type text).addMessageTosaveFile type text heure

theorem recoit_eq {type : MsgType} (h : type ∈ deJeu) (text : List UInt8) (nom : String) (heure : Int)
    (c : Rejeu) : c.recoit type text nom heure =
      if type = END_GAME then { c.ajoute type text heure with saveFile := .ferme } else c.ajoute type text heure := by
  have hne : type ≠ START := by
    rintro rfl
    revert h
    decide
  rw [recoit, if_neg hne, if_pos h]
  rfl

variable {nom : String} {l : List UInt8} {c : Rejeu}

/-- **One message** goes to the end of the file. -/
theorem Enregistre.addMessage (h : Enregistre nom l c) (type : MsgType) (text : List UInt8) (heure : Int) :
    Enregistre nom (l ++ bloc protobuf ⟨type, .ofInt (heure - c.initTime), text⟩)
        (c.addMessageTosaveFile type text heure) ∧
      (c.addMessageTosaveFile type text heure).initTime = heure ∧
      (c.addMessageTosaveFile type text heure).joues = c.joues ∧
      ∀ n ≠ nom, (c.addMessageTosaveFile type text heure).fichiers n = c.fichiers n := by
  obtain ⟨hsave, hreplay, hfile⟩ := h
  rw [addMessageTosaveFile, ecrit_ecriture (c := { c with initTime := heure }) hsave]
  refine ⟨⟨hsave, hreplay, ?_⟩, rfl, rfl, fun n hn => Function.update_of_ne hn ..⟩
  simp only [Function.update_self, hfile, Option.map_some, spentTime]

/-- A message of the game. -/
theorem Enregistre.ajoute (h : Enregistre nom l c) {type : MsgType} (ht : type ∈ deJeu) (text : List UInt8)
    (heure : Int) :
    Enregistre nom (l ++ bloc protobuf ⟨type, .ofInt (heure - c.initTime), text⟩) (c.ajoute type text heure) ∧
      (c.ajoute type text heure).initTime = heure ∧
      (c.ajoute type text heure).joues = c.joues ++ [(type, text)] ∧
      ∀ n ≠ nom, (c.ajoute type text heure).fichiers n = c.fichiers n := by
  obtain ⟨hsave, hreplay, hfile⟩ := h
  obtain ⟨hf, hs, hr, hi, _⟩ := joue_fichiers type text { c with msg := (type, text) }
  have hjoues := joue_joues ht text { c with msg := (type, text) }
  rw [Rejeu.ajoute]
  generalize joue type text { c with msg := (type, text) } = c₁ at hf hs hr hi hjoues ⊢
  have h₁ : Enregistre nom l c₁ := ⟨hs.trans hsave, hr.trans hreplay, (congrFun hf nom).trans hfile⟩
  obtain ⟨hE, hi', hj', hautres⟩ := h₁.addMessage type text heure
  have hinit : c₁.initTime = c.initTime := hi
  rw [hinit] at hE
  exact ⟨hE, hi', hj'.trans hjoues, fun n hn => (hautres n hn).trans (congrFun hf n)⟩

/-- Any other step leaves the recording as it is. -/
theorem Enregistre.autre (h : Enregistre nom l c) {e : Pas} (he : e.enPartie = true)
    (hd : ∀ depuis, dits depuis [e] = []) :
    Enregistre nom l (etape c e) ∧ (etape c e).initTime = c.initTime ∧ (etape c e).joues = c.joues ∧
      (etape c e).fichiers = c.fichiers := by
  obtain ⟨hsave, hreplay, hfile⟩ := h
  cases e with
  | recoit type text nom' heure =>
    have ht : type ∉ deJeu := by
      intro ht
      have := hd 0
      rw [dits, if_pos ht] at this
      cases this
    have hne : type ≠ START := by
      rintro rfl
      cases he
    rw [etape, recoit, if_neg hne, if_neg ht]
    exact ⟨⟨hsave, hreplay, hfile⟩, rfl, rfl, rfl⟩
  | beginReplay => cases he
  | updateReplay heure =>
    rw [etape, updateReplay, hreplay, if_neg (by simp)]
    exact ⟨⟨hsave, hreplay, hfile⟩, rfl, rfl, rfl⟩
  | getTableUpdate =>
    rw [etape]
    split <;> exact ⟨⟨hsave, hreplay, hfile⟩, rfl, rfl, rfl⟩
  | _ => exact ⟨⟨hsave, hreplay, hfile⟩, rfl, rfl, rfl⟩

theorem dits_cons (e : Pas) (h : ∀ depuis, dits depuis [e] = []) (depuis : Int) (es : List Pas) :
    dits depuis (e :: es) = dits depuis es := by
  cases e with
  | recoit type text nom heure =>
    have ht : type ∉ deJeu := by
      intro ht
      have := h 0
      rw [dits, if_pos ht] at this
      cases this
    rw [dits, if_neg ht]
  | _ => rfl

/-- A step is a message of the game, or it is not heard of. -/
theorem dits_cases (e : Pas) :
    (∃ type text nom heure, e = .recoit type text nom heure ∧ type ∈ deJeu) ∨ ∀ depuis, dits depuis [e] = [] := by
  cases e with
  | recoit type text nom heure =>
    by_cases ht : type ∈ deJeu
    · exact Or.inl ⟨type, text, nom, heure, rfl, ht⟩
    · exact Or.inr fun depuis => by rw [dits, if_neg ht]; rfl
  | _ => exact Or.inr fun _ => rfl

/-- The recording `c` ended as `c'`, with the messages `ms` more. -/
structure Enregistree (nom : String) (l : List UInt8) (ms : List Message) (c c' : Rejeu) : Prop where
  fichier : c'.fichiers nom = some (l ++ ms.flatMap (bloc protobuf))
  autres : ∀ n ≠ nom, c'.fichiers n = c.fichiers n
  saveFile : c'.saveFile = .ferme
  isReplay : c'.isReplay = false
  joues : c'.joues = c.joues ++ ms.map sansHeure

/-- From any moment of a game to its END_GAME.  The induction is on the steps that are left. -/
theorem Enregistre.finit {es : List Pas} (hes : ∀ e ∈ es, e.enPartie = true) (fin : List UInt8)
    (nom' : String) (heure : Int) : ∀ {l : List UInt8} {c : Rejeu}, Enregistre nom l c →
    Enregistree nom l (dits c.initTime (es ++ [.recoit END_GAME fin nom' heure])) c
      (exec (es ++ [.recoit END_GAME fin nom' heure]) c) := by
  induction es with
  | nil =>
    intro l c h
    obtain ⟨⟨_, hreplay, hfile⟩, _, hjoues, hautres⟩ := h.ajoute (show END_GAME ∈ deJeu by decide) fin heure
    have hd : dits c.initTime [.recoit END_GAME fin nom' heure] =
        [⟨END_GAME, .ofInt (heure - c.initTime), fin⟩] := rfl
    rw [List.nil_append, hd, exec_cons, etape, recoit_eq (by decide), if_pos rfl]
    refine ⟨?_, hautres, rfl, hreplay, hjoues⟩
    rw [List.flatMap_singleton]
    exact hfile
  | cons e es ih =>
    intro l c h
    have ih := @ih fun e' he' => hes e' (List.mem_cons_of_mem e he')
    have he := hes e List.mem_cons_self
    rw [List.cons_append, exec_cons]
    rcases dits_cases e with ⟨type, text, nom₁, heure₁, rfl, ht⟩ | hd
    · obtain ⟨hE, hi, hjoues, hautres⟩ := h.ajoute ht text heure₁
      have hne : type ≠ END_GAME := by
        rintro rfl
        cases he
      have ih := ih hE
      rw [hi] at ih
      obtain ⟨hf, ha, hs, hr, hj⟩ := ih
      rw [etape, recoit_eq ht, if_neg hne, dits, if_pos ht]
      refine ⟨?_, fun n hn => (ha n hn).trans (hautres n hn), hs, hr, ?_⟩
      · rw [hf, List.flatMap_cons, List.append_assoc]
      · rw [hj, hjoues, List.append_assoc]
        rfl
    · obtain ⟨hE, hi, hjoues, hf⟩ := h.autre he hd
      have ih := ih hE
      rw [hi] at ih
      rw [dits_cons e hd]
      exact ⟨ih.fichier, fun n hn => (ih.autres n hn).trans (congrFun hf n), ih.saveFile, ih.isReplay,
        hjoues ▸ ih.joues⟩

/-- The messages of a game, from START. -/
def partie (text : List UInt8) (heure : Int) (es : List Pas) : List Message := ⟨START, 0, text⟩ :: dits heure es

theorem openOut_ferme (hc : c.saveFile = .ferme) (nom : String) : c.openOut nom =
    { c with saveFile := .ecriture nom true, fichiers := Function.update c.fichiers nom (some []) } := by
  rw [openOut, hc]

/-- A new file. -/
theorem Enregistre.createSaveFile (hc : c.saveFile = .ferme) (hr : c.isReplay = false) (text : List UInt8)
    (nom : String) (heure : Int) :
    Enregistre nom (Replay.createSaveFile protobuf c.currentParams ⟨START, 0, text⟩)
        (c.createSaveFile START text nom heure) ∧
      (c.createSaveFile START text nom heure).initTime = heure ∧
      (c.createSaveFile START text nom heure).joues = c.joues ∧
      ∀ n ≠ nom, (c.createSaveFile START text nom heure).fichiers n = c.fichiers n := by
  rw [Rejeu.createSaveFile, openOut_ferme hc, ecrit_ecriture rfl]
  generalize hc₁ : ({ c with
    saveFile := .ecriture nom true
    fichiers := Function.update (Function.update c.fichiers nom (some [])) nom
      ((Function.update c.fichiers nom (some []) nom).map (· ++ parametres c.currentParams))
    initTime := heure } : Rejeu) = c₁
  have h₁ : Enregistre nom (parametres c.currentParams) c₁ := by
    subst hc₁
    refine ⟨rfl, hr, ?_⟩
    simp only [Function.update_self, Option.map_some, List.nil_append]
  obtain ⟨hE, hi, hj, hautres⟩ := h₁.addMessage START text heure
  have hzero : Int32.ofInt (heure - c₁.initTime) = 0 := by
    subst hc₁
    rw [Int.sub_self]
    rfl
  rw [hzero] at hE
  refine ⟨hE, hi, hj.trans (by subst hc₁; rfl), fun n hn => (hautres n hn).trans ?_⟩
  subst hc₁
  simp only [Function.update_of_ne hn]

/-- Open, and nothing can be written. -/
def Muet (c : Rejeu) : Prop :=
  (∃ nom, c.saveFile = .ecriture nom false) ∨ ∃ reste, c.saveFile = .lecture reste

/-- A step of this kind closes the stream. -/
def Pas.ferme : Pas → Bool
  | .recoit type _ _ _ => type == END_GAME
  | _ => false

/-- The stream stays open and no file changes. -/
def Reste (c c' : Rejeu) : Prop := c'.Muet ∧ c'.fichiers = c.fichiers

theorem Muet.ecrit (h : c.Muet) (octets : List UInt8) : Reste c (c.ecrit octets) := by
  rcases h with ⟨nom, hs⟩ | ⟨reste, hs⟩
  · rw [Rejeu.ecrit, hs]
    exact ⟨Or.inl ⟨nom, hs⟩, rfl⟩
  · rw [Rejeu.ecrit, hs]
    exact ⟨Or.inr ⟨[], rfl⟩, rfl⟩

theorem Muet.lu (h : c.Muet) (l : List UInt8) : Reste c (c.lu l) := by
  rcases h with ⟨nom, hs⟩ | ⟨reste, hs⟩
  · rw [Rejeu.lu, hs]
    exact ⟨Or.inl ⟨nom, rfl⟩, rfl⟩
  · rw [Rejeu.lu, hs]
    exact ⟨Or.inr ⟨l, rfl⟩, rfl⟩

/-- A stream that is open cannot be opened: nothing can be read or written after. -/
theorem openOut_ouvert (h : c.saveFile ≠ .ferme) (nom : String) : Reste c (c.openOut nom) := by
  cases hs : c.saveFile with
  | ferme => exact absurd hs h
  | ecriture nom' good =>
    rw [openOut, hs]
    exact ⟨Or.inl ⟨nom', rfl⟩, rfl⟩
  | lecture reste =>
    rw [openOut, hs]
    exact ⟨Or.inr ⟨[], rfl⟩, rfl⟩

theorem Muet.ne_ferme (h : c.Muet) : c.saveFile ≠ .ferme := by
  rcases h with ⟨nom, hs⟩ | ⟨reste, hs⟩ <;> rw [hs] <;> exact nofun

theorem Reste.trans {c₁ c₂ : Rejeu} (h : Reste c c₁) (h' : Reste c₁ c₂) : Reste c c₂ :=
  ⟨h'.1, h'.2.trans h.2⟩

theorem findNextMsg_nil : Replay.findNextMsg protobuf [] = (⟨0, 0, []⟩, []) := by decide +kernel

/-- **On an open stream no replay begins**, but `isReplay` is set. -/
theorem beginReplay_ouvert (h : c.saveFile ≠ .ferme) (nom : String) (heure : Int) :
    (c.beginReplay nom heure).1 = false ∧ Reste c (c.beginReplay nom heure).2 ∧
      (c.beginReplay nom heure).2.isReplay = true ∧ (c.beginReplay nom heure).2.joues = c.joues := by
  have hstart : (0 : MsgType) ≠ START := by decide
  have hvide : (litParametres []).2 = [] := rfl
  cases hs : c.saveFile with
  | ferme => exact absurd hs h
  | ecriture nom' good =>
    have hb : c.beginReplay nom heure = (false, { c with
        saveFile := .ecriture nom' false
        isReplay := true
        currentParams := (litParametres []).1
        nextMessage := ⟨0, 0, []⟩ }) := by
      simp [beginReplay, openIn, hs, isOpen, lisible, Rejeu.findNextMsg, Rejeu.lu, findNextMsg_nil, hstart]
    rw [hb]
    exact ⟨rfl, ⟨Or.inl ⟨nom', rfl⟩, rfl⟩, rfl, rfl⟩
  | lecture reste =>
    have hb : c.beginReplay nom heure = (false, { c with
        saveFile := .lecture []
        isReplay := true
        currentParams := (litParametres []).1
        nextMessage := ⟨0, 0, []⟩ }) := by
      simp [beginReplay, openIn, hs, isOpen, lisible, Rejeu.findNextMsg, Rejeu.lu, findNextMsg_nil, hstart,
        hvide]
    rw [hb]
    exact ⟨rfl, ⟨Or.inr ⟨[], rfl⟩, rfl⟩, rfl, rfl⟩

theorem Muet.addMessage (h : c.Muet) (type : MsgType) (text : List UInt8) (heure : Int) :
    Reste c (c.addMessageTosaveFile type text heure) := Muet.ecrit (c := { c with initTime := heure }) h _

theorem Muet.joue (h : c.Muet) (type : MsgType) (text : List UInt8) : Reste c (c.joue type text) := by
  obtain ⟨hf, hs, _⟩ := joue_fichiers type text c
  refine ⟨?_, hf⟩
  rw [Muet, hs]
  exact h

theorem Muet.findNextMsg (h : c.Muet) : Reste c c.findNextMsg := h.lu _

/-- A game that starts on an open stream makes no file. -/
theorem createSaveFile_ouvert (h : c.saveFile ≠ .ferme) (type : MsgType) (text : List UInt8) (nom : String)
    (heure : Int) : Reste c (c.createSaveFile type text nom heure) := by
  have hopen := openOut_ouvert h nom
  have hparams := hopen.trans (hopen.1.ecrit (parametres c.currentParams))
  exact hparams.trans (Muet.addMessage (c := { (c.openOut nom).ecrit (parametres c.currentParams) with
    initTime := heure }) hparams.1 type text heure)

/-- A step that does not close the stream. -/
theorem Muet.etape (h : c.Muet) {e : Pas} (he : e.ferme = false) : Reste c (etape c e) := by
  cases e with
  | recoit type text nom heure =>
    have hne : type ≠ END_GAME := by simpa [Pas.ferme] using he
    by_cases ht : type ∈ deJeu
    · rw [Rejeu.etape, recoit_eq ht, if_neg hne, ajoute]
      have hjoue := Muet.joue (c := { c with msg := (type, text) }) h type text
      exact Reste.trans (c := c) hjoue (hjoue.1.addMessage type text heure)
    · rw [Rejeu.etape, recoit, if_neg ht]
      split
      · exact createSaveFile_ouvert (c := { { c with msg := (type, text) } with
          fin := false }.notifyStarted text) h.ne_ferme type text nom heure
      · exact ⟨h, rfl⟩
  | beginReplay nom heure => exact (beginReplay_ouvert h.ne_ferme nom heure).2.1
  | updateReplay heure =>
    rw [Rejeu.etape, updateReplay]
    split
    · have hjoue := h.joue c.nextMessage.type c.nextMessage.text
      simp only
      split
      · exact hjoue.trans hjoue.1.findNextMsg
      · exact hjoue.trans (hjoue.1.addMessage _ _ heure)
    · exact ⟨h, rfl⟩
  | getTableUpdate =>
    rw [Rejeu.etape]
    split <;> exact ⟨h, rfl⟩
  | _ => exact ⟨h, rfl⟩

/-- **Until END_GAME comes from the server**, the stream stays open: no file changes, and no replay begins. -/
theorem muet_exec (h : c.Muet) {es : List Pas} (hes : ∀ e ∈ es, e.ferme = false) :
    Reste c (exec es c) ∧ ∀ nom heure, ((exec es c).beginReplay nom heure).1 = false := by
  suffices hr : Reste c (exec es c) from
    ⟨hr, fun nom heure => (beginReplay_ouvert hr.1.ne_ferme nom heure).1⟩
  induction es generalizing c with
  | nil => exact ⟨h, rfl⟩
  | cons e es ih =>
    have he := h.etape (hes e List.mem_cons_self)
    exact he.trans (ih he.1 fun e' he' => hes e' (List.mem_cons_of_mem e he'))

/-! ## Replaying -/

/-- The queue that a file is. -/
def file (ms : List Message) : List (Int × MsgType × List UInt8) := ms.map fun m => (m.time.toInt, sansHeure m)

/-- A replay is being read: its next message, then the others. -/
structure Lit (m : Message) (ms : List Message) (c : Rejeu) : Prop where
  isReplay : c.isReplay = true
  nextMessage : c.nextMessage = m
  saveFile : c.saveFile = .lecture (ms.flatMap (bloc protobuf))

/-- The lengths fit in a byte, and END_GAME is the last. -/
structure Complete (ms : List Message) : Prop where
  courts : ∀ m ∈ ms, m.text.length < 256
  fin : ∃ ms' m, ms = ms' ++ [m] ∧ m.type = END_GAME ∧ ∀ m ∈ ms', m.type ≠ END_GAME

theorem findNextMsg_lecture {m : Message} {ms : List Message} (hm : m.text.length < 256)
    (hc : c.saveFile = .lecture ((m :: ms).flatMap (bloc protobuf))) :
    c.findNextMsg = { c with saveFile := .lecture (ms.flatMap (bloc protobuf)), nextMessage := m } := by
  have hnext : Replay.findNextMsg protobuf c.lisible = (m, ms.flatMap (bloc protobuf)) := by
    rw [lisible, hc, List.flatMap_cons]
    exact Prod.ext ((findNextMsg_fst_iff protobuf m _).mpr hm) (findNextMsg_snd protobuf hm _)
  rw [Rejeu.findNextMsg, hnext, Rejeu.lu, hc]

/-- What a message adds to what is handed to the game loop: START, read again, nothing. -/
def donne (l : List (Int × MsgType × List UInt8)) : List (MsgType × List UInt8) :=
  (l.map Prod.snd).filter fun x => x.1 ∈ deJeu

theorem joue_donne (m : Message) (c : Rejeu) (heure : Int) :
    (c.joue m.type m.text).joues = c.joues ++ donne [(heure, sansHeure m)] := by
  by_cases h : m.type ∈ deJeu
  · have hf : donne [(heure, sansHeure m)] = [(m.type, m.text)] := List.filter_cons_of_pos (decide_eq_true h)
    rw [joue_joues h, hf]
  · have hj : c.joue m.type m.text = c := by
      simp only [deJeu, List.mem_cons, List.not_mem_nil, or_false, not_or] at h
      unfold joue
      split <;> simp_all
    have hf : donne [(heure, sansHeure m)] = [] := List.filter_cons_of_neg (mt of_decide_eq_true h)
    rw [hj, hf, List.append_nil]

/-- A tick that plays a message, which is not the last. -/
theorem Lit.joue {m m' : Message} {ms : List Message} (h : Lit m (m' :: ms) c) (hm : m.type ≠ END_GAME)
    (hlen : m'.text.length < 256) {heure : Int} (ht : m.time.toInt ≤ (c.spentTime heure).toInt) :
    Lit m' ms (c.updateReplay heure) ∧ (c.updateReplay heure).initTime = heure ∧
      (c.updateReplay heure).joues = c.joues ++ donne [(heure, sansHeure m)] := by
  obtain ⟨hr, rfl, hs⟩ := h
  obtain ⟨_, hs', hr', _, _⟩ := joue_fichiers c.nextMessage.type c.nextMessage.text c
  have hu : c.updateReplay heure = { c.joue c.nextMessage.type c.nextMessage.text with
      saveFile := .lecture (ms.flatMap (bloc protobuf)), nextMessage := m', initTime := heure } := by
    rw [updateReplay, if_pos ⟨hr, ht⟩]
    simp only [if_pos hm, findNextMsg_lecture hlen (hs'.trans hs)]
  rw [hu]
  exact ⟨⟨hr'.trans hr, rfl, rfl⟩, rfl, joue_donne c.nextMessage c heure⟩

/-- The tick that plays END_GAME. -/
theorem Lit.finit {m : Message} {ms : List Message} (h : Lit m ms c) (hm : m.type = END_GAME) {heure : Int}
    (ht : m.time.toInt ≤ (c.spentTime heure).toInt) :
    (c.updateReplay heure).isReplay = false ∧
      (c.updateReplay heure).joues = c.joues ++ donne [(heure, sansHeure m)] := by
  obtain ⟨hr, rfl, hs⟩ := h
  obtain ⟨_, hs', _⟩ := joue_fichiers c.nextMessage.type c.nextMessage.text c
  have hu : c.updateReplay heure = { c.joue c.nextMessage.type c.nextMessage.text with
      saveFile := .lecture [], initTime := heure, isReplay := false } := by
    rw [updateReplay, if_pos ⟨hr, ht⟩]
    simp only [if_neg (not_not_intro hm), addMessageTosaveFile, Rejeu.ecrit, hs'.trans hs]
  rw [hu]
  exact ⟨rfl, joue_donne c.nextMessage c heure⟩

theorem Complete.seul {m : Message} (h : Complete [m]) : m.type = END_GAME := by
  obtain ⟨ms', x, he, hx, _⟩ := h.fin
  obtain ⟨_, hm⟩ := List.append_eq_singleton_iff.mp he.symm |>.resolve_right (by simp)
  rw [← List.singleton_inj.mp hm]
  exact hx

theorem Complete.tail {m m' : Message} {ms : List Message} (h : Complete (m :: m' :: ms)) :
    m.type ≠ END_GAME ∧ Complete (m' :: ms) := by
  obtain ⟨l, x, he, hx, hl⟩ := h.fin
  cases l with
  | nil => cases he
  | cons y l =>
    rw [List.cons_append] at he
    obtain ⟨hm, htail⟩ := List.cons.inj he
    subst hm
    exact ⟨hl m List.mem_cons_self, fun a ha => h.courts a (List.mem_cons_of_mem m ha),
      l, x, htail, hx, fun a ha => hl a (List.mem_cons_of_mem m ha)⟩

/-- A client with the parameters of its room. -/
def clientPret : Rejeu := etape (new fun _ => none) (.regle ⟨1, 120, 30, 8, 2⟩)

/-- A shot, then the next turn. -/
def manche : List Pas :=
  [.recoit SHOOT [8, 1, 16, 9] "" 1500, .recoit UPDATE_WALL [] "" 1501, .updateReplay 1510,
    .recoit LOMB_DMG [] "" 1512, .getTableUpdate, .recoit NEXT_ROUND [8, 3] "" 2500]

/-- From START to END_GAME. -/
def jouee : List Pas := .recoit START [10, 2, 8, 7] "a" 1000 :: (manche ++ [.recoit END_GAME [] "" 3000])

/-- Ten ticks, a second apart. -/
def ticks : List Pas := (List.range' 1 10).map fun i => .updateReplay (4000 + 1000 * i)

/-- A replay that finds its file, or a game, that comes while the stream is open; a replay on a closed one. -/
def Occupe (c : Rejeu) : Pas → Prop
  | .recoit type _ _ _ => type = START ∧ c.saveFile ≠ .ferme
  | .beginReplay nom _ => c.saveFile ≠ .ferme ∨ (c.fichiers nom).isSome = true
  | _ => False

theorem beginReplay_lecture (hc : c.saveFile = .ferme) {l : List UInt8} (hfile : c.fichiers nom = some l)
    (heure : Int) : Reste c (c.beginReplay nom heure).2 := by
  have hopen : c.openIn nom = { c with saveFile := .lecture l } := by
    rw [openIn, hc, hfile]
    rfl
  have h₀ : Muet { c with saveFile := .lecture l } := Or.inr ⟨l, rfl⟩
  have h₁ := h₀.lu (litParametres l).2
  have h₂ := Muet.findNextMsg (c := { Rejeu.lu (litParametres l).2 { c with saveFile := .lecture l } with
    isReplay := true, currentParams := (litParametres l).1 }) h₁.1
  have hlu : Reste c { Rejeu.lu (litParametres l).2 { c with saveFile := .lecture l } with
      isReplay := true, currentParams := (litParametres l).1 }.findNextMsg := ⟨h₂.1, h₂.2.trans h₁.2⟩
  have hisOpen : isOpen { c with saveFile := .lecture l } = true := rfl
  rw [beginReplay, hopen]
  simp only [hisOpen, if_true]
  split
  · exact hlu
  · exact hlu

/-- **From then on**, whatever the player and the server do, no file changes and no replay begins, until the server
ends a game. -/
theorem occupe_exec {e : Pas} (he : c.Occupe e) {es : List Pas} (hes : ∀ e ∈ es, e.ferme = false) :
    (exec (e :: es) c).fichiers = c.fichiers ∧
      ∀ nom heure, ((exec (e :: es) c).beginReplay nom heure).1 = false := by
  have hreste : Reste c (etape c e) := by
    cases e with
    | recoit type text nom heure =>
      obtain ⟨rfl, hopen⟩ := he
      rw [Rejeu.etape, recoit, if_pos rfl]
      exact createSaveFile_ouvert (c := { { c with msg := (START, text) } with fin := false }.notifyStarted text)
        hopen START text nom heure
    | beginReplay nom heure =>
      by_cases hc : c.saveFile = .ferme
      · obtain ⟨l, hl⟩ := Option.isSome_iff_exists.mp (he.resolve_left (not_not_intro hc))
        exact beginReplay_lecture hc hl heure
      · exact (beginReplay_ouvert hc nom heure).2.1
    | _ => cases he
  obtain ⟨hr, hb⟩ := muet_exec hreste.1 hes
  exact ⟨hr.2.trans hreste.2, hb⟩

/-- After that replay, the next one. -/
theorem seconde_refusee : ((exec (.beginReplay "a" 4000 :: ticks) (exec jouee clientPret)).beginReplay "a" 20000).1 =
    false :=
  (occupe_exec (c := exec jouee clientPret) (e := .beginReplay "a" 4000) (Or.inr (by decide +kernel))
    (show ∀ e ∈ ticks, e.ferme = false by decide)).2 "a" 20000

end Rejeu
end LombricABrac
