import LombricABrac.CommMacros
import LombricABrac.Lib.Wire

/-!
# Replay files

`Client/src/client_replay.cpp`.  The file has five parameters of one byte, then for each message its
`Replay_message` and its payload, each after one byte for its length.  A file is the list of its
bytes; it is read through `get`, which gives -1 at its end.

    findNextMsg_bloc : one message is read back with its payload cut to the length that was written
    relit_iff        : a replay is read back when every parameter and every length fits in a byte
-/

namespace LombricABrac

/-- `Replay_message`, as protobuf writes and reads it: it reads back what it wrote, which is short. -/
structure Protobuf where
  serialize : UInt32 → UInt32 → List UInt8
  parse : List UInt8 → UInt32 × UInt32
  parse_serialize : ∀ msgType time, parse (serialize msgType time) = (msgType, time)
  length_serialize : ∀ msgType time, (serialize msgType time).length < 256

namespace Replay

open MsgType

/-! ## Data -/

/-- The parameters that the file keeps. -/
structure ParamsPartie where
  map : UInt32
  time : UInt32
  timeRound : UInt32
  nbrLombs : UInt32
  nbrEquipes : UInt32
  deriving DecidableEq

/-- A message and the time to wait for it. -/
structure Message where
  type : MsgType
  time : Int32
  text : List UInt8
  deriving DecidableEq

variable (proto : Protobuf)

/-! ## Writing -/

/-- `saveFile.put(static_cast<int>(n))`. -/
def put (n : Nat) : UInt8 := UInt8.ofNat n

/-- What `addMessageTosaveFile` writes. -/
def bloc (m : Message) : List UInt8 :=
  let infoMessage := proto.serialize m.type.toUInt32 m.time.toUInt32
  put infoMessage.length :: infoMessage ++ put m.text.length :: m.text

def addMessageTosaveFile (m : Message) (saveFile : List UInt8) : List UInt8 :=
  saveFile ++ bloc proto m

def createSaveFile (p : ParamsPartie) (m : Message) : List UInt8 :=
  addMessageTosaveFile proto m [put p.map.toNat, put p.time.toNat, put p.timeRound.toNat,
    put p.nbrLombs.toNat, put p.nbrEquipes.toNat]

/-- The file of a game. -/
def ecrit (p : ParamsPartie) (m : Message) (ms : List Message) : List UInt8 :=
  ms.foldl (fun saveFile m => addMessageTosaveFile proto m saveFile) (createSaveFile proto p m)

/-! ## Reading -/

def get : List UInt8 → Int × List UInt8
  | [] => (-1, [])
  | b :: saveFile => (b.toNat, saveFile)

/-- `n` characters. -/
def lit : Nat → List UInt8 → List UInt8 × List UInt8
  | 0, saveFile => ([], saveFile)
  | n + 1, saveFile =>
    let (c, saveFile) := get saveFile
    let (text, saveFile) := lit n saveFile
    (UInt8.ofInt c :: text, saveFile)

def findNextMsg (saveFile : List UInt8) : Message × List UInt8 :=
  let (size, saveFile) := get saveFile
  let (infoMessage, saveFile) := lit size.toNat saveFile
  let (msgType, time) := proto.parse infoMessage
  let (size, saveFile) := get saveFile
  let (text, saveFile) := lit size.toNat saveFile
  (⟨msgType.toUInt8, time.toInt32, text⟩, saveFile)

/-- `none` when it returns false. -/
def beginReplay (saveFile : List UInt8) : Option (ParamsPartie × Message × List UInt8) :=
  let (map, saveFile) := get saveFile
  let (time, saveFile) := get saveFile
  let (timeRound, saveFile) := get saveFile
  let (nbrLombs, saveFile) := get saveFile
  let (nbrEquipes, saveFile) := get saveFile
  let (nextMessage, saveFile) := findNextMsg proto saveFile
  if nextMessage.type = START then
    some (⟨.ofInt map, .ofInt time, .ofInt timeRound, .ofInt nbrLombs, .ofInt nbrEquipes⟩,
      nextMessage, saveFile)
  else none

/-- `n` calls of `findNextMsg`. -/
def suivants : Nat → List UInt8 → List Message
  | 0, _ => []
  | n + 1, saveFile =>
    let (m, saveFile) := findNextMsg proto saveFile
    m :: suivants n saveFile

/-- `beginReplay`, then `n` calls of `findNextMsg`. -/
def relit (n : Nat) (saveFile : List UInt8) : Option (ParamsPartie × List Message) :=
  (beginReplay proto saveFile).map fun (p, m, saveFile) => (p, m :: suivants proto n saveFile)

/-! ## One message -/

theorem get_put (n : Nat) (saveFile : List UInt8) :
    get (put n :: saveFile) = (((n % 256 : Nat) : Int), saveFile) := by
  rw [put, get, UInt8.toNat_ofNat']

theorem ofInt_toNat (b : UInt8) : UInt8.ofInt (b.toNat : Int) = b := by
  have hb := b.toNat_lt
  rw [UInt8.ofInt, Int.emod_eq_of_lt (by omega) (by omega), Int.toNat_natCast, UInt8.ofNat_toNat]

theorem lit_append (text saveFile : List UInt8) :
    lit text.length (text ++ saveFile) = (text, saveFile) := by
  induction text with
  | nil => rfl
  | cons b text ih =>
    simp only [List.length_cons, List.cons_append, lit, get, ih, ofInt_toNat]

/-- As many characters as the byte of the length says. -/
theorem lit_mod (text saveFile : List UInt8) :
    lit (text.length % 256) (text ++ saveFile) =
      (text.take (text.length % 256), text.drop (text.length % 256) ++ saveFile) := by
  have hlen : (text.take (text.length % 256)).length = text.length % 256 := by
    rw [List.length_take]
    exact Nat.min_eq_left (Nat.mod_le _ _)
  have h := lit_append (text.take (text.length % 256)) (text.drop (text.length % 256) ++ saveFile)
  rwa [hlen, ← List.append_assoc, List.take_append_drop] at h

theorem findNextMsg_bloc (m : Message) (saveFile : List UInt8) :
    findNextMsg proto (bloc proto m ++ saveFile) =
      ({ m with text := m.text.take (m.text.length % 256) },
        m.text.drop (m.text.length % 256) ++ saveFile) := by
  have hinfo := lit_append (proto.serialize m.type.toUInt32 m.time.toUInt32)
    (put m.text.length :: (m.text ++ saveFile))
  have hlen := Nat.mod_eq_of_lt (proto.length_serialize m.type.toUInt32 m.time.toUInt32)
  simp only [findNextMsg, bloc, List.cons_append, List.append_assoc, get_put, hlen,
    Int.toNat_natCast, hinfo, proto.parse_serialize, lit_mod, UInt8.toUInt8_toUInt32,
    Int32.toInt32_toUInt32]

theorem findNextMsg_fst_iff (m : Message) (saveFile : List UInt8) :
    (findNextMsg proto (bloc proto m ++ saveFile)).1 = m ↔ m.text.length < 256 := by
  rw [findNextMsg_bloc]
  constructor
  · intro h
    have htext : m.text.take (m.text.length % 256) = m.text := congrArg Message.text h
    have hlen := congrArg List.length htext
    rw [List.length_take, Nat.min_eq_left (Nat.mod_le _ _)] at hlen
    rw [← hlen]
    exact Nat.mod_lt _ (by omega)
  · intro h
    simp only [Nat.mod_eq_of_lt h, List.take_length]

/-- The next message starts where it was written. -/
theorem findNextMsg_snd {m : Message} (h : m.text.length < 256) (saveFile : List UInt8) :
    (findNextMsg proto (bloc proto m ++ saveFile)).2 = saveFile := by
  rw [findNextMsg_bloc]
  simp only [Nat.mod_eq_of_lt h, List.drop_length, List.nil_append]

/-! ## A whole file -/

theorem suivants_succ (n : Nat) (saveFile : List UInt8) :
    suivants proto (n + 1) saveFile =
      (findNextMsg proto saveFile).1 :: suivants proto n (findNextMsg proto saveFile).2 := rfl

theorem suivants_iff (ms : List Message) :
    suivants proto ms.length (ms.flatMap (bloc proto)) = ms ↔ ∀ m ∈ ms, m.text.length < 256 := by
  induction ms with
  | nil => simp [suivants]
  | cons m ms ih =>
    rw [List.length_cons, List.flatMap_cons, suivants_succ, List.cons.injEq, List.forall_mem_cons,
      findNextMsg_fst_iff, ← ih]
    -- A cut payload moves all that follows, but is itself enough.
    refine and_congr_right fun hlen => ?_
    rw [findNextMsg_snd proto hlen]

/-- A parameter is read back when it fits in a byte. -/
theorem ofInt_put_iff (p : UInt32) : UInt32.ofInt ((p.toNat % 256 : Nat) : Int) = p ↔ p.toNat < 256 := by
  have hval : (UInt32.ofInt ((p.toNat % 256 : Nat) : Int)).toNat = p.toNat % 256 := by
    rw [UInt32.ofInt, Int.emod_eq_of_lt (by omega) (by omega), Int.toNat_natCast, UInt32.toNat_ofNat']
    omega
  rw [← UInt32.toNat_inj, hval]
  omega

def ParamsPartie.EnOctets (p : ParamsPartie) : Prop :=
  p.map.toNat < 256 ∧ p.time.toNat < 256 ∧ p.timeRound.toNat < 256 ∧ p.nbrLombs.toNat < 256 ∧
    p.nbrEquipes.toNat < 256

instance (p : ParamsPartie) : Decidable p.EnOctets :=
  inferInstanceAs (Decidable (_ ∧ _ ∧ _ ∧ _ ∧ _))

theorem ecrit_eq (p : ParamsPartie) (m : Message) (ms : List Message) :
    ecrit proto p m ms = [put p.map.toNat, put p.time.toNat, put p.timeRound.toNat,
      put p.nbrLombs.toNat, put p.nbrEquipes.toNat] ++ (m :: ms).flatMap (bloc proto) := by
  have hfold : ∀ saveFile : List UInt8,
      ms.foldl (fun saveFile m => addMessageTosaveFile proto m saveFile) saveFile =
        saveFile ++ ms.flatMap (bloc proto) := by
    induction ms with
    | nil => intro saveFile; exact (List.append_nil _).symm
    | cons m ms ih =>
      intro saveFile
      rw [List.foldl_cons, ih, addMessageTosaveFile, List.append_assoc, List.flatMap_cons]
  rw [ecrit, hfold, createSaveFile, addMessageTosaveFile, List.append_assoc, List.flatMap_cons]

/-- What the bytes of the parameters say. -/
def ParamsPartie.lu (p : ParamsPartie) : ParamsPartie :=
  ⟨.ofInt (p.map.toNat % 256 : Nat), .ofInt (p.time.toNat % 256 : Nat),
    .ofInt (p.timeRound.toNat % 256 : Nat), .ofInt (p.nbrLombs.toNat % 256 : Nat),
    .ofInt (p.nbrEquipes.toNat % 256 : Nat)⟩

theorem ParamsPartie.lu_iff (p : ParamsPartie) : p.lu = p ↔ p.EnOctets := by
  cases p
  simp only [lu, EnOctets, ParamsPartie.mk.injEq, ofInt_put_iff]

/-- The type of the first message is read back in any case. -/
theorem relit_ecrit (p : ParamsPartie) (m : Message) (ms : List Message) (hm : m.type = START) :
    relit proto ms.length (ecrit proto p m ms) =
      some (p.lu, suivants proto (m :: ms).length ((m :: ms).flatMap (bloc proto))) := by
  have htype : (findNextMsg proto ((m :: ms).flatMap (bloc proto))).1.type = START := by
    rw [List.flatMap_cons, findNextMsg_bloc]
    exact hm
  have hbegin : beginReplay proto (ecrit proto p m ms) =
      some (p.lu, findNextMsg proto ((m :: ms).flatMap (bloc proto))) := by
    rw [ecrit_eq]
    simp only [beginReplay, List.cons_append, List.nil_append, get_put, htype, if_true]
    rfl
  rw [relit, hbegin]
  rfl

/-- **A replay is read back exactly when each parameter and each payload length fits in a byte.** -/
theorem relit_iff (p : ParamsPartie) (m : Message) (ms : List Message) (hm : m.type = START) :
    relit proto ms.length (ecrit proto p m ms) = some (p, m :: ms) ↔
      p.EnOctets ∧ ∀ x ∈ m :: ms, x.text.length < 256 := by
  rw [relit_ecrit proto p m ms hm, Option.some.injEq, Prod.mk.injEq, p.lu_iff, suivants_iff]

/-! ## Two files -/

/-- The two `uint32` fields of `Replay_message` on the wire. -/
def protobuf : Protobuf where
  serialize msgType time := Wire.write [(1, .varint msgType.toNat), (2, .varint time.toNat)]
  parse bytes :=
    (.ofNat (Wire.value 1 ((Wire.parse bytes).getD [])),
      .ofNat (Wire.value 2 ((Wire.parse bytes).getD [])))
  parse_serialize := by
    intro msgType time
    rw [Wire.value_parse (n := msgType.toNat) (by simp) (by simp),
      Wire.value_parse (n := time.toNat) (by simp) (by simp), UInt32.ofNat_toNat,
      UInt32.ofNat_toNat]
  length_serialize := by
    intro msgType time
    refine Nat.lt_of_le_of_lt (Wire.length_write_le (k := 5) (by omega) fun f hf => ?_)
      (show (5 + 1) * 2 < 256 by omega)
    have hm := msgType.toNat_lt
    have ht := time.toNat_lt
    rcases List.mem_pair.mp hf with rfl | rfl
    · exact ⟨by simp, msgType.toNat, by omega, rfl⟩
    · exact ⟨by simp, time.toNat, by omega, rfl⟩

/-- START, then a shot half a second later. -/
def messagesCourts : Message × List Message :=
  (⟨START, 12, [10, 2, 8, 7]⟩, [⟨SHOOT, 500, [8, 1, 16, 30]⟩])

/-- The time of a game of five minutes comes back as 44 seconds, a payload of 256 bytes as none. -/
theorem cinqMinutes_perdues :
    relit protobuf 1 (ecrit protobuf ⟨1, 300, 30, 8, 2⟩ messagesCourts.1 messagesCourts.2) =
        some (⟨1, 44, 30, 8, 2⟩, messagesCourts.1 :: messagesCourts.2) ∧
      relit protobuf 0 (ecrit protobuf ⟨1, 120, 30, 8, 2⟩ ⟨START, 12, List.replicate 256 65⟩ []) =
        some (⟨1, 120, 30, 8, 2⟩, [⟨START, 12, []⟩]) ∧
      ¬ ∀ p m ms, m.type = START →
        relit protobuf ms.length (ecrit protobuf p m ms) = some (p, m :: ms) := by
  refine ⟨by decide +kernel, by decide +kernel, fun h => ?_⟩
  have h300 := h ⟨1, 300, 30, 8, 2⟩ messagesCourts.1 messagesCourts.2 rfl
  revert h300
  decide +kernel

theorem deuxMinutes_relues :
    relit protobuf 1 (ecrit protobuf ⟨1, 120, 30, 8, 2⟩ messagesCourts.1 messagesCourts.2) =
      some (⟨1, 120, 30, 8, 2⟩, messagesCourts.1 :: messagesCourts.2) :=
  (relit_iff protobuf ⟨1, 120, 30, 8, 2⟩ messagesCourts.1 messagesCourts.2 rfl).mpr
    ⟨by decide, by decide⟩

end Replay
end LombricABrac
