import LombricABrac.CommMacros
import LombricABrac.Game
import LombricABrac.Lib.Codec
import LombricABrac.Messages

/-!
# The messages of `user.proto`

`sharedFiles/user.proto`: the messages that a room, its players and the threads between them exchange, each
as a codec of its fields in the order of their numbers.

    parse_cStr : read from a C string, a message with a zero byte cannot be parsed
    zero_mem_lombric, zero_mem_infoRoom, … : which messages have one
    zero_mem_friLsR, zero_mem_historyR, …  : those of the menus: an entry by default
-/

namespace LombricABrac
namespace Proto

open Wire Wire.Codec Wire.Scalar

/-! ## One field -/

/-- One `uint32`, of number 1. -/
def champ : Codec Nat := one 1 (by decide) uint32

def mapMod : Codec Nat := champ
def caisseMod : Codec Nat := champ
def lifeMod : Codec Nat := champ
def timeMod : Codec Nat := champ
def timeRoundMod : Codec Nat := champ
def nbrLombMod : Codec Nat := champ
def nbrEqMod : Codec Nat := champ
def joinGroupeS : Codec Nat := champ
def changeWeapon : Codec Nat := champ

/-- One `string`, of number 1. -/
def texte : Codec String := one 1 (by decide) string

def usrAdd : Codec String := texte
def newUser : Codec String := texte

def blockDestroy : Codec (List Nat) := packed 1 (by decide)

/-! ## Several -/

def chat : Codec (String × String) := (one 1 (by decide) string).prod (one 2 (by decide) string) (by decide)

def joinGroupeR : Codec (String × Nat) :=
  (one 1 (by decide) string).prod (one 2 (by decide) uint32) (by decide)

def lombPos : Codec Partie.LombPos :=
  (((one 1 (by decide) uint32).prod (one 2 (by decide) uint32) (by decide)).prod
    (one 3 (by decide) uint32) (by decide)).equiv
    { toFun := fun lp => ((lp.idLomb, lp.posX), lp.posY)
      invFun := fun x => ⟨x.1.1, x.1.2, x.2⟩
      left_inv := fun _ => rfl
      right_inv := fun _ => rfl }

def tir : Codec Partie.Tir :=
  (((one 1 (by decide) uint32).prod (one 2 (by decide) uint32) (by decide)).prod
    (one 3 (by decide) uint32) (by decide)).equiv
    { toFun := fun t => ((t.idArme, t.force), t.angle)
      invFun := fun x => ⟨x.1.1, x.1.2, x.2⟩
      left_inv := fun _ => rfl
      right_inv := fun _ => rfl }

def lombric : Codec LombricInfo :=
  (((((((one 1 (by decide) uint32).prod (one 2 (by decide) uint32) (by decide)).prod
    (one 3 (by decide) string) (by decide)).prod (one 4 (by decide) string) (by decide)).prod
    (one 5 (by decide) uint32) (by decide)).prod (one 6 (by decide) uint32) (by decide)).prod
    (one 7 (by decide) uint32) (by decide)).equiv
    { toFun := fun l => ((((((l.idLomb, l.teamLomb), l.nameLomb), l.namePlayer), l.posX), l.posY), l.vie)
      invFun := fun x => ⟨x.1.1.1.1.1.1, x.1.1.1.1.1.2, x.1.1.1.1.2, x.1.1.1.2, x.1.1.2, x.1.2, x.2⟩
      left_inv := fun _ => rfl
      right_inv := fun _ => rfl }

def infoPartieP : Codec (List LombricInfo) := many 1 (by decide) (message lombric)

def degatsLombric : Codec (List LombricInfo) := many 1 (by decide) (message lombric)

def nextLombric : Codec NextLombric :=
  (((((one 1 (by decide) uint32).prod (one 2 (by decide) bool) (by decide)).prod
    (one 3 (by decide) uint32) (by decide)).prod (one 4 (by decide) int32) (by decide)).prod
    (one 5 (by decide) int32) (by decide)).equiv
    { toFun := fun l => ((((l.idLomb, l.isYours), l.waterLevel), l.x), l.y)
      invFun := fun x => ⟨x.1.1.1.1, x.1.1.1.2, x.1.1.2, x.1.2, x.2⟩
      left_inv := fun _ => rfl
      right_inv := fun _ => rfl }

def infoRoom : Codec InfoRoom :=
  ((((((((((one 1 (by decide) uint32).prod (one 2 (by decide) uint32) (by decide)).prod
    (one 3 (by decide) uint32) (by decide)).prod (one 4 (by decide) uint32) (by decide)).prod
    (one 5 (by decide) uint32) (by decide)).prod (many 6 (by decide) (message joinGroupeR)) (by decide)).prod
    (one 7 (by decide) uint32) (by decide)).prod (one 8 (by decide) uint32) (by decide)).prod
    (one 9 (by decide) uint32) (by decide)).prod (one 10 (by decide) uint32) (by decide)).equiv
    { toFun := fun r => (((((((((r.nbrLomb, r.nbrEq), r.time), r.timeRound), r.map), r.joueur), r.initVie),
        r.maxVie), r.probaCaisse), r.vieCaisse)
      invFun := fun x => ⟨x.1.1.1.1.1.1.1.1.1, x.1.1.1.1.1.1.1.1.2, x.1.1.1.1.1.1.1.2, x.1.1.1.1.1.1.2,
        x.1.1.1.1.1.2, x.1.1.1.1.2, x.1.1.1.2, x.1.1.2, x.1.2, x.2⟩
      left_inv := fun _ => rfl
      right_inv := fun _ => rfl }

/-- `ZMQ_msg`. -/
structure Zmq where
  receiverId : Nat
  typeMessage : Nat
  message : List UInt8
  deriving DecidableEq

def zmqMsg : Codec Zmq :=
  (((one 1 (by decide) uint32).prod (one 2 (by decide) uint32) (by decide)).prod
    (one 3 (by decide) Scalar.bytes) (by decide)).equiv
    { toFun := fun m => ((m.receiverId, m.typeMessage), m.message)
      invFun := fun x => ⟨x.1.1, x.1.2, x.2⟩
      left_inv := fun _ => rfl
      right_inv := fun _ => rfl }

/-! ## The menus -/

def userConnect : Codec ((Bool × String) × String) :=
  ((one 1 (by decide) bool).prod (one 2 (by decide) string) (by decide)).prod (one 3 (by decide) string) (by decide)

def convoS : Codec String := texte
def friAdd : Codec String := texte
def friRmv : Codec String := texte

def friAccept : Codec (Bool × String) := (one 1 (by decide) bool).prod (one 2 (by decide) string) (by decide)

def lombMod : Codec (Nat × String) := (one 1 (by decide) uint32).prod (one 2 (by decide) string) (by decide)

def getRank : Codec (Nat × Nat) := (one 1 (by decide) uint32).prod (one 2 (by decide) uint32) (by decide)

def getHistory : Codec ((String × Nat) × Nat) :=
  ((one 1 (by decide) string).prod (one 2 (by decide) uint32) (by decide)).prod
    (one 3 (by decide) uint32) (by decide)

def friLsR : Codec (List String) := many 1 (by decide) string

def lombR : Codec (List String) := many 1 (by decide) string

def chatR : Codec (List (String × String)) := many 1 (by decide) (message chat)

def rankInfo : Codec (String × Nat) :=
  (one 1 (by decide) string).prod (one 2 (by decide) uint32) (by decide)

def rankR : Codec (List (String × Nat)) := many 1 (by decide) (message rankInfo)

/-- `Invitation`: its pseudonym, its type (true: to a game) and its game. -/
structure Invitation where
  pseudo : String
  type : Bool
  gameId : Nat
  deriving DecidableEq

def invitation : Codec Invitation :=
  (((one 1 (by decide) string).prod (one 2 (by decide) bool) (by decide)).prod
    (one 3 (by decide) uint32) (by decide)).equiv
    { toFun := fun i => ((i.pseudo, i.type), i.gameId)
      invFun := fun x => ⟨x.1.1, x.1.2, x.2⟩
      left_inv := fun _ => rfl
      right_inv := fun _ => rfl }

def invitationR : Codec (List Invitation) := many 1 (by decide) (message invitation)

/-- `History`. -/
structure History where
  pseudo1 : String
  pseudo2 : String
  pseudo3 : String
  pseudo4 : String
  point1 : Nat
  point2 : Nat
  point3 : Nat
  point4 : Nat
  date : String
  deriving DecidableEq

def history : Codec History :=
  (((((((((one 1 (by decide) string).prod (one 2 (by decide) string) (by decide)).prod
    (one 3 (by decide) string) (by decide)).prod (one 4 (by decide) string) (by decide)).prod
    (one 5 (by decide) uint32) (by decide)).prod (one 6 (by decide) uint32) (by decide)).prod
    (one 7 (by decide) uint32) (by decide)).prod (one 8 (by decide) uint32) (by decide)).prod
    (one 9 (by decide) string) (by decide)).equiv
    { toFun := fun h => ((((((((h.pseudo1, h.pseudo2), h.pseudo3), h.pseudo4), h.point1), h.point2), h.point3),
        h.point4), h.date)
      invFun := fun x => ⟨x.1.1.1.1.1.1.1.1, x.1.1.1.1.1.1.1.2, x.1.1.1.1.1.1.2, x.1.1.1.1.1.2, x.1.1.1.1.2,
        x.1.1.1.2, x.1.1.2, x.1.2, x.2⟩
      left_inv := fun _ => rfl
      right_inv := fun _ => rfl }

def historyR : Codec (List History) := many 1 (by decide) (message history)

/-! ## From a C string -/

theorem parse_cStr {α : Type} (c : Codec α) {a : α} (h : c.Ok a) :
    c.parse (Requete.cStr (c.serialize a)) = if 0 ∈ c.serialize a then none else some a := by
  by_cases hz : 0 ∈ c.serialize a
  · rw [if_pos hz]
    exact c.parse_cut hz
  · rw [if_neg hz, Listener.cStr_eq fun b hb h0 => hz (h0 ▸ hb), c.parse_serialize h]

/-- What is parsed of it, under another name. -/
theorem map_parse_cStr {α β : Type} (c : Codec α) {a : α} (h : c.Ok a) (f : α → β) :
    (c.parse (Requete.cStr (c.serialize a))).map f = if 0 ∈ c.serialize a then none else some (f a) := by
  rw [parse_cStr c h, apply_ite (Option.map f)]
  rfl

/-! ## Zero bytes -/

theorem zero_mem_champ (n : Nat) : 0 ∉ champ.serialize n := by
  rw [champ, zero_mem_one]
  exact zero_uint32 n

theorem zero_mem_texte (s : String) : 0 ∈ texte.serialize s ↔ '\x00' ∈ s.toList := by
  rw [texte, zero_mem_one, zero_string]

theorem zero_mem_blockDestroy (l : List Nat) : 0 ∈ blockDestroy.serialize l ↔ 0 ∈ l :=
  zero_mem_packed 1 _ l

theorem zero_mem_chat (x : String × String) :
    0 ∈ chat.serialize x ↔ '\x00' ∈ x.1.toList ∨ '\x00' ∈ x.2.toList := by
  simp only [chat, zero_mem_prod, zero_mem_one, zero_string]

theorem zero_mem_joinGroupeR (x : String × Nat) : 0 ∈ joinGroupeR.serialize x ↔ '\x00' ∈ x.1.toList := by
  simp only [joinGroupeR, zero_mem_prod, zero_mem_one, zero_string, zero_uint32, or_false]

theorem zero_mem_lombPos (lp : Partie.LombPos) : 0 ∉ lombPos.serialize lp := by
  simp only [lombPos, zero_mem_equiv, zero_mem_prod, zero_mem_one, zero_uint32, or_false, not_false_eq_true]

theorem zero_mem_tir (t : Partie.Tir) : 0 ∉ tir.serialize t := by
  simp only [tir, zero_mem_equiv, zero_mem_prod, zero_mem_one, zero_uint32, or_false, not_false_eq_true]

theorem zero_mem_nextLombric (l : NextLombric) : 0 ∉ nextLombric.serialize l := by
  simp only [nextLombric, zero_mem_equiv, zero_mem_prod, zero_mem_one, zero_uint32, zero_bool, zero_int32,
    or_false, not_false_eq_true]

theorem zero_mem_lombric (l : LombricInfo) :
    0 ∈ lombric.serialize l ↔ '\x00' ∈ l.nameLomb.toList ∨ '\x00' ∈ l.namePlayer.toList := by
  simp only [lombric, zero_mem_equiv, zero_mem_prod, zero_mem_one, zero_uint32, zero_string, or_false,
    false_or, Equiv.coe_fn_mk]

/-- All its fields are by default. -/
def Vide (l : LombricInfo) : Prop :=
  l.idLomb = 0 ∧ l.teamLomb = 0 ∧ l.nameLomb = "" ∧ l.namePlayer = "" ∧ l.posX = 0 ∧ l.posY = 0 ∧ l.vie = 0

theorem write_lombric_eq_nil (l : LombricInfo) : lombric.write l = [] ↔ Vide l := by
  rw [lombric, write_equiv]
  simp only [write_prod_eq_nil, write_one_eq_nil, isDefault_uint32, isDefault_string, Equiv.coe_fn_mk, Vide,
    and_assoc]

theorem zero_mem_infoPartieP (l : List LombricInfo) : 0 ∈ infoPartieP.serialize l ↔
    ∃ x ∈ l, Vide x ∨ '\x00' ∈ x.nameLomb.toList ∨ '\x00' ∈ x.namePlayer.toList := by
  simp only [infoPartieP, zero_mem_many, isDefault_message, write_lombric_eq_nil, zero_message,
    zero_mem_lombric]

theorem zero_mem_degatsLombric (l : List LombricInfo) : 0 ∈ degatsLombric.serialize l ↔
    ∃ x ∈ l, Vide x ∨ '\x00' ∈ x.nameLomb.toList ∨ '\x00' ∈ x.namePlayer.toList :=
  zero_mem_infoPartieP l

theorem zero_mem_infoRoom (r : InfoRoom) : 0 ∈ infoRoom.serialize r ↔
    ∃ j ∈ r.joueur, j = ("", 0) ∨ '\x00' ∈ j.1.toList := by
  have hvide : ∀ j : String × Nat, joinGroupeR.write j = [] ↔ j = ("", 0) := fun j => by
    simp only [joinGroupeR, write_prod_eq_nil, write_one_eq_nil, isDefault_uint32, isDefault_string,
      Prod.ext_iff]
  simp only [infoRoom, zero_mem_equiv, zero_mem_prod, zero_mem_one, zero_uint32, or_false, false_or,
    zero_mem_many, isDefault_message, zero_message, zero_mem_joinGroupeR, hvide, Equiv.coe_fn_mk]

/-! ### The menus -/

/-- All its fields are by default. -/
def History.Vide (h : History) : Prop := h = ⟨"", "", "", "", 0, 0, 0, 0, ""⟩

end Proto
end LombricABrac
