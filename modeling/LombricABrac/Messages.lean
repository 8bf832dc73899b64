import LombricABrac.Listener

/-!
# The messages of the server

What `Listener::envoie_msg` puts on the wire, and `Client::readMessage` of `Client/src/client.cpp`, which
reads it.  One measures the payload with `strlen`; the other makes a string of a `char*`.  Each `send`
and `recv` is taken to transfer all its bytes.

    fil_eq             : a frame has the payload up to its first zero byte
    relus_iff          : messages are read back if and only if no payload has a zero byte
    coordonnee_zero    : a wall destroyed at 0
-/

namespace LombricABrac
namespace Message

open Requete (cStr htonl)

/-! ## The server -/

/-- Calls that transfer all. -/
def tout (_ : Nat) : Nat := 2 ^ 32

/-- The byte on the wire; the length is that of `strlen`. -/
def octet (type : MsgType) (msg : List UInt8) : Listener.Octet → UInt8
  | .typeMsg => type
  | .longueur i => ((htonl ((cStr msg).length % 2 ^ 32))[i]?).getD 0
  | .corps i => (msg[i]?).getD 0

/-- A call of `envoie_msg`: the loop is left at its second pass. -/
def fil (type : MsgType) (msg : List UInt8) : List UInt8 :=
  match Listener.envoieMsg tout 2 msg with
  | some (_, l) => l.map (octet type msg)
  | none => []

theorem entiere_tout {i n : Nat} (h0 : 0 < n) (h : n ≤ 2 ^ 32) : Listener.Entiere tout i n := by
  unfold Listener.Entiere morceau tout
  omega

theorem corpsEnvoi_tout {len : Nat} (h : len < 2 ^ 32) :
    ∃ ok, Listener.corpsEnvoi tout len 2 0 2 = some (ok, (List.range len).map .corps) := by
  by_cases h0 : 0 < len
  · have hm : morceau (tout 2) len = len := entiere_tout (i := 2) h0 (by omega)
    rw [Listener.corpsEnvoi, Nat.zero_mod, if_pos h0, hm]
    by_cases hmoins : moinsUn len = true
    · rw [if_pos hmoins]
      exact ⟨false, rfl⟩
    · rw [if_neg hmoins, Listener.corpsEnvoi, Nat.zero_add, Nat.mod_eq_of_lt h, if_neg (Nat.lt_irrefl _)]
      exact ⟨true, by simp⟩
  · have hz : len = 0 := by omega
    rw [hz]
    exact ⟨true, rfl⟩

theorem map_range_getD (l : List UInt8) {n : Nat} (h : n ≤ l.length) :
    (List.range n).map (fun i => (l[i]?).getD 0) = l.take n := by
  apply List.ext_getElem?
  intro i
  by_cases hi : i < n
  · rw [List.getElem?_map, List.getElem?_range hi, List.getElem?_take_of_lt hi, Option.map_some,
      List.getElem?_eq_getElem (by omega)]
    rfl
  · rw [List.getElem?_eq_none (by simp; omega), List.getElem?_eq_none (by simp; omega)]

theorem take_prefix_eq {l l' : List UInt8} (h : l' <+: l) {n : Nat} (hn : n ≤ l'.length) :
    l.take n = l'.take n := by
  obtain ⟨t, rfl⟩ := h
  exact List.take_append_of_le_length hn

/-- **A frame**: the type, the length of the string and the string. -/
theorem fil_eq (type : MsgType) (msg : List UInt8) :
    fil type msg = type :: (htonl ((cStr msg).length % 2 ^ 32) ++
      (cStr msg).take ((cStr msg).length % 2 ^ 32)) := by
  have hlt := Nat.mod_lt (cStr msg).length (show 0 < 2 ^ 32 by decide)
  have hle := Nat.mod_le (cStr msg).length (2 ^ 32)
  have hprefix : cStr msg <+: msg := List.takeWhile_prefix _
  obtain ⟨ok, hc⟩ := corpsEnvoi_tout hlt
  have h4 : morceau (tout 1) 4 = 4 := entiere_tout (i := 1) (by decide) (by decide)
  have htete : (List.range 4).map (octet type msg ∘ Listener.Octet.longueur) =
      htonl ((cStr msg).length % 2 ^ 32) :=
    map_range_getD (htonl ((cStr msg).length % 2 ^ 32)) (Nat.le_refl 4)
  have hcorps : (List.range ((cStr msg).length % 2 ^ 32)).map (octet type msg ∘ Listener.Octet.corps) =
      (cStr msg).take ((cStr msg).length % 2 ^ 32) :=
    (map_range_getD msg (hle.trans hprefix.length_le)).trans (take_prefix_eq hprefix hle)
  rw [fil, Listener.envoieMsg, hc, h4]
  simp only [Option.map_some, List.map_cons, List.map_append, List.map_map, List.cons_append, htete, hcorps]
  rfl

/-! ## The client -/

/-- `Client::readMessage`, once the message before is treated; `none`: the bytes do not come, or
`buffer[size]` is out of range. -/
def readMessage : List UInt8 → Option ((MsgType × List UInt8) × List UInt8)
  | type :: a :: b :: c :: d :: socket =>
    let size := a.toNat * 2 ^ 24 + b.toNat * 2 ^ 16 + c.toNat * 2 ^ 8 + d.toNat
    if size + 1 = 2 ^ 32 then none
    else if size ≤ socket.length then some ((type, cStr (socket.take size)), socket.drop size) else none
  | _ => none

/-- `n` messages, and what is left on the socket. -/
def readMessages : Nat → List UInt8 → Option (List (MsgType × List UInt8) × List UInt8)
  | 0, socket => some ([], socket)
  | n + 1, socket =>
    match readMessage socket with
    | none => none
    | some (m, socket) => (readMessages n socket).map fun (ms, socket) => (m :: ms, socket)

/-- The payload is a string, and its length and one more are 32 bits. -/
def Lisible (text : List UInt8) : Prop := (∀ b ∈ text, b ≠ 0) ∧ text.length + 1 < 2 ^ 32

instance (text : List UInt8) : Decidable (Lisible text) := inferInstanceAs (Decidable (_ ∧ _))

theorem readMessage_fil (type : MsgType) (msg socket : List UInt8) :
    readMessage (fil type msg ++ socket) =
      if (cStr msg).length % 2 ^ 32 + 1 = 2 ^ 32 then none
      else some ((type, (cStr msg).take ((cStr msg).length % 2 ^ 32)), socket) := by
  rw [fil_eq]
  generalize hsize : (cStr msg).length % 2 ^ 32 = size
  have hlt : size < 2 ^ 32 := by omega
  have hlen : ((cStr msg).take size).length = size := by
    rw [List.length_take]
    omega
  have hntohl : size / 2 ^ 24 % 256 * 2 ^ 24 + size / 2 ^ 16 % 256 * 2 ^ 16 +
      size / 2 ^ 8 % 256 * 2 ^ 8 + size % 256 = size := by omega
  simp only [htonl, List.cons_append, List.nil_append, readMessage, Requete.toNat_ofNat, hntohl]
  by_cases hmax : size + 1 = 2 ^ 32
  · rw [if_pos hmax, if_pos hmax]
  · rw [if_neg hmax, if_neg hmax, if_pos (by rw [List.length_append, hlen]; omega),
      List.take_left' hlen, List.drop_left' hlen, Requete.cStr_take]

theorem lisible_iff (text : List UInt8) :
    Lisible text ↔ (cStr text).length % 2 ^ 32 + 1 ≠ 2 ^ 32 ∧
      (cStr text).take ((cStr text).length % 2 ^ 32) = text := by
  rw [Requete.take_cStr_iff, Lisible, Requete.Entier]
  constructor
  · rintro ⟨h0, hlt⟩
    rw [Listener.cStr_eq h0, Nat.mod_eq_of_lt (by omega)]
    exact ⟨by omega, h0, by omega⟩
  · rintro ⟨hne, h0, hlt⟩
    rw [Listener.cStr_eq h0, Nat.mod_eq_of_lt hlt] at hne
    exact ⟨h0, by omega⟩

/-- **One message.** -/
theorem readMessages_cons (m : MsgType × List UInt8) (ms : List (MsgType × List UInt8))
    (n : Nat) (socket rest : List UInt8) :
    readMessages (n + 1) (fil m.1 m.2 ++ socket) = some (m :: ms, rest) ↔
      Lisible m.2 ∧ readMessages n socket = some (ms, rest) := by
  rw [readMessages, readMessage_fil, lisible_iff]
  by_cases hmax : (cStr m.2).length % 2 ^ 32 + 1 = 2 ^ 32
  · rw [if_pos hmax]
    exact iff_of_false nofun fun h => h.1.1 hmax
  · rw [if_neg hmax]
    simp only [Option.map_eq_some_iff]
    constructor
    · rintro ⟨⟨ms', rest'⟩, hr, he⟩
      obtain ⟨hlist, hrest⟩ := Prod.mk.inj he
      obtain ⟨hm, hms⟩ := List.cons.inj hlist
      have htext : (cStr m.2).take ((cStr m.2).length % 2 ^ 32) = m.2 := congrArg Prod.snd hm
      exact ⟨⟨hmax, htext⟩, hr.trans (congrArg some (Prod.ext hms hrest))⟩
    · rintro ⟨⟨_, htext⟩, hr⟩
      exact ⟨(ms, rest), hr, by rw [htext]⟩

/-- **The client reads back what the server was given if and only if each payload is a string**, whose
length and one more are 32 bits. -/
theorem relus_iff (msgs : List (MsgType × List UInt8)) :
    readMessages msgs.length (msgs.flatMap fun m => fil m.1 m.2) = some (msgs, []) ↔
      ∀ m ∈ msgs, Lisible m.2 := by
  induction msgs with
  | nil => exact iff_of_true rfl nofun
  | cons m msgs ih =>
    rw [List.flatMap_cons, List.length_cons, readMessages_cons, ih, List.forall_mem_cons]

/-! ## Which messages have a zero byte -/

/-- `Block_Destroy`: a coordinate 0. -/
theorem zero_mem_blockDestroy (coord : List UInt32) :
    0 ∈ Wire.write [Requete.repeatedUint32 1 coord] ↔ 0 ∈ coord := by
  rw [Wire.zero_mem_write (by simp [Requete.repeatedUint32])]
  simp only [Requete.repeatedUint32, List.mem_singleton, exists_eq_left, Wire.Value.bytes.injEq,
    exists_eq_left', List.mem_flatMap, Wire.zero_mem_encode]
  constructor
  · rintro ⟨c, hc, h0⟩
    rw [← UInt32.toNat_inj.mp (h0.trans UInt32.toNat_zero.symm)]
    exact hc
  · exact fun h => ⟨0, h, rfl⟩

/-! ## A wall destroyed at 0 -/

open MsgType

/-- The list of the blocks destroyed, with a coordinate 0; the names of the worms, one of which is
empty. -/
def demolition : List (MsgType × List UInt8) :=
  [(UPDATE_WALL, Wire.write [Requete.repeatedUint32 1 [0]]),
    (GET_LOMBRIC_NAMES_RESPONSE, Wire.writeField (1, .bytes []))]

/-- Each is read without its last byte. -/
theorem coordonnee_zero :
    demolition = [(UPDATE_WALL, [10, 1, 0]), (GET_LOMBRIC_NAMES_RESPONSE, [10, 0])] ∧
    readMessages 2 (fil UPDATE_WALL [10, 1, 0] ++ fil GET_LOMBRIC_NAMES_RESPONSE [10, 0]) =
      some ([(UPDATE_WALL, [10, 1]), (GET_LOMBRIC_NAMES_RESPONSE, [10])], []) ∧
    ¬ readMessages demolition.length (demolition.flatMap fun m => fil m.1 m.2) = some (demolition, []) := by
  refine ⟨by decide +kernel, ?_, fun h => ?_⟩
  · simp only [fil_eq]
    decide
  · have hz := (relus_iff demolition).mp h _ List.mem_cons_self
    exact hz.1 0 ((zero_mem_blockDestroy [0]).mpr List.mem_cons_self) rfl

end Message
end LombricABrac
