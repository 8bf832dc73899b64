import LombricABrac.Lib.Wire
import Mathlib.Data.List.TakeWhile
import Mathlib.Logic.Equiv.Defs

/-!
# Messages as products of fields

A codec is a part of a message: the numbers of its fields, its value by default, the fields it writes and
what a field that is read does to it.  Parts with other numbers go side by side; a reader skips what is not
its own.

    Codec.parse_serialize : a value is read back
    Codec.parse_cut       : cut at its first zero byte, a message that has one cannot be read
    Codec.zero_mem_prod   : the zero bytes of two parts are those of each
    Codec.zero_mem_many   : a field for each value has one where a value is by default too
-/

namespace Wire

/-! ## Prefixes -/

/-- A number that is cut has no last byte. -/
theorem decode_cut {ds : List Nat} (h : ∀ d ∈ ds, d < 128) {p q : List UInt8} (hq : q ≠ [])
    (he : p ++ q = marked ds) : decode p = none := by
  fun_induction marked ds generalizing p with
  | case1 =>
    obtain rfl : p = [] := by
      rcases List.append_eq_singleton_iff.mp he with ⟨hp, _⟩ | ⟨_, hn⟩
      · exact hp
      · exact absurd hn hq
    rfl
  | case2 d =>
    obtain rfl : p = [] := by
      rcases List.append_eq_singleton_iff.mp he with ⟨hp, _⟩ | ⟨_, hn⟩
      · exact hp
      · exact absurd hn hq
    rfl
  | case3 d ds hds ih =>
    have hd : d < 128 := h d List.mem_cons_self
    cases p with
    | nil => rfl
    | cons b p =>
      rw [List.cons_append] at he
      obtain ⟨hb, he⟩ := List.cons.inj he
      rw [hb, decode, toNat_ofNat_of_lt (by omega), if_neg (by omega),
        ih (fun d' hd' => h d' (List.mem_cons_of_mem d hd')) he]
      rfl

theorem decode_encode_cut {n : Nat} {p q : List UInt8} (hq : q ≠ []) (he : p ++ q = encode n) :
    decode p = none :=
  decode_cut (fun d hd => Nat.digits_lt_base (by omega) hd) hq he

/-- A prefix of two lists is one of the first, or the first and a prefix of the second. -/
theorem append_eq_append_cut {α : Type} {p q a b : List α} (he : p ++ q = a ++ b) :
    (∃ c, c ≠ [] ∧ p ++ c = a) ∨ ∃ p', p = a ++ p' ∧ p' ++ q = b := by
  rcases List.append_eq_append_iff.mp he with ⟨c, ha, hb⟩ | ⟨c, hp, hb⟩
  · by_cases hc : c = []
    · subst hc
      exact Or.inr ⟨[], by simpa using ha.symm, by simpa using hb⟩
    · exact Or.inl ⟨c, hc, ha.symm⟩
  · exact Or.inr ⟨c, hp, hb.symm⟩

/-- A field that is cut is no field. -/
theorem readField_cut (f : Field) {p q : List UInt8} (hq : q ≠ []) (he : p ++ q = writeField f) :
    readField p = none := by
  obtain ⟨number, v⟩ := f
  cases v with
  | varint n =>
    rw [writeField] at he
    rcases append_eq_append_cut he with ⟨c, hc, hp⟩ | ⟨p', rfl, hp⟩
    · rw [readField, decode_encode_cut hc hp]
      rfl
    · simp only [readField, decode_encode, Option.bind_eq_bind, Option.bind_some,
        decode_encode_cut hq hp, Option.bind_none]
  | bytes l =>
    rw [writeField, List.append_assoc] at he
    rcases append_eq_append_cut he with ⟨c, hc, hp⟩ | ⟨p', rfl, hp⟩
    · rw [readField, decode_encode_cut hc hp]
      rfl
    · rcases append_eq_append_cut hp with ⟨c, hc, hl⟩ | ⟨p'', rfl, hl⟩
      · simp only [readField, decode_encode, Option.bind_eq_bind, Option.bind_some,
          decode_encode_cut hc hl, Option.bind_none]
      · -- the length says more bytes than are left
        have hlen : p''.length + q.length = l.length := by
          rw [← List.length_append, hl]
        have hpos := List.length_pos_of_ne_nil hq
        simp only [readField, decode_encode, Option.bind_eq_bind, Option.bind_some]
        rw [if_neg (by omega), if_neg (by omega)]

/-- Up to the first zero byte. -/
def cut (bytes : List UInt8) : List UInt8 := bytes.takeWhile fun b => b ≠ 0

theorem cut_append_of_notMem {a b : List UInt8} (h : 0 ∉ a) : cut (a ++ b) = a ++ cut b := by
  rw [cut, List.takeWhile_append_of_pos]
  · rfl
  · intro x hx
    exact decide_eq_true fun hz => h (hz ▸ hx)

theorem cut_append_of_mem {a b : List UInt8} (h : 0 ∈ a) : cut (a ++ b) = cut a := by
  induction a with
  | nil => cases h
  | cons x a ih =>
    by_cases hx : x = 0
    · subst hx
      rfl
    · have ha : 0 ∈ a := (List.mem_cons.mp h).resolve_left (Ne.symm hx)
      rw [List.cons_append, cut, cut, List.takeWhile_cons_of_pos (by simpa using hx),
        List.takeWhile_cons_of_pos (by simpa using hx)]
      exact congrArg _ (ih ha)

theorem exists_cut {a : List UInt8} (h : 0 ∈ a) : ∃ q, q ≠ [] ∧ cut a ++ q = a := by
  refine ⟨a.dropWhile fun b => b ≠ 0, ?_, List.takeWhile_append_dropWhile⟩
  intro hq
  rw [List.dropWhile_eq_nil_iff] at hq
  simpa using hq 0 h

/-- The first byte of a field is no zero. -/
theorem cut_writeField_ne_nil {f : Field} (hf : 0 < f.1) (rest : List UInt8) :
    cut (writeField f ++ rest) ≠ [] := by
  obtain ⟨number, v⟩ := f
  obtain ⟨key, rest', hkey, hw⟩ : ∃ key rest', 0 < key ∧ writeField (number, v) ++ rest = encode key ++ rest' := by
    cases v with
    | varint n => exact ⟨8 * number, encode n ++ rest, by simpa using hf, by rw [writeField, List.append_assoc]⟩
    | bytes l =>
      exact ⟨8 * number + 2, encode l.length ++ l ++ rest, by omega,
        by rw [writeField]; simp only [List.append_assoc]⟩
  have hz : 0 ∉ encode key := fun hz => by
    have := (zero_mem_encode key).mp hz
    omega
  rw [hw, cut_append_of_notMem hz]
  intro hn
  have hpos := length_encode_pos key
  rw [(List.append_eq_nil_iff.mp hn).1] at hpos
  cases hpos

/-- **Fields that are cut at their first zero byte cannot be read.** -/
theorem parse_cut {fields : List Field} (hf : ∀ f ∈ fields, 0 < f.1) (h : 0 ∈ fields.flatMap writeField) :
    parse (cut (fields.flatMap writeField)) = none := by
  suffices hfuel : ∀ fuel, readFields fuel (cut (fields.flatMap writeField)) = none from hfuel _
  induction fields with
  | nil => cases h
  | cons f fields ih =>
    intro fuel
    have hne := cut_writeField_ne_nil (hf f List.mem_cons_self) (fields.flatMap writeField)
    rw [List.flatMap_cons] at h ⊢
    by_cases hz : 0 ∈ writeField f
    · rw [cut_append_of_mem hz] at hne ⊢
      obtain ⟨q, hq, he⟩ := exists_cut hz
      cases fuel with
      | zero => rw [readFields, if_neg (by simpa using hne)]
      | succ fuel =>
        rw [readFields, if_neg (by simpa using hne), readField_cut f hq he]
        rfl
    · rw [cut_append_of_notMem hz] at hne ⊢
      have hrest : 0 ∈ fields.flatMap writeField := (List.mem_append.mp h).resolve_left hz
      have ih := ih (fun g hg => hf g (List.mem_cons_of_mem f hg)) hrest
      cases fuel with
      | zero => rw [readFields, if_neg (by simpa using hne)]
      | succ fuel =>
        rw [readFields, if_neg (by simpa using hne), readField_append]
        simp only [Option.bind_some, ih, Option.map_none]

/-! ## Codecs -/

/-- A part of a message.  `Ok` are the values that its type has. -/
structure Codec (α : Type) where
  numbers : List Nat
  default : α
  Ok : α → Prop
  write : α → List Field
  /-- `none`: the field cannot be read. -/
  read : Field → α → Option α
  pos : ∀ n ∈ numbers, 0 < n
  number : ∀ a, ∀ f ∈ write a, f.1 ∈ numbers
  other : ∀ f, f.1 ∉ numbers → ∀ a, read f a = some a
  read_write : ∀ a, Ok a → (write a).foldlM (fun x f => read f x) default = some a

namespace Codec

variable {α β : Type}

def serialize (c : Codec α) (a : α) : List UInt8 := (c.write a).flatMap writeField

def parse (c : Codec α) (bytes : List UInt8) : Option α :=
  (Wire.parse bytes).bind fun fields => fields.foldlM (fun x f => c.read f x) c.default

/-- **A value is read back.** -/
theorem parse_serialize (c : Codec α) {a : α} (h : c.Ok a) : c.parse (c.serialize a) = some a := by
  have hp : Wire.parse (c.serialize a) = some (c.write a) :=
    readFields_flatMap _ _ (length_le_length_flatMap _)
  rw [parse, hp, Option.bind_some, c.read_write a h]

theorem write_pos (c : Codec α) (a : α) : ∀ f ∈ c.write a, 0 < f.1 :=
  fun f hf => c.pos _ (c.number a f hf)

/-- **Cut at its first zero byte, a message that has one cannot be read.** -/
theorem parse_cut (c : Codec α) {a : α} (h : 0 ∈ c.serialize a) : c.parse (cut (c.serialize a)) = none := by
  rw [parse, serialize, Wire.parse_cut (c.write_pos a) h]
  rfl

theorem serialize_eq_nil (c : Codec α) (a : α) : c.serialize a = [] ↔ c.write a = [] := by
  rw [serialize, List.flatMap_eq_nil_iff]
  constructor
  · intro h
    by_contra hne
    obtain ⟨f, hf⟩ := List.exists_mem_of_ne_nil _ hne
    have hlen := length_writeField_pos f
    rw [h f hf] at hlen
    cases hlen
  · intro h f hf
    rw [h] at hf
    cases hf

end Codec

/-! ## Values -/

/-- How a value is one field.  `dec` gives `none` for what cannot be read, `some none` for a field of another
kind, which is skipped. -/
structure Scalar (α : Type) where
  default : α
  Ok : α → Prop
  enc : α → Value
  dec : Value → Option (Option α)
  dec_enc : ∀ a, Ok a → dec (enc a) = some (some a)
  eq_default : ∀ a, Ok a → (enc a).isDefault = true → a = default

/-- Its bytes have a zero. -/
def Scalar.Zero {α : Type} (s : Scalar α) (a : α) : Prop := ∃ l, s.enc a = .bytes l ∧ 0 ∈ l

namespace Scalar

def uint32 : Scalar Nat where
  default := 0
  Ok n := n < 2 ^ 32
  enc n := .varint n
  dec
    | .varint n => some (some (n % 2 ^ 32))
    | .bytes _ => some none
  dec_enc _ h := congrArg (fun m => some (some m)) (Nat.mod_eq_of_lt h)
  eq_default _ _ h := beq_iff_eq.mp h

/-- A negative number is written as one of 64 bits. -/
def int32 : Scalar Int where
  default := 0
  Ok n := -2 ^ 31 ≤ n ∧ n < 2 ^ 31
  enc n := .varint (n % 2 ^ 64).toNat
  dec
    | .varint n => some (some (Int.bmod n (2 ^ 32)))
    | .bytes _ => some none
  dec_enc n h := by
    have hmod : Int.bmod ((n % 2 ^ 64).toNat : Int) (2 ^ 32) = n := by
      rw [Int.bmod_def]
      omega
    exact congrArg (fun m => some (some m)) hmod
  eq_default n h hd := by
    have hz : (n % 2 ^ 64).toNat = 0 := beq_iff_eq.mp hd
    omega

def bool : Scalar Bool where
  default := false
  Ok _ := True
  enc b := .varint b.toNat
  dec
    | .varint n => some (some (n != 0))
    | .bytes _ => some none
  dec_enc b _ := by cases b <;> rfl
  eq_default b _ h := by
    cases b with
    | false => rfl
    | true => cases h

def bytes : Scalar (List UInt8) where
  default := []
  Ok _ := True
  enc l := .bytes l
  dec
    | .varint _ => some none
    | .bytes l => some (some l)
  dec_enc _ _ := rfl
  eq_default _ _ h := List.isEmpty_iff.mp h

/-- The bytes of a string. -/
def utf8 (s : String) : List UInt8 := s.toByteArray.data.toList

/-- A field that is no UTF-8 cannot be read. -/
def string : Scalar String where
  default := ""
  Ok _ := True
  enc s := .bytes (utf8 s)
  dec
    | .varint _ => some none
    | .bytes l => (String.fromUTF8? ⟨l.toArray⟩).map some
  dec_enc s _ := by
    have hbytes : (⟨(utf8 s).toArray⟩ : ByteArray) = s.toByteArray := by
      rw [utf8, Array.toArray_toList]
    change (String.fromUTF8? ⟨(utf8 s).toArray⟩).map some = some (some s)
    rw [hbytes, String.fromUTF8?, dif_pos s.isValidUTF8]
    rfl
  eq_default s _ h := by
    have hnil : utf8 s = [] := List.isEmpty_iff.mp h
    rw [← String.toByteArray_inj]
    refine ByteArray.ext (Array.toList_inj.mp ?_)
    exact hnil

/-- A message within a message. -/
def message {α : Type} (c : Codec α) : Scalar α where
  default := c.default
  Ok := c.Ok
  enc a := .bytes (c.serialize a)
  dec
    | .varint _ => some none
    | .bytes l => (c.parse l).map some
  dec_enc _ h := congrArg (Option.map some) (c.parse_serialize h)
  eq_default a h hd := by
    have hnil : c.serialize a = [] := List.isEmpty_iff.mp hd
    have hparse := c.parse_serialize h
    rw [hnil] at hparse
    exact (Option.some.inj hparse).symm

/-- The byte 0 is the character 0. -/
theorem zero_mem_utf8EncodeChar (c : Char) : 0 ∈ String.utf8EncodeChar c ↔ c = '\x00' := by
  have hval : c = '\x00' ↔ c.val.toNat = 0 := by
    rw [Char.ext_iff, ← UInt32.toNat_inj]
    rfl
  have hlt : c.val.toNat < 1114112 := by
    have := c.valid
    rcases this with h | h <;> omega
  rw [hval, String.utf8EncodeChar]
  simp only [apply_ite (fun l : List UInt8 => 0 ∈ l), List.mem_cons, List.not_mem_nil, or_false,
    ← UInt8.toNat_inj, UInt8.toNat_ofNat', UInt8.toNat_zero]
  split_ifs <;> omega

theorem zero_mem_utf8 (s : String) : 0 ∈ utf8 s ↔ '\x00' ∈ s.toList := by
  rw [utf8, ← String.utf8Encode_toList, List.utf8Encode, List.toList_data_toByteArray, List.mem_flatMap]
  simp only [zero_mem_utf8EncodeChar, exists_eq_right]

@[simp] theorem isDefault_uint32 (n : Nat) : (uint32.enc n).isDefault = true ↔ n = 0 := beq_iff_eq

@[simp] theorem isDefault_string (s : String) : (string.enc s).isDefault = true ↔ s = "" := by
  constructor
  · exact string.eq_default s trivial
  · rintro rfl
    rfl

@[simp] theorem zero_uint32 (n : Nat) : ¬ uint32.Zero n := nofun

@[simp] theorem zero_int32 (n : Int) : ¬ int32.Zero n := nofun

@[simp] theorem zero_bool (b : Bool) : ¬ bool.Zero b := nofun

@[simp] theorem zero_bytes (l : List UInt8) : bytes.Zero l ↔ 0 ∈ l := by
  simp [Zero, bytes]

@[simp] theorem zero_string (s : String) : string.Zero s ↔ '\x00' ∈ s.toList := by
  simp [Zero, string, zero_mem_utf8]

@[simp] theorem zero_message {α : Type} (c : Codec α) (a : α) :
    (message c).Zero a ↔ 0 ∈ c.serialize a := by
  simp [Zero, message]

end Scalar

/-! ## Parts -/

namespace Codec

variable {α β γ : Type}

/-- The numbers of fields begin at 1. -/
def IsNumber (number : Nat) : Prop := 0 < number

instance (number : Nat) : Decidable (IsNumber number) := inferInstanceAs (Decidable (0 < number))

/-- One field: by default it is not written; the last one counts. -/
def one (number : Nat) (h : IsNumber number) (s : Scalar α) : Codec α where
  numbers := [number]
  default := s.default
  Ok := s.Ok
  write a := if (s.enc a).isDefault then [] else [(number, s.enc a)]
  read f a := if f.1 = number then (s.dec f.2).map fun x => x.getD a else some a
  pos n hn := by
    rw [List.mem_singleton.mp hn]
    exact h
  number a f hf := by
    split at hf
    · cases hf
    · rw [List.mem_singleton.mp hf]
      exact List.mem_singleton.mpr rfl
  other f hf a := if_neg fun he => hf (List.mem_singleton.mpr he)
  read_write a ha := by
    by_cases hd : (s.enc a).isDefault = true
    · rw [if_pos hd, s.eq_default a ha hd]
      rfl
    · rw [if_neg hd, List.foldlM_cons, if_pos rfl, s.dec_enc a ha]
      rfl

/-- A field for each value. -/
def many (number : Nat) (h : IsNumber number) (s : Scalar α) : Codec (List α) where
  numbers := [number]
  default := []
  Ok l := ∀ a ∈ l, s.Ok a
  write l := l.map fun a => (number, s.enc a)
  read f l := if f.1 = number then (s.dec f.2).map fun x => l ++ x.toList else some l
  pos n hn := by
    rw [List.mem_singleton.mp hn]
    exact h
  number l f hf := by
    obtain ⟨a, _, rfl⟩ := List.mem_map.mp hf
    exact List.mem_singleton.mpr rfl
  other f hf l := if_neg fun he => hf (List.mem_singleton.mpr he)
  read_write l hl := by
    suffices hfold : ∀ acc : List α, (l.map fun a => ((number, s.enc a) : Field)).foldlM
        (fun x f => if f.1 = number then (s.dec f.2).map fun y => x ++ y.toList else some x) acc =
          some (acc ++ l) from hfold []
    induction l with
    | nil => intro acc; rw [List.append_nil]; rfl
    | cons a l ih =>
      intro acc
      rw [List.map_cons, List.foldlM_cons, if_pos rfl, s.dec_enc a (hl a List.mem_cons_self)]
      have ih := ih (fun b hb => hl b (List.mem_cons_of_mem a hb)) (acc ++ [a])
      rw [List.append_assoc] at ih
      exact ih

/-- The numbers in a field that holds several. -/
def decodeAll : Nat → List UInt8 → Option (List Nat)
  | 0, bytes => if bytes.isEmpty then some [] else none
  | fuel + 1, bytes =>
    if bytes.isEmpty then some []
    else (decode bytes).bind fun (n, bytes) => (decodeAll fuel bytes).map (n % 2 ^ 32 :: ·)

theorem decodeAll_flatMap {l : List Nat} (h : ∀ n ∈ l, n < 2 ^ 32) : ∀ fuel, l.length ≤ fuel →
    decodeAll fuel (l.flatMap encode) = some l := by
  induction l with
  | nil => intro fuel _; cases fuel <;> rfl
  | cons n l ih =>
    intro fuel hfuel
    cases fuel with
    | zero => simp at hfuel
    | succ fuel =>
      have ih := ih (fun m hm => h m (List.mem_cons_of_mem n hm)) fuel (Nat.le_of_succ_le_succ hfuel)
      have hne : (encode n ++ l.flatMap encode).isEmpty = false := by
        have hpos := length_encode_pos n
        rw [List.isEmpty_eq_false_iff]
        intro hn
        rw [(List.append_eq_nil_iff.mp hn).1] at hpos
        cases hpos
      rw [List.flatMap_cons, decodeAll, hne, if_neg (by simp), decode_encode, Option.bind_some]
      simp only [ih, Option.map_some, Nat.mod_eq_of_lt (h n List.mem_cons_self)]

theorem length_le_length_flatMap_encode (l : List Nat) : l.length ≤ (l.flatMap encode).length := by
  induction l with
  | nil => exact Nat.le_refl _
  | cons n l ih =>
    have hpos := length_encode_pos n
    rw [List.flatMap_cons, List.length_append, List.length_cons]
    omega

/-- Numbers of 32 bits, all in one field; a reader takes them one by one too. -/
def packed (number : Nat) (h : IsNumber number) : Codec (List Nat) where
  numbers := [number]
  default := []
  Ok l := ∀ n ∈ l, n < 2 ^ 32
  write l := if l = [] then [] else [(number, .bytes (l.flatMap encode))]
  read f l :=
    if f.1 = number then
      match f.2 with
      | .varint n => some (l ++ [n % 2 ^ 32])
      | .bytes bytes => (decodeAll bytes.length bytes).map (l ++ ·)
    else some l
  pos n hn := by
    rw [List.mem_singleton.mp hn]
    exact h
  number l f hf := by
    split at hf
    · cases hf
    · rw [List.mem_singleton.mp hf]
      exact List.mem_singleton.mpr rfl
  other f hf l := if_neg fun he => hf (List.mem_singleton.mpr he)
  read_write l hl := by
    by_cases hn : l = []
    · subst hn
      rfl
    · rw [if_neg hn, List.foldlM_cons, if_pos rfl]
      simp only [decodeAll_flatMap hl _ (length_le_length_flatMap_encode l), Option.map_some, List.nil_append]
      rfl

theorem foldlM_map_fst {c : Codec α} {d : Codec β} {fields : List Field}
    (h : ∀ f ∈ fields, f.1 ∉ d.numbers) (a : α) (b : β) :
    fields.foldlM (fun (x : α × β) f => (c.read f x.1).bind fun a => (d.read f x.2).map fun b => (a, b))
      (a, b) = (fields.foldlM (fun x f => c.read f x) a).map fun a => (a, b) := by
  induction fields generalizing a with
  | nil => rfl
  | cons f fields ih =>
    rw [List.foldlM_cons, List.foldlM_cons, d.other f (h f List.mem_cons_self)]
    cases c.read f a with
    | none => rfl
    | some a => exact ih (fun g hg => h g (List.mem_cons_of_mem f hg)) a

theorem foldlM_map_snd {c : Codec α} {d : Codec β} {fields : List Field}
    (h : ∀ f ∈ fields, f.1 ∉ c.numbers) (a : α) (b : β) :
    fields.foldlM (fun (x : α × β) f => (c.read f x.1).bind fun a => (d.read f x.2).map fun b => (a, b))
      (a, b) = (fields.foldlM (fun x f => d.read f x) b).map fun b => (a, b) := by
  induction fields generalizing b with
  | nil => rfl
  | cons f fields ih =>
    rw [List.foldlM_cons, List.foldlM_cons, c.other f (h f List.mem_cons_self)]
    cases d.read f b with
    | none => rfl
    | some b => exact ih (fun g hg => h g (List.mem_cons_of_mem f hg)) b

/-- Two parts with other numbers. -/
def prod (c : Codec α) (d : Codec β) (h : ∀ n ∈ c.numbers, n ∉ d.numbers) : Codec (α × β) where
  numbers := c.numbers ++ d.numbers
  default := (c.default, d.default)
  Ok x := c.Ok x.1 ∧ d.Ok x.2
  write x := c.write x.1 ++ d.write x.2
  read f x := (c.read f x.1).bind fun a => (d.read f x.2).map fun b => (a, b)
  pos n hn := (List.mem_append.mp hn).elim (c.pos n) (d.pos n)
  number x f hf := List.mem_append.mpr ((List.mem_append.mp hf).imp (c.number x.1 f) (d.number x.2 f))
  other f hf x := by
    obtain ⟨hc, hd⟩ := not_or.mp (mt List.mem_append.mpr hf)
    rw [c.other f hc, d.other f hd]
    rfl
  read_write x hx := by
    rw [List.foldlM_append, foldlM_map_fst fun f hf => h _ (c.number x.1 f hf), c.read_write x.1 hx.1,
      Option.map_some, Option.bind_eq_bind, Option.bind_some,
      foldlM_map_snd fun f hf hn => h _ hn (d.number x.2 f hf), d.read_write x.2 hx.2]
    rfl

theorem foldlM_equiv (c : Codec α) (e : β ≃ α) (fields : List Field) (b : β) :
    fields.foldlM (fun x f => (c.read f (e x)).map e.symm) b =
      (fields.foldlM (fun x f => c.read f x) (e b)).map e.symm := by
  induction fields generalizing b with
  | nil => exact congrArg some (e.symm_apply_apply b).symm
  | cons f fields ih =>
    rw [List.foldlM_cons, List.foldlM_cons]
    cases c.read f (e b) with
    | none => rfl
    | some a =>
      have ih := ih (e.symm a)
      rw [e.apply_symm_apply] at ih
      exact ih

/-- The same message, of another type. -/
def equiv (c : Codec α) (e : β ≃ α) : Codec β where
  numbers := c.numbers
  default := e.symm c.default
  Ok b := c.Ok (e b)
  write b := c.write (e b)
  read f b := (c.read f (e b)).map e.symm
  pos := c.pos
  number b := c.number (e b)
  other f hf b := by rw [c.other f hf, Option.map_some, e.symm_apply_apply]
  read_write b hb := by
    rw [foldlM_equiv, e.apply_symm_apply, c.read_write (e b) hb, Option.map_some, e.symm_apply_apply]

/-! ## What is written -/

theorem write_one (number : Nat) (h : IsNumber number) (s : Scalar α) (a : α) :
    (one number h s).write a = if (s.enc a).isDefault then [] else [(number, s.enc a)] := rfl

theorem write_many (number : Nat) (h : IsNumber number) (s : Scalar α) (l : List α) :
    (many number h s).write l = l.map fun a => (number, s.enc a) := rfl

theorem write_packed (number : Nat) (h : IsNumber number) (l : List Nat) :
    (packed number h).write l = if l = [] then [] else [(number, .bytes (l.flatMap encode))] := rfl

theorem write_one_eq_nil (number : Nat) (h : IsNumber number) (s : Scalar α) (a : α) :
    (one number h s).write a = [] ↔ (s.enc a).isDefault = true := by
  rw [write_one]
  split <;> simp_all

theorem write_prod_eq_nil (c : Codec α) (d : Codec β) (h : ∀ n ∈ c.numbers, n ∉ d.numbers) (x : α × β) :
    (prod c d h).write x = [] ↔ c.write x.1 = [] ∧ d.write x.2 = [] := List.append_eq_nil_iff

theorem write_equiv (c : Codec α) (e : β ≃ α) (b : β) : (equiv c e).write b = c.write (e b) := rfl

theorem serialize_one (number : Nat) (h : IsNumber number) (s : Scalar α) (a : α) :
    (one number h s).serialize a = Wire.write [(number, s.enc a)] := by
  rw [serialize, write_one, Wire.write]
  by_cases hd : (s.enc a).isDefault = true
  · simp [hd]
  · simp [hd]

theorem serialize_prod (c : Codec α) (d : Codec β) (h : ∀ n ∈ c.numbers, n ∉ d.numbers) (x : α × β) :
    (prod c d h).serialize x = c.serialize x.1 ++ d.serialize x.2 := List.flatMap_append

theorem serialize_equiv (c : Codec α) (e : β ≃ α) (b : β) :
    (equiv c e).serialize b = c.serialize (e b) := rfl

theorem isDefault_message (c : Codec α) (a : α) :
    ((Scalar.message c).enc a).isDefault = true ↔ c.write a = [] := by
  rw [← serialize_eq_nil]
  exact List.isEmpty_iff

/-! ## Zero bytes -/

theorem zero_mem_one (number : Nat) (h : IsNumber number) (s : Scalar α) (a : α) :
    0 ∈ (one number h s).serialize a ↔ s.Zero a := by
  rw [serialize, write_one]
  by_cases hd : (s.enc a).isDefault = true
  · simp only [hd, if_true, List.flatMap_nil, List.not_mem_nil, false_iff]
    rintro ⟨l, hl, hz⟩
    rw [hl] at hd
    rw [List.isEmpty_iff.mp hd] at hz
    cases hz
  · rw [if_neg hd, List.flatMap_singleton, zero_mem_writeField h, or_iff_right hd]
    rfl

theorem zero_mem_many (number : Nat) (h : IsNumber number) (s : Scalar α) (l : List α) :
    0 ∈ (many number h s).serialize l ↔ ∃ a ∈ l, (s.enc a).isDefault = true ∨ s.Zero a := by
  rw [serialize, write_many, List.flatMap_map, List.mem_flatMap]
  simp only [zero_mem_writeField h]
  rfl

theorem zero_mem_packed (number : Nat) (h : IsNumber number) (l : List Nat) :
    0 ∈ (packed number h).serialize l ↔ 0 ∈ l := by
  rw [serialize, write_packed]
  by_cases hn : l = []
  · subst hn
    simp
  · have hd : (Value.bytes (l.flatMap encode)).isDefault = false := by
      have hpos := List.length_pos_of_ne_nil hn
      have hlen := length_le_length_flatMap_encode l
      rw [Value.isDefault, List.isEmpty_eq_false_iff]
      intro hnil
      rw [hnil, List.length_nil] at hlen
      omega
    rw [if_neg hn, List.flatMap_singleton, zero_mem_writeField h, hd, or_iff_right (by simp)]
    simp [List.mem_flatMap, zero_mem_encode]

/-- The zero bytes of two parts are those of each. -/
theorem zero_mem_prod (c : Codec α) (d : Codec β) (h : ∀ n ∈ c.numbers, n ∉ d.numbers) (x : α × β) :
    0 ∈ (prod c d h).serialize x ↔ 0 ∈ c.serialize x.1 ∨ 0 ∈ d.serialize x.2 := by
  rw [serialize_prod, List.mem_append]

theorem zero_mem_equiv (c : Codec α) (e : β ≃ α) (b : β) :
    0 ∈ (equiv c e).serialize b ↔ 0 ∈ c.serialize (e b) := Iff.rfl

end Codec
end Wire
