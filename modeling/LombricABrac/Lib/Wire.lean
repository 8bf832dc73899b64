import Mathlib.Data.Nat.Digits.Lemmas

/-!
# Messages of numbered fields

A number is written in base 128, lowest digit first, with the high bit on every byte but the last.
A field is a key, eight times its number and a mark of its kind, then a number, or bytes after their
length.  A message is its fields that are not zero and not empty; a reader takes the last value of a
number, and zero where there is none.

    decode_encode     : a number is read back, with what follows it
    readField_append  : so is a field
    parse_write       : the fields that are not by default are read back
    value_parse       : each field of distinct numbers has the value that was written
    write_eq_nil_iff  : nothing is written for a message by default, and for it only
    zero_mem_write    : a zero byte of a message is one of its bytes fields
-/

namespace Wire

/-! ## Numbers -/

/-- Base-128 digits, with the mark that more follow. -/
def marked : List Nat → List UInt8
  | [] => [0]
  | [d] => [UInt8.ofNat d]
  | d :: ds => UInt8.ofNat (d + 128) :: marked ds

def encode (n : Nat) : List UInt8 := marked (Nat.digits 128 n)

def decode : List UInt8 → Option (Nat × List UInt8)
  | [] => none
  | b :: bs =>
    if b.toNat < 128 then some (b.toNat, bs)
    else (decode bs).map fun (m, rest) => (b.toNat - 128 + 128 * m, rest)

theorem toNat_ofNat_of_lt {n : Nat} (h : n < 256) : (UInt8.ofNat n).toNat = n := by
  rw [UInt8.toNat_ofNat']
  exact Nat.mod_eq_of_lt h

theorem length_marked (ds : List Nat) : (marked ds).length = max 1 ds.length := by
  fun_induction marked ds with
  | case1 => rfl
  | case2 => rfl
  | case3 d ds hds ih =>
    have hpos : 0 < ds.length := List.length_pos_of_ne_nil hds
    rw [List.length_cons, List.length_cons, ih]
    omega

theorem length_encode_pos (n : Nat) : 0 < (encode n).length := by
  rw [encode, length_marked]
  omega

theorem length_encode_le {n k : Nat} (hk : 0 < k) (h : n < 128 ^ k) : (encode n).length ≤ k := by
  rw [encode, length_marked]
  have hd := (Nat.digits_length_le_iff (b := 128) (by omega) n).mpr h
  omega

theorem decode_marked {ds : List Nat} (h : ∀ d ∈ ds, d < 128) (rest : List UInt8) :
    decode (marked ds ++ rest) = some (Nat.ofDigits 128 ds, rest) := by
  fun_induction marked ds with
  | case1 => rfl
  | case2 d =>
    have hd : d < 128 := h d (List.mem_singleton.mpr rfl)
    rw [List.singleton_append, decode, toNat_ofNat_of_lt (by omega), if_pos hd,
      Nat.ofDigits_singleton]
  | case3 d ds hds ih =>
    have hd : d < 128 := h d List.mem_cons_self
    rw [List.cons_append, decode, toNat_ofNat_of_lt (by omega), if_neg (by omega),
      ih fun d' hd' => h d' (List.mem_cons_of_mem d hd'), Nat.ofDigits_cons]
    simp

@[simp] theorem decode_encode (n : Nat) (rest : List UInt8) :
    decode (encode n ++ rest) = some (n, rest) := by
  rw [encode, decode_marked fun d hd => Nat.digits_lt_base (by omega) hd, Nat.ofDigits_digits]

/-! ## Fields -/

inductive Value where
  | varint (n : Nat)
  | bytes (l : List UInt8)
  deriving DecidableEq

def Value.isDefault : Value → Bool
  | .varint n => n == 0
  | .bytes l => l.isEmpty

abbrev Field := Nat × Value

def writeField : Field → List UInt8
  | (number, .varint n) => encode (8 * number) ++ encode n
  | (number, .bytes l) => encode (8 * number + 2) ++ encode l.length ++ l

def write (fields : List Field) : List UInt8 :=
  (fields.filter fun f => !f.2.isDefault).flatMap writeField

def readField (bytes : List UInt8) : Option (Field × List UInt8) := do
  let (key, bytes) ← decode bytes
  let (n, bytes) ← decode bytes
  if key % 8 = 0 then some ((key / 8, .varint n), bytes)
  else if key % 8 = 2 ∧ n ≤ bytes.length then
    some ((key / 8, .bytes (bytes.take n)), bytes.drop n)
  else none

/-- `fuel` is a bound for the number of fields. -/
def readFields : Nat → List UInt8 → Option (List Field)
  | 0, bytes => if bytes.isEmpty then some [] else none
  | fuel + 1, bytes =>
    if bytes.isEmpty then some []
    else (readField bytes).bind fun (f, bytes) => (readFields fuel bytes).map (f :: ·)

def parse (bytes : List UInt8) : Option (List Field) := readFields bytes.length bytes

/-- The last number in a field, or its default. -/
def value (number : Nat) (fields : List Field) : Nat :=
  match (fields.filter fun f => f.1 = number).getLast? with
  | some (_, .varint n) => n
  | _ => 0

theorem readField_append (f : Field) (rest : List UInt8) :
    readField (writeField f ++ rest) = some (f, rest) := by
  obtain ⟨number, v⟩ := f
  cases v with
  | varint n =>
    simp only [readField, writeField, List.append_assoc, decode_encode, Option.bind_eq_bind,
      Option.bind_some]
    rw [if_pos (by omega), Nat.mul_div_cancel_left _ (by omega)]
  | bytes l =>
    simp only [readField, writeField, List.append_assoc, decode_encode, Option.bind_eq_bind,
      Option.bind_some]
    rw [if_neg (by omega), if_pos ⟨by omega, by simp⟩, List.take_left, List.drop_left]
    congr 3
    omega

theorem length_writeField_pos (f : Field) : 0 < (writeField f).length := by
  obtain ⟨number, v⟩ := f
  cases v with
  | varint n =>
    rw [writeField, List.length_append]
    have := length_encode_pos (8 * number)
    omega
  | bytes l =>
    rw [writeField, List.length_append, List.length_append]
    have := length_encode_pos (8 * number + 2)
    omega

theorem isEmpty_writeField_append (f : Field) (rest : List UInt8) :
    (writeField f ++ rest).isEmpty = false := by
  have := length_writeField_pos f
  rw [List.isEmpty_eq_false_iff_exists_mem.mpr]
  obtain ⟨b, hb⟩ := List.exists_mem_of_length_pos this
  exact ⟨b, List.mem_append_left _ hb⟩

theorem readFields_flatMap (fields : List Field) : ∀ fuel, fields.length ≤ fuel →
    readFields fuel (fields.flatMap writeField) = some fields := by
  induction fields with
  | nil =>
    intro fuel _
    cases fuel <;> rfl
  | cons f fields ih =>
    intro fuel hfuel
    cases fuel with
    | zero => simp at hfuel
    | succ fuel =>
      have ih := ih fuel (Nat.le_of_succ_le_succ hfuel)
      rw [List.flatMap_cons, readFields, isEmpty_writeField_append, if_neg (by simp),
        readField_append]
      simp only [Option.bind_some, ih, Option.map_some]

theorem length_le_length_flatMap (fields : List Field) :
    fields.length ≤ (fields.flatMap writeField).length := by
  induction fields with
  | nil => exact Nat.le_refl _
  | cons f fields ih =>
    have hpos := length_writeField_pos f
    rw [List.flatMap_cons, List.length_append, List.length_cons]
    omega

theorem parse_write (fields : List Field) :
    parse (write fields) = some (fields.filter fun f => !f.2.isDefault) :=
  readFields_flatMap _ _ (length_le_length_flatMap _)

theorem filter_number {fields : List Field} {f : Field} (h : (fields.map Prod.fst).Nodup)
    (hf : f ∈ fields) : (fields.filter fun g => g.1 = f.1) = [f] := by
  induction fields with
  | nil => simp at hf
  | cons g fields ih =>
    rw [List.map_cons, List.nodup_cons] at h
    obtain ⟨hg, hnodup⟩ := h
    rcases List.mem_cons.mp hf with rfl | hf
    · rw [List.filter_cons_of_pos (by simp), List.filter_eq_nil_iff.mpr]
      intro g' hg' he
      exact hg (List.mem_map.mpr ⟨g', hg', by simpa using he⟩)
    · have hne : g.1 ≠ f.1 := by
        intro he
        rw [he] at hg
        exact hg (List.mem_map_of_mem hf)
      rw [List.filter_cons_of_neg (by simpa using hne)]
      exact ih hnodup hf

theorem value_parse {fields : List Field} {number n : Nat} (h : (fields.map Prod.fst).Nodup)
    (hf : (number, .varint n) ∈ fields) :
    value number ((parse (write fields)).getD []) = n := by
  rw [parse_write, Option.getD_some, value, List.filter_comm, filter_number h hf]
  by_cases hz : n = 0
  · simp [Value.isDefault, hz]
  · simp [Value.isDefault, hz]

/-- Numbers below 16 have a key of one byte. -/
theorem length_write_le {k : Nat} (hk : 0 < k) {fields : List Field}
    (h : ∀ f ∈ fields, f.1 < 16 ∧ ∃ n < 128 ^ k, f.2 = .varint n) :
    (write fields).length ≤ (k + 1) * fields.length := by
  induction fields with
  | nil => exact Nat.le_refl _
  | cons f fields ih =>
    obtain ⟨hnumber, n, hn, hvalue⟩ := h f List.mem_cons_self
    have hkey := length_encode_le (n := 8 * f.1) Nat.one_pos (by omega)
    have hlen := length_encode_le hk hn
    have hf : writeField f = encode (8 * f.1) ++ encode n := by
      rw [← writeField, ← hvalue]
    have ih := ih fun g hg => h g (List.mem_cons_of_mem f hg)
    rw [List.length_cons, Nat.mul_succ]
    rw [write] at ih ⊢
    rw [List.filter_cons]
    split
    · rw [List.flatMap_cons, List.length_append, hf, List.length_append]
      omega
    · omega

theorem write_eq_nil_iff (fields : List Field) :
    write fields = [] ↔ ∀ f ∈ fields, f.2.isDefault = true := by
  rw [write, List.flatMap_eq_nil_iff]
  constructor
  · intro h f hf
    by_contra hd
    have hmem : f ∈ fields.filter fun f => !f.2.isDefault :=
      List.mem_filter.mpr ⟨hf, by simpa using hd⟩
    have hlen := length_writeField_pos f
    rw [h f hmem] at hlen
    cases hlen
  · intro h f hf
    obtain ⟨hf, hd⟩ := List.mem_filter.mp hf
    rw [h f hf] at hd
    cases hd

/-! ## Zero bytes -/

theorem zero_mem_marked {ds : List Nat} (h : ∀ d ∈ ds, d < 128) (hne : ds ≠ []) :
    0 ∈ marked ds ↔ ds.getLast hne = 0 := by
  fun_induction marked ds with
  | case1 => exact absurd rfl hne
  | case2 d =>
    have hd := h d (List.mem_singleton.mpr rfl)
    rw [List.mem_singleton, List.getLast_singleton, ← UInt8.toNat_inj, toNat_ofNat_of_lt (by omega)]
    exact eq_comm
  | case3 d ds hds ih =>
    have hd := h d List.mem_cons_self
    have hhead : 0 ≠ UInt8.ofNat (d + 128) := by
      intro he
      rw [← UInt8.toNat_inj, toNat_ofNat_of_lt (by omega)] at he
      exact absurd he (by simp)
    rw [List.mem_cons, or_iff_right hhead, ih (fun d' hd' => h d' (List.mem_cons_of_mem d hd')) hds,
      List.getLast_cons hds]

/-- The high digit of a number is not zero. -/
theorem zero_mem_encode (n : Nat) : 0 ∈ encode n ↔ n = 0 := by
  by_cases hn : n = 0
  · subst hn
    exact iff_of_true (by simp [encode, marked]) rfl
  · have hne := Nat.digits_ne_nil_iff_ne_zero (b := 128).mpr hn
    rw [encode, zero_mem_marked (fun d hd => Nat.digits_lt_base (by omega) hd) hne]
    exact iff_of_false (Nat.getLast_digit_ne_zero 128 hn) hn

/-- In a field a zero byte is a zero, the length of nothing, or one of its bytes. -/
theorem zero_mem_writeField {number : Nat} (h : 0 < number) (v : Value) :
    0 ∈ writeField (number, v) ↔ v.isDefault = true ∨ ∃ l, v = .bytes l ∧ 0 ∈ l := by
  have hkey : 0 ∉ encode (8 * number) := fun hz => by
    have := (zero_mem_encode _).mp hz
    omega
  have hkey2 : 0 ∉ encode (8 * number + 2) := fun hz => by
    have := (zero_mem_encode _).mp hz
    omega
  cases v with
  | varint n =>
    rw [writeField, List.mem_append, or_iff_right hkey, zero_mem_encode]
    simp [Value.isDefault]
  | bytes l =>
    rw [writeField, List.mem_append, List.mem_append, or_iff_right hkey2, zero_mem_encode]
    simp [Value.isDefault]

theorem zero_mem_write {fields : List Field} (h : ∀ f ∈ fields, 0 < f.1) :
    0 ∈ write fields ↔ ∃ f ∈ fields, ∃ l, f.2 = .bytes l ∧ 0 ∈ l := by
  rw [write, List.mem_flatMap]
  constructor
  · rintro ⟨f, hf, hz⟩
    obtain ⟨hmem, hd⟩ := List.mem_filter.mp hf
    rcases (zero_mem_writeField (h f hmem) f.2).mp hz with hz | hz
    · rw [hz] at hd
      cases hd
    · exact ⟨f, hmem, hz⟩
  · rintro ⟨f, hmem, l, hl, hz⟩
    have hd : f.2.isDefault = false := by
      rw [hl, Value.isDefault, List.isEmpty_eq_false_iff_exists_mem]
      exact ⟨0, hz⟩
    exact ⟨f, List.mem_filter.mpr ⟨hmem, by rw [hd]; rfl⟩,
      (zero_mem_writeField (h f hmem) f.2).mpr (Or.inr ⟨l, hl, hz⟩)⟩

end Wire
