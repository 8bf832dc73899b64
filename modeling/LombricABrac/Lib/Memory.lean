import Mathlib.Data.List.Basic

/-!
# Arrays of bytes in memory

Memory is a byte for each address, counted from the start of an array on; what lies past the end of the
array is memory too.  An access is noted with the length that was allocated then.

    CString.length_le : a string ends at the first zero byte
    cString_write     : bytes that are not zero, written over zeros, are a string
-/

namespace Memory

variable {m : Nat → UInt8} {s bytes : List UInt8} {a i n : Nat}

/-- `bytes` at the addresses from `i` on. -/
def write (m : Nat → UInt8) (i : Nat) (bytes : List UInt8) : Nat → UInt8 :=
  fun a => if i ≤ a then (bytes[a - i]?).getD (m a) else m a

def clear (m : Nat → UInt8) (n : Nat) : Nat → UInt8 := fun a => if a < n then 0 else m a

theorem write_of_lt (h : a < i) : write m i bytes a = m a := if_neg (by omega)

theorem write_of_le (h : i + bytes.length ≤ a) : write m i bytes a = m a := by
  rw [write, if_pos (by omega), List.getElem?_eq_none (by omega)]
  rfl

theorem write_zero (h : a < bytes.length) : bytes[a]? = some (write m 0 bytes a) := by
  rw [write, if_pos (Nat.zero_le a), Nat.sub_zero, List.getElem?_eq_getElem h]
  rfl

theorem clear_of_lt (h : a < n) : clear m n a = 0 := if_pos h

/-- The string at address 0: its bytes, then a zero. -/
structure CString (m : Nat → UInt8) (s : List UInt8) : Prop where
  char : ∀ a < s.length, s[a]? = some (m a)
  nonzero : ∀ b ∈ s, b ≠ 0
  final : m s.length = 0

instance (m : Nat → UInt8) (s : List UInt8) : Decidable (CString m s) :=
  decidable_of_iff ((∀ a < s.length, s[a]? = some (m a)) ∧ 0 ∉ s ∧ m s.length = 0)
    ⟨fun h => ⟨h.1, fun _ hb h0 => h.2.1 (h0 ▸ hb), h.2.2⟩,
      fun h => ⟨h.char, fun h0 => h.nonzero 0 h0 rfl, h.final⟩⟩

theorem CString.length_le (h : CString m s) (ha : m a = 0) : s.length ≤ a := by
  by_contra hlt
  have hc := h.char a (by omega)
  rw [ha] at hc
  exact h.nonzero 0 (List.mem_of_getElem? hc) rfl

theorem CString.congr {m' : Nat → UInt8} (h : CString m s) (he : ∀ a ≤ s.length, m' a = m a) :
    CString m' s := by
  refine ⟨fun a ha => ?_, h.nonzero, ?_⟩
  · rw [he a (by omega)]
    exact h.char a ha
  · rw [he _ (Nat.le_refl _)]
    exact h.final

theorem cString_write (hs : ∀ b ∈ s, b ≠ 0) (h0 : m s.length = 0) : CString (write m 0 s) s := by
  refine ⟨fun a ha => write_zero ha, hs, ?_⟩
  rw [write_of_le (by omega)]
  exact h0

/-! ## Accesses -/

structure Access where
  start : Nat
  size : Nat
  allocated : Nat
  deriving DecidableEq

/-- Every index of the access is below the length allocated. -/
def Access.Inside (a : Access) : Prop := ∀ i, a.start ≤ i → i < a.start + a.size → i < a.allocated

theorem Access.inside_of_le {a : Access} (h : a.start + a.size ≤ a.allocated) : a.Inside :=
  fun _ _ hi => by omega

/-- An access of one byte at least ends where the array does, or before. -/
theorem Access.Inside.le {a : Access} (h : a.Inside) (hs : 0 < a.size) :
    a.start + a.size ≤ a.allocated := by
  have := h (a.start + a.size - 1) (by omega) (by omega)
  omega

end Memory
