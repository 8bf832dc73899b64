import LombricABrac.Tables

/-!
# The channels

The addresses of the server's messages: `all` for the broker, two for each user, one for each room.  A
subscription takes every address that it begins.

    toString_injective : the numbers of two channels are read apart
    prefixe_iff        : a subscription to a channel takes no other channel
-/

namespace LombricABrac

inductive Voie where
  | all
  | broker (id : Int)
  | joueur (id : Int)
  | salle (id : Int)
  deriving DecidableEq

namespace Voie

def texte : Voie → String
  | all => "all"
  | broker id => "users/" ++ toString id ++ "/broker"
  | joueur id => "users/" ++ toString id ++ "/room"
  | salle id => "room/" ++ toString id ++ "/client"

/-- A subscription to `v` takes the messages published on `w`. -/
def prend (v w : Voie) : Bool := v.texte.toList.isPrefixOf w.texte.toList

/-! ## Numbers -/

theorem toList_repr_injective {m n : Nat} (h : m.repr.toList = n.repr.toList) : m = n := by
  rw [Nat.toList_repr, Nat.toList_repr] at h
  have hm := Nat.ofDigitChars_toDigits (n := m) (b := 10) (by decide) (by decide)
  rw [h, Nat.ofDigitChars_toDigits (by decide) (by decide)] at hm
  exact hm.symm

theorem not_mem_repr {c : Char} (hc : c.isDigit = false) (n : Nat) : c ∉ n.repr.toList := by
  rw [Nat.toList_repr]
  intro h
  rw [Nat.isDigit_of_mem_toDigits (by decide) (by decide) h] at hc
  cases hc

theorem slash_not_mem (n : Int) : '/' ∉ (toString n).toList := by
  rw [Int.toString_eq_repr, Int.repr_eq_if]
  split
  · exact not_mem_repr (by decide) _
  · rw [String.toList_append, List.mem_append, not_or]
    exact ⟨by decide, not_mem_repr (by decide) _⟩

/-- Numbers are read apart. -/
theorem toString_injective {a b : Int} (h : (toString a).toList = (toString b).toList) : a = b := by
  rw [Int.toString_eq_repr, Int.toString_eq_repr, Int.repr_eq_if, Int.repr_eq_if] at h
  have hsigne : ∀ {m n : Nat}, m.repr.toList ≠ ("-" ++ n.repr).toList := by
    intro m n he
    refine not_mem_repr (c := '-') (by decide) m ?_
    rw [he, String.toList_append]
    exact List.mem_append_left _ (by decide)
  split at h <;> split at h
  · have := toList_repr_injective h
    omega
  · exact absurd h hsigne
  · exact absurd h.symm hsigne
  · rw [String.toList_append, String.toList_append] at h
    have := toList_repr_injective (List.append_cancel_left h)
    omega

/-! ## Prefixes -/

/-- Up to the first slash the two texts are the same. -/
theorem prefix_slash_iff {a b : List Char} (ha : '/' ∉ a) (hb : '/' ∉ b) (s t : List Char) :
    a ++ '/' :: s <+: b ++ '/' :: t ↔ a = b ∧ s <+: t := by
  induction a generalizing b with
  | nil =>
    cases b with
    | nil => simp
    | cons c b =>
      have hc : '/' ≠ c := fun he => hb (he ▸ List.mem_cons_self)
      simp [List.cons_prefix_cons, hc]
  | cons c a ih =>
    cases b with
    | nil =>
      have hc : c ≠ '/' := fun he => ha (he ▸ List.mem_cons_self)
      simp [List.cons_prefix_cons, hc]
    | cons d b =>
      have ha' : '/' ∉ a := fun hin => ha (List.mem_cons_of_mem c hin)
      have hb' : '/' ∉ b := fun hin => hb (List.mem_cons_of_mem d hin)
      rw [List.cons_append, List.cons_append, List.cons_prefix_cons, ih ha' hb', List.cons.injEq, and_assoc]

/-- The three parts of an address. -/
theorem prefix_parts_iff {a b c d : String} (ha : '/' ∉ a.toList) (hb : '/' ∉ b.toList) (m n : Int) :
    (a ++ "/" ++ toString m ++ "/" ++ c).toList <+: (b ++ "/" ++ toString n ++ "/" ++ d).toList ↔
      a = b ∧ m = n ∧ c.toList <+: d.toList := by
  have hassoc : ∀ (x y : String) (k : Int), (x ++ "/" ++ toString k ++ "/" ++ y).toList =
      x.toList ++ '/' :: ((toString k).toList ++ '/' :: y.toList) := fun x y k => by
    simp [String.toList_append]
  rw [hassoc, hassoc, prefix_slash_iff ha hb, prefix_slash_iff (slash_not_mem m) (slash_not_mem n),
    String.toList_inj]
  constructor
  · rintro ⟨hab, hmn, hcd⟩
    exact ⟨hab, toString_injective hmn, hcd⟩
  · rintro ⟨hab, rfl, hcd⟩
    exact ⟨hab, rfl, hcd⟩

/-- The parts of an address. -/
def parts : Voie → Option (String × Int × String)
  | all => none
  | broker id => some ("users", id, "broker")
  | joueur id => some ("users", id, "room")
  | salle id => some ("room", id, "client")

theorem texte_of_parts {v : Voie} {a c : String} {n : Int} (h : v.parts = some (a, n, c)) :
    v.texte = a ++ "/" ++ toString n ++ "/" ++ c ∧ (a = "users" ∨ a = "room") := by
  have hassoc : ∀ x y : String, x ++ "/" ++ y = x ++ ("/" ++ y) := fun x y => String.append_assoc
  cases v with
  | all => cases h
  | broker id | joueur id | salle id =>
    cases h
    refine ⟨?_, by decide⟩
    rw [hassoc (_ ++ "/" ++ _)]
    rfl

theorem texte_all_ne {v : Voie} {a c : String} {n : Int} (h : v.parts = some (a, n, c)) :
    ¬ Voie.all.texte.toList <+: v.texte.toList ∧ ¬ v.texte.toList <+: Voie.all.texte.toList := by
  obtain ⟨ht, ha⟩ := texte_of_parts h
  rw [ht]
  have hall : Voie.all.texte.toList = ['a', 'l', 'l'] := rfl
  rcases ha with rfl | rfl
  · simp [hall, String.toList_append, List.cons_prefix_cons]
  · simp [hall, String.toList_append, List.cons_prefix_cons]

/-- **A subscription** takes the messages of its own channel. -/
theorem prefixe_iff (v w : Voie) : v.prend w = true ↔ v = w := by
  rw [prend, List.isPrefixOf_iff_prefix]
  cases hv : v.parts with
  | none =>
    cases v with
    | all =>
      cases hw : w.parts with
      | none =>
        cases w with
        | all => exact iff_of_true (List.prefix_refl _) rfl
        | _ => cases hw
      | some p =>
        refine iff_of_false (texte_all_ne hw).1 ?_
        rintro rfl
        cases hw
    | _ => cases hv
  | some p =>
    cases hw : w.parts with
    | none =>
      cases w with
      | all =>
        refine iff_of_false (texte_all_ne hv).2 ?_
        rintro rfl
        cases hv
      | _ => cases hw
    | some q =>
      obtain ⟨htv, hav⟩ := texte_of_parts hv
      obtain ⟨htw, haw⟩ := texte_of_parts hw
      have hslash : ∀ {a : String}, a = "users" ∨ a = "room" → '/' ∉ a.toList := by
        rintro a (rfl | rfl) <;> decide
      rw [htv, htw, prefix_parts_iff (hslash hav) (hslash haw)]
      cases v <;> cases w <;> cases hv <;> cases hw <;> simp

theorem texte_injective {v w : Voie} (h : v.texte = w.texte) : v = w := by
  refine (prefixe_iff v w).mp ?_
  rw [prend, h]
  exact List.isPrefixOf_iff_prefix.mpr (List.prefix_refl _)

end Voie
end LombricABrac
