import Mathlib.Data.List.TakeWhile

/-!
# The literals of a request

The text of an SQL request is cut into single-quoted literals and the characters between them.  In a
literal a quote is written twice.  `write` puts the tokens back into a text, `splice` copies the value of
a literal between two quotes as it is.

    write_of_lex    : a text that is cut is the text of its tokens
    lex_write       : tokens that are written are read back
    read_splice_iff : tokens that are spliced are read back exactly where no value has a quote or a null
-/

namespace Sql

inductive Token where
  | lit (s : List Char)
  | char (c : Char)
  deriving DecidableEq

/-- Between the literals, in one, or just after a quote that may close it or be the first of two. -/
inductive Mode where
  | code
  | lit (s : List Char)
  | quote (s : List Char)

/-- `none`: a literal is not closed. -/
def lex : Mode → List Char → Option (List Token)
  | .code, [] => some []
  | .code, c :: cs => if c = '\'' then lex (.lit []) cs else (lex .code cs).map (.char c :: ·)
  | .lit _, [] => none
  | .lit s, c :: cs => if c = '\'' then lex (.quote s) cs else lex (.lit (s ++ [c])) cs
  | .quote s, [] => some [.lit s]
  | .quote s, c :: cs =>
    if c = '\'' then lex (.lit (s ++ ['\''])) cs
    else (lex .code cs).map fun ts => .lit s :: .char c :: ts

/-- The text of a C string, up to its null. -/
def read (text : List Char) : Option (List Token) := lex .code (text.takeWhile fun c => c ≠ '\x00')

def escape (s : List Char) : List Char := s.flatMap fun c => if c = '\'' then ['\'', '\''] else [c]

namespace Token

def write : Token → List Char
  | .lit s => '\'' :: escape s ++ ['\'']
  | .char c => [c]

def splice : Token → List Char
  | .lit s => '\'' :: s ++ ['\'']
  | .char c => [c]

end Token

/-- No quote outside of the literals, and no two literals side by side. -/
def Wf : List Token → Prop
  | [] => True
  | .char c :: ts => c ≠ '\'' ∧ Wf ts
  | [.lit _] => True
  | .lit _ :: .char c :: ts => c ≠ '\'' ∧ Wf ts
  | .lit _ :: .lit _ :: _ => False

/-! ## Escaping -/

theorem escape_of_not_mem {s : List Char} (h : '\'' ∉ s) : escape s = s := by
  induction s with
  | nil => rfl
  | cons c s ih =>
    have hc : c ≠ '\'' := fun he => h (he ▸ List.mem_cons_self)
    have hs := ih fun hs => h (List.mem_cons_of_mem c hs)
    rw [escape, List.flatMap_cons, if_neg hc, ← escape, hs]
    rfl

theorem length_escape (s : List Char) : (escape s).length = s.length + s.count '\'' := by
  induction s with
  | nil => rfl
  | cons c s ih =>
    rw [escape, List.flatMap_cons, List.length_append, ← escape, ih, List.count_cons]
    by_cases hc : c = '\''
    · simp only [hc, if_true, List.length_cons, List.length_nil, beq_self_eq_true]
      omega
    · simp only [hc, if_false, List.length_cons, List.length_nil, beq_iff_eq]
      omega

/-! ## Cutting and writing -/

/-- What the mode has read of a token that is not complete. -/
def Mode.before : Mode → List Char
  | .code => []
  | .lit s => '\'' :: escape s
  | .quote s => '\'' :: escape s ++ ['\'']

/-- **The tokens lose nothing of the text.** -/
theorem write_of_lex (cs : List Char) : ∀ {m : Mode} {ts : List Token}, lex m cs = some ts →
    ts.flatMap Token.write = m.before ++ cs := by
  induction cs with
  | nil =>
    intro m ts h
    cases m with
    | code => cases h; rfl
    | lit s => cases h
    | quote s =>
      cases h
      simp [Token.write, Mode.before]
  | cons c cs ih =>
    intro m ts h
    cases m with
    | code =>
      rw [lex] at h
      split at h
      · next hc =>
        rw [ih h, hc]
        rfl
      · obtain ⟨ts, hts, rfl⟩ := Option.map_eq_some_iff.mp h
        rw [List.flatMap_cons, ih hts]
        rfl
    | lit s =>
      rw [lex] at h
      split at h
      · next hc =>
        rw [ih h, hc]
        simp [Mode.before]
      · next hc =>
        rw [ih h]
        simp [Mode.before, escape, hc]
    | quote s =>
      rw [lex] at h
      split at h
      · next hc =>
        rw [ih h, hc]
        simp [Mode.before, escape]
      · obtain ⟨ts, hts, rfl⟩ := Option.map_eq_some_iff.mp h
        rw [List.flatMap_cons, List.flatMap_cons, ih hts]
        simp [Token.write, Mode.before]

theorem lex_lit_escape (s rest : List Char) : ∀ acc : List Char,
    lex (.lit acc) (escape s ++ rest) = lex (.lit (acc ++ s)) rest := by
  induction s with
  | nil => intro acc; rw [List.append_nil]; rfl
  | cons c s ih =>
    intro acc
    rw [escape, List.flatMap_cons, ← escape, List.append_assoc]
    have hassoc : acc ++ c :: s = acc ++ [c] ++ s := by simp
    by_cases hc : c = '\''
    · rw [if_pos hc, hassoc, ← ih, hc]
      rfl
    · rw [if_neg hc, hassoc, ← ih, List.singleton_append, lex, if_neg hc]

/-- **What is written is read back.** -/
theorem lex_write {ts : List Token} (h : Wf ts) : lex .code (ts.flatMap Token.write) = some ts := by
  induction ts using Wf.induct with
  | case1 => rfl
  | case2 c ts ih =>
    rw [List.flatMap_cons, Token.write, List.singleton_append, lex, if_neg h.1, ih h.2]
    rfl
  | case3 s =>
    rw [List.flatMap_singleton, Token.write, List.cons_append, lex, if_pos rfl, lex_lit_escape]
    rfl
  | case4 s c ts ih =>
    rw [List.flatMap_cons, List.flatMap_cons, Token.write, Token.write, List.cons_append, List.cons_append,
      lex, if_pos rfl, List.append_assoc, lex_lit_escape]
    show lex (.quote s) (c :: ts.flatMap Token.write) = _
    rw [lex, if_neg h.1, ih h.2]
    rfl
  | case5 s s' ts => exact h.elim

/-! ## Splicing -/

theorem splice_eq_write {t : Token} (h : ∀ s, t = .lit s → '\'' ∉ s) : t.splice = t.write := by
  cases t with
  | lit s => rw [Token.splice, Token.write, escape_of_not_mem (h s rfl)]
  | char c => rfl

/-- Writing never takes less than splicing, and more where a value has a quote. -/
theorem length_splice_le (ts : List Token) :
    (ts.flatMap Token.splice).length ≤ (ts.flatMap Token.write).length ∧
      ((ts.flatMap Token.write).length ≤ (ts.flatMap Token.splice).length →
        ∀ s, Token.lit s ∈ ts → '\'' ∉ s) := by
  induction ts with
  | nil => exact ⟨le_rfl, fun _ _ h => absurd h List.not_mem_nil⟩
  | cons t ts ih =>
    obtain ⟨hle, hmem⟩ := ih
    rw [List.flatMap_cons, List.flatMap_cons, List.length_append, List.length_append]
    cases t with
    | lit s =>
      have hs : (Token.lit s).write.length = (Token.lit s).splice.length + s.count '\'' := by
        simp only [Token.write, Token.splice, List.cons_append, List.length_cons, List.length_append,
          length_escape, List.length_nil]
        omega
      refine ⟨by omega, fun hge s' hs' => ?_⟩
      rcases List.mem_cons.mp hs' with he | hs'
      · cases he
        exact List.count_eq_zero.mp (by omega)
      · exact hmem (by omega) s' hs'
    | char c =>
      have hc : (Token.char c).write.length = (Token.char c).splice.length := rfl
      refine ⟨by omega, fun hge s' hs' => ?_⟩
      exact hmem (by omega) s' ((List.mem_cons.mp hs').resolve_left nofun)

/-- Without a null the text is read to its end. -/
theorem takeWhile_splice {ts : List Token} (hc : ∀ c, Token.char c ∈ ts → c ≠ '\x00')
    (hs : ∀ s, Token.lit s ∈ ts → '\x00' ∉ s) :
    (ts.flatMap Token.splice).takeWhile (fun c => c ≠ '\x00') = ts.flatMap Token.splice := by
  rw [List.takeWhile_eq_self_iff]
  intro c hmem
  obtain ⟨t, ht, hct⟩ := List.mem_flatMap.mp hmem
  rw [decide_eq_true_eq]
  rintro rfl
  cases t with
  | lit s =>
    have hct : '\x00' ∈ '\'' :: s ++ ['\''] := hct
    simp only [List.cons_append, List.mem_cons, List.mem_append, List.not_mem_nil, or_false] at hct
    rcases hct with h | h | h
    · exact absurd h (by decide)
    · exact hs s ht h
    · exact absurd h (by decide)
  | char c => exact hc c ht (List.mem_singleton.mp hct).symm

/-- **A request of spliced values is read as it is meant** exactly where no value has a quote or a
null. -/
theorem read_splice_iff {ts : List Token} (h : Wf ts) (hc : ∀ c, Token.char c ∈ ts → c ≠ '\x00') :
    read (ts.flatMap Token.splice) = some ts ↔ ∀ s, Token.lit s ∈ ts → '\'' ∉ s ∧ '\x00' ∉ s := by
  unfold read
  constructor
  · intro hr
    have hw : ts.flatMap Token.write = (ts.flatMap Token.splice).takeWhile fun c => c ≠ '\x00' :=
      write_of_lex _ hr
    have hpre : (ts.flatMap Token.splice).takeWhile (fun c => c ≠ '\x00') <+: ts.flatMap Token.splice :=
      List.takeWhile_prefix _
    obtain ⟨hle, hquote⟩ := length_splice_le ts
    rw [hw] at hle hquote
    have heq := hpre.eq_of_length_le hle
    intro s hs
    refine ⟨hquote hpre.length_le s hs, fun h0 => ?_⟩
    have hmem : '\x00' ∈ ts.flatMap Token.splice :=
      List.mem_flatMap.mpr ⟨.lit s, hs, List.mem_cons_of_mem _ (List.mem_append_left _ h0)⟩
    rw [← heq] at hmem
    simpa using List.mem_takeWhile_imp hmem
  · intro hs
    rw [takeWhile_splice hc fun s hmem => (hs s hmem).2]
    have hmap : ts.flatMap Token.splice = ts.flatMap Token.write := by
      rw [List.flatMap_def, List.flatMap_def]
      congr 1
      apply List.map_congr_left
      intro t ht
      apply splice_eq_write
      rintro s rfl
      exact (hs s ht).1
    rw [hmap]
    exact lex_write h

end Sql
