import LombricABrac.Listener
import LombricABrac.Lib.Runs

/-!
# The buffer of a connection

`str_buffer` and `current_size_buffer` along the life of a `Listener`: any number of receptions, with
messages sent between them.  The buffer grows to the length of a message and one, and the terminator is
written one further; it shrinks without a new `current_size_buffer`.

    sain_reception : what one reception does to a buffer of its first size
    sain_of_reach  : in a run whose announced lengths are at most 126 every access is inside
    trame_de_127   : the terminator of 127 bytes; 200 bytes, then 5
-/

namespace LombricABrac

namespace Listener

/-- A reception, or a message sent. -/
inductive Echange where
  | recoit (m : Monde) (p : Prise)
  | envoie (msg : List UInt8)

/-- `envoie_msg` writes `m_packet_size` as well. -/
def etape (e : Echange) (l : Listener) : Option Listener :=
  match e with
  | .recoit m p => some (l.reception m p).2.1
  | .envoie msg => some (l.lisTaille (Requete.htonl ((Requete.cStr msg).length % 2 ^ 32)))

/-- A listener that has just been made. -/
def Neuf (l : Listener) : Prop := ∃ strBuffer packetSize, l = new strBuffer packetSize

/-- The length that a reception reads; `none` where there is no header. -/
def annonce (m : Monde) (p : Prise) (l : Listener) : Option Nat :=
  if (p.recv m.part 4).1 = [] then none else some (l.lisTaille (p.recv m.part 4).1).lenChar

/-- The announced length is two less than the first size of the buffer, or smaller. -/
def courte (e : Echange) (l : Listener) : Bool :=
  match e with
  | .recoit m p => (l.annonce m p).all fun n => decide (n + 2 ≤ initSizeBuffer)
  | .envoie _ => true

structure Sain (l : Listener) : Prop where
  taille : l.currentSizeBuffer = l.alloue
  dedans : ∀ a ∈ l.acces, a.Inside

/-- The buffer has its first size. -/
structure Petit (l : Listener) : Prop where
  alloue : l.alloue = initSizeBuffer
  current : l.currentSizeBuffer = initSizeBuffer
  dedans : ∀ a ∈ l.acces, a.Inside

theorem Petit.sain {l : Listener} (h : Petit l) : Sain l := ⟨h.current.trans h.alloue.symm, h.dedans⟩

/-! ## What the accesses are -/

theorem alloue_empile (lus : List (List UInt8)) : ∀ l : Listener, (l.empile lus).alloue = l.alloue := by
  induction lus with
  | nil => exact fun _ => rfl
  | cons x lus ih => exact fun l => ih _

theorem current_empile (lus : List (List UInt8)) : ∀ l : Listener,
    (l.empile lus).currentSizeBuffer = l.currentSizeBuffer := by
  induction lus with
  | nil => exact fun _ => rfl
  | cons x lus ih => exact fun l => ih _

theorem acces_empile (lus : List (List UInt8)) : ∀ l : Listener,
    (l.empile lus).acces = l.acces ++ lus.map fun x => ⟨0, x.length, l.alloue⟩ := by
  induction lus with
  | nil => exact fun l => (List.append_nil l.acces).symm
  | cons x lus ih =>
    intro l
    rw [empile, List.foldl_cons, ← empile, ih, List.map_cons]
    exact List.append_assoc l.acces [_] _

/-- **A reception**: nothing without a header; else the buffer is made ready, the pieces are written
over each other, and the terminator after a good end. -/
theorem reception_cases (m : Monde) (l : Listener) (p : Prise) :
    l.annonce m p = none ∧ (l.reception m p).2.1 = l ∧ (l.reception m p).1 = false ∨
      ∃ lus, l.annonce m p = some (l.lisTaille (p.recv m.part 4).1).lenChar ∧
        (∀ x ∈ lus, x.length ≤ (l.lisTaille (p.recv m.part 4).1).lenChar) ∧
        (l.reception m p).2.1 =
          if (l.reception m p).1 then
            ((l.prepare m.tas (p.recv m.part 4).1).empile lus).ecrit (l.lisTaille (p.recv m.part 4).1).lenChar1 [0]
          else (l.prepare m.tas (p.recv m.part 4).1).empile lus := by
  unfold annonce
  by_cases hnil : (p.recv m.part 4).1 = []
  · rw [if_pos hnil]
    refine Or.inl ⟨rfl, ?_⟩
    unfold reception
    simp only
    rw [if_pos hnil]
    exact ⟨rfl, rfl⟩
  · rw [if_neg hnil]
    refine Or.inr ?_
    unfold reception
    simp only
    rw [if_neg hnil]
    generalize hc : corps m.part (p.recv m.part 4).2.socket.length 0 (l.prepare m.tas (p.recv m.part 4).1)
      (p.recv m.part 4).2 = r
    obtain ⟨ok, l₁, p'⟩ := r
    obtain ⟨lus, _, rfl, hx, _⟩ := corps_spec _ hc
    rw [lenChar_prepare] at hx
    refine ⟨lus, trivial, fun x hmem => (hx x hmem).2, ?_⟩
    cases ok with
    | true =>
      simp only [if_true]
      rw [lenChar1, lenChar_empile, lenChar_prepare, ← lenChar1]
    | false => rfl

/-- The buffer that is made ready for a message, from one of the first size. -/
theorem Petit.prepare_cases {l : Listener} (h : Petit l) (tas : Nat → UInt8) (tete : List UInt8) :
    (l.lisTaille tete).lenChar1 ≤ initSizeBuffer ∧ Petit (l.prepare tas tete) ∨
      initSizeBuffer < (l.lisTaille tete).lenChar1 ∧
        (l.prepare tas tete).alloue = (l.lisTaille tete).lenChar1 := by
  unfold prepare dimensionne
  by_cases hlt : (l.lisTaille tete).currentSizeBuffer < (l.lisTaille tete).lenChar1
  · rw [if_pos hlt]
    exact Or.inr ⟨h.current ▸ hlt, rfl⟩
  · have hcur : (l.lisTaille tete).currentSizeBuffer = initSizeBuffer := h.current
    rw [if_neg hlt, if_neg fun hn => hn.2 hcur]
    refine Or.inl ⟨hcur ▸ Nat.not_lt.mp hlt, h.alloue, h.current, fun a ha => ?_⟩
    rcases List.mem_append.mp ha with ha | ha
    · exact h.dedans a ha
    · rw [List.mem_singleton.mp ha]
      refine Memory.Access.inside_of_le ?_
      show 0 + l.currentSizeBuffer ≤ l.alloue
      rw [h.current, h.alloue, Nat.zero_add]

theorem acces_ecrit (i : Nat) (bytes : List UInt8) (l : Listener) :
    (l.ecrit i bytes).acces = l.acces ++ [⟨i, bytes.length, l.alloue⟩] := rfl

theorem Petit.empile {l : Listener} (h : Petit l) {lus : List (List UInt8)}
    (hx : ∀ x ∈ lus, x.length ≤ initSizeBuffer) : Petit (l.empile lus) := by
  refine ⟨(alloue_empile lus l).trans h.alloue, (current_empile lus l).trans h.current, fun a ha => ?_⟩
  rw [acces_empile] at ha
  rcases List.mem_append.mp ha with ha | ha
  · exact h.dedans a ha
  · obtain ⟨x, hmem, rfl⟩ := List.mem_map.mp ha
    refine Memory.Access.inside_of_le ?_
    show 0 + x.length ≤ l.alloue
    rw [h.alloue, Nat.zero_add]
    exact hx x hmem

theorem Petit.ecrit {l : Listener} (h : Petit l) {i : Nat} (hi : i < initSizeBuffer) (b : UInt8) :
    Petit (l.ecrit i [b]) := by
  refine ⟨h.alloue, h.current, fun a ha => ?_⟩
  rw [acces_ecrit] at ha
  rcases List.mem_append.mp ha with ha | ha
  · exact h.dedans a ha
  · rw [List.mem_singleton.mp ha]
    refine Memory.Access.inside_of_le ?_
    show i + 1 ≤ l.alloue
    rw [h.alloue]
    exact hi

/-- **One reception**, from a buffer of the first size: a short message leaves it so; a longer one that
is received to its end is terminated past the end of the buffer. -/
theorem sain_reception {l : Listener} (h : Petit l) (m : Monde) (p : Prise) :
    (courte (.recoit m p) l = true → Petit (l.reception m p).2.1) ∧
      ((l.reception m p).1 = true → (∀ n ∈ l.annonce m p, n + 1 < 2 ^ 32) →
        (courte (.recoit m p) l = true ↔ Sain (l.reception m p).2.1)) := by
  simp only [courte]
  rcases reception_cases m l p with ⟨hnone, hl, hok⟩ | ⟨lus, hsome, hx, hl⟩
  · rw [hl, hok]
    exact ⟨fun _ => h, nofun⟩
  · rw [hsome, hl, Option.all_some, decide_eq_true_eq]
    generalize (p.recv m.part 4).1 = tete at *
    have hshort : (l.lisTaille tete).lenChar + 2 ≤ initSizeBuffer →
        Petit ((l.prepare m.tas tete).empile lus) ∧ (l.lisTaille tete).lenChar1 < initSizeBuffer := by
      intro hn
      have hinit : initSizeBuffer = 128 := rfl
      have h1 : (l.lisTaille tete).lenChar1 = (l.lisTaille tete).lenChar + 1 := lenChar1_of_lt (by omega)
      rcases h.prepare_cases m.tas tete with ⟨_, hp⟩ | ⟨hbig, _⟩
      · exact ⟨hp.empile fun x hmem => (hx x hmem).trans (by omega), by omega⟩
      · omega
    refine ⟨fun hn => ?_, fun hok hmax => ?_⟩
    · obtain ⟨hp, hlt⟩ := hshort hn
      split
      · exact hp.ecrit hlt 0
      · exact hp
    · rw [hok, if_pos rfl]
      constructor
      · intro hn
        obtain ⟨hp, hlt⟩ := hshort hn
        exact (hp.ecrit hlt 0).sain
      · intro hsain
        have h1 := lenChar1_of_lt (hmax _ rfl)
        -- the terminator
        have hin := hsain.dedans ⟨(l.lisTaille tete).lenChar1, 1, ((l.prepare m.tas tete).empile lus).alloue⟩
          (by rw [acces_ecrit]; exact List.mem_append_right _ (List.mem_singleton.mpr rfl))
        have hlt := hin.le Nat.one_pos
        simp only [alloue_empile] at hlt
        rcases h.prepare_cases m.tas tete with ⟨_, hp⟩ | ⟨_, hp⟩
        · rw [hp.alloue] at hlt
          omega
        · omega

/-! ## Runs -/

/-- **A run of short messages** keeps the buffer and its size; the first longer one that is received to
its end does not. -/
theorem sain_of_reach (l : Listener)
    (h : Runs.Reach etape (fun e l => courte e l = true) Neuf l) :
    Sain l ∧ ∀ m p, (l.reception m p).1 = true → (∀ n ∈ l.annonce m p, n + 1 < 2 ^ 32) →
      (courte (.recoit m p) l = true ↔ Sain (l.reception m p).2.1) := by
  have hpetit : Petit l := by
    refine h.invariant ?_ fun e l l' hI hok hs => ?_
    · rintro l ⟨strBuffer, packetSize, rfl⟩
      exact ⟨rfl, rfl, nofun⟩
    · cases e with
      | recoit m p =>
        cases hs
        exact (sain_reception hI m p).1 hok
      | envoie msg =>
        cases hs
        exact ⟨hI.alloue, hI.current, hI.dedans⟩
  exact ⟨hpetit.sain, fun m p => (sain_reception hpetit m p).2⟩

/-! ## Longer messages -/

/-- A frame of `n` bytes that comes whole. -/
def recoitOctets (n : Nat) : Echange :=
  .recoit ⟨fun _ => 2 ^ 32, fun _ => 0⟩ ⟨trame (List.replicate n 1), 0⟩

def listenerNeuf : Listener := new (fun _ => 0) fun _ => 0

/-- 126 bytes. -/
theorem trame_de_126 : ∃ l, Runs.exec etape (fun e l => courte e l = true) [recoitOctets 126] listenerNeuf = some l ∧
    l.acces = [⟨0, 128, 128⟩, ⟨0, 126, 128⟩, ⟨127, 1, 128⟩] ∧ Sain l := by
  obtain ⟨l, hl, hr, hp⟩ := Runs.exists_of_exec etape (fun e l => courte e l = true)
    (show Neuf listenerNeuf from ⟨_, _, rfl⟩) [recoitOctets 126]
    (fun l => l.acces == [⟨0, 128, 128⟩, ⟨0, 126, 128⟩, ⟨127, 1, 128⟩]) (by decide +kernel)
  exact ⟨l, hl, beq_iff_eq.mp hp, (sain_of_reach l hr).1⟩

/-- The terminator of 127 bytes is written past the end; 200 bytes and then 5 leave a size of 201 for a
buffer of 128. -/
theorem trame_de_127 :
    (∃ l, Runs.Reach etape (fun _ _ => True) Neuf l ∧
      l.acces = [⟨0, 128, 128⟩, ⟨0, 127, 128⟩, ⟨128, 1, 128⟩] ∧ ¬ Sain l) ∧
    ∃ l, Runs.Reach etape (fun _ _ => True) Neuf l ∧ l.currentSizeBuffer = 201 ∧ l.alloue = 128 ∧
      ¬ Sain l := by
  have hneuf : Neuf listenerNeuf := ⟨_, _, rfl⟩
  obtain ⟨l, _, hr, hp⟩ := Runs.exists_of_exec etape (fun _ _ => True) hneuf [recoitOctets 127]
    (fun l => l.acces == [⟨0, 128, 128⟩, ⟨0, 127, 128⟩, ⟨128, 1, 128⟩]) (by decide +kernel)
  obtain ⟨l₂, _, hr₂, hp₂⟩ := Runs.exists_of_exec etape (fun _ _ => True) hneuf
    [recoitOctets 200, recoitOctets 5] (fun l => l.currentSizeBuffer == 201 && l.alloue == 128)
    (by decide +kernel)
  have ha := beq_iff_eq.mp hp
  simp only [Bool.and_eq_true, beq_iff_eq] at hp₂
  refine ⟨⟨l, hr, ha, fun hs => ?_⟩, l₂, hr₂, hp₂.1, hp₂.2, fun hs => ?_⟩
  · have hin := hs.dedans ⟨128, 1, 128⟩ (by rw [ha]; decide)
    exact absurd (hin.le Nat.one_pos) (by decide)
  · have := hs.taille
    rw [hp₂.1, hp₂.2] at this
    exact absurd this (by decide)

end Listener
end LombricABrac
