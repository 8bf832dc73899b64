import LombricABrac.Lib.Memory
import LombricABrac.Requests

/-!
# The socket of a connection

The class `Listener` of `Server/src/listener.cpp`.  Each `recv` and each `send` moves a part of what it
is asked for, one byte at least.  The buffer is memory from its first byte on, with the length that was
allocated; what is written past that length is written all the same, and each access is noted.

    corps_spec       : what the loop of `reception` reads, and where it writes it
    recoitJuste_iff  : a frame is read whole where the first calls move all that they ask for
    envoieJuste_iff  : so is a message sent
    enDeuxFois_perdu : a payload of two bytes, received and sent one by one
-/

namespace LombricABrac

/-! ## The transport -/

/-- How many bytes each call may move, and what new memory holds. -/
structure Monde where
  part : Nat → Nat
  tas : Nat → UInt8

/-- What one call moves of `n` bytes. -/
def morceau (voulu n : Nat) : Nat := max 1 (min n voulu)

theorem morceau_pos (voulu n : Nat) : 0 < morceau voulu n := by
  unfold morceau
  omega

theorem morceau_le {n : Nat} (hn : 0 < n) (voulu : Nat) : morceau voulu n ≤ n := by
  unfold morceau
  omega

/-- `m_res == -1`: the number of bytes moved is kept in an `int`. -/
def moinsUn (n : Nat) : Bool := n == 2 ^ 32 - 1

/-- The bytes of the peer that are not read yet, and the number of calls. -/
structure Prise where
  socket : List UInt8
  appels : Nat

/-- `recv(sockfd, _, n, 0)`: nothing where the peer has closed. -/
def Prise.recv (part : Nat → Nat) (n : Nat) (p : Prise) : List UInt8 × Prise :=
  (p.socket.take (morceau (part p.appels) n), ⟨p.socket.drop (morceau (part p.appels) n), p.appels + 1⟩)

/-! ## Reception -/

/-- `INIT_SIZE_BUFFER`. -/
def initSizeBuffer : Nat := 128

/-- `packetSize` has the four bytes of `m_packet_size`. -/
structure Listener where
  strBuffer : Nat → UInt8
  alloue : Nat
  currentSizeBuffer : Nat
  packetSize : Fin 4 → UInt8
  acces : List Memory.Access

namespace Listener

/-- The constructor, over what the memory held. -/
def new (strBuffer : Nat → UInt8) (packetSize : Fin 4 → UInt8) : Listener :=
  ⟨strBuffer, initSizeBuffer, initSizeBuffer, packetSize, []⟩

/-- The first byte is the most significant. -/
def ntohl (b : Fin 4 → UInt8) : Nat := (List.ofFn b).foldl (fun n x => n * 256 + x.toNat) 0

theorem ntohl_eq_sum (b : Fin 4 → UInt8) :
    ntohl b = (b 0).toNat * 2 ^ 24 + (b 1).toNat * 2 ^ 16 + (b 2).toNat * 2 ^ 8 + (b 3).toNat := by
  have hb : List.ofFn b = [b 0, b 1, b 2, b 3] := by
    simp only [List.ofFn_succ, List.ofFn_zero]
    rfl
  rw [ntohl, hb]
  simp only [List.foldl_cons, List.foldl_nil]
  omega

theorem ntohl_lt (b : Fin 4 → UInt8) : ntohl b < 2 ^ 32 := by
  have h0 := (b 0).toNat_lt
  have h1 := (b 1).toNat_lt
  have h2 := (b 2).toNat_lt
  have h3 := (b 3).toNat_lt
  rw [ntohl_eq_sum]
  omega

/-- `m_len_char`. -/
def lenChar (l : Listener) : Nat := ntohl l.packetSize

/-- `m_len_char+1`, on 32 bits. -/
def lenChar1 (l : Listener) : Nat := (l.lenChar + 1) % 2 ^ 32

def ecrit (i : Nat) (bytes : List UInt8) (l : Listener) : Listener :=
  { l with
    strBuffer := Memory.write l.strBuffer i bytes
    acces := l.acces ++ [⟨i, bytes.length, l.alloue⟩] }

/-- `bzero(str_buffer, current_size_buffer)`. -/
def bzero (l : Listener) : Listener :=
  { l with
    strBuffer := Memory.clear l.strBuffer l.currentSizeBuffer
    acces := l.acces ++ [⟨0, l.currentSizeBuffer, l.alloue⟩] }

/-- The buffer for a message: the second branch does not write `current_size_buffer`. -/
def dimensionne (tas : Nat → UInt8) (l : Listener) : Listener :=
  if l.currentSizeBuffer < l.lenChar1 then
    { l with strBuffer := tas, alloue := l.lenChar1, currentSizeBuffer := l.lenChar1 }
  else if l.lenChar1 < initSizeBuffer ∧ l.currentSizeBuffer ≠ initSizeBuffer then
    { l with strBuffer := tas, alloue := initSizeBuffer }
  else l

/-- The bytes of the header, over those that were there. -/
def lisTaille (tete : List UInt8) (l : Listener) : Listener :=
  { l with packetSize := fun i => (tete[i.val]?).getD (l.packetSize i) }

/-- The loop: each pass asks for the whole length and writes at the start of the buffer.  A pass takes a
byte at least, so that the bytes of the socket bound their number. -/
def corps (part : Nat → Nat) : Nat → Nat → Listener → Prise → Bool × Listener × Prise
  | 0, recu, l, p => (!decide (recu % 2 ^ 32 < l.lenChar), l, p)
  | n + 1, recu, l, p =>
    if recu % 2 ^ 32 < l.lenChar then
      let (lus, p) := p.recv part l.lenChar
      if lus = [] then (false, l, p)
      else if moinsUn lus.length then (false, l.ecrit 0 lus, p)
      else corps part n (recu + lus.length) (l.ecrit 0 lus) p
    else (true, l, p)

/-- The buffer once the header is read. -/
def prepare (tas : Nat → UInt8) (tete : List UInt8) (l : Listener) : Listener :=
  ((l.lisTaille tete).dimensionne tas).bzero

def reception (m : Monde) (l : Listener) (p : Prise) : Bool × Listener × Prise :=
  let (tete, p) := p.recv m.part 4
  if tete = [] then (false, l, p)
  else
    let (ok, l, p) := corps m.part p.socket.length 0 (l.prepare m.tas tete) p
    if ok then (true, l.ecrit l.lenChar1 [0], p) else (false, l, p)

/-! ### The loop -/

variable {part : Nat → Nat} {l : Listener} {p : Prise}

/-- The pieces that were read, one over the other. -/
def empile (l : Listener) (lus : List (List UInt8)) : Listener := lus.foldl (fun l x => l.ecrit 0 x) l

theorem strBuffer_ecrit (i : Nat) (bytes : List UInt8) (l : Listener) :
    (l.ecrit i bytes).strBuffer = Memory.write l.strBuffer i bytes := rfl

theorem lenChar_ecrit (i : Nat) (bytes : List UInt8) (l : Listener) :
    (l.ecrit i bytes).lenChar = l.lenChar :=
  congrArg ntohl (show (l.ecrit i bytes).packetSize = l.packetSize from rfl)

theorem packetSize_empile (lus : List (List UInt8)) : ∀ l : Listener,
    (l.empile lus).packetSize = l.packetSize := by
  induction lus with
  | nil => exact fun _ => rfl
  | cons x lus ih => exact fun l => ih _

theorem lenChar_empile (l : Listener) (lus : List (List UInt8)) : (l.empile lus).lenChar = l.lenChar :=
  congrArg ntohl (packetSize_empile lus l)

/-- Past the pieces nothing changes. -/
theorem strBuffer_empile {a : Nat} {lus : List (List UInt8)} : ∀ {l : Listener},
    (∀ x ∈ lus, x.length ≤ a) → (l.empile lus).strBuffer a = l.strBuffer a := by
  induction lus with
  | nil => exact fun _ => rfl
  | cons x lus ih =>
    intro l h
    have hx : 0 + x.length ≤ a := (Nat.zero_add _).trans_le (h x List.mem_cons_self)
    rw [empile, List.foldl_cons, ← empile, ih fun y hy => h y (List.mem_cons_of_mem x hy)]
    exact Memory.write_of_le hx

theorem atteint {recu len : Nat} (h : ¬ recu % 2 ^ 32 < len) : len ≤ recu + 0 :=
  (Nat.not_lt.mp h).trans (Nat.mod_le recu (2 ^ 32))

/-- **The loop**: what it takes off the socket is what it writes; it ends well when the length is
reached. -/
theorem corps_spec (n : Nat) : ∀ {recu : Nat} {l : Listener} {p : Prise} {ok : Bool} {l' : Listener}
    {p' : Prise}, corps part n recu l p = (ok, l', p') →
      ∃ lus : List (List UInt8), p.socket = lus.flatten ++ p'.socket ∧ l' = l.empile lus ∧
        (∀ x ∈ lus, 0 < x.length ∧ x.length ≤ l.lenChar) ∧
        (ok = true → l.lenChar ≤ recu + lus.flatten.length) := by
  induction n with
  | zero =>
    intro recu l p ok l' p' h
    cases h
    refine ⟨[], rfl, rfl, nofun, fun hok => ?_⟩
    have hle : ¬ recu % 2 ^ 32 < l.lenChar := of_decide_eq_false ((Bool.not_eq_true' _).mp hok)
    exact atteint hle
  | succ n ih =>
    intro recu l p ok l' p' h
    rw [corps] at h
    split at h
    · next hlt =>
      have hpiece : ∀ x ∈ [(p.recv part l.lenChar).1], x.length ≤ l.lenChar := by
        intro x hx
        rw [List.mem_singleton.mp hx]
        have hk := morceau_le (show 0 < l.lenChar by omega) (part p.appels)
        exact (List.length_take_le _ _).trans hk
      have hsocket : p.socket = (p.recv part l.lenChar).1 ++ (p.recv part l.lenChar).2.socket :=
        (List.take_append_drop _ _).symm
      simp only at h
      split at h
      · cases h
        refine ⟨[], ?_, rfl, nofun, nofun⟩
        next hnil =>
        rw [hnil] at hsocket
        exact hsocket
      · next hne =>
        have hpos : 0 < (p.recv part l.lenChar).1.length := List.length_pos_of_ne_nil hne
        split at h
        · cases h
          refine ⟨[(p.recv part l.lenChar).1], ?_, rfl, fun x hx => ⟨?_, hpiece x hx⟩, nofun⟩
          · rw [List.flatten_singleton]
            exact hsocket
          · rw [List.mem_singleton.mp hx]
            exact hpos
        · obtain ⟨lus, hs, he, hx, hok⟩ := ih h
          rw [lenChar_ecrit] at hx hok
          refine ⟨(p.recv part l.lenChar).1 :: lus, ?_, he, ?_, fun ht => ?_⟩
          · rw [List.flatten_cons, List.append_assoc, ← hs]
            exact hsocket
          · intro x hmem
            rcases List.mem_cons.mp hmem with rfl | hmem
            · exact ⟨hpos, hpiece _ (List.mem_singleton.mpr rfl)⟩
            · exact hx x hmem
          · have := hok ht
            rw [List.flatten_cons, List.length_append]
            exact this.trans (by omega)
    · next hle =>
      cases h
      exact ⟨[], rfl, rfl, nofun, fun _ => atteint hle⟩

theorem corps_fini (n : Nat) {recu : Nat} (h : ¬ recu % 2 ^ 32 < l.lenChar) :
    corps part n recu l p = (true, l, p) := by
  cases n with
  | zero => rw [corps, decide_eq_false h, Bool.not_false]
  | succ n => rw [corps, if_neg h]

theorem corps_pos (n : Nat) {recu : Nat} (h : recu % 2 ^ 32 < l.lenChar) :
    corps part (n + 1) recu l p =
      if (p.recv part l.lenChar).1 = [] then (false, l, (p.recv part l.lenChar).2)
      else if moinsUn (p.recv part l.lenChar).1.length then
        (false, l.ecrit 0 (p.recv part l.lenChar).1, (p.recv part l.lenChar).2)
      else corps part n (recu + (p.recv part l.lenChar).1.length) (l.ecrit 0 (p.recv part l.lenChar).1)
        (p.recv part l.lenChar).2 := by
  rw [corps, if_pos h]

/-- A pass of a loop that ends well. -/
theorem corps_succ {n recu : Nat} {l' : Listener} {p' : Prise} (hlt : recu % 2 ^ 32 < l.lenChar)
    (h : corps part (n + 1) recu l p = (true, l', p')) :
    corps part n (recu + (p.recv part l.lenChar).1.length) (l.ecrit 0 (p.recv part l.lenChar).1)
      (p.recv part l.lenChar).2 = (true, l', p') := by
  rw [corps_pos n hlt] at h
  split at h
  · cases h
  · split at h
    · cases h
    · exact h

/-! ### A call -/

theorem packetSize_dimensionne (tas : Nat → UInt8) (l : Listener) :
    (l.dimensionne tas).packetSize = l.packetSize := by
  unfold dimensionne
  split
  · rfl
  · split
    · rfl
    · rfl

theorem packetSize_bzero (l : Listener) : l.bzero.packetSize = l.packetSize := rfl

theorem packetSize_prepare (tas : Nat → UInt8) (tete : List UInt8) (l : Listener) :
    (l.prepare tas tete).packetSize = (l.lisTaille tete).packetSize := by
  rw [prepare, packetSize_bzero, packetSize_dimensionne]

theorem lenChar_prepare (tas : Nat → UInt8) (tete : List UInt8) (l : Listener) :
    (l.prepare tas tete).lenChar = (l.lisTaille tete).lenChar := by
  rw [lenChar, packetSize_prepare, ← lenChar]

theorem lenChar1_le (tas : Nat → UInt8) (l : Listener) :
    l.lenChar1 ≤ (l.dimensionne tas).currentSizeBuffer := by
  unfold dimensionne
  split
  · exact Nat.le_refl _
  · next h =>
    split
    · exact Nat.not_lt.mp h
    · exact Nat.not_lt.mp h

theorem lenChar1_of_lt {l : Listener} (h : l.lenChar + 1 < 2 ^ 32) : l.lenChar1 = l.lenChar + 1 :=
  Nat.mod_eq_of_lt h

/-- The buffer is cleared up to the end of the message. -/
theorem strBuffer_prepare {tas : Nat → UInt8} {tete : List UInt8}
    (h : (l.lisTaille tete).lenChar + 1 < 2 ^ 32) {a : Nat} (ha : a ≤ (l.lisTaille tete).lenChar) :
    (l.prepare tas tete).strBuffer a = 0 := by
  have hle := lenChar1_le tas (l.lisTaille tete)
  rw [lenChar1_of_lt h] at hle
  exact Memory.clear_of_lt (by omega)

theorem reception_spec {m : Monde} {l' : Listener} {p' : Prise} (h : reception m l p = (true, l', p')) :
    ∃ l₁, corps m.part (p.recv m.part 4).2.socket.length 0 (l.prepare m.tas (p.recv m.part 4).1)
        (p.recv m.part 4).2 = (true, l₁, p') ∧ l' = l₁.ecrit l₁.lenChar1 [0] := by
  unfold reception at h
  simp only at h
  split at h
  · cases h
  · generalize corps m.part _ _ _ _ = r at h ⊢
    obtain ⟨ok, l₁, p₁⟩ := r
    simp only at h
    split at h
    · next hok =>
      obtain ⟨hl, hp⟩ := Prod.mk.inj (Prod.mk.inj h).2
      exact ⟨l₁, by rw [hok, hp], hl.symm⟩
    · cases h

/-- The length is not written again. -/
theorem lenChar_reception {m : Monde} {l' : Listener} {p' : Prise} (h : reception m l p = (true, l', p')) :
    l'.lenChar = (l.lisTaille (p.recv m.part 4).1).lenChar := by
  obtain ⟨l₁, hc, rfl⟩ := reception_spec h
  obtain ⟨lus, -, rfl, -, -⟩ := corps_spec _ hc
  rw [lenChar_ecrit, lenChar_empile, lenChar_prepare]

/-- **What ends well** takes the header and the length it says, at least; the string in the buffer is no
longer than that. -/
theorem reception_true {m : Monde} {l' : Listener} {p' : Prise} {s : List UInt8}
    (h : reception m l p = (true, l', p')) (hs : Memory.CString l'.strBuffer s) :
    (l.lisTaille (p.recv m.part 4).1).lenChar + (p.recv m.part 4).1.length + p'.socket.length ≤
        p.socket.length ∧
      s.length ≤ (l.lisTaille (p.recv m.part 4).1).lenChar ∧
      ((l.lisTaille (p.recv m.part 4).1).lenChar + 1 = 2 ^ 32 → s = []) := by
  obtain ⟨l₁, hc, rfl⟩ := reception_spec h
  have hsocket : p.socket = (p.recv m.part 4).1 ++ (p.recv m.part 4).2.socket :=
    (List.take_append_drop _ _).symm
  have hprepare := lenChar_prepare m.tas (p.recv m.part 4).1 l
  have hzero := fun h {a} => @strBuffer_prepare l m.tas (p.recv m.part 4).1 h a
  generalize (p.recv m.part 4).1 = tete at *
  generalize (p.recv m.part 4).2 = q at *
  obtain ⟨lus, hq, rfl, hx, hok⟩ := corps_spec _ hc
  rw [hprepare] at hx hok
  have hlen : ((l.prepare m.tas tete).empile lus).lenChar = (l.lisTaille tete).lenChar := by
    rw [lenChar_empile, hprepare]
  have htotal := congrArg List.length hsocket
  have hreste := congrArg List.length hq
  rw [List.length_append] at htotal hreste
  have hread := hok rfl
  rw [strBuffer_ecrit] at hs
  have hlt32 : (l.lisTaille tete).lenChar < 2 ^ 32 := ntohl_lt _
  by_cases hlt : (l.lisTaille tete).lenChar + 1 < 2 ^ 32
  · refine ⟨by omega, hs.length_le ?_, fun hmax => by omega⟩
    -- the byte after the last one is clear
    rw [lenChar1, hlen, Nat.mod_eq_of_lt hlt, Memory.write_of_lt (Nat.lt_succ_self _),
      strBuffer_empile fun x hmem => (hx x hmem).2]
    exact hzero hlt (Nat.le_refl _)
  · have hmax : (l.lisTaille tete).lenChar + 1 = 2 ^ 32 := by omega
    have h0 : s.length ≤ 0 := by
      refine hs.length_le ?_
      rw [lenChar1, hlen, hmax, Nat.mod_self]
      rfl
    exact ⟨by omega, by omega, fun _ => List.eq_nil_of_length_eq_zero (Nat.le_zero.mp h0)⟩

/-! ### Frames -/

/-- The length of the payload, then the payload. -/
def trame (payload : List UInt8) : List UInt8 := Requete.htonl payload.length ++ payload

/-- Whatever the listener held and whatever follows the frame, a call ends well, leaves the payload in
the buffer and what follows on the socket. -/
def RecoitJuste (m : Monde) (payload : List UInt8) : Prop := ∀ (l : Listener) (suite : List UInt8),
  ∃ l' p', l.reception m ⟨trame payload ++ suite, 0⟩ = (true, l', p') ∧
    Memory.CString l'.strBuffer payload ∧ p'.socket = suite

/-- The `i`-th call moves all the `n` bytes that it is asked for. -/
def Entiere (part : Nat → Nat) (i n : Nat) : Prop := morceau (part i) n = n

instance (part : Nat → Nat) (i n : Nat) : Decidable (Entiere part i n) := inferInstanceAs (Decidable (_ = _))

theorem recv_trame (part : Nat → Nat) (payload suite : List UInt8) :
    Prise.recv part 4 ⟨trame payload ++ suite, 0⟩ =
      ((Requete.htonl payload.length).take (morceau (part 0) 4),
        ⟨(Requete.htonl payload.length).drop (morceau (part 0) 4) ++ (payload ++ suite), 1⟩) := by
  have hk : morceau (part 0) 4 ≤ (Requete.htonl payload.length).length := morceau_le (by decide) _
  rw [Prise.recv, trame, List.append_assoc]
  simp only [List.take_append_of_le_length hk, List.drop_append_of_le_length hk]

theorem ntohl_eq {b : Fin 4 → UInt8} {b0 b1 b2 b3 : UInt8} (h0 : b 0 = b0) (h1 : b 1 = b1) (h2 : b 2 = b2)
    (h3 : b 3 = b3) :
    ntohl b = b0.toNat * 2 ^ 24 + b1.toNat * 2 ^ 16 + b2.toNat * 2 ^ 8 + b3.toNat := by
  rw [ntohl_eq_sum, h0, h1, h2, h3]

/-- The first byte of the header is always read. -/
theorem lenChar_take {n k : Nat} (hk : 0 < k) {l : Listener} (b1 b2 b3 : UInt8)
    (h1 : (l.lisTaille ((Requete.htonl n).take k)).packetSize 1 = b1)
    (h2 : (l.lisTaille ((Requete.htonl n).take k)).packetSize 2 = b2)
    (h3 : (l.lisTaille ((Requete.htonl n).take k)).packetSize 3 = b3) :
    (l.lisTaille ((Requete.htonl n).take k)).lenChar =
      n / 2 ^ 24 % 256 * 2 ^ 24 + b1.toNat * 2 ^ 16 + b2.toNat * 2 ^ 8 + b3.toNat := by
  obtain ⟨k', rfl⟩ := Nat.exists_eq_succ_of_ne_zero (Nat.pos_iff_ne_zero.mp hk)
  rw [← Requete.toNat_ofNat]
  exact ntohl_eq rfl h1 h2 h3

theorem lenChar_lisTaille (n : Nat) (l : Listener) :
    (l.lisTaille (Requete.htonl n)).lenChar = n % 2 ^ 32 := by
  have h := lenChar_take (k := 4) (l := l) (by decide) (.ofNat (n / 2 ^ 16)) (.ofNat (n / 2 ^ 8)) (.ofNat n)
    rfl rfl rfl
  rw [List.take_of_length_le (Nat.le_refl 4), Requete.toNat_ofNat, Requete.toNat_ofNat,
    Requete.toNat_ofNat] at h
  rw [h]
  omega

/-- A header of which a part is missing, over zeros and over ones. -/
theorem lenChar_coupe (n : Nat) {k : Nat} (h0 : 0 < k) (h4 : k < 4) (m : Nat → UInt8) :
    ((new m fun _ => 0).lisTaille ((Requete.htonl n).take k)).lenChar ≤ n % 2 ^ 32 ∧
      ((new m fun _ => 0).lisTaille ((Requete.htonl n).take k)).lenChar + 255 ≤
        ((new m fun _ => 255).lisTaille ((Requete.htonl n).take k)).lenChar := by
  have h255 : (255 : UInt8).toNat = 255 := rfl
  have hz : (0 : UInt8).toNat = 0 := rfl
  have h2 := Requete.toNat_ofNat (n / 2 ^ 16)
  have h3 := Requete.toNat_ofNat (n / 2 ^ 8)
  have hlen := fun v => lenChar_take (n := n) (l := new m fun _ => v) h0
  have hk : k = 1 ∨ k = 2 ∨ k = 3 := by omega
  rcases hk with rfl | rfl | rfl
  · rw [hlen 0 0 0 0 rfl rfl rfl, hlen 255 255 255 255 rfl rfl rfl]
    omega
  · rw [hlen 0 (.ofNat (n / 2 ^ 16)) 0 0 rfl rfl rfl, hlen 255 (.ofNat (n / 2 ^ 16)) 255 255 rfl rfl rfl]
    omega
  · rw [hlen 0 (.ofNat (n / 2 ^ 16)) (.ofNat (n / 2 ^ 8)) 0 rfl rfl rfl,
      hlen 255 (.ofNat (n / 2 ^ 16)) (.ofNat (n / 2 ^ 8)) 255 rfl rfl rfl]
    omega

/-! ### What a call needs -/

section

variable {m : Monde} {payload : List UInt8}

/-- A part of the header is enough only by chance, and the payload has to be as long as it says. -/
theorem RecoitJuste.entete (h : RecoitJuste m payload) :
    Entiere m.part 0 4 ∧ payload.length + 1 < 2 ^ 32 := by
  have hread : ∀ l : Listener,
      (l.lisTaille ((Requete.htonl payload.length).take (morceau (m.part 0) 4))).lenChar +
          morceau (m.part 0) 4 ≤ payload.length + 4 ∧
        payload.length ≤
          (l.lisTaille ((Requete.htonl payload.length).take (morceau (m.part 0) 4))).lenChar ∧
        ((l.lisTaille ((Requete.htonl payload.length).take (morceau (m.part 0) 4))).lenChar + 1 = 2 ^ 32 →
          payload = []) := by
    intro l
    obtain ⟨l', p', hr, hs, hp⟩ := h l []
    obtain ⟨htotal, hle, hmax⟩ := reception_true hr hs
    rw [recv_trame] at htotal hle hmax
    have hk : morceau (m.part 0) 4 ≤ 4 := morceau_le (by decide) _
    have htete : ((Requete.htonl payload.length).take (morceau (m.part 0) 4)).length =
        morceau (m.part 0) 4 := List.length_take_of_le hk
    have hsocket : (trame payload ++ []).length = 4 + payload.length := by
      rw [List.append_nil, trame, List.length_append]
      rfl
    refine ⟨?_, hle, hmax⟩
    simp only [htete, hsocket] at htotal
    omega
  have hk4 : morceau (m.part 0) 4 ≤ 4 := morceau_le (by decide) _
  have hk0 := morceau_pos (m.part 0) 4
  have hentiere : Entiere m.part 0 4 := by
    by_contra hne
    have hlt : morceau (m.part 0) 4 < 4 := lt_of_le_of_ne hk4 hne
    obtain ⟨hmod, hplus⟩ := lenChar_coupe payload.length hk0 hlt fun _ => 0
    have h0 := (hread (new (fun _ => 0) fun _ => 0)).2.1
    have h255 := (hread (new (fun _ => 0) fun _ => 255)).1
    have := Nat.mod_le payload.length (2 ^ 32)
    omega
  refine ⟨hentiere, ?_⟩
  obtain ⟨_, hle, hmax⟩ := hread (new (fun _ => 0) fun _ => 0)
  rw [hentiere, List.take_of_length_le (Nat.le_refl 4), lenChar_lisTaille] at hle hmax
  by_contra hbig
  have hlt := Nat.mod_lt payload.length (show 0 < 2 ^ 32 by decide)
  have hnil := hmax (by omega)
  rw [hnil] at hbig
  exact hbig (by decide)

/-- A first piece that is not the whole payload leaves its last byte out of the buffer. -/
theorem RecoitJuste.piece (h : RecoitJuste m payload) (hne : payload ≠ []) :
    Entiere m.part 1 payload.length := by
  obtain ⟨hentiere, hmax⟩ := h.entete
  have hpos : 0 < payload.length := List.length_pos_of_ne_nil hne
  by_contra hcut
  have hk0 := morceau_pos (m.part 1) payload.length
  have hlt : morceau (m.part 1) payload.length < payload.length := lt_of_le_of_ne (morceau_le hpos _) hcut
  obtain ⟨l', p', hr, hs, hp⟩ := h (new (fun _ => 0) fun _ => 0) []
  obtain ⟨l₁, hc, rfl⟩ := reception_spec hr
  rw [recv_trame, hentiere, List.take_of_length_le (Nat.le_refl 4),
    List.drop_of_length_le (Nat.le_refl 4), List.nil_append, List.append_nil] at hc
  have hlen := lenChar_lisTaille payload.length (new (fun _ => 0) fun _ => 0)
  rw [Nat.mod_eq_of_lt (by omega)] at hlen
  have hzero := fun {a} => @strBuffer_prepare (new (fun _ => 0) fun _ => 0) m.tas
    (Requete.htonl payload.length) (by rw [hlen]; exact hmax) a
  have hprepare := lenChar_prepare m.tas (Requete.htonl payload.length) (new (fun _ => 0) fun _ => 0)
  rw [hlen] at hzero hprepare
  generalize (new (fun _ => 0) fun _ => 0).prepare m.tas (Requete.htonl payload.length) = l at *
  obtain ⟨n, hn⟩ := Nat.exists_eq_succ_of_ne_zero (Nat.pos_iff_ne_zero.mp hpos)
  simp only at hc
  rw [hn] at hc
  have hc := corps_succ (by rw [hprepare]; exact hpos) hc
  rw [hprepare] at hc
  obtain ⟨lus, hq, rfl, _, _⟩ := corps_spec n hc
  simp only [Prise.recv, hp, List.append_nil] at hq hs
  -- the other pieces are shorter still
  have hrest : lus.flatten.length < payload.length := by
    rw [← hq, List.length_drop]
    omega
  have hle : ∀ x ∈ lus, x.length ≤ payload.length - 1 := fun x hx => by
    have := (List.sublist_flatten_of_mem hx).length_le
    omega
  have hpiece : (payload.take (morceau (m.part 1) payload.length)).length ≤ payload.length - 1 := by
    rw [List.length_take]
    omega
  have hlast : payload.length ≤ payload.length - 1 := by
    refine hs.length_le ?_
    rw [strBuffer_ecrit, lenChar1, lenChar_empile, lenChar_ecrit, hprepare, Nat.mod_eq_of_lt hmax,
      Memory.write_of_lt (by omega), strBuffer_empile hle, strBuffer_ecrit, Memory.write_of_le (by omega)]
    exact hzero (by omega)
  omega

/-- **A header and a body that come whole** are read. -/
theorem recoitJuste_entiere (hs : ∀ b ∈ payload, b ≠ 0) (hmax : payload.length + 1 < 2 ^ 32)
    (hentete : Entiere m.part 0 4) (hcorps : payload = [] ∨ Entiere m.part 1 payload.length) :
    RecoitJuste m payload := by
  intro l suite
  have hlen := lenChar_lisTaille payload.length l
  rw [Nat.mod_eq_of_lt (by omega)] at hlen
  have hzero := fun {a} => @strBuffer_prepare l m.tas (Requete.htonl payload.length)
    (by rw [hlen]; exact hmax) a
  have hprepare := lenChar_prepare m.tas (Requete.htonl payload.length) l
  rw [hlen] at hzero hprepare
  unfold reception
  rw [recv_trame, hentete, List.take_of_length_le (Nat.le_refl 4), List.drop_of_length_le (Nat.le_refl 4),
    List.nil_append]
  simp only
  generalize l.prepare m.tas (Requete.htonl payload.length) = l at *
  rw [if_neg (show Requete.htonl payload.length ≠ [] from List.cons_ne_nil _ _)]
  -- the buffer after the loop
  have hloop : ∃ l', corps m.part (payload ++ suite).length 0 l ⟨payload ++ suite, 1⟩ =
      (true, l', ⟨suite, if payload = [] then 1 else 2⟩) ∧ l'.lenChar = payload.length ∧
        Memory.CString l'.strBuffer payload := by
    by_cases hnil : payload = []
    · subst hnil
      refine ⟨l, ?_, hprepare, fun a ha => absurd ha (Nat.not_lt_zero a), hs, hzero (Nat.le_refl _)⟩
      rw [if_pos rfl, corps_fini _ (by rw [hprepare]; exact Nat.not_lt_zero _)]
      rfl
    · have hpos : 0 < payload.length := List.length_pos_of_ne_nil hnil
      have hpiece := hcorps.resolve_left hnil
      have hfuel : (payload ++ suite).length = payload.length - 1 + suite.length + 1 := by
        rw [List.length_append]
        omega
      have hmoins : ¬ moinsUn payload.length = true := by
        simp only [moinsUn, beq_iff_eq]
        omega
      refine ⟨l.ecrit 0 payload, ?_, by rw [lenChar_ecrit, hprepare], ?_⟩
      · rw [if_neg hnil, hfuel, corps, hprepare, Nat.zero_mod, if_pos hpos, Prise.recv, hpiece]
        simp only [List.take_left, List.drop_left]
        rw [if_neg hnil, if_neg hmoins, corps_fini]
        rw [lenChar_ecrit, hprepare, Nat.zero_add, Nat.mod_eq_of_lt (by omega)]
        exact Nat.lt_irrefl _
      · rw [strBuffer_ecrit]
        exact Memory.cString_write hs (hzero (Nat.le_refl _))
  obtain ⟨l', hc, hlen', hstr⟩ := hloop
  rw [hc]
  refine ⟨_, _, rfl, ?_, rfl⟩
  rw [strBuffer_ecrit, lenChar1, hlen', Nat.mod_eq_of_lt hmax]
  exact hstr.congr fun a ha => Memory.write_of_lt (by omega)

/-- A body of `2^32 - 1` bytes that comes whole is taken for an error. -/
theorem reception_moinsUn (hentete : Entiere m.part 0 4) (hcorps : Entiere m.part 1 payload.length)
    (hlen : payload.length + 1 = 2 ^ 32) (l : Listener) (suite : List UInt8) :
    (l.reception m ⟨trame payload ++ suite, 0⟩).1 = false := by
  have hprepare := lenChar_prepare m.tas (Requete.htonl payload.length) l
  rw [lenChar_lisTaille, Nat.mod_eq_of_lt (by omega)] at hprepare
  unfold reception
  rw [recv_trame, hentete, List.take_of_length_le (Nat.le_refl 4), List.drop_of_length_le (Nat.le_refl 4),
    List.nil_append]
  simp only
  generalize l.prepare m.tas (Requete.htonl payload.length) = l at *
  rw [if_neg (show Requete.htonl payload.length ≠ [] from List.cons_ne_nil _ _)]
  have hne : payload ≠ [] := by
    rintro rfl
    exact absurd hlen (by decide)
  have hmoins : moinsUn payload.length = true := by
    simp only [moinsUn, beq_iff_eq]
    omega
  have hloop : corps m.part (payload ++ suite).length 0 l ⟨payload ++ suite, 1⟩ =
      (false, l.ecrit 0 payload, ⟨suite, 2⟩) := by
    have hfuel : (payload ++ suite).length = payload.length - 1 + suite.length + 1 := by
      rw [List.length_append]
      omega
    rw [hfuel, corps, hprepare, Nat.zero_mod, if_pos (by omega), Prise.recv, hcorps]
    simp only [List.take_left, List.drop_left]
    rw [if_neg hne, if_pos hmoins]
  rw [hloop]
  rfl

/-- **A frame is received if and only if its header and its payload come whole**, the payload shorter
than `2^32 - 1`. -/
theorem recoitJuste_iff (hs : ∀ b ∈ payload, b ≠ 0) :
    RecoitJuste m payload ↔ payload.length + 1 < 2 ^ 32 ∧ Entiere m.part 0 4 ∧
      (payload = [] ∨ Entiere m.part 1 payload.length) := by
  constructor
  · intro h
    refine ⟨h.entete.2, h.entete.1, ?_⟩
    by_cases hnil : payload = []
    · exact Or.inl hnil
    · exact Or.inr (h.piece hnil)
  · rintro ⟨hmax, hentete, hcorps⟩
    exact recoitJuste_entiere hs hmax hentete hcorps

end

/-! ## Sending -/

/-- Where a byte on the wire comes from: the type, a byte of the length, one of the string. -/
inductive Octet where
  | typeMsg
  | longueur (i : Nat)
  | corps (i : Nat)
  deriving DecidableEq

/-- The loop of `envoie_msg`: each pass sends from the start of the string. -/
def corpsEnvoi (part : Nat → Nat) (len : Nat) : Nat → Nat → Nat → Option (Bool × List Octet)
  | 0, _, _ => none
  | fuel + 1, envoye, appels =>
    if envoye % 2 ^ 32 < len then
      if moinsUn (morceau (part appels) len) then
        some (false, (List.range (morceau (part appels) len)).map .corps)
      else
        (corpsEnvoi part len fuel (envoye + morceau (part appels) len) (appels + 1)).map fun (ok, fil) =>
          (ok, (List.range (morceau (part appels) len)).map .corps ++ fil)
    else some (true, [])

/-- What `envoie_msg` puts on the wire; its first call sends the type. -/
def envoieMsg (part : Nat → Nat) (fuel : Nat) (msg : List UInt8) : Option (Bool × List Octet) :=
  (corpsEnvoi part ((Requete.cStr msg).length % 2 ^ 32) fuel 0 2).map fun (ok, fil) =>
    (ok, .typeMsg :: (List.range (morceau (part 1) 4)).map .longueur ++ fil)

/-- Type, length and payload, each byte once and in order. -/
def enOrdre (msg : List UInt8) : List Octet :=
  .typeMsg :: (List.range 4).map .longueur ++ (List.range msg.length).map .corps

def EnvoieJuste (part : Nat → Nat) (msg : List UInt8) : Prop :=
  ∃ fuel ok, envoieMsg part fuel msg = some (ok, enOrdre msg)

section

variable {part : Nat → Nat} {msg : List UInt8}

/-- What is sent comes from the string. -/
theorem longueur_not_mem (len : Nat) (fuel : Nat) : ∀ {envoye appels : Nat} {ok : Bool} {fil : List Octet},
    corpsEnvoi part len fuel envoye appels = some (ok, fil) → ∀ i, .longueur i ∉ fil := by
  induction fuel with
  | zero => exact fun h => by cases h
  | succ fuel ih =>
    intro envoye appels ok fil h i hi
    have hrange : ∀ k, Octet.longueur i ∉ (List.range k).map Octet.corps := by
      intro k hk
      obtain ⟨_, _, he⟩ := List.mem_map.mp hk
      cases he
    rw [corpsEnvoi] at h
    split at h
    · split at h
      · cases h
        exact hrange _ hi
      · obtain ⟨⟨ok', fil'⟩, hr, he⟩ := Option.map_eq_some_iff.mp h
        cases he
        rcases List.mem_append.mp hi with hi | hi
        · exact hrange _ hi
        · exact ih hr i hi
    · cases h
      cases hi

/-- A pass starts again at the first byte. -/
theorem head_corpsEnvoi {len fuel envoye appels : Nat} {ok : Bool} {fil : List Octet}
    (h : corpsEnvoi part len fuel envoye appels = some (ok, fil)) :
    fil = [] ∨ fil[0]? = some (.corps 0) := by
  cases fuel with
  | zero => cases h
  | succ fuel =>
    have hrange : ∀ k l, 0 < k → ((List.range k).map Octet.corps ++ l)[0]? = some (.corps 0) := by
      intro k l hk
      obtain ⟨k', rfl⟩ := Nat.exists_eq_succ_of_ne_zero (Nat.pos_iff_ne_zero.mp hk)
      rw [List.range_succ_eq_map]
      rfl
    rw [corpsEnvoi] at h
    split at h
    · split at h
      · cases h
        have := hrange _ [] (morceau_pos (part appels) len)
        rw [List.append_nil] at this
        exact Or.inr this
      · obtain ⟨⟨ok', fil'⟩, _, he⟩ := Option.map_eq_some_iff.mp h
        cases he
        exact Or.inr (hrange _ _ (morceau_pos (part appels) len))
    · cases h
      exact Or.inl rfl

theorem corps_append {k n : Nat} {fil : List Octet} (hk : 0 < k) (hfil : fil = [] ∨ fil[0]? = some (.corps 0))
    (h : (List.range k).map Octet.corps ++ fil = (List.range n).map Octet.corps) : k = n := by
  rcases hfil with rfl | h0
  · simpa using congrArg List.length h
  · have hlen := congrArg (fun l => l[k]?) h
    simp only [List.getElem?_append_right (show ((List.range k).map Octet.corps).length ≤ k by simp)] at hlen
    simp only [List.length_map, List.length_range, Nat.sub_self, h0] at hlen
    rw [eq_comm, List.getElem?_map, Option.map_eq_some_iff] at hlen
    obtain ⟨i, hi, he⟩ := hlen
    obtain ⟨_, hi⟩ := List.getElem?_eq_some_iff.mp hi
    rw [List.getElem_range] at hi
    cases he
    omega

/-- The first pass of the loop is the whole string. -/
theorem corpsEnvoi_range {n fuel : Nat} {ok : Bool}
    (h : corpsEnvoi part (n % 2 ^ 32) fuel 0 2 = some (ok, (List.range n).map .corps)) :
    n < 2 ^ 32 ∧ (n = 0 ∨ Entiere part 2 n) := by
  cases fuel with
  | zero => cases h
  | succ fuel =>
    rw [corpsEnvoi, Nat.zero_mod] at h
    by_cases hpos : 0 < n % 2 ^ 32
    · have hk0 := morceau_pos (part 2) (n % 2 ^ 32)
      have hk := morceau_le hpos (part 2)
      have hn : morceau (part 2) (n % 2 ^ 32) = n := by
        rw [if_pos hpos] at h
        split at h
        · have he := (Prod.mk.inj (Option.some.inj h)).2
          exact corps_append hk0 (Or.inl rfl) (by rw [List.append_nil]; exact he)
        · obtain ⟨⟨ok', fil⟩, hr, he⟩ := Option.map_eq_some_iff.mp h
          exact corps_append hk0 (head_corpsEnvoi hr) (Prod.mk.inj he).2
      rw [hn] at hk
      have hmod : n % 2 ^ 32 = n := Nat.le_antisymm (Nat.mod_le _ _) hk
      rw [hmod] at hn
      exact ⟨by omega, Or.inr hn⟩
    · rw [if_neg hpos] at h
      have he := congrArg List.length (Prod.mk.inj (Option.some.inj h)).2
      rw [List.length_map, List.length_range] at he
      have hn : n = 0 := he.symm
      exact ⟨by omega, Or.inl hn⟩

theorem cStr_eq (hs : ∀ b ∈ msg, b ≠ 0) : Requete.cStr msg = msg := by
  rw [Requete.cStr, List.takeWhile_eq_self_iff]
  simpa using hs

/-- **A message is sent, each byte once and in order, if and only if its length and its payload go
whole**, the payload shorter than `2^32`. -/
theorem envoieJuste_iff (hs : ∀ b ∈ msg, b ≠ 0) :
    EnvoieJuste part msg ↔ msg.length < 2 ^ 32 ∧ Entiere part 1 4 ∧
      (msg = [] ∨ Entiere part 2 msg.length) := by
  unfold EnvoieJuste envoieMsg
  rw [cStr_eq hs]
  constructor
  · rintro ⟨fuel, ok, h⟩
    obtain ⟨⟨ok', fil⟩, hr, he⟩ := Option.map_eq_some_iff.mp h
    have hfil : (List.range (morceau (part 1) 4)).map Octet.longueur ++ fil =
        (List.range 4).map .longueur ++ (List.range msg.length).map .corps :=
      (List.cons.inj (Prod.mk.inj he).2).2
    have hentete : Entiere part 1 4 := by
      have hle := morceau_le (show 0 < 4 by decide) (part 1)
      by_contra hne
      -- the byte after a part of the length is one of the string
      have hk := congrArg (fun l => l[morceau (part 1) 4]?) hfil
      have hlt : morceau (part 1) 4 < 4 := lt_of_le_of_ne hle hne
      simp only [List.getElem?_append_right (show ((List.range (morceau (part 1) 4)).map
        Octet.longueur).length ≤ morceau (part 1) 4 by simp)] at hk
      rw [List.getElem?_append_left (by simpa using hlt), List.length_map, List.length_range, Nat.sub_self,
        List.getElem?_map, List.getElem?_range hlt] at hk
      exact longueur_not_mem _ _ hr _ (List.mem_of_getElem? hk)
    rw [hentete] at hfil
    rw [List.append_cancel_left hfil] at hr
    obtain ⟨hlt, hn⟩ := corpsEnvoi_range hr
    exact ⟨hlt, hentete, hn.imp_left List.eq_nil_of_length_eq_zero⟩
  · rintro ⟨hlt, hentete, hn⟩
    rw [hentete, Nat.mod_eq_of_lt hlt]
    refine ⟨2, ?_⟩
    rcases hn with rfl | hn
    · exact ⟨true, rfl⟩
    · have hpos : 0 < msg.length := by
        have := morceau_pos (part 2) msg.length
        rw [hn] at this
        exact this
      rw [corpsEnvoi, Nat.zero_mod, if_pos hpos, hn]
      by_cases hm : moinsUn msg.length = true
      · rw [if_pos hm]
        exact ⟨false, rfl⟩
      · rw [if_neg hm, corpsEnvoi, Nat.zero_add, Nat.mod_eq_of_lt hlt, if_neg (Nat.lt_irrefl _)]
        refine ⟨true, ?_⟩
        simp only [Option.map_some, List.append_nil]
        rfl

end

/-- **The two loops are right for a split exactly where it does not cut what they ask for.** -/
theorem transferts_iff {payload : List UInt8} (hs : ∀ b ∈ payload, b ≠ 0) (m : Monde) (part : Nat → Nat) :
    (RecoitJuste m payload ↔ payload.length + 1 < 2 ^ 32 ∧ Entiere m.part 0 4 ∧
      (payload = [] ∨ Entiere m.part 1 payload.length)) ∧
    (EnvoieJuste part payload ↔ payload.length < 2 ^ 32 ∧ Entiere part 1 4 ∧
      (payload = [] ∨ Entiere part 2 payload.length)) :=
  ⟨recoitJuste_iff hs, envoieJuste_iff hs⟩

/-! ## Two bytes -/

/-- Calls that move `n` bytes at most, but for the length. -/
def parPieces (n i : Nat) : Nat := if i = 0 then 4 else n

theorem enUneFois_juste : RecoitJuste ⟨parPieces 2, fun _ => 0⟩ [1, 2] ∧ EnvoieJuste (fun _ => 4) [1, 2] := by
  have h := transferts_iff (show ∀ b ∈ [1, 2], b ≠ (0 : UInt8) by simp) ⟨parPieces 2, fun _ => 0⟩ fun _ => 4
  exact ⟨h.1.mpr (by decide +kernel), h.2.mpr (by decide +kernel)⟩

/-- One byte at a time: the second is written over the first, and the first is sent twice. -/
theorem enDeuxFois_perdu :
    ¬ RecoitJuste ⟨parPieces 1, fun _ => 0⟩ [1, 2] ∧
    ((new (fun _ => 0) fun _ => 0).reception ⟨parPieces 1, fun _ => 0⟩ ⟨trame [1, 2], 0⟩).1 = true ∧
    (List.range 3).map ((new (fun _ => 0) fun _ => 0).reception ⟨parPieces 1, fun _ => 0⟩
      ⟨trame [1, 2], 0⟩).2.1.strBuffer = [2, 0, 0] ∧
    ¬ EnvoieJuste (fun i => if i = 1 then 4 else 1) [1, 2] ∧
    envoieMsg (fun i => if i = 1 then 4 else 1) 3 [1, 2] =
      some (true, [.typeMsg, .longueur 0, .longueur 1, .longueur 2, .longueur 3, .corps 0, .corps 0]) := by
  refine ⟨?_, by decide +kernel, by decide +kernel, ?_, by decide +kernel⟩
  · rw [recoitJuste_iff (by simp)]
    decide +kernel
  · rw [envoieJuste_iff (by simp)]
    decide +kernel

end Listener
end LombricABrac
