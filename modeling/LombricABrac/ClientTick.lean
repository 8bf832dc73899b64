import LombricABrac.PartieSpec

/-!
# A tick of the client

`updateSprites` of `Client/src/partieQT.cpp` (and of `partie.cpp`) goes through the vector with an
iterator.  A worm that dies stays in it and is passed over from then on; a box or a projectile is
erased, and `delete(*s)` reads the position that was erased: the elements behind have moved up, so that
the object destroyed is the next one.  Behind the last element the storage still holds its pointer.

    iterations_reste : a sprite that stays is passed, the others untouched
    tickPropre_iff   : a tick destroys what it removes where no box or projectile dies before another sprite
-/

namespace LombricABrac

/-- `life` before the update: only a worm has one. -/
def Sprite.life (s : Sprite) : Int := if s.getId ≠ 0 then s.getLife else 1

/-- `infoPartie_s` and the members of `partieQT`, with the iterator: it stands at the head of `apres`.
`detruits` are the objects destroyed during the tick, `suivante` is the next free address. -/
structure PasseQT where
  carte : Map
  avant : List Sprite
  apres : List Sprite
  blockDeleted : List Int
  currentWorms : Option Nat
  timeRound : Nat
  spentTime : Nat
  tour : Bool
  isMovement : Bool
  detruits : List Nat
  suivante : Nat

namespace PasseQT

/-- `spriteVector`. -/
def tous (p : PasseQT) : List Sprite := p.avant ++ p.apres

def adresses (p : PasseQT) : List Nat := p.tous.map fun s => s.adresse

/-- The turn ends when the life of the current worm changes. -/
def signale (t : Int) (p : PasseQT) (s : Sprite) : PasseQT :=
  let e := s.update p.carte t p.tous
  let touche := p.currentWorms == some s.adresse && e.sprite.getLife != s.life
  { p with
    spentTime := if touche then p.timeRound else p.spentTime
    tour := p.tour && !touche
    isMovement := p.isMovement || e.sprite.isInMovement }

/-- `++s`, with the head as it is in the vector now. -/
def passe (p : PasseQT) (s : Sprite) (apres : List Sprite) : PasseQT :=
  { p with avant := p.avant ++ [s], apres }

def survit (t : Int) (p : PasseQT) (s : Sprite) (apres : List Sprite) : PasseQT :=
  let e := s.update p.carte t p.tous
  { p.signale t s with
    avant := p.avant.map (Sprite.recoit e.soin) ++ [e.sprite]
    apres := apres.map (Sprite.recoit e.soin) }

/-- A death: the iterator stays where it is. -/
def meurt (t : Int) (p : PasseQT) (s : Sprite) (apres : List Sprite) : PasseQT :=
  let e := s.update p.carte t p.tous
  let d := e.sprite.deathMove p.carte t
  let suite := (apres.map (Sprite.recoit e.soin)).map d.2.2
  let q := { p.signale t s with
    carte := d.1
    avant := (p.avant.map (Sprite.recoit e.soin)).map d.2.2
    blockDeleted := p.blockDeleted ++ d.2.1
    isMovement := true }
  if s.getId ≠ 0 then { q with apres := d.2.2 e.sprite :: suite }
  else { q with
    apres := suite
    detruits := p.detruits ++ [((suite.map fun o => o.adresse).head?).getD s.adresse] }

/-- The body of the `while`; `none`: a destroyed object is read. -/
def etape (t : Int) (p : PasseQT) : Option PasseQT :=
  match p.apres with
  | [] => some p
  | s :: apres =>
    if s.adresse ∈ p.detruits then none
    else if s.life ≤ 0 then some (p.passe s apres)
    else if (s.update p.carte t p.tous).alive then some (p.survit t s apres)
    else some (p.meurt t s apres)

def iterations (t : Int) : Nat → PasseQT → Option PasseQT
  | 0, p => some p
  | n + 1, p => (p.etape t).bind (iterations t n)

/-- A worm that dies takes two iterations. -/
def updateSprites (t : Int) (p : PasseQT) : Option PasseQT :=
  iterations t (2 * p.tous.length)
    { p with avant := [], apres := p.tous, isMovement := false, detruits := [] }

/-! ## What the tick is to do -/

/-- The tick ends; it has destroyed exactly the objects that it has removed, and the others keep their
order. -/
def TickPropre (t : Int) (p : PasseQT) : Prop :=
  ∃ p', p.updateSprites t = some p' ∧
    (∀ a, a ∈ p'.detruits ↔ a ∈ p.adresses ∧ a ∉ p'.adresses) ∧
    (∀ s ∈ p'.tous, s.adresse ∉ p'.detruits) ∧
    List.Sublist p'.adresses p.adresses

end PasseQT

namespace Sprite

/-- Where the tick puts a sprite. -/
def arrivee (carte : Map) (t : Int) (s : Sprite) : Int × Int :=
  if 0 < s.life then ((s.avance carte t).posX, (s.avance carte t).posY) else (s.posX, s.posY)

/-- A sprite without id that stands between `a` and `b` in the vector dies: a projectile meets a cell that
is not AIR; a box meets a worm, where those of `a` have moved already. -/
def Perit (carte : Map) (t : Int) (a b : List Sprite) (s : Sprite) : Prop :=
  match s.corps with
  | .projectile _ => ∃ mv, s.movement = some mv ∧ carte.isAir (mv.update t).1 (mv.update t).2 = false
  | .healthBox _ =>
    (∃ w ∈ a, w.getId ≠ 0 ∧ w.arrivee carte t = s.arrivee carte t) ∨
      ∃ w ∈ b, w.getId ≠ 0 ∧ (w.posX, w.posY) = s.arrivee carte t
  | .lombric l => (updateLombric carte t s.toBase l).alive = false

/-! ## A sprite that stays -/

theorem life_of_getId {s : Sprite} (hid : s.getId = 0) : s.life = 1 := if_neg (not_not.mpr hid)

/-- A worm without life is not updated. -/
def reste (carte : Map) (t : Int) (s : Sprite) : Sprite := if s.life ≤ 0 then s else s.suivant carte t

theorem reste_adresse (carte : Map) (t : Int) (s : Sprite) : (s.reste carte t).adresse = s.adresse := by
  unfold reste
  split
  · rfl
  · exact update_adresse carte t [] s

theorem reste_forme (carte : Map) (t : Int) (s : Sprite) : (s.reste carte t).forme = s.forme := by
  unfold reste
  split
  · rfl
  · exact suivant_forme carte t s

/-- An update moves a sprite by its movement only. -/
theorem suivant_pos (carte : Map) (t : Int) (s : Sprite) :
    (s.suivant carte t).posX = (s.avance carte t).posX ∧ (s.suivant carte t).posY = (s.avance carte t).posY := by
  rw [suivant_toBase]
  unfold deplace
  split
  · exact Base.tombe_pos ..
  · exact ⟨rfl, rfl⟩
  · exact Base.tombe_pos ..

theorem reste_pos (carte : Map) (t : Int) (s : Sprite) :
    ((s.reste carte t).posX, (s.reste carte t).posY) = s.arrivee carte t := by
  unfold reste arrivee
  split
  · next h => rw [if_neg (by omega)]
  · next h => rw [if_pos (by omega), (suivant_pos carte t s).1, (suivant_pos carte t s).2]

/-- A worm that dies gives no life, and its death changes nothing. -/
theorem update_lombric_mort {carte : Map} {t : Int} {v : List Sprite} {s : Sprite} (hid : s.getId ≠ 0)
    (ha : (s.update carte t v).alive = false) :
    (s.update carte t v).soin = none ∧ (s.suivant carte t).life ≤ 0 ∧
      (s.suivant carte t).deathMove carte t = (carte, [], fun sp => sp) := by
  obtain ⟨l, hl⟩ := exists_lombric hid
  obtain ⟨b, c⟩ := s
  cases hl
  refine ⟨rfl, ?_, rfl⟩
  simp only [update, updateLombric, decide_eq_false_iff_not, not_not] at ha
  have hvie : (suivant carte t ⟨b, .lombric l⟩).getLife = 0 := ha
  have hid' : (suivant carte t ⟨b, .lombric l⟩).getId ≠ 0 := hid
  rw [life, if_pos hid', hvie]

/-- `Perit` is the answer of `update` at the turn of the sprite. -/
theorem perit_iff {carte : Map} {t : Int} {a b : List Sprite} {s : Sprite} (hid : s.getId = 0) :
    s.Perit carte t a b ↔ (s.update carte t (a.map (reste carte t) ++ s :: b)).alive = false := by
  have hlife := life_of_getId hid
  have harr : s.arrivee carte t = ((s.avance carte t).posX, (s.avance carte t).posY) :=
    if_pos (by omega)
  obtain ⟨base, c⟩ := s
  cases c with
  | lombric l => exact Iff.rfl
  | projectile p =>
    simp only [Perit, update, updateProjectile, Base.vol]
    cases hm : base.movement with
    | none => simp
    | some mv => cases ha : carte.isAir (mv.update t).1 (mv.update t).2 <;> simp [ha]
  | healthBox x =>
    have hcase : ∀ w : Sprite, (decide (w.getId ≠ 0 ∧
        w.posX = ((base.avance carte t).tombe carte t boxGravity).posX ∧
        w.posY = ((base.avance carte t).tombe carte t boxGravity).posY) = true) ↔
        w.getId ≠ 0 ∧ (w.posX, w.posY) = ((base.avance carte t).posX, (base.avance carte t).posY) := by
      intro w
      rw [decide_eq_true_eq, Prod.mk.injEq, (Base.tombe_pos ..).1, (Base.tombe_pos ..).2]
    have hramasse : (update carte t (a.map (reste carte t) ++ ⟨base, .healthBox x⟩ :: b)
        ⟨base, .healthBox x⟩).alive = false ↔ ∃ w ∈ a.map (reste carte t) ++ ⟨base, .healthBox x⟩ :: b,
          w.getId ≠ 0 ∧ (w.posX, w.posY) = ((base.avance carte t).posX, (base.avance carte t).posY) := by
      simp only [update, updateHealthBox_eq, ramasse, surMaCase]
      simp only [← hcase]
      rw [← List.find?_isSome]
      cases List.find? _ (a.map (reste carte t) ++ ⟨base, .healthBox x⟩ :: b) <;> simp
    rw [hramasse, Perit, harr]
    simp only [List.mem_append, List.mem_map, List.mem_cons]
    constructor
    · rintro (⟨w, hw, h1, h2⟩ | ⟨w, hw, h1, h2⟩)
      · refine ⟨_, Or.inl ⟨w, hw, rfl⟩, ?_, (reste_pos carte t w).trans h2⟩
        rwa [getId_of_forme (reste_forme carte t w)]
      · exact ⟨w, Or.inr (Or.inr hw), h1, h2⟩
    · rintro ⟨_, ⟨w, hw, rfl⟩ | rfl | hw, h1, h2⟩
      · refine Or.inl ⟨w, hw, ?_, (reste_pos carte t w).symm.trans h2⟩
        rwa [getId_of_forme (reste_forme carte t w)] at h1
      · exact absurd hid h1
      · exact Or.inr ⟨_, hw, h1, h2⟩

end Sprite

namespace PasseQT

variable {t : Int} {p q : PasseQT} {s : Sprite} {apres : List Sprite}

/-- `q` is `p` with the iterator behind the head `s`, that stays. -/
structure Suit (t : Int) (p : PasseQT) (s : Sprite) (apres : List Sprite) (q : PasseQT) : Prop where
  carte : q.carte = p.carte
  avant : q.avant = p.avant ++ [s.reste p.carte t]
  apres : q.apres = apres
  detruits : q.detruits = p.detruits

theorem iterations_nil (h : p.apres = []) (n : Nat) : p.iterations t n = some p := by
  induction n with
  | zero => rfl
  | succ n ih =>
    have hs : p.etape t = some p := by
      unfold etape
      rw [h]
    rw [iterations, hs]
    exact ih

theorem etape_cons (h : p.apres = s :: apres) : p.etape t =
    if s.adresse ∈ p.detruits then none
    else if s.life ≤ 0 then some (p.passe s apres)
    else if (s.update p.carte t p.tous).alive then some (p.survit t s apres)
    else some (p.meurt t s apres) := by
  unfold etape
  rw [h]

theorem suit_passe (h : s.life ≤ 0) : Suit t p s apres (p.passe s apres) :=
  ⟨rfl, by rw [Sprite.reste, if_pos h]; rfl, rfl, rfl⟩

theorem suit_survit (h : ¬ s.life ≤ 0) (ha : (s.update p.carte t p.tous).alive = true) :
    Suit t p s apres (p.survit t s apres) := by
  have hsoin := Sprite.soin_of_alive ha
  refine ⟨rfl, ?_, ?_, rfl⟩
  · simp only [survit, hsoin, Sprite.update_sprite, Sprite.reste, if_neg h,
      show Sprite.recoit none = id from rfl, List.map_id]
  · simp only [survit, hsoin, show Sprite.recoit none = id from rfl, List.map_id]

/-- The death of a worm leaves it at the head, without life. -/
theorem meurt_lombric (apres : List Sprite) (hid : s.getId ≠ 0)
    (ha : (s.update p.carte t p.tous).alive = false) :
    (p.meurt t s apres).carte = p.carte ∧ (p.meurt t s apres).avant = p.avant ∧
      (p.meurt t s apres).apres = s.suivant p.carte t :: apres ∧
      (p.meurt t s apres).detruits = p.detruits := by
  obtain ⟨hsoin, _, hmort⟩ := Sprite.update_lombric_mort hid ha
  unfold meurt
  simp only [if_pos hid, Sprite.update_sprite, hmort, hsoin, show Sprite.recoit none = id from rfl,
    List.map_id, List.map_id', and_self, signale]

/-- Nothing is destroyed while the head stays; a worm that dies takes two iterations. -/
theorem iterations_reste (hap : p.apres = s :: apres) (hd : s.adresse ∉ p.detruits)
    (h : s.getId = 0 → (s.update p.carte t p.tous).alive = true) :
    ∃ q k, k ≤ 2 ∧ Suit t p s apres q ∧ ∀ n, p.iterations t (n + k) = q.iterations t n := by
  by_cases hlife : s.life ≤ 0
  · refine ⟨_, 1, by omega, suit_passe hlife, fun n => ?_⟩
    rw [iterations, etape_cons hap, if_neg hd, if_pos hlife]
    rfl
  · by_cases ha : (s.update p.carte t p.tous).alive = true
    · refine ⟨_, 1, by omega, suit_survit hlife ha, fun n => ?_⟩
      rw [iterations, etape_cons hap, if_neg hd, if_neg hlife, if_pos ha]
      rfl
    · have hid : s.getId ≠ 0 := fun h0 => ha (h h0)
      have ha' : (s.update p.carte t p.tous).alive = false := by simpa using ha
      obtain ⟨hc, hav, hap', hdet⟩ := meurt_lombric apres hid ha'
      have hmort := (Sprite.update_lombric_mort hid ha').2.1
      refine ⟨(p.meurt t s apres).passe (s.suivant p.carte t) apres, 2, le_rfl,
        ⟨hc, ?_, rfl, hdet⟩, fun n => ?_⟩
      · rw [passe, hav, Sprite.reste, if_neg hlife]
      · have hadr : (s.suivant p.carte t).adresse ∉ (p.meurt t s apres).detruits := by
          rw [hdet]
          exact Sprite.update_adresse p.carte t [] s ▸ hd
        rw [iterations, etape_cons hap, if_neg hd, if_neg hlife, if_neg ha, Option.bind_some, iterations,
          etape_cons hap', if_neg hadr, if_pos hmort]
        rfl

/-- A sprite without id that dies destroys the next one. -/
theorem meurt_detruit (hid : s.getId = 0) (p : PasseQT) (apres : List Sprite) :
    (p.meurt t s apres).apres.map (fun o => o.adresse) = apres.map (fun o => o.adresse) ∧
      (p.meurt t s apres).avant.map (fun o => o.adresse) = p.avant.map (fun o => o.adresse) ∧
      (p.meurt t s apres).detruits =
        p.detruits ++ [((apres.map fun o => o.adresse).head?).getD s.adresse] := by
  have hk := Passe.conserve_adresse
  unfold meurt
  simp only [if_neg (not_not.mpr hid), hk.map_deathMove, hk.map_recoit, and_self]

/-! ## The whole pass -/

/-- No sprite without id dies before another one. -/
def Tient (t : Int) (p : PasseQT) : Prop :=
  ∀ a s b, p.apres = a ++ s :: b → b ≠ [] → s.getId = 0 →
    (s.update p.carte t (p.avant ++ a.map (Sprite.reste p.carte t) ++ s :: b)).alive = true

theorem Suit.adresses (h : Suit t p s apres q) (hap : p.apres = s :: apres) : q.adresses = p.adresses := by
  simp [PasseQT.adresses, tous, h.avant, h.apres, hap, Sprite.reste_adresse]

theorem Suit.tient_iff (h : Suit t p s apres q) (hap : p.apres = s :: apres)
    (hs : s.getId = 0 → (s.update p.carte t p.tous).alive = true) : Tient t q ↔ Tient t p := by
  have htous : p.tous = p.avant ++ s :: apres := by rw [tous, hap]
  unfold Tient
  rw [h.carte, h.avant, h.apres, hap]
  constructor
  · intro hq a s' b hab hb hid
    cases a with
    | nil =>
      cases hab
      simpa [htous] using hs hid
    | cons x a =>
      cases hab
      simpa using hq a s' b rfl hb hid
  · intro hp a s' b hab hb hid
    simpa using hp (s :: a) s' b (by rw [hab]; rfl) hb hid

/-- **A pass that holds**: at most the last sprite is removed, and it is the one destroyed.  Induction on
what the iterator has in front of it. -/
theorem iterations_tient (l : List Sprite) : ∀ {p : PasseQT} {n : Nat}, p.apres = l → p.detruits = [] →
    2 * l.length ≤ n → Tient t p → ∃ p', p.iterations t n = some p' ∧ p'.apres = [] ∧
      (p'.detruits = [] ∧ p'.adresses = p.adresses ∨
        ∃ a, p'.detruits = [a] ∧ p.adresses = p'.adresses ++ [a]) := by
  induction l with
  | nil =>
    intro p n hap hd _ _
    exact ⟨p, iterations_nil hap n, hap, Or.inl ⟨hd, rfl⟩⟩
  | cons s l ih =>
    intro p n hap hd hn ht
    have hnd : s.adresse ∉ p.detruits := by simp [hd]
    rw [List.length_cons] at hn
    by_cases hs : s.getId = 0 → (s.update p.carte t p.tous).alive = true
    · obtain ⟨q, k, hk, hq, hit⟩ := iterations_reste hap hnd hs
      obtain ⟨p', h1, h2, h3⟩ := ih (p := q) (n := n - k) hq.apres (hq.detruits.trans hd) (by omega)
        ((hq.tient_iff hap hs).mpr ht)
      rw [hq.adresses hap] at h3
      refine ⟨p', ?_, h2, h3⟩
      rw [← h1, ← hit, Nat.sub_add_cancel (by omega)]
    · -- the head dies and has no id, so it is the last one
      obtain ⟨hid, ha⟩ := Classical.not_imp.mp hs
      have hl : l = [] := by
        by_contra hl
        exact ha (by simpa [tous, hap] using ht [] s l hap hl hid)
      subst hl
      have hlife : ¬ s.life ≤ 0 := by
        rw [Sprite.life_of_getId hid]
        omega
      obtain ⟨h1, h2, h3⟩ := meurt_detruit (t := t) hid p []
      have hvide : (p.meurt t s []).apres = [] := List.map_eq_nil_iff.mp h1
      refine ⟨p.meurt t s [], ?_, hvide, Or.inr ⟨s.adresse, ?_, ?_⟩⟩
      · obtain ⟨m, rfl⟩ := Nat.exists_eq_add_of_le' (show 1 ≤ n by omega)
        rw [iterations, etape_cons hap, if_neg hnd, if_neg hlife, if_neg ha]
        exact iterations_nil hvide m
      · rw [h3, hd]
        rfl
      · simp [PasseQT.adresses, tous, hvide, hap, h2]

/-- Where a pass does not hold, the iterator comes to a destroyed object. -/
theorem iterations_none (l : List Sprite) : ∀ {p : PasseQT} {n : Nat}, p.apres = l → p.detruits = [] →
    2 * l.length ≤ n → ¬ Tient t p → p.iterations t n = none := by
  induction l with
  | nil =>
    intro p n hap _ _ ht
    exact absurd (fun a s b hab => by simp [hap] at hab) ht
  | cons s l ih =>
    intro p n hap hd hn ht
    have hnd : s.adresse ∉ p.detruits := by simp [hd]
    rw [List.length_cons] at hn
    by_cases hs : s.getId = 0 → (s.update p.carte t p.tous).alive = true
    · obtain ⟨q, k, hk, hq, hit⟩ := iterations_reste hap hnd hs
      have hq' := ih (p := q) (n := n - k) hq.apres (hq.detruits.trans hd) (by omega)
        (mt (hq.tient_iff hap hs).mp ht)
      rw [← hq', ← hit, Nat.sub_add_cancel (by omega)]
    · obtain ⟨hid, ha⟩ := Classical.not_imp.mp hs
      have hlife : ¬ s.life ≤ 0 := by
        rw [Sprite.life_of_getId hid]
        omega
      cases l with
      | nil =>
        refine absurd (fun a s' b hab hb _ => ?_) ht
        rw [hap] at hab
        cases a with
        | nil =>
          cases hab
          exact absurd rfl hb
        | cons x a => simp at hab
      | cons o l =>
        obtain ⟨h1, _, h3⟩ := meurt_detruit (t := t) hid p (o :: l)
        obtain ⟨o', l', ho⟩ : ∃ o' l', (p.meurt t s (o :: l)).apres = o' :: l' :=
          List.exists_cons_of_ne_nil fun hnil => by simp [hnil] at h1
        have hadr : o'.adresse ∈ (p.meurt t s (o :: l)).detruits := by
          rw [ho, List.map_cons, List.map_cons, List.cons.injEq] at h1
          simp [h3, h1.1]
        obtain ⟨m, rfl⟩ := Nat.exists_eq_add_of_le' (show 2 ≤ n by rw [List.length_cons] at hn; omega)
        rw [iterations, etape_cons hap, if_neg hnd, if_neg hlife, if_neg ha, Option.bind_some, iterations,
          etape_cons ho, if_pos hadr]
        rfl

/-- **A tick destroys the objects that it removes** exactly where no box or projectile dies while another
sprite stands behind it in the vector. -/
theorem tickPropre_iff (p : PasseQT) (t : Int) (hn : p.adresses.Nodup) :
    TickPropre t p ↔ ∀ a s b, p.tous = a ++ s :: b → b ≠ [] → s.getId = 0 →
      ¬ s.Perit p.carte t a b := by
  have hfin := fun h => iterations_tient (t := t) p.tous
    (p := { p with avant := [], apres := p.tous, isMovement := false, detruits := [] }) rfl rfl le_rfl h
  have htient : Tient t { p with avant := [], apres := p.tous, isMovement := false, detruits := [] } ↔
      ∀ a s b, p.tous = a ++ s :: b → b ≠ [] → s.getId = 0 → ¬ s.Perit p.carte t a b := by
    unfold Tient
    refine forall_congr' fun a => forall_congr' fun s => forall_congr' fun b => imp_congr_right fun _ =>
      imp_congr_right fun _ => imp_congr_right fun hid => ?_
    rw [Sprite.perit_iff hid, Bool.not_eq_false]
    rfl
  rw [← htient]
  constructor
  · rintro ⟨p', hp', _⟩
    by_contra h
    rw [updateSprites, iterations_none p.tous rfl rfl le_rfl h] at hp'
    cases hp'
  · intro h
    obtain ⟨p', h1, _, h3⟩ := hfin h
    refine ⟨p', h1, ?_⟩
    have hadr : ({ p with avant := [], apres := p.tous, isMovement := false, detruits := [] } :
        PasseQT).adresses = p.adresses := rfl
    rw [hadr] at h3
    rcases h3 with ⟨hd, he⟩ | ⟨a, hd, he⟩
    · rw [hd, he]
      exact ⟨fun a => by simp, fun s _ => by simp, List.Sublist.refl _⟩
    · have hna : a ∉ p'.adresses := by
        rw [he] at hn
        exact fun ha => (List.nodup_append.mp hn).2.2 a ha a List.mem_cons_self rfl
      rw [hd, he]
      refine ⟨fun x => ?_, fun s hs => ?_, List.sublist_append_left _ _⟩
      · rw [List.mem_singleton, List.mem_append, List.mem_singleton]
        constructor
        · rintro rfl
          exact ⟨Or.inr rfl, hna⟩
        · rintro ⟨hx | hx, hnx⟩
          · exact absurd hx hnx
          · exact hx
      · rw [List.mem_singleton]
        rintro rfl
        exact hna (List.mem_map_of_mem hs)

/-- A worm on the cell of a box of 25 points. -/
def surLaCaisse : PasseQT where
  carte := Map.petite
  avant := [⟨⟨0, 1, 2, none⟩, .lombric ⟨7, 100, 150⟩⟩, ⟨⟨1, 1, 2, none⟩, .healthBox ⟨25⟩⟩]
  apres := []
  blockDeleted := []
  currentWorms := none
  timeRound := 30
  spentTime := 0
  tour := false
  isMovement := false
  detruits := []
  suivante := 2

theorem surLaCaisse_propre : TickPropre 25 surLaCaisse := by
  refine (tickPropre_iff surLaCaisse 25 (by decide)).mpr fun a s b hab hb hid => ?_
  rcases a with _ | ⟨x, _ | ⟨y, a⟩⟩
  · cases hab
    exact absurd hid (by decide)
  · cases hab
    exact absurd rfl hb
  · simp [surLaCaisse, tous] at hab

/-- The same with a second box behind, beside the worm. -/
def deuxCaisses : PasseQT :=
  { surLaCaisse with avant := surLaCaisse.avant ++ [⟨⟨2, 0, 2, none⟩, .healthBox ⟨25⟩⟩], suivante := 3 }

/-- The worm takes the first box: the second one is destroyed, and the tick comes to it. -/
theorem deuxCaisses_detruit :
    deuxCaisses.adresses = [0, 1, 2] ∧
      ((iterations 25 2 { deuxCaisses with avant := [], apres := deuxCaisses.avant }).map fun p =>
        (p.adresses, p.detruits)) = some ([0, 2], [2]) ∧
      deuxCaisses.updateSprites 25 = none ∧ ¬ TickPropre 25 deuxCaisses := by
  have hnone : (deuxCaisses.updateSprites 25).isNone = true := by decide +kernel
  refine ⟨rfl, by decide +kernel, by simpa using hnone, ?_⟩
  rintro ⟨p', hp', _⟩
  rw [hp'] at hnone
  cases hnone

end PasseQT

end LombricABrac
