import LombricABrac.Deplacements
import LombricABrac.Registre

/-!
# A move and the other worms

Between two calls nothing moves and worms stand on the ground, above the water; only a health box may
still have to fall.  The update that a move runs leaves every worm but the one that moved as it was,
unless such a box comes down on it.

    assis_update  : an update that returns leaves the game so
    update_autres : an update changes no other worm where no box can reach one
-/

namespace LombricABrac

namespace Sprite

variable {m : Map} {t : Int} {v : List Sprite} {s : Sprite} {a : Nat}

/-- A worm, and not the one at the address `a`. -/
def autre (a : Nat) (s : Sprite) : Bool :=
  match s.corps with
  | .lombric _ => s.adresse != a
  | _ => false

theorem autre_iff : s.autre a = true ↔ (∃ l, s.corps = .lombric l) ∧ s.adresse ≠ a := by
  obtain ⟨b, c⟩ := s
  cases c <;> simp [autre]

theorem autre_of_id (h : s.getId ≠ 0) (ha : s.adresse ≠ a) : s.autre a = true :=
  autre_iff.mpr ⟨exists_lombric h, ha⟩

/-- Subclass and address are all it looks at. -/
theorem autre_congr {s' : Sprite} (hf : s'.forme = s.forme) (ha : s'.adresse = s.adresse) :
    s'.autre a = s.autre a := by
  obtain ⟨b, c⟩ := s
  obtain ⟨b', c'⟩ := s'
  have ha : b'.adresse = b.adresse := ha
  cases c <;> cases c' <;> simp_all [forme, autre]

/-- At rest on the ground, above the drowning line. -/
structure Pied (m : Map) (s : Sprite) : Prop where
  immobile : s.movement = none
  sol : m.isAir s.posX (s.posY + 1) = false
  sec : u32 s.posY < m.ligneNoyade

/-- A living worm that stands stays as it is. -/
theorem suivant_pied {l : Lombric} (h : s.Pied m) (hl : s.corps = .lombric l) (hv : 0 < l.vie) :
    (s.update m t v).alive = true ∧ s.suivant m t = s := by
  obtain ⟨b, c⟩ := s
  cases hl
  have hmv : b.movement = none := h.immobile
  have hsol : m.isAir b.posX (b.posY + 1) = false := h.sol
  have hsec : u32 b.posY < m.ligneNoyade := h.sec
  have htombe : b.tombe m t gravity = b := if_neg fun hn => by simp [hsol] at hn
  have hvol : b.vol m t = .repos := by
    unfold Base.vol
    rw [hmv]
  have hup : updateLombric m t b l = ⟨true, ⟨b, .lombric l⟩, none⟩ := by
    simp only [updateLombric, avanceLombric, hvol, htombe]
    rw [if_neg (not_le.mpr hsec), if_neg (by omega)]
    simp [hv.ne']
  constructor
  · show (updateLombric m t b l).alive = true
    rw [hup]
  · show (updateLombric m t b l).sprite = _
    rw [hup]

/-- Only what flies explodes. -/
theorem deathMove_of_ne (h : s.forme ≠ .projectile) : s.deathMove m t = (m, [], fun o => o) := by
  obtain ⟨b, c⟩ := s
  cases c with
  | projectile p => exact absurd rfl h
  | lombric l => rfl
  | healthBox x => rfl

/-- The worm that a box gives its points to is on the cell of the box. -/
theorem exists_of_soin {n : Int} (h : (s.update m t v).soin = some (a, n)) : s.forme = .healthBox ∧
    ∃ w ∈ v, w.adresse = a ∧ w.getId ≠ 0 ∧ w.posX = (s.suivant m t).posX ∧
      w.posY = (s.suivant m t).posY := by
  rw [← update_sprite m t v s]
  obtain ⟨b, c⟩ := s
  cases c with
  | lombric l => cases h
  | projectile p =>
    simp only [update, updateProjectile] at h
    split at h <;> cases h
  | healthBox x =>
    refine ⟨rfl, ?_⟩
    simp only [update, updateHealthBox_eq, ramasse] at h ⊢
    split at h
    · next w hw =>
      cases h
      have hp := List.find?_some hw
      simp only [ne_eq, decide_eq_true_eq] at hp
      exact ⟨w, List.mem_of_find?_eq_some hw, rfl, hp⟩
    · cases h

/-- An object that is no worm has no life to get. -/
theorem recoit_of_ne {soin : Option (Nat × Int)} (h : s.forme = .healthBox) : s.recoit soin = s := by
  obtain ⟨b, c⟩ := s
  cases c with
  | healthBox x =>
    unfold recoit
    split
    · split <;> rfl
    · rfl
  | lombric l => cases h
  | projectile p => cases h

end Sprite

/-! ## Boxes that fall -/

/-- Straight down, from the row `y0` or below. -/
structure PhysicsObject.Chute (x y0 : Int) (mv : PhysicsObject) : Prop where
  type : mv.moveType = .PARABOLE
  initX : mv.initX = x
  speedX : mv.initSpeedX = 0
  speedY : mv.initSpeedY = 0
  gravity : 0 ≤ mv.gravity
  initY : y0 ≤ mv.initY

theorem le_stdRound {z : Int} {q : ℚ} (h : (z : ℚ) ≤ q) : z ≤ stdRound q := by
  unfold stdRound
  split
  · exact Int.le_floor.mpr (by linarith)
  · have hle : ⌊-q + 1 / 2⌋ < -z + 1 := Int.floor_lt.mpr (by push_cast; linarith)
    omega

theorem PhysicsObject.Chute.update {x y0 : Int} {mv : PhysicsObject} (h : mv.Chute x y0) (t : Int) :
    (mv.update t).1 = x ∧ y0 ≤ (mv.update t).2 := by
  simp only [PhysicsObject.update, h.type, h.speedX, h.speedY, h.initX, zero_mul, zero_add, add_zero]
  refine ⟨stdRound_intCast x, le_stdRound ?_⟩
  have hy : (y0 : ℚ) ≤ mv.initY := by exact_mod_cast h.initY
  have hg : 0 ≤ mv.gravity * mv.temps t * mv.temps t / 2 := by
    have := mul_nonneg h.gravity (mul_self_nonneg (mv.temps t))
    linarith
  linarith

namespace Sprite

/-- The box does not meet a worm of `W`: it lies on another cell, or falls in a column of which it has
passed them all. -/
def Loin (m : Map) (W : List Sprite) (b : Sprite) : Prop :=
  (b.movement = none ∧ m.isAir b.posX (b.posY + 1) = false ∧
    ∀ w ∈ W, w.getId ≠ 0 → w.posX = b.posX → w.posY ≠ b.posY) ∨
  ∃ y0 : Int, (∀ w ∈ W, w.getId ≠ 0 → w.posX = b.posX → w.posY < y0) ∧ y0 ≤ b.posY ∧
    ∀ mv, b.movement = some mv → mv.Chute b.posX y0

variable {m : Map} {t : Int} {W v : List Sprite} {b : Sprite}

theorem Loin.ne (h : b.Loin m W) {w : Sprite} (hw : w ∈ W) (hid : w.getId ≠ 0) (hx : w.posX = b.posX) :
    w.posY ≠ b.posY := by
  rcases h with ⟨_, _, h⟩ | ⟨y0, h, hy, _⟩
  · exact h w hw hid hx
  · have := h w hw hid hx
    omega

/-- One step of the fall. -/
theorem Loin.suivant (h : b.Loin m W) (hf : b.forme = .healthBox) : (b.suivant m t).Loin m W := by
  obtain ⟨base, c⟩ := b
  cases c with
  | lombric l => cases hf
  | projectile p => cases hf
  | healthBox x =>
    have hbase : (suivant m t ⟨base, .healthBox x⟩).toBase = (base.avance m t).tombe m t boxGravity :=
      suivant_toBase m t _
    unfold Loin
    rw [hbase]
    rcases h with ⟨hmv, hsol, h⟩ | ⟨y0, h, hy, hchute⟩
    · have hmv : base.movement = none := hmv
      have havance : base.avance m t = base := by
        unfold Base.avance Base.vol
        rw [hmv]
      have htombe : base.tombe m t boxGravity = base := if_neg fun hn => by
        rw [show m.isAir base.posX (base.posY + 1) = false from hsol] at hn
        cases hn.2
      rw [havance, htombe]
      exact Or.inl ⟨hmv, hsol, h⟩
    · -- where it is after the movement
      have hplace : (base.avance m t).posX = base.posX ∧ y0 ≤ (base.avance m t).posY ∧
          ∀ mv, (base.avance m t).movement = some mv → mv.Chute base.posX y0 := by
        unfold Base.avance
        split
        · exact ⟨rfl, hy, hchute⟩
        · exact ⟨rfl, hy, nofun⟩
        · next x' y' hv =>
          obtain ⟨_, mv, hmv, hpos⟩ := Base.vol_libre hv
          obtain ⟨hx', hy'⟩ := (hchute mv hmv).update t
          rw [hpos] at hx' hy'
          exact ⟨hx', hy', hchute⟩
      obtain ⟨hx, hy, hchute⟩ := hplace
      refine Or.inr ⟨y0, ?_, ?_, ?_⟩
      · rw [(Base.tombe_pos ..).1, hx]
        exact h
      · rw [(Base.tombe_pos ..).2]
        exact hy
      · rw [(Base.tombe_pos ..).1, hx]
        unfold Base.tombe
        split
        · rintro mv ⟨⟩
          refine ⟨rfl, hx, rfl, rfl, ?_, hy⟩
          rw [boxGravity_eq]
          norm_num
        · exact hchute

end Sprite

/-! ## One pass -/

namespace Passe

variable {a : Nat} {m : Map} {W : List Sprite} {t : Int} {p : Passe}

/-- The map is `m`, the worms but the one at `a` are those of `W`, and nothing reaches these. -/
structure Intact (a : Nat) (m : Map) (W : List Sprite) (p : Passe) : Prop where
  carte : p.carte = m
  autres : p.tous.filter (Sprite.autre a) = W
  sansProjectile : ∀ s ∈ p.tous, s.forme ≠ .projectile
  caisses : ∀ s ∈ p.tous, s.forme = .healthBox → s.Loin m W

/-- Life goes to the worm at `a` alone. -/
theorem Intact.soin (h : Intact a m W p) {s : Sprite} (hs : s ∈ p.tous) {b : Nat} {n : Int}
    (hsoin : (s.update p.carte t p.tous).soin = some (b, n)) : b = a := by
  obtain ⟨hf, w, hw, rfl, hid, hx, hy⟩ := Sprite.exists_of_soin hsoin
  by_contra hne
  have hwW : w ∈ W := by
    rw [← h.autres]
    exact List.mem_filter.mpr ⟨hw, Sprite.autre_of_id hid hne⟩
  rw [h.carte] at hx hy
  exact ((h.caisses s hs hf).suivant hf).ne hwW hid hx hy

/-- A worm of `W` lives on where it is. -/
theorem Intact.immobile (hW : ∀ w ∈ W, w.Pied m ∧ ∃ l, w.corps = .lombric l ∧ 0 < l.vie)
    (h : Intact a m W p) (t : Int) {s : Sprite} (hs : s ∈ p.tous) (ha : s.autre a = true) :
    (s.update p.carte t p.tous).alive = true ∧ s.suivant m t = s := by
  have hsW : s ∈ W := by
    rw [← h.autres]
    exact List.mem_filter.mpr ⟨hs, ha⟩
  obtain ⟨hpied, l, hl, hv⟩ := hW s hsW
  rw [h.carte]
  exact Sprite.suivant_pied hpied hl hv

/-- The loop goes on after a sprite that lives. -/
theorem Intact.survit (hW : ∀ w ∈ W, w.Pied m ∧ ∃ l, w.corps = .lombric l ∧ 0 < l.vie)
    (h : Intact a m W p) {t : Int} {s : Sprite} {apres : List Sprite} (hap : p.apres = s :: apres)
    (halive : (s.update p.carte t p.tous).alive = true) : Intact a m W (p.survit t s apres) := by
  have htous : p.tous = p.avant ++ s :: apres := by rw [tous, hap]
  have hs : s ∈ p.tous := by simp [htous]
  have hsuiv : (s.update p.carte t p.tous).sprite = s.suivant m t := by
    rw [Sprite.update_sprite, h.carte]
  have htous' := @tous_survit_of_alive _ _ _ apres halive
  rw [hsuiv] at htous'
  refine ⟨h.carte, ?_, fun x hx => ?_, fun x hx hf => ?_⟩
  · rw [htous', ← h.autres, htous, List.filter_append, List.filter_append, List.filter_cons,
      List.filter_cons]
    have hmeme : (s.suivant m t).autre a = s.autre a :=
      Sprite.autre_congr (Sprite.suivant_forme m t s) (Sprite.update_adresse m t [] s)
    rw [hmeme]
    by_cases ha : s.autre a = true
    · rw [(h.immobile hW t hs ha).2]
    · rw [if_neg ha, if_neg ha]
  · rw [htous', List.mem_append, List.mem_cons] at hx
    rcases hx with hx | rfl | hx
    · exact h.sansProjectile x (by simp [htous, hx])
    · rw [Sprite.suivant_forme]
      exact h.sansProjectile s hs
    · exact h.sansProjectile x (by simp [htous, hx])
  · rw [htous', List.mem_append, List.mem_cons] at hx
    rcases hx with hx | rfl | hx
    · exact h.caisses x (by simp [htous, hx]) hf
    · rw [Sprite.suivant_forme] at hf
      exact (h.caisses s hs hf).suivant hf
    · exact h.caisses x (by simp [htous, hx]) hf

/-- One that dies is not in `W`, and what it gives goes to the worm at `a`. -/
theorem Intact.meurt (h : Intact a m W p) {t : Int} {s : Sprite} {apres : List Sprite}
    (hap : p.apres = s :: apres) (hnon : s.autre a = false) : Intact a m W (p.meurt t s apres) := by
  have htous : p.tous = p.avant ++ s :: apres := by rw [tous, hap]
  have hs : s ∈ p.tous := by simp [htous]
  have hdeath : (s.update p.carte t p.tous).sprite.deathMove p.carte t = (p.carte, [], fun o => o) :=
    Sprite.deathMove_of_ne (by rw [Sprite.update_forme]; exact h.sansProjectile s hs)
  have htous' : (p.meurt t s apres).tous =
      (p.avant ++ apres).map (Sprite.recoit (s.update p.carte t p.tous).soin) := by
    rw [tous_meurt, hdeath]
    exact List.map_id' _
  have hmem : ∀ o ∈ p.avant ++ apres, o ∈ p.tous := fun o ho => by
    rw [htous]
    exact ((List.sublist_cons_self s apres).append_left p.avant).subset ho
  refine ⟨?_, ?_, fun x hx => ?_, fun x hx hf => ?_⟩
  · show ((s.update p.carte t p.tous).sprite.deathMove p.carte t).1 = m
    rw [hdeath]
    exact h.carte
  · -- who gets the points of a box is not in `W`
    have hsans : p.tous.filter (Sprite.autre a) = (p.avant ++ apres).filter (Sprite.autre a) := by
      rw [htous, List.filter_append, List.filter_append, List.filter_cons_of_neg (by simp [hnon])]
    rw [htous', List.filter_map, ← h.autres, hsans]
    have hcomp : ((Sprite.autre a) ∘ Sprite.recoit (s.update p.carte t p.tous).soin) = Sprite.autre a := by
      funext o
      exact Sprite.autre_congr (Sprite.recoit_forme _ o) (by simp)
    rw [hcomp]
    refine (List.map_congr_left fun o ho => ?_).trans (List.map_id' _)
    have hne := (Sprite.autre_iff.mp (List.mem_filter.mp ho).2).2
    unfold Sprite.recoit
    split
    · next b n hsoin => rw [h.soin hs hsoin, if_neg hne]
    · rfl
  · rw [htous'] at hx
    obtain ⟨o, ho, rfl⟩ := List.mem_map.mp hx
    rw [Sprite.recoit_forme]
    exact h.sansProjectile o (hmem o ho)
  · rw [htous'] at hx
    obtain ⟨o, ho, rfl⟩ := List.mem_map.mp hx
    rw [Sprite.recoit_forme] at hf
    rw [Sprite.recoit_of_ne hf]
    exact h.caisses o (hmem o ho) hf

/-- **One step.**  Nobody of `W` dies, and the update of each leaves it as it is. -/
theorem Intact.etape (hW : ∀ w ∈ W, w.Pied m ∧ ∃ l, w.corps = .lombric l ∧ 0 < l.vie)
    (h : Intact a m W p) (t : Int) : Intact a m W (p.etape t) := by
  cases hap : p.apres with
  | nil => rwa [etape_nil hap]
  | cons s apres =>
    have hs : s ∈ p.tous := by simp [tous, hap]
    rw [etape_cons hap]
    split
    · next halive => exact h.survit hW hap halive
    · next hmort =>
      exact h.meurt hap (Bool.eq_false_iff.mpr fun ha => hmort (h.immobile hW t hs ha).1)

end Passe

/-! ## An update -/

namespace Partie

variable {p p' : Partie} {a : Nat}

/-- The worms but the one at `a`. -/
def autres (a : Nat) (p : Partie) : List Sprite := p.spriteVector.filter (Sprite.autre a)

/-- **An update leaves the other worms and the terrain alone**, where they stand and nothing reaches
them. -/
theorem update_autres {fuel : Nat}
    (hW : ∀ w ∈ p.autres a, w.Pied p.carte ∧ ∃ l, w.corps = .lombric l ∧ 0 < l.vie)
    (hproj : ∀ s ∈ p.spriteVector, s.forme ≠ .projectile)
    (hc : ∀ s ∈ p.spriteVector, s.forme = .healthBox → s.Loin p.carte (p.autres a))
    (hu : p.update fuel = some p') : p'.carte = p.carte ∧ p'.autres a = p.autres a := by
  have hfin : Passe.Intact a p.carte (p.autres a)
      ⟨p'.carte, [], p'.spriteVector, p'.blockDeleted, p'.endTour, false⟩ := by
    refine Ticks.loop_keeps (I := fun q => Passe.Intact a p.carte (p.autres a)
      ⟨q.carte, [], q.spriteVector, q.blockDeleted, q.endTour, false⟩) (fun t q hq => ?_) fuel 0 p p'
      ?_ hu
    · obtain ⟨h1, h2, h3, h4⟩ := passe_rule (fun r hr => hr.etape hW t) hq
      rw [passe_tous] at h2 h3 h4
      exact ⟨h1, h2, h3, h4⟩
    · exact ⟨rfl, rfl, hproj, hc⟩
  exact ⟨hfin.carte, hfin.autres⟩

/-- Nothing moves, nothing flies, and worms stand on the ground above the water. -/
structure Assis (p : Partie) : Prop where
  registre : p.Registre fun _ => True
  immobile : ∀ s ∈ p.spriteVector, s.movement = none
  sansProjectile : ∀ s ∈ p.spriteVector, s.forme ≠ .projectile
  pied : ∀ s ∈ p.spriteVector, (∃ l, s.corps = .lombric l) → s.Pied p.carte

/-- What a loop that returns leaves. -/
theorem assis_update {fuel : Nat} (hr : p.Registre fun _ => True) (hv : p.Partout Sprite.EnVol)
    (hu : p.update fuel = some p') : p'.Assis := by
  have hrepos : (∀ s ∈ p'.spriteVector, s.movement = none) ∧
      (∀ s ∈ p'.spriteVector, s.forme ≠ .projectile) ∧
      ∀ s ∈ p'.spriteVector, p'.carte.isAir s.posX (s.posY + 1) = false := by
    refine Ticks.loop_rule (I := Partout Sprite.EnVol)
      (Q := fun q : Partie => (∀ s ∈ q.spriteVector, s.movement = none) ∧
        (∀ s ∈ q.spriteVector, s.forme ≠ .projectile) ∧
        ∀ s ∈ q.spriteVector, q.carte.isAir s.posX (s.posY + 1) = false)
      (fun t q => updateSprites_keeps Sprite.enVol_tenu t q) (fun t q hq hf => ?_) fuel 0 p p' hv hu
    obtain ⟨he, hmv, halive⟩ := updateSprites_quiet hf
    have hnone : ∀ s ∈ q.spriteVector, (s.suivant q.carte t).movement = none := fun s hs => by
      simpa [Sprite.isInMovement] using hmv s hs
    have hproj : ∀ s ∈ q.spriteVector, s.forme ≠ .projectile := by
      intro s hs hforme
      obtain ⟨a, b, hab⟩ := List.append_of_mem hs
      have hvol := Sprite.enVol_tenu.update (hq s hs) (halive a s b hab)
        ((Sprite.update_forme ..).trans hforme)
      rw [Sprite.update_sprite, hmv s hs] at hvol
      cases hvol
    rw [he]
    refine ⟨fun s' hs' => ?_, fun s' hs' => ?_, fun s' hs' => ?_⟩ <;>
      obtain ⟨s, hs, rfl⟩ := List.mem_map.mp hs'
    · exact hnone s hs
    · rw [Sprite.suivant_forme]
      exact hproj s hs
    · exact Sprite.isAir_below_suivant (hproj s hs) (hnone s hs)
  refine ⟨hr.update hu, hrepos.1, hrepos.2.1, fun s hs hlomb => ?_⟩
  obtain ⟨l, hl⟩ := hlomb
  exact ⟨hrepos.1 s hs, hrepos.2.2 s hs, (update_vivants hu hs hl).2⟩

theorem Assis.enVol (h : p.Assis) : p.Partout Sprite.EnVol :=
  fun s hs hf => absurd hf (h.sansProjectile s hs)

theorem Assis.setCurrentLomb (h : p.Assis) (id : Nat) : (p.setCurrentLomb id).Assis :=
  ⟨h.registre.setCurrentLomb id, h.immobile, h.sansProjectile, h.pied⟩

theorem Assis.dropHealthBox (h : p.Assis) {pv : Int} {rand reste : List Nat} {pos : Nat × Nat}
    (hd : p.dropHealthBox pv rand = some (p', pos, reste)) : p'.Assis := by
  have hr := h.registre.dropHealthBox hd trivial
  unfold Partie.dropHealthBox at hd
  split at hd
  · cases hd
  · cases hd
    refine ⟨hr, fun s hs => ?_, fun s hs => ?_, fun s hs hl => ?_⟩ <;>
      rcases List.mem_append.mp hs with hs | hs
    · exact h.immobile s hs
    · rw [List.mem_singleton.mp hs]
    · exact h.sansProjectile s hs
    · rw [List.mem_singleton.mp hs]
      exact nofun
    · exact h.pied s hs hl
    · rw [List.mem_singleton.mp hs] at hl
      obtain ⟨_, hl⟩ := hl
      cases hl

/-- The water rises and the game comes to rest. -/
theorem Assis.monte {p₁ : Partie} {fuel : Nat} (h : p.Assis) (hw : p.increaseWaterLevel = some p₁)
    (hu : p₁.update fuel = some p') : p'.Assis := by
  refine assis_update (h.registre.increaseWaterLevel hw) (fun s hs => ?_) hu
  obtain ⟨carte, _, rfl⟩ := Option.map_eq_some_iff.mp hw
  exact h.enVol s hs

theorem Assis.useWeapon {calculDirVect : Direction} {fuel : Nat} {tir : Tir} {murs : List Nat}
    {degats : List Degat} (h : p.Assis) (hs : p.useWeapon calculDirVect fuel tir = some (p', murs, degats)) :
    p'.Assis := by
  obtain ⟨q, hb, he⟩ := Option.map_eq_some_iff.mp hs
  obtain ⟨p₁, hp₁, hu⟩ := Option.bind_eq_some_iff.mp hb
  cases he
  have h₀ : Partie.Registre (fun _ => True) { p with blockDeleted := [] } :=
    ⟨h.registre.nodup, h.registre.lt, h.registre.nature⟩
  refine assis_update (h₀.shoot hp₁ trivial) (fun s hs hf => ?_) hu
  unfold Partie.shoot at hp₁
  split at hp₁
  · obtain ⟨lomb, _, rfl⟩ := Option.map_eq_some_iff.mp hp₁
    rcases List.mem_append.mp hs with hs | hs
    · exact h.enVol s hs hf
    · rw [List.mem_singleton.mp hs]
      rfl
  · obtain ⟨lomb, _, rfl⟩ := Option.map_eq_some_iff.mp hp₁
    obtain ⟨s₀, hs₀, rfl⟩ := List.mem_map.mp hs
    have hne := h.sansProjectile s₀ hs₀
    split at hf
    · exact absurd ((Sprite.addLife_forme s₀ (-25)).symm.trans hf) hne
    · exact absurd hf hne
  · cases hp₁
    exact h.enVol s hs hf
  · cases hp₁

theorem Assis.moveCurrentLombric {fuel : Nat} {lp : LombPos} (h : p.Assis)
    (hm : p.moveCurrentLombric fuel lp = some p') : p'.Assis := by
  rcases moveCurrentLombric_cases hm with rfl | ⟨adresse, hu⟩
  · exact h
  · refine assis_update (h.registre.poser _ _ _) (fun s' hs' hf => ?_) hu
    obtain ⟨s, hs, rfl⟩ := List.mem_map.mp hs'
    have hs := h.sansProjectile s hs
    split at hf <;> exact absurd hf hs

/-- Where START puts worms there is ground below, and no water yet. -/
theorem nouveauxLombrics_pied {carte : Map} (hw : carte.waterLevel = 0) {pv maxPv : Int} (ids : List Nat) :
    ∀ {adresse : Nat} {rand reste : List Nat} {lombs : List Sprite},
      nouveauxLombrics carte pv maxPv ids adresse rand = some (lombs, reste) →
      ∀ s ∈ lombs, s.forme ≠ .projectile ∧ s.Pied carte := by
  induction ids with
  | nil =>
    intro adresse rand reste lombs h s hs
    cases h
    cases hs
  | cons id ids ih =>
    intro adresse rand reste lombs h
    rw [nouveauxLombrics] at h
    split at h
    · cases h
    · next x saveY y rand' hp =>
      obtain ⟨⟨lombs', reste'⟩, hr, he⟩ := Option.map_eq_some_iff.mp h
      cases he
      intro s hs
      rcases List.mem_cons.mp hs with rfl | hs
      · have hpose := carte.place_pose rand hp
        have hy : u32 ((y : Int) + 1) = y + 1 := by exact_mod_cast u32_natCast (y + 1)
        have hdernier := hpose.dernier
        refine ⟨fun hf => (by cases hf), rfl, ?_, ?_⟩
        · simp only [Map.isAir, u32_natCast, hy]
          exact hpose.appui
        · simp only [u32_natCast]
          rw [Map.ligneNoyade_eq (by omega)]
          omega
      · exact ih hr s hs

theorem assis_setParam {m : Map} (hw : m.waterLevel = 0) {pv maxPv : Int} {ids rand reste : List Nat}
    {lombs : List Sprite} (h : nouveauxLombrics m pv maxPv ids 0 rand = some (lombs, reste))
    (endTour : Bool) : (setParam m lombs endTour).Assis where
  registre := registre_setParam h endTour fun _ _ => trivial
  immobile s hs := (nouveauxLombrics_pied hw ids h s hs).2.immobile
  sansProjectile s hs := (nouveauxLombrics_pied hw ids h s hs).1
  pied s hs _ := (nouveauxLombrics_pied hw ids h s hs).2

/-! ## A move -/

/-- The worms but the one at `a` live, and no box can reach one: none is on the cell of a box, and none
in the column below where the box has AIR under it. -/
def sansAtteinte (a : Nat) (p : Partie) : Bool :=
  (p.autres a).all fun w => decide (0 < w.getLife) && p.spriteVector.all fun b =>
    b.forme != .healthBox || w.getId == 0 || w.posX != b.posX ||
      if p.carte.isAir b.posX (b.posY + 1) then decide (w.posY < b.posY) else w.posY != b.posY

theorem loin_of_sansAtteinte (h : p.Assis) (hc : p.sansAtteinte a = true) {b : Sprite}
    (hb : b ∈ p.spriteVector) (hf : b.forme = .healthBox) : b.Loin p.carte (p.autres a) := by
  have hw : ∀ w ∈ p.autres a, w.getId ≠ 0 → w.posX = b.posX →
      if p.carte.isAir b.posX (b.posY + 1) then w.posY < b.posY else w.posY ≠ b.posY := by
    intro w hw hid hx
    have := (Bool.and_eq_true_iff.mp (List.all_eq_true.mp hc w hw)).2
    have := List.all_eq_true.mp this b hb
    simpa [hf, hid, hx] using this
  by_cases hair : p.carte.isAir b.posX (b.posY + 1) = true
  · refine Or.inr ⟨b.posY, fun w hmem hid hx => ?_, le_rfl, fun mv hmv => ?_⟩
    · have := hw w hmem hid hx
      rwa [if_pos hair] at this
    · rw [h.immobile b hb] at hmv
      cases hmv
  · refine Or.inl ⟨h.immobile b hb, by simpa using hair, fun w hmem hid hx => ?_⟩
    have := hw w hmem hid hx
    rwa [if_neg hair] at this

/-- **A move touches the worm that moves, and no other.** -/
theorem poser_autres {fuel : Nat} {w : Sprite} {x y : Int} (h : p.Assis) (hw : p.current = some w)
    (hlomb : ∃ l, w.corps = .lombric l) (hc : p.sansAtteinte w.adresse = true)
    (hu : (p.poser w.adresse x y).update fuel = some p') :
    p'.carte = p.carte ∧ p'.autres w.adresse = p.autres w.adresse := by
  obtain ⟨l, hl⟩ := hlomb
  have hmem : w ∈ p.spriteVector := by
    obtain ⟨a, _, hf⟩ := Option.bind_eq_some_iff.mp hw
    exact List.mem_of_find?_eq_some hf
  have hautres : (p.poser w.adresse x y).autres w.adresse = p.autres w.adresse := by
    unfold autres poser
    rw [List.filter_map]
    have hcomp : Sprite.autre w.adresse ∘ (fun s : Sprite =>
        if s.adresse = w.adresse then { s with toBase := s.setPos x y } else s) = Sprite.autre w.adresse := by
      funext s
      simp only [Function.comp_apply]
      split <;> rfl
    rw [hcomp]
    refine (List.map_congr_left fun s hs => ?_).trans (List.map_id' _)
    exact if_neg (Sprite.autre_iff.mp (List.mem_filter.mp hs).2).2
  have hsprite : ∀ s' ∈ (p.poser w.adresse x y).spriteVector, s'.forme = .healthBox →
      s' ∈ p.spriteVector := by
    intro s' hs' hf
    obtain ⟨s, hs, rfl⟩ := List.mem_map.mp hs'
    split at hf
    · next ha =>
      -- the object at that address is the worm
      have he : s = w := List.inj_on_of_nodup_map h.registre.nodup hs hmem ha
      rw [he] at hf
      simp [Sprite.forme, hl] at hf
    · next ha =>
      rw [if_neg ha]
      exact hs
  rw [← hautres]
  refine update_autres (fun s hs => ?_) (fun s' hs' hf => ?_) (fun s hs hf => ?_) hu
  · rw [hautres] at hs
    obtain ⟨hin, ha⟩ := List.mem_filter.mp hs
    obtain ⟨⟨l, hl⟩, _⟩ := Sprite.autre_iff.mp ha
    have hv := (Bool.and_eq_true_iff.mp (List.all_eq_true.mp hc s hs)).1
    rw [decide_eq_true_eq, Sprite.getLife, hl] at hv
    exact ⟨h.pied s hin ⟨l, hl⟩, l, hl, hv⟩
  · obtain ⟨s, hs, rfl⟩ := List.mem_map.mp hs'
    have := h.sansProjectile s hs
    split at hf <;> exact absurd hf this
  · rw [hautres]
    exact loin_of_sansAtteinte h hc (hsprite s hs hf) hf

end Partie
end LombricABrac
