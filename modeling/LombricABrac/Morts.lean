import LombricABrac.ClientTick
import LombricABrac.LombricSync
import LombricABrac.MapSync
import LombricABrac.Lib.Runs

/-!
# Dead worms of the client

The client keeps a worm that has died in its vector.  Its own update passes over it, explosions and bats
only take life, but `HealthBox::update` looks for any worm on the cell of the box and gives it the points.

    Touche        : what an operation does to a sprite at the address of a dead worm
    etape_mort    : one iteration of a tick
    mort_reste    : a dead worm stays dead while no box is taken by it
    mort_ranime   : a bat kills a worm, a box falls on it
-/

namespace LombricABrac

open Partie (Tir Direction Degat)

namespace PasseQT

/-! ## The game between two ticks -/

/-- The worm that `currentWorms` points to. -/
def current (p : PasseQT) : Option Sprite :=
  p.currentWorms.bind fun a => p.avant.find? fun s => s.adresse = a

/-- `spriteVector.push_back`. -/
def pushBack (p : PasseQT) (posX posY : Int) (movement : Option PhysicsObject) (corps : Corps) : PasseQT :=
  { p with avant := p.avant ++ [⟨⟨p.suivante, posX, posY, movement⟩, corps⟩], suivante := p.suivante + 1 }

def lanceMissile (calculDirVect : Direction) (t force angle : Int) (p : PasseQT) : Option PasseQT :=
  p.current.map fun lomb =>
    let v : Int := (25 * force).tdiv 100
    let base : Base := ⟨p.suivante, lomb.posX, lomb.posY - 1, none⟩
    p.pushBack lomb.posX (lomb.posY - 1)
      (base.setMovement ((calculDirVect angle).1 * v) ((calculDirVect angle).2 * v) gravity
        .PARABOLE t).movement (.projectile Partie.missile)

def batteBaseball (calculDirVect : Direction) (t angle : Int) (p : PasseQT) : Option PasseQT :=
  p.current.map fun lomb =>
    { p with avant := p.avant.map fun s =>
        if s.getId ≠ 0 ∧ s.adresse ≠ lomb.adresse ∧ s.posX = lomb.posX ∧ s.posY = lomb.posY then
          { s.addLife (-25) with
            toBase := s.setMovement ((calculDirVect angle).1 * 20) ((calculDirVect angle).2 * 20)
              gravity .PARABOLE t }
        else s }

/-- `usedWeapon->shoot`, and the end of the turn; `none` past the end of `armesVector`. -/
def shoot (calculDirVect : Direction) (tir : Tir) (t : Int) (p : PasseQT) : Option PasseQT :=
  (match tir.idArme with
  | 0 => p.lanceMissile calculDirVect t (Partie.int32 tir.force) (Partie.int32 tir.angle)
  | 1 => p.batteBaseball calculDirVect t (Partie.int32 tir.angle)
  | 2 => some p
  | _ => none).map fun (q : PasseQT) => { q with spentTime := q.timeRound }

/-- NEXT_ROUND, with the lists of LOMB_DMG and UPDATE_WALL. -/
def nextRound (next : NextLombric) (degats : List Degat) (coord : List Nat) (heathOfBox : Int)
    (p : PasseQT) : Option PasseQT :=
  let carte := PartieQT.pose air coord (PartieQT.pose lightWall (p.blockDeleted.map u32) p.carte)
  (carte.setWaterLevel next.waterLevel).map fun carte =>
    let q := { p with
      carte := carte
      avant := PartieQT.synchronizeLombrics degats p.avant
      blockDeleted := []
      currentWorms := (lombricDe next.idLomb p.avant).map fun s => s.adresse
      spentTime := 0
      tour := next.isYours }
    if 0 ≤ next.x ∧ 0 ≤ next.y then q.pushBack next.x next.y none (.healthBox ⟨heathOfBox⟩) else q

/-- What `updateGame` does, one iteration of its tick at a time.  `place` is a move, of another player
(POS_LOMB_R) or of this one. -/
inductive Acte where
  | debut
  | sprite (t : Int)
  | tir (tir : Tir) (t : Int)
  | nextRound (next : NextLombric) (degats : List Degat) (coord : List Nat) (heathOfBox : Int)
  | place (adresse : Nat) (x y : Int)

/-- Only `sprite` is taken inside a tick. -/
def acte (calculDirVect : Direction) : Acte → PasseQT → Option PasseQT
  | .sprite t, p => if p.apres.isEmpty then none else p.etape t
  | .debut, p =>
    if p.apres.isEmpty then
      some { p with avant := [], apres := p.avant, isMovement := false, detruits := [] }
    else none
  | .tir tir t, p => if p.apres.isEmpty then p.shoot calculDirVect tir t else none
  | .nextRound next degats coord heathOfBox, p =>
    if p.apres.isEmpty then p.nextRound next degats coord heathOfBox else none
  | .place adresse x y, p =>
    if p.apres.isEmpty then
      some { p with avant := p.avant.map fun s =>
        if s.adresse = adresse then { s with toBase := s.setPos x y } else s }
    else none

/-! ## What is compared -/

/-- The worm at that address is dead. -/
def Mort (a : Nat) (p : PasseQT) : Prop := ∀ s ∈ p.tous, s.adresse = a → s.getLife ≤ 0

/-- The projectiles take life, as the missiles of LanceMissile. -/
def Missiles (p : PasseQT) : Prop := ∀ s ∈ p.tous, ∀ m, s.corps = .projectile m → m.dommage ≤ 0

/-- No list of LOMB_DMG gives that worm positive life. -/
def SansDegat (a : Nat) : Acte → PasseQT → Prop
  | .nextRound _ degats _ _, p =>
    ∀ s ∈ p.tous, s.adresse = a → ∀ l ∈ degats, l.idLomb = s.getId → Partie.int32 l.vie ≤ 0
  | _, _ => True

/-- The box that is treated, if there is one, is not taken by that worm, or leaves it without life. -/
def SansSoin (a : Nat) : Acte → PasseQT → Prop
  | .sprite t, p =>
    ∀ s apres b, p.apres = s :: apres → s.corps = .healthBox b →
      ∀ w, Sprite.surMaCase (s.avance p.carte t) p.tous = some w → w.adresse = a →
        ∀ o ∈ p.tous, o.adresse = a → (o.addLife b.health).getLife ≤ 0
  | _, _ => True

end PasseQT

/-! ## Operations on one sprite -/

namespace Sprite

variable {a : Nat} {carte : Map} {t : Int} {s : Sprite}

/-- A sprite of a game where the worm at `a` is dead. -/
structure Inerte (a : Nat) (s : Sprite) : Prop where
  mort : s.adresse = a → s.getLife ≤ 0
  missile : ∀ m, s.corps = .projectile m → m.dommage ≤ 0

theorem Inerte.of_corps {s' : Sprite} (h : Inerte a s) (ha : s'.adresse = s.adresse)
    (hc : s'.corps = s.corps) : Inerte a s' := by
  refine ⟨fun e => ?_, fun m hm => h.missile m (hc ▸ hm)⟩
  have := h.mort (ha ▸ e)
  unfold getLife at this ⊢
  rwa [hc]

theorem getLife_addLife_le {n : Int} (h : s.getLife ≤ 0) (hn : n ≤ 0) : (s.addLife n).getLife ≤ 0 := by
  obtain ⟨b, c⟩ := s
  cases c with
  | lombric l =>
    simp only [addLife, Lombric.addLife, getLife] at h ⊢
    split <;> omega
  | projectile p => exact h
  | healthBox x => exact h

theorem Inerte.addLife {n : Int} (h : Inerte a s) (hn : s.adresse = a → (s.addLife n).getLife ≤ 0) :
    Inerte a (s.addLife n) := by
  refine ⟨fun e => hn (by simpa using e), fun m hm => ?_⟩
  obtain ⟨b, c⟩ := s
  cases c with
  | lombric l => cases hm
  | projectile p => exact h.missile m hm
  | healthBox x => cases hm

/-- An explosion within reach never gives life. -/
theorem dommageExplosion_nonpos {degat : Int} {radius n : Nat} (hd : degat ≤ 0) (hn : n ≤ radius ^ 2) :
    dommageExplosion degat radius n ≤ 0 := by
  have hracine : Map.ceilSqrt (4 * degat.natAbs ^ 2 * n) ≤ 2 * degat.natAbs * radius := by
    apply Map.ceilSqrt_le
    calc 4 * degat.natAbs ^ 2 * n ≤ 4 * degat.natAbs ^ 2 * radius ^ 2 := by gcongr
      _ = (2 * degat.natAbs * radius) ^ 2 := by ring
  have hpos : (0 : Int) ≤ ((2 * degat.natAbs + 1) * radius - Map.ceilSqrt (4 * degat.natAbs ^ 2 * n) : Int) /
      (2 * radius) := by
    apply Int.ediv_nonneg _ (by positivity)
    have : ((Map.ceilSqrt (4 * degat.natAbs ^ 2 * n) : Nat) : Int) ≤ 2 * degat.natAbs * radius := by
      exact_mod_cast hracine
    linarith
  have hsign : degat.sign ≤ 0 := by
    rcases eq_or_lt_of_le hd with rfl | hneg
    · exact le_rfl
    · rw [Int.sign_eq_neg_one_of_neg hneg]
      omega
  exact mul_nonpos_of_nonpos_of_nonneg hsign hpos

theorem getLife_castInt_le {vie : Int} (hv : vie ≤ 0) {impact : ℚ} (h : fallDamageSpeed ≤ impact) :
    castInt (vie - impact) ≤ 0 := by
  have himpact : (0 : ℚ) ≤ impact := by
    rw [fallDamageSpeed] at h
    linarith
  have hvie : (vie : ℚ) ≤ 0 := by exact_mod_cast hv
  unfold castInt
  split
  · exact Int.floor_nonpos (by linarith)
  · have : 0 ≤ ⌊-((vie : ℚ) - impact)⌋ := Int.floor_nonneg.mpr (by linarith)
    omega

/-- An update never gives life to the sprite that is updated. -/
theorem getLife_suivant_le (h : s.getLife ≤ 0) : (s.suivant carte t).getLife ≤ 0 := by
  obtain ⟨b, c⟩ := s
  cases c with
  | lombric l =>
    have hl : l.vie ≤ 0 := h
    have hbouge : (avanceLombric carte t b l).2 ≤ 0 := by
      unfold avanceLombric
      split
      · exact hl
      · simp only
        split
        · next hi => exact getLife_castInt_le hl hi
        · exact hl
      · split
        · exact le_rfl
        · exact hl
    simp only [suivant, update, updateLombric, getLife]
    split <;> split <;> omega
  | projectile p => rw [getLife, show (suivant carte t ⟨b, .projectile p⟩).corps = .projectile p by
      simp only [suivant, update, updateProjectile]; split <;> rfl]
  | healthBox x => rw [getLife, show (suivant carte t ⟨b, .healthBox x⟩).corps = .healthBox x by
      simp only [suivant, update, updateHealthBox_eq, ramasse]; split <;> rfl]

theorem Inerte.suivant (h : Inerte a s) : Inerte a (s.suivant carte t) := by
  refine ⟨fun e => getLife_suivant_le (h.mort ?_), fun m hm => ?_⟩
  · rwa [← update_adresse carte t [] s]
  · obtain ⟨b, c⟩ := s
    cases c with
    | lombric l => cases hm
    | projectile p =>
      have hp : (Sprite.suivant carte t ⟨b, .projectile p⟩).corps = .projectile p := by
        simp only [Sprite.suivant, update, updateProjectile]
        split <;> rfl
      rw [hp] at hm
      exact h.missile m hm
    | healthBox x =>
      simp only [Sprite.suivant, update, updateHealthBox_eq, ramasse] at hm
      split at hm <;> cases hm

/-- The worms that the death of `o` hits lose life. -/
theorem Inerte.deathMove {o : Sprite} (h : Inerte a s) (ho : ∀ m, o.corps = .projectile m → m.dommage ≤ 0) :
    Inerte a ((o.deathMove carte t).2.2 s) := by
  unfold Sprite.deathMove
  split
  · next m hm =>
    simp only
    split
    · unfold explosed
      simp only
      split
      · next hle =>
        refine Inerte.of_corps (h.addLife fun e => ?_) (congrArg Base.adresse (addLife_toBase s _)).symm rfl
        exact getLife_addLife_le (h.mort e) (dommageExplosion_nonpos (ho m hm) hle)
      · exact h
    · exact h
  · exact h

theorem Inerte.recoit {soin : Option (Nat × Int)} (h : Inerte a s)
    (hs : ∀ n, soin = some (a, n) → s.adresse = a → (s.addLife n).getLife ≤ 0) : Inerte a (s.recoit soin) := by
  unfold Sprite.recoit
  split
  · next b n =>
    split
    · next hb => exact h.addLife fun e => hs n (by rw [← e, hb]) e
    · exact h
  · exact h

/-- Entries of LOMB_DMG without life for the worm. -/
theorem Inerte.recoitDegat {l : Degat} (h : Inerte a s)
    (hl : s.adresse = a → l.idLomb = s.getId → Partie.int32 l.vie ≤ 0) (hid : s.getId = l.idLomb) :
    Inerte a (PartieQT.recoit l s) := by
  unfold PartieQT.recoit
  split
  · next w hw => exact ⟨fun e => hl e hid.symm, fun m hm => nomatch hm⟩
  · exact h

end Sprite

namespace PasseQT

variable {a : Nat} {t : Int} {p p' : PasseQT} {calculDirVect : Direction}

theorem inertes_iff : Mort a p ∧ Missiles p ↔ ∀ s ∈ p.tous, Sprite.Inerte a s :=
  ⟨fun h s hs => ⟨h.1 s hs, h.2 s hs⟩, fun h => ⟨fun s hs => (h s hs).mort, fun s hs => (h s hs).missile⟩⟩

/-! ## One step -/

/-- Who gets the points of the head. -/
theorem soin_of_sansSoin {s : Sprite} {apres : List Sprite} (hap : p.apres = s :: apres)
    (h : SansSoin a (.sprite t) p) {n : Int} (hs : (s.update p.carte t p.tous).soin = some (a, n))
    {o : Sprite} (ho : o ∈ p.tous) (he : o.adresse = a) : (o.addLife n).getLife ≤ 0 := by
  obtain ⟨b, c⟩ := s
  cases c with
  | lombric l => cases hs
  | projectile m =>
    simp only [Sprite.update, Sprite.updateProjectile] at hs
    split at hs <;> cases hs
  | healthBox x =>
    simp only [Sprite.update, Sprite.updateHealthBox_eq, Sprite.ramasse] at hs
    split at hs
    · next w hw =>
      cases hs
      refine h _ apres x hap rfl w ?_ rfl o ho he
      unfold Sprite.surMaCase at hw ⊢
      rwa [(Base.tombe_pos ..).1, (Base.tombe_pos ..).2] at hw
    · cases hs

/-- **One iteration** leaves the dead worm dead unless it takes a box. -/
theorem etape_inerte (h : ∀ s ∈ p.tous, Sprite.Inerte a s) (hg : SansSoin a (.sprite t) p)
    (he : p.etape t = some p') : ∀ s ∈ p'.tous, Sprite.Inerte a s := by
  cases hap : p.apres with
  | nil =>
    rw [etape, hap] at he
    cases he
    exact h
  | cons s apres =>
    have htous : p.tous = p.avant ++ s :: apres := by rw [tous, hap]
    have hs : Sprite.Inerte a s := h s (by simp [htous])
    have hrec : ∀ o ∈ p.tous, Sprite.Inerte a (o.recoit (s.update p.carte t p.tous).soin) := fun o ho =>
      (h o ho).recoit fun n hn ha => soin_of_sansSoin hap hg hn ho ha
    have hmem : ∀ o, o ∈ p.avant ∨ o ∈ apres → o ∈ p.tous := by
      intro o ho
      rw [htous, List.mem_append, List.mem_cons]
      tauto
    rw [etape_cons hap] at he
    split at he
    · cases he
    · split at he
      · cases he
        intro o ho
        refine h o ?_
        rw [htous]
        simpa [tous, passe] using ho
      · split at he
        · cases he
          intro o ho
          simp only [tous, survit, Sprite.update_sprite, List.mem_append, List.mem_singleton,
            List.mem_map] at ho
          rcases ho with (⟨x, hx, rfl⟩ | rfl) | ⟨x, hx, rfl⟩
          · exact hrec x (hmem x (Or.inl hx))
          · exact hs.suivant
          · exact hrec x (hmem x (Or.inr hx))
        · cases he
          have hmort : ∀ o, Sprite.Inerte a o →
              Sprite.Inerte a (((s.suivant p.carte t).deathMove p.carte t).2.2 o) := fun o ho =>
            ho.deathMove fun m hm => hs.suivant.missile m hm
          intro o ho
          unfold meurt tous at ho
          simp only [Sprite.update_sprite] at ho
          split at ho <;> simp only [List.mem_append, List.mem_cons, List.mem_map] at ho
          · rcases ho with ⟨_, ⟨x, hx, rfl⟩, rfl⟩ | rfl | ⟨_, ⟨x, hx, rfl⟩, rfl⟩
            · exact hmort _ (hrec x (hmem x (Or.inl hx)))
            · exact hmort _ hs.suivant
            · exact hmort _ (hrec x (hmem x (Or.inr hx)))
          · rcases ho with ⟨_, ⟨x, hx, rfl⟩, rfl⟩ | ⟨_, ⟨x, hx, rfl⟩, rfl⟩
            · exact hmort _ (hrec x (hmem x (Or.inl hx)))
            · exact hmort _ (hrec x (hmem x (Or.inr hx)))

theorem mem_of_isEmpty (hp : p.apres.isEmpty = true) : p.tous = p.avant := by
  rw [tous, List.isEmpty_iff.mp hp, List.append_nil]

theorem inerte_pushBack (h : ∀ s ∈ p.tous, Sprite.Inerte a s) (hp : p.apres.isEmpty = true) {x y : Int}
    {mv : Option PhysicsObject} {c : Corps} (hvie : ∀ base, (Sprite.mk base c).getLife ≤ 0)
    (hc : ∀ m, c = .projectile m → m.dommage ≤ 0) :
    ∀ s ∈ (p.pushBack x y mv c).tous, Sprite.Inerte a s := by
  rw [mem_of_isEmpty (p := p.pushBack x y mv c) hp]
  rw [mem_of_isEmpty hp] at h
  intro s hs
  rcases List.mem_append.mp hs with hs | hs
  · exact h s hs
  · rw [List.mem_singleton] at hs
    subst hs
    exact ⟨fun _ => hvie _, hc⟩

theorem shoot_inerte (h : ∀ s ∈ p.tous, Sprite.Inerte a s) (hp : p.apres.isEmpty = true) {tir : Tir}
    (hs : p.shoot calculDirVect tir t = some p') : ∀ s ∈ p'.tous, Sprite.Inerte a s := by
  obtain ⟨q, hq, rfl⟩ := Option.map_eq_some_iff.mp hs
  split at hq
  · obtain ⟨lomb, _, rfl⟩ := Option.map_eq_some_iff.mp hq
    refine inerte_pushBack h hp (fun _ => le_rfl) fun m hm => ?_
    cases hm
    decide
  · obtain ⟨lomb, _, rfl⟩ := Option.map_eq_some_iff.mp hq
    intro s hs
    obtain ⟨o, ho, rfl⟩ : ∃ o ∈ p.tous, _ = s := by
      simpa [tous, List.isEmpty_iff.mp hp] using hs
    split
    · refine Sprite.Inerte.of_corps ((h o ho).addLife fun e => ?_)
        (congrArg Base.adresse (Sprite.addLife_toBase o _)).symm rfl
      exact Sprite.getLife_addLife_le ((h o ho).mort e) (by decide)
    · exact h o ho
  · cases hq
    exact h
  · cases hq

theorem recoitDegat_adresse (l : Degat) (s : Sprite) : (PartieQT.recoit l s).adresse = s.adresse := by
  unfold PartieQT.recoit
  split <;> rfl

theorem mem_metLombric {l : Degat} {v : List Sprite} {x : Sprite} (hx : x ∈ PartieQT.metLombric l v) :
    x ∈ v ∨ ∃ s ∈ v, s.getId = l.idLomb ∧ x = PartieQT.recoit l s := by
  induction v with
  | nil => cases hx
  | cons s v ih =>
    unfold PartieQT.metLombric at hx
    split at hx
    · next hid =>
      rcases List.mem_cons.mp hx with rfl | hx
      · exact Or.inr ⟨s, List.mem_cons_self, hid, rfl⟩
      · exact Or.inl (List.mem_cons_of_mem _ hx)
    · rcases List.mem_cons.mp hx with rfl | hx
      · exact Or.inl List.mem_cons_self
      · rcases ih hx with h | ⟨o, ho, hid, rfl⟩
        · exact Or.inl (List.mem_cons_of_mem _ h)
        · exact Or.inr ⟨o, List.mem_cons_of_mem _ ho, hid, rfl⟩

/-- The entries of a list of LOMB_DMG that leave the worm dead. -/
theorem synchronizeLombrics_inerte (degats : List Degat) : ∀ {v : List Sprite},
    (∀ s ∈ v, Sprite.Inerte a s) →
    (∀ s ∈ v, s.adresse = a → ∀ l ∈ degats, l.idLomb = s.getId → Partie.int32 l.vie ≤ 0) →
    ∀ s ∈ PartieQT.synchronizeLombrics degats v, Sprite.Inerte a s := by
  induction degats with
  | nil => exact fun h _ => h
  | cons l degats ih =>
    intro v h hl
    refine ih (v := PartieQT.metLombric l v) (fun s hs => ?_) (fun s hs he l' hl' => ?_)
    · rcases mem_metLombric hs with hs | ⟨o, ho, hid, rfl⟩
      · exact h s hs
      · exact (h o ho).recoitDegat (fun he => hl o ho he l List.mem_cons_self) hid
    · rcases mem_metLombric hs with hs | ⟨o, ho, _, rfl⟩
      · exact hl s hs he l' (List.mem_cons_of_mem _ hl')
      · rw [PartieQT.recoit_getId]
        rw [recoitDegat_adresse] at he
        exact hl o ho he l' (List.mem_cons_of_mem _ hl')

theorem nextRound_inerte (h : ∀ s ∈ p.tous, Sprite.Inerte a s) (hp : p.apres.isEmpty = true)
    {next : NextLombric} {degats : List Degat} {coord : List Nat} {heathOfBox : Int}
    (hg : SansDegat a (.nextRound next degats coord heathOfBox) p)
    (hn : p.nextRound next degats coord heathOfBox = some p') : ∀ s ∈ p'.tous, Sprite.Inerte a s := by
  obtain ⟨carte, _, rfl⟩ := Option.map_eq_some_iff.mp hn
  have hl : ∀ s ∈ p.tous, s.adresse = a → ∀ l ∈ degats, l.idLomb = s.getId → Partie.int32 l.vie ≤ 0 := hg
  rw [mem_of_isEmpty hp] at h hl
  have hsync : ∀ s ∈ (PartieQT.synchronizeLombrics degats p.avant) ++ p.apres, Sprite.Inerte a s := by
    rw [List.isEmpty_iff.mp hp, List.append_nil]
    exact synchronizeLombrics_inerte degats h hl
  dsimp only
  split
  · refine inerte_pushBack ?_ ?_ ?_ fun m hm => ?_
    · exact hsync
    · exact hp
    · exact fun _ => le_rfl
    · cases hm
  · exact hsync

theorem place_inerte (h : ∀ s ∈ p.tous, Sprite.Inerte a s) (adresse : Nat) (x y : Int) :
    ∀ s ∈ (p.avant.map fun s => if s.adresse = adresse then { s with toBase := s.setPos x y } else s) ++
      p.apres, Sprite.Inerte a s := by
  intro s hs
  rcases List.mem_append.mp hs with hs | hs
  · obtain ⟨o, ho, rfl⟩ := List.mem_map.mp hs
    have hi := h o (List.mem_append_left _ ho)
    split
    · exact hi.of_corps rfl rfl
    · exact hi
  · exact h s (List.mem_append_right _ hs)

/-- What every step of the client keeps. -/
theorem acte_inerte {e : Acte} (h : ∀ s ∈ p.tous, Sprite.Inerte a s) (hd : SansDegat a e p)
    (hg : SansSoin a e p) (he : acte calculDirVect e p = some p') : ∀ s ∈ p'.tous, Sprite.Inerte a s := by
  cases e with
  | sprite t =>
    rw [acte] at he
    split at he
    · cases he
    · exact etape_inerte h hg he
  | debut =>
    rw [acte] at he
    split at he
    · next hp =>
      cases he
      rwa [mem_of_isEmpty hp] at h
    · cases he
  | tir tir t =>
    rw [acte] at he
    split at he
    · next hp => exact shoot_inerte h hp he
    · cases he
  | nextRound next degats coord heathOfBox =>
    rw [acte] at he
    split at he
    · next hp => exact nextRound_inerte h hp hd he
    · cases he
  | place adresse x y =>
    rw [acte] at he
    split at he
    · cases he
      exact place_inerte h adresse x y
    · cases he

/-- A box that is taken leaves the others with the points. -/
theorem tous_meurt_caisse {base base' : Base} {b : HealthBox} {soin : Option (Nat × Int)}
    (hmaj : Sprite.update p.carte t p.tous ⟨base, .healthBox b⟩ = ⟨false, ⟨base', .healthBox b⟩, soin⟩)
    (apres : List Sprite) : (p.meurt t ⟨base, .healthBox b⟩ apres).tous =
      (p.avant ++ apres).map (Sprite.recoit soin) := by
  have hid : ¬ Sprite.getId ⟨base, .healthBox b⟩ ≠ 0 := not_not.mpr rfl
  rw [tous]
  simp only [meurt, if_neg hid, hmaj, Sprite.deathMove, List.map_id', List.map_append]

/-- A dead worm that takes a box with points for it is dead no more. -/
theorem sansSoin_of_mort {e : Acte} (he : acte calculDirVect e p = some p') (hm : Mort a p') :
    SansSoin a e p := by
  cases e with
  | sprite t =>
    intro s apres b hap hb w hw hwa o ho hoa
    rw [acte, hap, List.isEmpty_cons, if_neg (by decide), etape_cons hap] at he
    obtain ⟨base, c⟩ := s
    cases hb
    have hlife : ¬ Sprite.life ⟨base, .healthBox b⟩ ≤ 0 := by
      rw [Sprite.life_of_getId rfl]
      omega
    have htombe : Sprite.surMaCase ((base.avance p.carte t).tombe p.carte t boxGravity) p.tous = some w := by
      unfold Sprite.surMaCase at hw ⊢
      rwa [(Base.tombe_pos ..).1, (Base.tombe_pos ..).2]
    have hmaj : Sprite.update p.carte t p.tous ⟨base, .healthBox b⟩ =
        ⟨false, ⟨(base.avance p.carte t).tombe p.carte t boxGravity, .healthBox b⟩,
          some (w.adresse, b.health)⟩ := by
      simp only [Sprite.update, Sprite.updateHealthBox_eq, Sprite.ramasse, htombe]
    by_cases hdet : base.adresse ∈ p.detruits
    · rw [if_pos hdet] at he
      cases he
    · rw [if_neg hdet, if_neg hlife, hmaj, if_neg Bool.false_ne_true] at he
      cases he
      have hrec : o.recoit (some (w.adresse, b.health)) = o.addLife b.health := if_pos (hoa.trans hwa.symm)
      have hvie : o ∈ p.avant ++ apres → (o.addLife b.health).getLife ≤ 0 := fun hmem => by
        refine hm _ ?_ ((congrArg Base.adresse (Sprite.addLife_toBase o b.health)).trans hoa)
        rw [tous_meurt_caisse hmaj]
        exact List.mem_map.mpr ⟨o, hmem, hrec⟩
      rw [tous, hap, List.mem_append, List.mem_cons] at ho
      rcases ho with ho | rfl | ho
      · exact hvie (List.mem_append_left _ ho)
      · exact le_rfl
      · exact hvie (List.mem_append_right _ ho)
  | debut => trivial
  | tir tir t => trivial
  | nextRound next degats coord heathOfBox => trivial
  | place adresse x y => trivial

/-- **One step, exactly**: the dead worm stays dead unless it takes a box. -/
theorem acte_mort_iff {e : Acte} (hmis : Missiles p) (hm : Mort a p) (hd : SansDegat a e p)
    (he : acte calculDirVect e p = some p') : Mort a p' ↔ SansSoin a e p :=
  ⟨sansSoin_of_mort he, fun hg => (inertes_iff.mpr (acte_inerte (inertes_iff.mp ⟨hm, hmis⟩) hd hg he)).1⟩

/-! ## Runs -/

/-- **A dead worm stays dead** in every run of ticks, shots, drops and moves where it takes no box and no
list of LOMB_DMG gives it life; a step where it takes one makes it live again. -/
theorem mort_reste (calculDirVect : Direction) (a : Nat) (p p' : PasseQT) (hmis : Missiles p)
    (hm : Mort a p)
    (h : Runs.Reach (acte calculDirVect) (fun e q => SansDegat a e q ∧ SansSoin a e q) (· = p) p') :
    Mort a p' ∧ ∀ e q, SansDegat a e p' → acte calculDirVect e p' = some q →
      (Mort a q ↔ SansSoin a e p') := by
  have hfin := h.invariant (I := fun q => ∀ s ∈ q.tous, Sprite.Inerte a s)
    (fun q hq => hq ▸ inertes_iff.mp ⟨hm, hmis⟩)
    (fun e q q' hq hok he => acte_inerte hq hok.1 hok.2 he)
  obtain ⟨hm', hmis'⟩ := inertes_iff.mpr hfin
  exact ⟨hm', fun e q hd he => acte_mort_iff hmis' hm' hd he⟩

/-- A dead worm beside a box. -/
def aCoteDuMort : PasseQT :=
  { surLaCaisse with
    avant := [⟨⟨0, 1, 2, none⟩, .lombric ⟨7, -15, 150⟩⟩, ⟨⟨1, 0, 2, none⟩, .healthBox ⟨25⟩⟩] }

theorem mort_reste_aCote : ∃ p', Runs.Reach (acte fun _ => (1, 0))
    (fun e q => SansDegat 0 e q ∧ SansSoin 0 e q) (· = aCoteDuMort) p' ∧ p'.adresses = [0, 1] ∧ Mort 0 p' := by
  have hmort : Mort 0 aCoteDuMort := by
    intro s hs ha
    rcases List.mem_cons.mp hs with rfl | hs
    · decide
    · rw [List.mem_singleton.mp hs] at ha
      cases ha
  have hmis : Missiles aCoteDuMort := by
    intro s hs m hm
    rcases List.mem_cons.mp hs with rfl | hs
    · cases hm
    · rw [List.mem_singleton.mp hs] at hm
      cases hm
  have hrun : Runs.Reach (acte fun _ => (1, 0)) (fun e q => SansDegat 0 e q ∧ SansSoin 0 e q)
      (· = aCoteDuMort) _ :=
    .next (.sprite 25)
      (.next (.sprite 25) (.next .debut (.init rfl) ⟨trivial, trivial⟩ rfl)
        ⟨trivial, fun s apres b hap hb => by cases hap; cases hb⟩ rfl)
      ⟨trivial, fun s apres b hap hb w hw => by cases hap; cases hb; cases hw⟩ rfl
  exact ⟨_, hrun, rfl, (mort_reste (fun _ => (1, 0)) 0 aCoteDuMort _ hmis hmort hrun).1⟩

/-- The list of LOMB_DMG that a step applies. -/
def Acte.liste : Acte → List Degat
  | .nextRound _ degats _ _ => degats
  | _ => []

/-- Two worms on one cell. -/
def face : PasseQT :=
  { surLaCaisse with
    avant := [⟨⟨0, 1, 2, none⟩, .lombric ⟨7, 10, 150⟩⟩, ⟨⟨1, 1, 2, none⟩, .lombric ⟨8, 100, 150⟩⟩]
    currentWorms := some 1 }

/-- The second worm kills the first one with the bat; a box dropped on their cell in the next round makes
it live again. -/
theorem mort_ranime : ∃ p p',
    Runs.exec (acte fun _ => (1, 0)) (fun e _ => e.liste = [])
      [.tir ⟨1, 0, 0⟩ 0, .debut, .sprite 25, .sprite 25] face = some p ∧ Mort 0 p ∧
    Runs.exec (acte fun _ => (1, 0)) (fun e _ => e.liste = [])
      [.nextRound ⟨8, true, 0, 1, 2⟩ [] [] 25, .debut, .sprite 50, .sprite 50, .sprite 50] p = some p' ∧
    ¬ Mort 0 p' := by
  have h : (Runs.exec (acte fun _ => (1, 0)) (fun e _ => e.liste = [])
      [.tir ⟨1, 0, 0⟩ 0, .debut, .sprite 25, .sprite 25] face).any (fun p =>
        p.tous.all (fun s => s.adresse != 0 || decide (s.getLife ≤ 0)) &&
        (Runs.exec (acte fun _ => (1, 0)) (fun e _ => e.liste = [])
          [.nextRound ⟨8, true, 0, 1, 2⟩ [] [] 25, .debut, .sprite 50, .sprite 50, .sprite 50] p).any
            fun p' => p'.tous.any fun s => s.adresse == 0 && decide (0 < s.getLife)) = true := by
    decide +kernel
  obtain ⟨p, hp, h⟩ := (Option.any_eq_true _ _).mp h
  obtain ⟨hmort, h⟩ := Bool.and_eq_true_iff.mp h
  obtain ⟨p', hp', hvivant⟩ := (Option.any_eq_true _ _).mp h
  refine ⟨p, p', hp, fun s hs ha => ?_, hp', fun hm => ?_⟩
  · simpa [ha] using List.all_eq_true.mp hmort s hs
  · obtain ⟨s, hs, hvie⟩ := List.any_eq_true.mp hvivant
    simp only [Bool.and_eq_true, beq_iff_eq, decide_eq_true_eq] at hvie
    exact absurd (hm s hs hvie.1) (not_le.mpr hvie.2)

end PasseQT

end LombricABrac
