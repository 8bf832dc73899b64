import LombricABrac.Envois
import LombricABrac.LombricCourant
import LombricABrac.Morts
import LombricABrac.Presents
import Mathlib.Algebra.BigOperators.Ring.Finset

/-!
# The lives of a game on the server

Weapons, falls and water only take life; a box gives one worm what it holds, and is gone.  So what the
worms have together, with what the boxes hold, falls from update to update.

    reserve_update     : an update gives no life but that of the boxes
    vies_of_reach      : the life of each worm, in every run
    bilan_of_reach     : the lives of all of them, in every run
    disparus_of_reach  : a worm that is dead stays dead
-/

namespace LombricABrac

/-! ## One sprite -/

namespace Sprite

variable {m : Map} {t : Int} {v : List Sprite} {s : Sprite}

/-- The life of a worm, or what a box holds. -/
def reserve (s : Sprite) : Int :=
  match s.corps with
  | .lombric l => max l.vie 0
  | .projectile _ => 0
  | .healthBox b => b.health

/-- Weapons take life, boxes give it, and worms have `maxVie`. -/
def Doux (maxVie : Int) : Nature → Prop
  | .lombric _ m => m = maxVie
  | .projectile p => p.dommage ≤ 0
  | .healthBox b => 0 ≤ b.health

variable {M : Int}

theorem reserve_nonneg (h : Doux M s.nature) : 0 ≤ s.reserve := by
  obtain ⟨b, c⟩ := s
  cases c with
  | lombric l => exact le_max_right _ _
  | projectile p => exact le_rfl
  | healthBox x => exact h

theorem reserve_congr {s' : Sprite} (h : s'.corps = s.corps) : s'.reserve = s.reserve := by
  unfold reserve
  rw [h]

/-- Points of life are added up to `maxVie`. -/
theorem reserve_addLife_le (s : Sprite) (n : Int) : (s.addLife n).reserve ≤ s.reserve + max n 0 := by
  obtain ⟨b, c⟩ := s
  cases c with
  | lombric l =>
    simp only [addLife, Lombric.addLife, reserve]
    split <;> omega
  | projectile p => exact (le_max_right n 0).trans (zero_add _).ge
  | healthBox x =>
    show x.health ≤ x.health + max n 0
    omega

theorem castInt_sub_le {vie : Int} {impact : ℚ} (h : fallDamageSpeed ≤ impact) :
    max (castInt (vie - impact)) 0 ≤ max vie 0 := by
  have himpact : (0 : ℚ) ≤ impact := by
    rw [fallDamageSpeed] at h
    linarith
  unfold castInt
  split
  · have hfloor : ⌊(vie : ℚ) - impact⌋ ≤ vie := by
      have hle : ⌊(vie : ℚ) - impact⌋ ≤ ⌊(vie : ℚ)⌋ := Int.floor_le_floor (by linarith)
      rwa [Int.floor_intCast] at hle
    omega
  · have hneg : 0 ≤ ⌊-((vie : ℚ) - impact)⌋ := Int.floor_nonneg.mpr (by linarith)
    omega

/-- A fall, the water and the border take life. -/
theorem avanceLombric_vie (carte : Map) (t : Int) (b : Base) (l : Lombric) :
    max (avanceLombric carte t b l).2 0 ≤ max l.vie 0 := by
  unfold avanceLombric
  split
  · exact le_rfl
  · simp only
    split
    · next hi => exact castInt_sub_le hi
    · exact le_rfl
  · split
    · exact max_le (le_max_right _ _) (le_max_right _ _)
    · exact le_rfl

theorem corps_update_projectile (b : Base) (p : Projectile) :
    (update m t v ⟨b, .projectile p⟩).sprite.corps = .projectile p := by
  simp only [update, updateProjectile]
  split <;> rfl

theorem corps_update_healthBox (b : Base) (x : HealthBox) :
    (update m t v ⟨b, .healthBox x⟩).sprite.corps = .healthBox x := by
  simp only [update, updateHealthBox_eq, ramasse]
  split <;> rfl

theorem reserve_update_le (m : Map) (t : Int) (v : List Sprite) (s : Sprite) :
    (s.update m t v).sprite.reserve ≤ s.reserve := by
  obtain ⟨b, c⟩ := s
  cases c with
  | lombric l =>
    have hvie := avanceLombric_vie m t b l
    simp only [update, updateLombric, reserve]
    split <;> split <;> omega
  | projectile p => exact (reserve_congr (corps_update_projectile b p)).le
  | healthBox x => exact (reserve_congr (corps_update_healthBox b x)).le

/-- A box gives what it holds. -/
theorem soin_reserve {a : Nat} {n : Int} (h : (s.update m t v).soin = some (a, n)) :
    n = s.reserve := by
  obtain ⟨b, c⟩ := s
  cases c with
  | lombric l => cases h
  | projectile p =>
    simp only [update, updateProjectile] at h
    split at h <;> cases h
  | healthBox x =>
    simp only [update, updateHealthBox_eq, ramasse] at h
    split at h
    · cases h
      rfl
    · cases h

/-- The worms that an explosion hits lose life. -/
theorem reserve_deathMove_le (h : Doux M s.nature) (m : Map) (t : Int) (o : Sprite) :
    ((s.deathMove m t).2.2 o).reserve ≤ o.reserve := by
  unfold deathMove
  split
  · next p hp =>
    have hd : p.dommage ≤ 0 := by
      unfold nature at h
      rwa [hp] at h
    simp only
    split
    · unfold explosed
      simp only
      split
      · next hle =>
        have hadd := reserve_addLife_le o (dommageExplosion p.dommage p.radius
          ((o.posX - s.posX) ^ 2 + (o.posY - s.posY) ^ 2).toNat)
        rw [max_eq_right (dommageExplosion_nonpos hd hle), add_zero] at hadd
        exact hadd
      · exact le_rfl
    · exact le_rfl
  · exact le_rfl

end Sprite

/-! ## A pass -/

namespace Passe

variable {t : Int} {M : Int}

/-- The objects have addresses of their own, and natures that give no life for nothing. -/
structure Sage (M : Int) (l : List Sprite) : Prop where
  nodup : (l.map (·.adresse)).Nodup
  doux : ∀ n ∈ l.map Sprite.nature, Sprite.Doux M n

def reserve (l : List Sprite) : Int := (l.map Sprite.reserve).sum

theorem Sage.of_sublist {l l' : List Sprite} (h : Sage M l)
    (ha : (l'.map (·.adresse)).Sublist (l.map (·.adresse)))
    (hn : (l'.map Sprite.nature).Sublist (l.map Sprite.nature)) : Sage M l' :=
  ⟨h.nodup.sublist ha, fun n hin => h.doux n (hn.subset hin)⟩

theorem Sage.etape {p : Passe} (h : Sage M p.tous) (t : Int) : Sage M (p.etape t).tous :=
  h.of_sublist (conserve_adresse.etape t p) (Sprite.conserve_nature.etape t p)

theorem reserve_append (l l' : List Sprite) : reserve (l ++ l') = reserve l + reserve l' := by
  unfold reserve
  rw [List.map_append, List.sum_append]

theorem reserve_cons (s : Sprite) (l : List Sprite) : reserve (s :: l) = s.reserve + reserve l := by
  unfold reserve
  rw [List.map_cons, List.sum_cons]

theorem reserve_map_le {f : Sprite → Sprite} {l : List Sprite} (h : ∀ s ∈ l, (f s).reserve ≤ s.reserve) :
    reserve (l.map f) ≤ reserve l := by
  unfold reserve
  rw [List.map_map]
  exact List.sum_le_sum h

/-- Points of life go to one object. -/
theorem reserve_recoit_le {l : List Sprite} (h : (l.map (·.adresse)).Nodup) (a : Nat) (n : Int) :
    reserve (l.map (Sprite.recoit (some (a, n)))) ≤ reserve l + max n 0 := by
  have hupd : l.map (Sprite.recoit (some (a, n))) =
      Table.update (fun s : Sprite => s.adresse) a (fun s => s.addLife n) l := rfl
  rw [hupd]
  cases hfind : Table.find (fun s : Sprite => s.adresse) a l with
  | none =>
    have hrien : Table.update (fun s : Sprite => s.adresse) a (fun s => s.addLife n) l = l := by
      apply Table.update_of_not_mem
      intro hin
      obtain ⟨s, hs, he⟩ := List.mem_map.mp hin
      have hne := List.find?_eq_none.mp hfind s hs
      exact hne (by simpa using he)
    rw [hrien]
    exact le_add_of_nonneg_right (le_max_right _ _)
  | some s =>
    have hsum := Table.sum_update h (f := fun s => s.addLife n) hfind Sprite.reserve
    have hadd := Sprite.reserve_addLife_le s n
    unfold reserve
    omega

/-- **One step of a pass** gives no life but that of a box that is gone. -/
theorem reserve_etape_le {p : Passe} (h : Sage M p.tous) (t : Int) :
    reserve (p.etape t).tous ≤ reserve p.tous := by
  cases hap : p.apres with
  | nil => rw [etape_nil hap]
  | cons s apres =>
    have htous : p.tous = p.avant ++ s :: apres := by rw [tous, hap]
    have hs : Sprite.Doux M s.nature := h.doux _ (List.mem_map_of_mem (by simp [htous]))
    have hsplit : reserve p.tous = s.reserve + reserve (p.avant ++ apres) := by
      rw [htous, reserve_append, reserve_cons, reserve_append]
      omega
    rw [etape_cons hap]
    split
    · next ha =>
      have hle := Sprite.reserve_update_le p.carte t p.tous s
      rw [tous_survit_of_alive ha, reserve_append, reserve_cons]
      rw [reserve_append] at hsplit
      omega
    · have hnodup : ((p.avant ++ apres).map (·.adresse)).Nodup := by
        refine h.nodup.sublist ?_
        rw [htous]
        exact ((List.sublist_cons_self s apres).append_left p.avant).map _
      have hd : Sprite.Doux M (s.update p.carte t p.tous).sprite.nature := by
        rw [Sprite.nature_update]
        exact hs
      rw [tous_meurt, hsplit]
      refine (reserve_map_le fun o _ => Sprite.reserve_deathMove_le hd p.carte t o).trans ?_
      cases hsoin : (s.update p.carte t p.tous).soin with
      | none =>
        have hid : (p.avant ++ apres).map (Sprite.recoit none) = p.avant ++ apres := List.map_id _
        rw [hid]
        exact le_add_of_nonneg_left (Sprite.reserve_nonneg hs)
      | some soin =>
        obtain ⟨a, n⟩ := soin
        have hle := reserve_recoit_le hnodup a n
        rw [Sprite.soin_reserve hsoin, max_eq_left (Sprite.reserve_nonneg hs)] at hle
        rw [Sprite.soin_reserve hsoin]
        omega

end Passe

/-! ## An update, and the calls of a room -/

namespace Partie

variable {p p' : Partie} {fuel : Nat} {M : Int}

/-- The lives of the worms and what the boxes hold. -/
def reserve (p : Partie) : Int := Passe.reserve p.spriteVector

theorem Registre.sage (h : p.Registre (Sprite.Doux M)) : Passe.Sage M p.spriteVector := ⟨h.nodup, h.nature⟩

theorem reserve_updateSprites_le (h : Passe.Sage M p.spriteVector) (t : Int) :
    Passe.Sage M (p.updateSprites t).2.spriteVector ∧ (p.updateSprites t).2.reserve ≤ p.reserve := by
  have hfin := passe_rule (p := p) (t := t)
    (J := fun q => Passe.Sage M q.tous ∧ Passe.reserve q.tous ≤ p.reserve)
    (fun q hq => ⟨hq.1.etape t, (Passe.reserve_etape_le hq.1 t).trans hq.2⟩) ⟨h, le_rfl⟩
  rwa [passe_tous] at hfin

/-- **An update** gives no life but that of the boxes. -/
theorem reserve_update_le (h : p.Registre (Sprite.Doux M)) (hu : p.update fuel = some p') :
    p'.reserve ≤ p.reserve := by
  refine (Ticks.loop_keeps (I := fun q => Passe.Sage M q.spriteVector ∧ q.reserve ≤ p.reserve)
    (fun t q hq => ?_) fuel 0 p p' ⟨h.sage, le_rfl⟩ hu).2
  obtain ⟨hsage, hle⟩ := reserve_updateSprites_le hq.1 t
  exact ⟨hsage, hle.trans hq.2⟩

theorem reserve_shoot_le {calculDirVect : Direction} {tir : Tir} (hs : shoot calculDirVect tir p = some p') :
    p'.reserve ≤ p.reserve := by
  unfold shoot at hs
  split at hs
  · obtain ⟨lomb, _, rfl⟩ := Option.map_eq_some_iff.mp hs
    unfold reserve pushBack
    rw [Passe.reserve_append]
    exact (add_zero _).le
  · obtain ⟨lomb, _, rfl⟩ := Option.map_eq_some_iff.mp hs
    apply Passe.reserve_map_le
    intro s _
    split
    · exact (Sprite.reserve_addLife_le s (-25)).trans (add_zero _).le
    · exact le_rfl
  · cases hs
    exact le_rfl
  · cases hs

theorem reserve_useWeapon_le (h : p.Registre (Sprite.Doux M)) {calculDirVect : Direction} {tir : Tir}
    {murs : List Nat} {degats : List Degat} (hu : p.useWeapon calculDirVect fuel tir = some (p', murs, degats)) :
    p'.reserve ≤ p.reserve := by
  obtain ⟨q, hb, he⟩ := Option.map_eq_some_iff.mp hu
  obtain ⟨p₁, hp₁, hup⟩ := Option.bind_eq_some_iff.mp hb
  cases he
  have h₀ : Registre (Sprite.Doux M) { p with blockDeleted := [] } := ⟨h.nodup, h.lt, h.nature⟩
  have hm : Sprite.Doux M (.projectile missile) := by
    show (-25 : Int) ≤ 0
    decide
  have hle : p₁.reserve ≤ p.reserve := reserve_shoot_le (p := { p with blockDeleted := [] }) hp₁
  exact (reserve_update_le (h₀.shoot hp₁ hm) hup).trans hle

theorem reserve_moveCurrentLombric_le (h : p.Registre (Sprite.Doux M)) {lp : LombPos}
    (hm : p.moveCurrentLombric fuel lp = some p') : p'.reserve ≤ p.reserve := by
  rcases moveCurrentLombric_cases hm with rfl | ⟨adresse, hu⟩
  · exact le_rfl
  · refine (reserve_update_le (h.poser _ _ _) hu).trans ?_
    apply Passe.reserve_map_le
    intro s _
    split <;> exact le_rfl

theorem reserve_dropHealthBox {pv : Int} {rand reste : List Nat} {pos : Nat × Nat}
    (hd : p.dropHealthBox pv rand = some (p', pos, reste)) : p'.reserve = p.reserve + pv := by
  unfold dropHealthBox at hd
  split at hd
  · cases hd
  · cases hd
    unfold reserve pushBack
    rw [Passe.reserve_append]
    exact congrArg _ (add_zero pv)

theorem reserve_setParam {carte : Map} {pv maxPv : Int} {ids rand reste : List Nat} {lombs : List Sprite}
    (h : nouveauxLombrics carte pv maxPv ids 0 rand = some (lombs, reste)) (h0 : 0 ≤ pv) (endTour : Bool) :
    (setParam carte lombs endTour).reserve = (lombs.map fun s => s.getLife).sum := by
  unfold reserve setParam Passe.reserve
  congr 1
  apply List.map_congr_left
  intro s hs
  obtain ⟨id, _, hc⟩ := corps_nouveauxLombrics h hs
  unfold Sprite.reserve Sprite.getLife
  rw [hc]
  exact max_eq_left h0

/-! ## The life of each worm -/

/-- The worms that are still there. -/
def restants (p : Partie) : List Nat := (p.spriteVector.map Sprite.getId).filter (· ≠ 0)

theorem restants_update (hu : p.update fuel = some p') : p'.restants.Sublist p.restants :=
  (update_sublist Passe.conserve_getId hu).filter _

theorem mem_restants {id : Nat} : id ∈ p.restants ↔ id ≠ 0 ∧ ∃ s ∈ p.spriteVector, s.getId = id := by
  unfold restants
  rw [List.mem_filter, List.mem_map, decide_eq_true_eq]
  exact and_comm

theorem restants_pushBack {x y : Int} {movement : Option PhysicsObject} {corps : Corps}
    (h : Sprite.getId ⟨⟨p.suivante, x, y, movement⟩, corps⟩ = 0) :
    (p.pushBack x y movement corps).restants = p.restants := by
  unfold restants pushBack
  rw [List.map_append, List.filter_append, List.map_cons, List.filter_cons_of_neg (by simpa using h)]
  exact List.append_nil _

theorem restants_map {f : Sprite → Sprite} (hf : ∀ s, (f s).getId = s.getId) (q : Partie)
    (hq : q.spriteVector = p.spriteVector.map f) : q.restants = p.restants := by
  unfold restants
  rw [hq, List.map_map]
  exact congrArg _ (List.map_congr_left fun s _ => hf s)

end Partie

/-- The life of a worm, and its maximum, are no more than `B`. -/
def Sprite.Plafond (B : Int) (_ : Map) (s : Sprite) : Prop :=
  ∀ l, s.corps = .lombric l → l.maxVie ≤ B ∧ l.vie ≤ B

namespace Sprite

variable {B : Int} {m : Map} {s s' : Sprite}

theorem Plafond.congr (h : Plafond B m s) (hc : s'.corps = s.corps) : Plafond B m s' := by
  intro l hl
  exact h l (hc.symm.trans hl)

theorem Plafond.addLife (h : Plafond B m s) (n : Int) : Plafond B m (s.addLife n) := by
  obtain ⟨b, c⟩ := s
  cases c with
  | lombric l =>
    intro l' hl'
    cases hl'
    obtain ⟨hmax, _⟩ := h l rfl
    refine ⟨hmax, ?_⟩
    show (if l.maxVie < l.vie + n then l.maxVie else l.vie + n) ≤ B
    split <;> omega
  | projectile p => exact h
  | healthBox x => exact h

theorem plafond_tenu (h0 : 0 ≤ B) : Passe.Tenu (Plafond B) where
  dug _ h := h
  update {m t v s} h _ := by
    have hle := reserve_update_le m t v s
    obtain ⟨b, c⟩ := s
    intro l' hl'
    cases c with
    | lombric l =>
      obtain ⟨hmax, hvie⟩ := h l rfl
      have hmax' : l'.maxVie = l.maxVie := by
        cases hl'
        rfl
      have hres : max l'.vie 0 ≤ max l.vie 0 := by
        unfold reserve at hle
        rwa [hl'] at hle
      exact ⟨hmax'.le.trans hmax, by omega⟩
    | projectile p =>
      rw [corps_update_projectile] at hl'
      cases hl'
    | healthBox x =>
      rw [corps_update_healthBox] at hl'
      cases hl'
  recoit {m soin s} h := by
    unfold recoit
    split
    · split
      · exact h.addLife _
      · exact h
    · exact h
  deathMove {m t o} s h := by
    unfold deathMove
    split
    · simp only
      split
      · unfold explosed
        simp only
        split
        · exact (h.addLife _).congr rfl
        · exact h
      · exact h
    · exact h

end Sprite

namespace Game

variable {g g' : Game} {obj obj' : Partie} {fuel : Nat}

/-- What the worms of a game have for life: the initial one until the first update, or more than none. -/
structure Sante (g : Game) (obj : Partie) : Prop where
  registre : obj.Registre (Sprite.Doux g.lombPvMax)
  plafond : obj.Partout (Sprite.Plafond (max g.lombPvInit g.lombPvMax))
  vie : ∀ s ∈ obj.spriteVector, ∀ l, s.corps = .lombric l → l.vie = g.lombPvInit ∨ 0 < l.vie

/-- The parameters that no message changes during a game. -/
def vies (g : Game) : Nat × Nat × Nat := (g.lombPvInit, g.lombPvMax, g.boxPv)

theorem Sante.of_vies (h : g.Sante obj) (hv : g'.vies = g.vies) : g'.Sante obj := by
  obtain ⟨hi, hm⟩ := Prod.mk.inj hv
  obtain ⟨hm, _⟩ := Prod.mk.inj hm
  constructor
  · rw [hm]
    exact h.registre
  · rw [hi, hm]
    exact h.plafond
  · rw [hi]
    exact h.vie

/-- After an update, every worm lives. -/
theorem sante_update (hr : obj.Registre (Sprite.Doux g.lombPvMax))
    (hp : obj.Partout (Sprite.Plafond (max g.lombPvInit g.lombPvMax))) (hu : obj.update fuel = some obj') :
    g.Sante obj' where
  registre := hr.update hu
  plafond := Partie.update_keeps (Sprite.plafond_tenu (by omega)) hp hu
  vie s hs l hl := Or.inr (Partie.update_vivants hu hs hl).1

theorem Sante.increaseWaterLevel (h : g.Sante obj) (hw : obj.increaseWaterLevel = some obj') : g.Sante obj' := by
  have hr := h.registre.increaseWaterLevel hw
  obtain ⟨carte, _, rfl⟩ := Option.map_eq_some_iff.mp hw
  exact ⟨hr, h.plafond, h.vie⟩

theorem Sante.useWeapon (h : g.Sante obj) {calculDirVect : Partie.Direction} {tir : Partie.Tir} {murs : List Nat}
    {degats : List Partie.Degat} (hu : obj.useWeapon calculDirVect fuel tir = some (obj', murs, degats)) :
    g.Sante obj' ∧ obj'.reserve ≤ obj.reserve ∧ obj'.restants.Sublist obj.restants := by
  have hle := Partie.reserve_useWeapon_le h.registre hu
  obtain ⟨q, hb, he⟩ := Option.map_eq_some_iff.mp hu
  obtain ⟨p₁, hp₁, hup⟩ := Option.bind_eq_some_iff.mp hb
  cases he
  have h₀ : Partie.Registre (Sprite.Doux g.lombPvMax) { obj with blockDeleted := [] } :=
    ⟨h.registre.nodup, h.registre.lt, h.registre.nature⟩
  have hm : Sprite.Doux g.lombPvMax (.projectile Partie.missile) := by
    show (-25 : Int) ≤ 0
    decide
  have htir : p₁.Partout (Sprite.Plafond (max g.lombPvInit g.lombPvMax)) ∧ p₁.restants = obj.restants := by
    unfold Partie.shoot at hp₁
    split at hp₁
    · obtain ⟨lomb, _, rfl⟩ := Option.map_eq_some_iff.mp hp₁
      refine ⟨fun s hs => ?_, Partie.restants_pushBack rfl⟩
      rcases List.mem_append.mp hs with hs | hs
      · exact h.plafond s hs
      · rw [List.mem_singleton.mp hs]
        intro l hl
        cases hl
    · obtain ⟨lomb, _, rfl⟩ := Option.map_eq_some_iff.mp hp₁
      constructor
      · intro s' hs'
        obtain ⟨s, hs, rfl⟩ := List.mem_map.mp hs'
        simp only
        split
        · exact ((h.plafond s hs).addLife (-25)).congr rfl
        · exact h.plafond s hs
      · refine Partie.restants_map (f := fun s => _) (fun s => ?_) _ rfl
        split
        · exact Sprite.getId_of_forme (Sprite.addLife_forme s (-25))
        · rfl
    · cases hp₁
      exact ⟨h.plafond, rfl⟩
    · cases hp₁
  refine ⟨sante_update (h₀.shoot hp₁ hm) htir.1 hup, hle, ?_⟩
  rw [← htir.2]
  exact Partie.restants_update hup

theorem Sante.moveCurrentLombric (h : g.Sante obj) {lp : Partie.LombPos}
    (hm : obj.moveCurrentLombric fuel lp = some obj') :
    g.Sante obj' ∧ obj'.reserve ≤ obj.reserve ∧ obj'.restants.Sublist obj.restants := by
  have hle := Partie.reserve_moveCurrentLombric_le h.registre hm
  rcases Partie.moveCurrentLombric_cases hm with rfl | ⟨adresse, hu⟩
  · exact ⟨h, hle, List.Sublist.refl _⟩
  · have hpose : (obj.poser adresse (Partie.int32 lp.posX) (Partie.int32 lp.posY)).Partout
        (Sprite.Plafond (max g.lombPvInit g.lombPvMax)) := by
      intro s' hs'
      obtain ⟨s, hs, rfl⟩ := List.mem_map.mp hs'
      split
      · exact (h.plafond s hs).congr rfl
      · exact h.plafond s hs
    have hid : (obj.poser adresse (Partie.int32 lp.posX) (Partie.int32 lp.posY)).restants = obj.restants := by
      refine Partie.restants_map (f := fun s => _) (fun s => ?_) _ rfl
      split <;> rfl
    refine ⟨sante_update (h.registre.poser _ _ _) hpose hu, hle, ?_⟩
    rw [← hid]
    exact Partie.restants_update hu

theorem Sante.dropHealthBox (h : g.Sante obj) {pv : Nat} {rand reste : List Nat} {pos : Nat × Nat}
    (hd : obj.dropHealthBox pv rand = some (obj', pos, reste)) :
    g.Sante obj' ∧ obj'.reserve = obj.reserve + pv ∧ obj'.restants = obj.restants := by
  refine ⟨?_, Partie.reserve_dropHealthBox hd, ?_⟩
  · have hr := h.registre.dropHealthBox hd (Int.natCast_nonneg pv)
    unfold Partie.dropHealthBox at hd
    split at hd
    · cases hd
    · cases hd
      refine ⟨hr, fun s hs => ?_, fun s hs => ?_⟩
      · rcases List.mem_append.mp hs with hs | hs
        · exact h.plafond s hs
        · rw [List.mem_singleton.mp hs]
          intro l hl
          cases hl
      · rcases List.mem_append.mp hs with hs | hs
        · exact h.vie s hs
        · rw [List.mem_singleton.mp hs]
          intro l hl
          cases hl
  · unfold Partie.dropHealthBox at hd
    split at hd
    · cases hd
    · cases hd
      exact Partie.restants_pushBack rfl

end Game

/-! ## The room -/

/-- NEXT_ROUND says to the player whose turn it is that a box has fallen. -/
def Annonce.boite : Canal × Annonce → Bool
  | (_, .nextRound lomb) => lomb.isYours && lomb.x != -1
  | _ => false

/-- The lives that START announces. -/
def Annonce.vies (lombs : List LombricInfo) : Nat := (lombs.map (·.vie)).sum

namespace Salle

variable {serveur : Serveur} {env : Env} {m : ZmqMsg} {s s' s'' : Salle}

/-- The boxes that were announced. -/
def boites (s : Salle) : Nat := s.envois.countP Annonce.boite

/-- During the game no life comes but from the boxes that are announced, and no worm comes back. -/
structure Depense (s s' : Salle) : Prop where
  vies : s'.jeu.vies = s.jeu.vies
  absent : s.jeu.gameObject = none → s'.jeu.gameObject = none
  publie : ∃ l, s'.envois = s.envois ++ l ∧ (∀ c lombs, (c, Annonce.start lombs) ∉ l) ∧
    ∀ obj, s.jeu.gameObject = some obj → ∃ obj', s'.jeu.gameObject = some obj' ∧
      (s.jeu.Sante obj → s'.jeu.Sante obj' ∧
        obj'.reserve ≤ obj.reserve + s.jeu.boxPv * l.countP Annonce.boite ∧
        obj'.restants.Sublist obj.restants)

theorem depense_refl (s : Salle) : Depense s s :=
  ⟨rfl, id, [], (List.append_nil _).symm, fun _ _ => List.not_mem_nil, fun obj ho => ⟨obj, ho, fun h =>
    ⟨h, by rw [List.countP_nil]; omega, List.Sublist.refl _⟩⟩⟩

theorem Depense.trans (h : Depense s s') (h' : Depense s' s'') : Depense s s'' := by
  obtain ⟨hv, hnone, l, hl, hstart, hobj⟩ := h
  obtain ⟨hv', hnone', l', hl', hstart', hobj'⟩ := h'
  refine ⟨hv'.trans hv, fun h => hnone' (hnone h), l ++ l', by rw [hl', hl, List.append_assoc], ?_, ?_⟩
  · intro c lombs hin
    rcases List.mem_append.mp hin with hin | hin
    · exact hstart c lombs hin
    · exact hstart' c lombs hin
  · intro obj ho
    obtain ⟨obj', ho', hS⟩ := hobj obj ho
    obtain ⟨obj'', ho'', hS'⟩ := hobj' obj' ho'
    refine ⟨obj'', ho'', fun h => ?_⟩
    obtain ⟨h₁, hle, hsub⟩ := hS h
    obtain ⟨h₂, hle', hsub'⟩ := hS' h₁
    refine ⟨h₂, ?_, hsub'.trans hsub⟩
    have hbox : s'.jeu.boxPv = s.jeu.boxPv := congrArg (fun v => v.2.2) hv
    rw [hbox] at hle'
    rw [List.countP_append]
    push_cast
    linarith

/-- A message that leaves the object, or takes life from it. -/
theorem depense_of_le {P : Annonce → Prop} (hv : s'.jeu.vies = s.jeu.vies) (hp : NePublieQue P s s')
    (hP : ∀ lombs, ¬ P (.start lombs)) (hnone : s.jeu.gameObject = none → s'.jeu.gameObject = none)
    (hobj : ∀ obj, s.jeu.gameObject = some obj → ∃ obj', s'.jeu.gameObject = some obj' ∧
      (s.jeu.Sante obj → s.jeu.Sante obj' ∧ obj'.reserve ≤ obj.reserve ∧
        obj'.restants.Sublist obj.restants)) :
    Depense s s' := by
  obtain ⟨l, hl, hall⟩ := hp
  refine ⟨hv, hnone, l, hl, fun c lombs hin => hP lombs (hall _ hin), fun obj ho => ?_⟩
  obtain ⟨obj', ho', hS⟩ := hobj obj ho
  refine ⟨obj', ho', fun h => ?_⟩
  obtain ⟨h', hle, hsub⟩ := hS h
  exact ⟨h'.of_vies hv, hle.trans (le_add_of_nonneg_right (by positivity)), hsub⟩

theorem vies_of_stable {g g' : Game} (h : g'.stable = g.stable) : g'.vies = g.vies :=
  Game.eq_of_stable Game.vies (fun _ => rfl) h

theorem depense_handleQuit (m : ZmqMsg) (s : Salle) : Depense s (s.handleQuit m) := by
  have hjeu : (s.handleQuit m).jeu.vies = s.jeu.vies ∧ (s.handleQuit m).jeu.gameObject = s.jeu.gameObject := by
    unfold handleQuit
    split <;> exact ⟨rfl, rfl⟩
  refine depense_of_le hjeu.1 (nePublieQue_handleQuit m s) (fun _ => id) hjeu.2.trans fun obj ho => ?_
  exact ⟨obj, hjeu.2.trans ho, fun h => ⟨h, le_rfl, List.Sublist.refl _⟩⟩

theorem depense_traite {fin : Bool} (h : traite serveur env m s = some (s', fin)) : Depense s s' := by
  have hv := vies_of_stable (stable_traite h)
  have hp := nePublieQue_traite h
  obtain ⟨_, _, _, _, ⟨hj, _⟩ | ⟨obj₀, obj', ho₀, hj, hcas⟩⟩ := traite_cases h
  · refine depense_of_le hv hp (fun _ => id) (fun h => by rw [hj, h]) fun obj ho => ?_
    exact ⟨obj, by rw [hj, ho], fun h => ⟨h, le_rfl, List.Sublist.refl _⟩⟩
  · refine depense_of_le hv hp (fun _ => id) (fun h => by rw [h] at ho₀; cases ho₀) fun obj ho => ?_
    obtain rfl : obj₀ = obj := Option.some.inj (ho₀.symm.trans ho)
    rw [hj]
    rcases hcas with ⟨lp, _, hm, _⟩ | ⟨tir, murs, degats, _, _, hu⟩
    · exact ⟨obj', rfl, fun h => h.moveCurrentLombric hm⟩
    · exact ⟨obj', rfl, fun h => h.useWeapon hu⟩

/-- A box that falls is in the message. -/
theorem caisse_boite {g : Game} {obj obj' : Partie} {x y : Int} (h : g.caisse env obj = some (obj', x, y)) :
    obj' = obj ∨ 0 ≤ x ∧ ∃ rand pos reste, obj.dropHealthBox g.boxPv rand = some (obj', pos, reste) := by
  unfold Game.caisse at h
  split at h
  · cases h
  · split at h
    · obtain ⟨⟨o, pos, reste⟩, hd, he⟩ := Option.map_eq_some_iff.mp h
      cases he
      exact Or.inr ⟨Int.natCast_nonneg _, _, _, _, hd⟩
    · cases h
      exact Or.inl rfl

theorem depense_tourSuivant (h : tourSuivant env s = some s') : Depense s s' := by
  have hv := vies_of_stable (stable_tourSuivant h)
  obtain ⟨id, g, obj, obj', x, y, hc, hobj, hcaisse, rfl⟩ := tourSuivant_cases h
  obtain ⟨hf, _, _, j, _, _, hj, _⟩ := Game.chercheTour_spec env.fuel hc
  have ho : s.jeu.gameObject = some obj := (Game.gameObject_of_fixe hf).symm.trans hobj
  have hbox : g.boxPv = s.jeu.boxPv := Game.eq_of_fixe Game.boxPv (fun _ => rfl) hf
  have habsent : s.jeu.gameObject = none → g.gameObject = none := by
    intro h
    rw [h] at ho
    cases ho
  refine ⟨hv, fun h => absurd (hobj.symm.trans (habsent h)) nofun, _, rfl, ?_, ?_⟩
  · intro c lombs hin
    exact Game.forall_annonceTour (P := fun a => a ≠ .start lombs) (fun _ => nofun) _ _ hin rfl
  · intro obj₀ ho₀
    obtain rfl : obj = obj₀ := Option.some.inj (ho.symm.trans ho₀)
    refine ⟨obj', rfl, fun hS => ?_⟩
    have hS₀ : s.jeu.Sante (obj.setCurrentLomb id) := ⟨hS.registre.setCurrentLomb id, hS.plafond, hS.vie⟩
    rcases caisse_boite hcaisse with rfl | ⟨hx, rand, pos, reste, hd⟩
    · exact ⟨hS₀.of_vies hv, le_add_of_nonneg_right (by positivity), List.Sublist.refl _⟩
    · obtain ⟨hS₁, hres, hlomb⟩ := hS₀.dropHealthBox hd
      refine ⟨hS₁.of_vies hv, ?_, hlomb ▸ List.Sublist.refl _⟩
      have hpos : 1 ≤ (g.annonceTour ⟨id, false, obj'.carte.waterLevel, x, y⟩).countP Annonce.boite := by
        apply List.countP_pos_iff.mpr
        refine ⟨_, Game.mem_annonceTour hj _, ?_⟩
        show (true && x != -1) = true
        rw [Bool.true_and, bne_iff_ne]
        omega
      have hres' : obj'.reserve = obj.reserve + s.jeu.boxPv := by
        rw [hres, hbox]
        rfl
      rw [hres']
      have hmul : (s.jeu.boxPv : Int) * 1 ≤ s.jeu.boxPv *
          ((g.annonceTour ⟨id, false, obj'.carte.waterLevel, x, y⟩).countP Annonce.boite : Int) :=
        mul_le_mul_of_nonneg_left (by exact_mod_cast hpos) (Int.natCast_nonneg _)
      linarith

theorem depense_endRound (h : endRound env s = some s') : Depense s s' := by
  obtain ⟨g, nbrTeam, lastTeam, hm, _, hfin⟩ := endRound_cases h
  have hmontee : Depense s { s with jeu := g } := by
    rcases Game.monteeEau_cases hm with rfl | ⟨obj₀, obj₁, obj', ho₀, hw, hu, rfl⟩
    · exact depense_refl s
    · refine depense_of_le (P := fun _ => False) rfl (nePublieQue_rien rfl) (fun _ => id)
        (fun h => by rw [h] at ho₀; cases ho₀) fun obj ho => ?_
      obtain rfl : obj₀ = obj := Option.some.inj (ho₀.symm.trans ho)
      refine ⟨obj', rfl, fun h => ?_⟩
      have h₁ := h.increaseWaterLevel hw
      have hsv : obj₁.spriteVector = obj₀.spriteVector := by
        obtain ⟨carte, _, rfl⟩ := Option.map_eq_some_iff.mp hw
        rfl
      have hle := Partie.reserve_update_le h₁.registre hu
      have hsub := Partie.restants_update hu
      unfold Partie.reserve at hle ⊢
      unfold Partie.restants at hsub ⊢
      rw [hsv] at hle hsub
      exact ⟨Game.sante_update h₁.registre h₁.plafond hu, hle, hsub⟩
  rcases hfin with ⟨_, rfl⟩ | ⟨_, ht⟩
  · refine hmontee.trans (depense_of_le (P := fun a => a = .endGame) rfl
      ⟨_, rfl, Game.forall_annonce (P := fun a => a = .endGame) rfl⟩ (fun _ => nofun) id fun obj ho => ?_)
    exact ⟨obj, ho, fun h => ⟨h, le_rfl, List.Sublist.refl _⟩⟩
  · exact hmontee.trans (depense_tourSuivant ht)

theorem depense_handleGame (h : handleGame serveur env m s = some s') : Depense s s' := by
  obtain ⟨s₁, fin, ht, ⟨_, hr⟩ | ⟨_, rfl⟩⟩ := handleGame_cases h
  · exact (depense_traite ht).trans (depense_endRound hr)
  · exact depense_traite ht

/-- The tables have no part in it. -/
theorem depense_db (db : DataBase) (s : Salle) : Depense s { s with db } :=
  depense_of_le (P := fun _ => False) rfl (nePublieQue_rien rfl) (fun _ => id) id fun obj ho =>
    ⟨obj, ho, fun h => ⟨h, le_rfl, List.Sublist.refl _⟩⟩

/-! ## The start -/

/-- Before START there is no object; after it the lives and the boxes are those that were announced. -/
structure Bilan (s : Salle) : Prop where
  salon : s.currentStep = stepRoom → s.jeu.gameObject = none ∧ ∀ c lombs, (c, Annonce.start lombs) ∉ s.envois
  objet : ∀ obj, s.jeu.gameObject = some obj → s.jeu.Sante obj ∧
    (∃ c lombs, (c, Annonce.start lombs) ∈ s.envois) ∧
    ∀ c lombs, (c, Annonce.start lombs) ∈ s.envois → obj.reserve ≤ Annonce.vies lombs + s.jeu.boxPv * s.boites

theorem Bilan.depense (h : s.Bilan) (hd : Depense s s') (hstep : s'.currentStep = stepRoom →
    s.currentStep = stepRoom) : s'.Bilan := by
  obtain ⟨hv, hnone, l, hl, hstart, hobj⟩ := hd
  have hbox : s'.jeu.boxPv = s.jeu.boxPv := congrArg (fun v => v.2.2) hv
  have hold : ∀ c lombs, (c, Annonce.start lombs) ∈ s'.envois → (c, Annonce.start lombs) ∈ s.envois := by
    intro c lombs hin
    rw [hl] at hin
    exact (List.mem_append.mp hin).resolve_right (hstart c lombs)
  refine ⟨fun h0 => ?_, fun obj' ho' => ?_⟩
  · obtain ⟨ho, hs⟩ := h.salon (hstep h0)
    exact ⟨hnone ho, fun c lombs hin => hs c lombs (hold c lombs hin)⟩
  · obtain ⟨obj, ho⟩ : ∃ obj, s.jeu.gameObject = some obj := by
      cases ho : s.jeu.gameObject with
      | none =>
        rw [hnone ho] at ho'
        cases ho'
      | some obj => exact ⟨obj, rfl⟩
    obtain ⟨hS, ⟨c, lombs, hin⟩, hle⟩ := h.objet obj ho
    obtain ⟨obj₁, ho₁, hS₁⟩ := hobj obj ho
    obtain rfl : obj₁ = obj' := Option.some.inj (ho₁.symm.trans ho')
    obtain ⟨hS₁, hle₁, _⟩ := hS₁ hS
    refine ⟨hS₁, ⟨c, lombs, by rw [hl]; exact List.mem_append_left _ hin⟩, fun c lombs hin => ?_⟩
    have hle₀ := hle c lombs (hold c lombs hin)
    rw [hbox, boites, hl, List.countP_append]
    rw [boites] at hle₀
    push_cast
    linarith

theorem demarre_vies (h : demarre serveur env s = some s') :
    ∃ obj id g, s.jeu.spawnLombric serveur env = some obj ∧
      (s.jeu.commence env obj).getNextLombricId = some (id, g) ∧
      s' = { s with
        jeu := { g with gameObject := some (obj.setCurrentLomb id) }
        currentStep := stepGame
        envois := s.envois ++ g.annonce (.start (obj.spriteVector.map (s.jeu.lombricInfo env s.db))) ++
          g.annonceTour ⟨id, false, 0, -1, -1⟩ } := by
  unfold demarre at h
  split at h
  · cases h
  · next obj hobj =>
    split at h
    · cases h
    · next id g hg =>
      cases h
      exact ⟨obj, id, g, hobj, hg, rfl⟩

/-- START announces the lives that it gives. -/
theorem vies_spawnLombric {g : Game} {obj : Partie} (hs : g.spawnLombric serveur env = some obj) (db : DataBase) :
    obj.reserve = Annonce.vies (obj.spriteVector.map (g.lombricInfo env db)) := by
  obtain ⟨f, ids, lombs, reste, _, _, hl, rfl⟩ := Game.spawnLombric_spec hs
  rw [Partie.reserve_setParam hl (Int.natCast_nonneg _), Annonce.vies, List.map_map, Nat.cast_list_sum, List.map_map]
  congr 1
  apply List.map_congr_left
  intro s hs
  obtain ⟨id, _, hc⟩ := Partie.corps_nouveauxLombrics hl hs
  have hvie : s.getLife = g.lombPvInit := by
    unfold Sprite.getLife
    rw [hc]
  show s.getLife = (u32 s.getLife : Int)
  rw [hvie, u32_natCast]

theorem sante_spawnLombric {g : Game} {obj : Partie} (hs : g.spawnLombric serveur env = some obj) :
    g.Sante obj := by
  obtain ⟨f, ids, lombs, reste, _, _, hl, rfl⟩ := Game.spawnLombric_spec hs
  refine ⟨Partie.registre_setParam hl true fun _ _ => rfl, fun s hs l hc => ?_, fun s hs l hc => ?_⟩
  · obtain ⟨id, _, hc'⟩ := Partie.corps_nouveauxLombrics hl hs
    cases hc.symm.trans hc'
    exact ⟨le_max_right _ _, le_max_left _ _⟩
  · obtain ⟨id, _, hc'⟩ := Partie.corps_nouveauxLombrics hl hs
    cases hc.symm.trans hc'
    exact Or.inl rfl

theorem bilan_demarre (h : s.Bilan) (h0 : s.currentStep = stepRoom) (hd : demarre serveur env s = some s') :
    s'.Bilan := by
  obtain ⟨obj, id, g, hs, hg, rfl⟩ := demarre_vies hd
  obtain ⟨hf, _, _⟩ := Game.getNextLombricId_spec hg
  have hv : g.vies = s.jeu.vies := (Game.eq_of_fixe Game.vies (fun _ => rfl) hf).trans rfl
  obtain ⟨_, hstart⟩ := h.salon h0
  have hS : Game.Sante { g with gameObject := some (obj.setCurrentLomb id) } (obj.setCurrentLomb id) := by
    have hspawn := (sante_spawnLombric hs).of_vies hv
    exact ⟨hspawn.registre.setCurrentLomb id, hspawn.plafond, hspawn.vie⟩
  refine ⟨nofun, fun obj' ho' => ?_⟩
  cases ho'
  refine ⟨hS, ?_, fun c lombs hin => ?_⟩
  · obtain ⟨j, hj⟩ : ∃ j, j ∈ g.players := by
      unfold Game.getNextLombricId at hg
      split at hg
      · cases hg
      · next j hj =>
        obtain ⟨j', hj', _⟩ := Game.exists_of_fixe_eq hf hj
        exact ⟨j', List.mem_of_getElem? hj'⟩
    refine ⟨_, _, List.mem_append_left _ (List.mem_append_right _ (List.mem_map.mpr ⟨j, hj, rfl⟩))⟩
  · have hlombs : lombs = obj.spriteVector.map (s.jeu.lombricInfo env s.db) := by
      rcases List.mem_append.mp hin with hin | hin
      · rcases List.mem_append.mp hin with hin | hin
        · exact absurd hin (hstart c lombs)
        · obtain ⟨j, _, he⟩ := List.mem_map.mp hin
          cases he
          rfl
      · exact absurd rfl (Game.forall_annonceTour (P := fun a => a ≠ .start lombs) (fun _ => nofun) _ _ hin)
    rw [hlombs, ← vies_spawnLombric hs]
    exact le_add_of_nonneg_right (by positivity)

theorem bilan_handleRoom (h : s.Bilan) (h0 : s.currentStep = stepRoom)
    (hr : handleRoom serveur env m s = some s') : s'.Bilan := by
  obtain ⟨ho, hstart⟩ := h.salon h0
  have hpub := nePublieQue_handleRoom hr
  rcases handleRoom_cases hr with ⟨_, _, hd⟩ | ⟨_, _, hj⟩
  · exact bilan_demarre h h0 hd
  · rcases hpub with ⟨_, _, hd⟩ | ⟨l, hl, hall⟩
    · exact bilan_demarre h h0 hd
    · have hjeu : s'.jeu.gameObject = none := by
        rcases hj with hj | ⟨id, _, hj⟩ | ⟨j, _, _, hj⟩ | ⟨g, hg, hj⟩ <;> rw [hj]
        · exact ho
        · exact ho
        · exact ho
        · exact (Game.parametre_cases hg).1.trans ho
      refine ⟨fun _ => ⟨hjeu, fun c lombs hin => ?_⟩, fun obj ho' => ?_⟩
      · rw [hl] at hin
        rcases List.mem_append.mp hin with hin | hin
        · exact hstart c lombs hin
        · exact hall _ hin
      · rw [hjeu] at ho'
        cases ho'

end Salle

/-! ## Runs -/

namespace Thread

theorem garde_bilan (serveur : Serveur) : Garde serveur (fun _ _ => True) Salle.Bilan where
  init owner roomId db := ⟨fun _ => ⟨rfl, fun _ _ => List.not_mem_nil⟩, fun obj ho => by cases ho⟩
  db db h := h.depense (Salle.depense_db db _) id
  quit {m th} _ _ h := by
    refine h.depense (Salle.depense_handleQuit m th.salle) fun h0 => ?_
    rcases step_handleQuit m th.salle with he | ⟨hne, _⟩
    · rw [← he, h0]
    · exact absurd h0 hne
  room _ _ h0 h hr := Salle.bilan_handleRoom h h0 hr
  game {m env db th s'} _ _ h1 h hr := by
    refine h.depense (Salle.depense_handleGame hr) fun h0 => ?_
    have hne : th.salle.currentStep ≠ stepRoom := by
      rw [h1]
      decide
    exact absurd h0 ((Salle.handleGame_step hr).ne_stepRoom hne)
  heure {env db th s'} _ _ h0 h hr := by
    refine h.depense (Salle.depense_endRound hr) fun h0' => ?_
    exact absurd h0' ((Salle.endRound_step hr).ne_stepRoom h0)

/-- **The life of each worm**: in every run it is the initial life or more than none, and no more than the
larger of the initial life and the maximum. -/
theorem vies_of_reach (serveur : Serveur) (th : Thread)
    (h : Runs.Reach (etape serveur) (fun _ _ => True) Depart th) (obj : Partie)
    (hobj : th.salle.jeu.gameObject = some obj) : ∀ s ∈ obj.spriteVector, ∀ l, s.corps = .lombric l →
      l.maxVie = th.salle.jeu.lombPvMax ∧ (l.vie = th.salle.jeu.lombPvInit ∨ 0 < l.vie) ∧
        l.vie ≤ max (th.salle.jeu.lombPvInit : Int) th.salle.jeu.lombPvMax := by
  obtain ⟨hS, _⟩ := ((garde_bilan serveur).reach h).1.objet obj hobj
  intro s hs l hl
  refine ⟨?_, hS.vie s hs l hl, (hS.plafond s hs l hl).2⟩
  have hn := hS.registre.nature s.nature (List.mem_map_of_mem hs)
  unfold Sprite.nature at hn
  rwa [hl] at hn

/-- **The lives of all**: in every run START has announced the worms, and what they have together with the
boxes is no more than the lives that it announced and what the boxes announced since have held. -/
theorem bilan_of_reach (serveur : Serveur) (th : Thread)
    (h : Runs.Reach (etape serveur) (fun _ _ => True) Depart th) (obj : Partie)
    (hobj : th.salle.jeu.gameObject = some obj) :
    (∃ c lombs, (c, Annonce.start lombs) ∈ th.salle.envois) ∧
      ∀ c lombs, (c, Annonce.start lombs) ∈ th.salle.envois →
        obj.reserve ≤ Annonce.vies lombs + th.salle.jeu.boxPv * th.salle.boites :=
  (((garde_bilan serveur).reach h).1.objet obj hobj).2

/-! ## A blow, and a box -/

/-- The thread goes on, with those numbers for `rand`. -/
def apres (rand : List Nat) : Evenement := .suite { envPetit 0 with rand, fuel := 100 } baseTrois

/-- Three worms on one cell; the first uses its bat, and a box falls. -/
def coupDeBatte : List Evenement := partieATrois 1 ++ [.recoit ⟨1, .shoot ⟨1, 0, 0⟩⟩, apres [0, 0, 0, 0, 0]]

/-- The two others have 75 points left. -/
theorem vies_coupDeBatte : ∃ th obj, Runs.Reach (etape (serveurDe Map.petite)) (fun _ _ => True) Depart th ∧
    th.salle.jeu.gameObject = some obj ∧ obj.degats.map (·.vie) = [100, 75, 75] ∧
    ∀ s ∈ obj.spriteVector, ∀ l, s.corps = .lombric l →
      l.maxVie = 150 ∧ (l.vie = 100 ∨ 0 < l.vie) ∧ l.vie ≤ 150 := by
  obtain ⟨th, _, hr, hp⟩ := Runs.exists_of_exec (etape (serveurDe Map.petite)) (fun _ _ => True)
    (show Depart (new 1 1 baseTrois) from ⟨1, 1, baseTrois, rfl⟩) coupDeBatte
    (fun th => th.salle.jeu.lombPvInit == 100 && th.salle.jeu.lombPvMax == 150 &&
      th.salle.jeu.gameObject.any fun obj => obj.degats.map (·.vie) == [100, 75, 75]) (by decide +kernel)
  simp only [Bool.and_eq_true, beq_iff_eq, Option.any_eq_true] at hp
  obtain ⟨⟨hi, hm⟩, obj, ho, hd⟩ := hp
  have hvies := vies_of_reach (serveurDe Map.petite) th hr obj ho
  rw [hi, hm] at hvies
  exact ⟨th, obj, hr, ho, hd, hvies⟩

/-- 250 points and a box of 25 are left of 300. -/
theorem bilan_coupDeBatte : ∃ th obj c lombs,
    Runs.Reach (etape (serveurDe Map.petite)) (fun _ _ => True) Depart th ∧
    th.salle.jeu.gameObject = some obj ∧ obj.reserve = 275 ∧ th.salle.boites = 1 ∧
    (c, Annonce.start lombs) ∈ th.salle.envois ∧
    obj.reserve ≤ Annonce.vies lombs + th.salle.jeu.boxPv * th.salle.boites := by
  obtain ⟨th, _, hr, hp⟩ := Runs.exists_of_exec (etape (serveurDe Map.petite)) (fun _ _ => True)
    (show Depart (new 1 1 baseTrois) from ⟨1, 1, baseTrois, rfl⟩) coupDeBatte
    (fun th => th.salle.boites == 1 && th.salle.jeu.gameObject.any fun obj => obj.reserve == 275)
    (by decide +kernel)
  simp only [Bool.and_eq_true, beq_iff_eq, Option.any_eq_true] at hp
  obtain ⟨hb, obj, ho, hres⟩ := hp
  obtain ⟨⟨c, lombs, hin⟩, hle⟩ := bilan_of_reach (serveurDe Map.petite) th hr obj ho
  exact ⟨th, obj, c, lombs, hr, ho, hres, hb, hin, hle c lombs hin⟩

/-! ## From a state of a game on -/

theorem suite_depense (serveur : Serveur) (s₀ : Salle) :
    Suite serveur (fun _ _ => True) (Salle.Depense s₀) where
  db db h := h.trans (Salle.depense_db db _)
  quit _ h := h.trans (Salle.depense_handleQuit _ _)
  game _ _ h hr := h.trans (Salle.depense_handleGame hr)
  heure _ _ h hr := h.trans (Salle.depense_endRound hr)

theorem isLombAlive_of_mem {g : Game} {obj : Partie} (hS : g.Sante obj) (hi : 0 < g.lombPvInit) {id : Nat}
    (hid : id ∈ obj.restants) : obj.isLombAlive id = true := by
  obtain ⟨h0, s, hs, rfl⟩ := Partie.mem_restants.mp hid
  have hfind : (obj.findById s.getId).isSome = true :=
    List.find?_isSome.mpr ⟨s, hs, by simp⟩
  obtain ⟨w, hw⟩ := Option.isSome_iff_exists.mp hfind
  have hwid : w.getId = s.getId := by simpa using List.find?_some hw
  obtain ⟨l, hl⟩ := exists_lombric (hwid ▸ h0)
  have hvie : 0 < w.getLife := by
    unfold Sprite.getLife
    rw [hl]
    rcases hS.vie w (List.mem_of_find?_eq_some hw) l hl with he | hpos
    · show 0 < l.vie
      omega
    · exact hpos
  simp [Partie.isLombAlive, Partie.findLombric, hw, hl, hvie]

theorem mem_of_isLombAlive {obj : Partie} {id : Nat} (h0 : id ≠ 0) (h : obj.isLombAlive id = true) :
    id ∈ obj.restants := by
  obtain ⟨s, hs, _⟩ := Partie.isLombAlive_spec h
  obtain ⟨hin, hid, _⟩ := Partie.findLombric_spec hs
  exact Partie.mem_restants.mpr ⟨h0, s, hin, hid⟩

/-- **The dead stay dead**: from any state of a game to a later one the vector only loses worms, and one that
`isLombAlive` has said to be dead is dead. -/
theorem disparus_of_reach (serveur : Serveur) (th₀ th : Thread)
    (h₀ : Runs.Reach (etape serveur) (fun _ _ => True) Depart th₀) (obj₀ : Partie)
    (hobj : th₀.salle.jeu.gameObject = some obj₀)
    (h : Runs.Reach (etape serveur) (fun _ _ => True) (· = th₀) th) :
    ∃ obj, th.salle.jeu.gameObject = some obj ∧ obj.restants.Sublist obj₀.restants ∧
      (0 < th₀.salle.jeu.lombPvInit → ∀ id, id ≠ 0 → obj₀.isLombAlive id = false →
        obj.isLombAlive id = false) := by
  obtain ⟨hB, ha⟩ := (garde_bilan serveur).reach h₀
  have h1 : th₀.salle.currentStep ≠ stepRoom := by
    intro h0
    rw [(hB.salon h0).1] at hobj
    cases hobj
  obtain ⟨_, _, l, _, _, hd⟩ := (suite_depense serveur th₀.salle).reach (Salle.depense_refl _) h1 ha h
  obtain ⟨hS, _⟩ := hB.objet obj₀ hobj
  obtain ⟨obj, ho, hfin⟩ := hd obj₀ hobj
  obtain ⟨_, _, hsub⟩ := hfin hS
  refine ⟨obj, ho, hsub, fun hi id h0 hmort => ?_⟩
  by_contra hvif
  rw [Bool.not_eq_false] at hvif
  have hin := hsub.subset (mem_of_isLombAlive h0 hvif)
  rw [isLombAlive_of_mem hS hi hin] at hmort
  cases hmort

/-- The same blow, to worms that have 20 points. -/
def coupMortel : List Evenement :=
  .suite (envPetit 0) baseTrois :: .recoit ⟨1, .clientModifyInitVie 20⟩ :: partieATrois 1 ++
    [.recoit ⟨1, .shoot ⟨1, 0, 0⟩⟩, apres []]

/-- Worm 8 is dead, and is dead after the end of the game. -/
theorem mort_coupMortel : ∃ th₀ th obj₀ obj,
    Runs.Reach (etape (serveurDe Map.petite)) (fun _ _ => True) Depart th₀ ∧
    Runs.Reach (etape (serveurDe Map.petite)) (fun _ _ => True) (· = th₀) th ∧
    th₀.salle.jeu.gameObject = some obj₀ ∧ th.salle.jeu.gameObject = some obj ∧
    obj₀.isLombAlive 8 = false ∧ obj.isLombAlive 8 = false := by
  obtain ⟨th₀, _, h₀, hp⟩ := Runs.exists_of_exec (etape (serveurDe Map.petite)) (fun _ _ => True)
    (show Depart (new 1 1 baseTrois) from ⟨1, 1, baseTrois, rfl⟩) coupMortel
    (fun th => th.salle.jeu.lombPvInit == 20 && (th.salle.jeu.gameObject.any fun obj => !obj.isLombAlive 8) &&
      (Runs.exec (etape (serveurDe Map.petite)) (fun _ _ => True) [apres []] th).isSome) (by decide +kernel)
  simp only [Bool.and_eq_true, beq_iff_eq, Option.any_eq_true, Bool.not_eq_true'] at hp
  obtain ⟨⟨hi, obj₀, ho₀, hmort⟩, hsome⟩ := hp
  obtain ⟨th, hth⟩ := Option.isSome_iff_exists.mp hsome
  have h : Runs.Reach (etape (serveurDe Map.petite)) (fun _ _ => True) (· = th₀) th :=
    Runs.reach_of_exec [apres []] (.init rfl) hth
  obtain ⟨obj, ho, _, hreste⟩ := disparus_of_reach (serveurDe Map.petite) th₀ th h₀ obj₀ ho₀ h
  exact ⟨th₀, th, obj₀, obj, h₀, h, ho₀, ho, hmort, hreste (by omega) 8 (by decide) hmort⟩

end Thread
end LombricABrac
