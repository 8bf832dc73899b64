import LombricABrac.Registre

/-!
# Which calls dig

Only a projectile that dies digs the map, and none is left when an update returns.  So the walks
and the rises of the water between two shots leave the walls alone, and `blockDeleted` after a shot
is what the shot dug.

    sansProjectile_update : no projectile is left after an update
    update_carte          : an update without projectile leaves the map as it was
    useWeapon_dug         : the list that a shot returns is what it dug
-/

namespace LombricABrac

namespace Partie

variable {p p' : Partie}

/-! ## No projectile between two updates -/

def SansProjectile (p : Partie) : Prop := ∀ s ∈ p.spriteVector, s.forme ≠ .projectile

theorem SansProjectile.enVol (h : p.SansProjectile) : p.Partout Sprite.EnVol :=
  fun s hs hf => absurd hf (h s hs)

/-- The last pass leaves nobody moving. -/
theorem sansProjectile_update {fuel : Nat} (h : p.Partout Sprite.EnVol) (hu : p.update fuel = some p') :
    p'.SansProjectile := by
  refine Ticks.loop_rule (I := Partout Sprite.EnVol) (Q := SansProjectile)
    (fun t q => updateSprites_keeps Sprite.enVol_tenu t q) (fun t q hq hquiet => ?_) fuel 0 p p' h hu
  obtain ⟨he, hm, _⟩ := updateSprites_quiet hquiet
  have hvol := updateSprites_keeps Sprite.enVol_tenu t q hq
  rw [he] at hvol ⊢
  intro s hs hf
  obtain ⟨o, ho, rfl⟩ := List.mem_map.mp hs
  have := hvol _ hs hf
  rw [hm o ho] at this
  cases this

theorem SansProjectile.shoot (h : p.SansProjectile) {calculDirVect : Direction} {tir : Tir}
    (hs : shoot calculDirVect tir p = some p') : p'.Partout Sprite.EnVol := by
  unfold Partie.shoot at hs
  split at hs
  · obtain ⟨lomb, _, rfl⟩ := Option.map_eq_some_iff.mp hs
    intro s hs hf
    rcases List.mem_append.mp hs with hs | hs
    · exact absurd hf (h s hs)
    · rw [List.mem_singleton.mp hs]
      rfl
  · obtain ⟨lomb, _, rfl⟩ := Option.map_eq_some_iff.mp hs
    intro s' hs' hf
    obtain ⟨s, hs, rfl⟩ := List.mem_map.mp hs'
    refine absurd ?_ (h s hs)
    split at hf
    · exact (Sprite.addLife_forme s (-25)).symm.trans hf
    · exact hf
  · cases hs
    exact h.enVol
  · simp at hs

theorem SansProjectile.useWeapon (h : p.SansProjectile) {calculDirVect : Direction} {fuel : Nat}
    {tir : Tir} {murs : List Nat} {degats : List Degat}
    (hs : p.useWeapon calculDirVect fuel tir = some (p', murs, degats)) : p'.SansProjectile := by
  obtain ⟨q, hb, he⟩ := Option.map_eq_some_iff.mp hs
  obtain ⟨p₁, hp₁, hu⟩ := Option.bind_eq_some_iff.mp hb
  cases he
  have h₀ : SansProjectile { p with blockDeleted := [] } := h
  exact sansProjectile_update (h₀.shoot hp₁) hu

theorem SansProjectile.poser (h : p.SansProjectile) (adresse : Nat) (x y : Int) :
    (p.poser adresse x y).SansProjectile := by
  intro s' hs' hf
  obtain ⟨s, hs, rfl⟩ := List.mem_map.mp hs'
  refine h s hs ?_
  split at hf <;> exact hf

theorem SansProjectile.moveCurrentLombric (h : p.SansProjectile) {fuel : Nat} {lp : LombPos}
    (hm : p.moveCurrentLombric fuel lp = some p') : p'.SansProjectile := by
  rcases moveCurrentLombric_cases hm with rfl | ⟨adresse, hu⟩
  · exact h
  · exact sansProjectile_update (h.poser _ _ _).enVol hu

/-! ## The map -/

theorem deathMove_carte {m : Map} {t : Int} {s : Sprite} (h : s.forme ≠ .projectile) :
    (s.deathMove m t).1 = m := by
  obtain ⟨b, c⟩ := s
  cases c with
  | projectile p => exact absurd rfl h
  | lombric l => rfl
  | healthBox x => rfl

theorem etape_carte {t : Int} {q : Passe} (h : ∀ s ∈ q.tous, s.forme ≠ .projectile) :
    (q.etape t).carte = q.carte := by
  cases hap : q.apres with
  | nil => rw [Passe.etape_nil hap]
  | cons s apres =>
    rw [Passe.etape_cons hap]
    split
    · rfl
    · refine deathMove_carte ?_
      rw [Sprite.update_forme]
      exact h s (by simp [Passe.tous, hap])

theorem SansProjectile.updateSprites (h : p.SansProjectile) (t : Int) :
    (p.updateSprites t).2.SansProjectile ∧ (p.updateSprites t).2.carte = p.carte := by
  have hfin : (∀ s ∈ (p.passe t).tous, s.forme ≠ .projectile) ∧ (p.passe t).carte = p.carte := by
    refine passe_rule (J := fun q => (∀ s ∈ q.tous, s.forme ≠ .projectile) ∧ q.carte = p.carte)
      (fun q hq => ⟨fun s hs => ?_, (etape_carte hq.1).trans hq.2⟩) ⟨h, rfl⟩
    have hmem : s.forme ∈ q.tous.map Sprite.forme :=
      (Passe.conserve_forme.etape t q).subset (List.mem_map_of_mem hs)
    obtain ⟨o, ho, he⟩ := List.mem_map.mp hmem
    rw [← he]
    exact hq.1 o ho
  rw [passe_tous] at hfin
  exact hfin

theorem update_carte {fuel : Nat} (h : p.SansProjectile) (hu : p.update fuel = some p') :
    p'.carte = p.carte := by
  have hfin : p'.SansProjectile ∧ p'.carte = p.carte := by
    refine Ticks.loop_keeps (I := fun q => q.SansProjectile ∧ q.carte = p.carte)
      (fun t q hq => ?_) fuel 0 p p' ⟨h, rfl⟩ hu
    exact (hq.1.updateSprites t).imp_right fun hc => hc.trans hq.2
  exact hfin.2

theorem moveCurrentLombric_carte (h : p.SansProjectile) {fuel : Nat} {lp : LombPos}
    (hm : p.moveCurrentLombric fuel lp = some p') : p'.carte = p.carte := by
  rcases moveCurrentLombric_cases hm with rfl | ⟨adresse, hu⟩
  · rfl
  · have hc := update_carte (h.poser adresse (int32 lp.posX) (int32 lp.posY)) hu
    exact hc

/-- What was dug since the map was `m` is the list. -/
def Releve (m : Map) (carte : Map) (blockDeleted : List Nat) : Prop :=
  ∃ cs, blockDeleted = Map.flat cs ∧ Map.Dug m cs carte

theorem etape_releve {m : Map} {t : Int} {q : Passe} (h : Releve m q.carte q.blockDeleted) :
    Releve m (q.etape t).carte (q.etape t).blockDeleted := by
  cases hap : q.apres with
  | nil => rwa [Passe.etape_nil hap]
  | cons s apres =>
    rw [Passe.etape_cons hap]
    split
    · exact h
    · obtain ⟨cs, hcs, hd⟩ := h
      obtain ⟨ds, hds, hd'⟩ := (s.update q.carte t q.tous).sprite.deathMove_dug q.carte t
      refine ⟨cs ++ ds, ?_, hd.trans hd'⟩
      rw [Map.flat_append, ← hcs, ← hds]
      rfl

theorem update_releve {m : Map} {fuel : Nat} (h : Releve m p.carte p.blockDeleted)
    (hu : p.update fuel = some p') : Releve m p'.carte p'.blockDeleted := by
  refine Ticks.loop_keeps (I := fun q => Releve m q.carte q.blockDeleted) (fun t q hq => ?_) fuel 0
    p p' h hu
  exact passe_rule (J := fun r => Releve m r.carte r.blockDeleted) (fun r hr => etape_releve hr) hq

theorem shoot_carte {calculDirVect : Direction} {tir : Tir} (hs : shoot calculDirVect tir p = some p') :
    p'.carte = p.carte ∧ p'.blockDeleted = p.blockDeleted := by
  unfold Partie.shoot at hs
  split at hs
  · obtain ⟨lomb, _, rfl⟩ := Option.map_eq_some_iff.mp hs
    exact ⟨rfl, rfl⟩
  · obtain ⟨lomb, _, rfl⟩ := Option.map_eq_some_iff.mp hs
    exact ⟨rfl, rfl⟩
  · cases hs
    exact ⟨rfl, rfl⟩
  · simp at hs

theorem useWeapon_dug {calculDirVect : Direction} {fuel : Nat} {tir : Tir} {murs : List Nat}
    {degats : List Degat} (hs : p.useWeapon calculDirVect fuel tir = some (p', murs, degats)) :
    Releve p.carte p'.carte murs := by
  obtain ⟨q, hb, he⟩ := Option.map_eq_some_iff.mp hs
  obtain ⟨p₁, hp₁, hu⟩ := Option.bind_eq_some_iff.mp hb
  cases he
  obtain ⟨hc, hd⟩ := shoot_carte hp₁
  refine update_releve ?_ hu
  rw [hc, hd]
  exact ⟨[], rfl, Map.dug_nil p.carte⟩

end Partie
end LombricABrac
