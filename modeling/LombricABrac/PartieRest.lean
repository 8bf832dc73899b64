import LombricABrac.PartieSpec

/-!
# When `Partie::update` returns, the game is at rest

The loop ends on a pass that answers `false`.  Such a pass killed nobody and left nobody moving
(`updateSprites_quiet`), so each sprite of the result is the sprite of the pass before, updated
once on the same map.  Two facts come from the passes before it: a projectile moves as long as it
lives, and the worms stay in front of the boxes.
-/

namespace LombricABrac

namespace Partie

/-- No movement, no projectile, living worms above the water, a floor below everybody. -/
structure AuRepos (p : Partie) : Prop where
  immobile : ∀ s ∈ p.spriteVector, s.movement = none
  sansProjectile : ∀ s ∈ p.spriteVector, s.forme ≠ .projectile
  lombric : ∀ s ∈ p.spriteVector, s.getId ≠ 0 →
    0 < s.getLife ∧ 0 ≤ s.posY ∧ s.posY < p.carte.hauteur - p.carte.waterLevel - 1
  sol : ∀ s ∈ p.spriteVector, p.carte.isAir s.posX (s.posY + 1) = false
  caisse : ∀ s ∈ p.spriteVector, ∀ w ∈ p.spriteVector, s.forme = .healthBox → w.getId ≠ 0 →
    ¬ (w.posX = s.posX ∧ w.posY = s.posY)

/-- The worms, all with an id, then boxes and projectiles in flight. -/
structure Rangee (p : Partie) : Prop where
  eau : p.carte.waterLevel < p.carte.hauteur
  rangs : ∃ lombrics autres, p.spriteVector = lombrics ++ autres ∧
    (∀ s ∈ lombrics, s.getId ≠ 0) ∧
    ∀ s ∈ autres, s.forme = .healthBox ∨ s.forme = .projectile ∧ s.isInMovement = true

end Partie

/-! ## What the passes keep -/

theorem Passe.conserve_getId : Passe.Conserve Sprite.getId :=
  ⟨fun m t v s => Sprite.getId_of_forme (s.update_forme m t v),
    fun soin s => Sprite.getId_of_forme (s.recoit_forme soin),
    fun m t s o => Sprite.getId_of_forme (Sprite.deathMove_forme m t s o)⟩

/-- A projectile moves as long as it lives. -/
def Sprite.EnVol (_ : Map) (s : Sprite) : Prop := s.forme = .projectile → s.isInMovement = true

theorem Sprite.enVol_tenu : Passe.Tenu Sprite.EnVol where
  dug _ h := h
  update {m t v s} h ha := by
    obtain ⟨b, c⟩ := s
    intro hf
    rw [update_forme] at hf
    cases c with
    | lombric l => cases hf
    | healthBox x => cases hf
    | projectile p =>
      have hmv := h rfl
      simp only [update, updateProjectile] at ha ⊢
      split at ha
      · exact hmv
      · simp at ha
      · exact hmv
  recoit {m soin s} h hf := by
    rw [recoit_forme] at hf
    have := h hf
    unfold isInMovement at this ⊢
    rwa [recoit_toBase]
  deathMove {m t o} s h hf := by
    rw [deathMove_forme] at hf
    have := h hf
    unfold isInMovement at this ⊢
    rcases deathMove_toBase m t s o with e | ⟨_, vx, vy, e⟩
    · rwa [e]
    · rw [e]; rfl

/-- The water stays below the top. -/
def Map.EauBasse (m : Map) (_ : Sprite) : Prop := m.waterLevel < m.hauteur

theorem Map.eauBasse_tenu : Passe.Tenu Map.EauBasse where
  dug hd h := by
    unfold EauBasse at h ⊢
    rwa [hd.waterLevel_eq, hd.hauteur_eq]
  update h _ := h
  recoit h := h
  deathMove _ h := h

namespace Partie

/-- What holds at the start of each pass. -/
structure Passage (p : Partie) : Prop where
  enVol : p.Partout Sprite.EnVol
  eau : p.Partout Map.EauBasse
  rangs : (p.spriteVector.map Sprite.getId).Pairwise fun a b => b ≠ 0 → a ≠ 0
  ids : .lombric 0 ∉ p.spriteVector.map Sprite.forme

theorem getId_eq_zero_of_forme {s : Sprite} (h : s.forme = .healthBox ∨ s.forme = .projectile) :
    s.getId = 0 := by
  obtain ⟨b, c⟩ := s
  cases c <;> simp_all [Sprite.forme, Sprite.getId]

theorem Rangee.passage {p : Partie} (h : p.Rangee) : p.Passage := by
  obtain ⟨lombrics, autres, hsv, hl, ha⟩ := h.rangs
  have ha0 : ∀ s ∈ autres, s.getId = 0 := fun s hs =>
    getId_eq_zero_of_forme ((ha s hs).imp_right And.left)
  refine ⟨fun s hs hf => ?_, fun _ _ => h.eau, ?_, ?_⟩
  · rw [hsv, List.mem_append] at hs
    rcases hs with hs | hs
    · exact absurd (getId_eq_zero_of_forme (Or.inr hf)) (hl s hs)
    · rcases ha s hs with hb | ⟨_, hm⟩
      · rw [hb] at hf; cases hf
      · exact hm
  · rw [hsv, List.map_append, List.pairwise_append]
    refine ⟨List.pairwise_map.mpr (List.pairwise_of_forall_mem_list fun a ha' b _ _ => hl a ha'),
      List.pairwise_map.mpr (List.pairwise_of_forall_mem_list fun a _ b hb hb0 =>
        absurd (ha0 b hb) hb0), fun a ha' _ _ _ => ?_⟩
    obtain ⟨s, hs, rfl⟩ := List.mem_map.mp ha'
    exact hl s hs
  · rw [hsv, List.map_append, List.mem_append]
    rintro (h0 | h0) <;> obtain ⟨s, hs, hf⟩ := List.mem_map.mp h0
    · refine hl s hs ?_
      obtain ⟨b, c⟩ := s
      cases c <;> simp_all [Sprite.forme, Sprite.getId]
    · rcases ha s hs with hb | ⟨hb, _⟩ <;> rw [hb] at hf <;> cases hf

theorem Passage.updateSprites {p : Partie} (h : p.Passage) (t : Int) :
    (p.updateSprites t).2.Passage where
  enVol := updateSprites_keeps Sprite.enVol_tenu t p h.enVol
  eau := updateSprites_keeps Map.eauBasse_tenu t p h.eau
  rangs := h.rangs.sublist (updateSprites_sublist Passe.conserve_getId t p)
  ids hin := h.ids ((updateSprites_sublist Passe.conserve_forme t p).subset hin)

/-! ## The last pass -/

theorem lombric_of_alive {m : Map} {t : Int} {v : List Sprite} {s : Sprite} (hid : s.getId ≠ 0)
    (hw : m.waterLevel < m.hauteur) (ha : (s.update m t v).alive = true) :
    0 < (s.suivant m t).getLife ∧ 0 ≤ (s.suivant m t).posY ∧
      (s.suivant m t).posY < m.hauteur - m.waterLevel - 1 := by
  obtain ⟨b, c⟩ := s
  cases c with
  | projectile p => exact absurd rfl hid
  | healthBox x => exact absurd rfl hid
  | lombric l =>
    obtain ⟨vie, hvie, hcorps, hy⟩ := Sprite.updateLombric_alive ha
    rw [Map.ligneNoyade_eq hw] at hy
    change u32 (Sprite.updateLombric m t b l).sprite.posY < _ at hy
    have hpos := eq_of_u32_lt (z := (Sprite.updateLombric m t b l).sprite.posY)
      (by have := m.hauteur_lt; omega)
    change 0 < Sprite.getLife (Sprite.updateLombric m t b l).sprite ∧
      0 ≤ (Sprite.updateLombric m t b l).sprite.posY ∧
        (Sprite.updateLombric m t b l).sprite.posY < _
    rw [Sprite.getLife, hcorps]
    exact ⟨hvie, hpos.1, by omega⟩

/-- A living box is not on the cell of a worm. -/
theorem caisse_of_alive {m : Map} {t : Int} {v : List Sprite} {s w : Sprite}
    (hf : s.forme = .healthBox) (ha : (s.update m t v).alive = true) (hw : w ∈ v)
    (hid : w.getId ≠ 0) :
    ¬ (w.posX = (s.suivant m t).posX ∧ w.posY = (s.suivant m t).posY) := by
  rw [← Sprite.update_sprite m t v s]
  obtain ⟨b, c⟩ := s
  cases c with
  | lombric l => cases hf
  | projectile p => cases hf
  | healthBox x =>
    simp only [Sprite.update, Sprite.updateHealthBox_eq, Sprite.ramasse] at ha ⊢
    split at ha
    · simp at ha
    · next hnone =>
      intro hpos
      have := List.find?_eq_none.mp hnone w hw
      simp [hid, hpos] at this

theorem Passage.auRepos {p : Partie} (h : p.Passage) {t : Int}
    (hq : (p.updateSprites t).1 = false) : (p.updateSprites t).2.AuRepos := by
  obtain ⟨he, hmv, halive⟩ := updateSprites_quiet hq
  have hal : ∀ s ∈ p.spriteVector, ∃ v, (s.update p.carte t v).alive = true := by
    intro s hs
    obtain ⟨a, b, hab⟩ := List.append_of_mem hs
    exact ⟨_, halive a s b hab⟩
  have hnone : ∀ s ∈ p.spriteVector, (s.suivant p.carte t).movement = none := fun s hs => by
    simpa [Sprite.isInMovement] using hmv s hs
  have hproj : ∀ s ∈ p.spriteVector, s.forme ≠ .projectile := by
    intro s hs hf
    obtain ⟨v, hv⟩ := hal s hs
    have hvol := Sprite.enVol_tenu.update (h.enVol s hs) hv ((Sprite.update_forme ..).trans hf)
    rw [Sprite.update_sprite, hmv s hs] at hvol
    cases hvol
  rw [he]
  constructor
  · intro s' hs'
    obtain ⟨s, hs, rfl⟩ := List.mem_map.mp hs'
    exact hnone s hs
  · intro s' hs'
    obtain ⟨s, hs, rfl⟩ := List.mem_map.mp hs'
    rw [Sprite.suivant_forme]
    exact hproj s hs
  · intro s' hs' hid
    obtain ⟨s, hs, rfl⟩ := List.mem_map.mp hs'
    obtain ⟨v, hv⟩ := hal s hs
    rw [Sprite.getId_of_forme (Sprite.suivant_forme p.carte t s)] at hid
    exact lombric_of_alive hid (h.eau s hs) hv
  · intro s' hs'
    obtain ⟨s, hs, rfl⟩ := List.mem_map.mp hs'
    exact Sprite.isAir_below_suivant (hproj s hs) (hnone s hs)
  · intro s' hs' w' hw' hf hid
    obtain ⟨s, hs, rfl⟩ := List.mem_map.mp hs'
    obtain ⟨w, hw, rfl⟩ := List.mem_map.mp hw'
    rw [Sprite.suivant_forme] at hf
    obtain ⟨a, b, hab⟩ := List.append_of_mem hs
    have hid0 := Sprite.getId_of_forme (Sprite.suivant_forme p.carte t w)
    -- the worm stands before the box in the vector, so the box has met it where it is
    have hwa : w ∈ a := by
      rw [hab, List.mem_append, List.mem_cons] at hw
      rcases hw with hw | rfl | hw
      · exact hw
      · exact absurd (getId_eq_zero_of_forme (Or.inl hf)) (hid0 ▸ hid)
      · have hr := h.rangs
        rw [hab, List.map_append, List.map_cons, List.pairwise_append, List.pairwise_cons] at hr
        exact absurd (getId_eq_zero_of_forme (Or.inl hf))
          (hr.2.1.1 _ (List.mem_map_of_mem hw) (hid0 ▸ hid))
    exact caisse_of_alive hf (halive a s b hab)
      (List.mem_append_left _ (List.mem_map_of_mem hwa)) hid

/-- **Whenever `Partie::update` returns, the game is at rest.** -/
theorem update_auRepos (p p' : Partie) (fuel : Nat) (h : p.Rangee) (hu : p.update fuel = some p') :
    p'.AuRepos :=
  Ticks.loop_rule (I := Passage) (fun t _ hq => hq.updateSprites t) (fun _ _ hq hf => hq.auRepos hf)
    fuel 0 p p' h.passage hu

/-- A worm, a box and a missile above it. -/
def petitePartie : Partie where
  carte := Map.petite
  spriteVector :=
    [⟨⟨0, 0, 2, none⟩, .lombric ⟨7, 100, 150⟩⟩,
      ⟨⟨1, 1, 0, none⟩, .healthBox ⟨25⟩⟩,
      ⟨⟨2, 0, 1, some ⟨0, 1, 3, 0, gravity, 0, .PARABOLE⟩⟩, .projectile missile⟩]
  currentWorms := some 0
  blockDeleted := []
  endTour := false
  suivante := 3

theorem petitePartie_auRepos : ∃ p', petitePartie.update 45 = some p' ∧ p'.AuRepos := by
  have hr : petitePartie.Rangee :=
    ⟨by decide, [_], [_, _], rfl, by decide, by decide⟩
  have hsome : (petitePartie.update 45).isSome = true := by decide +kernel
  obtain ⟨p', hp'⟩ := Option.isSome_iff_exists.mp hsome
  exact ⟨p', hp', update_auRepos petitePartie p' 45 hr hp'⟩

end Partie
end LombricABrac
