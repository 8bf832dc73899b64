import LombricABrac.PartieRest

/-!
# Who is in the vector

Each object has its address for life, and a nature that nothing changes.  The calls of a room on
its object only remove objects, or add one under a free address, whatever they do to the rest; so a
property of natures is kept by all of them.

    Registre        : distinct addresses, all of them taken, and natures with a property
    Registre.update : kept by an update, and in the same way by every other call
-/

namespace LombricABrac

namespace Sprite

/-- The constants of an object: all but the life of a worm. -/
inductive Nature where
  | lombric (id : Nat) (maxVie : Int)
  | projectile (p : Projectile)
  | healthBox (b : HealthBox)

def nature (s : Sprite) : Nature :=
  match s.corps with
  | .lombric l => .lombric l.id l.maxVie
  | .projectile p => .projectile p
  | .healthBox b => .healthBox b

def Nature.id : Nature → Nat
  | .lombric id _ => id
  | _ => 0

theorem getId_eq (s : Sprite) : s.getId = s.nature.id := by
  obtain ⟨b, c⟩ := s
  cases c <;> rfl

theorem nature_update (m : Map) (t : Int) (v : List Sprite) (s : Sprite) :
    (s.update m t v).sprite.nature = s.nature := by
  obtain ⟨b, c⟩ := s
  cases c with
  | lombric l => rfl
  | projectile p =>
    simp only [update, updateProjectile]
    split <;> rfl
  | healthBox x =>
    simp only [update, updateHealthBox_eq, ramasse]
    split <;> rfl

theorem nature_addLife (s : Sprite) (n : Int) : (s.addLife n).nature = s.nature := by
  obtain ⟨b, c⟩ := s
  cases c <;> rfl

theorem nature_recoit (soin : Option (Nat × Int)) (s : Sprite) : (s.recoit soin).nature = s.nature := by
  unfold recoit
  split
  · split
    · exact nature_addLife s _
    · rfl
  · rfl

theorem nature_deathMove (m : Map) (t : Int) (s o : Sprite) :
    ((s.deathMove m t).2.2 o).nature = o.nature := by
  unfold deathMove
  split
  · simp only
    split
    · unfold explosed
      simp only
      split
      · exact nature_addLife o _
      · rfl
    · rfl
  · rfl

theorem conserve_nature : Passe.Conserve nature := ⟨nature_update, nature_recoit, nature_deathMove⟩

end Sprite

open Sprite (Nature)

namespace Partie

theorem update_suivante {p p' : Partie} {fuel : Nat} (hu : p.update fuel = some p') :
    p'.suivante = p.suivante :=
  Ticks.loop_keeps (I := fun q => q.suivante = p.suivante) (fun _ _ h => h) fuel 0 p p' rfl hu

theorem update_currentWorms {p p' : Partie} {fuel : Nat} (hu : p.update fuel = some p') :
    p'.currentWorms = p.currentWorms :=
  Ticks.loop_keeps (I := fun q => q.currentWorms = p.currentWorms) (fun _ _ h => h) fuel 0 p p' rfl hu

/-! ## Finding a worm -/

theorem findLombric_spec {p : Partie} {id : Nat} {s : Sprite} (h : p.findLombric id = some s) :
    s ∈ p.spriteVector ∧ s.getId = id ∧ ∃ l, s.corps = .lombric l := by
  obtain ⟨w, hw, h⟩ := Option.bind_eq_some_iff.mp h
  split at h
  · next l hl =>
    cases h
    exact ⟨List.mem_of_find?_eq_some hw, by simpa using List.find?_some hw, l, hl⟩
  · simp at h

theorem isLombAlive_spec {p : Partie} {id : Nat} (h : p.isLombAlive id = true) :
    ∃ s, p.findLombric id = some s ∧ 0 < s.getLife := by
  unfold isLombAlive at h
  split at h
  · next s hs => exact ⟨s, hs, by simpa using h⟩
  · simp at h

/-! ## The calls of a room -/

structure Registre (Q : Nature → Prop) (p : Partie) : Prop where
  nodup : (p.spriteVector.map (·.adresse)).Nodup
  lt : ∀ a ∈ p.spriteVector.map (·.adresse), a < p.suivante
  nature : ∀ n ∈ p.spriteVector.map Sprite.nature, Q n

variable {Q : Nature → Prop} {p p' : Partie}

/-- The calls that leave addresses and natures where they are. -/
theorem Registre.congr (h : p.Registre Q) (hs : p'.suivante = p.suivante)
    (ha : p'.spriteVector.map (·.adresse) = p.spriteVector.map (·.adresse))
    (hn : p'.spriteVector.map Sprite.nature = p.spriteVector.map Sprite.nature) : p'.Registre Q := by
  refine ⟨?_, ?_, ?_⟩
  · rw [ha]
    exact h.nodup
  · rw [ha, hs]
    exact h.lt
  · rw [hn]
    exact h.nature

theorem Registre.update (h : p.Registre Q) {fuel : Nat} (hu : p.update fuel = some p') :
    p'.Registre Q where
  nodup := h.nodup.sublist (update_sublist Passe.conserve_adresse hu)
  lt a ha := by
    rw [update_suivante hu]
    exact h.lt a ((update_sublist Passe.conserve_adresse hu).subset ha)
  nature n hn := h.nature n ((update_sublist Sprite.conserve_nature hu).subset hn)

theorem Registre.pushBack (h : p.Registre Q) (x y : Int) (movement : Option PhysicsObject)
    (corps : Corps) (hq : Q (Sprite.nature ⟨⟨p.suivante, x, y, movement⟩, corps⟩)) :
    (p.pushBack x y movement corps).Registre Q where
  nodup := by
    simp only [Partie.pushBack, List.map_append, List.map_cons, List.map_nil]
    refine List.nodup_append.mpr ⟨h.nodup, List.nodup_singleton _, ?_⟩
    intro a ha b hb
    have := h.lt a ha
    rw [List.mem_singleton] at hb
    omega
  lt a ha := by
    simp only [Partie.pushBack, List.map_append, List.mem_append, List.map_cons, List.map_nil,
      List.mem_singleton] at ha ⊢
    rcases ha with ha | rfl
    · have := h.lt a ha
      omega
    · exact Nat.lt_succ_self _
  nature n hn := by
    simp only [Partie.pushBack, List.map_append, List.mem_append, List.map_cons, List.map_nil,
      List.mem_singleton] at hn
    rcases hn with hn | rfl
    · exact h.nature n hn
    · exact hq

theorem Registre.setCurrentLomb (h : p.Registre Q) (id : Nat) : (p.setCurrentLomb id).Registre Q :=
  ⟨h.nodup, h.lt, h.nature⟩

theorem Registre.increaseWaterLevel (h : p.Registre Q) (hw : p.increaseWaterLevel = some p') :
    p'.Registre Q := by
  obtain ⟨carte, _, rfl⟩ := Option.map_eq_some_iff.mp hw
  exact ⟨h.nodup, h.lt, h.nature⟩

theorem Registre.dropHealthBox (h : p.Registre Q) {pv : Int} {rand reste : List Nat} {pos : Nat × Nat}
    (hd : p.dropHealthBox pv rand = some (p', pos, reste)) (hq : Q (.healthBox ⟨pv⟩)) :
    p'.Registre Q := by
  unfold Partie.dropHealthBox at hd
  split at hd
  · simp at hd
  · cases hd
    exact h.pushBack _ _ _ _ hq

theorem Registre.poser (h : p.Registre Q) (adresse : Nat) (x y : Int) : (p.poser adresse x y).Registre Q := by
  refine h.congr rfl ?_ ?_ <;> rw [Partie.poser, List.map_map]
  · refine List.map_congr_left fun s _ => ?_
    simp only [Function.comp_apply]
    split <;> rfl
  · refine List.map_congr_left fun s _ => ?_
    simp only [Function.comp_apply]
    split <;> rfl

/-- A move that is refused does nothing. -/
theorem moveCurrentLombric_cases {fuel : Nat} {lp : LombPos}
    (hm : p.moveCurrentLombric fuel lp = some p') :
    p' = p ∨ ∃ adresse, (p.poser adresse (int32 lp.posX) (int32 lp.posY)).update fuel = some p' := by
  unfold Partie.moveCurrentLombric at hm
  split at hm
  · cases hm
    exact Or.inl rfl
  · next lomb _ =>
    simp only at hm
    split at hm
    · cases hm
      exact Or.inl rfl
    · split at hm
      · cases hm
        exact Or.inl rfl
      · exact Or.inr ⟨lomb.adresse, hm⟩

theorem Registre.moveCurrentLombric (h : p.Registre Q) {fuel : Nat} {lp : LombPos}
    (hm : p.moveCurrentLombric fuel lp = some p') : p'.Registre Q := by
  rcases moveCurrentLombric_cases hm with rfl | ⟨adresse, hu⟩
  · exact h
  · exact (h.poser _ _ _).update hu

theorem Registre.shoot (h : p.Registre Q) {calculDirVect : Direction} {tir : Tir}
    (hs : shoot calculDirVect tir p = some p') (hq : Q (.projectile missile)) : p'.Registre Q := by
  unfold Partie.shoot at hs
  split at hs
  · obtain ⟨lomb, _, rfl⟩ := Option.map_eq_some_iff.mp hs
    exact h.pushBack _ _ _ _ hq
  · obtain ⟨lomb, _, rfl⟩ := Option.map_eq_some_iff.mp hs
    refine h.congr rfl ?_ ?_ <;> rw [List.map_map]
    · refine List.map_congr_left fun s _ => ?_
      simp only [Function.comp_apply]
      split <;> rfl
    · refine List.map_congr_left fun s _ => ?_
      simp only [Function.comp_apply]
      split
      · exact Sprite.nature_addLife s (-25)
      · rfl
  · cases hs
    exact h
  · simp at hs

theorem Registre.useWeapon (h : p.Registre Q) {calculDirVect : Direction} {fuel : Nat} {tir : Tir}
    {murs : List Nat} {degats : List Degat}
    (hs : p.useWeapon calculDirVect fuel tir = some (p', murs, degats)) (hq : Q (.projectile missile)) :
    p'.Registre Q := by
  obtain ⟨q, hb, he⟩ := Option.map_eq_some_iff.mp hs
  obtain ⟨p₁, hp₁, hu⟩ := Option.bind_eq_some_iff.mp hb
  cases he
  have h₀ : Partie.Registre Q { p with blockDeleted := [] } := ⟨h.nodup, h.lt, h.nature⟩
  exact (h₀.shoot hp₁ hq).update hu

/-! ## The start -/

theorem nouveauxLombrics_spec {carte : Map} {pv maxPv : Int} (ids : List Nat) :
    ∀ {adresse : Nat} {rand reste : List Nat} {lombs : List Sprite},
      nouveauxLombrics carte pv maxPv ids adresse rand = some (lombs, reste) →
      lombs.map (·.adresse) = List.range' adresse ids.length ∧
      lombs.map (·.corps) = ids.map fun id => .lombric ⟨id, pv, maxPv⟩ := by
  induction ids with
  | nil =>
    intro adresse rand reste lombs h
    cases h
    exact ⟨rfl, rfl⟩
  | cons id ids ih =>
    intro adresse rand reste lombs h
    rw [nouveauxLombrics] at h
    split at h
    · simp at h
    · obtain ⟨⟨lombs', reste'⟩, hr, he⟩ := Option.map_eq_some_iff.mp h
      cases he
      obtain ⟨ha, hc⟩ := ih hr
      simp [ha, hc, List.range'_succ]

/-- The worms placed by START have the same life. -/
theorem corps_nouveauxLombrics {carte : Map} {pv maxPv : Int} {ids rand reste : List Nat}
    {lombs : List Sprite} {adresse : Nat}
    (h : nouveauxLombrics carte pv maxPv ids adresse rand = some (lombs, reste)) {s : Sprite}
    (hs : s ∈ lombs) : ∃ id ∈ ids, s.corps = .lombric ⟨id, pv, maxPv⟩ := by
  have hcs : s.corps ∈ lombs.map (·.corps) := List.mem_map_of_mem hs
  rw [(nouveauxLombrics_spec ids h).2] at hcs
  obtain ⟨id, hid, he⟩ := List.mem_map.mp hcs
  exact ⟨id, hid, he.symm⟩

theorem isLombAlive_setParam {carte : Map} {pv maxPv : Int} {ids rand reste : List Nat}
    {lombs : List Sprite} (h : nouveauxLombrics carte pv maxPv ids 0 rand = some (lombs, reste))
    (endTour : Bool) {id : Nat} (hid : id ∈ ids) (hpv : 0 < pv) :
    (setParam carte lombs endTour).isLombAlive id = true := by
  have hin : Corps.lombric ⟨id, pv, maxPv⟩ ∈ lombs.map (·.corps) := by
    rw [(nouveauxLombrics_spec ids h).2]
    exact List.mem_map_of_mem hid
  obtain ⟨s, hs, he⟩ := List.mem_map.mp hin
  have hfind : ((setParam carte lombs endTour).findById id).isSome = true := by
    refine List.find?_isSome.mpr ⟨s, hs, ?_⟩
    simp [Sprite.getId, he]
  obtain ⟨w, hw⟩ := Option.isSome_iff_exists.mp hfind
  obtain ⟨id', _, hc⟩ := corps_nouveauxLombrics h (List.mem_of_find?_eq_some hw)
  simp [isLombAlive, findLombric, hw, hc, Sprite.getLife, hpv]

theorem registre_setParam {carte : Map} {pv maxPv : Int} {ids rand reste : List Nat}
    {lombs : List Sprite} (h : nouveauxLombrics carte pv maxPv ids 0 rand = some (lombs, reste))
    (endTour : Bool) (hq : ∀ id ∈ ids, Q (.lombric id maxPv)) :
    (setParam carte lombs endTour).Registre Q := by
  obtain ⟨ha, hc⟩ := nouveauxLombrics_spec ids h
  have hlen : lombs.length = ids.length := by
    simpa using congrArg List.length hc
  refine ⟨?_, ?_, ?_⟩
  · rw [setParam, ha]
    exact List.nodup_range'
  · intro a hin
    rw [setParam, ha, List.mem_range'_1] at hin
    show a < lombs.length
    omega
  · intro n hn
    obtain ⟨s, hs, rfl⟩ := List.mem_map.mp hn
    obtain ⟨id, hid, he⟩ := corps_nouveauxLombrics h hs
    unfold Sprite.nature
    rw [he]
    exact hq id hid

end Partie
end LombricABrac
