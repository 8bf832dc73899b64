import LombricABrac.Partie
import Mathlib.Logic.Function.Iterate

/-!
# What a pass of `updateSprites` keeps

Every sprite of the vector after a step of the pass is one of those before it, updated, healed or
thrown; so what these three operations keep, passes and whole updates keep.

    update_keeps   : a property of each sprite and the map it is on
    update_sublist : the vector only loses sprites, and keeps its order
    update_quiet   : a pass that answers `false` updates each sprite and does nothing else
-/

namespace LombricABrac

namespace Passe

variable {t : Int} {p : Passe} {s : Sprite} {apres : List Sprite}

theorem etape_nil (h : p.apres = []) : etape t p = p := by
  unfold etape
  rw [h]

theorem etape_cons (h : p.apres = s :: apres) :
    etape t p = if (s.update p.carte t p.tous).alive then p.survit t s apres else p.meurt t s apres := by
  unfold etape
  rw [h]

theorem tous_survit : (p.survit t s apres).tous =
    p.avant.map (Sprite.recoit (s.update p.carte t p.tous).soin) ++
      [(s.update p.carte t p.tous).sprite] ++
        apres.map (Sprite.recoit (s.update p.carte t p.tous).soin) := rfl

theorem tous_meurt : (p.meurt t s apres).tous =
    ((p.avant ++ apres).map (Sprite.recoit (s.update p.carte t p.tous).soin)).map
      ((s.update p.carte t p.tous).sprite.deathMove p.carte t).2.2 := by
  rw [List.map_append, List.map_append]
  rfl

theorem apres_survit : (p.survit t s apres).apres.length = apres.length := List.length_map _

theorem apres_meurt : (p.meurt t s apres).apres.length = apres.length := by
  simp [meurt]

theorem apres_etape (t : Int) (p : Passe) : (etape t p).apres.length = p.apres.length - 1 := by
  cases h : p.apres with
  | nil => rw [etape_nil h, h]; rfl
  | cons s apres =>
    rw [etape_cons h]
    split
    · rw [apres_survit]; rfl
    · rw [apres_meurt]; rfl

theorem apres_iterate (t : Int) (n : Nat) : ∀ p : Passe,
    ((etape t)^[n] p).apres.length = p.apres.length - n := by
  induction n with
  | zero => intro p; rfl
  | succ n ih =>
    intro p
    rw [Function.iterate_succ_apply, ih, apres_etape]
    omega

/-- What the steps keep, the pass keeps. -/
theorem iterate_keeps {J : Passe → Prop} (hJ : ∀ p, J p → J (etape t p)) (n : Nat) (h : J p) :
    J ((etape t)^[n] p) :=
  Function.Iterate.rec J h hJ n

/-! ## Properties of each sprite -/

/-- `I` survives digging, updates, healing and explosions. -/
structure Tenu (I : Map → Sprite → Prop) : Prop where
  dug : ∀ {m m' : Map} {cs s}, Map.Dug m cs m' → I m s → I m' s
  update : ∀ {m : Map} {t v s}, I m s → (s.update m t v).alive = true →
    I m (s.update m t v).sprite
  recoit : ∀ {m : Map} {soin s}, I m s → I m (s.recoit soin)
  deathMove : ∀ {m : Map} {t o} (s : Sprite), I m o → I m ((s.deathMove m t).2.2 o)

/-- A survivor takes the place of the head; nothing else changes. -/
theorem tous_survit_of_alive (ha : (s.update p.carte t p.tous).alive = true) :
    (p.survit t s apres).tous = p.avant ++ (s.update p.carte t p.tous).sprite :: apres := by
  rw [tous_survit, Sprite.soin_of_alive ha, show Sprite.recoit none = id from rfl]
  simp

theorem mem_meurt {x : Sprite} (h : x ∈ (p.meurt t s apres).tous) :
    ∃ o ∈ p.avant ++ apres, x = (((s.update p.carte t p.tous).sprite.deathMove p.carte t).2.2
      (o.recoit (s.update p.carte t p.tous).soin)) := by
  rw [tous_meurt, List.map_map] at h
  obtain ⟨o, ho, rfl⟩ := List.mem_map.mp h
  exact ⟨o, ho, rfl⟩

theorem Tenu.etape {I : Map → Sprite → Prop} (hI : Tenu I) (t : Int) (p : Passe)
    (h : ∀ s ∈ p.tous, I p.carte s) : ∀ s ∈ (p.etape t).tous, I (p.etape t).carte s := by
  cases hap : p.apres with
  | nil => rwa [etape_nil hap]
  | cons s apres =>
    have htous : p.tous = p.avant ++ s :: apres := by rw [tous, hap]
    have hs : I p.carte s := h s (by simp [htous])
    rw [etape_cons hap]
    split
    · next ha =>
      intro x hx
      rw [tous_survit_of_alive ha, List.mem_append, List.mem_cons] at hx
      rcases hx with hx | rfl | hx
      · exact h x (by simp [htous, hx])
      · exact hI.update hs ha
      · exact h x (by simp [htous, hx])
    · intro x hx
      obtain ⟨o, ho, rfl⟩ := mem_meurt hx
      obtain ⟨cs, _, hdug⟩ := Sprite.deathMove_dug p.carte t (s.update p.carte t p.tous).sprite
      have ho' : I p.carte o := h o (by
        rw [htous]
        exact ((List.sublist_cons_self s apres).append_left p.avant).subset ho)
      exact hI.dug hdug (hI.deathMove _ (hI.recoit ho'))

/-! ## The vector only shrinks -/

/-- A field that no operation of a pass changes. -/
structure Conserve {α : Type} (f : Sprite → α) : Prop where
  update : ∀ (m : Map) (t v) (s : Sprite), f (s.update m t v).sprite = f s
  recoit : ∀ (soin) (s : Sprite), f (s.recoit soin) = f s
  deathMove : ∀ (m : Map) (t) (s o : Sprite), f ((s.deathMove m t).2.2 o) = f o

theorem conserve_forme : Conserve Sprite.forme :=
  ⟨Sprite.update_forme, Sprite.recoit_forme, Sprite.deathMove_forme⟩

theorem conserve_adresse : Conserve fun s => s.adresse := by
  refine ⟨Sprite.update_adresse, fun soin s => by simp, fun m t s o => ?_⟩
  rcases Sprite.deathMove_toBase m t s o with h | ⟨_, vx, vy, h⟩
  · rw [h]
  · rw [h]; rfl

theorem Conserve.map_recoit {α : Type} {f : Sprite → α} (hf : Conserve f) (soin : Option (Nat × Int))
    (l : List Sprite) : (l.map (Sprite.recoit soin)).map f = l.map f := by
  rw [List.map_map]
  exact List.map_congr_left fun s _ => hf.recoit soin s

theorem Conserve.map_deathMove {α : Type} {f : Sprite → α} (hf : Conserve f) (m : Map) (t : Int)
    (s : Sprite) (l : List Sprite) : (l.map (s.deathMove m t).2.2).map f = l.map f := by
  rw [List.map_map]
  exact List.map_congr_left fun o _ => hf.deathMove m t s o

theorem Conserve.etape {α : Type} {f : Sprite → α} (hf : Conserve f) (t : Int) (p : Passe) :
    List.Sublist ((p.etape t).tous.map f) (p.tous.map f) := by
  cases hap : p.apres with
  | nil => rw [etape_nil hap]
  | cons s apres =>
    have htous : p.tous.map f = p.avant.map f ++ f s :: apres.map f := by
      rw [tous, hap, List.map_append, List.map_cons]
    rw [etape_cons hap]
    split
    · next ha =>
      rw [tous_survit_of_alive ha, List.map_append, List.map_cons, hf.update, htous]
    · rw [tous_meurt, hf.map_deathMove, hf.map_recoit, htous, List.map_append]
      exact (List.sublist_cons_self _ _).append_left _

/-! ## Passes without a death -/

/-- The life of a worm changes in its own update. -/
def blesse (m : Map) (t : Int) (s : Sprite) : Bool :=
  s.getId != 0 && (s.suivant m t).getLife != s.getLife

theorem survit_of_alive (ha : (s.update p.carte t p.tous).alive = true) :
    p.survit t s apres = { p with
      avant := p.avant ++ [s.suivant p.carte t]
      apres := apres
      endTour := p.endTour || blesse p.carte t s
      isMovement := p.isMovement || (s.suivant p.carte t).isInMovement } := by
  simp only [survit, Sprite.soin_of_alive ha, Sprite.update_sprite,
    show Sprite.recoit none = id from rfl, List.map_id, blesse]

theorem length_etape_le (t : Int) (p : Passe) : (p.etape t).tous.length ≤ p.tous.length := by
  simpa using (conserve_forme.etape t p).length_le

theorem length_iterate_le (t : Int) (n : Nat) (p : Passe) :
    ((etape t)^[n] p).tous.length ≤ p.tous.length :=
  iterate_keeps (J := fun q => q.tous.length ≤ p.tous.length)
    (fun q hq => (length_etape_le t q).trans hq) n le_rfl

/-- **A pass that loses nobody** moves each sprite on its own.  Induction on what is left to
treat: a death would shorten the vector for good. -/
theorem iterate_survie (t : Int) (n : Nat) : ∀ p : Passe, p.apres.length = n →
    ((etape t)^[n] p).tous.length = p.tous.length →
    (etape t)^[n] p = { p with
      avant := p.avant ++ p.apres.map (Sprite.suivant p.carte t)
      apres := []
      endTour := p.endTour || p.apres.any (blesse p.carte t)
      isMovement := p.isMovement || p.apres.any fun s => (s.suivant p.carte t).isInMovement } ∧
    ∀ a s b, p.apres = a ++ s :: b →
      (s.update p.carte t (p.avant ++ a.map (Sprite.suivant p.carte t) ++ s :: b)).alive = true := by
  induction n with
  | zero =>
    intro p hn _
    have hnil := List.eq_nil_of_length_eq_zero hn
    refine ⟨?_, fun a s b h => ?_⟩
    · simp only [Function.iterate_zero, id_eq, hnil, List.map_nil, List.append_nil, List.any_nil,
        Bool.or_false]
      rw [← hnil]
    · simp [hnil] at h
  | succ n ih =>
    intro p hn hlen
    obtain ⟨s, apres, hap⟩ := List.exists_cons_of_length_eq_add_one hn
    rw [Function.iterate_succ_apply] at hlen ⊢
    have hle := length_iterate_le t n (p.etape t)
    have htous : p.tous = p.avant ++ s :: apres := by rw [tous, hap]
    have hn' : apres.length = n := by simpa [hap] using hn
    rw [etape_cons hap] at hle hlen ⊢
    split at hle
    · next ha =>
      rw [if_pos ha] at hlen ⊢
      have hlen' : (p.survit t s apres).tous.length = p.tous.length := by
        rw [tous_survit_of_alive ha, htous]
        simp
      obtain ⟨h1, h2⟩ := ih (p.survit t s apres) (by rw [apres_survit, hn']) (hlen.trans hlen'.symm)
      rw [survit_of_alive ha] at h1 h2 ⊢
      refine ⟨?_, fun a s' b hab => ?_⟩
      · rw [h1]
        simp [hap, Bool.or_assoc]
      · rw [hap] at hab
        cases a with
        | nil =>
          cases hab
          rw [htous] at ha
          simpa using ha
        | cons x a =>
          cases hab
          have := h2 a s' b rfl
          simpa using this
    · -- the head died: the vector is shorter from here on
      next ha =>
      exfalso
      rw [if_neg ha] at hlen
      have : (p.meurt t s apres).tous.length + 1 = p.tous.length := by
        rw [tous_meurt, htous]
        simp
        omega
      omega

/-- A death is seen as a movement. -/
theorem isMovement_or_length (t : Int) (n : Nat) (p : Passe) :
    ((etape t)^[n] p).isMovement = true ∨ ((etape t)^[n] p).tous.length = p.tous.length := by
  refine iterate_keeps (J := fun q => q.isMovement = true ∨ q.tous.length = p.tous.length)
    (fun q hq => ?_) n (Or.inr rfl)
  cases hap : q.apres with
  | nil => rwa [etape_nil hap]
  | cons s apres =>
    rw [etape_cons hap]
    split
    · next ha =>
      rcases hq with hq | hq
      · left
        simp [survit, hq]
      · right
        rw [tous_survit_of_alive ha, ← hq, tous, hap]
        simp
    · exact Or.inl rfl

end Passe

namespace Partie

variable {p p' : Partie} {t : Int}

theorem passe_apres (t : Int) (p : Partie) : (p.passe t).apres = [] := by
  apply List.eq_nil_of_length_eq_zero
  rw [passe, Passe.apres_iterate]
  exact Nat.sub_self _

theorem passe_tous (t : Int) (p : Partie) : (p.passe t).tous = (p.passe t).avant := by
  rw [Passe.tous, passe_apres, List.append_nil]

/-- A property of the passes that holds at the start of a pass and is kept by each step. -/
theorem passe_rule {J : Passe → Prop} (hJ : ∀ q, J q → J (q.etape t))
    (h : J ⟨p.carte, [], p.spriteVector, p.blockDeleted, p.endTour, false⟩) : J (p.passe t) :=
  Passe.iterate_keeps hJ _ h

/-- Every sprite has `I` on the map it is on. -/
def Partout (I : Map → Sprite → Prop) (p : Partie) : Prop := ∀ s ∈ p.spriteVector, I p.carte s

theorem updateSprites_keeps {I : Map → Sprite → Prop} (hI : Passe.Tenu I) (t : Int) (p : Partie)
    (h : p.Partout I) : (p.updateSprites t).2.Partout I := by
  have hfin := passe_rule (t := t) (J := fun q => ∀ s ∈ q.tous, I q.carte s) (hI.etape t) h
  rwa [passe_tous] at hfin

theorem update_keeps {I : Map → Sprite → Prop} (hI : Passe.Tenu I) {fuel : Nat}
    (h : p.Partout I) (hu : p.update fuel = some p') : p'.Partout I :=
  Ticks.loop_keeps (I := Partout I) (fun t q => updateSprites_keeps hI t q) fuel 0 p p' h hu

theorem updateSprites_sublist {α : Type} {f : Sprite → α} (hf : Passe.Conserve f) (t : Int)
    (p : Partie) :
    List.Sublist ((p.updateSprites t).2.spriteVector.map f) (p.spriteVector.map f) := by
  have hfin := passe_rule (t := t) (J := fun q => List.Sublist (q.tous.map f) (p.spriteVector.map f))
    (fun q hq => (hf.etape t q).trans hq) (List.Sublist.refl _)
  rwa [passe_tous] at hfin

theorem update_sublist {α : Type} {f : Sprite → α} (hf : Passe.Conserve f) {fuel : Nat}
    (hu : p.update fuel = some p') :
    List.Sublist (p'.spriteVector.map f) (p.spriteVector.map f) :=
  Ticks.loop_keeps (I := fun q => List.Sublist (q.spriteVector.map f) (p.spriteVector.map f))
    (fun t q hq => (updateSprites_sublist hf t q).trans hq) fuel 0 p p' (List.Sublist.refl _) hu

theorem length_updateSprites_le (t : Int) (p : Partie) :
    (p.updateSprites t).2.spriteVector.length ≤ p.spriteVector.length := by
  simpa using (updateSprites_sublist Passe.conserve_forme t p).length_le

/-- A pass after which the vector is as long as before. -/
theorem updateSprites_survie
    (h : (p.updateSprites t).2.spriteVector.length = p.spriteVector.length) :
    p.updateSprites t = (p.spriteVector.any fun s => (s.suivant p.carte t).isInMovement, { p with
      spriteVector := p.spriteVector.map (Sprite.suivant p.carte t)
      endTour := p.endTour || p.spriteVector.any (Passe.blesse p.carte t) }) ∧
    ∀ a s b, p.spriteVector = a ++ s :: b →
      (s.update p.carte t (a.map (Sprite.suivant p.carte t) ++ s :: b)).alive = true := by
  have hlen : (p.passe t).tous.length = p.spriteVector.length := by rwa [passe_tous]
  obtain ⟨h1, h2⟩ := Passe.iterate_survie t p.spriteVector.length
    ⟨p.carte, [], p.spriteVector, p.blockDeleted, p.endTour, false⟩ rfl hlen
  refine ⟨?_, fun a s b hab => by simpa using h2 a s b hab⟩
  unfold updateSprites passe
  rw [h1]
  simp

/-- **A pass that answers `false`** has moved nobody for good: all are alive and at rest. -/
theorem updateSprites_quiet (h : (p.updateSprites t).1 = false) :
    (p.updateSprites t).2 = { p with
      spriteVector := p.spriteVector.map (Sprite.suivant p.carte t)
      endTour := p.endTour || p.spriteVector.any (Passe.blesse p.carte t) } ∧
    (∀ s ∈ p.spriteVector, (s.suivant p.carte t).isInMovement = false) ∧
    ∀ a s b, p.spriteVector = a ++ s :: b →
      (s.update p.carte t (a.map (Sprite.suivant p.carte t) ++ s :: b)).alive = true := by
  have hlen : (p.updateSprites t).2.spriteVector.length = p.spriteVector.length := by
    rcases Passe.isMovement_or_length t p.spriteVector.length
      ⟨p.carte, [], p.spriteVector, p.blockDeleted, p.endTour, false⟩ with hm | hl
    · rw [updateSprites, passe, hm] at h
      cases h
    · have : (p.passe t).tous.length = p.spriteVector.length := hl
      rwa [passe_tous] at this
  obtain ⟨h1, h2⟩ := updateSprites_survie hlen
  rw [h1] at h ⊢
  refine ⟨rfl, fun s hs => ?_, h2⟩
  simpa using (List.any_eq_false.mp h) s hs

/-- **Every worm that an update leaves** has positive life and stands above the drowning line. -/
theorem update_vivants {fuel : Nat} (hu : p.update fuel = some p') {s : Sprite}
    (hs : s ∈ p'.spriteVector) {l : Lombric} (hl : s.corps = .lombric l) :
    0 < l.vie ∧ u32 s.posY < p'.carte.ligneNoyade := by
  refine Ticks.loop_rule (I := fun _ => True) (Q := fun p' : Partie => ∀ s ∈ p'.spriteVector, ∀ l,
    s.corps = .lombric l → 0 < l.vie ∧ u32 s.posY < p'.carte.ligneNoyade) (fun _ _ _ => trivial)
    (fun t p _ hq => ?_) fuel 0 p p' trivial hu s hs l hl
  obtain ⟨he, _, halive⟩ := updateSprites_quiet hq
  rw [he]
  intro s' hs' l hl
  obtain ⟨s, hs, rfl⟩ := List.mem_map.mp hs'
  obtain ⟨a, b, hab⟩ := List.append_of_mem hs
  have ha := halive a s b hab
  obtain ⟨base, corps⟩ := s
  cases corps with
  | lombric w =>
    obtain ⟨vie, hvie, hcorps, hy⟩ := Sprite.updateLombric_alive ha
    obtain rfl : { w with vie } = l := Corps.lombric.inj (hcorps.symm.trans hl)
    exact ⟨hvie, hy⟩
  | projectile x =>
    have hf : (Sprite.suivant p.carte t ⟨base, .projectile x⟩).forme = .projectile :=
      Sprite.suivant_forme ..
    simp [Sprite.forme, hl] at hf
  | healthBox x =>
    have hf : (Sprite.suivant p.carte t ⟨base, .healthBox x⟩).forme = .healthBox :=
      Sprite.suivant_forme ..
    simp [Sprite.forme, hl] at hf

end Partie
end LombricABrac
