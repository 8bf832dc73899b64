import LombricABrac.PartieRest

/-!
# The loop of `Partie::update` ends

A pass that kills a sprite shortens the vector for good, so it is enough to look at runs of
passes in which nobody dies (`Ticks.loop_terminates`).  In such a run the map is fixed and each
sprite moves on its own (`updateSprites_survie`):

* a projectile in flight leaves the map, and dies: there is none;
* a worm or a box lands, for the same reason; if it then hangs over AIR it falls from rest, and
  such a fall ends at least one row lower (`trajet_chute`);
* there are finitely many rows.

    trajet_repos  : a worm or a box on an AIR cell of a fixed map comes to rest
    update_returns : from a sound state `Partie::update` returns
-/

namespace LombricABrac

namespace Base

/-- One tick of a worm or a box on a fixed map, and a run of ticks. -/
def pas (m : Map) (g : ℚ) (t : Int) (b : Base) : Base := (b.avance m t).tombe m t g

def trajet (m : Map) (g : ℚ) : Nat → Int → Base → Base :=
  Ticks.after (fun t b => (true, b.pas m g t)) 25

/-- On AIR; any movement is a parabola bent downwards. -/
structure Sain (m : Map) (b : Base) : Prop where
  surAir : m.isAir b.posX b.posY = true
  parabole : ∀ mv, b.movement = some mv → mv.moveType = .PARABOLE ∧ 0 < mv.gravity

variable {m : Map} {g : ℚ} {b : Base} {t : Int}

theorem trajet_add (i j : Nat) (t : Int) (b : Base) :
    trajet m g (i + j) t b = trajet m g j (t + i * 25) (trajet m g i t b) :=
  Ticks.after_add i j t b

theorem trajet_succ (n : Nat) (t : Int) (b : Base) :
    trajet m g (n + 1) t b = (trajet m g n t b).pas m g (t + n * 25) :=
  Ticks.after_succ n t b

theorem Sain.tombe (h : b.Sain m) (hg : 0 < g) : (b.tombe m t g).Sain m := by
  unfold Base.tombe
  split
  · refine ⟨h.surAir, fun mv hmv => ?_⟩
    cases hmv
    exact ⟨rfl, hg⟩
  · exact h

theorem Sain.deleteMovement (h : b.Sain m) : b.deleteMovement.Sain m :=
  ⟨h.surAir, fun _ hmv => by cases hmv⟩

/-! ## At rest -/

theorem pas_of_repos (hn : b.movement = none) (hs : m.isAir b.posX (b.posY + 1) = false) :
    b.pas m g t = b := by
  have hv : b.vol m t = .repos := by
    unfold vol
    rw [hn]
  unfold pas avance
  rw [hv]
  simp [Base.tombe, hs]

/-- A sprite at rest on a floor stays there. -/
theorem trajet_of_repos (hn : b.movement = none) (hs : m.isAir b.posX (b.posY + 1) = false) (n : Nat)
    (t : Int) : trajet m g n t b = b := by
  induction n with
  | zero => rfl
  | succ n ih => rw [trajet_succ, ih, pas_of_repos hn hs]

/-! ## In flight -/

/-- A tick of a flight that goes on. -/
theorem pas_of_libre {mv : PhysicsObject} (hmv : b.movement = some mv)
    (ha : m.isAir (mv.update t).1 (mv.update t).2 = true) :
    b.pas m g t = b.setPos (mv.update t).1 (mv.update t).2 := by
  have hv : b.vol m t = .libre (mv.update t).1 (mv.update t).2 := by
    unfold vol
    simp [hmv, ha]
  unfold pas avance
  rw [hv]
  simp [Base.tombe, setPos, hmv]

/-- The tick of the landing. -/
theorem pas_of_choc {mv : PhysicsObject} (hmv : b.movement = some mv)
    (ha : m.isAir (mv.update t).1 (mv.update t).2 = false) :
    b.pas m g t = b.deleteMovement.tombe m t g := by
  have hv : b.vol m t = .choc (mv.getSpeedY t) := by
    unfold vol
    simp [hmv, ha]
  unfold pas avance
  rw [hv]

/-- As long as the flight meets AIR only, the movement is the same and the cell is AIR. -/
theorem trajet_of_libre {mv : PhysicsObject} (hb : b.Sain m) (hmv : b.movement = some mv) (n : Nat)
    (hl : ∀ j < n, m.isAir (mv.update (t + j * 25)).1 (mv.update (t + j * 25)).2 = true) :
    (trajet m g n t b).Sain m ∧ (trajet m g n t b).movement = some mv ∧
      ∀ j, n = j + 1 → (trajet m g n t b).posY = (mv.update (t + j * 25)).2 := by
  induction n with
  | zero => exact ⟨hb, hmv, fun j hj => by cases hj⟩
  | succ n ih =>
    obtain ⟨_, h2, _⟩ := ih fun j hj => hl j (by omega)
    rw [trajet_succ, pas_of_libre h2 (hl n (by omega))]
    refine ⟨⟨hl n (by omega), fun mv' hmv' => ?_⟩, h2, fun j hj => ?_⟩
    · have : mv' = mv := Option.some.inj (hmv'.symm.trans h2)
      rw [this]
      exact hb.parabole mv hmv
    · cases hj
      rfl

/-- **Every flight lands.**  `n` is the first tick that meets something else than AIR. -/
theorem exists_choc {mv : PhysicsObject} (hmt : mv.moveType = .PARABOLE) (hg : 0 < mv.gravity)
    (m : Map) (t : Int) : ∃ n : Nat,
      m.isAir (mv.update (t + n * 25)).1 (mv.update (t + n * 25)).2 = false ∧
      ∀ j < n, m.isAir (mv.update (t + j * 25)).1 (mv.update (t + j * 25)).2 = true := by
  have hex : ∃ n : Nat, m.isAir (mv.update (t + n * 25)).1 (mv.update (t + n * 25)).2 = false := by
    obtain ⟨n, hn⟩ := mv.update_ge hmt hg m.hauteur t
    refine ⟨n, ?_⟩
    by_contra hair
    have := Map.lt_of_isAir (by simpa using hair)
    have := hn n le_rfl
    omega
  classical
  exact ⟨Nat.find hex, Nat.find_spec hex, fun j hj => by simpa using Nat.find_min hex hj⟩

theorem trajet_choc {mv : PhysicsObject} (hb : b.Sain m) (hmv : b.movement = some mv) {n : Nat}
    (hc : m.isAir (mv.update (t + n * 25)).1 (mv.update (t + n * 25)).2 = false)
    (hl : ∀ j < n, m.isAir (mv.update (t + j * 25)).1 (mv.update (t + j * 25)).2 = true) :
    trajet m g (n + 1) t b = (trajet m g n t b).deleteMovement.tombe m (t + n * 25) g := by
  rw [trajet_succ]
  exact pas_of_choc (trajet_of_libre hb hmv n hl).2.1 hc

/-! ## Falls from rest -/

/-- **A fall from rest over AIR ends at least one row lower**, and is then at rest or falls anew. -/
theorem trajet_chute {K : Nat} (hK : DescendsAfter g K) (hb : b.Sain m) (hn : b.movement = none)
    (ha : m.isAir b.posX (b.posY + 1) = true) (t : Int) :
    ∃ (n : Nat) (b' : Base), b'.Sain m ∧ b'.movement = none ∧ b.posY + 1 ≤ b'.posY ∧
      trajet m g (n + 1) (t + 25) (b.tombe m t g) = b'.tombe m (t + 25 + n * 25) g := by
  have htombe : b.tombe m t g = b.setMovement 0 0 g .PARABOLE t := by
    rw [Base.tombe, if_pos ⟨hn, ha⟩]
  set mv : PhysicsObject := ⟨b.posX, b.posY, 0, 0, g, t, .PARABOLE⟩ with hmv
  have hy := (Map.lt_of_isAir hb.surAir).2.1
  have hup : ∀ n : Nat, mv.update (t + 25 + n * 25) = (b.posX, b.posY + chute g (n + 1)) := by
    intro n
    rw [show t + 25 + (n : Int) * 25 = t + ((n + 1 : Nat) : Int) * 25 by push_cast; ring]
    exact update_drop b.posX b.posY hy hK.pos.le t (n + 1)
  have hs : (b.tombe m t g).Sain m := hb.tombe hK.pos
  have hmvb : (b.tombe m t g).movement = some mv := by rw [htombe]; rfl
  obtain ⟨n, hc, hl⟩ := exists_choc (show mv.moveType = .PARABOLE from rfl) hK.pos m (t + 25)
  obtain ⟨h1, _, h3⟩ := trajet_of_libre (g := g) hs hmvb n hl
  -- the first `K + 1` ticks meet the cell of the sprite and the one below it, both AIR
  have hKn : K < n := by
    by_contra hle
    rw [hup] at hc
    rcases Nat.lt_or_ge n K with hlt | hge
    · have h0 : chute g (n + 1) = 0 := by
        have := chute_mono hK.pos.le (show n + 1 ≤ K by omega)
        have := chute_nonneg hK.pos.le (n + 1)
        have := hK.stays
        omega
      rw [h0, add_zero, hb.surAir] at hc
      cases hc
    · have hnK : n = K := by omega
      rw [hnK, hK.next, ha] at hc
      cases hc
  refine ⟨n, (trajet m g n (t + 25) (b.tombe m t g)).deleteMovement, h1.deleteMovement, rfl, ?_,
    trajet_choc hs hmvb hc hl⟩
  obtain ⟨j, rfl⟩ : ∃ j, n = j + 1 := ⟨n - 1, by omega⟩
  have h1K : chute g (K + 1) ≤ chute g (j + 1) := chute_mono hK.pos.le (by omega)
  rw [hK.next] at h1K
  show b.posY + 1 ≤ (trajet m g (j + 1) (t + 25) (b.tombe m t g)).posY
  rw [h3 j rfl, hup]
  show b.posY + 1 ≤ b.posY + chute g (j + 1)
  omega

/-- From some tick on, no movement. -/
def SArrete (m : Map) (g : ℚ) (t : Int) (b : Base) : Prop :=
  ∃ N, ∀ n ≥ N, (trajet m g n t b).movement = none

theorem SArrete.of_trajet (k : Nat) (h : SArrete m g (t + k * 25) (trajet m g k t b)) :
    SArrete m g t b := by
  obtain ⟨N, hN⟩ := h
  refine ⟨k + N, fun n hn => ?_⟩
  obtain ⟨j, rfl⟩ := Nat.exists_eq_add_of_le (show k ≤ n by omega)
  rw [trajet_add]
  exact hN j (by omega)

/-- Induction on the rows below the sprite. -/
theorem sArrete_tombe {K : Nat} (hK : DescendsAfter g K) (r : Nat) : ∀ (b : Base) (t : Int),
    b.Sain m → b.movement = none → m.hauteur - b.posY ≤ r →
    SArrete m g (t + 25) (b.tombe m t g) := by
  induction r with
  | zero =>
    intro b t hb _ hr
    have := (Map.lt_of_isAir hb.surAir).2
    omega
  | succ r ih =>
    intro b t hb hn hr
    by_cases ha : m.isAir b.posX (b.posY + 1) = true
    · obtain ⟨n, b', hb', hn', hy, htr⟩ := trajet_chute hK hb hn ha t
      refine SArrete.of_trajet (n + 1) ?_
      rw [htr, show t + 25 + ((n + 1 : Nat) : Int) * 25 = t + 25 + n * 25 + 25 by push_cast; ring]
      exact ih b' _ hb' hn' (by push_cast at hr; omega)
    · have hs : m.isAir b.posX (b.posY + 1) = false := by simpa using ha
      refine ⟨0, fun n _ => ?_⟩
      rw [show b.tombe m t g = b by simp [Base.tombe, hs], trajet_of_repos hn hs]
      exact hn

/-- **A worm or a box on AIR comes to rest**, whatever movement it starts with. -/
theorem trajet_repos {K : Nat} (hK : DescendsAfter g K) (hb : b.Sain m) (t : Int) :
    SArrete m g t b := by
  have hrow : ∀ b : Base, b.Sain m → m.hauteur - b.posY ≤ (m.hauteur : Nat) := fun b hb => by
    have := (Map.lt_of_isAir hb.surAir).2
    omega
  cases hmv : b.movement with
  | none =>
    refine SArrete.of_trajet 1 ?_
    have h1 : trajet m g 1 t b = b.tombe m t g := by
      rw [trajet_succ 0 t b]
      have hv : b.vol m t = .repos := by
        unfold vol
        rw [hmv]
      simp [trajet, Ticks.after, pas, avance, hv]
    rw [h1]
    simpa using sArrete_tombe hK m.hauteur b t hb hmv (hrow b hb)
  | some mv =>
    obtain ⟨hmt, hg⟩ := hb.parabole mv hmv
    obtain ⟨n, hc, hl⟩ := exists_choc hmt hg m t
    have hs := (trajet_of_libre (g := g) hb hmv n hl).1.deleteMovement
    refine SArrete.of_trajet (n + 1) ?_
    rw [trajet_choc hb hmv hc hl,
      show t + ((n + 1 : Nat) : Int) * 25 = t + n * 25 + 25 by push_cast; ring]
    exact sArrete_tombe hK m.hauteur _ _ hs rfl (hrow _ hs)

end Base

/-! ## Sound sprites -/

namespace Sprite

/-- A worm or a box is on AIR, a projectile flies, and every movement bends downwards. -/
structure Sain (m : Map) (s : Sprite) : Prop where
  surAir : s.forme ≠ .projectile → m.isAir s.posX s.posY = true
  parabole : ∀ mv, s.movement = some mv → mv.moveType = .PARABOLE ∧ 0 < mv.gravity
  enVol : s.EnVol m

theorem Sain.base {m : Map} {s : Sprite} (h : s.Sain m) (hp : s.forme ≠ .projectile) :
    s.toBase.Sain m := ⟨h.surAir hp, h.parabole⟩

/-- The gravity of the falls of a sprite. -/
def graviteChute (s : Sprite) : ℚ :=
  match s.corps with
  | .healthBox _ => boxGravity
  | _ => LombricABrac.gravity

theorem graviteChute_descends (s : Sprite) : ∃ K, DescendsAfter s.graviteChute K := by
  unfold graviteChute
  split
  · exact ⟨_, boxGravity_descends⟩
  · exact ⟨_, gravity_descends⟩

theorem deplace_eq_pas {s : Sprite} (hp : s.forme ≠ .projectile) (m : Map) (t : Int) :
    s.deplace m t = s.toBase.pas m s.graviteChute t := by
  obtain ⟨b, c⟩ := s
  cases c with
  | lombric l => rfl
  | projectile p => exact absurd rfl hp
  | healthBox x => rfl

theorem graviteChute_suivant (m : Map) (t : Int) (s : Sprite) :
    (s.suivant m t).graviteChute = s.graviteChute := by
  have h := s.suivant_forme m t
  obtain ⟨b, c⟩ := s
  generalize suivant m t ⟨b, c⟩ = s' at h ⊢
  obtain ⟨b', c'⟩ := s'
  cases c <;> cases c' <;> first | rfl | cases h

/-- One tick of a sound sprite that lives through it. -/
theorem Sain.suivant {m : Map} {s : Sprite} {t : Int} {v : List Sprite} (h : s.Sain m)
    (ha : (s.update m t v).alive = true) : (s.suivant m t).Sain m := by
  have henVol := enVol_tenu.update h.enVol ha
  rw [update_sprite] at henVol
  refine ⟨fun hp => ?_, fun mv hmv => ?_, henVol⟩
  · rw [suivant_forme] at hp
    rw [suivant_toBase, deplace_eq_pas hp, Base.pas, (Base.tombe_pos ..).1, (Base.tombe_pos ..).2]
    unfold Base.avance
    split
    · exact h.surAir hp
    · exact h.surAir hp
    · next hv => exact (Base.vol_libre hv).1
  · have havance : ∀ mv, (s.avance m t).movement = some mv → s.movement = some mv := by
      intro mv hmv
      unfold Base.avance at hmv
      split at hmv
      · exact hmv
      · cases hmv
      · exact hmv
    have htombe : ∀ g : ℚ, 0 < g → ∀ mv, ((s.avance m t).tombe m t g).movement = some mv →
        mv.moveType = .PARABOLE ∧ 0 < mv.gravity := by
      intro g hg mv hmv
      unfold Base.tombe at hmv
      split at hmv
      · cases hmv
        exact ⟨rfl, hg⟩
      · exact h.parabole mv (havance mv hmv)
    rw [suivant_toBase] at hmv
    unfold deplace at hmv
    split at hmv
    · exact htombe _ gravity_descends.pos mv hmv
    · exact h.parabole mv (havance mv hmv)
    · exact htombe _ boxGravity_descends.pos mv hmv

theorem sain_tenu : Passe.Tenu Sain where
  dug hd h := ⟨fun hp => hd.airLe.isAir (h.surAir hp), h.parabole, h.enVol⟩
  update h ha := by
    rw [update_sprite]
    exact h.suivant ha
  recoit {m soin s} h := by
    refine ⟨fun hp => ?_, fun mv hmv => ?_, enVol_tenu.recoit h.enVol⟩
    · rw [recoit_forme] at hp
      rw [recoit_toBase]
      exact h.surAir hp
    · rw [recoit_toBase] at hmv
      exact h.parabole mv hmv
  deathMove {m t o} s h := by
    have hpos := deathMove_toBase m t s o
    refine ⟨fun hp => ?_, fun mv hmv => ?_, enVol_tenu.deathMove s h.enVol⟩
    · rw [deathMove_forme] at hp
      rcases hpos with e | ⟨_, vx, vy, e⟩ <;> rw [e] <;> exact h.surAir hp
    · rcases hpos with e | ⟨_, vx, vy, e⟩ <;> rw [e] at hmv
      · exact h.parabole mv hmv
      · cases hmv
        exact ⟨rfl, gravity_descends.pos⟩

/-- The ticks of one sprite on a fixed map. -/
def trajet (m : Map) : Nat → Int → Sprite → Sprite :=
  Ticks.after (fun t s => (true, s.suivant m t)) 25

theorem trajet_succ (m : Map) (n : Nat) (t : Int) (s : Sprite) :
    s.trajet m (n + 1) t = (s.trajet m n t).suivant m (t + n * 25) := Ticks.after_succ n t s

theorem trajet_forme (m : Map) (n : Nat) (t : Int) (s : Sprite) :
    (s.trajet m n t).forme = s.forme := by
  induction n with
  | zero => rfl
  | succ n ih => rw [trajet_succ, suivant_forme, ih]

theorem trajet_toBase {s : Sprite} (hp : s.forme ≠ .projectile) (m : Map) (n : Nat) (t : Int) :
    (s.trajet m n t).toBase = s.toBase.trajet m s.graviteChute n t ∧
      (s.trajet m n t).graviteChute = s.graviteChute := by
  induction n with
  | zero => exact ⟨rfl, rfl⟩
  | succ n ih =>
    rw [trajet_succ, suivant_toBase, deplace_eq_pas (by rwa [trajet_forme]), ih.1, ih.2,
      graviteChute_suivant, ih.2, Base.trajet_succ]
    exact ⟨rfl, rfl⟩

/-- A projectile that never dies would fly through AIR for ever; but it leaves the map. -/
theorem exists_mort {m : Map} {s : Sprite} (h : s.Sain m) (hp : s.forme = .projectile) (t : Int)
    (v : Nat → List Sprite) :
    ∃ n : Nat, ((s.trajet m n t).update m (t + n * 25) (v n)).alive = false := by
  by_contra hne
  have halive : ∀ n : Nat, ((s.trajet m n t).update m (t + n * 25) (v n)).alive = true :=
    fun n => by simpa using not_exists.mp hne n
  obtain ⟨mv, hmv⟩ := Option.isSome_iff_exists.mp (h.enVol hp)
  have hvol : ∀ (t : Int) (v : List Sprite) (o : Sprite), o.forme = .projectile →
      o.movement = some mv → (o.update m t v).alive = true →
      m.isAir (mv.update t).1 (mv.update t).2 = true ∧ (o.suivant m t).movement = some mv := by
    intro t v o ho hom ha
    obtain ⟨b, c⟩ := o
    cases c with
    | lombric l => cases ho
    | healthBox x => cases ho
    | projectile p =>
      simp only [update, updateProjectile] at ha
      split at ha
      · next hv =>
        rw [Base.vol_repos hv] at hom
        cases hom
      · simp at ha
      · next x y hv =>
        obtain ⟨hair, mv', hmv', hu⟩ := Base.vol_libre hv
        obtain rfl : mv' = mv := Option.some.inj (hmv'.symm.trans hom)
        rw [hu]
        refine ⟨hair, ?_⟩
        rw [suivant_toBase, deplace]
        simp only [Base.avance, hv, Base.setPos]
        exact hom
  have hall : ∀ n : Nat, (s.trajet m n t).movement = some mv := by
    intro n
    induction n with
    | zero => exact hmv
    | succ n ih =>
      rw [trajet_succ]
      exact (hvol _ _ _ ((trajet_forme ..).trans hp) ih (halive n)).2
  obtain ⟨hmt, hg⟩ := h.parabole mv hmv
  obtain ⟨n, hc, _⟩ := Base.exists_choc hmt hg m t
  rw [(hvol _ _ _ ((trajet_forme ..).trans hp) (hall n) (halive n)).1] at hc
  cases hc

end Sprite

/-! ## Runs of passes in which nobody dies -/

namespace Partie

open Ticks

theorem after_survie {p : Partie} {t : Int}
    (hq : ∀ n, (after updateSprites 25 n t p).spriteVector.length = p.spriteVector.length)
    (n : Nat) : (after updateSprites 25 n t p).carte = p.carte ∧
      (after updateSprites 25 n t p).spriteVector = p.spriteVector.map (Sprite.trajet p.carte n t) := by
  induction n with
  | zero =>
    refine ⟨rfl, ?_⟩
    show p.spriteVector = p.spriteVector.map id
    rw [List.map_id]
  | succ n ih =>
    have hlen := hq (n + 1)
    rw [after_succ] at hlen ⊢
    obtain ⟨h, _⟩ := updateSprites_survie (hlen.trans (hq n).symm)
    rw [h]
    refine ⟨ih.1, ?_⟩
    simp only [ih.1, ih.2, List.map_map]
    exact List.map_congr_left fun s _ => (Sprite.trajet_succ p.carte n t s).symm

theorem alive_of_survie {p : Partie} {t : Int}
    (hq : ∀ n, (after updateSprites 25 n t p).spriteVector.length = p.spriteVector.length)
    {s : Sprite} (hs : s ∈ p.spriteVector) (n : Nat) :
    ∃ v, ((s.trajet p.carte n t).update p.carte (t + n * 25) v).alive = true := by
  have hlen := hq (n + 1)
  rw [after_succ] at hlen
  obtain ⟨_, h⟩ := updateSprites_survie (hlen.trans (hq n).symm)
  obtain ⟨hc, hv⟩ := after_survie hq n
  have hmem : s.trajet p.carte n t ∈ (after updateSprites 25 n t p).spriteVector := by
    rw [hv]
    exact List.mem_map_of_mem hs
  obtain ⟨a, b, hab⟩ := List.append_of_mem hmem
  have := h a _ b hab
  rw [hc] at this
  exact ⟨_, this⟩

/-- A common bound for finitely many sprites. -/
theorem exists_bound (l : List Sprite) (P : Sprite → Nat → Prop)
    (h : ∀ s ∈ l, ∃ N, ∀ n ≥ N, P s n) : ∃ N, ∀ s ∈ l, ∀ n ≥ N, P s n := by
  induction l with
  | nil => exact ⟨0, fun s hs => by cases hs⟩
  | cons a l ih =>
    obtain ⟨N, hN⟩ := ih fun s hs => h s (List.mem_cons_of_mem _ hs)
    obtain ⟨M, hM⟩ := h a List.mem_cons_self
    refine ⟨max M N, fun s hs n hn => ?_⟩
    rcases List.mem_cons.mp hs with rfl | hs
    · exact hM n ((le_max_left _ _).trans hn)
    · exact hN s hs n ((le_max_right _ _).trans hn)

theorem exists_quiet {p : Partie} (h : p.Partout Sprite.Sain) (t : Int)
    (hq : ∀ n, (after updateSprites 25 n t p).spriteVector.length = p.spriteVector.length) :
    ∃ n : Nat, ((after updateSprites 25 n t p).updateSprites (t + n * 25)).1 = false := by
  have hp : ∀ s ∈ p.spriteVector, s.forme ≠ .projectile := by
    intro s hs hf
    choose v hv using alive_of_survie hq hs
    obtain ⟨n, hn⟩ := Sprite.exists_mort (h s hs) hf t v
    rw [hv n] at hn
    cases hn
  obtain ⟨N, hN⟩ := exists_bound p.spriteVector
    (fun s n => (s.trajet p.carte n t).movement = none) fun s hs => by
      obtain ⟨K, hK⟩ := s.graviteChute_descends
      obtain ⟨N, hN⟩ := Base.trajet_repos hK ((h s hs).base (hp s hs)) t
      exact ⟨N, fun n hn => by rw [(Sprite.trajet_toBase (hp s hs) p.carte n t).1]; exact hN n hn⟩
  have hlen := hq (N + 1)
  rw [after_succ] at hlen
  obtain ⟨he, _⟩ := updateSprites_survie (hlen.trans (hq N).symm)
  obtain ⟨hc, hv⟩ := after_survie hq N
  refine ⟨N, ?_⟩
  rw [he, hv, hc]
  simp only [List.any_eq_false, List.mem_map, Sprite.isInMovement, Bool.not_eq_true,
    Option.isSome_eq_false_iff, Option.isNone_iff_eq_none]
  rintro _ ⟨s, hs, rfl⟩
  rw [← Sprite.trajet_succ]
  exact hN s hs (N + 1) (by omega)

/-- **`Partie::update` returns** from every sound state. -/
theorem update_returns {p : Partie} (h : p.Partout Sprite.Sain) : ∃ fuel p', p.update fuel = some p' :=
  loop_terminates (I := Partout Sprite.Sain)
    (fun t q hq => updateSprites_keeps Sprite.sain_tenu t q hq)
    (fun q => q.spriteVector.length) (fun t q => length_updateSprites_le t q)
    (fun t _ hq hs => exists_quiet hq t hs) 0 p h

end Partie
end LombricABrac
