import LombricABrac.PartieTermination
import LombricABrac.Lib.Runs

/-!
# Games without moves: every update returns

The calls that a game makes on its object after START, one event each, in any order: a shot is
`tir` followed by `update`, a water rise `montee` followed by `update`.

    returns_of_reach : the loop of `Partie::update` ends in every state of every run
-/

namespace LombricABrac

namespace Partie

inductive Appel where
  | tir (t : Tir)
  | setCurrentLomb (id : Nat)
  | increaseWaterLevel
  | dropHealthBox (pv : Int) (rand : List Nat)
  | update (fuel : Nat)

def appelle (calculDirVect : Direction) : Appel → Partie → Option Partie
  | .tir t, p => shoot calculDirVect t { p with blockDeleted := [] }
  | .setCurrentLomb id, p => some (p.setCurrentLomb id)
  | .increaseWaterLevel, p => p.increaseWaterLevel
  | .dropHealthBox pv rand, p => (p.dropHealthBox pv rand).map (·.1)
  | .update fuel, p => p.update fuel

/-- The state that START leaves: the worms of the list of ids, placed on the map. -/
def Start (p : Partie) : Prop :=
  ∃ carte pv maxPv ids rand lombs reste endTour,
    nouveauxLombrics carte pv maxPv ids 0 rand = some (lombs, reste) ∧
      p = setParam carte lombs endTour

/-! ## Sound states -/

theorem isAir_of_place {m : Map} {x y : Nat} (h : m.isTypeBloc x y air = true) :
    m.isAir x y = true := by
  rw [Map.isAir, u32_natCast, u32_natCast]
  exact h

theorem sain_of_repos {m : Map} {s : Sprite} (hm : s.movement = none) (hp : s.forme ≠ .projectile)
    (ha : m.isAir s.posX s.posY = true) : s.Sain m := by
  refine ⟨fun _ => ha, fun mv hmv => ?_, fun hf => absurd hf hp⟩
  rw [hm] at hmv
  cases hmv

theorem nouveauxLombrics_sain {carte : Map} {pv maxPv : Int} (ids : List Nat) :
    ∀ {adresse : Nat} {rand reste : List Nat} {lombs : List Sprite},
      nouveauxLombrics carte pv maxPv ids adresse rand = some (lombs, reste) →
      ∀ s ∈ lombs, s.Sain carte := by
  induction ids with
  | nil =>
    intro adresse rand reste lombs h s hs
    cases h
    cases hs
  | cons id ids ih =>
    intro adresse rand reste lombs h
    rw [nouveauxLombrics] at h
    split at h
    · simp at h
    · next x saveY y rand' hp =>
      obtain ⟨⟨lombs', reste'⟩, hr, he⟩ := Option.map_eq_some_iff.mp h
      cases he
      intro s hs
      rcases List.mem_cons.mp hs with rfl | hs
      · exact sain_of_repos rfl (by simp [Sprite.forme]) (isAir_of_place (carte.place_spec rand hp).2.1)
      · exact ih hr s hs

theorem start_sain {p : Partie} (h : p.Start) : p.Partout Sprite.Sain := by
  obtain ⟨carte, pv, maxPv, ids, rand, lombs, reste, endTour, hl, rfl⟩ := h
  exact nouveauxLombrics_sain ids hl

theorem shoot_sain {calculDirVect : Direction} {t : Tir} {p p' : Partie}
    (h : p.Partout Sprite.Sain) (hs : shoot calculDirVect t p = some p') :
    p'.Partout Sprite.Sain := by
  unfold shoot at hs
  split at hs
  · obtain ⟨lomb, _, rfl⟩ := Option.map_eq_some_iff.mp hs
    intro s hs
    rcases List.mem_append.mp hs with hs | hs
    · exact h s hs
    · rw [List.mem_singleton] at hs
      subst hs
      refine ⟨fun hf => absurd rfl hf, fun mv hmv => ?_, fun _ => rfl⟩
      cases hmv
      exact ⟨rfl, gravity_descends.pos⟩
  · obtain ⟨lomb, _, rfl⟩ := Option.map_eq_some_iff.mp hs
    intro s' hs'
    obtain ⟨s, hs, rfl⟩ := List.mem_map.mp hs'
    simp only
    split
    · next hid =>
      refine ⟨fun _ => (h s hs).surAir fun hf => hid.1 (getId_eq_zero_of_forme (Or.inr hf)),
        fun mv hmv => ?_, fun _ => rfl⟩
      cases hmv
      exact ⟨rfl, gravity_descends.pos⟩
    · exact h s hs
  · cases hs
    exact h
  · simp at hs

theorem increaseWaterLevel_sain {p p' : Partie} (h : p.Partout Sprite.Sain)
    (hi : p.increaseWaterLevel = some p') : p'.Partout Sprite.Sain := by
  obtain ⟨carte, hc, rfl⟩ := Option.map_eq_some_iff.mp hi
  intro s hs
  have := h s hs
  exact ⟨fun hp => (Map.airLe_increaseWaterLevel hc).isAir (this.surAir hp), this.parabole, this.enVol⟩

theorem dropHealthBox_sain {pv : Int} {rand reste : List Nat} {p p' : Partie} {pos : Nat × Nat}
    (h : p.Partout Sprite.Sain) (hd : p.dropHealthBox pv rand = some (p', pos, reste)) :
    p'.Partout Sprite.Sain := by
  unfold dropHealthBox at hd
  split at hd
  · simp at hd
  · next x saveY y rand' hp =>
    cases hd
    intro s hs
    rcases List.mem_append.mp hs with hs | hs
    · exact h s hs
    · rw [List.mem_singleton] at hs
      subst hs
      exact sain_of_repos rfl (by simp [Sprite.forme]) (isAir_of_place (p.carte.place_spec rand hp).1)

theorem appelle_sain {calculDirVect : Direction} {a : Appel} {p p' : Partie}
    (h : p.Partout Sprite.Sain) (ha : appelle calculDirVect a p = some p') :
    p'.Partout Sprite.Sain := by
  cases a with
  | tir t => exact shoot_sain (p := { p with blockDeleted := [] }) h ha
  | setCurrentLomb id =>
    cases ha
    exact h
  | increaseWaterLevel => exact increaseWaterLevel_sain h ha
  | dropHealthBox pv rand =>
    obtain ⟨⟨q, pos, reste⟩, hd, rfl⟩ := Option.map_eq_some_iff.mp ha
    exact dropHealthBox_sain h hd
  | update fuel => exact update_keeps Sprite.sain_tenu h ha

/-- **In every state of every run from START, `Partie::update` returns.** -/
theorem returns_of_reach (calculDirVect : Direction) (p : Partie)
    (h : Runs.Reach (appelle calculDirVect) (fun _ _ => True) Start p) :
    ∃ fuel p', p.update fuel = some p' :=
  update_returns (h.invariant (fun _ => start_sain) fun _ _ _ hI _ ha => appelle_sain hI ha)

/-- One worm, chosen, has just shot straight ahead with full force. -/
theorem petiteCarte_returns : ∃ p, Runs.exec (appelle fun _ => (1, 0)) (fun _ _ => True)
      [.setCurrentLomb 7, .tir ⟨0, 100, 0⟩]
      (setParam Map.petite [⟨⟨0, 0, 2, none⟩, .lombric ⟨7, 100, 150⟩⟩] false) = some p ∧
    ∃ fuel p', p.update fuel = some p' := by
  have hstart : (setParam Map.petite [⟨⟨0, 0, 2, none⟩, .lombric ⟨7, 100, 150⟩⟩] false).Start :=
    ⟨Map.petite, 100, 150, [7], [0, 0], _, [], false, by decide +kernel, rfl⟩
  have hsome : (Runs.exec (appelle fun _ => (1, 0)) (fun _ _ => True)
      [.setCurrentLomb 7, .tir ⟨0, 100, 0⟩]
      (setParam Map.petite [⟨⟨0, 0, 2, none⟩, .lombric ⟨7, 100, 150⟩⟩] false)).isSome = true := by
    decide +kernel
  obtain ⟨p, hp⟩ := Option.isSome_iff_exists.mp hsome
  exact ⟨p, hp, returns_of_reach (fun _ => (1, 0)) p (Runs.reach_of_exec _ (.init hstart) hp)⟩

end Partie
end LombricABrac
