import LombricABrac.GameRuns
import LombricABrac.Explosions

/-!
# The current worm

START and the `do … while` of `end_round` choose the current worm; only an update can take it away.
A worm dies by its own update, which raises `endTour`, or by an explosion, and there is none while
a worm walks; what is left is the box that "heals" it down to a maximum of 0.

    Partie.update_vivant  : an update that does not raise `endTour` spares the current worm
    Salle.attend_endRound : a turn that `end_round` starts has its worm
    courant_of_reach      : in every run where START and the boxes leave no gap, a game that waits has
                            its worm
    spectateur_sansLombric : with a spectator first, it has none
-/

namespace LombricABrac

open Sprite (Nature)

namespace Partie

/-! ## Updates without explosions -/

/-- No projectile, worms of maximum `M`, and boxes that cannot kill. -/
def Calme (M : Int) : Nature → Prop
  | .lombric _ maxVie => maxVie = M
  | .projectile _ => False
  | .healthBox b => 0 ≤ b.health ∧ 0 < M

/-- The worm `id` at that address lives. -/
def EstVivant (adresse id : Nat) (w : Sprite) : Prop :=
  w.adresse = adresse ∧ w.getId = id ∧ 0 < w.getLife

variable {M : Int} {a id : Nat}

theorem estVivant_addLife {w : Sprite} (h : EstVivant a id w) (hM : Calme M w.nature) (h0 : 0 < M)
    {n : Int} (hn : 0 ≤ n) : EstVivant a id (w.addLife n) := by
  obtain ⟨b, c⟩ := w
  cases c with
  | lombric l =>
    refine ⟨h.1, h.2.1, ?_⟩
    have hl : 0 < l.vie := h.2.2
    have hm : l.maxVie = M := hM
    show 0 < (l.addLife n).vie
    unfold Lombric.addLife
    simp only
    split <;> omega
  | projectile p => exact h
  | healthBox x => exact h

/-- What a box that disappears does to a living worm. -/
theorem estVivant_recoit {m : Map} {t : Int} {v : List Sprite} {s w : Sprite}
    (h : EstVivant a id w) (hs : Calme M s.nature) (hw : Calme M w.nature) :
    EstVivant a id (w.recoit (s.update m t v).soin) := by
  unfold Sprite.recoit
  split
  · next a' n hsoin =>
    split
    · obtain ⟨b, c⟩ := s
      cases c with
      | lombric l => cases hsoin
      | projectile p => exact False.elim hs
      | healthBox x =>
        have hn : n = x.health := by
          simp only [Sprite.update, Sprite.updateHealthBox_eq, Sprite.ramasse] at hsoin
          split at hsoin
          · cases hsoin
            rfl
          · simp at hsoin
        rw [hn]
        exact estVivant_addLife h hw hs.2 hs.1
    · exact h
  · exact h

/-- Its own update spares it, or changes its life. -/
theorem estVivant_suivant {m : Map} {t : Int} {w : Sprite} (h : EstVivant a id w) :
    EstVivant a id (w.suivant m t) ∨ (w.suivant m t).getLife ≠ w.getLife := by
  by_cases hl : (w.suivant m t).getLife = w.getLife
  · refine Or.inl ⟨?_, ?_, ?_⟩
    · rw [Sprite.suivant, Sprite.update_adresse]
      exact h.1
    · rw [Sprite.getId_of_forme (w.suivant_forme m t)]
      exact h.2.1
    · rw [hl]
      exact h.2.2
  · exact Or.inr hl

theorem getLife_of_dead {m : Map} {t : Int} {v : List Sprite} {w : Sprite} (h : EstVivant a id w)
    (hd : ¬ (w.update m t v).alive = true) : (w.update m t v).sprite.getLife ≠ w.getLife := by
  obtain ⟨b, c⟩ := w
  have hl := h.2.2
  cases c with
  | lombric l =>
    simp only [Sprite.update, Sprite.updateLombric, decide_eq_true_eq, not_not] at hd ⊢
    simp only [Sprite.getLife] at hl ⊢
    omega
  | projectile p => exact absurd hl (lt_irrefl 0)
  | healthBox x => exact absurd hl (lt_irrefl 0)

end Partie

namespace Passe

open Partie

variable {M : Int} {a id : Nat} {t : Int} {p : Passe}

/-- The current worm lives, or the turn is over. -/
def Epargne (a id : Nat) (p : Passe) : Prop :=
  p.endTour = true ∨ ∃ w ∈ p.tous, EstVivant a id w

theorem deathMove_calme {m : Map} {s : Sprite} (h : Calme M s.nature) :
    (s.deathMove m t).2.2 = fun sp => sp := by
  obtain ⟨b, c⟩ := s
  cases c with
  | projectile p => exact False.elim h
  | lombric l => rfl
  | healthBox x => rfl

/-- **One step of a pass.**  The worm is treated before, now or later. -/
theorem epargne_etape (hid : id ≠ 0) (hc : ∀ s ∈ p.tous, Calme M s.nature) (h : p.Epargne a id) :
    (p.etape t).Epargne a id := by
  cases hap : p.apres with
  | nil => rwa [etape_nil hap]
  | cons s apres =>
    have htous : p.tous = p.avant ++ s :: apres := by rw [tous, hap]
    have hs : Calme M s.nature := hc s (by simp [htous])
    rw [etape_cons hap]
    rcases h with h | ⟨w, hw, hviv⟩
    · split <;> exact Or.inl (by simp [survit, meurt, h])
    · rw [htous, List.mem_append, List.mem_cons] at hw
      have hwc : w ∈ p.avant ++ apres → Calme M w.nature := fun hmem => hc w (by
        rw [htous]
        exact ((List.sublist_cons_self s apres).append_left p.avant).subset hmem)
      split
      · next ha =>
        by_cases hws : w = s
        · subst hws
          rcases estVivant_suivant (m := p.carte) (t := t) hviv with hv | hl
          · right
            refine ⟨w.suivant p.carte t, ?_, hv⟩
            rw [tous_survit_of_alive ha, Sprite.update_sprite]
            simp
          · left
            rw [← Sprite.update_sprite p.carte t p.tous] at hl
            simp [survit, hviv.2.1, hid, hl]
        · right
          refine ⟨w, ?_, hviv⟩
          rw [tous_survit_of_alive ha, List.mem_append, List.mem_cons]
          rcases hw with hw | hw | hw
          · exact Or.inl hw
          · exact absurd hw hws
          · exact Or.inr (Or.inr hw)
      · next hd =>
        by_cases hws : w = s
        · left
          subst hws
          simp [meurt, hviv.2.1, hid, getLife_of_dead hviv hd]
        · right
          have hmem : w ∈ p.avant ++ apres := by
            rcases hw with hw | hw | hw
            · exact List.mem_append_left _ hw
            · exact absurd hw hws
            · exact List.mem_append_right _ hw
          refine ⟨w.recoit (s.update p.carte t p.tous).soin, ?_,
            estVivant_recoit hviv hs (hwc hmem)⟩
          rw [tous_meurt, deathMove_calme (by rw [Sprite.nature_update]; exact hs), List.map_id']
          exact List.mem_map_of_mem hmem

end Passe

namespace Partie

variable {M : Int} {a id : Nat} {p p' : Partie}

/-- The current worm lives, or the turn is over; nobody can explode. -/
structure Epargne (M : Int) (a id : Nat) (p : Partie) : Prop where
  calme : ∀ n ∈ p.spriteVector.map Sprite.nature, Calme M n
  vivant : p.endTour = true ∨ ∃ w ∈ p.spriteVector, EstVivant a id w

theorem Epargne.updateSprites (hid : id ≠ 0) (t : Int) (h : p.Epargne M a id) :
    (p.updateSprites t).2.Epargne M a id := by
  have hfin : (∀ n ∈ (p.passe t).tous.map Sprite.nature, Calme M n) ∧ (p.passe t).Epargne a id := by
    refine passe_rule (J := fun q => (∀ n ∈ q.tous.map Sprite.nature, Calme M n) ∧ q.Epargne a id)
      (fun q hq => ⟨fun n hn => ?_, ?_⟩) ⟨h.calme, h.vivant⟩
    · exact hq.1 n ((Sprite.conserve_nature.etape t q).subset hn)
    · exact Passe.epargne_etape hid (fun s hs => hq.1 _ (List.mem_map_of_mem hs)) hq.2
  unfold Passe.Epargne at hfin
  rw [passe_tous] at hfin
  exact ⟨hfin.1, hfin.2⟩

/-- **An update that does not raise `endTour`** spares the current worm. -/
theorem update_vivant (hid : id ≠ 0) (h : p.Epargne M a id) {fuel : Nat}
    (hu : p.update fuel = some p') (he : p'.endTour = false) :
    ∃ w ∈ p'.spriteVector, EstVivant a id w := by
  have hfin : p'.Epargne M a id :=
    Ticks.loop_keeps (fun t q hq => hq.updateSprites hid t) fuel 0 p p' h hu
  rcases hfin.vivant with hv | hv
  · rw [he] at hv
    cases hv
  · exact hv

/-! ## The pointer -/

/-- Addresses are distinct, so the pointer finds its object. -/
theorem find_adresse {l : List Sprite} (h : (l.map (·.adresse)).Nodup) {s : Sprite} (hs : s ∈ l) :
    l.find? (fun x => x.adresse = s.adresse) = some s := by
  induction l with
  | nil => simp at hs
  | cons x l ih =>
    rw [List.map_cons, List.nodup_cons] at h
    rcases List.mem_cons.mp hs with rfl | hs
    · simp
    · have hne : x.adresse ≠ s.adresse := by
        intro he
        apply h.1
        rw [he]
        exact List.mem_map_of_mem hs
      rw [List.find?_cons_of_neg (by simpa using hne)]
      exact ih h.2 hs

/-- The current worm is in the vector, with positive life and that id. -/
def Choisi (id : Nat) (p : Partie) : Prop := ∃ s, p.current = some s ∧ s.getId = id ∧ 0 < s.getLife

theorem choisi_of_vivant {Q : Nature → Prop} (hr : p.Registre Q) (hc : p.currentWorms = some a)
    (h : ∃ w ∈ p.spriteVector, EstVivant a id w) : p.Choisi id := by
  obtain ⟨w, hw, rfl, hid, hl⟩ := h
  refine ⟨w, ?_, hid, hl⟩
  rw [current, hc]
  exact find_adresse hr.nodup hw

theorem Choisi.exists_vivant (h : p.Choisi id) :
    ∃ a, p.currentWorms = some a ∧ ∃ w ∈ p.spriteVector, EstVivant a id w := by
  obtain ⟨s, hs, hid, hl⟩ := h
  obtain ⟨a, ha, hf⟩ := Option.bind_eq_some_iff.mp hs
  exact ⟨a, ha, s, List.mem_of_find?_eq_some hf, by simpa using List.find?_some hf, hid, hl⟩

theorem choisi_setCurrentLomb {Q : Nature → Prop} (hr : p.Registre Q) (ha : p.isLombAlive id = true) :
    (p.setCurrentLomb id).Choisi id := by
  obtain ⟨s, hs, hl⟩ := isLombAlive_spec ha
  obtain ⟨hmem, hid, _⟩ := findLombric_spec hs
  refine choisi_of_vivant (hr.setCurrentLomb id) (a := s.adresse) ?_ ⟨s, hmem, rfl, hid, hl⟩
  simp [setCurrentLomb, hs]

theorem Choisi.dropHealthBox (h : p.Choisi id) {pv : Int} {rand reste : List Nat} {pos : Nat × Nat}
    (hd : p.dropHealthBox pv rand = some (p', pos, reste)) : p'.Choisi id := by
  unfold Partie.dropHealthBox at hd
  split at hd
  · simp at hd
  · cases hd
    obtain ⟨s, hs, hid⟩ := h
    refine ⟨s, ?_, hid⟩
    obtain ⟨a, ha, hf⟩ := Option.bind_eq_some_iff.mp hs
    show (p.currentWorms.bind fun a => _) = some s
    rw [ha, Option.bind_some, Partie.pushBack, List.find?_append, hf]
    rfl

/-- A move keeps the current worm, or ends the turn. -/
theorem Choisi.moveCurrentLombric {Q : Nature → Prop} (hr : p.Registre Q) (hid : id ≠ 0)
    (h : p.Choisi id) (hc : ∀ n ∈ p.spriteVector.map Sprite.nature, Calme M n) {fuel : Nat}
    {lp : LombPos} (hm : p.moveCurrentLombric fuel lp = some p') (he : p'.endTour = false) :
    p'.Choisi id := by
  rcases moveCurrentLombric_cases hm with rfl | ⟨adresse, hu⟩
  · exact h
  · obtain ⟨a, ha, w, hw, hviv⟩ := h.exists_vivant
    have hr' := hr.poser adresse (int32 lp.posX) (int32 lp.posY)
    refine choisi_of_vivant (hr'.update hu) ((update_currentWorms hu).trans ha) ?_
    refine update_vivant (M := M) hid ⟨?_, Or.inr ?_⟩ hu he
    · intro n hn
      obtain ⟨s', hs', rfl⟩ := List.mem_map.mp hn
      obtain ⟨s, hs, rfl⟩ := List.mem_map.mp hs'
      have := hc s.nature (List.mem_map_of_mem hs)
      split <;> exact this
    · refine ⟨_, List.mem_map_of_mem hw, ?_⟩
      split <;> exact hviv

end Partie

/-! ## Turns -/

/-- Worms of maximum `M`, boxes that do not hurt. -/
def Sain (M : Int) : Nature → Prop
  | .lombric _ maxVie => maxVie = M
  | .projectile _ => True
  | .healthBox b => 0 ≤ b.health

namespace Game

/-- The object, between two updates. -/
structure Pret (g : Game) (obj : Partie) : Prop where
  gameObject : g.gameObject = some obj
  registre : obj.Registre (Sain g.lombPvMax)
  repos : obj.SansProjectile

variable {g g' : Game} {obj : Partie}

theorem Pret.monteeEau {env : Env} (h : g.Pret obj) (hm : g.monteeEau env = some g') :
    ∃ obj', g'.Pret obj' := by
  rcases monteeEau_cases hm with rfl | ⟨obj₀, obj₁, obj', hobj, hw, hu, rfl⟩
  · exact ⟨obj, h⟩
  · rw [h.gameObject] at hobj
    cases hobj
    have hrepos : obj₁.SansProjectile := by
      obtain ⟨carte, _, rfl⟩ := Option.map_eq_some_iff.mp hw
      exact h.repos
    exact ⟨obj', rfl, (h.registre.increaseWaterLevel hw).update hu,
      Partie.sansProjectile_update hrepos.enVol hu⟩

/-- A walk cannot kill through a box: the maximum is positive, or there is no box. -/
def boiteSure (g : Game) : Bool :=
  decide (0 < g.lombPvMax) ||
    g.gameObject.all fun obj => obj.spriteVector.all fun s => s.forme != .healthBox

theorem Pret.calme (h : g.Pret obj) (hb : g.boiteSure = true) :
    ∀ n ∈ obj.spriteVector.map Sprite.nature, Partie.Calme g.lombPvMax n := by
  intro n hn
  have hsain := h.registre.nature n hn
  obtain ⟨s, hs, rfl⟩ := List.mem_map.mp hn
  have hf := h.repos s hs
  obtain ⟨b, c⟩ := s
  cases c with
  | lombric l => exact hsain
  | projectile p => exact absurd rfl hf
  | healthBox x =>
    refine ⟨hsain, ?_⟩
    simp only [boiteSure, h.gameObject, Bool.or_eq_true, decide_eq_true_eq, Option.all_some,
      List.all_eq_true] at hb
    rcases hb with hb | hb
    · exact_mod_cast hb
    · have := hb _ hs
      simp [Sprite.forme] at this

theorem mem_annonceTour {j : Joueur} (hj : g.players[g.currentPlayerId]? = some j) (lomb : NextLombric) :
    (Canal.joueur j.playerId, Annonce.nextRound { lomb with isYours := true }) ∈ g.annonceTour lomb := by
  refine List.mem_map.mpr ⟨(j, g.currentPlayerId), List.mem_zipIdx_iff_getElem?.mpr hj, ?_⟩
  simp

end Game

namespace Salle

variable {serveur : Serveur} {env : Env} {m : ZmqMsg} {s s' : Salle} {obj : Partie}

/-- The current worm is there, alive, and one of the player whose turn was announced with it. -/
def Courant (s : Salle) : Prop :=
  ∃ obj id j, s.jeu.gameObject = some obj ∧ id ≠ 0 ∧ obj.Choisi id ∧
    s.jeu.players[s.jeu.currentPlayerId]? = some j ∧ id ∈ j.lombrics ∧
    ∃ lomb, (Canal.joueur j.playerId, Annonce.nextRound lomb) ∈ s.envois ∧ lomb.idLomb = id ∧
      lomb.isYours = true

/-- A game that is on: between two handlers it waits for a message. -/
def Attend (s : Salle) : Prop :=
  s.currentStep = stepGame → (∃ obj, s.jeu.Pret obj) ∧ s.Courant

theorem attend_tourSuivant (h : s.jeu.Pret obj) (ht : tourSuivant env s = some s') : s'.Attend := by
  intro _
  obtain ⟨id, g, obj₁, obj', x, y, hc, hobj, hcaisse, rfl⟩ := tourSuivant_cases ht
  obtain ⟨hf, hid, obj₂, j, i, hobj₂, hj, ha, _, hji⟩ := Game.chercheTour_spec _ hc
  obtain rfl : obj₁ = obj := by
    rw [Game.gameObject_of_fixe hf, h.gameObject] at hobj
    exact (Option.some.inj hobj).symm
  obtain rfl : obj₂ = obj₁ := by
    rw [h.gameObject] at hobj₂
    exact (Option.some.inj hobj₂).symm
  have hmax : g.lombPvMax = s.jeu.lombPvMax := Game.eq_of_fixe Game.lombPvMax (fun _ => rfl) hf
  have hreg : obj₂.Registre (Sain g.lombPvMax) := hmax ▸ h.registre
  have hchoisi := Partie.choisi_setCurrentLomb hreg ha
  have hannonce : ∃ lomb, (Canal.joueur j.playerId, Annonce.nextRound lomb) ∈
      s.envois ++ g.annonceTour ⟨id, false, obj'.carte.waterLevel, x, y⟩ ∧ lomb.idLomb = id ∧
        lomb.isYours = true :=
    ⟨_, List.mem_append_right _ (Game.mem_annonceTour hj _), rfl, rfl⟩
  have hjid : id ∈ j.lombrics := List.mem_of_getElem? hji
  rcases Game.caisse_cases hcaisse with rfl | ⟨rand, pos, reste, hd⟩
  · exact ⟨⟨_, rfl, hreg.setCurrentLomb id, h.repos⟩, _, id, j, rfl, hid, hchoisi, hj, hjid, hannonce⟩
  · refine ⟨⟨obj', rfl, ?_, ?_⟩, obj', id, j, rfl, hid, hchoisi.dropHealthBox hd, hj, hjid, hannonce⟩
    · exact (hreg.setCurrentLomb id).dropHealthBox hd (Int.natCast_nonneg _)
    · unfold Partie.dropHealthBox at hd
      split at hd
      · simp at hd
      · cases hd
        intro w hw
        rcases List.mem_append.mp hw with hw | hw
        · exact h.repos w hw
        · rw [List.mem_singleton.mp hw]
          simp [Sprite.forme]

/-- **`end_round`**: the game is over, or the new turn has its worm. -/
theorem attend_endRound (h : s.jeu.Pret obj) (h0 : s.currentStep ≠ stepRoom)
    (hr : endRound env s = some s') : s'.Attend := by
  obtain ⟨g, nbrTeam, lastTeam, hm, _, ⟨_, rfl⟩ | ⟨_, ht⟩⟩ := endRound_cases hr
  · intro hs
    have hs : s.currentStep + 1 = 1 := hs
    have h0 : s.currentStep ≠ 0 := h0
    omega
  · obtain ⟨obj', h'⟩ := h.monteeEau hm
    exact attend_tourSuivant (s := { s with jeu := g }) h' ht

/-- **A message of the game**: a turn that goes on keeps its worm. -/
theorem attend_handleGame (h : s.Attend) (h1 : s.currentStep = stepGame)
    (hb : ∀ lp, m.contenu = .posLombS lp → s.jeu.boiteSure = true)
    (hr : handleGame serveur env m s = some s') : s'.Attend := by
  obtain ⟨⟨obj, hpret⟩, hcour⟩ := h h1
  obtain ⟨s₁, fin, ht, hfin⟩ := handleGame_cases hr
  obtain ⟨hst, _, _, ⟨l, hl⟩, hcall⟩ := traite_cases ht
  rcases hcall with ⟨hj, rfl⟩ | ⟨obj₁, obj', hobj, hj, hcall⟩
  · -- the game is left alone
    obtain ⟨hf, _⟩ | ⟨_, rfl⟩ := hfin
    · simp at hf
    · intro _
      unfold Courant at hcour ⊢
      rw [hj]
      refine ⟨⟨obj, hpret⟩, ?_⟩
      obtain ⟨obj, id, j, hobj, hid, hc, hjp, hmem, lomb, hin, hlomb⟩ := hcour
      exact ⟨obj, id, j, hobj, hid, hc, hjp, hmem, lomb, hl ▸ List.mem_append_left l hin, hlomb⟩
  · rw [hpret.gameObject] at hobj
    cases hobj
    rcases hcall with ⟨lp, hc, hm, rfl⟩ | ⟨tir, murs, degats, _, rfl, hu⟩
    · have hpret' : s₁.jeu.Pret obj' := by
        rw [hj]
        exact ⟨rfl, hpret.registre.moveCurrentLombric hm, hpret.repos.moveCurrentLombric hm⟩
      rcases hfin with ⟨_, hr'⟩ | ⟨he, rfl⟩
      · refine attend_endRound hpret' ?_ hr'
        rw [hst, h1]
        decide
      · intro _
        refine ⟨⟨obj', hpret'⟩, ?_⟩
        obtain ⟨obj₂, id, j, hobj, hid, hch, hjp, hmem, lomb, hin, hlomb⟩ := hcour
        rw [hpret.gameObject] at hobj
        cases hobj
        have hch' := hch.moveCurrentLombric hpret.registre hid (hpret.calme (hb lp hc)) hm he
        rw [Courant, hj]
        exact ⟨obj', id, j, rfl, hid, hch', hjp, hmem, lomb, hl ▸ List.mem_append_left l hin, hlomb⟩
    · -- a shot always ends the turn
      rcases hfin with ⟨_, hr'⟩ | ⟨hf, _⟩
      · have hpret' : s₁.jeu.Pret obj' := by
          rw [hj]
          exact ⟨rfl, hpret.registre.useWeapon hu trivial, hpret.repos.useWeapon hu⟩
        refine attend_endRound hpret' ?_ hr'
        rw [hst, h1]
        decide
      · simp at hf

/-! ## START -/

end Salle

namespace Game

variable {g g' : Game} {obj : Partie} {serveur : Serveur} {env : Env}

/-- The player whose turn START announces has a team, and a worm in the slot it tries first. -/
def premierChoisi (g : Game) : Bool :=
  match g.players[g.currentPlayerId]? with
  | some j => j.equipe != 0 && decide (1 ≤ j.nbrLomb) &&
      (j.lombrics[(1 + j.currentLombric) % g.lombNb]?).any (· != 0)
  | none => false

/-- START finds two teams of living worms at least. -/
def deuxEquipes (serveur : Serveur) (env : Env) (g : Game) : Bool :=
  (g.spawnLombric serveur env).all fun obj =>
    ((g.commence env obj).nbAliveTeams env.lastTeam).any fun r => decide (2 ≤ r.1)

theorem pret_spawnLombric (h : g.spawnLombric serveur env = some obj) : (g.commence env obj).Pret obj := by
  obtain ⟨carte, ids, lombs, reste, _, _, hl, rfl⟩ := spawnLombric_spec h
  refine ⟨rfl, Partie.registre_setParam hl true fun _ _ => rfl, fun s hs => ?_⟩
  obtain ⟨id, _, hc⟩ := Partie.corps_nouveauxLombrics hl hs
  simp [Sprite.forme, hc]

/-- Where a team lives, every worm that START placed does. -/
theorem isLombAlive_spawnLombric (h : g.spawnLombric serveur env = some obj)
    (h2 : g.deuxEquipes serveur env = true) {j : Joueur} (hj : j ∈ g.players) (he : j.equipe ≠ 0)
    {i id : Nat} (hi : i < g.lombNb) (hji : j.lombrics[i]? = some id) : obj.isLombAlive id = true := by
  simp only [deuxEquipes, h, Option.all_some] at h2
  obtain ⟨⟨n, last⟩, hn, hle⟩ := Option.any_eq_true _ _ |>.mp h2
  have hn0 : n ≠ 0 := by
    have : 2 ≤ n := by simpa using hle
    omega
  obtain ⟨obj₁, _, _, x, hobj₁, _, _, _, _, hx⟩ := nbAliveTeams_pos hn hn0
  cases hobj₁
  obtain ⟨s, hs, hlife⟩ := Partie.isLombAlive_spec hx
  obtain ⟨carte, ids, lombs, reste, _, hids, hl, rfl⟩ := spawnLombric_spec h
  obtain ⟨id', _, hc⟩ := Partie.corps_nouveauxLombrics hl (Partie.findLombric_spec hs).1
  have hpv : (0 : Int) < g.lombPvInit := by simpa [Sprite.getLife, hc] using hlife
  exact Partie.isLombAlive_setParam hl true (idsLombrics_mem hids hj he hi hji) hpv

/-- The first search of START succeeds. -/
theorem premier_ne_zero (h : g.spawnLombric serveur env = some obj)
    (h2 : g.deuxEquipes serveur env = true) (h1 : g.premierChoisi = true) {id : Nat}
    (hn : (g.commence env obj).getNextLombricId = some (id, g')) : id ≠ 0 := by
  unfold premierChoisi at h1
  split at h1
  · next j hj =>
    simp only [Bool.and_eq_true, bne_iff_ne, ne_eq, decide_eq_true_eq] at h1
    obtain ⟨⟨he, hnbr⟩, hslot⟩ := h1
    obtain ⟨x, hx, hx0⟩ := Option.any_eq_true _ _ |>.mp hslot
    obtain ⟨n, hnn⟩ : ∃ n, j.nbrLomb = n + 1 := ⟨j.nbrLomb - 1, by omega⟩
    have hmem : j ∈ g.players := List.mem_of_getElem? hj
    unfold Game.getNextLombricId at hn
    rw [show (g.commence env obj).players[(g.commence env obj).currentPlayerId]? = some j from hj] at hn
    simp only [if_neg he, show (g.commence env obj).gameObject = some obj from rfl, Option.bind_some,
      show (g.commence env obj).lombNb = g.lombNb from rfl] at hn
    split at hn
    · simp at hn
    · next y j' hy =>
      cases hn
      rw [Joueur.getNextLombricId, hnn, List.range'_succ, Joueur.chercheLombric] at hy
      split at hy
      · simp at hy
      · next hnb =>
        have hi := Nat.mod_lt (1 + j.currentLombric) (Nat.pos_of_ne_zero hnb)
        rw [hx] at hy
        simp only [isLombAlive_spawnLombric h h2 hmem he hi hx, if_true] at hy
        cases hy
        simpa using hx0
  · simp at h1

end Game

namespace Salle

theorem attend_demarre {serveur : Serveur} {env : Env} {s s' : Salle}
    (h2 : s.jeu.deuxEquipes serveur env = true) (h1 : s.jeu.premierChoisi = true)
    (hd : demarre serveur env s = some s') : s'.Attend := by
  intro _
  obtain ⟨obj, id, g, lombs, hobj, hg, rfl⟩ := demarre_cases hd
  have hid := Game.premier_ne_zero hobj h2 h1 hg
  obtain ⟨hf, hcur, hfound⟩ := Game.getNextLombricId_spec hg
  obtain ⟨obj₁, j, i, hobj₁, hj, ha, _, hji⟩ := hfound hid
  cases hobj₁
  obtain ⟨j', hj', hfj⟩ := Game.exists_of_fixe_eq hf hj
  have hpret := Game.pret_spawnLombric hobj
  have hmax : g.lombPvMax = (s.jeu.commence env obj).lombPvMax :=
    Game.eq_of_fixe Game.lombPvMax (fun _ => rfl) hf
  have hreg : obj.Registre (Sain g.lombPvMax) := hmax ▸ hpret.registre
  have hjp : g.players[g.currentPlayerId]? = some j' := by rwa [hcur]
  have hjid : id ∈ j'.lombrics := by
    rw [Joueur.eq_of_fixe Joueur.lombrics (fun _ => rfl) hfj]
    exact List.mem_of_getElem? hji
  refine ⟨⟨_, rfl, hreg.setCurrentLomb id, hpret.repos⟩, _, id, j', rfl, hid,
    Partie.choisi_setCurrentLomb hreg ha, hjp, hjid, ?_⟩
  exact ⟨_, List.mem_append_right _ (Game.mem_annonceTour hjp _), rfl, rfl⟩

end Salle

/-! ## Runs -/

namespace Thread

/-- START with two living teams at least, then moves, shots and elapsed rounds: nobody quits. -/
def deroulement (serveur : Serveur) (e : Evenement) (th : Thread) : Bool :=
  match th.lieu, e with
  | .salleMsg m, .suite env _ => m.contenu != .start || th.salle.jeu.deuxEquipes serveur env
  | .partie, .recoit m => !m.estQuit
  | _, _ => true

/-- START can choose the first player's worm, and no walk goes through a box that kills. -/
def sansFaille (e : Evenement) (th : Thread) : Bool :=
  match th.lieu, e with
  | .salleMsg m, .suite _ _ => m.contenu != .start || th.salle.jeu.premierChoisi
  | .partieMsg m, .suite _ _ =>
    match m.contenu with
    | .posLombS _ => th.salle.jeu.boiteSure
    | _ => true
  | _, _ => true

theorem garde_attend (serveur : Serveur) :
    Garde serveur (fun e th => (deroulement serveur e th && sansFaille e th) = true) Salle.Attend where
  init owner roomId db hs := by cases hs
  db _ h := h
  quit {m th} hok hl h := by
    rcases hl with ⟨_, h0⟩ | ⟨hl, _⟩
    · intro hs
      rcases (Salle.handleQuit_step m th.salle).2 with h | ⟨h, _⟩ <;> rw [h] at hs
      · rw [h0] at hs
        cases hs
      · cases hs
    · simp only [deroulement, hl, Bool.and_eq_true, Bool.not_eq_true'] at hok
      rw [Salle.handleQuit_of_not hok.1]
      exact h
  room {m env db th s'} hl hok h0 h hr hs := by
    simp only [deroulement, sansFaille, hl, Bool.and_eq_true] at hok
    rcases Salle.handleRoom_lobby hr with ⟨hc, hd⟩ | ⟨hst, _⟩
    · rw [hc] at hok
      exact Salle.attend_demarre (by simpa using hok.1) (by simpa using hok.2) hd hs
    · rw [hst] at hs
      rw [show th.salle.currentStep = stepRoom from h0] at hs
      cases hs
  game {m env db th s'} hl hok h1 h hr := by
    simp only [deroulement, sansFaille, hl, Bool.and_eq_true] at hok
    refine Salle.attend_handleGame h h1 (fun lp hc => ?_) hr
    have := hok.2
    rw [hc] at this
    exact this
  heure {env db th s'} _ _ h0 h hr := by
    by_cases h1 : th.salle.currentStep = stepGame
    · obtain ⟨⟨obj, hpret⟩, _⟩ := h h1
      exact Salle.attend_endRound hpret h0 hr
    · -- the game was over, and is not on again
      intro hs
      have h0 : th.salle.currentStep ≠ 0 := h0
      have h1 : th.salle.currentStep ≠ 1 := h1
      have hs : s'.currentStep = 1 := hs
      rcases Salle.endRound_step hr with ⟨he, _⟩ | ⟨he, _⟩
      · exact absurd (he.symm.trans hs) h1
      · have he : s'.currentStep = th.salle.currentStep + 1 := he
        omega

/-- **While the game waits, its current worm is there** and belongs to the player announced. -/
theorem courant_of_reach (serveur : Serveur) (th : Thread)
    (h : Runs.Reach (etape serveur)
      (fun e th => (deroulement serveur e th && sansFaille e th) = true) Depart th)
    (hs : th.salle.currentStep = stepGame) : th.salle.Courant :=
  (((garde_attend serveur).reach h).1 hs).2

/-! ## A spectator first -/

/-- Players 1, 2 and 3, and a worm each. -/
def baseTrois : DataBase :=
  ⟨[⟨1, "", 0⟩, ⟨2, "", 0⟩, ⟨3, "", 0⟩], [⟨7, 1, ""⟩, ⟨8, 2, ""⟩, ⟨9, 3, ""⟩],
    [⟨1, fun _ => 0, fun _ => 0, false⟩]⟩

/-- Players 1, 2 and 3 join a room with one worm each; `equipe`, 1 and 2 are their teams; then START. -/
def partieATrois (equipe : Nat) : List Evenement :=
  let suite : Evenement := .suite (envPetit 0) baseTrois
  [suite, .recoit ⟨1, .clientModifyNbLombrics 1⟩, suite, .recoit ⟨1, .infoRoom⟩, suite,
    .recoit ⟨2, .infoRoom⟩, suite, .recoit ⟨3, .infoRoom⟩, suite,
    .recoit ⟨1, .clientJoinTeam equipe⟩, suite, .recoit ⟨2, .clientJoinTeam 1⟩, suite,
    .recoit ⟨3, .clientJoinTeam 2⟩, suite, .recoit ⟨1, .start⟩, suite, suite, suite]

/-- The turn of the spectator is announced, and `currentWorms` is null: the next shot reads it. -/
theorem spectateur_sansLombric : ∃ th, Runs.Reach (etape (serveurDe Map.petite))
      (fun e th => deroulement (serveurDe Map.petite) e th = true) Depart th ∧
    th.lieu = .partie ∧ th.salle.currentStep = stepGame ∧
      th.salle.jeu.gameObject.map (·.current) = some none ∧ ¬ th.salle.Courant := by
  obtain ⟨th, _, hr, hp⟩ := Runs.exists_of_exec (etape (serveurDe Map.petite))
    (fun e th => deroulement (serveurDe Map.petite) e th = true)
    (show Depart (new 1 1 baseTrois) from ⟨1, 1, baseTrois, rfl⟩) (partieATrois 0)
    (fun th => th.lieu == .partie && th.salle.currentStep == stepGame &&
      th.salle.jeu.gameObject.map (·.current) == some none) (by decide +kernel)
  simp only [Bool.and_eq_true, beq_iff_eq] at hp
  obtain ⟨⟨hl, hs⟩, hc⟩ := hp
  refine ⟨th, hr, hl, hs, hc, ?_⟩
  rintro ⟨obj, id, j, hobj, _, ⟨s, hcur, _⟩, _⟩
  rw [hobj, Option.map_some, hcur] at hc
  cases hc

/-- With a team for everybody, the first worm is there. -/
theorem partieATrois_courant : ∃ th, Runs.exec (etape (serveurDe Map.petite))
      (fun e th => (deroulement (serveurDe Map.petite) e th && sansFaille e th) = true)
      (partieATrois 1) (new 1 1 baseTrois) = some th ∧ th.salle.Courant := by
  obtain ⟨th, hth, hr, hp⟩ := Runs.exists_of_exec (etape (serveurDe Map.petite))
    (fun e th => (deroulement (serveurDe Map.petite) e th && sansFaille e th) = true)
    (show Depart (new 1 1 baseTrois) from ⟨1, 1, baseTrois, rfl⟩) (partieATrois 1)
    (fun th => th.salle.currentStep == stepGame) (by decide +kernel)
  exact ⟨th, hth, courant_of_reach (serveurDe Map.petite) th hr (beq_iff_eq.mp hp)⟩

end Thread
end LombricABrac
