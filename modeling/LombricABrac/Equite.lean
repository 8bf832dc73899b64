import LombricABrac.Rotation

/-!
# Everybody's turn

In a game that nobody leaves, where each player has `m_lomb_nb` worms: between two turns of a player
every other one has one, and so have the worms of a player among its turns.

    equitable          : what `Tenue` says of the turns so far shares them out
    ouvre              : a turn that opens keeps `Tenue`
    equitable_of_reach : while every player with a team is among the 256 first, turns are shared out
    oubli_du_257e      : the cursor of the players is an `uint8_t`, and number 257 has no turn
-/

namespace LombricABrac

open Cyclic (Suivant)

/-! ## Fair turns -/

namespace Game

/-- Worm `x` of player `k` lives. -/
def VersVivant (g : Game) (k x : Nat) : Prop :=
  ∃ obj j i, g.gameObject = some obj ∧ g.players[k]? = some j ∧ i < j.nbrLomb ∧
    j.lombrics[i]? = some x ∧ obj.isLombAlive x = true

end Game

/-- Turns are shared out.  Alive means alive whenever a turn opens, from the first of the two turns to
the second. -/
structure Equitable (tours : List Manche) : Prop where
  joueurs : ∀ avant t milieu t' apres q, tours = avant ++ t :: milieu ++ t' :: apres →
    t'.joueur = t.joueur → (∀ u ∈ milieu, u.joueur ≠ t.joueur) → q ≠ t.joueur →
    (∀ u ∈ t :: milieu ++ [t'], u.jeu.Vivant q) → milieu.countP (fun u => u.joueur = q) = 1
  vers : ∀ p avant t milieu t' apres x,
    tours.filter (fun u => u.joueur = p) = avant ++ t :: milieu ++ t' :: apres →
    t'.lombric = t.lombric → (∀ u ∈ milieu, u.lombric ≠ t.lombric) → x ≠ t.lombric →
    (∀ u ∈ t :: milieu ++ [t'], u.jeu.VersVivant p x) → milieu.countP (fun u => u.lombric = x) = 1

/-- A turn of the game that is now `g`. -/
structure Manche.DuJeu (g : Game) (t : Manche) : Prop where
  stable : t.jeu.stable = g.stable
  place : t.joueur < g.places
  slot : t.lombric ≠ 0 → t.jeu.curseur t.joueur < g.lombNb ∧
    ∃ j, t.jeu.players[t.joueur]? = some j ∧ j.lombrics[j.currentLombric]? = some t.lombric
  reste : g.vers ⊆ t.jeu.vers

theorem Manche.DuJeu.of_stable {g g' : Game} {t : Manche} (h : t.DuJeu g) (hst : g'.stable = g.stable)
    (hv : g'.vers ⊆ g.vers) : t.DuJeu g' := by
  refine ⟨h.stable.trans hst.symm, ?_, ?_, List.Subset.trans hv h.reste⟩
  · rw [Game.places_of_stable hst]
    exact h.place
  · rw [Game.lombNb_of_stable hst]
    exact h.slot

/-- What holds of the turns so far and of the game that goes on. -/
structure Tenue (tours : List Manche) (g : Game) : Prop where
  regulier : g.Regulier
  comptes : g.Comptes
  courant : g.currentPlayerId < g.places
  objet : g.Nets ∨ ∀ id, id ≠ 0 → g.alive id = false
  passees : ∀ t ∈ tours, t.DuJeu g
  vifs : ∀ t ∈ tours.tail, t.lombric ≠ 0 ∧ t.jeu.Nets
  vers : tours.Pairwise fun s t => t.jeu.vers ⊆ s.jeu.vers
  rotation : tours.IsChain fun s t => Suivant g.places t.jeu.Vivant s.joueur t.joueur
  dernier : ∀ t ∈ tours.getLast?, t.joueur = g.currentPlayerId
  rotationVers : ∀ p, (tours.filter fun u => u.joueur = p).IsChain fun s t =>
    Suivant g.lombNb (t.jeu.Arme p) (s.jeu.curseur p) (t.jeu.curseur p)
  dernierVers : ∀ p, ∀ t ∈ (tours.filter fun u => u.joueur = p).getLast?,
    t.jeu.curseur p = g.curseur p

theorem exists_rel_of_mem {α : Type} {R : α → α → Prop} {u : α} : ∀ {l : List α} {t : α},
    List.IsChain R (t :: l) → u ∈ l → ∃ s, R s u := by
  intro l
  induction l with
  | nil =>
    intro t _ hu
    cases hu
  | cons v l ih =>
    intro t h hu
    rw [List.isChain_cons_cons] at h
    rcases List.mem_cons.mp hu with rfl | hu
    · exact ⟨t, h.1⟩
    · exact ih h.2 hu

/-- Two turns with those between them: all but the first come after the start of the game. -/
theorem mem_tail_of_entre {α : Type} {l avant milieu apres : List α} {t t' u : α}
    (h : l = avant ++ t :: milieu ++ t' :: apres) (hu : u ∈ milieu ++ [t']) : u ∈ l.tail := by
  have hl : l = avant ++ t :: (milieu ++ [t'] ++ apres) := by simp [h]
  have hmem : u ∈ milieu ++ [t'] ++ apres := List.mem_append_left _ hu
  subst hl
  cases avant with
  | nil => exact hmem
  | cons a avant => exact List.mem_append_right _ (List.mem_cons_of_mem _ hmem)

theorem infix_of_entre {α : Type} {l avant milieu apres : List α} {t t' : α}
    (h : l = avant ++ t :: milieu ++ t' :: apres) : t :: (milieu ++ [t']) <:+: l :=
  ⟨avant, apres, by simp [h]⟩

namespace Tenue

variable {tours : List Manche} {g : Game} {u : Manche} {p k x : Nat} {j : Joueur}

/-- The turn of a player is one in which it lives. -/
theorem vivant (h : Tenue tours g) (hu : u ∈ tours.tail) : u.jeu.Vivant u.joueur := by
  cases tours with
  | nil => cases hu
  | cons t tours =>
    obtain ⟨s, hs⟩ := exists_rel_of_mem h.rotation hu
    exact hs.holds

/-- Who lives when a turn opens lived when the turns before it did. -/
theorem alive_avant (h : Tenue tours g) {l avant milieu apres : List Manche} {t t' : Manche} {id : Nat}
    (hl : List.Sublist l tours) (hentre : l = avant ++ t :: milieu ++ t' :: apres)
    (hu : u ∈ milieu ++ [t']) (h0 : id ≠ 0) (ha : t'.jeu.alive id = true) : u.jeu.alive id = true := by
  rcases List.mem_append.mp hu with hm | hm
  · have hsub : List.Sublist ((avant ++ t :: milieu) ++ t' :: apres) tours := hentre ▸ hl
    have hp := (List.pairwise_append.mp (h.vers.sublist hsub)).2.2 u
      (List.mem_append_right _ (List.mem_cons_of_mem _ hm)) t' List.mem_cons_self
    have htail : u ∈ tours.tail := hl.tail.subset (mem_tail_of_entre hentre hu)
    exact Game.alive_of_vers hp (h.vifs u htail).2 h0 ha
  · rwa [List.mem_singleton.mp hm]

theorem stable_eq (h : Tenue tours g) {s t : Manche} (hs : s ∈ tours) (ht : t ∈ tours) :
    s.jeu.stable = t.jeu.stable := (h.passees s hs).stable.trans (h.passees t ht).stable.symm

/-- **The players.** -/
theorem equite_joueurs (h : Tenue tours g) {avant milieu apres : List Manche} {t t' : Manche} {q : Nat}
    (htours : tours = avant ++ t :: milieu ++ t' :: apres) (hjt : t'.joueur = t.joueur)
    (hne : ∀ u ∈ milieu, u.joueur ≠ t.joueur) (hq : q ≠ t.joueur)
    (hviv : ∀ u ∈ t :: milieu ++ [t'], u.jeu.Vivant q) :
    milieu.countP (fun u => u.joueur = q) = 1 := by
  have hpl : 0 < g.places := by
    have := h.courant
    omega
  have hinf := infix_of_entre htours
  have hchain := h.rotation.infix hinf
  have ht' : t' ∈ tours.tail := mem_tail_of_entre htours (by simp)
  have hmem' := List.mem_of_mem_tail ht'
  have hst' := (h.passees t' hmem').stable
  have hqpl : q < g.places := by
    rw [← Game.places_of_stable hst']
    exact (hviv t' (by simp)).lt_places (h.comptes.of_stable hst')
  refine Cyclic.countP_entre Manche.joueur (fun u => u.jeu.Vivant) hpl hchain
    (h.passees t (hinf.subset List.mem_cons_self)).place hjt hne (fun u hu => ?_) hqpl hq
    (fun u hu => hviv u (List.mem_cons_of_mem _ hu))
  -- nobody comes back to life
  have hmem := hinf.subset (List.mem_cons_of_mem _ hu)
  rw [← hjt]
  exact (h.vivant ht').imp (h.stable_eq hmem hmem') (h.regulier.of_stable hst') fun id h0 ha =>
    h.alive_avant (List.Sublist.refl _) htours hu h0 ha

/-- The worm of a turn is the one that the cursor of its player points to. -/
theorem slot_courant (h : Tenue tours g) (hu : u ∈ tours) (hp : u.joueur = p) (h0 : u.lombric ≠ 0)
    (hj : g.players[p]? = some j) :
    u.jeu.curseur p < g.lombNb ∧ j.lombrics[u.jeu.curseur p]? = some u.lombric := by
  obtain ⟨hlt, j', hj', hslot⟩ := (h.passees u hu).slot h0
  rw [hp] at hlt hj'
  obtain ⟨j₁, hj₁, hf⟩ := Game.exists_of_stable_eq (h.passees u hu).stable hj
  rw [hj'] at hj₁
  cases hj₁
  refine ⟨hlt, ?_⟩
  rwa [Game.curseur_eq hj', ← Joueur.eq_of_fixe Joueur.lombrics (fun _ => rfl) hf]

theorem curseur_iff (h : Tenue tours g) (hu : u ∈ tours) (hp : u.joueur = p) (h0 : u.lombric ≠ 0)
    (hj : g.players[p]? = some j) (hk : k < g.lombNb) (hx : j.lombrics[k]? = some x) :
    u.jeu.curseur p = k ↔ u.lombric = x := by
  obtain ⟨hlt, hs⟩ := h.slot_courant hu hp h0 hj
  constructor
  · rintro rfl
    rw [hs] at hx
    exact Option.some.inj hx
  · rintro rfl
    exact (h.regulier.joueurs j (List.mem_of_getElem? hj)).slot_inj hlt hk hs hx

/-- The slots are the same in every turn. -/
theorem exists_slot (h : Tenue tours g) (hu : u ∈ tours) (hx : u.jeu.VersVivant p x) :
    ∃ j i, g.players[p]? = some j ∧ i < g.lombNb ∧ j.lombrics[i]? = some x := by
  obtain ⟨_, j', i, _, hj', hi, hslot, _⟩ := hx
  obtain ⟨j, hj, hf⟩ := Game.exists_of_stable_eq (h.passees u hu).stable.symm hj'
  refine ⟨j, i, hj, ?_, ?_⟩
  · rw [← (h.regulier.joueurs j (List.mem_of_getElem? hj)).nbrLomb,
      Joueur.eq_of_fixe Joueur.nbrLomb (fun _ => rfl) hf]
    exact hi
  · rwa [Joueur.eq_of_fixe Joueur.lombrics (fun _ => rfl) hf]

theorem arme_of_versVivant (h : Tenue tours g) (hu : u ∈ tours) (hj : g.players[p]? = some j)
    (hs : j.lombrics[k]? = some x) (hx : u.jeu.VersVivant p x) : u.jeu.Arme p k := by
  obtain ⟨obj, j', _, hobj, hj', _, _, ha⟩ := hx
  obtain ⟨j₁, hj₁, hf⟩ := Game.exists_of_stable_eq (h.passees u hu).stable hj
  rw [hj'] at hj₁
  cases hj₁
  refine ⟨obj, j', hobj, hj', x, ?_, ha⟩
  rwa [Joueur.eq_of_fixe Joueur.lombrics (fun _ => rfl) hf]

/-- **The worms of a player.** -/
theorem equite_vers (h : Tenue tours g) {avant milieu apres : List Manche} {t t' : Manche}
    (htours : tours.filter (fun u => u.joueur = p) = avant ++ t :: milieu ++ t' :: apres)
    (hlt : t'.lombric = t.lombric) (hne : ∀ u ∈ milieu, u.lombric ≠ t.lombric) (hx : x ≠ t.lombric)
    (hviv : ∀ u ∈ t :: milieu ++ [t'], u.jeu.VersVivant p x) :
    milieu.countP (fun u => u.lombric = x) = 1 := by
  have hinf := infix_of_entre htours
  have hchain := List.IsChain.infix (h.rotationVers p) hinf
  have hmem : ∀ u ∈ t :: (milieu ++ [t']), u ∈ tours ∧ u.joueur = p := by
    intro u hu
    obtain ⟨hu, hp⟩ := List.mem_filter.mp (hinf.subset hu)
    exact ⟨hu, of_decide_eq_true hp⟩
  have htail : ∀ u ∈ milieu ++ [t'], u ∈ tours.tail := fun u hu =>
    List.filter_sublist.tail.subset (mem_tail_of_entre htours hu)
  have ht : t ∈ t :: (milieu ++ [t']) := List.mem_cons_self
  have ht' : t' ∈ milieu ++ [t'] := by simp
  have h0 : ∀ u ∈ t :: (milieu ++ [t']), u.lombric ≠ 0 := by
    intro u hu
    rcases List.mem_cons.mp hu with rfl | hu
    · rw [← hlt]
      exact (h.vifs t' (htail t' ht')).1
    · exact (h.vifs u (htail u hu)).1
  have ht'mem := (hmem t' (List.mem_cons_of_mem _ ht')).1
  obtain ⟨j, i, hj, hi, hslot⟩ := h.exists_slot ht'mem (hviv t' (List.mem_cons_of_mem _ ht'))
  have hcur : ∀ u ∈ t :: (milieu ++ [t']), ∀ k, k < g.lombNb → ∀ y, j.lombrics[k]? = some y →
      (u.jeu.curseur p = k ↔ u.lombric = y) := fun u hu k hk y hy =>
    h.curseur_iff (hmem u hu).1 (hmem u hu).2 (h0 u hu) hj hk hy
  have htc := h.slot_courant (hmem t ht).1 (hmem t ht).2 (h0 t ht) hj
  have hcur' := (hcur t' (List.mem_cons_of_mem _ ht') _ htc.1 _ htc.2).mpr hlt
  -- to count turns of worm `x` is to count cursors on its slot
  have hcount : milieu.countP (fun u => u.lombric = x) = milieu.countP (fun u => u.jeu.curseur p = i) := by
    refine List.countP_congr fun u hu => ?_
    simp only [decide_eq_true_eq]
    exact (hcur u (by simp [hu]) i hi x hslot).symm
  rw [hcount]
  refine Cyclic.countP_entre (fun u : Manche => u.jeu.curseur p) (fun u => u.jeu.Arme p) h.regulier.nb_pos
    hchain htc.1 hcur' (fun u hu hc => ?_) (fun u hu => ?_) hi (fun hc => ?_) (fun u hu => ?_)
  · exact hne u hu ((hcur u (by simp [hu]) _ htc.1 _ htc.2).mp hc)
  · -- the worm of the two turns lives when the second opens, and so did it before
    obtain ⟨s, hs⟩ := exists_rel_of_mem hchain ht'
    have harme := hs.holds
    rw [hcur'] at harme
    have hst' := (h.passees t' ht'mem).stable
    have hst := h.stable_eq (List.mem_of_mem_tail (htail u hu)) ht'mem
    exact harme.imp hst (h.regulier.of_stable hst') (Game.lombNb_of_stable hst' ▸ htc.1) fun id h0 ha =>
      h.alive_avant List.filter_sublist htours hu h0 ha
  · exact hx ((hcur t ht i hi x hslot).mp hc.symm).symm
  · have hu := List.mem_cons_of_mem t hu
    exact h.arme_of_versVivant (hmem u hu).1 hj hslot (hviv u hu)

theorem equitable (h : Tenue tours g) : Equitable tours where
  joueurs _ _ _ _ _ _ htours hjt hne hq hviv := h.equite_joueurs htours hjt hne hq hviv
  vers _ _ _ _ _ _ _ htours hlt hne hx hviv := h.equite_vers htours hlt hne hx hviv

/-! ## One step -/

/-- Updates take worms away, and leave living ones. -/
theorem entre {g' : Game} (h : Tenue tours g) (he : g.Entre g') : Tenue tours g' := by
  rcases he with rfl | ⟨obj, obj', hobj, rfl, he⟩
  · exact h
  · have hst : Game.stable { g with gameObject := some obj' } = g.stable := rfl
    refine ⟨h.regulier.of_stable hst, h.comptes.of_stable hst, h.courant, Or.inl ?_, fun t ht => ?_,
      h.vifs, h.vers, h.rotation, h.dernier, h.rotationVers, h.dernierVers⟩
    · intro o ho
      cases ho
      exact he.nets
    · refine (h.passees t ht).of_stable hst ?_
      unfold Game.vers
      rw [hobj]
      exact he.vers

/-- Where a turn opens somebody lives, so the object is one that an update has left. -/
theorem nets_ouvre {g' : Game} {id : Nat} (h : Tenue tours g) (ho : g.Ouverture id g')
    (hobj : ∀ obj', g'.gameObject = some obj' → g.Nets → obj'.Nets) : g'.Nets := by
  intro obj' hobj'
  refine hobj obj' hobj' (h.objet.resolve_right fun hmort => ?_)
  obtain ⟨obj, j, i, x, hobj, hj, _, hi, hji, ha⟩ := ho.joueur.holds
  have hjr := (h.regulier.of_stable ho.stable).joueurs j (List.mem_of_getElem? hj)
  have hx := hjr.slot_ne_zero (hjr.nbrLomb ▸ hi) hji
  have hdead := (ho.alive x hx).trans (hmort x hx)
  rw [Game.alive, hobj] at hdead
  exact absurd ha (by simpa using hdead)

/-- **A turn opens.** -/
theorem ouvre {g' : Game} {id : Nat} (h : Tenue tours g) (ho : g.Ouverture id g') (hn : g'.Nets) :
    Tenue (tours ++ [⟨id, g'⟩]) g' := by
  have hpl := Game.places_of_stable ho.stable
  have hnb := Game.lombNb_of_stable ho.stable
  have hpos : 0 < g.places := by
    have := h.courant
    omega
  have hlt : g'.currentPlayerId < g'.places := hpl ▸ ho.joueur.lt hpos
  refine ⟨h.regulier.of_stable ho.stable, h.comptes.of_stable ho.stable, hlt, Or.inl hn, ?_, ?_, ?_, ?_,
    ?_, ?_, ?_⟩
  · intro t ht
    rcases List.mem_append.mp ht with ht | ht
    · exact (h.passees t ht).of_stable ho.stable (ho.vers ▸ List.Subset.refl _)
    · rw [List.mem_singleton.mp ht]
      exact ⟨rfl, hlt, fun _ => ⟨hnb ▸ ho.lombric.lt h.regulier.nb_pos, ho.slot⟩, List.Subset.refl _⟩
  · intro t ht
    have ht' : t ∈ tours.tail ++ [⟨id, g'⟩] := by
      cases tours with
      | nil => cases ht
      | cons a tours => exact ht
    rcases List.mem_append.mp ht' with ht | ht
    · exact h.vifs t ht
    · rw [List.mem_singleton.mp ht]
      exact ⟨ho.ne_zero, hn⟩
  · refine List.pairwise_append.mpr ⟨h.vers, List.pairwise_singleton _ _, fun t ht u hu => ?_⟩
    rw [List.mem_singleton.mp hu]
    exact ho.vers ▸ (h.passees t ht).reste
  · rw [hpl]
    refine List.isChain_append.mpr ⟨h.rotation, List.isChain_singleton _, fun t ht u hu => ?_⟩
    cases hu
    rw [h.dernier t ht]
    exact ho.joueur
  · intro t ht
    rw [List.getLast?_concat] at ht
    cases ht
    rfl
  · intro p
    rw [hnb, List.filter_append]
    refine List.isChain_append.mpr ⟨h.rotationVers p, ?_, fun t ht u hu => ?_⟩
    · rw [List.filter_singleton]
      cases decide (Manche.joueur ⟨id, g'⟩ = p)
      · exact List.isChain_nil
      · exact List.isChain_singleton _
    · obtain ⟨hu, hp⟩ := List.mem_filter.mp (List.mem_of_mem_head? hu)
      rw [List.mem_singleton.mp hu] at hp ⊢
      have hp : g'.currentPlayerId = p := of_decide_eq_true hp
      subst hp
      rw [h.dernierVers _ t ht]
      exact ho.lombric
  · intro p t ht
    rw [List.filter_append, List.filter_singleton] at ht
    by_cases hp : g'.currentPlayerId = p
    · rw [show decide (Manche.joueur ⟨id, g'⟩ = p) = true from decide_eq_true hp] at ht
      simp only [cond_true, List.getLast?_concat] at ht
      cases ht
      rfl
    · rw [show decide (Manche.joueur ⟨id, g'⟩ = p) = false from decide_eq_false hp] at ht
      simp only [cond_false, List.append_nil] at ht
      rw [h.dernierVers p t ht, ho.autres p (Ne.symm hp)]

end Tenue

/-! ## The handlers -/

namespace Game

variable {serveur : Serveur} {env : Env} {g : Game} {obj : Partie}

/-- The worms that START places all live, or none does. -/
theorem nets_spawnLombric (h : g.spawnLombric serveur env = some obj) :
    obj.Nets ∨ ∀ id, obj.isLombAlive id = false := by
  obtain ⟨f, ids, lombs, reste, _, _, hl, rfl⟩ := spawnLombric_spec h
  have hcorps : ∀ s ∈ lombs, ∃ id, s.corps = .lombric ⟨id, g.lombPvInit, g.lombPvMax⟩ := by
    intro s hs
    obtain ⟨id, _, hc⟩ := Partie.corps_nouveauxLombrics hl hs
    exact ⟨id, hc⟩
  rcases Nat.eq_zero_or_pos g.lombPvInit with h0 | hpos
  · refine Or.inr fun id => Bool.eq_false_iff.mpr fun ha => ?_
    obtain ⟨s, hs, hlife⟩ := Partie.isLombAlive_spec ha
    obtain ⟨id', hc⟩ := hcorps s (Partie.findLombric_spec hs).1
    rw [Sprite.getLife, hc] at hlife
    simp only at hlife
    omega
  · refine Or.inl fun s hs l hsl => ?_
    obtain ⟨id, hc⟩ := hcorps s hs
    rw [hc] at hsl
    cases hsl
    exact Int.natCast_pos.mpr hpos

end Game

namespace Salle

variable {serveur : Serveur} {env : Env} {m : ZmqMsg} {s s' : Salle} {tours : List Manche}

/-- The first turn. -/
theorem tenue_demarre (hg : s.jeu.Regulier) (hc : s.jeu.Comptes) (h0 : s.jeu.currentPlayerId = 0)
    (hd : demarre serveur env s = some s') :
    ∃ id, Publie (some id) s s' ∧ Tenue [⟨id, s'.jeu⟩] s'.jeu := by
  obtain ⟨obj, id, g, lombs, hobj, hn, rfl⟩ := demarre_cases hd
  refine ⟨id, publie_demarre hn, ?_⟩
  obtain ⟨hf, hcur, hid⟩ := Game.getNextLombricId_spec hn
  have hst : Game.stable { g with gameObject := some (obj.setCurrentLomb id) } = s.jeu.stable :=
    show g.stable = (s.jeu.commence env obj).stable from Game.stable_of_fixe hf
  have hreg := hg.of_stable hst
  have hlen : 0 < g.players.length := by
    by_contra hle
    rw [Game.length_of_fixe hf] at hle
    unfold Game.getNextLombricId at hn
    rw [List.getElem?_eq_none (by omega)] at hn
    simp at hn
  have hcur0 : g.currentPlayerId = 0 := hcur.trans h0
  have hpl : g.currentPlayerId < g.places := by
    rw [hcur0]
    exact lt_min hlen (by decide)
  refine ⟨hreg, hc.of_stable hst, hpl, ?_, fun t ht => ?_, fun t ht => ?_, List.pairwise_singleton _ _,
    List.isChain_singleton _, fun t ht => ?_, fun p => ?_, fun p t ht => ?_⟩
  · refine (Game.nets_spawnLombric hobj).imp (fun h o ho => ?_) fun h id _ => ?_
    · cases ho
      exact h
    · exact h id
  · rw [List.mem_singleton.mp ht]
    refine ⟨rfl, hpl, fun h0 => ?_, List.Subset.refl _⟩
    have hreg' : Game.Regulier (s.jeu.commence env obj) := hg.of_stable rfl
    rcases Game.getNextLombricId_suivant hreg' hn with ⟨hz, _⟩ | ⟨_, _, _, hv, hsl⟩
    · exact absurd hz h0
    · rw [← hcur] at hv hsl
      refine ⟨?_, hsl⟩
      have hnb : g.lombNb = (s.jeu.commence env obj).lombNb := Game.lombNb_of_fixe hf
      show g.curseur g.currentPlayerId < g.lombNb
      rw [hnb]
      exact hv.lt hg.nb_pos
  · cases ht
  · cases ht
    rfl
  · rw [List.filter_singleton]
    cases decide (Manche.joueur ⟨id, { g with gameObject := some (obj.setCurrentLomb id) }⟩ = p)
    · exact List.isChain_nil
    · exact List.isChain_singleton _
  · rw [List.mem_singleton.mp (List.mem_filter.mp (List.mem_of_getLast? ht)).1]

theorem tenue_endRound (h : Tenue tours s.jeu) (hr : endRound env s = some s') :
    ∃ o, Publie o s s' ∧ Tenue (tours ++ (o.map fun id => ⟨id, s'.jeu⟩).toList) s'.jeu := by
  obtain ⟨g, hm, ⟨hj, hp⟩ | ⟨id, g', obj, obj', hc, hobj, hv, hj, hp⟩⟩ := endRound_manche hr
  · refine ⟨none, hp, ?_⟩
    rw [hj]
    simpa using h.entre (.of_monteeEau hm)
  · refine ⟨some id, hp, ?_⟩
    have hg := h.entre (.of_monteeEau hm)
    have htr := Game.chercheTour_trouve _ hg.regulier hg.courant hc
    have ho : g.Ouverture id { g' with gameObject := some obj', beginTimeRound := env.heureFin } :=
      htr.ouverture hg.regulier hg.courant hobj hv
    rw [hj]
    refine hg.ouvre ho (hg.nets_ouvre ho fun o hobj' hn => ?_)
    cases hobj'
    exact hv.nets (hn obj ((Game.gameObject_of_fixe htr.fixe).symm.trans hobj))

theorem tenue_handleGame (h : Tenue tours s.jeu) (hr : handleGame serveur env m s = some s') :
    ∃ o, Publie o s s' ∧ Tenue (tours ++ (o.map fun id => ⟨id, s'.jeu⟩).toList) s'.jeu := by
  obtain ⟨s₁, he, hp, hr | rfl⟩ := entre_handleGame hr
  · obtain ⟨o, hp', ht⟩ := tenue_endRound (h.entre he) hr
    exact ⟨o, hp.trans hp', ht⟩
  · refine ⟨none, hp, ?_⟩
    simpa using h.entre he

/-- Without an object nothing happens. -/
theorem rien_endRound (hn : s.jeu.gameObject = none) (hr : endRound env s = some s') :
    s'.jeu = s.jeu ∧ Publie none s s' := by
  obtain ⟨g, hm, hcas⟩ := endRound_manche hr
  have hg : g = s.jeu := by
    rcases Game.Entre.of_monteeEau hm with hg | ⟨obj, obj', hobj, _⟩
    · exact hg
    · rw [hn] at hobj
      cases hobj
  subst hg
  rcases hcas with hcas | ⟨id, g', obj, obj', hc, hobj, _⟩
  · exact hcas
  · rw [Game.gameObject_of_fixe (Game.chercheTour_spec _ hc).1, hn] at hobj
    cases hobj

theorem rien_handleGame (hn : s.jeu.gameObject = none) (hr : handleGame serveur env m s = some s') :
    s'.jeu = s.jeu ∧ Publie none s s' := by
  obtain ⟨s₁, he, hp, hcas⟩ := entre_handleGame hr
  have hj : s₁.jeu = s.jeu := by
    rcases he with hj | ⟨obj, obj', hobj, _⟩
    · exact hj
    · rw [hn] at hobj
      cases hobj
  rcases hcas with hr | rfl
  · obtain ⟨hj', hp'⟩ := rien_endRound (hj ▸ hn) hr
    exact ⟨hj'.trans hj, hp.trans hp'⟩
  · exact ⟨hj, hp⟩

end Salle

/-! ## Runs -/

/-- A thread and the turns that it opened. -/
structure Chronique where
  thread : Thread
  tours : List Manche

namespace Chronique

def etape (serveur : Serveur) (e : Evenement) (c : Chronique) : Option Chronique :=
  (c.thread.etape serveur e).map fun th => ⟨th, c.tours ++ (c.thread.salle.ouvre th.salle).toList⟩

def Depart (c : Chronique) : Prop := Thread.Depart c.thread ∧ c.tours = []

/-- Nobody quits during the game, and at START every player has `m_lomb_nb` worms. -/
def reguliere (e : Evenement) (c : Chronique) : Bool :=
  match c.thread.lieu, e with
  | .partie, .recoit m => !m.estQuit
  | .salleMsg m, .suite _ _ =>
    m.contenu != .start || m.receiverId != c.thread.salle.jeu.ownerId ||
      decide c.thread.salle.jeu.Regulier
  | _, _ => true

/-- At START every player with a team is among the 256 first entries. -/
def comptee (e : Evenement) (c : Chronique) : Bool :=
  match c.thread.lieu, e with
  | .salleMsg m, .suite _ _ =>
    m.contenu != .start || m.receiverId != c.thread.salle.jeu.ownerId ||
      (c.thread.salle.jeu.players.drop 256).all fun j => j.equipe == 0
  | _, _ => true

theorem comptes_of_all {g : Game} (h : ((g.players.drop 256).all fun j => j.equipe == 0) = true) :
    g.Comptes := by
  intro k j hj he
  by_contra hk
  refine he (beq_iff_eq.mp (List.all_eq_true.mp h j ?_))
  refine List.mem_of_getElem? (i := k - 256) ?_
  rw [List.getElem?_drop, Nat.add_sub_cancel' (by omega), hj]

/-- Before START there is no turn; later the turns are followed. -/
def Suivie (tours : List Manche) (s : Salle) : Prop :=
  tours = [] ∧ s.jeu.gameObject = none ∧ s.jeu.currentPlayerId = 0 ∨
    s.currentStep ≠ stepRoom ∧ Tenue tours s.jeu

variable {serveur : Serveur} {e : Evenement} {c c' : Chronique} {tours : List Manche} {s s' : Salle}

theorem Suivie.rien (h : Suivie tours s) (hj : s'.jeu = s.jeu) (hst : s'.currentStep = s.currentStep)
    (hp : Salle.Publie none s s') :
    ∃ o, Salle.Publie o s s' ∧ Suivie (tours ++ (o.map fun id => ⟨id, s'.jeu⟩).toList) s' := by
  refine ⟨none, hp, ?_⟩
  unfold Suivie at h ⊢
  rw [hj, hst]
  simpa using h

theorem Suivie.room (h : Suivie tours s) (h0 : s.currentStep = stepRoom) {env : Env} {m : ZmqMsg}
    (hok : m.contenu = .start → m.receiverId = s.jeu.ownerId → s.jeu.Regulier ∧ s.jeu.Comptes)
    (hr : Salle.handleRoom serveur env m s = some s') :
    ∃ o, Salle.Publie o s s' ∧ Suivie (tours ++ (o.map fun id => ⟨id, s'.jeu⟩).toList) s' := by
  obtain ⟨rfl, hobj, hcur⟩ := h.resolve_right fun h => h.1 h0
  rcases Salle.handleRoom_manche hr with ⟨hm, ho, hd⟩ | ⟨hp, ho, hc⟩
  · obtain ⟨hreg, hc⟩ := hok hm ho
    obtain ⟨id, hp, ht⟩ := Salle.tenue_demarre hreg hc hcur hd
    refine ⟨some id, hp, Or.inr ⟨?_, ht⟩⟩
    obtain ⟨_, _, _, _, _, _, rfl⟩ := Salle.demarre_cases hd
    show stepGame ≠ stepRoom
    decide
  · exact ⟨none, hp, Or.inl ⟨rfl, ho.trans hobj, hc.trans hcur⟩⟩

theorem Suivie.game (h : Suivie tours s) {env : Env} {m : ZmqMsg} (h1 : s.currentStep ≠ stepRoom)
    (hr : Salle.handleGame serveur env m s = some s') :
    ∃ o, Salle.Publie o s s' ∧ Suivie (tours ++ (o.map fun id => ⟨id, s'.jeu⟩).toList) s' := by
  rcases h with ⟨rfl, hobj, hcur⟩ | ⟨_, ht⟩
  · obtain ⟨hj, hp⟩ := Salle.rien_handleGame hobj hr
    exact ⟨none, hp, Or.inl ⟨rfl, hj ▸ hobj, hj ▸ hcur⟩⟩
  · obtain ⟨o, hp, ht'⟩ := Salle.tenue_handleGame ht hr
    exact ⟨o, hp, Or.inr ⟨(Salle.handleGame_step hr).ne_stepRoom h1, ht'⟩⟩

theorem Suivie.heure (h : Suivie tours s) {env : Env} (h1 : s.currentStep ≠ stepRoom)
    (hr : Salle.endRound env s = some s') :
    ∃ o, Salle.Publie o s s' ∧ Suivie (tours ++ (o.map fun id => ⟨id, s'.jeu⟩).toList) s' := by
  rcases h with ⟨rfl, hobj, hcur⟩ | ⟨_, ht⟩
  · obtain ⟨hj, hp⟩ := Salle.rien_endRound hobj hr
    exact ⟨none, hp, Or.inl ⟨rfl, hj ▸ hobj, hj ▸ hcur⟩⟩
  · obtain ⟨o, hp, ht'⟩ := Salle.tenue_endRound ht hr
    exact ⟨o, hp, Or.inr ⟨(Salle.endRound_step hr).ne_stepRoom h1, ht'⟩⟩

/-- A user may leave the lobby; nobody leaves the game. -/
theorem Suivie.quit (h : Suivie tours s) {m : ZmqMsg}
    (hm : s.currentStep = stepRoom ∨ m.estQuit = false) :
    ∃ o, Salle.Publie o s (s.handleQuit m) ∧
      Suivie (tours ++ (o.map fun id => ⟨id, (s.handleQuit m).jeu⟩).toList) (s.handleQuit m) := by
  rcases hm with h0 | hm
  · obtain ⟨rfl, hobj, hcur⟩ := h.resolve_right fun h => h.1 h0
    refine ⟨none, Salle.publie_handleQuit m s, Or.inl ⟨rfl, ?_, ?_⟩⟩
    · unfold Salle.handleQuit
      split <;> exact hobj
    · unfold Salle.handleQuit
      split <;> exact hcur
  · rw [Salle.handleQuit_of_not hm]
    exact h.rien rfl rfl (Salle.publie_rien rfl)

/-- **One step.** -/
theorem suivie_etape (h : Suivie c.tours c.thread.salle)
    (ha : Thread.Attente c.thread.salle.currentStep c.thread.lieu)
    (hok : (reguliere e c && comptee e c) = true) (hs : etape serveur e c = some c') :
    Suivie c'.tours c'.thread.salle ∧
      Thread.Attente c'.thread.salle.currentStep c'.thread.lieu := by
  obtain ⟨th', hth, rfl⟩ := Option.map_eq_some_iff.mp hs
  obtain ⟨hap, ha'⟩ := Thread.etape_appel ha hth
  refine ⟨?_, ha'⟩
  suffices hsuf : ∃ o, Salle.Publie o c.thread.salle th'.salle ∧
      Suivie (c.tours ++ (o.map fun id => ⟨id, th'.salle.jeu⟩).toList) th'.salle by
    obtain ⟨o, hp, hsuite⟩ := hsuf
    rw [hp.ouvre_eq]
    exact hsuite
  clear ha' hs hth
  generalize th'.salle = s' at hap ⊢
  simp only [reguliere, comptee, Bool.and_eq_true] at hok
  cases hap with
  | rien _ db => exact h.rien rfl rfl (Salle.publie_rien rfl)
  | quit m hl =>
    refine h.quit (hl.imp And.right fun hl => ?_)
    rw [hl.1] at hok
    simpa using hok.1
  | room m env db s' hl h0 hr =>
    rw [hl] at hok
    refine Suivie.room (s := { c.thread.salle with db }) h h0 (fun hm ho => ?_) hr
    simp only [hm, bne_self_eq_false, Bool.false_or, Bool.or_eq_true, bne_iff_ne, ne_eq,
      decide_eq_true_eq] at hok
    exact ⟨hok.1.resolve_left fun hne => hne ho, comptes_of_all (hok.2.resolve_left fun hne => hne ho)⟩
  | game m env db s' hl h1 hr =>
    refine Suivie.game (s := { c.thread.salle with db }) h ?_ hr
    show c.thread.salle.currentStep ≠ stepRoom
    rw [h1]
    decide
  | heure env db s' hl h0 hr => exact Suivie.heure (s := { c.thread.salle with db }) h h0 hr

/-- **In every state of every regular run whose players with a team are among the 256 first entries
at START, turns are shared out.** -/
theorem equitable_of_reach (serveur : Serveur) (c : Chronique)
    (h : Runs.Reach (etape serveur) (fun e c => (reguliere e c && comptee e c) = true) Depart c) :
    Equitable c.tours := by
  have hinv : Suivie c.tours c.thread.salle ∧
      Thread.Attente c.thread.salle.currentStep c.thread.lieu := by
    refine h.invariant (fun c h0 => ?_) fun e c c' hI hok hs => suivie_etape hI.1 hI.2 hok hs
    obtain ⟨⟨owner, roomId, db, ht⟩, htours⟩ := h0
    rw [ht]
    exact ⟨Or.inl ⟨htours, rfl, rfl⟩, trivial⟩
  rcases hinv.1 with ⟨hnil, _⟩ | ⟨_, ht⟩
  · rw [hnil]
    refine ⟨fun avant t milieu t' apres q htours => ?_, fun p avant t milieu t' apres x htours => ?_⟩
    · simp at htours
    · simp at htours
  · exact ht.equitable

/-! ## Two hundred and fifty-seven players -/

/-- Users 1, 2 and 3 and a worm each. -/
def baseTrois : DataBase :=
  ⟨[⟨1, "", 0⟩, ⟨2, "", 0⟩, ⟨3, "", 0⟩], [⟨7, 1, ""⟩, ⟨8, 2, ""⟩, ⟨9, 3, ""⟩],
    [⟨1, fun _ => 0, fun _ => 0, false⟩]⟩

/-- User `id` in the lobby, with its worm `x`. -/
def entree (id x : Nat) : Joueur := ⟨0, id, 0, 1, "", x :: List.replicate 7 0⟩

/-- The lobby of room 1, set to one worm for each player. -/
def lobby (players : List Joueur) (envois : List (Canal × Annonce)) : Chronique :=
  ⟨⟨.salle, ⟨{ Game.new 1 1 with lombNb := 1, players }, stepRoom, baseTrois, envois, 0⟩, 0⟩, []⟩

/-- The clock stays at 0. -/
def suite (rand : List Nat) : Evenement := .suite ⟨0, 0, 0, rand, 300, 0, 0⟩ baseTrois

theorem etape_of_publie {e : Evenement} {c : Chronique} (th : Thread)
    (h : c.thread.etape serveur e = some th) (hp : Salle.Publie none c.thread.salle th.salle) :
    etape serveur e c = some ⟨th, c.tours⟩ := by
  rw [etape, h, Option.map_some, hp.ouvre_eq]
  simp

/-- One more user asks for INFO_ROOM. -/
theorem reach_entre {ok : Evenement → Chronique → Prop} {players : List Joueur}
    {envois : List (Canal × Annonce)} {id x : Nat}
    (hj : Game.nouveauJoueur baseTrois { Game.new 1 1 with lombNb := 1 } id = some (entree id x))
    (hok : ∀ e c, e = .recoit ⟨id, .infoRoom⟩ ∨ c.thread.lieu = .salleMsg ⟨id, .infoRoom⟩ → ok e c)
    (h : Runs.Reach (etape serveur) ok Depart (lobby players envois)) :
    ∃ envois', Runs.Reach (etape serveur) ok Depart (lobby (players ++ [entree id x]) envois') := by
  have h₁ := h.next (.recoit ⟨id, .infoRoom⟩) (hok _ _ (Or.inl rfl)) (etape_of_publie
    { (lobby players envois).thread with lieu := .salleMsg ⟨id, .infoRoom⟩ } rfl (Salle.publie_rien rfl))
  have hr : Salle.handleRoom serveur ⟨0, 0, 0, [], 300, 0, 0⟩ ⟨id, .infoRoom⟩
      (lobby players envois).thread.salle = some (lobby (players ++ [entree id x]) _).thread.salle :=
    congrArg (Option.map _) hj
  refine ⟨_, h₁.next (suite []) (hok _ _ (Or.inr rfl)) (etape_of_publie
    (lobby (players ++ [entree id x]) _).thread (congrArg (Option.map _) hr) ?_)⟩
  exact ((Salle.handleRoom_manche hr).resolve_left fun h => by cases h.1).1

theorem reguliere_entre {id : Nat} (e : Evenement) (c : Chronique)
    (h : e = .recoit ⟨id, .infoRoom⟩ ∨ c.thread.lieu = .salleMsg ⟨id, .infoRoom⟩) :
    reguliere e c = true := by
  unfold reguliere
  split
  · next m hl =>
    rcases h with h | h
    · cases h
      rfl
    · rw [hl] at h
      cases h
  · next m env db hl =>
    rcases h with h | h
    · cases h
    · rw [hl] at h
      cases h
      rfl
  · rfl

/-- The owner, and `n` entries of user 3. -/
theorem reach_lobby (serveur : Serveur) (n : Nat) : ∃ envois, Runs.Reach (etape serveur)
    (fun e c => reguliere e c = true) Depart
    (lobby (entree 1 7 :: List.replicate n (entree 3 9)) envois) := by
  induction n with
  | zero =>
    have h0 : Runs.Reach (etape serveur) (fun e c => reguliere e c = true) Depart (lobby [] []) :=
      Runs.reach_of_exec [suite [], .recoit ⟨1, .clientModifyNbLombrics 1⟩, suite []]
        (.init (s := ⟨.new 1 1 baseTrois, []⟩) ⟨⟨1, 1, baseTrois, rfl⟩, rfl⟩) rfl
    exact reach_entre rfl reguliere_entre h0
  | succ n ih =>
    obtain ⟨envois, h⟩ := ih
    rw [List.replicate_succ', ← List.cons_append]
    exact reach_entre rfl reguliere_entre h

def precede (l : List (Canal × Annonce)) (c : Chronique) : Chronique := ⟨c.thread.precede l, c.tours⟩

theorem etape_precede (l : List (Canal × Annonce)) (e : Evenement) (c : Chronique) :
    etape serveur e (c.precede l) = (etape serveur e c).map (precede l) := by
  have hth : (c.precede l).thread.etape serveur e = (c.thread.etape serveur e).map (Thread.precede l) :=
    Thread.etape_precede l serveur e c.thread
  rw [etape, etape, hth, Option.map_map, Option.map_map]
  congr 1
  funext th
  simp only [Function.comp_apply, precede]
  congr 1
  exact congrArg (fun o : Option Manche => c.tours ++ o.toList) (Salle.ouvre_precede l)

/-- Players 1 and 2 take a team, the owner starts and passes its turn. -/
def debut : List Evenement :=
  [.recoit ⟨1, .clientJoinTeam 1⟩, suite [], .recoit ⟨2, .clientJoinTeam 2⟩, suite [],
    .recoit ⟨1, .start⟩, suite [0, 0, 1, 0], suite [], suite [], .recoit ⟨1, .shoot ⟨2, 0, 0⟩⟩, suite [99]]

/-- From the same lobby, whatever was published in it, the same turns open. -/
theorem exec_lobby (serveur : Serveur) {ok : Evenement → Chronique → Prop} [∀ e c, Decidable (ok e c)]
    (hok : ∀ l e c, ok e (precede l c) ↔ ok e c) {players : List Joueur} {es : List Evenement}
    {c : Chronique} (h : Runs.exec (etape serveur) ok es (lobby players []) = some c)
    (envois : List (Canal × Annonce)) :
    Runs.exec (etape serveur) ok es (lobby players envois) = some (c.precede envois) := by
  have hl : lobby players envois = (lobby players []).precede envois := by
    simp [lobby, precede, Thread.precede, Salle.precede]
  rw [hl, Runs.exec_map (hok envois) (fun e c => etape_precede envois e c), h, Option.map_some]

/-- Entry 0 has the first two turns, entry 256 none. -/
theorem oubli_du_257e : ∃ c t t', Runs.Reach (etape (Thread.serveurDe Thread.marche))
      (fun e c => reguliere e c = true) Depart c ∧
    c.tours = [t, t'] ∧ t.joueur = 0 ∧ t'.joueur = 0 ∧ t.jeu.Vivant 256 ∧ t'.jeu.Vivant 256 ∧
      ¬ Equitable c.tours := by
  obtain ⟨_, h⟩ := reach_lobby (Thread.serveurDe Thread.marche) 255
  have hj : Game.nouveauJoueur baseTrois { Game.new 1 1 with lombNb := 1 } 2 = some (entree 2 8) := rfl
  obtain ⟨envois, h⟩ := reach_entre hj reguliere_entre h
  have hexec : (Runs.exec (etape (Thread.serveurDe Thread.marche)) (fun e c => reguliere e c = true) debut
      (lobby (entree 1 7 :: List.replicate 255 (entree 3 9) ++ [entree 2 8]) [])).any (fun c =>
        c.tours.map (·.joueur) == [0, 0] && c.tours.all fun t => decide (t.jeu.Vivant 256)) = true := by
    decide +kernel
  obtain ⟨c, hc, hp⟩ := Option.any_eq_true _ _ |>.mp hexec
  rw [Bool.and_eq_true, beq_iff_eq, List.all_eq_true] at hp
  obtain ⟨hj, hv⟩ := hp
  obtain ⟨t, t', ht⟩ := List.length_eq_two.mp (show c.tours.length = 2 by
    rw [← List.length_map (·.joueur), hj]
    rfl)
  rw [ht] at hj hv
  simp only [List.map_cons, List.map_nil, List.cons.injEq, and_true] at hj
  have hvt : t.jeu.Vivant 256 := of_decide_eq_true (hv t List.mem_cons_self)
  have hvt' : t'.jeu.Vivant 256 := of_decide_eq_true (hv t' (by simp))
  refine ⟨_, t, t', Runs.reach_of_exec debut h (exec_lobby _ (fun _ _ _ => Iff.rfl) hc envois), ht, hj.1,
    hj.2, hvt, hvt', fun heq => ?_⟩
  have hcount := heq.joueurs [] t [] t' [] 256 ht (hj.2.trans hj.1.symm) (fun u hu => by cases hu)
    (by rw [hj.1]; decide) (fun u hu => by
      simp only [List.cons_append, List.nil_append, List.mem_cons, List.not_mem_nil, or_false] at hu
      rcases hu with rfl | rfl
      · exact hvt
      · exact hvt')
  cases hcount

/-- Two users and two worms each. -/
def baseQuatre : DataBase :=
  ⟨[⟨1, "", 0⟩, ⟨2, "", 0⟩], [⟨7, 1, ""⟩, ⟨8, 2, ""⟩, ⟨9, 1, ""⟩, ⟨10, 2, ""⟩],
    [⟨1, fun _ => 0, fun _ => 0, false⟩]⟩

/-- They play with two worms each, and pass each turn. -/
def passeTour : List Evenement :=
  let suite (rand : List Nat) : Evenement := .suite ⟨0, 0, 0, rand, 300, 0, 0⟩ baseQuatre
  [suite [], .recoit ⟨1, .clientModifyNbLombrics 2⟩, suite [], .recoit ⟨1, .infoRoom⟩, suite [],
    .recoit ⟨2, .infoRoom⟩, suite [], .recoit ⟨1, .clientJoinTeam 1⟩, suite [],
    .recoit ⟨2, .clientJoinTeam 2⟩, suite [], .recoit ⟨1, .start⟩, suite [0, 0, 0, 0, 1, 0, 1, 0],
    suite [], suite []] ++
    (List.replicate 4 [.recoit ⟨1, .shoot ⟨2, 0, 0⟩⟩, suite [99], suite []]).flatten

/-- Four turns, one for each worm, and the first worm again. -/
theorem passeTour_equitable : ∃ c, Runs.exec (etape (Thread.serveurDe Thread.marche))
      (fun e c => (reguliere e c && comptee e c) = true) passeTour ⟨.new 1 1 baseQuatre, []⟩ = some c ∧
    c.tours.map (fun t => (t.joueur, t.lombric)) = [(0, 9), (1, 10), (0, 7), (1, 8), (0, 9)] ∧
      Equitable c.tours := by
  obtain ⟨c, hc, hr, hp⟩ := Runs.exists_of_exec (etape (Thread.serveurDe Thread.marche))
    (fun e c => (reguliere e c && comptee e c) = true) (s := ⟨.new 1 1 baseQuatre, []⟩)
    (show Depart _ from ⟨⟨1, 1, baseQuatre, rfl⟩, rfl⟩) passeTour
    (fun c => c.tours.map (fun t => (t.joueur, t.lombric)) == [(0, 9), (1, 10), (0, 7), (1, 8), (0, 9)])
    (by decide +kernel)
  exact ⟨c, hc, beq_iff_eq.mp hp, equitable_of_reach (Thread.serveurDe Thread.marche) c hr⟩

end Chronique
end LombricABrac
