import LombricABrac.Chronique
import LombricABrac.Tours

/-!
# Two cursors

`m_current_player_id` goes round the players, and `m_current_lombric` round the worms of each.  Each
search starts one place past its cursor and stops at the first place that holds a living worm.

    getNextLombricId_suivant : the next worm of a player
    chercheTour_trouve       : the player and the worm of the next turn
    ouverture                : so do the cursors stand in the game that the turn opens
-/

namespace LombricABrac

open Cyclic (Suivant)

/-! ## The worms of a player -/

namespace Joueur

variable {obj : Partie} {nb : Nat} {j j' : Joueur} {id : Nat}

/-- `nbr_lomb` is `nb`, and the slots that count hold that many ids, distinct and not `0`. -/
structure Regulier (nb : Nat) (j : Joueur) : Prop where
  nbrLomb : j.nbrLomb = nb
  length : nb ≤ j.lombrics.length
  nodup : (j.lombrics.take nb).Nodup
  ne_zero : 0 ∉ j.lombrics.take nb

instance (nb : Nat) (j : Joueur) : Decidable (j.Regulier nb) :=
  decidable_of_iff (j.nbrLomb = nb ∧ nb ≤ j.lombrics.length ∧ (j.lombrics.take nb).Nodup ∧
      0 ∉ j.lombrics.take nb)
    ⟨fun ⟨h1, h2, h3, h4⟩ => ⟨h1, h2, h3, h4⟩, fun ⟨h1, h2, h3, h4⟩ => ⟨h1, h2, h3, h4⟩⟩

theorem Regulier.slot_ne_zero (h : j.Regulier nb) {i : Nat} (hi : i < nb)
    (hji : j.lombrics[i]? = some id) : id ≠ 0 := by
  rintro rfl
  refine h.ne_zero (List.mem_of_getElem? (i := i) ?_)
  rw [List.getElem?_take, if_pos hi, hji]

theorem Regulier.slot_inj (h : j.Regulier nb) {i i' : Nat} (hi : i < nb) (hi' : i' < nb)
    (hji : j.lombrics[i]? = some id) (hji' : j.lombrics[i']? = some id) : i = i' := by
  have hlen : i < (j.lombrics.take nb).length := by
    rw [List.length_take]
    exact lt_min hi (hi.trans_le h.length)
  refine (List.getElem?_inj hlen h.nodup).mp ?_
  rw [List.getElem?_take, List.getElem?_take, if_pos hi, if_pos hi', hji, hji']

theorem Regulier.of_fixe (h : j.Regulier nb) (hf : j'.fixe = j.fixe) : j'.Regulier nb := by
  have hn := eq_of_fixe Joueur.nbrLomb (fun _ => rfl) hf
  have hl := eq_of_fixe Joueur.lombrics (fun _ => rfl) hf
  refine ⟨hn.trans h.nbrLomb, ?_, ?_, ?_⟩ <;> rw [hl]
  exacts [h.length, h.nodup, h.ne_zero]

/-- Slot `i` holds a living worm. -/
def Arme (obj : Partie) (j : Joueur) (i : Nat) : Prop :=
  ∃ id, j.lombrics[i]? = some id ∧ obj.isLombAlive id = true

/-- The offsets `k, k + 1, …` when the smaller ones have no living worm.  Induction on their number. -/
theorem chercheLombric_suivant (hj : j.Regulier nb) (hnb : 0 < nb) (n : Nat) : ∀ k, 0 < k →
    (∀ e, 0 < e → e < k → ¬ j.Arme obj ((j.currentLombric + e) % nb)) →
    j.chercheLombric obj nb (List.range' k n) = some (id, j') →
    id = 0 ∧ j' = j ∧ (∀ e, 0 < e → e < k + n → ¬ j.Arme obj ((j.currentLombric + e) % nb)) ∨
      id ≠ 0 ∧ Suivant nb (j.Arme obj) j.currentLombric j'.currentLombric ∧
        j.lombrics[j'.currentLombric]? = some id := by
  induction n with
  | zero =>
    intro k _ hno h
    rw [List.range'_zero, chercheLombric] at h
    split at h
    · simp at h
    · cases h
      exact Or.inl ⟨rfl, rfl, hno⟩
  | succ n ih =>
    intro k hk hno h
    rw [List.range'_succ, chercheLombric, if_neg hnb.ne', Nat.add_comm k] at h
    split at h
    · simp at h
    · next x hx =>
      split at h
      · next ha =>
        cases h
        refine Or.inr ⟨hj.slot_ne_zero (Nat.mod_lt _ hnb) hx, ⟨k, hk, rfl, ⟨_, hx, ha⟩, hno⟩, hx⟩
      · next ha =>
        have hstep : ∀ e, 0 < e → e < k + 1 → ¬ j.Arme obj ((j.currentLombric + e) % nb) := by
          intro e h0 he
          rcases Nat.lt_succ_iff_lt_or_eq.mp he with he | rfl
          · exact hno e h0 he
          · rintro ⟨y, hy, hya⟩
            rw [hx] at hy
            cases hy
            exact ha hya
        rw [show k + (n + 1) = k + 1 + n by omega]
        exact ih (k + 1) k.succ_pos hstep h

/-- **A player looks for its next worm**: it has none, or the cursor goes to the first one in turn. -/
theorem getNextLombricId_suivant (hj : j.Regulier nb) (hnb : 0 < nb)
    (h : j.getNextLombricId obj nb = some (id, j')) :
    id = 0 ∧ j' = j ∧ (∀ i, i < nb → ¬ j.Arme obj i) ∨
      id ≠ 0 ∧ Suivant nb (j.Arme obj) j.currentLombric j'.currentLombric ∧
        j.lombrics[j'.currentLombric]? = some id := by
  rw [getNextLombricId, hj.nbrLomb] at h
  refine (chercheLombric_suivant hj hnb nb 1 Nat.one_pos (fun e h0 he => by omega) h).imp_left ?_
  rintro ⟨h0, he, hno⟩
  refine ⟨h0, he, fun i hi => ?_⟩
  obtain ⟨d, hd, hle, rfl⟩ := Cyclic.exists_offset le_rfl j.currentLombric hi
  rw [Nat.add_comm]
  exact hno d hd (by omega)

end Joueur

/-! ## The players -/

namespace Game

variable {g g' : Game} {id k : Nat}

/-- Every player has `m_lomb_nb` worms. -/
structure Regulier (g : Game) : Prop where
  nb_pos : 0 < g.lombNb
  joueurs : ∀ j ∈ g.players, j.Regulier g.lombNb

instance (g : Game) : Decidable g.Regulier :=
  decidable_of_iff (0 < g.lombNb ∧ ∀ j ∈ g.players, j.Regulier g.lombNb)
    ⟨fun ⟨h1, h2⟩ => ⟨h1, h2⟩, fun ⟨h1, h2⟩ => ⟨h1, h2⟩⟩

theorem Regulier.of_fixe (h : g.Regulier) (hf : g'.fixe = g.fixe) : g'.Regulier := by
  have hn := lombNb_of_fixe hf
  refine ⟨hn ▸ h.nb_pos, fun j' hj' => ?_⟩
  obtain ⟨j, hj, he⟩ := mem_of_fixe_eq hf hj'
  rw [hn]
  exact (h.joueurs j hj).of_fixe he

/-- The entries that an `uint8_t` can name. -/
def places (g : Game) : Nat := min g.players.length 256

theorem joueurSuivant_places (hc : g.currentPlayerId < g.places) :
    g.joueurSuivant.currentPlayerId = Cyclic.next g.places g.currentPlayerId := by
  unfold joueurSuivant Cyclic.next uint8 places at *
  simp only
  split <;> split <;> omega

/-- The cursor of player `k`. -/
def curseur (g : Game) (k : Nat) : Nat := ((g.players[k]?).map (·.currentLombric)).getD 0

/-- Slot `i` of player `k` holds a living worm. -/
def Arme (g : Game) (k i : Nat) : Prop :=
  ∃ obj j, g.gameObject = some obj ∧ g.players[k]? = some j ∧ j.Arme obj i

theorem curseur_eq {j : Joueur} (hj : g.players[k]? = some j) : g.curseur k = j.currentLombric := by
  rw [curseur, hj]
  rfl

theorem arme_iff {obj : Partie} {j : Joueur} {i : Nat} (hobj : g.gameObject = some obj)
    (hj : g.players[k]? = some j) : g.Arme k i ↔ j.Arme obj i := by
  refine ⟨?_, fun h => ⟨obj, j, hobj, hj, h⟩⟩
  rintro ⟨obj', j', hobj', hj', h⟩
  rw [hobj] at hobj'
  rw [hj] at hj'
  cases hobj'
  cases hj'
  exact h

/-- The current player looks for its worm. -/
theorem getNextLombricId_suivant (hg : g.Regulier) (h : g.getNextLombricId = some (id, g')) :
    id = 0 ∧ g' = g ∧ ¬ g.Vivant g.currentPlayerId ∨
      id ≠ 0 ∧ g.Vivant g.currentPlayerId ∧ (∀ k, k ≠ g.currentPlayerId → g'.players[k]? = g.players[k]?) ∧
        Suivant g.lombNb (g.Arme g.currentPlayerId) (g.curseur g.currentPlayerId)
          (g'.curseur g.currentPlayerId) ∧
        ∃ j, g'.players[g.currentPlayerId]? = some j ∧ j.lombrics[j.currentLombric]? = some id := by
  unfold Game.getNextLombricId at h
  split at h
  · simp at h
  · next j hj =>
    split at h
    · next he =>
      cases h
      refine Or.inl ⟨rfl, rfl, ?_⟩
      rintro ⟨obj, j', i, id, _, hj', he', _⟩
      rw [hj] at hj'
      cases hj'
      exact he' he
    · next he =>
      split at h
      · simp at h
      · next x j' hx =>
        cases h
        obtain ⟨obj, hobj, hn⟩ := Option.bind_eq_some_iff.mp hx
        have hreg := hg.joueurs j (List.mem_of_getElem? hj)
        have hlt := (List.getElem?_eq_some_iff.mp hj).1
        rcases Joueur.getNextLombricId_suivant hreg hg.nb_pos hn with ⟨rfl, rfl, hno⟩ | ⟨h0, hs, hslot⟩
        · refine Or.inl ⟨rfl, ?_, ?_⟩
          · obtain ⟨_, rfl⟩ := List.getElem?_eq_some_iff.mp hj
            rw [List.set_getElem_self]
          · rintro ⟨obj', j₁, i, id, hobj', hj₁, _, hi, hji, ha⟩
            rw [hj] at hj₁
            rw [hobj] at hobj'
            cases hj₁
            cases hobj'
            exact hno i (hreg.nbrLomb ▸ hi) ⟨id, hji, ha⟩
        · have hj' : (g.players.set g.currentPlayerId j')[g.currentPlayerId]? = some j' :=
            List.getElem?_set_self hlt
          obtain ⟨y, hy, hya⟩ := hs.holds
          have hl := Joueur.eq_of_fixe Joueur.lombrics (fun _ => rfl)
            (Joueur.getNextLombricId_spec hn).1
          refine Or.inr ⟨h0, ?_, fun k hk => List.getElem?_set_ne hk.symm, ?_, j', hj', ?_⟩
          · exact ⟨obj, j, _, y, hobj, hj, he, hreg.nbrLomb ▸ hs.lt hg.nb_pos, hy, hya⟩
          · rw [curseur_eq hj, curseur_eq hj']
            exact hs.congr (fun i _ => (arme_iff hobj hj).symm) hg.nb_pos
          · rwa [hl]

/-- Where the search of a turn stops. -/
structure Trouve (g : Game) (id : Nat) (g' : Game) : Prop where
  fixe : g'.fixe = g.fixe
  joueur : Suivant g.places g.Vivant g.currentPlayerId g'.currentPlayerId
  autres : ∀ k, k ≠ g'.currentPlayerId → g'.players[k]? = g.players[k]?
  vers : Suivant g.lombNb (g.Arme g'.currentPlayerId) (g.curseur g'.currentPlayerId)
    (g'.curseur g'.currentPlayerId)
  ne_zero : id ≠ 0
  slot : ∃ j, g'.players[g'.currentPlayerId]? = some j ∧ j.lombrics[j.currentLombric]? = some id

/-- **The search of `end_round`.**  Players without a living worm are passed, and keep their cursors. -/
theorem chercheTour_trouve (fuel : Nat) : ∀ {g : Game}, g.Regulier → g.currentPlayerId < g.places →
    g.chercheTour fuel = some (id, g') → g.Trouve id g' := by
  induction fuel with
  | zero =>
    intro g _ _ h
    cases h
  | succ fuel ih =>
    intro g hg hc h
    have hs := joueurSuivant_places hc
    have hg₁ : g.joueurSuivant.Regulier := hg.of_fixe rfl
    have hpl : 0 < g.places := by omega
    rw [chercheTour] at h
    split at h
    · simp at h
    · next g₁ h₁ =>
      rcases getNextLombricId_suivant hg₁ h₁ with ⟨_, rfl, hno⟩ | ⟨h0, _⟩
      · have hlt : g.joueurSuivant.currentPlayerId < g.joueurSuivant.places := by
          rw [hs]
          exact Cyclic.next_eq_mod hc ▸ Nat.mod_lt _ hpl
        obtain ⟨hf, hj, ha, hv, h0, hsl⟩ := ih hg₁ hlt h
        refine ⟨hf, ?_, ha, hv, h0, hsl⟩
        rw [hs] at hj hno
        exact hj.passe hc hno
      · exact absurd rfl h0
    · next x g₁ hx h₁ =>
      cases h
      rcases getNextLombricId_suivant hg₁ h₁ with ⟨h0, _⟩ | ⟨h0, hviv, ha, hv, hsl⟩
      · exact absurd h0 hx
      · obtain ⟨hf, hcur, _⟩ := getNextLombricId_spec h₁
        rw [← hcur] at hviv ha hv hsl
        refine ⟨hf, ?_, ha, hv, h0, hsl⟩
        rw [hcur, hs] at hviv ⊢
        exact .of_next hc hviv

/-! ## Games with the same players -/

/-- Worm `id` lives in the object of the game. -/
def alive (g : Game) (id : Nat) : Bool := g.gameObject.any fun obj => obj.isLombAlive id

/-- The ids of the worms in the object of the game. -/
def vers (g : Game) : List Nat := (g.gameObject.map Partie.vers).getD []

/-- Each worm of the object has positive life. -/
def Nets (g : Game) : Prop := ∀ obj, g.gameObject = some obj → obj.Nets

theorem alive_of_vers (hv : g.vers ⊆ g'.vers) (hn : g'.Nets) (h0 : id ≠ 0) (h : g.alive id = true) :
    g'.alive id = true := by
  obtain ⟨obj, hobj, ha⟩ := Option.any_eq_true _ _ |>.mp h
  have hid : id ∈ g'.vers := by
    refine hv ?_
    rw [vers, hobj]
    exact Partie.mem_vers_of_alive ha
  unfold vers at hid
  cases hobj' : g'.gameObject with
  | none =>
    rw [hobj'] at hid
    cases hid
  | some obj' =>
    rw [hobj'] at hid
    rw [alive, hobj']
    exact (hn obj' hobj').alive h0 hid

theorem exists_of_stable_eq (h : g'.stable = g.stable) {j : Joueur} (hj : g.players[k]? = some j) :
    ∃ j', g'.players[k]? = some j' ∧ j'.fixe = j.fixe := by
  have hp : g'.players.map Joueur.fixe = g.players.map Joueur.fixe := congrArg Game.players h
  have hk : (g'.players.map Joueur.fixe)[k]? = some j.fixe := by
    rw [hp, List.getElem?_map, hj]
    rfl
  rw [List.getElem?_map] at hk
  exact Option.map_eq_some_iff.mp hk

theorem Arme.imp {i : Nat} (h : g.Arme k i) (hst : g'.stable = g.stable) (hg : g.Regulier)
    (hi : i < g.lombNb) (ha : ∀ id, id ≠ 0 → g.alive id = true → g'.alive id = true) : g'.Arme k i := by
  obtain ⟨obj, j, hobj, hj, id, hji, hid⟩ := h
  have h0 := (hg.joueurs j (List.mem_of_getElem? hj)).slot_ne_zero hi hji
  have hid' := ha id h0 (by rwa [alive, hobj])
  obtain ⟨obj', hobj', hid'⟩ := Option.any_eq_true _ _ |>.mp hid'
  obtain ⟨j', hj', hf⟩ := exists_of_stable_eq hst hj
  refine ⟨obj', j', hobj', hj', id, ?_, hid'⟩
  rwa [Joueur.eq_of_fixe Joueur.lombrics (fun _ => rfl) hf]

theorem vivant_iff (hg : g.Regulier) : g.Vivant k ↔
    ∃ j i, g.players[k]? = some j ∧ j.equipe ≠ 0 ∧ i < g.lombNb ∧ g.Arme k i := by
  constructor
  · rintro ⟨obj, j, i, id, hobj, hj, he, hi, hji, ha⟩
    have hn := (hg.joueurs j (List.mem_of_getElem? hj)).nbrLomb
    exact ⟨j, i, hj, he, hn ▸ hi, obj, j, hobj, hj, id, hji, ha⟩
  · rintro ⟨j, i, hj, he, hi, obj, j', hobj, hj', id, hji, ha⟩
    rw [hj] at hj'
    cases hj'
    have hn := (hg.joueurs j (List.mem_of_getElem? hj)).nbrLomb
    exact ⟨obj, j, i, id, hobj, hj, he, hn ▸ hi, hji, ha⟩

instance (g : Game) (k : Nat) : Decidable (g.Vivant k) :=
  decidable_of_iff ((g.gameObject.any fun obj => (g.players[k]?).any fun j => j.equipe != 0 &&
      (List.range j.nbrLomb).any fun i => (j.lombrics[i]?).any obj.isLombAlive) = true) (by
    simp only [Option.any_eq_true, Bool.and_eq_true, bne_iff_ne, List.any_eq_true, List.mem_range, Vivant]
    constructor
    · rintro ⟨obj, hobj, j, hj, he, i, hi, id, hji, ha⟩
      exact ⟨obj, j, i, id, hobj, hj, he, hi, hji, ha⟩
    · rintro ⟨obj, j, i, id, hobj, hj, he, hi, hji, ha⟩
      exact ⟨obj, hobj, j, hj, he, i, hi, id, hji, ha⟩)

theorem lombNb_of_stable (h : g'.stable = g.stable) : g'.lombNb = g.lombNb :=
  eq_of_stable lombNb (fun _ => rfl) h

theorem places_of_stable (h : g'.stable = g.stable) : g'.places = g.places := by
  refine eq_of_stable places (fun g => ?_) h
  unfold places stable fixe
  rw [List.length_map]

theorem Regulier.of_stable (h : g.Regulier) (hst : g'.stable = g.stable) : g'.Regulier := by
  have hn := lombNb_of_stable hst
  refine ⟨hn ▸ h.nb_pos, fun j' hj' => ?_⟩
  obtain ⟨k, hk⟩ := List.getElem?_of_mem hj'
  obtain ⟨j, hj, hf⟩ := exists_of_stable_eq hst.symm hk
  rw [hn]
  exact (h.joueurs j (List.mem_of_getElem? hj)).of_fixe hf.symm

theorem Vivant.imp (h : g.Vivant k) (hst : g'.stable = g.stable) (hg : g.Regulier)
    (ha : ∀ id, id ≠ 0 → g.alive id = true → g'.alive id = true) : g'.Vivant k := by
  obtain ⟨j, i, hj, he, hi, harme⟩ := (vivant_iff hg).mp h
  obtain ⟨j', hj', hf⟩ := exists_of_stable_eq hst hj
  refine (vivant_iff (hg.of_stable hst)).mpr ⟨j', i, hj', ?_, ?_, harme.imp hst hg hi ha⟩
  · rwa [Joueur.eq_of_fixe Joueur.equipe (fun _ => rfl) hf]
  · rwa [lombNb_of_stable hst]

/-- Every player with a team is among the entries that the cursor can name. -/
def Comptes (g : Game) : Prop := ∀ k j, g.players[k]? = some j → j.equipe ≠ 0 → k < 256

theorem Comptes.of_stable (h : g.Comptes) (hst : g'.stable = g.stable) : g'.Comptes := by
  intro k j' hj' he
  obtain ⟨j, hj, hf⟩ := exists_of_stable_eq hst.symm hj'
  refine h k j hj ?_
  rwa [Joueur.eq_of_fixe Joueur.equipe (fun _ => rfl) hf]

theorem Vivant.lt_places (h : g.Vivant k) (hc : g.Comptes) : k < g.places := by
  obtain ⟨obj, j, i, id, _, hj, he, _⟩ := h
  exact lt_min (List.getElem?_eq_some_iff.mp hj).1 (hc k j hj he)

/-- `g'` opens a turn after `g`. -/
structure Ouverture (g : Game) (id : Nat) (g' : Game) : Prop where
  stable : g'.stable = g.stable
  alive : ∀ id, id ≠ 0 → g'.alive id = g.alive id
  vers : g'.vers = g.vers
  joueur : Suivant g.places g'.Vivant g.currentPlayerId g'.currentPlayerId
  autres : ∀ k, k ≠ g'.currentPlayerId → g'.curseur k = g.curseur k
  lombric : Suivant g.lombNb (g'.Arme g'.currentPlayerId) (g.curseur g'.currentPlayerId)
    (g'.curseur g'.currentPlayerId)
  ne_zero : id ≠ 0
  slot : ∃ j, g'.players[g'.currentPlayerId]? = some j ∧ j.lombrics[j.currentLombric]? = some id

theorem Trouve.ouverture {obj obj' : Partie} {debut : Int} (h : g.Trouve id g') (hg : g.Regulier)
    (hc : g.currentPlayerId < g.places) (hobj : g'.gameObject = some obj) (hm : obj.MemesVers obj') :
    g.Ouverture id { g' with gameObject := some obj', beginTimeRound := debut } := by
  have hgo : g.gameObject = some obj := (gameObject_of_fixe h.fixe).symm.trans hobj
  have hst : stable { g' with gameObject := some obj', beginTimeRound := debut } = g.stable :=
    show g'.stable = g.stable from stable_of_fixe h.fixe
  have hreg := hg.of_stable hst
  have halive : ∀ id, id ≠ 0 →
      alive { g' with gameObject := some obj', beginTimeRound := debut } id = g.alive id := by
    intro id h0
    rw [alive, alive, hgo]
    exact hm.alive id h0
  refine ⟨hst, halive, ?_, h.joueur.congr (fun k _ => ⟨fun hk => ?_, fun hk => ?_⟩) (by omega), ?_,
    h.vers.congr (fun i hi => ⟨fun ha => ?_, fun ha => ?_⟩) hg.nb_pos, h.ne_zero, h.slot⟩
  · unfold Game.vers
    rw [hgo]
    exact hm.vers
  · exact hk.imp hst hg fun id h0 ha => (halive id h0).trans ha
  · exact hk.imp hst.symm hreg fun id h0 ha => (halive id h0).symm.trans ha
  · intro k hk
    exact congrArg (fun o => (Option.map (·.currentLombric) o).getD 0) (h.autres k hk)
  · exact ha.imp hst hg hi fun id h0 hid => (halive id h0).trans hid
  · exact ha.imp hst.symm hreg (lombNb_of_stable hst ▸ hi) fun id h0 hid => (halive id h0).symm.trans hid

end Game
end LombricABrac
