import LombricABrac.ClientLoop

/-!
# When all of a game is applied

A step can break nothing and still doom a shot or a turn: the next frame polls the slot before the
queue, clears the slot after having read it, or sees that the game is ended.  `aligne` are the steps
that leave a way to the end; `Suivi` is what they keep, next to `Inv`.

    suivi_step         : an aligned step keeps it
    acheve_of_suivi    : from such a state, all that was sent can be applied
    perdu_of_not_aligne: any other step breaks something or dooms it
    fidele_of_reach    : the runs of aligned steps are faithful, and no others
-/

namespace LombricABrac
namespace Boucle

open Runs

/-! ## How arrivals and frames have to meet -/

/-- The oldest to wait belongs to a shot. -/
def tirDevant (s : Boucle) : Bool := s.enAttente.head?.any Recu.estTir

/-- The slot is copied and not yet cleared. -/
def Moment.enLecture : Moment → Bool
  | .lu _ => true
  | _ => false

/-- The rest of the frame polls everything that waits. -/
def aTemps (s : Boucle) : Bool :=
  match s.lieu with
  | .tour => s.endRound || s.newRound = ""
  | .lu _ => true
  | .tir => s.newRound = ""
  | _ => s.tableUpdate.isEmpty && s.newRound = ""

/-- A turn waits behind a shot. -/
def tourDerriere (s : Boucle) : Bool := s.tirDevant && s.newRound ≠ ""

/-- A shot arrives in an empty queue; a turn in an empty slot that is not about to be cleared, and
behind a shot only while the queue is polled first; END_GAME when the frame still polls what waits.
A frame does not end the turn when the next one waits behind a shot, takes from the queue only the
oldest to wait, and takes it when it could not do so later. -/
def aligne (timeRound : Nat) : Evenement → Boucle → Bool
  | .arrive, s =>
    match s.reste with
    | .shoot _ :: _ => s.tableUpdate.isEmpty
    | .nextRound _ :: _ => s.newRound = "" && !s.lieu.enLecture &&
        (s.tableUpdate.isEmpty || !s.endRound || s.lieu = .tir)
    | _ => true
  | .endGame, s => s.aTemps
  | .updateSprites blesse mouvement, s =>
    !s.tourDerriere || !(s.updateSprites timeRound blesse mouvement).endRound
  | .getTableUpdate verrou, s =>
    if verrou && s.tableUpdate.length = 3 then s.tirDevant
    else !(s.tourDerriere && s.endRound) && (!s.isEnded || s.tableUpdate.isEmpty)
  | _, _ => true

/-- Everything that was sent is applied, and nothing is left. -/
structure Acheve (envois : List Envoi) (s : Boucle) : Prop where
  reste : s.reste = []
  appliques : s.appliques = envois
  tableUpdate : s.tableUpdate = []
  newRound : s.newRound = ""

/-- All that was sent can still be applied, without anything going wrong on the way. -/
def Achevable (timeRound : Nat) (envois : List Envoi) (s : Boucle) : Prop :=
  ∃ s', Reach (step timeRound) (fun e t => ∀ t', step timeRound e t = some t' → Fidele envois t')
    (· = s) s' ∧ s'.Acheve envois

/-! ## What waits -/

variable {envois suite : List Envoi} {att : List Recu} {s s' : Boucle} {timeRound : Nat}

namespace Inv

theorem tirDevant_eq (h : Inv envois suite att s) : s.tirDevant = att.head?.any Recu.estTir := by
  rw [tirDevant, h.enAttente]

/-- The queue is empty: no shot waits. -/
theorem tirDevant_of_vide (h : Inv envois suite att s) (ht : s.tableUpdate = []) :
    s.tirDevant = false := by
  have htirs := h.tirs
  rw [ht] at htirs
  have hnil : att.filter Recu.estTir = [] := List.map_eq_nil_iff.mp htirs.symm
  rw [h.tirDevant_eq]
  cases att with
  | nil => rfl
  | cons m att =>
    have hm := List.filter_eq_nil_iff.mp hnil m List.mem_cons_self
    simpa using hm

/-- The slot is empty: only shots wait. -/
theorem tirs_of_vide (h : Inv envois suite att s) (hn : s.newRound = "") :
    att.filter Recu.estTir = att := by
  have htours := h.tours
  rw [Boucle.tours, if_pos hn] at htours
  refine List.filter_eq_self.mpr fun m hm => ?_
  have hnone := List.filterMap_eq_nil_iff.mp htours.symm m hm
  cases m with
  | nextRound t => simp at hnone
  | _ => rfl

/-- A turn is the oldest to wait: it is in the slot. -/
theorem newRound_of_tour (h : Inv envois suite att s) (hne : att ≠ []) (ht : s.tirDevant = false) :
    s.newRound ≠ "" := by
  intro hn
  have htirs := h.tirs_of_vide hn
  rw [h.tirDevant_eq] at ht
  cases att with
  | nil => exact hne rfl
  | cons m att =>
    have hm := List.filter_eq_self.mp htirs m List.mem_cons_self
    exact Bool.noConfusion (hm.symm.trans ht)

/-- Nothing waits, so nothing is in the queue and the slot. -/
theorem vide (h : Inv envois suite [] s) : s.tableUpdate = [] ∧ s.newRound = "" := by
  refine ⟨h.tirs, ?_⟩
  by_contra hn
  exact h.attente_of_newRound hn rfl

end Inv

/-! ## The invariant of the aligned steps -/

/-- What is copied is in the slot and is the oldest to wait; a turn waits behind a shot only before the
end of the turn, or where the queue is polled next; after END_GAME all is still polled. -/
structure Suivi (s : Boucle) : Prop where
  textes : ∀ t, .nextRound t ∈ s.reste → t ≠ ""
  lu : ∀ res, s.lieu = .lu res → s.newRound = res ∧ (res ≠ "" → s.tirDevant = false)
  derriere : s.tourDerriere = true → s.endRound = true → s.lieu = .tir
  fin : s.isEnded = true → s.reste = [] ∧ s.aTemps = true
  fini : s.lieu = .fini → s.isEnded = true

theorem tourDerriere_iff : s.tourDerriere = true ↔ s.tirDevant = true ∧ s.newRound ≠ "" := by
  simp [tourDerriere]

theorem tourDerriere_of_newRound (hn : s.newRound = "") : s.tourDerriere = false := by
  simp [tourDerriere, hn]

theorem tourDerriere_of_tirDevant (ht : s.tirDevant = false) : s.tourDerriere = false := by
  rw [tourDerriere, ht, Bool.false_and]

/-- At the start, when no turn has an empty text. -/
theorem Suivi.depart (h : Depart envois s) (hn : s.newRound = "") (ht : ∀ t, .tour t ∈ envois → t ≠ "") :
    Suivi s where
  textes := by
    intro t hm
    rw [h.reste] at hm
    obtain ⟨e, he, hme⟩ := List.mem_flatMap.mp hm
    cases e with
    | tir a b c => simp [Envoi.messages] at hme
    | tour next =>
      cases List.mem_singleton.mp hme
      exact ht t he
  lu := by
    intro res hlieu
    rw [h.lieu] at hlieu
    cases hlieu
  derriere := by
    intro hd
    rw [tourDerriere_of_newRound hn] at hd
    cases hd
  fin := by
    intro hf
    rw [h.isEnded] at hf
    cases hf
  fini := by
    intro hlieu
    rw [h.lieu] at hlieu
    cases hlieu

/-- An aligned step breaks nothing. -/
theorem intact_of_aligne {e : Evenement} (h : Inv envois suite att s) (hp : Suivi s)
    (ha : aligne timeRound e s = true) : intact e s = true := by
  cases e with
  | arrive =>
    cases hr : s.reste with
    | nil => simp only [intact, hr]
    | cons m reste =>
      cases m with
      | shoot a => simpa only [intact, aligne, hr] using ha
      | nextRound t =>
        have ht := hp.textes t (by rw [hr]; exact List.mem_cons_self)
        simp only [aligne, hr, Bool.and_eq_true, decide_eq_true_eq] at ha
        simp [intact, hr, ht, ha.1.1]
      | updateWall b => simp only [intact, hr]
      | lombDmg c => simp only [intact, hr]
  | changeTour =>
    simp only [intact]
    split
    · next res hlieu =>
      obtain ⟨hnew, htour⟩ := hp.lu res hlieu
      by_cases hres : res = ""
      · simp [hnew, hres]
      · have hdev := htour hres
        rw [h.tirDevant_eq] at hdev
        simp only [hnew, h.enAttente, decide_true, Bool.true_and, Bool.or_eq_true]
        right
        cases att with
        | nil => rfl
        | cons m att =>
          have hm : m.estTir = false := hdev
          show (!m.estTir) = true
          rw [hm]
          rfl
    · rfl
  | getTableUpdate verrou =>
    simp only [aligne] at ha
    simp only [intact, Bool.or_eq_true, decide_eq_true_eq, Bool.not_eq_true']
    split at ha
    · next hprend =>
      right
      rw [h.tirDevant_eq] at ha
      rw [h.enAttente]
      cases att with
      | nil => rfl
      | cons m att => exact ha
    · next hprend =>
      left
      simp only [Bool.and_eq_true, decide_eq_true_eq, not_and] at hprend
      cases verrou with
      | false => exact .inl rfl
      | true => exact .inr (hprend rfl)
  | _ => rfl

theorem Inv.tirDevant_recoit (h : Inv envois suite att s) (m : Recu) (reste : List Recu) :
    (s.recoit m reste).tirDevant = if att = [] then m.estTir else s.tirDevant := by
  rw [tirDevant, h.enAttente_recoit, h.tirDevant_eq]
  cases att with
  | nil => rfl
  | cons m' att => rfl

namespace Suivi

theorem arrive (h : Inv envois suite att s) (hp : Suivi s) {m : Recu} {reste : List Recu}
    (hr : s.reste = m :: reste) (ha : aligne timeRound .arrive s = true) :
    Suivi (s.recoit m reste) := by
  have hdev := h.tirDevant_recoit m reste
  have hatt : s.newRound ≠ "" → att ≠ [] := h.attente_of_newRound
  refine ⟨fun t hm => hp.textes t (by rw [hr]; exact List.mem_cons_of_mem _ hm), fun res hlieu => ?_,
    fun hd hround => ?_, fun hf => ?_, hp.fini⟩
  · obtain ⟨hnew, htour⟩ := hp.lu res hlieu
    cases m with
    | nextRound t =>
      -- Nothing arrives in a slot that is about to be cleared.
      have hlu : s.lieu = .lu res := hlieu
      simp [aligne, hr, hlu, Moment.enLecture] at ha
    | _ =>
      refine ⟨hnew, fun hres => ?_⟩
      rw [hdev, if_neg (hatt (by rw [hnew]; exact hres))]
      exact htour hres
  · obtain ⟨htir, hnew⟩ := tourDerriere_iff.mp hd
    rw [hdev] at htir
    cases m with
    | nextRound t =>
      simp only [aligne, hr, Bool.and_eq_true, Bool.or_eq_true, decide_eq_true_eq,
        List.isEmpty_iff] at ha
      split at htir
      · cases htir
      · obtain ⟨-, (hvide | hnon) | hlieu⟩ := ha
        · rw [h.tirDevant_of_vide hvide] at htir
          cases htir
        · have hround' : s.endRound = true := hround
          rw [hround'] at hnon
          cases hnon
        · exact hlieu
    | _ =>
      rw [if_neg (hatt hnew)] at htir
      exact hp.derriere (tourDerriere_iff.mpr ⟨htir, hnew⟩) hround
  · have hvide := (hp.fin hf).1
    rw [hr] at hvide
    cases hvide

theorem endGame (hp : Suivi s) (hr : s.reste = []) (ha : s.aTemps = true) :
    Suivi { s with endGame := false, isEnded := true } :=
  ⟨hp.textes, hp.lu, hp.derriere, fun _ => ⟨hr, ha⟩, fun _ => rfl⟩

theorem updateSprites (hp : Suivi s) {blesse mouvement : Bool} (hlieu : s.lieu = .debut)
    (ha : aligne timeRound (.updateSprites blesse mouvement) s = true) :
    Suivi (s.updateSprites timeRound blesse mouvement) := by
  refine ⟨hp.textes, fun res hlu => ?_, fun hd hround => ?_, fun hf => ?_, fun hfini => ?_⟩
  · have hlu' : (if s.isEnded then Moment.fini else .tour) = .lu res := hlu
    split at hlu' <;> cases hlu'
  · have hd' : s.tourDerriere = true := hd
    rw [aligne, hd', hround] at ha
    cases ha
  · have hf' : s.isEnded = true := hf
    obtain ⟨hr, ht⟩ := hp.fin hf'
    refine ⟨hr, ?_⟩
    rw [aTemps, hlieu] at ht
    simpa [aTemps, Boucle.updateSprites, hf'] using ht
  · by_contra hf
    have hf' : s.isEnded = false := by simpa [Boucle.updateSprites] using hf
    simp [Boucle.updateSprites, hf'] at hfini

theorem getNextRound (hp : Suivi s) (hlieu : s.lieu = .tour) : Suivi s.getNextRound := by
  refine ⟨hp.textes, fun res hlu => ?_, fun hd hround => ?_, fun hf => ?_, fun hfini => ?_⟩
  · have hlu' : (if s.endRound then Moment.lu s.newRound else .tir) = .lu res := hlu
    split at hlu'
    · next hround =>
      cases hlu'
      refine ⟨rfl, fun hres => ?_⟩
      -- A turn behind a shot would have to wait for the queue, and the frame is before the slot.
      by_contra htir
      have hdev : s.tirDevant = true := eq_true_of_ne_false htir
      have hl := hp.derriere (tourDerriere_iff.mpr ⟨hdev, hres⟩) hround
      rw [hlieu] at hl
      cases hl
    · cases hlu'
  · have hl := hp.derriere hd hround
    rw [hlieu] at hl
    cases hl
  · obtain ⟨hr, ht⟩ := hp.fin hf
    refine ⟨hr, ?_⟩
    simp only [aTemps, hlieu, Bool.or_eq_true, decide_eq_true_eq] at ht
    by_cases hround : s.endRound = true
    · simp [aTemps, Boucle.getNextRound, hround]
    · simp [aTemps, Boucle.getNextRound, hround, ht.resolve_left hround]
  · have hfini' : (if s.endRound then Moment.lu s.newRound else .tir) = .fini := hfini
    split at hfini' <;> cases hfini'

theorem changeTour (hp : Suivi s) (res : String) : Suivi (s.changeTour res) := by
  refine ⟨by simpa using hp.textes, fun r hlu => ?_, fun _ _ => changeTour_lieu res s, fun hf => ?_,
    fun hfini => ?_⟩
  · rw [changeTour_lieu] at hlu
    cases hlu
  · rw [changeTour_isEnded] at hf
    exact ⟨by simpa using (hp.fin hf).1, by simp [aTemps]⟩
  · rw [changeTour_lieu] at hfini
    cases hfini

theorem horloge (hp : Suivi s) {tempTime : Nat} (hlieu : s.lieu = .horloge) :
    Suivi (s.horloge timeRound tempTime) := by
  refine ⟨hp.textes, fun res hlu => (nomatch hlu), fun hd hround => ?_, fun hf => ?_,
    fun hfini => (nomatch hfini)⟩
  · have hl := hp.derriere hd hround
    rw [hlieu] at hl
    cases hl
  · obtain ⟨hr, ht⟩ := hp.fin hf
    refine ⟨hr, ?_⟩
    rw [aTemps, hlieu] at ht
    exact ht

theorem getTableUpdate (h : Inv envois suite att s) (hp : Suivi s) {verrou : Bool}
    (hlieu : s.lieu = .tir) (ha : aligne timeRound (.getTableUpdate verrou) s = true) :
    Suivi (s.getTableUpdate timeRound verrou) := by
  have hvide : s.isEnded = true → s.reste = [] ∧ s.newRound = "" := by
    intro hf
    obtain ⟨hr, ht⟩ := hp.fin hf
    simp only [aTemps, hlieu, decide_eq_true_eq] at ht
    exact ⟨hr, ht⟩
  by_cases hprend : verrou = true ∧ s.tableUpdate.length = 3
  · obtain ⟨rfl, hl⟩ := hprend
    obtain ⟨_, _, h'⟩ : ∃ suite' att', Inv envois suite' att' (s.getTableUpdate timeRound true) :=
      h.getTableUpdate (intact_of_aligne h hp ha)
    obtain ⟨a, b, c, htable⟩ := List.length_eq_three.mp hl
    rw [getTableUpdate_trois timeRound htable] at h' ⊢
    refine ⟨hp.textes, fun res hlu => (nomatch hlu), fun hd _ => ?_, fun hf => ?_,
      fun hfini => (nomatch hfini)⟩
    · rw [tourDerriere_of_tirDevant (h'.tirDevant_of_vide rfl)] at hd
      cases hd
    · obtain ⟨hr, hn⟩ := hvide hf
      exact ⟨hr, by simp [aTemps, hn]⟩
  · have hnon : ¬ ((verrou && decide (s.tableUpdate.length = 3)) = true) := by
      simpa using hprend
    rw [aligne, if_neg hnon, Bool.and_eq_true] at ha
    obtain ⟨hd', hf'⟩ := ha
    rw [getTableUpdate_sans timeRound fun hv hl => hprend ⟨hv, hl⟩]
    refine ⟨hp.textes, fun res hlu => (nomatch hlu), fun hd hround => ?_, fun hf => ?_,
      fun hfini => (nomatch hfini)⟩
    · have hd₁ : s.tourDerriere = true := hd
      have hround₁ : s.endRound = true := hround
      rw [hd₁, hround₁] at hd'
      cases hd'
    · have hf₁ : s.isEnded = true := hf
      obtain ⟨hr, hn⟩ := hvide hf₁
      rw [hf₁] at hf'
      have htable : s.tableUpdate.isEmpty = true := by simpa using hf'
      exact ⟨hr, by simpa [aTemps, hn] using htable⟩

end Suivi

/-- **One step.**  What waits stays where the loop looks for it, and in time. -/
theorem suivi_step {e : Evenement} (h : Inv envois suite att s) (hp : Suivi s)
    (ha : aligne timeRound e s = true) (hs : step timeRound e s = some s') :
    Suivi s' ∧ ∃ suite' att', Inv envois suite' att' s' := by
  refine ⟨?_, inv_step e h (intact_of_aligne h hp ha) hs⟩
  cases e with
  | arrive =>
    rw [step] at hs
    split at hs
    · next m reste hr =>
      cases hs
      exact hp.arrive h hr ha
    · cases hs
  | endGame =>
    obtain ⟨⟨hr, -⟩, hs⟩ := Option.ite_none_right_eq_some.mp hs
    cases hs
    exact hp.endGame hr ha
  | updateSprites blesse mouvement =>
    obtain ⟨hlieu, hs⟩ := Option.ite_none_right_eq_some.mp hs
    cases hs
    exact hp.updateSprites hlieu ha
  | getNextRound =>
    obtain ⟨hlieu, hs⟩ := Option.ite_none_right_eq_some.mp hs
    cases hs
    exact hp.getNextRound hlieu
  | changeTour =>
    rw [step] at hs
    split at hs
    · next res hlieu =>
      cases hs
      exact hp.changeTour res
    · cases hs
  | getTableUpdate verrou =>
    obtain ⟨hlieu, hs⟩ := Option.ite_none_right_eq_some.mp hs
    cases hs
    exact hp.getTableUpdate h hlieu ha
  | horloge tempTime =>
    obtain ⟨hlieu, hs⟩ := Option.ite_none_right_eq_some.mp hs
    cases hs
    exact hp.horloge hlieu

/-! ## The way to the end -/

/-- The steps to the next turn in the slot: the clock ends the turn, then the frame polls. -/
def versTour (timeRound : Nat) (endRound : Bool) (spentTime : Nat) : Moment → Nat
  | .lu _ => 1
  | .tour => if endRound then 2 else 6
  | .debut => if endRound || timeRound ≤ spentTime then 3 else 7
  | .horloge => 4
  | .tir => 5
  | .fini => 0

/-- The steps to the next poll of the queue. -/
def versTir : Moment → Nat
  | .tir => 1
  | .lu _ => 2
  | .tour => 3
  | .debut => 4
  | .horloge => 5
  | .fini => 0

def distance (timeRound : Nat) (s : Boucle) : Nat :=
  if s.newRound ≠ "" && !s.tirDevant then versTour timeRound s.endRound s.spentTime s.lieu
  else versTir s.lieu

/-- What is left to do: arrivals first, then what waits, then the steps of the frame. -/
def mesure (timeRound : Nat) (s : Boucle) : Nat :=
  8 * (2 * s.reste.length + s.enAttente.length) + s.distance timeRound

theorem distance_tour (hn : s.newRound ≠ "") (ht : s.tirDevant = false) :
    s.distance timeRound = versTour timeRound s.endRound s.spentTime s.lieu :=
  if_pos (by simp [hn, ht])

theorem distance_tir (ht : s.newRound = "" ∨ s.tirDevant = true) :
    s.distance timeRound = versTir s.lieu := by
  refine if_neg ?_
  rcases ht with hn | ht
  · simp [hn]
  · simp [ht]

theorem distance_le (timeRound : Nat) (s : Boucle) : s.distance timeRound ≤ 7 := by
  rw [distance]
  split <;> cases s.lieu <;> simp only [versTour, versTir] <;> first | omega | (split <;> omega)

theorem mesure_lt_of_distance (hr : s'.reste = s.reste) (ha : s'.enAttente = s.enAttente)
    (hd : s'.distance timeRound < s.distance timeRound) : s'.mesure timeRound < s.mesure timeRound := by
  rw [mesure, mesure, hr, ha]
  omega

theorem mesure_lt_of_length (hl : 2 * s'.reste.length + s'.enAttente.length <
    2 * s.reste.length + s.enAttente.length) : s'.mesure timeRound < s.mesure timeRound := by
  have hd := distance_le timeRound s'
  rw [mesure, mesure]
  omega

/-- A shot or a turn is applied. -/
theorem mesure_lt_of_applique {e : Envoi} (hr : s'.reste = s.reste) (ha : s'.arrives = s.arrives)
    (happ : s'.appliques = s.appliques ++ [e]) (hne : s.enAttente ≠ []) :
    s'.mesure timeRound < s.mesure timeRound := by
  apply mesure_lt_of_length
  have hdrop : s'.enAttente = s.enAttente.drop e.messages.length := by
    rw [enAttente, enAttente, ha, happ, List.flatMap_append, List.length_append, List.drop_drop]
    simp
  have hpos : 0 < e.messages.length := by cases e <;> simp [Envoi.messages]
  have hlen := List.length_pos_iff.mpr hne
  rw [hr, hdrop, List.length_drop]
  omega

/-- There is a step that brings the end nearer. -/
def Utile (timeRound : Nat) (s : Boucle) : Prop :=
  ∃ e s', aligne timeRound e s = true ∧ step timeRound e s = some s' ∧
    s'.mesure timeRound < s.mesure timeRound

/-- What waits and is not polled any more: nothing. -/
theorem Suivi.isEnded_eq (hp : Suivi s) (ha : s.aTemps = false) : s.isEnded = false := by
  by_contra hf
  rw [(hp.fin (eq_true_of_ne_false hf)).2] at ha
  cases ha

/-- The next message arrives. -/
theorem Inv.utile_arrive (h : Inv envois suite att s) {m : Recu} {reste : List Recu}
    (hr : s.reste = m :: reste) (ha : aligne timeRound .arrive s = true) : Utile timeRound s := by
  refine ⟨.arrive, s.recoit m reste, ha, by rw [step, hr], mesure_lt_of_length ?_⟩
  rw [h.enAttente_recoit, h.enAttente, hr]
  show 2 * reste.length + (att ++ [m]).length < 2 * (m :: reste).length + att.length
  simp only [List.length_append, List.length_cons, List.length_nil]
  omega

/-- The slot is cleared, and nothing was in it. -/
theorem Suivi.utile_lu (hp : Suivi s) {res : String} (hlieu : s.lieu = .lu res) (hres : res = "") :
    Utile timeRound s := by
  have hnew := (hp.lu res hlieu).1.trans hres
  have hs : s.changeTour res = { s with newRound := "", lieu := .tir } := if_pos hres
  refine ⟨.changeTour, s.changeTour res, rfl, by rw [step, hlieu], ?_⟩
  rw [hs]
  refine mesure_lt_of_distance rfl rfl ?_
  rw [distance_tir (.inl hnew), distance_tir (.inl rfl), hlieu]
  exact Nat.lt_succ_self 1

/-- A shot that waits is whole, or the next of its messages arrives. -/
theorem Inv.suite_triple (h : Inv envois suite att s) (ht : s.tirDevant = true) :
    s.tableUpdate.length = 3 ∨
      ∃ m reste, s.reste = m :: reste ∧ aligne timeRound .arrive s = true := by
  rw [h.tirs, List.length_map]
  generalize hr : s.reste = reste
  have hc := h.coupe
  rw [hr] at hc
  generalize hatt : att.filter Recu.estTir = tirs at hc ⊢
  cases hc with
  | vide =>
    rw [h.tirDevant_of_vide (by rw [h.tirs, hatt]; rfl)] at ht
    cases ht
  | un => exact .inr ⟨_, _, rfl, by simp [aligne, hr]⟩
  | deux => exact .inr ⟨_, _, rfl, by simp [aligne, hr]⟩
  | trois => exact .inl rfl

/-- A turn is the oldest to wait. -/
theorem Suivi.utile_tour (h : Inv envois suite att s) (hp : Suivi s) (hne : att ≠ [])
    (ht : s.tirDevant = false) : Utile timeRound s := by
  have hn := h.newRound_of_tour hne ht
  have hd := tourDerriere_of_tirDevant ht
  cases hlieu : s.lieu with
  | debut =>
    have hf := hp.isEnded_eq (by simp [aTemps, hlieu, hn])
    refine ⟨.updateSprites false false, _, by simp [aligne, hd], if_pos hlieu,
      mesure_lt_of_distance rfl rfl ?_⟩
    rw [distance_tour hn ht, distance_tour (s := s.updateSprites timeRound false false) hn ht]
    simp only [Boucle.updateSprites, hf, hlieu, versTour]
    cases s.endRound <;> by_cases hspent : timeRound ≤ s.spentTime <;> simp [hspent]
  | tour =>
    refine ⟨.getNextRound, _, rfl, if_pos hlieu, mesure_lt_of_distance rfl rfl ?_⟩
    rw [distance_tour hn ht, distance_tour (s := s.getNextRound) hn ht]
    simp only [Boucle.getNextRound, hlieu]
    cases s.endRound <;> simp [versTour]
  | lu res =>
    obtain ⟨hnew, -⟩ := hp.lu res hlieu
    have hres : res ≠ "" := by rw [← hnew]; exact hn
    have happ : s.changeTour res = { s with
        newRound := ""
        lieu := .tir
        spentTime := 0
        endRound := false
        appliques := s.appliques ++ [.tour res] } := if_neg hres
    refine ⟨.changeTour, s.changeTour res, rfl, by rw [step, hlieu], ?_⟩
    rw [happ]
    exact mesure_lt_of_applique rfl rfl rfl (by rw [h.enAttente]; exact hne)
  | tir =>
    have hf := hp.isEnded_eq (by simp [aTemps, hlieu, hn])
    refine ⟨.getTableUpdate false, _, by simp [aligne, hd, hf], if_pos hlieu,
      mesure_lt_of_distance rfl rfl ?_⟩
    rw [distance_tour hn ht, distance_tour (s := s.getTableUpdate timeRound false) hn ht, hlieu]
    exact Nat.lt_succ_self 4
  | horloge =>
    refine ⟨.horloge timeRound, _, rfl, if_pos hlieu, mesure_lt_of_distance rfl rfl ?_⟩
    rw [distance_tour hn ht, distance_tour (s := s.horloge timeRound timeRound) hn ht, hlieu]
    have hspent : (s.horloge timeRound timeRound).spentTime = timeRound := by
      simp only [Boucle.horloge, Nat.min_self]
      split <;> omega
    rw [hspent]
    show versTour timeRound s.endRound timeRound .debut < 4
    simp [versTour]
  | fini =>
    have hf := hp.isEnded_eq (by simp [aTemps, hlieu, hn])
    rw [hp.fini hlieu] at hf
    cases hf

/-- A whole shot is the oldest to wait. -/
theorem Suivi.utile_tir (h : Inv envois suite att s) (hp : Suivi s) (hl : s.tableUpdate.length = 3)
    (ht : s.tirDevant = true) : Utile timeRound s := by
  have hne : att ≠ [] := by
    rintro rfl
    rw [h.vide.1] at hl
    cases hl
  have htable : s.tableUpdate ≠ [] := by
    intro hnil
    rw [hnil] at hl
    cases hl
  cases hlieu : s.lieu with
  | debut =>
    have hf := hp.isEnded_eq (by simp [aTemps, hlieu, htable])
    have hround : s.tourDerriere = true → s.endRound = false := by
      intro hd
      by_contra hr
      have hl := hp.derriere hd (eq_true_of_ne_false hr)
      rw [hlieu] at hl
      cases hl
    refine ⟨.updateSprites false true, _, ?_, if_pos hlieu, mesure_lt_of_distance rfl rfl ?_⟩
    · cases hd : s.tourDerriere with
      | false => simp [aligne, hd]
      | true => simp [aligne, Boucle.updateSprites, hround hd]
    · rw [distance_tir (.inr ht), distance_tir (s := s.updateSprites timeRound false true) (.inr ht), hlieu]
      simp only [Boucle.updateSprites, hf]
      exact Nat.lt_succ_self 3
  | tour =>
    refine ⟨.getNextRound, _, rfl, if_pos hlieu, mesure_lt_of_distance rfl rfl ?_⟩
    rw [distance_tir (.inr ht), distance_tir (s := s.getNextRound) (.inr ht), hlieu]
    simp only [Boucle.getNextRound]
    cases s.endRound <;> simp [versTir]
  | lu res =>
    obtain ⟨hnew, htour⟩ := hp.lu res hlieu
    have hres : res = "" := by
      by_contra hres
      rw [htour hres] at ht
      cases ht
    exact hp.utile_lu hlieu hres
  | tir =>
    obtain ⟨a, b, c, habc⟩ := List.length_eq_three.mp hl
    refine ⟨.getTableUpdate true, s.getTableUpdate timeRound true, by simp [aligne, hl, ht],
      if_pos hlieu, ?_⟩
    rw [getTableUpdate_trois timeRound habc]
    exact mesure_lt_of_applique rfl rfl rfl (by rw [h.enAttente]; exact hne)
  | horloge =>
    refine ⟨.horloge 0, _, rfl, if_pos hlieu, mesure_lt_of_distance rfl rfl ?_⟩
    rw [distance_tir (.inr ht), distance_tir (s := s.horloge timeRound 0) (.inr ht), hlieu]
    exact Nat.lt_succ_self 4
  | fini =>
    have hf := hp.isEnded_eq (by simp [aTemps, hlieu, htable])
    rw [hp.fini hlieu] at hf
    cases hf

/-- Nothing waits, and the next shot or turn begins to arrive. -/
theorem Suivi.utile_vide (h : Inv envois suite [] s) (hp : Suivi s) (hr : s.reste ≠ []) :
    Utile timeRound s := by
  obtain ⟨htable, hn⟩ := h.vide
  have hfile : s.reste = suite.flatMap Envoi.messages := h.file
  cases suite with
  | nil => exact absurd hfile hr
  | cons e suite =>
    cases e with
    | tir a b c => exact h.utile_arrive hfile (by simp [aligne, hfile, Envoi.messages, htable])
    | tour next =>
      by_cases hlu : s.lieu.enLecture = true
      · -- The slot is about to be cleared, and nothing is in it.
        cases hlieu : s.lieu with
        | lu res => exact hp.utile_lu hlieu (((hp.lu res hlieu).1).symm.trans hn)
        | _ =>
          rw [hlieu] at hlu
          cases hlu
      · exact h.utile_arrive hfile (by simp [aligne, hfile, Envoi.messages, htable, hn, hlu])

/-- **From every such state the end gets nearer**, until all is applied. -/
theorem acheve_or_utile (timeRound : Nat) (h : Inv envois suite att s) (hp : Suivi s) :
    s.Acheve envois ∨ Utile timeRound s := by
  by_cases hatt : att = []
  · subst hatt
    by_cases hr : s.reste = []
    · left
      have hfile := h.file
      rw [hr] at hfile
      obtain ⟨htable, hn⟩ := h.vide
      refine ⟨hr, ?_, htable, hn⟩
      cases suite with
      | nil => rw [← h.envois, List.append_nil]
      | cons e suite => cases e <;> cases hfile
    · exact .inr (hp.utile_vide h hr)
  · right
    by_cases ht : s.tirDevant = true
    · obtain htrois | ⟨m, reste, hr, ha⟩ := h.suite_triple ht
      · exact hp.utile_tir h htrois ht
      · exact h.utile_arrive hr ha
    · exact hp.utile_tour h hatt (eq_false_of_ne_true ht)

theorem achevable_of_suivi (h : Inv envois suite att s) (hp : Suivi s) :
    Achevable timeRound envois s := by
  have hpas : ∀ t, (Suivi t ∧ ∃ suite att, Inv envois suite att t) → t.Acheve envois ∨
      ∃ e t', (∀ u, step timeRound e t = some u → Fidele envois u) ∧ step timeRound e t = some t' ∧
        (Suivi t' ∧ ∃ suite att, Inv envois suite att t') ∧ t'.mesure timeRound < t.mesure timeRound := by
    rintro t ⟨hpt, suite, att, ht⟩
    obtain hfin | ⟨e, t', ha, hs, hlt⟩ := acheve_or_utile timeRound ht hpt
    · exact .inl hfin
    · have hi := suivi_step ht hpt ha hs
      refine .inr ⟨e, t', fun u hu => ?_, hs, hi, hlt⟩
      obtain ⟨-, suite', att', ht'⟩ := hi
      cases hs.symm.trans hu
      exact ht'.fidele
  obtain ⟨s', hr, -, hfin⟩ := Reach.exists_of_measure (mesure timeRound) hpas
    (show Reach _ _ (· = s) s from .init rfl) ⟨hp, suite, att, h⟩
  exact ⟨s', hr, hfin⟩

/-! ## The other steps -/

/-- What waits is lost or will be out of order: the game is over before it is polled, the slot is polled
before the older shot, or the slot is about to be cleared. -/
inductive Perdu (s : Boucle) : Prop where
  | fin : s.isEnded = true → s.reste = [] → s.aTemps = false → Perdu s
  | ordre : s.tourDerriere = true → s.endRound = true → s.lieu ≠ .tir → Perdu s
  | efface : s.lieu = .lu "" → s.newRound ≠ "" → Perdu s

theorem Perdu.not_acheve (h : Perdu s) : ¬ s.Acheve envois := by
  intro hfin
  cases h with
  | fin _ _ ha =>
    rw [aTemps, hfin.tableUpdate, hfin.newRound] at ha
    split at ha <;> simp at ha
  | ordre hd => exact (tourDerriere_iff.mp hd).2 hfin.newRound
  | efface _ hn => exact hn hfin.newRound

theorem Perdu.recoit {m : Recu} {reste : List Recu} (h : Inv envois suite att s) (hp : Perdu s)
    (hr : s.reste = m :: reste) (ha : intact .arrive s = true) : Perdu (s.recoit m reste) := by
  -- A turn does not arrive in a slot that is taken.
  have hnew : s.newRound ≠ "" → (s.recoit m reste).newRound = s.newRound := by
    intro hn
    cases m with
    | nextRound t => simp [intact, hr, hn] at ha
    | _ => rfl
  cases hp with
  | fin _ hvide =>
    rw [hr] at hvide
    cases hvide
  | ordre hd hround hlieu =>
    obtain ⟨htir, hn⟩ := tourDerriere_iff.mp hd
    refine .ordre (tourDerriere_iff.mpr ⟨?_, by rw [hnew hn]; exact hn⟩) hround hlieu
    rw [h.tirDevant_recoit, if_neg (h.attente_of_newRound hn)]
    exact htir
  | efface hlieu hn => exact .efface hlieu (by rw [hnew hn]; exact hn)

theorem Perdu.updateSprites (hp : Perdu s) (hdebut : s.lieu = .debut) (blesse mouvement : Bool) :
    Perdu (s.updateSprites timeRound blesse mouvement) := by
  cases hp with
  | fin hf hr ht =>
    refine .fin hf hr ?_
    rw [aTemps, hdebut] at ht
    simpa [aTemps, Boucle.updateSprites, hf] using ht
  | ordre hd hround =>
    refine .ordre hd (by simp [Boucle.updateSprites, hround]) ?_
    simp only [Boucle.updateSprites]
    split <;> simp
  | efface hlieu =>
    rw [hdebut] at hlieu
    cases hlieu

theorem Perdu.getNextRound (hp : Perdu s) (htour : s.lieu = .tour) : Perdu s.getNextRound := by
  cases hp with
  | fin hf hr ht =>
    refine .fin hf hr ?_
    simp only [aTemps, htour, Bool.or_eq_false_iff] at ht
    simpa [aTemps, Boucle.getNextRound, ht.1] using ht.2
  | ordre hd hround =>
    refine .ordre hd hround ?_
    simp [Boucle.getNextRound, hround]
  | efface hlieu =>
    rw [htour] at hlieu
    cases hlieu

/-- The slot is not cleared then: that would apply a turn before the older shot, or lose one. -/
theorem Perdu.not_changeTour {res : String} (hp : Perdu s) (hlu : s.lieu = .lu res) :
    intact .changeTour s = false := by
  refine Bool.eq_false_iff.mpr fun ha => ?_
  simp only [intact, hlu, Bool.and_eq_true, Bool.or_eq_true, decide_eq_true_eq] at ha
  cases hp with
  | fin _ _ ht => simp [aTemps, hlu] at ht
  | ordre hd =>
    obtain ⟨htir, hn⟩ := tourDerriere_iff.mp hd
    have htour := ha.2.resolve_left (by rw [← ha.1]; exact hn)
    rw [tirDevant] at htir
    cases hhead : s.enAttente.head? with
    | none => simp [hhead] at htir
    | some m =>
      rw [hhead] at htir htour
      have hm : m.estTir = true := htir
      have hm' : (!m.estTir) = true := htour
      rw [hm] at hm'
      cases hm'
  | efface hlieu hn =>
    rw [hlu] at hlieu
    cases hlieu
    exact absurd ha.1 hn

theorem Perdu.getTableUpdate (hp : Perdu s) (htir : s.lieu = .tir) (verrou : Bool) :
    Perdu (s.getTableUpdate timeRound verrou) := by
  cases hp with
  | fin hf hr ht =>
    simp only [aTemps, htir, decide_eq_false_iff_not] at ht
    exact .fin (by simpa using hf) (by simpa using hr) (by simp [aTemps, ht])
  | ordre _ _ hlieu => exact absurd htir hlieu
  | efface hlieu =>
    rw [htir] at hlieu
    cases hlieu

theorem Perdu.horloge (hp : Perdu s) (hhorloge : s.lieu = .horloge) (tempTime : Nat) :
    Perdu (s.horloge timeRound tempTime) := by
  cases hp with
  | fin hf hr ht =>
    refine .fin hf hr ?_
    rw [aTemps, hhorloge] at ht
    exact ht
  | ordre hd hround => exact .ordre hd hround (by simp [Boucle.horloge])
  | efface hlieu =>
    rw [hhorloge] at hlieu
    cases hlieu

/-- A step that breaks nothing at once saves nothing either. -/
theorem Perdu.step {e : Evenement} (h : Inv envois suite att s) (hp : Perdu s)
    (ha : intact e s = true) (hs : step timeRound e s = some s') : Perdu s' := by
  cases e with
  | arrive =>
    rw [Boucle.step] at hs
    split at hs
    · next m reste hr =>
      cases hs
      exact hp.recoit h hr ha
    · cases hs
  | endGame =>
    obtain ⟨⟨hr, -⟩, hs⟩ := Option.ite_none_right_eq_some.mp hs
    cases hs
    cases hp with
    | fin _ _ ht => exact .fin rfl hr ht
    | ordre hd hround hlieu => exact .ordre hd hround hlieu
    | efface hlieu hn => exact .efface hlieu hn
  | updateSprites blesse mouvement =>
    obtain ⟨hdebut, hs⟩ := Option.ite_none_right_eq_some.mp hs
    cases hs
    exact hp.updateSprites hdebut blesse mouvement
  | getNextRound =>
    obtain ⟨htour, hs⟩ := Option.ite_none_right_eq_some.mp hs
    cases hs
    exact hp.getNextRound htour
  | changeTour =>
    rw [Boucle.step] at hs
    split at hs
    · next res hlu =>
      rw [hp.not_changeTour hlu] at ha
      cases ha
    · cases hs
  | getTableUpdate verrou =>
    obtain ⟨htir, hs⟩ := Option.ite_none_right_eq_some.mp hs
    cases hs
    exact hp.getTableUpdate htir verrou
  | horloge tempTime =>
    obtain ⟨hhorloge, hs⟩ := Option.ite_none_right_eq_some.mp hs
    cases hs
    exact hp.horloge hhorloge tempTime

theorem not_achevable_of_perdu (h : Inv envois suite att s) (hp : Perdu s) :
    ¬ Achevable timeRound envois s := by
  rintro ⟨s', hr, hfin⟩
  have hi : Perdu s' ∧ ∃ suite att, Inv envois suite att s' := by
    apply hr.invariant (I := fun t => Perdu t ∧ ∃ suite att, Inv envois suite att t)
    · rintro _ rfl
      exact ⟨hp, suite, att, h⟩
    · rintro e t t' ⟨hpt, suite, att, ht⟩ hf hs
      have ha := intact_of_fidele ht hs (hf t' hs)
      exact ⟨hpt.step ht ha hs, inv_step e ht ha hs⟩
  exact hi.1.not_acheve hfin

/-- A turn that arrives when it may not is lost in `getNextRound`, or comes out before the shot ahead of it. -/
theorem Perdu.of_nextRound {t : String} {reste : List Recu} (h : Inv envois suite att s) (hp : Suivi s)
    (hr : s.reste = .nextRound t :: reste) (hi : intact .arrive s = true)
    (ha : aligne timeRound .arrive s = false) : Perdu (s.recoit (.nextRound t) reste) := by
  simp only [intact, hr, Bool.and_eq_true, decide_eq_true_eq, ne_eq, decide_not,
    Bool.not_eq_true', decide_eq_false_iff_not] at hi
  obtain ⟨htext, hn⟩ := hi
  by_cases hlu : s.lieu.enLecture = true
  · cases hlieu : s.lieu with
    | lu res =>
      have hres : res = "" := ((hp.lu res hlieu).1).symm.trans hn
      exact .efface (by rw [← hres]; exact hlieu) htext
    | _ =>
      rw [hlieu] at hlu
      cases hlu
  · simp only [aligne, hr, hn, hlu, decide_true, Bool.not_false, Bool.true_and,
      Bool.or_eq_false_iff, Bool.not_eq_false', decide_eq_false_iff_not] at ha
    obtain ⟨⟨htable, hround⟩, hlieu⟩ := ha
    refine .ordre (tourDerriere_iff.mpr ⟨?_, htext⟩) hround hlieu
    -- Only shots wait, and some do.
    have htirs := h.tirs_of_vide hn
    rw [h.tirs, htirs] at htable
    rw [h.tirDevant_recoit, h.tirDevant_eq]
    cases att with
    | nil => cases htable
    | cons m att =>
      rw [if_neg (List.cons_ne_nil _ _)]
      exact List.filter_eq_self.mp htirs m List.mem_cons_self

/-- A poll of the queue that had to succeed and does not. -/
theorem Perdu.of_getTableUpdate {verrou : Bool} (h : Inv envois suite att s) (hp : Suivi s)
    (hi : intact (.getTableUpdate verrou) s = true)
    (ha : aligne timeRound (.getTableUpdate verrou) s = false) :
    Perdu (s.getTableUpdate timeRound verrou) := by
  by_cases hprend : (verrou && decide (s.tableUpdate.length = 3)) = true
  · -- It takes what is not the oldest to wait.
    rw [aligne, if_pos hprend, h.tirDevant_eq] at ha
    simp only [Bool.and_eq_true, decide_eq_true_eq] at hprend
    obtain ⟨rfl, hl⟩ := hprend
    simp only [intact, hl, h.enAttente, Bool.not_true, ne_eq, not_true_eq_false, decide_false,
      Bool.false_or] at hi
    cases att with
    | nil =>
      rw [h.vide.1] at hl
      cases hl
    | cons m att => exact absurd (hi.symm.trans ha) (by decide)
  · have hsans : s.getTableUpdate timeRound verrou = { s with lieu := .horloge } :=
      getTableUpdate_sans timeRound fun hv hl => hprend (by simp [hv, hl])
    rw [aligne, if_neg hprend, Bool.and_eq_false_iff, Bool.not_eq_false', Bool.and_eq_true,
      Bool.or_eq_false_iff, Bool.not_eq_false'] at ha
    rw [hsans]
    rcases ha with ⟨hd, hround⟩ | ⟨hf, htable⟩
    · exact .ordre hd hround (by simp)
    · exact .fin hf (hp.fin hf).1 (by simp only [aTemps, htable, Bool.false_and])

/-- **A step that is not aligned** breaks something at once, or dooms it. -/
theorem perdu_of_not_aligne {e : Evenement} (h : Inv envois suite att s) (hp : Suivi s)
    (hi : intact e s = true) (ha : aligne timeRound e s = false) (hs : step timeRound e s = some s') :
    Perdu s' := by
  cases e with
  | arrive =>
    rw [step] at hs
    split at hs
    · next m reste hr =>
      cases hs
      cases m with
      | shoot a =>
        simp only [intact, hr] at hi
        simp only [aligne, hr] at ha
        rw [hi] at ha
        cases ha
      | nextRound t => exact .of_nextRound h hp hr hi ha
      | updateWall b => simp [aligne, hr] at ha
      | lombDmg c => simp [aligne, hr] at ha
    · cases hs
  | endGame =>
    obtain ⟨⟨hr, -⟩, hs⟩ := Option.ite_none_right_eq_some.mp hs
    cases hs
    exact .fin rfl hr ha
  | updateSprites blesse mouvement =>
    obtain ⟨-, hs⟩ := Option.ite_none_right_eq_some.mp hs
    cases hs
    simp only [aligne, Bool.or_eq_false_iff, Bool.not_eq_false'] at ha
    refine .ordre ha.1 ha.2 ?_
    simp only [Boucle.updateSprites]
    split <;> simp
  | getTableUpdate verrou =>
    obtain ⟨-, hs⟩ := Option.ite_none_right_eq_some.mp hs
    cases hs
    exact .of_getTableUpdate h hp hi ha
  | _ => cases ha

/-! ## Whole games -/

/-- A turn that arrives and breaks nothing has a text. -/
theorem textes_step {e : Evenement} (ha : intact e s = true) (hs : step timeRound e s = some s')
    (h : ∀ t, .nextRound t ∈ s.arrives → t ≠ "") : ∀ t, .nextRound t ∈ s'.arrives → t ≠ "" := by
  obtain ⟨m, reste, rfl, hr, rfl⟩ | ⟨res, rfl, -, rfl⟩ | ⟨verrou, rfl, rfl⟩ | ⟨-, _, _, _, _, _, rfl⟩ :=
    step_cases hs
  · intro t ht
    obtain hm | hm := List.mem_append.mp ht
    · exact h t hm
    · cases List.mem_singleton.mp hm
      simp only [intact, hr, Bool.and_eq_true, decide_eq_true_eq] at ha
      exact ha.1
  · simpa using h
  · simpa using h
  · exact h

/-- A game can be applied whole when none left anything before it, and no turn has an empty text. -/
theorem depart_iff (timeRound : Nat) (h : Depart envois s) :
    Fidele envois s ∧ Achevable timeRound envois s ↔
      s.tableUpdate = [] ∧ s.newRound = "" ∧ ∀ t, .tour t ∈ envois → t ≠ "" := by
  constructor
  · rintro ⟨hf, s', hr, hfin⟩
    have hatt : s.enAttente = [] := by rw [enAttente, h.arrives, List.drop_nil]
    have htable : s.tableUpdate = [] := by rw [hf.tirs, hatt]; rfl
    have hn : s.newRound = "" := by
      have htours := hf.tours
      rw [hatt] at htours
      by_contra hn
      rw [Boucle.tours, if_neg hn] at htours
      cases htours
    refine ⟨htable, hn, fun t ht => ?_⟩
    -- What arrives without breaking anything has a text.
    have hi : (∃ suite att, Inv envois suite att s') ∧ ∀ t, .nextRound t ∈ s'.arrives → t ≠ "" := by
      apply hr.invariant (I := fun u => (∃ suite att, Inv envois suite att u) ∧
        ∀ t, .nextRound t ∈ u.arrives → t ≠ "")
      · rintro _ rfl
        refine ⟨⟨envois, [], .depart h htable hn⟩, fun t hm => ?_⟩
        rw [h.arrives] at hm
        cases hm
      · rintro e u u' ⟨⟨suite, att, hu⟩, hu'⟩ hg hs
        have ha := intact_of_fidele hu hs (hg u' hs)
        exact ⟨inv_step e hu ha hs, textes_step ha hs hu'⟩
    obtain ⟨⟨suite, att, hi⟩, htexte⟩ := hi
    refine htexte t ?_
    rw [hi.arrives, hfin.appliques]
    exact List.mem_append_left _ (List.mem_flatMap.mpr ⟨_, ht, List.mem_singleton.mpr rfl⟩)
  · rintro ⟨htable, hn, ht⟩
    have hi := Inv.depart h htable hn
    exact ⟨hi.fidele, achevable_of_suivi hi (.depart h hn ht)⟩

/-- What an earlier game must not leave, and the room not send. -/
structure Pret (envois : List Envoi) (s : Boucle) : Prop where
  depart : Depart envois s
  tableUpdate : s.tableUpdate = []
  newRound : s.newRound = ""
  textes : ∀ t, .tour t ∈ envois → t ≠ ""

theorem suivi_of_reach (timeRound : Nat) (envois : List Envoi) {s : Boucle}
    (h : Reach (step timeRound) (fun e s => aligne timeRound e s = true) (Pret envois) s) :
    Suivi s ∧ ∃ suite att, Inv envois suite att s := by
  apply h.invariant (I := fun s => Suivi s ∧ ∃ suite att, Inv envois suite att s)
  · intro s hp
    exact ⟨.depart hp.depart hp.newRound hp.textes, envois, [], .depart hp.depart hp.tableUpdate hp.newRound⟩
  · rintro e s s' ⟨hp, suite, att, hi⟩ ha hs
    exact suivi_step hi hp ha hs

/-- **Every shot and every turn is applied once, in order.**  A game starts well exactly when nothing is
left in the queue and the slot and no turn has an empty text; from then on nothing is lost, doubled or
out of order and all can still be applied, up to the first step that is not aligned. -/
theorem fidele_of_reach (timeRound : Nat) (envois : List Envoi) :
    (∀ s, Depart envois s → (Fidele envois s ∧ Achevable timeRound envois s ↔ Pret envois s)) ∧
    ∀ s, Reach (step timeRound) (fun e s => aligne timeRound e s = true) (Pret envois) s →
      (Fidele envois s ∧ Achevable timeRound envois s) ∧
        ∀ e s', step timeRound e s = some s' →
          (Fidele envois s' ∧ Achevable timeRound envois s' ↔ aligne timeRound e s = true) := by
  refine ⟨fun s hd => ?_, fun s h => ?_⟩
  · rw [depart_iff timeRound hd]
    exact ⟨fun ⟨ht, hn, htexte⟩ => ⟨hd, ht, hn, htexte⟩, fun hp => ⟨hp.2, hp.3, hp.4⟩⟩
  · obtain ⟨hp, suite, att, hi⟩ := suivi_of_reach timeRound envois h
    refine ⟨⟨hi.fidele, achevable_of_suivi hi hp⟩, fun e s' hs => ⟨fun ⟨hf, hach⟩ => ?_, fun ha => ?_⟩⟩
    · have hint := intact_of_fidele hi hs hf
      obtain ⟨suite', att', hi'⟩ := inv_step e hi hint hs
      by_contra ha
      exact not_achevable_of_perdu hi' (perdu_of_not_aligne hi hp hint (eq_false_of_ne_true ha) hs) hach
    · obtain ⟨hp', suite', att', hi'⟩ := suivi_step hi hp ha hs
      exact ⟨hi'.fidele, achevable_of_suivi hi' hp'⟩

/-! ## Two runs -/

/-- One shot between two turns. -/
def partieCourte : List Envoi := [.tour "1", .tir "tir" "murs" "degats", .tour "2"]

/-- `initWindow`, after a game that left nothing. -/
def depart (envois : List Envoi) : Boucle where
  reste := envois.flatMap Envoi.messages
  arrives := []
  tableUpdate := []
  newRound := ""
  lieu := .debut
  endRound := true
  spentTime := 0
  endGame := true
  isEnded := false
  appliques := []

theorem depart_depart (envois : List Envoi) : Depart envois (depart envois) :=
  ⟨rfl, rfl, rfl, rfl, rfl, rfl, rfl⟩

/-- A whole frame, at the time `tempTime` of the turn. -/
def image (tour : Bool) (tempTime : Nat) : List Evenement :=
  [.updateSprites false false, .getNextRound] ++ (if tour then [.changeTour] else []) ++
    [.getTableUpdate true, .horloge tempTime]

/-- The clock of the client ends the turn; then the shot and the next turn arrive between two
frames. -/
def horlogeEnAvance : List Evenement :=
  [.arrive] ++ image true 30 ++ [.arrive, .arrive, .arrive, .arrive] ++ image true 0

/-- The slot is polled first: the next turn begins before the shot. -/
theorem tour_avant_tir :
    ∃ s, Reach (step 30) (fun _ _ => True) (Depart partieCourte) s ∧ s.reste = [] ∧
      s.appliques = [.tour "1", .tour "2", .tir "tir" "murs" "degats"] ∧
      ¬ Fidele partieCourte s := by
  obtain ⟨s, -, hr, hp⟩ := exists_of_exec (step 30) (fun _ _ => True) (depart_depart partieCourte)
    horlogeEnAvance
    (fun s => s.reste == [] && s.appliques == [.tour "1", .tour "2", .tir "tir" "murs" "degats"])
    (by decide +kernel)
  simp only [Bool.and_eq_true, beq_iff_eq] at hp
  obtain ⟨hreste, happ⟩ := hp
  refine ⟨s, hr, hreste, happ, fun hf => ?_⟩
  have hordre := hf.ordre
  rw [happ] at hordre
  exact absurd hordre (by decide)

/-- The shot in one frame, the turn in a later one, then END_GAME. -/
def sansHate : List Evenement :=
  [.arrive] ++ image true 1 ++ [.arrive, .arrive, .arrive] ++ image false 2 ++ [.arrive] ++
    image true 0 ++ [.endGame, .updateSprites false false]

/-- All is applied when the game is left. -/
theorem partieCourte_fidele :
    ∃ s, exec (step 30) (fun e s => aligne 30 e s = true) sansHate (depart partieCourte) = some s ∧
      (Fidele partieCourte s ∧ Achevable 30 partieCourte s) ∧ s.lieu = .fini ∧
      s.appliques = partieCourte := by
  have hpret : Pret partieCourte (depart partieCourte) :=
    ⟨depart_depart partieCourte, rfl, rfl, by simp [partieCourte]⟩
  obtain ⟨s, hs, hr, hp⟩ := exists_of_exec (step 30) (fun e s => aligne 30 e s = true) hpret sansHate
    (fun s => s.lieu == .fini && s.appliques == partieCourte) (by decide +kernel)
  simp only [Bool.and_eq_true, beq_iff_eq] at hp
  exact ⟨s, hs, ((fidele_of_reach 30 partieCourte).2 s hr).1, hp⟩

end Boucle
end LombricABrac
