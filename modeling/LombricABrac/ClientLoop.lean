import Mathlib.Data.List.Basic
import LombricABrac.Lib.Runs

/-!
# What the client applies of a game

`Client::run` puts SHOOT, UPDATE_WALL and LOMB_DMG into the queue `tableUpdate` and NEXT_ROUND into
the single slot `newRound`; `partieQT::updateGame` polls the slot first, at the end of a turn only,
then the queue, which `getTableUpdate` reads when it has exactly three entries.  Once END_GAME has
arrived, the next frame leaves the game and nothing is polled any more.  A message arrives between
two steps of a frame; `newRound` has no mutex, so one may also arrive between the copy and the
clearing in `getNextRound`.

    Inv.recoit, Inv.tour, Inv.tir : the steps that change what waits
    inv_step, intact_of_fidele    : the steps that lose, block or reorder nothing at once
-/

namespace LombricABrac

/-! ## Messages -/

/-- A message for the game loop, with its `text`. -/
inductive Recu where
  | shoot (text : String)
  | updateWall (text : String)
  | lombDmg (text : String)
  | nextRound (text : String)
  deriving DecidableEq

/-- What the server sends at once for a shot, or for a turn. -/
inductive Envoi where
  | tir (shoot murs degats : String)
  | tour (next : String)
  deriving DecidableEq

def Envoi.messages : Envoi → List Recu
  | .tir shoot murs degats => [.shoot shoot, .updateWall murs, .lombDmg degats]
  | .tour next => [.nextRound next]

namespace Recu

@[simp] def text : Recu → String
  | .shoot text | .updateWall text | .lombDmg text | .nextRound text => text

@[simp] def estTir : Recu → Bool
  | .nextRound _ => false
  | _ => true

@[simp] def texteTour : Recu → Option String
  | .nextRound text => some text
  | _ => none

end Recu

/-! ## The loop -/

/-- Where a frame is; `lu` is in `getNextRound`, `res` copied and `newRound` not yet cleared; after
`fini` the page is END_SCREEN. -/
inductive Boucle.Moment where
  | debut
  | tour
  | lu (res : String)
  | tir
  | horloge
  | fini
  deriving DecidableEq

/-- `Client` and `partieQT`.  `reste` has not arrived, nor has END_GAME if `endGame`; `isEnded` is `end`
of `Client`; `arrives` and `appliques` are what arrived and what was applied since the start. -/
structure Boucle where
  reste : List Recu
  arrives : List Recu
  tableUpdate : List String
  newRound : String
  lieu : Boucle.Moment
  endRound : Bool
  spentTime : Nat
  endGame : Bool
  isEnded : Bool
  appliques : List Envoi

/-- A step of one of the two threads, with what it depends on besides the state. -/
inductive Boucle.Evenement where
  | arrive
  | endGame
  | updateSprites (blesse mouvement : Bool)
  | getNextRound
  | changeTour
  | getTableUpdate (verrou : Bool)
  | horloge (tempTime : Nat)

namespace Boucle

open Runs

/-- `Client::run` takes a message. -/
def recoit (m : Recu) (reste : List Recu) (s : Boucle) : Boucle :=
  { s with
    reste := reste
    arrives := s.arrives ++ [m]
    tableUpdate := if m.estTir then s.tableUpdate ++ [m.text] else s.tableUpdate
    newRound := if m.estTir then s.newRound else m.text }

/-- The start of `updateGame`, up to `getIsEnded`; `blesse` when the current worm loses life. -/
def updateSprites (timeRound : Nat) (blesse mouvement : Bool) (s : Boucle) : Boucle :=
  let spentTime := if blesse then timeRound else s.spentTime
  { s with
    spentTime := spentTime
    endRound := s.endRound || (decide (timeRound ≤ spentTime) && !mouvement)
    lieu := if s.isEnded then .fini else .tour }

/-- `if(endRound)`, then the copy in `getNextRound`. -/
def getNextRound (s : Boucle) : Boucle :=
  { s with lieu := if s.endRound then .lu s.newRound else .tir }

/-- The clearing in `getNextRound`, and what `updateGame` does with its result. -/
def changeTour (res : String) (s : Boucle) : Boucle :=
  if res = "" then { s with newRound := "", lieu := .tir }
  else { s with
    newRound := ""
    lieu := .tir
    spentTime := 0
    endRound := false
    appliques := s.appliques ++ [.tour res] }

/-- `verrou`: whether `try_lock` succeeds. -/
def getTableUpdate (timeRound : Nat) (verrou : Bool) (s : Boucle) : Boucle :=
  match verrou, s.tableUpdate with
  | true, [shoot, murs, degats] => { s with
      tableUpdate := []
      lieu := .horloge
      spentTime := timeRound
      appliques := s.appliques ++ [.tir shoot murs degats] }
  | _, _ => { s with lieu := .horloge }

/-- The update of `spentTime` that ends the frame. -/
def horloge (timeRound tempTime : Nat) (s : Boucle) : Boucle :=
  { s with
    spentTime :=
      if tempTime ≠ s.spentTime ∧ s.spentTime ≠ timeRound then min tempTime timeRound
      else s.spentTime
    lieu := .debut }

def step (timeRound : Nat) : Evenement → Boucle → Option Boucle
  | .arrive, s =>
    match s.reste with
    | m :: reste => some (s.recoit m reste)
    | [] => none
  | .endGame, s =>
    -- The room sends nothing after it.
    if s.reste = [] ∧ s.endGame = true then some { s with endGame := false, isEnded := true } else none
  | .updateSprites blesse mouvement, s =>
    if s.lieu = .debut then some (s.updateSprites timeRound blesse mouvement) else none
  | .getNextRound, s => if s.lieu = .tour then some s.getNextRound else none
  | .changeTour, s =>
    match s.lieu with
    | .lu res => some (s.changeTour res)
    | _ => none
  | .getTableUpdate verrou, s =>
    if s.lieu = .tir then some (s.getTableUpdate timeRound verrou) else none
  | .horloge tempTime, s =>
    if s.lieu = .horloge then some (s.horloge timeRound tempTime) else none

/-- START and `initWindow`, before anything arrives; the queue and the slot are what an earlier game left. -/
structure Depart (envois : List Envoi) (s : Boucle) : Prop where
  reste : s.reste = envois.flatMap Envoi.messages
  arrives : s.arrives = []
  lieu : s.lieu = .debut
  endRound : s.endRound = true
  spentTime : s.spentTime = 0
  isEnded : s.isEnded = false
  appliques : s.appliques = []

/-- What has arrived and is not applied, the oldest first. -/
def enAttente (s : Boucle) : List Recu := s.arrives.drop (s.appliques.flatMap Envoi.messages).length

/-- The slot, seen as a queue. -/
def tours (s : Boucle) : List String := if s.newRound = "" then [] else [s.newRound]

/-- Every shot and every turn is applied once and in order: those applied are the first ones sent,
those that wait are where the loop looks for them, and the queue is not stuck. -/
structure Fidele (envois : List Envoi) (s : Boucle) : Prop where
  ordre : s.appliques <+: envois
  entier : s.appliques.flatMap Envoi.messages ++ (s.enAttente ++ s.reste) =
    envois.flatMap Envoi.messages
  tirs : s.tableUpdate = (s.enAttente.filter Recu.estTir).map Recu.text
  tours : s.tours = s.enAttente.filterMap Recu.texteTour
  lisible : s.tableUpdate.length ≤ 3
  complet : s.reste = [] → s.tableUpdate = [] ∨ s.tableUpdate.length = 3

/-- What breaks nothing at once: a shot arrives in an empty queue, a turn in an empty slot, the slot is
cleared of what was copied, and a frame takes nothing that is not the oldest to wait. -/
def intact : Evenement → Boucle → Bool
  | .arrive, s =>
    match s.reste with
    | .shoot _ :: _ => s.tableUpdate.isEmpty
    | .nextRound text :: _ => text ≠ "" && s.newRound = ""
    | _ => true
  | .changeTour, s =>
    match s.lieu with
    | .lu res => s.newRound = res && (res = "" || s.enAttente.head?.all fun m => !m.estTir)
    | _ => true
  | .getTableUpdate verrou, s =>
    !verrou || s.tableUpdate.length ≠ 3 || s.enAttente.head?.all Recu.estTir
  | _, _ => true

/-! ## What a step does -/

/-- A step is an arrival, a poll of the slot or of the queue, or the frame alone goes on. -/
theorem step_cases {timeRound : Nat} {e : Evenement} {s s' : Boucle}
    (hs : step timeRound e s = some s') :
    (∃ m reste, e = .arrive ∧ s.reste = m :: reste ∧ s' = s.recoit m reste) ∨
    (∃ res, e = .changeTour ∧ s.lieu = .lu res ∧ s' = s.changeTour res) ∨
    (∃ verrou, e = .getTableUpdate verrou ∧ s' = s.getTableUpdate timeRound verrou) ∨
    (intact e s = true ∧ ∃ lieu endRound spentTime endGame isEnded,
      s' = { s with lieu, endRound, spentTime, endGame, isEnded }) := by
  cases e with
  | arrive =>
    rw [step] at hs
    split at hs
    · next m reste hr =>
      cases hs
      exact .inl ⟨m, reste, rfl, hr, rfl⟩
    · simp at hs
  | changeTour =>
    rw [step] at hs
    split at hs
    · next res hlieu =>
      cases hs
      exact .inr (.inl ⟨res, rfl, hlieu, rfl⟩)
    · simp at hs
  | getTableUpdate verrou =>
    obtain ⟨-, hs⟩ := Option.ite_none_right_eq_some.mp hs
    cases hs
    exact .inr (.inr (.inl ⟨verrou, rfl, rfl⟩))
  | endGame =>
    obtain ⟨-, hs⟩ := Option.ite_none_right_eq_some.mp hs
    cases hs
    exact .inr (.inr (.inr ⟨rfl, s.lieu, s.endRound, s.spentTime, _, _, rfl⟩))
  | updateSprites blesse mouvement =>
    obtain ⟨-, hs⟩ := Option.ite_none_right_eq_some.mp hs
    cases hs
    exact .inr (.inr (.inr ⟨rfl, _, _, _, s.endGame, s.isEnded, rfl⟩))
  | getNextRound =>
    obtain ⟨-, hs⟩ := Option.ite_none_right_eq_some.mp hs
    cases hs
    exact .inr (.inr (.inr ⟨rfl, _, s.endRound, s.spentTime, s.endGame, s.isEnded, rfl⟩))
  | horloge tempTime =>
    obtain ⟨-, hs⟩ := Option.ite_none_right_eq_some.mp hs
    cases hs
    exact .inr (.inr (.inr ⟨rfl, _, s.endRound, _, s.endGame, s.isEnded, rfl⟩))

section

variable (res : String) (timeRound : Nat) (verrou : Bool) (s : Boucle)

@[simp] theorem changeTour_lieu : (s.changeTour res).lieu = .tir := by
  unfold changeTour
  split <;> rfl

@[simp] theorem changeTour_newRound : (s.changeTour res).newRound = "" := by
  unfold changeTour
  split <;> rfl

@[simp] theorem changeTour_reste : (s.changeTour res).reste = s.reste := by
  unfold changeTour
  split <;> rfl

@[simp] theorem changeTour_arrives : (s.changeTour res).arrives = s.arrives := by
  unfold changeTour
  split <;> rfl

@[simp] theorem changeTour_isEnded : (s.changeTour res).isEnded = s.isEnded := by
  unfold changeTour
  split <;> rfl

@[simp] theorem getTableUpdate_lieu : (s.getTableUpdate timeRound verrou).lieu = .horloge := by
  unfold getTableUpdate
  split <;> rfl

@[simp] theorem getTableUpdate_newRound :
    (s.getTableUpdate timeRound verrou).newRound = s.newRound := by
  unfold getTableUpdate
  split <;> rfl

@[simp] theorem getTableUpdate_reste : (s.getTableUpdate timeRound verrou).reste = s.reste := by
  unfold getTableUpdate
  split <;> rfl

@[simp] theorem getTableUpdate_arrives : (s.getTableUpdate timeRound verrou).arrives = s.arrives := by
  unfold getTableUpdate
  split <;> rfl

@[simp] theorem getTableUpdate_isEnded :
    (s.getTableUpdate timeRound verrou).isEnded = s.isEnded := by
  unfold getTableUpdate
  split <;> rfl

end

theorem getTableUpdate_trois (timeRound : Nat) {s : Boucle} {a b c : String}
    (ht : s.tableUpdate = [a, b, c]) :
    s.getTableUpdate timeRound true = { s with
      tableUpdate := []
      lieu := .horloge
      spentTime := timeRound
      appliques := s.appliques ++ [.tir a b c] } := by
  simp only [getTableUpdate, ht]

theorem getTableUpdate_sans (timeRound : Nat) {verrou : Bool} {s : Boucle}
    (h : verrou = true → s.tableUpdate.length ≠ 3) :
    s.getTableUpdate timeRound verrou = { s with lieu := .horloge } := by
  rw [getTableUpdate]
  intro shoot murs degats hv ht
  exact h hv (by rw [ht]; rfl)

/-! ## The invariant -/

/-- Where the arrivals stand in a triple: the shots that wait, and what is still to arrive. -/
inductive Coupe : List Recu → List Recu → Prop
  | vide (suite : List Envoi) : Coupe [] (suite.flatMap Envoi.messages)
  | un (a b c : String) (suite : List Envoi) :
      Coupe [.shoot a] (.updateWall b :: .lombDmg c :: suite.flatMap Envoi.messages)
  | deux (a b c : String) (suite : List Envoi) :
      Coupe [.shoot a, .updateWall b] (.lombDmg c :: suite.flatMap Envoi.messages)
  | trois (a b c : String) (suite : List Envoi) :
      Coupe [.shoot a, .updateWall b, .lombDmg c] (suite.flatMap Envoi.messages)

namespace Coupe

theorem length_le {tirs reste : List Recu} (h : Coupe tirs reste) : tirs.length ≤ 3 := by
  cases h <;> simp

theorem complet {tirs reste : List Recu} (h : Coupe tirs reste) (hr : reste = []) :
    tirs = [] ∨ tirs.length = 3 := by
  cases h with
  | vide => exact .inl rfl
  | un => cases hr
  | deux => cases hr
  | trois => exact .inr rfl

/-- A shot is next: no triple is half arrived. -/
theorem of_shoot {tirs reste reste' : List Recu} {a : String} (h : Coupe tirs reste)
    (hr : reste = .shoot a :: reste') : tirs = [] ∨ tirs.length = 3 := by
  cases h with
  | vide => exact .inl rfl
  | un => cases hr
  | deux => cases hr
  | trois => exact .inr rfl

/-- A message arrives; SHOOT only when no shot waits. -/
theorem recoit {tirs reste : List Recu} {m : Recu} (h : Coupe tirs (m :: reste))
    (hm : ∀ a, m = .shoot a → tirs = []) : Coupe (tirs ++ [m].filter Recu.estTir) reste := by
  generalize hr : m :: reste = tout at h
  cases h with
  | vide suite =>
    cases suite with
    | nil => simp at hr
    | cons e suite =>
      cases e with
      | tir a b c =>
        cases hr
        exact .un a b c suite
      | tour next =>
        cases hr
        exact .vide suite
  | un a b c suite =>
    cases hr
    exact .deux a b c suite
  | deux a b c suite =>
    cases hr
    exact .trois a b c suite
  | trois a b c suite =>
    cases suite with
    | nil => simp at hr
    | cons e suite =>
      cases e with
      | tir a' b' c' =>
        cases hr
        cases hm a' rfl
      | tour next =>
        cases hr
        exact .trois a b c suite

/-- The triple is taken. -/
theorem prend {tirs reste : List Recu} (h : Coupe tirs reste) (hl : tirs.length = 3) :
    Coupe [] reste := by
  cases h with
  | vide => cases hl
  | un => cases hl
  | deux => cases hl
  | trois a b c suite => exact .vide suite

end Coupe

/-- `suite` is not applied yet; `att` waits. -/
structure Inv (envois suite : List Envoi) (att : List Recu) (s : Boucle) : Prop where
  envois : s.appliques ++ suite = envois
  arrives : s.arrives = s.appliques.flatMap Envoi.messages ++ att
  file : att ++ s.reste = suite.flatMap Envoi.messages
  tirs : s.tableUpdate = (att.filter Recu.estTir).map Recu.text
  tours : s.tours = att.filterMap Recu.texteTour
  coupe : Coupe (att.filter Recu.estTir) s.reste

namespace Inv

variable {envois suite : List Envoi} {att : List Recu} {s : Boucle}

theorem enAttente (h : Inv envois suite att s) : s.enAttente = att := by
  rw [Boucle.enAttente, h.arrives, List.drop_left]

theorem fidele (h : Inv envois suite att s) : Fidele envois s where
  ordre := ⟨suite, h.envois⟩
  entier := by rw [h.enAttente, h.file, ← List.flatMap_append, h.envois]
  tirs := by rw [h.enAttente]; exact h.tirs
  tours := by rw [h.enAttente]; exact h.tours
  lisible := by
    rw [h.tirs, List.length_map]
    exact h.coupe.length_le
  complet := by
    intro hr
    have hc := h.coupe
    rw [h.tirs, List.length_map, List.map_eq_nil_iff]
    exact hc.complet hr

/-- At the start, when no game left anything. -/
theorem depart (h : Depart envois s) (ht : s.tableUpdate = []) (hn : s.newRound = "") :
    Inv envois envois [] s where
  envois := by rw [h.appliques]; rfl
  arrives := by rw [h.arrives, h.appliques]; rfl
  file := h.reste
  tirs := ht
  tours := if_pos hn
  coupe := by rw [h.reste]; exact .vide envois

/-- The frame alone goes on. -/
theorem avance (h : Inv envois suite att s) (lieu : Moment) (endRound : Bool) (spentTime : Nat)
    (endGame isEnded : Bool) :
    Inv envois suite att { s with lieu, endRound, spentTime, endGame, isEnded } where
  envois := h.envois
  arrives := h.arrives
  file := h.file
  tirs := h.tirs
  tours := h.tours
  coupe := h.coupe

/-- A message arrives where its place is free. -/
theorem recoit {m : Recu} {reste : List Recu} (h : Inv envois suite att s)
    (hr : s.reste = m :: reste) (hs : ∀ a, m = .shoot a → s.tableUpdate = [])
    (ht : ∀ t, m = .nextRound t → t ≠ "" ∧ s.newRound = "") :
    Inv envois suite (att ++ [m]) (s.recoit m reste) where
  envois := h.envois
  arrives := by
    rw [Boucle.recoit, h.arrives, List.append_assoc]
  file := by
    rw [List.append_assoc, ← h.file, hr]
    rfl
  tirs := by
    rw [List.filter_append, List.map_append, ← h.tirs]
    cases m with
    | nextRound t => exact (List.append_nil _).symm
    | _ => rfl
  tours := by
    rw [List.filterMap_append, ← h.tours]
    cases m with
    | nextRound t =>
      obtain ⟨hne, hnew⟩ := ht t rfl
      simp [Boucle.recoit, Boucle.tours, Recu.estTir, Recu.text, Recu.texteTour, hne, hnew]
    | _ => exact (List.append_nil _).symm
  coupe := by
    have hc := h.coupe
    rw [hr] at hc
    rw [List.filter_append]
    refine hc.recoit fun a ha => ?_
    have hnil := hs a ha
    rw [h.tirs, List.map_eq_nil_iff] at hnil
    exact hnil

/-- The oldest to wait is the start of the first that is not applied. -/
theorem premier (h : Inv envois suite att s) (hne : att ≠ []) :
    (∃ t suite' att', suite = .tour t :: suite' ∧ att = .nextRound t :: att' ∧
      att' ++ s.reste = suite'.flatMap Envoi.messages) ∨
    ∃ a b c suite' att', suite = .tir a b c :: suite' ∧ att = .shoot a :: att' ∧
      att' ++ s.reste = .updateWall b :: .lombDmg c :: suite'.flatMap Envoi.messages := by
  have hf := h.file
  cases att with
  | nil => exact absurd rfl hne
  | cons m att' =>
    cases suite with
    | nil => simp at hf
    | cons e suite' =>
      cases e with
      | tour t =>
        obtain ⟨rfl, hreste⟩ := List.cons.inj hf
        exact .inl ⟨t, suite', att', rfl, rfl, hreste⟩
      | tir a b c =>
        obtain ⟨rfl, hreste⟩ := List.cons.inj hf
        exact .inr ⟨a, b, c, suite', att', rfl, rfl, hreste⟩

theorem attente_of_newRound (h : Inv envois suite att s) (hn : s.newRound ≠ "") : att ≠ [] := by
  rintro rfl
  have ht := h.tours
  rw [Boucle.tours, if_neg hn] at ht
  cases ht

/-- The turn in the slot is taken, and it is the oldest to wait. -/
theorem tour {res : String} (h : Inv envois suite att s) (hres : res ≠ "")
    (hn : s.newRound = res) (hp : att.head?.all (fun m => !m.estTir) = true) :
    ∃ suite' att', Inv envois suite' att' (s.changeTour res) := by
  have htours := h.tours
  rw [Boucle.tours, hn, if_neg hres] at htours
  obtain ⟨t, suite', att', rfl, rfl, hfile⟩ | ⟨a, b, c, suite', att', rfl, rfl, hfile⟩ :=
    h.premier (h.attente_of_newRound (by rw [hn]; exact hres))
  · obtain ⟨rfl, hvide⟩ := List.cons.inj htours
    refine ⟨suite', att', ?_⟩
    rw [Boucle.changeTour, if_neg hres]
    exact {
      envois := by rw [← h.envois, List.append_assoc]; rfl
      arrives := by
        rw [h.arrives, List.flatMap_append, List.append_assoc]
        rfl
      file := hfile
      tirs := h.tirs
      tours := hvide
      coupe := h.coupe }
  · simp at hp

/-- The three texts of the queue are those of the first that is not applied. -/
theorem triple (h : Inv envois suite att s) (hl : s.tableUpdate.length = 3)
    (hp : att.head?.all Recu.estTir = true) :
    ∃ a b c suite' att', suite = .tir a b c :: suite' ∧
      att = .shoot a :: .updateWall b :: .lombDmg c :: att' ∧
      att' ++ s.reste = suite'.flatMap Envoi.messages := by
  rw [h.tirs, List.length_map] at hl
  obtain ⟨t, suite', att', rfl, rfl, hfile⟩ | ⟨a, b, c, suite', att', rfl, rfl, hfile⟩ :=
    h.premier (by rintro rfl; cases hl)
  · simp at hp
  · -- Two more shots wait, and what follows SHOOT is known.
    cases att' with
    | nil => cases hl
    | cons m₁ att₁ =>
      obtain ⟨rfl, hfile₁⟩ := List.cons.inj hfile
      cases att₁ with
      | nil => cases hl
      | cons m₂ att₂ =>
        obtain ⟨rfl, hfile₂⟩ := List.cons.inj hfile₁
        exact ⟨a, b, c, suite', att₂, rfl, rfl, hfile₂⟩

/-- The triple in the queue is taken, and it is the oldest to wait. -/
theorem tir (timeRound : Nat) (h : Inv envois suite att s) (hl : s.tableUpdate.length = 3)
    (hp : att.head?.all Recu.estTir = true) :
    ∃ suite' att', Inv envois suite' att' (s.getTableUpdate timeRound true) := by
  obtain ⟨a, b, c, suite', att', rfl, rfl, hfile⟩ := h.triple hl hp
  have htirs := h.tirs
  have hc := h.coupe
  rw [h.tirs, List.length_map] at hl
  have hvide : att'.filter Recu.estTir = [] := by
    have hl' : (att'.filter Recu.estTir).length + 3 = 3 := hl
    exact List.length_eq_zero_iff.mp (by omega)
  have htable : s.tableUpdate = [a, b, c] := by
    rw [htirs]
    simp [List.filter_cons, hvide]
  refine ⟨suite', att', ?_⟩
  rw [getTableUpdate_trois timeRound htable]
  exact {
    envois := by rw [← h.envois, List.append_assoc]; rfl
    arrives := by
      rw [h.arrives, List.flatMap_append, List.append_assoc]
      rfl
    file := hfile
    tirs := by rw [hvide]; rfl
    tours := h.tours
    coupe := by rw [hvide]; exact hc.prend hl }

end Inv

/-! ## Steps that break nothing -/

variable {envois suite : List Envoi} {att : List Recu} {s s' : Boucle} {timeRound : Nat}

theorem Inv.getTableUpdate (h : Inv envois suite att s) {verrou : Bool}
    (ha : intact (.getTableUpdate verrou) s = true) :
    ∃ suite' att', Inv envois suite' att' (s.getTableUpdate timeRound verrou) := by
  by_cases hprend : verrou = true ∧ s.tableUpdate.length = 3
  · obtain ⟨rfl, hl⟩ := hprend
    simp only [intact, hl, h.enAttente] at ha
    exact h.tir timeRound hl (by simpa using ha)
  · rw [getTableUpdate_sans timeRound fun hv hl => hprend ⟨hv, hl⟩]
    exact ⟨suite, att, h.avance .horloge s.endRound s.spentTime s.endGame s.isEnded⟩

theorem Inv.changeTour (h : Inv envois suite att s) {res : String} (hlieu : s.lieu = .lu res)
    (ha : intact .changeTour s = true) :
    ∃ suite' att', Inv envois suite' att' (s.changeTour res) := by
  simp only [intact, hlieu, h.enAttente, Bool.and_eq_true, decide_eq_true_eq,
    Bool.or_eq_true] at ha
  obtain ⟨hn, hp⟩ := ha
  by_cases hres : res = ""
  · refine ⟨suite, att, ?_⟩
    rw [Boucle.changeTour, if_pos hres]
    have hvide : s.newRound = "" := hn.trans hres
    have h' := h.avance .tir s.endRound s.spentTime s.endGame s.isEnded
    rw [← hvide]
    exact h'
  · exact h.tour hres hn (hp.resolve_left hres)

theorem Inv.arrive (h : Inv envois suite att s) {m : Recu} {reste : List Recu}
    (hr : s.reste = m :: reste) (ha : intact .arrive s = true) :
    Inv envois suite (att ++ [m]) (s.recoit m reste) := by
  apply h.recoit hr
  · rintro a rfl
    simpa [intact, hr] using ha
  · rintro t rfl
    simpa [intact, hr] using ha

theorem inv_step (e : Evenement) (h : Inv envois suite att s) (ha : intact e s = true)
    (hs : step timeRound e s = some s') : ∃ suite' att', Inv envois suite' att' s' := by
  obtain ⟨m, reste, rfl, hr, rfl⟩ | ⟨res, rfl, hlieu, rfl⟩ | ⟨verrou, rfl, rfl⟩ |
    ⟨-, lieu, endRound, spentTime, endGame, isEnded, rfl⟩ := step_cases hs
  · exact ⟨suite, att ++ [m], h.arrive hr ha⟩
  · exact h.changeTour hlieu ha
  · exact h.getTableUpdate ha
  · exact ⟨suite, att, h.avance lieu endRound spentTime endGame isEnded⟩

/-! ## Steps that break something -/

theorem Inv.enAttente_recoit (h : Inv envois suite att s) (m : Recu) (reste : List Recu) :
    (s.recoit m reste).enAttente = att ++ [m] := by
  show (s.arrives ++ [m]).drop (s.appliques.flatMap Envoi.messages).length = att ++ [m]
  rw [h.arrives, List.append_assoc, List.drop_left]

/-- What is applied next is the first that is not applied. -/
theorem Inv.prochain {e : Envoi} (h : Inv envois suite att s)
    (he : s.appliques ++ [e] <+: envois) : ∃ suite', suite = e :: suite' := by
  obtain ⟨suite', hs⟩ := he
  rw [← h.envois, List.append_assoc] at hs
  exact ⟨suite', (List.append_cancel_left hs).symm⟩

theorem Inv.intact_arrive (h : Inv envois suite att s) {m : Recu} {reste : List Recu}
    (hr : s.reste = m :: reste) (hf : Fidele envois (s.recoit m reste)) :
    intact .arrive s = true := by
  simp only [intact, hr]
  split
  · next a reste' heq =>
    obtain ⟨rfl, rfl⟩ := List.cons.inj heq
    have hlisible : (s.tableUpdate ++ [a]).length ≤ 3 := hf.lisible
    rw [h.tirs, List.length_append, List.length_map, List.length_singleton] at hlisible
    obtain hnil | htrois := h.coupe.of_shoot hr
    · rw [h.tirs, hnil]
      rfl
    · omega
  · next t reste' heq =>
    obtain ⟨rfl, rfl⟩ := List.cons.inj heq
    have htours : (s.recoit (.nextRound t) reste).tours = s.tours ++ [t] := by
      rw [hf.tours, h.enAttente_recoit, List.filterMap_append, ← h.tours]
      rfl
    by_cases ht : t = ""
    · simp [Boucle.tours, Boucle.recoit, ht] at htours
    · by_cases hn : s.newRound = ""
      · simp [ht, hn]
      · simp [Boucle.tours, Boucle.recoit, ht, hn] at htours
  · rfl

theorem Inv.intact_changeTour (h : Inv envois suite att s) {res : String}
    (hlieu : s.lieu = .lu res) (hf : Fidele envois (s.changeTour res)) :
    intact .changeTour s = true := by
  simp only [intact, hlieu, h.enAttente, Bool.and_eq_true, decide_eq_true_eq, Bool.or_eq_true]
  by_cases hres : res = ""
  · -- The slot is empty afterwards, so no turn waits.
    refine ⟨?_, .inl hres⟩
    have htours := hf.tours
    rw [Boucle.changeTour, if_pos hres] at htours
    have hvide : s.tours = [] := by
      rw [h.tours, ← h.enAttente]
      exact htours.symm
    by_contra hn
    rw [hres] at hn
    rw [Boucle.tours, if_neg hn] at hvide
    cases hvide
  · rw [Boucle.changeTour, if_neg hres] at hf
    obtain ⟨suite', rfl⟩ := h.prochain hf.ordre
    by_cases hatt : att = []
    · -- The turn is applied before it is received: there is one message too many.
      have hlen := congrArg List.length hf.entier
      have hfile := congrArg List.length h.file
      rw [← h.envois] at hlen
      simp only [hatt, List.flatMap_append, List.length_append, List.length_nil, List.flatMap_cons,
        List.flatMap_nil, Envoi.messages, List.length_singleton] at hlen hfile
      omega
    · obtain ⟨t, suite₁, att₁, hsuite, rfl, -⟩ | ⟨a, b, c, suite₁, att₁, hsuite, -⟩ :=
        h.premier hatt
      · cases hsuite
        refine ⟨?_, .inr rfl⟩
        have htours := h.tours
        rw [Boucle.tours] at htours
        split at htours
        · simp at htours
        · exact (List.cons.inj htours).1
      · simp at hsuite

theorem Inv.intact_getTableUpdate (h : Inv envois suite att s) {verrou : Bool}
    (hf : Fidele envois (s.getTableUpdate timeRound verrou)) :
    intact (.getTableUpdate verrou) s = true := by
  by_cases hprend : verrou = true ∧ s.tableUpdate.length = 3
  · obtain ⟨rfl, hl⟩ := hprend
    obtain ⟨a, b, c, htable⟩ := List.length_eq_three.mp hl
    rw [getTableUpdate_trois timeRound htable] at hf
    obtain ⟨suite', rfl⟩ := h.prochain hf.ordre
    have hatt : att ≠ [] := by
      rintro rfl
      rw [h.tirs] at hl
      cases hl
    obtain ⟨t, suite₁, att₁, hsuite, -⟩ | ⟨x, y, z, suite₁, att₁, -, rfl, -⟩ := h.premier hatt
    · simp at hsuite
    · simp [intact, h.enAttente]
  · simp only [intact, Bool.or_eq_true, Bool.not_eq_true', decide_eq_true_eq]
    by_cases hv : verrou = false
    · exact .inl (.inl hv)
    · exact .inl (.inr fun hl => hprend ⟨eq_true_of_ne_false hv, hl⟩)

/-- A step after which all is faithful breaks nothing. -/
theorem intact_of_fidele {e : Evenement} (h : Inv envois suite att s)
    (hs : step timeRound e s = some s') (hf : Fidele envois s') : intact e s = true := by
  obtain ⟨m, reste, rfl, hr, rfl⟩ | ⟨res, rfl, hlieu, rfl⟩ | ⟨verrou, rfl, rfl⟩ | ⟨ha, -⟩ :=
    step_cases hs
  · exact h.intact_arrive hr hf
  · exact h.intact_changeTour hlieu hf
  · exact h.intact_getTableUpdate hf
  · exact ha

end Boucle
end LombricABrac
