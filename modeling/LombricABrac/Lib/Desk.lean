import Mathlib.Data.List.Infix

/-!
# A queue at a desk

Clients come, and tickets come.  A ticket goes to the client who has waited longest; it is lost where
nobody waits.

    served_append_waiting : the clients are served in the order in which they came
    served_tickets        : a ticket serves one client at most
    isGreatest_waiting    : the queue is no longer than the tickets make it
-/

namespace Desk

variable {κ τ : Type}

inductive Event (κ τ : Type) where
  | client (k : κ)
  | ticket (t : τ)

def Event.client? : Event κ τ → Option κ
  | .client k => some k
  | .ticket _ => none

def Event.ticket? : Event κ τ → Option τ
  | .client _ => none
  | .ticket t => some t

/-- Who waits, and who was served with which ticket, in order. -/
structure State (κ τ : Type) where
  waiting : List κ
  served : List (κ × τ)

/-- A ticket goes to the head of the queue. -/
def State.serve (t : τ) : State κ τ → State κ τ
  | ⟨[], served⟩ => ⟨[], served⟩
  | ⟨k :: waiting, served⟩ => ⟨waiting, served ++ [(k, t)]⟩

def State.step (s : State κ τ) : Event κ τ → State κ τ
  | .client k => { s with waiting := s.waiting ++ [k] }
  | .ticket t => s.serve t

/-- What a list of events makes of an empty desk. -/
def run (l : List (Event κ τ)) : State κ τ := l.foldl State.step ⟨[], []⟩

/-- How many clients some events bring. -/
def clients (l : List (Event κ τ)) : Nat := (l.filterMap Event.client?).length

/-- How many tickets they bring. -/
def tickets (l : List (Event κ τ)) : Nat := (l.filterMap Event.ticket?).length

theorem run_concat (l : List (Event κ τ)) (e : Event κ τ) : run (l ++ [e]) = (run l).step e :=
  List.foldl_concat ..

theorem clients_concat (l : List (Event κ τ)) (e : Event κ τ) :
    clients (l ++ [e]) = clients l + if e.client?.isSome then 1 else 0 := by
  unfold clients
  rw [List.filterMap_append, List.length_append]
  cases e with
  | client k => rfl
  | ticket t => rfl

theorem tickets_concat (l : List (Event κ τ)) (e : Event κ τ) :
    tickets (l ++ [e]) = tickets l + if e.ticket?.isSome then 1 else 0 := by
  unfold tickets
  rw [List.filterMap_append, List.length_append]
  cases e with
  | client k => rfl
  | ticket t => rfl

/-- **First come, first served.** -/
theorem served_append_waiting (l : List (Event κ τ)) :
    (run l).served.map Prod.fst ++ (run l).waiting = l.filterMap Event.client? := by
  induction l using List.reverseRecOn with
  | nil => rfl
  | append_singleton l e ih =>
    rw [run_concat, List.filterMap_append, ← ih]
    cases e with
    | client k => exact (List.append_assoc _ _ _).symm
    | ticket t =>
      show _ = _ ++ []
      rw [List.append_nil]
      obtain ⟨waiting, served⟩ := run l
      cases waiting with
      | nil => rfl
      | cons k waiting =>
        show (served ++ [(k, t)]).map Prod.fst ++ waiting = served.map Prod.fst ++ k :: waiting
        rw [List.map_append, List.append_assoc]
        rfl

/-- **One client for a ticket**, in the order of the tickets. -/
theorem served_tickets (l : List (Event κ τ)) :
    ((run l).served.map Prod.snd).Sublist (l.filterMap Event.ticket?) := by
  induction l using List.reverseRecOn with
  | nil => exact List.Sublist.slnil
  | append_singleton l e ih =>
    rw [run_concat, List.filterMap_append]
    cases e with
    | client k => exact ih.trans (List.sublist_append_left _ _)
    | ticket t =>
      generalize run l = s at ih ⊢
      obtain ⟨waiting, served⟩ := s
      cases waiting with
      | nil => exact ih.trans (List.sublist_append_left _ _)
      | cons k waiting =>
        show ((served ++ [(k, t)]).map Prod.snd).Sublist _
        rw [List.map_append]
        exact ih.append (List.Sublist.refl [t])

/-- Since any time, the clients who came wait or took a ticket that came since. -/
theorem clients_le_waiting (l : List (Event κ τ)) :
    ∀ b, b <:+ l → clients b ≤ (run l).waiting.length + tickets b := by
  induction l using List.reverseRecOn with
  | nil =>
    intro b hb
    rw [List.suffix_nil.mp hb]
    exact Nat.zero_le _
  | append_singleton l e ih =>
    intro b hb
    rcases List.suffix_concat_iff.mp hb with rfl | ⟨b, rfl, hsuf⟩
    · exact Nat.zero_le _
    · have hl := ih b hsuf
      rw [run_concat, clients_concat, tickets_concat]
      generalize run l = s at hl ⊢
      obtain ⟨waiting, served⟩ := s
      replace hl : clients b ≤ waiting.length + tickets b := hl
      cases e with
      | client k =>
        show clients b + 1 ≤ (waiting ++ [k]).length + (tickets b + 0)
        rw [List.length_append, List.length_singleton]
        omega
      | ticket t =>
        show clients b + 0 ≤ (State.serve t ⟨waiting, served⟩).waiting.length + (tickets b + 1)
        cases waiting with
        | nil =>
          show clients b + 0 ≤ 0 + (tickets b + 1)
          rw [List.length_nil] at hl
          omega
        | cons k waiting =>
          show clients b + 0 ≤ waiting.length + (tickets b + 1)
          rw [List.length_cons] at hl
          omega

/-- Since the time when nobody waited last, every ticket served a client. -/
theorem exists_clients_eq (l : List (Event κ τ)) :
    ∃ b, b <:+ l ∧ clients b = (run l).waiting.length + tickets b := by
  induction l using List.reverseRecOn with
  | nil => exact ⟨[], List.suffix_rfl, rfl⟩
  | append_singleton l e ih =>
    obtain ⟨b, hb, hl⟩ := ih
    have hnew : b ++ [e] <:+ l ++ [e] := List.suffix_concat_iff.mpr (.inr ⟨b, rfl, hb⟩)
    rw [run_concat]
    generalize run l = s at hl ⊢
    obtain ⟨waiting, served⟩ := s
    replace hl : clients b = waiting.length + tickets b := hl
    cases e with
    | client k =>
      refine ⟨b ++ [.client k], hnew, ?_⟩
      rw [clients_concat, tickets_concat]
      show clients b + 1 = (waiting ++ [k]).length + (tickets b + 0)
      rw [List.length_append, List.length_singleton]
      omega
    | ticket t =>
      cases waiting with
      | nil =>
        -- the ticket is lost: the count starts again after it
        exact ⟨[], List.nil_suffix, rfl⟩
      | cons k waiting =>
        refine ⟨b ++ [.ticket t], hnew, ?_⟩
        rw [clients_concat, tickets_concat]
        show clients b + 0 = waiting.length + (tickets b + 1)
        rw [List.length_cons] at hl
        omega

/-- **The length of the queue**: the greatest excess of clients over tickets since some time. -/
theorem isGreatest_waiting (l : List (Event κ τ)) :
    (∀ b, b <:+ l → clients b ≤ (run l).waiting.length + tickets b) ∧
      ∃ b, b <:+ l ∧ clients b = (run l).waiting.length + tickets b :=
  ⟨clients_le_waiting l, exists_clients_eq l⟩

end Desk
