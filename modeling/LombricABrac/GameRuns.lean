import LombricABrac.GameThread

/-!
# A rule for the runs of a room

What the handlers keep, the thread keeps: `handle_room` is only called in the lobby and
`handle_game` during the game, except on CLIENT_QUIT_ROOM, which neither treats.

    etape_effet : a step changes the tables of the room, or is one call of a handler
    etape_appel : and the handler of the lobby, or of the game, is called there
    Garde.reach : a property of the room that each handler keeps holds in every state of every run
    Suite.reach : and one that the handlers of the game keep, from a state of the game on
-/

namespace LombricABrac

namespace Thread

/-- What `current_step` is when a handler is called. -/
def Attente (step : Nat) : Lieu → Prop
  | .salleMsg m => step = stepRoom ∨ m.estQuit = true
  | .partieMsg m => step = stepGame ∨ step ≠ stepRoom ∧ m.estQuit = true
  | .partie | .minuterie => step ≠ stepRoom
  | .tete | .salle | .fini => True

end Thread

/-- No handler of the game leads back to the lobby. -/
theorem UnPas.ne_stepRoom {s s' : Salle} (h : UnPas s s')
    (h0 : s.currentStep ≠ stepRoom) : s'.currentStep ≠ stepRoom := by
  have h0 : s.currentStep ≠ 0 := h0
  show s'.currentStep ≠ 0
  rcases h with ⟨hs, _⟩ | ⟨hs, _⟩ <;> omega

namespace Thread

variable {serveur : Serveur} {e : Evenement} {th th' : Thread}

/-- What a step does to the room: nothing but the tables, or one call of a handler. -/
inductive Appel (serveur : Serveur) (th : Thread) : Evenement → Salle → Prop
  | rien (e : Evenement) (db : DataBase) : (∀ m, e ≠ .recoit m) → Appel serveur th e { th.salle with db }
  | quit (m : ZmqMsg) : th.lieu = .salle ∧ th.salle.currentStep = stepRoom ∨
      th.lieu = .partie ∧ th.salle.currentStep = stepGame →
      Appel serveur th (.recoit m) (th.salle.handleQuit m)
  | room (m : ZmqMsg) (env : Env) (db : DataBase) (s : Salle) : th.lieu = .salleMsg m →
      th.salle.currentStep = stepRoom →
      Salle.handleRoom serveur env m { th.salle with db } = some s → Appel serveur th (.suite env db) s
  | game (m : ZmqMsg) (env : Env) (db : DataBase) (s : Salle) : th.lieu = .partieMsg m →
      th.salle.currentStep = stepGame →
      Salle.handleGame serveur env m { th.salle with db } = some s → Appel serveur th (.suite env db) s
  | heure (env : Env) (db : DataBase) (s : Salle) : th.lieu = .minuterie →
      th.salle.currentStep ≠ stepRoom → Salle.endRound env { th.salle with db } = some s →
      Appel serveur th (.suite env db) s

/-- Where the thread may be after a step that calls no handler. -/
def SansAppel (th : Thread) : Lieu → Prop
  | .tete | .salle | .fini => True
  | .partie => th.salle.currentStep = stepGame ∨ th.lieu = .minuterie
  | .minuterie => th.salle.currentStep = stepGame
  | .salleMsg _ | .partieMsg _ => False

/-- What a step is, wherever the thread has come from: no call of a handler, or one. -/
inductive Effet (serveur : Serveur) (th : Thread) : Evenement → Thread → Prop
  | rien {e : Evenement} {th' : Thread} (db : DataBase) : (∀ m, e ≠ .recoit m) →
      th'.salle = { th.salle with db } → SansAppel th th'.lieu → Effet serveur th e th'
  | quit {th' : Thread} (m : ZmqMsg) :
      th.lieu = .salle ∧ th.salle.currentStep = stepRoom ∧ th'.lieu = .salleMsg m ∨
        th.lieu = .partie ∧ th.salle.currentStep = stepGame ∧ th'.lieu = .partieMsg m →
      th'.salle = th.salle.handleQuit m → Effet serveur th (.recoit m) th'
  | room {th' : Thread} (m : ZmqMsg) (env : Env) (db : DataBase) : th.lieu = .salleMsg m →
      th'.lieu = .salle → Salle.handleRoom serveur env m { th.salle with db } = some th'.salle →
      Effet serveur th (.suite env db) th'
  | game {th' : Thread} (m : ZmqMsg) (env : Env) (db : DataBase) : th.lieu = .partieMsg m →
      th'.lieu = .minuterie → Salle.handleGame serveur env m { th.salle with db } = some th'.salle →
      Effet serveur th (.suite env db) th'
  | heure {th' : Thread} (env : Env) (db : DataBase) : th.lieu = .minuterie → th'.lieu = .partie →
      Salle.endRound env { th.salle with db } = some th'.salle → Effet serveur th (.suite env db) th'

theorem effet_aiguille (th : Thread) (db : DataBase) :
    ∃ db', (aiguille { th with salle := { th.salle with db } }).salle = { th.salle with db := db' } ∧
      SansAppel th (aiguille { th with salle := { th.salle with db } }).lieu := by
  unfold aiguille
  split
  · exact ⟨db, rfl, trivial⟩
  · split
    · next h1 => exact ⟨db, rfl, Or.inl h1⟩
    · split
      · exact ⟨_, rfl, trivial⟩
      · exact ⟨db, rfl, trivial⟩

/-- **One step.**  One case for each control point and event. -/
theorem etape_effet (hs : etape serveur e th = some th') : Effet serveur th e th' := by
  unfold etape at hs
  split at hs <;> rename_i hl
  · next env db =>
    cases hs
    obtain ⟨db', hsalle, hlieu⟩ := effet_aiguille th db
    exact .rien db' nofun hsalle hlieu
  · split at hs
    · next m h0 =>
      cases hs
      exact .quit m (Or.inl ⟨hl, h0, rfl⟩) rfl
    · cases hs
  · split at hs
    · cases hs
    · cases hs
      exact .rien th.salle.db nofun rfl trivial
  · next m env db =>
    obtain ⟨s', hr, rfl⟩ := Option.map_eq_some_iff.mp hs
    exact .room m env db hl rfl hr
  · split at hs
    · next m h1 =>
      cases hs
      exact .quit m (Or.inr ⟨hl, h1, rfl⟩) rfl
    · cases hs
  · split at hs
    · next h1 =>
      cases hs
      exact .rien th.salle.db nofun rfl h1
    · cases hs
  · split at hs
    · cases hs
    · cases hs
      exact .rien th.salle.db nofun rfl trivial
  · next m env db =>
    obtain ⟨s', hr, rfl⟩ := Option.map_eq_some_iff.mp hs
    exact .game m env db hl rfl hr
  · next env db =>
    obtain ⟨s', hr, rfl⟩ := Option.map_eq_some_iff.mp hs
    unfold verifieHeure at hr
    split at hr
    · exact .heure env db hl rfl hr
    · cases hr
      exact .rien db nofun rfl (Or.inr hl)
  · cases hs

/-- `handle_quit` leaves the step as it was, or ends the room. -/
theorem step_handleQuit (m : ZmqMsg) (s : Salle) :
    (s.handleQuit m).currentStep = s.currentStep ∨
      (s.handleQuit m).currentStep ≠ stepRoom ∧ m.estQuit = true := by
  refine (Salle.handleQuit_step m s).2.imp_right fun ⟨h2, hq⟩ => ⟨?_, hq⟩
  rw [h2]
  decide

/-- A step from where the thread can be: only a message that no handler treats comes out of its lobby, or
of its game. -/
theorem etape_appel (ha : Attente th.salle.currentStep th.lieu)
    (hs : etape serveur e th = some th') :
    Appel serveur th e th'.salle ∧ Attente th'.salle.currentStep th'.lieu := by
  cases etape_effet hs with
  | rien db he hsalle hlieu =>
    rw [hsalle]
    refine ⟨.rien e db he, ?_⟩
    show Attente th.salle.currentStep th'.lieu
    cases hl' : th'.lieu with
    | tete | salle | fini => trivial
    | salleMsg m | partieMsg m =>
      rw [hl'] at hlieu
      exact hlieu.elim
    | partie =>
      rw [hl'] at hlieu
      rcases hlieu with h1 | hl
      · show th.salle.currentStep ≠ stepRoom
        rw [h1]
        decide
      · rwa [hl] at ha
    | minuterie =>
      rw [hl'] at hlieu
      have h1 : th.salle.currentStep = stepGame := hlieu
      show th.salle.currentStep ≠ stepRoom
      rw [h1]
      decide
  | quit m hl hsalle =>
    rw [hsalle]
    rcases hl with ⟨hl, h0, hl'⟩ | ⟨hl, h1, hl'⟩
    · refine ⟨.quit m (Or.inl ⟨hl, h0⟩), ?_⟩
      rw [hl']
      exact (step_handleQuit m th.salle).imp (fun hq => hq.trans h0) And.right
    · refine ⟨.quit m (Or.inr ⟨hl, h1⟩), ?_⟩
      rw [hl']
      exact (step_handleQuit m th.salle).imp_left fun hq => hq.trans h1
  | room m env db hl hl' hr =>
    rw [hl] at ha
    rw [hl']
    refine ⟨?_, trivial⟩
    rcases ha with h0 | hq
    · exact .room m env db _ hl h0 hr
    · rw [Salle.handleRoom_quit hq] at hr
      rw [← Option.some.inj hr]
      exact .rien _ db nofun
  | game m env db hl hl' hr =>
    rw [hl] at ha
    rw [hl']
    rcases ha with h1 | ⟨h0, hq⟩
    · refine ⟨.game m env db _ hl h1 hr, (Salle.handleGame_step hr).ne_stepRoom ?_⟩
      show th.salle.currentStep ≠ stepRoom
      rw [h1]
      decide
    · rw [Salle.handleGame_quit hq] at hr
      rw [← Option.some.inj hr]
      exact ⟨.rien _ db nofun, h0⟩
  | heure env db hl hl' hr =>
    rw [hl] at ha
    rw [hl']
    exact ⟨.heure env db _ hl ha hr, (Salle.endRound_step hr).ne_stepRoom ha⟩

end Thread

/-- A property of the room, kept by each call of a handler that a run may make. -/
structure Garde (serveur : Serveur) (ok : Evenement → Thread → Prop) (I : Salle → Prop) : Prop where
  init : ∀ owner roomId db, I (Thread.new owner roomId db).salle
  db : ∀ {s : Salle} (db : DataBase), I s → I { s with db }
  quit : ∀ {m : ZmqMsg} {th : Thread}, ok (.recoit m) th →
    th.lieu = .salle ∧ th.salle.currentStep = stepRoom ∨
      th.lieu = .partie ∧ th.salle.currentStep = stepGame →
    I th.salle → I (th.salle.handleQuit m)
  room : ∀ {m : ZmqMsg} {env : Env} {db : DataBase} {th : Thread} {s' : Salle},
    th.lieu = .salleMsg m → ok (.suite env db) th → th.salle.currentStep = stepRoom →
    I { th.salle with db } → Salle.handleRoom serveur env m { th.salle with db } = some s' → I s'
  game : ∀ {m : ZmqMsg} {env : Env} {db : DataBase} {th : Thread} {s' : Salle},
    th.lieu = .partieMsg m → ok (.suite env db) th → th.salle.currentStep = stepGame →
    I { th.salle with db } → Salle.handleGame serveur env m { th.salle with db } = some s' → I s'
  heure : ∀ {env : Env} {db : DataBase} {th : Thread} {s' : Salle},
    th.lieu = .minuterie → ok (.suite env db) th → th.salle.currentStep ≠ stepRoom →
    I { th.salle with db } → Salle.endRound env { th.salle with db } = some s' → I s'

namespace Garde

open Thread

variable {serveur : Serveur} {ok : Evenement → Thread → Prop} {I : Salle → Prop}

theorem etape (h : Garde serveur ok I) {e : Evenement} {th th' : Thread} (hI : I th.salle)
    (ha : Attente th.salle.currentStep th.lieu) (hok : ok e th)
    (hs : Thread.etape serveur e th = some th') :
    I th'.salle ∧ Attente th'.salle.currentStep th'.lieu := by
  obtain ⟨hap, ha'⟩ := etape_appel ha hs
  refine ⟨?_, ha'⟩
  generalize th'.salle = s' at hap ⊢
  cases hap with
  | rien _ db => exact h.db db hI
  | quit m hl => exact h.quit hok hl hI
  | room m env db s' hl h0 hr => exact h.room hl hok h0 (h.db db hI) hr
  | game m env db s' hl h1 hr => exact h.game hl hok h1 (h.db db hI) hr
  | heure env db s' hl h0 hr => exact h.heure hl hok h0 (h.db db hI) hr

/-- **Runs.** -/
theorem reach (h : Garde serveur ok I) {th : Thread}
    (hr : Runs.Reach (Thread.etape serveur) ok Depart th) :
    I th.salle ∧ Attente th.salle.currentStep th.lieu := by
  refine hr.invariant (fun th h0 => ?_) fun e th th' hJ hok hs => h.etape hJ.1 hJ.2 hok hs
  obtain ⟨owner, roomId, db, rfl⟩ := h0
  exact ⟨h.init owner roomId db, trivial⟩

end Garde

/-- A property of the room, kept by each call of a handler once the game has begun. -/
structure Suite (serveur : Serveur) (ok : Evenement → Thread → Prop) (I : Salle → Prop) : Prop where
  db : ∀ {s : Salle} (db : DataBase), I s → I { s with db }
  quit : ∀ {m : ZmqMsg} {th : Thread}, ok (.recoit m) th → I th.salle → I (th.salle.handleQuit m)
  game : ∀ {m : ZmqMsg} {env : Env} {db : DataBase} {th : Thread} {s' : Salle}, th.lieu = .partieMsg m →
    ok (.suite env db) th → I { th.salle with db } →
    Salle.handleGame serveur env m { th.salle with db } = some s' → I s'
  heure : ∀ {env : Env} {db : DataBase} {th : Thread} {s' : Salle}, th.lieu = .minuterie →
    ok (.suite env db) th → I { th.salle with db } → Salle.endRound env { th.salle with db } = some s' → I s'

namespace Suite

open Thread

variable {serveur : Serveur} {ok : Evenement → Thread → Prop} {I : Salle → Prop}

theorem etape (h : Suite serveur ok I) {e : Evenement} {th th' : Thread} (hI : I th.salle)
    (h0 : th.salle.currentStep ≠ stepRoom) (ha : Attente th.salle.currentStep th.lieu) (hok : ok e th)
    (hs : Thread.etape serveur e th = some th') :
    I th'.salle ∧ th'.salle.currentStep ≠ stepRoom ∧ Attente th'.salle.currentStep th'.lieu := by
  obtain ⟨hap, ha'⟩ := etape_appel ha hs
  rw [← and_assoc]
  refine ⟨?_, ha'⟩
  generalize th'.salle = s' at hap ⊢
  cases hap with
  | rien _ db => exact ⟨h.db db hI, h0⟩
  | quit m _ =>
    refine ⟨h.quit hok hI, ?_⟩
    rcases step_handleQuit m th.salle with he | ⟨hne, _⟩
    · rwa [he]
    · exact hne
  | room m env db s' _ h0' _ => exact absurd h0' h0
  | game m env db s' hl _ hr => exact ⟨h.game hl hok (h.db db hI) hr, (Salle.handleGame_step hr).ne_stepRoom h0⟩
  | heure env db s' hl _ hr => exact ⟨h.heure hl hok (h.db db hI) hr, (Salle.endRound_step hr).ne_stepRoom h0⟩

/-- **Runs** from a state of the game. -/
theorem reach (h : Suite serveur ok I) {th₀ th : Thread} (hI : I th₀.salle)
    (h0 : th₀.salle.currentStep ≠ stepRoom) (ha : Attente th₀.salle.currentStep th₀.lieu)
    (hr : Runs.Reach (Thread.etape serveur) ok (· = th₀) th) : I th.salle := by
  have hinv : I th.salle ∧ th.salle.currentStep ≠ stepRoom ∧ Attente th.salle.currentStep th.lieu := by
    refine hr.invariant (I := fun th => I th.salle ∧ th.salle.currentStep ≠ stepRoom ∧
      Attente th.salle.currentStep th.lieu) (fun th he => ?_)
        fun e th th' hJ hok hs => h.etape hJ.1 hJ.2.1 hJ.2.2 hok hs
    rw [he]
    exact ⟨hI, h0, ha⟩
  exact hinv.1

end Suite
end LombricABrac
