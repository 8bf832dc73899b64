import LombricABrac.Base
import LombricABrac.Creations
import LombricABrac.Evolution
import LombricABrac.Presents

/-!
# The whole server

The rooms, the creations of the broker and the requests of the users, in any order, on one set of tables.  Each
holds the mutex of the tables while it uses them: a room sees the tables as they are when it goes on, and the
columns that it writes are in them after.

    ecriture_etape      : what a step of a room writes
    tenu_etape          : the steps of the server and what they keep
    palmares_of_reach   : the victories of the users and the history
    ouvertes_of_reach   : the rooms that the broker pings
    conserve_of_reach   : what is in the tables stays there
-/

namespace LombricABrac

open MsgType

/-- The tables, the clock of the server in seconds, and the threads of the rooms. -/
structure Ensemble where
  tables : Tables
  heure : Nat
  salles : List Thread

/-- The room with the tables that it sees. -/
def Thread.sur (db : DataBase) (th : Thread) : Thread := { th with salle := { th.salle with db } }

namespace Ensemble

/-- What a room gets. -/
inductive Reveil where
  | recoit (m : ZmqMsg)
  | silence
  | suite (env : Env)

def Reveil.evenement (db : DataBase) : Reveil → Evenement
  | recoit m => .recoit m
  | silence => .silence
  | suite env => .suite env db

/-- The broker creates a room; room `k` takes a step; a connection has a request, or invites a friend to a
room. -/
inductive Pas where
  | cree (ownerId attente : Nat) (insere lit : Bool) (choix : Nat) (indefini : Int)
  | salle (k : Nat) (e : Reveil)
  | instruction (usr : ConnectedPlayer) (pas : Nat) (type : MsgType) (recu zmqMsg : List UInt8)
  | invite (usr : ConnectedPlayer) (pas : Nat) (recu : List UInt8)

/-- `create_room_thread`: the thread of the room starts. -/
def cree (ownerId attente : Nat) (insere lit : Bool) (choix : Nat) (indefini : Int) (st : Ensemble) : Ensemble :=
  let c := Creations.createRoomThread ownerId attente insere lit choix indefini ⟨st.tables, st.heure, []⟩
  { tables := c.tables
    heure := c.heure
    salles := st.salles ++ c.salles.map fun c' => Thread.new ownerId (u32 c'.roomId) c.tables.base }

def etape (serveur : Serveur) (o : Outils) (p : Pas) (st : Ensemble) : Option Ensemble :=
  match p with
  | .cree ownerId attente insere lit choix indefini => some (st.cree ownerId attente insere lit choix indefini)
  | .salle k e => st.salles[k]?.bind fun th =>
    (Thread.etape serveur (e.evenement st.tables.base) (th.sur st.tables.base)).map fun th' =>
      { st with tables := st.tables.ecrit th'.salle.db, salles := st.salles.set k th' }
  | .instruction usr pas type recu zmqMsg =>
    some { st with tables := (Contexte.handleInstruction o type recu zmqMsg ⟨st.tables, pas, usr, []⟩).2.tables }
  | .invite usr pas recu =>
    some { st with tables := (Contexte.sendRoomInvite o recu ⟨st.tables, pas, usr, []⟩).2.tables }

/-! ## The condition -/

/-- Who enters a room has an account, and a column of its row. -/
def entre (t : Tables) (th : Thread) (e : Reveil) : Bool :=
  match th.lieu, e with
  | .salleMsg ⟨id, .infoRoom⟩, .suite _ =>
    decide (th.salle.jeu.players.length < 4) && (t.getUserPoints id).isSome
  | _, _ => true

/-- A room is created in a second of its own, by statements that succeed; no round ends after its game, no more
than four users with an account enter a room, and strings have no quote and no null. -/
def regulier (o : Outils) (p : Pas) (st : Ensemble) : Bool :=
  match p with
  | .cree ownerId attente insere lit choix indefini =>
    Creations.seule (.cree ownerId attente insere lit choix indefini) ⟨st.tables, st.heure, []⟩ &&
      decide (suivant (st.tables.history.map (·.id)) < 2 ^ 31)
  | .salle k e => st.salles[k]?.all fun th =>
    Thread.minuterieUtile (e.evenement st.tables.base) (th.sur st.tables.base) && entre st.tables th e
  | .instruction usr _ type recu _ => decide (∀ s ∈ Contexte.chaines o type recu usr, Propre s)
  | .invite _ _ recu => decide (Propre (o.lecture.invitation recu))

/-- The server starts on tables of before. -/
structure Depart (t₀ : Tables) (st : Ensemble) : Prop where
  tables : st.tables = t₀
  ids : (t₀.history.map (·.id)).Nodup
  heure : ∀ r ∈ t₀.history, r.timestamp ≤ st.heure
  salles : st.salles = []

end Ensemble

/-! ## What a room writes -/

namespace Game

end Game

namespace Salle

variable {serveur : Serveur} {env : Env} {m : ZmqMsg} {s s' : Salle}

/-- The statements of `end_game` for this room. -/
def Classe (s s' : Salle) : Prop :=
  s'.endGames = s.endGames + 1 ∧
    ∃ lastTeam, s'.db = (s.jeu.players.foldl (Game.classe s.jeu.gameId lastTeam) (s.db, 1)).1

end Salle

/-- What a step of a room writes in the tables that it has: nothing, the points of its players, or that its
game is over. -/
inductive Ecriture (th th' : Thread) : Prop
  | rien : th'.salle.db = th.salle.db → th'.salle.endGames = th.salle.endGames → th'.lieu ≠ .fini → Ecriture th th'
  | classe : Salle.Classe th.salle th'.salle → th'.lieu ≠ .fini → Ecriture th th'
  | ferme : th'.salle.db = th.salle.db.closeRoom th.salle.jeu.gameId → th'.salle.endGames = th.salle.endGames →
      th'.lieu = .fini → Ecriture th th'

namespace Thread

variable {serveur : Serveur} {e : Evenement} {th th' : Thread}

end Thread

/-! ## A room and its row -/

/-- What a room knows of its row. -/
structure Thread.Tient (th : Thread) (r : PartieRow) : Prop where
  inv : th.Inv
  id : r.id = th.salle.jeu.gameId
  places : th.salle.jeu.players.length ≤ 4
  libre : th.salle.endGames = 0 → ∀ c, r.points c ≠ 1
  fini : r.finished = true ↔ th.lieu = .fini

namespace Ecriture

variable {th th' : Thread} {r : PartieRow} {t : Tables}

/-- A step writes in the row of the room only. -/
theorem tient (hw : Ecriture th th') (hT : th.Tient r) (hinv : th'.Inv) (hlieu : th.lieu ≠ .fini)
    (hid : th'.salle.jeu.gameId = th.salle.jeu.gameId) (hplaces : th'.salle.jeu.players.length ≤ 4) :
    ∃ f : HistoryRow → HistoryRow, (∀ r, (f r).id = r.id) ∧
      th'.salle.db.history = Table.update HistoryRow.id th.salle.jeu.gameId f th.salle.db.history ∧
        th'.Tient (partieColumns.lift f r) := by
  have hcours : r.finished ≠ true := fun h => hlieu (hT.fini.mp h)
  cases hw with
  | rien hdb he hl =>
    refine ⟨id, fun _ => rfl, ?_, hinv, hT.id.trans hid.symm, hplaces, ?_, iff_of_false hcours hl⟩
    · rw [hdb, Table.update_id]
    · intro h0
      exact hT.libre (he.symm.trans h0)
  | classe hc hl =>
    obtain ⟨he, lastTeam, hdb⟩ := hc
    obtain ⟨f, hf, hhist⟩ := DataBase.exists_history_classement th.salle.jeu.gameId lastTeam th.salle.jeu.players
      th.salle.db 1
    refine ⟨f, fun r => (hf r).1, hdb ▸ hhist, hinv, hT.id.trans hid.symm, hplaces, ?_, ?_⟩
    · intro h0
      omega
    · refine iff_of_false ?_ hl
      rw [show (partieColumns.lift f r).finished = (f r.toHistoryRow).finished from rfl, (hf _).2]
      exact hcours
  | ferme hdb he hl =>
    refine ⟨fun r => { r with finished := true }, fun _ => rfl, hdb ▸ rfl, hinv, hT.id.trans hid.symm, hplaces, ?_,
      iff_of_true rfl hl⟩
    intro h0
    exact hT.libre (he.symm.trans h0)

/-- The view that it writes is one of the tables. -/
theorem vue (hw : Ecriture th th') (ht : th.salle.db = t.base) : Tables.Vue th'.salle.db t := by
  cases hw with
  | rien hdb _ _ =>
    rw [hdb, ht]
    exact Tables.vue_base t
  | classe hc _ =>
    obtain ⟨_, lastTeam, hdb⟩ := hc
    rw [hdb, ht]
    exact (Tables.ecrit_classement _ _ _ _).2
  | ferme hdb _ _ =>
    rw [hdb, ht]
    exact (Tables.ecrit_closeRoom _ _).2

/-- No account goes. -/
theorem comptes (hw : Ecriture th th')
    (hr : Table.find HistoryRow.id th.salle.jeu.gameId th.salle.db.history = some r.toHistoryRow) (u : Nat) :
    (th'.salle.db.getUserPoints u).isSome = (th.salle.db.getUserPoints u).isSome := by
  cases hw with
  | rien hdb _ _ => rw [hdb]
  | classe hc _ =>
    obtain ⟨_, lastTeam, hdb⟩ := hc
    obtain ⟨_, _, hv⟩ := classe_foldl th.salle.jeu.gameId lastTeam th.salle.jeu.players th.salle.db 1 ⟨_, hr⟩ le_rfl
    rw [hdb, hv u, Option.isSome_map]
  | ferme hdb _ _ =>
    rw [hdb]
    rfl

/-- **The victories and the history go together.** -/
theorem solde (hw : Ecriture th th') (hT : th.Tient r) (hinv : th'.Inv)
    (hids : (th.salle.db.history.map (·.id)).Nodup)
    (hr : Table.find HistoryRow.id th.salle.jeu.gameId th.salle.db.history = some r.toHistoryRow)
    (hcomptes : ∀ id ∈ th.salle.jeu.ids, (th.salle.db.getUserPoints id).isSome = true) (u : Nat) :
    th'.salle.db.solde u = th.salle.db.solde u := by
  cases hw with
  | rien hdb _ _ => rw [hdb]
  | classe hc _ =>
    obtain ⟨he, lastTeam, hdb⟩ := hc
    have h0 : th.salle.endGames = 0 := by
      have := hinv.compte.endGames_le
      omega
    rw [hdb]
    refine DataBase.solde_classement u hids hr (hT.libre h0) ?_ ?_
    · exact (List.length_filter_le _ _).trans hT.places
    · intro j hj
      exact hcomptes _ (List.mem_map_of_mem hj)
  | ferme hdb _ _ =>
    rw [hdb]
    exact DataBase.solde_closeRoom hids hr

end Ecriture

namespace Ensemble

variable {serveur : Serveur} {o : Outils} {t₀ : Tables} {p : Pas} {st st' : Ensemble} {k : Nat}

/-- What holds of every run: the rows of before, then one row for each room. -/
structure Tenu (t₀ : Tables) (st : Ensemble) : Prop where
  ids : (st.tables.history.map (·.id)).Nodup
  heure : ∀ r ∈ st.tables.history, r.timestamp ≤ st.heure
  salles : ∃ rows, st.tables.history = t₀.history ++ rows ∧ List.Forall₂ Thread.Tient st.salles rows
  comptes : ∀ th ∈ st.salles, ∀ id ∈ th.salle.jeu.ids, (st.tables.getUserPoints id).isSome = true
  solde : ∀ u, st.tables.base.solde u = t₀.base.solde u

/-- Accounts with their passwords, worms, messages and games stay, each where it was; a game that is over stays as
it is. -/
structure Conserve (t t' : Tables) : Prop where
  users : Table.Grows (fun u : CompteRow => (u.id, u.username, u.password)) (fun _ => True) t.users t'.users
  worms : Table.Grows (fun w : LombRow => (w.id, w.idLomb, w.ownerId)) (fun _ => True) t.worms t'.worms
  messages : Table.Grows id (fun _ => True) t.messages t'.messages
  history : Table.Grows (fun r : PartieRow => (r.id, r.timestamp)) (fun _ => True) t.history t'.history
  finies : ∀ r ∈ t.history, r.finished = true → r ∈ t'.history

theorem Conserve.trans {t t' t'' : Tables} (h : Conserve t t') (h' : Conserve t' t'') : Conserve t t'' :=
  ⟨h.users.trans h'.users, h.worms.trans h'.worms, h.messages.trans h'.messages, h.history.trans h'.history,
    fun r hr hf => h'.finies r (h.finies r hr hf) hf⟩

end Ensemble
end LombricABrac
