import LombricABrac.Lib.Table
import Mathlib.Logic.Function.Basic

/-!
# The tables that a game reads and writes

The part of `Server/src/database.cpp` that rooms use, over the tables of `init_db.cpp`: one
definition for each request.  `id` is a primary key, so a request on an id finds the first row
with it; a request on a column that does not exist is an SQL error and changes nothing.
-/

namespace LombricABrac

structure UserRow where
  id : Nat
  username : String
  victoryAmount : Int

structure WormRow where
  id : Nat
  ownerId : Nat
  name : String

/-- `user_1_id … user_4_id`, `user_1_points … user_4_points`, `finished`. -/
structure HistoryRow where
  id : Nat
  userId : Fin 4 → Nat
  points : Fin 4 → Int
  finished : Bool

/-- A place of a game in its row. -/
abbrev Colonne := Fin 4

structure DataBase where
  users : List UserRow
  worms : List WormRow
  history : List HistoryRow

namespace DataBase

/-- The string stays empty where no row has the id. -/
def getUserUsername (db : DataBase) (userId : Nat) : String :=
  match Table.find UserRow.id userId db.users with
  | some u => u.username
  | none => ""

def getUserPoints (db : DataBase) (userId : Nat) : Option Int :=
  (Table.find UserRow.id userId db.users).map (·.victoryAmount)

def setUserPoints (db : DataBase) (userId : Nat) (userPoints : Int) : DataBase :=
  { db with
    users := Table.update UserRow.id userId (fun u => { u with victoryAmount := userPoints }) db.users }

/-- One more victory: `get_user_points`, then `set_user_points`.  Without a row the variable read is
not set, and nothing is written. -/
def ajouteVictoire (db : DataBase) (userId : Nat) : DataBase :=
  match db.getUserPoints userId with
  | some userPoints => db.setUserPoints userId (userPoints + 1)
  | none => db

/-- The worms of an owner, in the order of the table. -/
def lombricsDe (db : DataBase) (ownerId : Nat) : List Nat :=
  (db.worms.filter fun w => w.ownerId = ownerId).map (·.id)

/-- `LIMIT 0, nbLombs`. -/
def getXLombrics (db : DataBase) (ownerId nbLombs : Nat) : List Nat :=
  (db.lombricsDe ownerId).take nbLombs

def getLombricName (db : DataBase) (lombId : Nat) : String :=
  match Table.find WormRow.id lombId db.worms with
  | some w => w.name
  | none => ""

/-- `none`: no row, the variable keeps what it held. -/
def getLombricOwnerId (db : DataBase) (lombId : Nat) : Option Nat :=
  (Table.find WormRow.id lombId db.worms).map (·.ownerId)

/-- `UPDATE history … WHERE id=room_id`. -/
def updateHistory (db : DataBase) (roomId : Nat) (f : HistoryRow → HistoryRow) : DataBase :=
  { db with history := Table.update HistoryRow.id roomId f db.history }

/-- Column `user_i_…`, for `i` in `1 … 4`. -/
def column (i : Nat) : Option (Fin 4) :=
  if h : 1 ≤ i ∧ i ≤ 4 then some ⟨i - 1, by omega⟩ else none

def addPlayer (db : DataBase) (roomId playerId playerNb : Nat) : DataBase :=
  match column playerNb with
  | some c => db.updateHistory roomId fun r => { r with userId := Function.update r.userId c playerId }
  | none => db

def setFinalPoints (db : DataBase) (roomId : Nat) (playerPoints : Int) (playerIndex : Nat) :
    DataBase :=
  match column playerIndex with
  | some c => db.updateHistory roomId fun r => { r with points := Function.update r.points c playerPoints }
  | none => db

def closeRoom (db : DataBase) (roomId : Nat) : DataBase :=
  db.updateHistory roomId fun r => { r with finished := true }

/-- What the row of a room records for the `i`-th player. -/
def finalPoints (db : DataBase) (roomId i : Nat) : Option Int :=
  (Table.find HistoryRow.id roomId db.history).bind fun r => (column i).map r.points

/-- The room has its row, as `create_room` inserts it. -/
def HasRoom (db : DataBase) (roomId : Nat) : Prop :=
  ∃ r, Table.find HistoryRow.id roomId db.history = some r

/-! ## Reading back -/

theorem getUserPoints_setUserPoints (db : DataBase) (u v : Nat) (n : Int) :
    (db.setUserPoints u n).getUserPoints v =
      if v = u then (db.getUserPoints v).map fun _ => n else db.getUserPoints v := by
  unfold getUserPoints setUserPoints
  rw [Table.find_update]
  · split
    · rw [Option.map_map, Option.map_map]
      rfl
    · rfl
  · exact fun _ => rfl

theorem getUserPoints_ajouteVictoire (db : DataBase) (u v : Nat) :
    (db.ajouteVictoire u).getUserPoints v =
      (db.getUserPoints v).map fun (n : Int) => n + (if u = v then 1 else 0) := by
  unfold ajouteVictoire
  split
  · next n hn =>
    rw [getUserPoints_setUserPoints]
    by_cases hu : v = u
    · subst hu
      simp [hn]
    · simp [hu, Ne.symm hu]
  · next hn =>
    by_cases hu : u = v
    · subst hu
      simp [hn]
    · simp [hu]

theorem history_ajouteVictoire (db : DataBase) (u : Nat) : (db.ajouteVictoire u).history = db.history := by
  unfold ajouteVictoire
  split <;> rfl

theorem getUserPoints_setFinalPoints (db : DataBase) (room i u : Nat) (n : Int) :
    (db.setFinalPoints room n i).getUserPoints u = db.getUserPoints u := by
  unfold setFinalPoints
  split <;> rfl

theorem getUserPoints_addPlayer (db : DataBase) (room player i u : Nat) :
    (db.addPlayer room player i).getUserPoints u = db.getUserPoints u := by
  unfold addPlayer
  split <;> rfl

theorem find_updateHistory (db : DataBase) (room : Nat) (f : HistoryRow → HistoryRow)
    (hf : ∀ r, (f r).id = r.id) : Table.find HistoryRow.id room (db.updateHistory room f).history =
      (Table.find HistoryRow.id room db.history).map f := by
  rw [updateHistory, Table.find_update hf, if_pos rfl]

theorem column_eq_none {i : Nat} (h : ¬ (1 ≤ i ∧ i ≤ 4)) : column i = none := dif_neg h

theorem finalPoints_eq_none (db : DataBase) (room : Nat) {i : Nat} (h : ¬ (1 ≤ i ∧ i ≤ 4)) :
    db.finalPoints room i = none := by
  unfold finalPoints
  rw [column_eq_none h]
  cases Table.find HistoryRow.id room db.history <;> rfl

theorem finalPoints_setFinalPoints {db : DataBase} {room : Nat} (hr : db.HasRoom room) (n : Int)
    {i : Nat} (h : 1 ≤ i ∧ i ≤ 4) : (db.setFinalPoints room n i).finalPoints room i = some n := by
  obtain ⟨r, hr⟩ := hr
  have hi : column i = some ⟨i - 1, by omega⟩ := dif_pos h
  rw [setFinalPoints, hi, finalPoints, find_updateHistory, hr, hi]
  · simp
  · exact fun _ => rfl

theorem finalPoints_setFinalPoints_of_ne (db : DataBase) (room : Nat) (n : Int) {i j : Nat}
    (hne : j ≠ i) : (db.setFinalPoints room n i).finalPoints room j = db.finalPoints room j := by
  by_cases hj : 1 ≤ j ∧ j ≤ 4
  · have hjc : column j = some ⟨j - 1, by omega⟩ := dif_pos hj
    unfold setFinalPoints
    split
    · next c hc =>
      have hcj : (⟨j - 1, by omega⟩ : Fin 4) ≠ c := by
        rintro rfl
        unfold column at hc
        split at hc
        · have := Fin.mk.inj (Option.some.inj hc)
          omega
        · simp at hc
      rw [finalPoints, finalPoints, find_updateHistory, hjc]
      · cases Table.find HistoryRow.id room db.history with
        | none => rfl
        | some r => simp [Function.update_of_ne hcj]
      · exact fun _ => rfl
    · rfl
  · rw [finalPoints_eq_none _ _ hj, finalPoints_eq_none _ _ hj]

theorem finalPoints_ajouteVictoire (db : DataBase) (room u j : Nat) :
    (db.ajouteVictoire u).finalPoints room j = db.finalPoints room j := by
  rw [finalPoints, history_ajouteVictoire, finalPoints]

theorem finalPoints_addPlayer (db : DataBase) (room player i j : Nat) :
    (db.addPlayer room player i).finalPoints room j = db.finalPoints room j := by
  unfold addPlayer
  split
  · rw [finalPoints, finalPoints, find_updateHistory]
    · cases Table.find HistoryRow.id room db.history <;> rfl
    · exact fun _ => rfl
  · rfl

theorem hasRoom_updateHistory {db : DataBase} {room : Nat} (h : db.HasRoom room)
    {f : HistoryRow → HistoryRow} (hf : ∀ r, (f r).id = r.id) :
    (db.updateHistory room f).HasRoom room := by
  obtain ⟨r, hr⟩ := h
  exact ⟨f r, by rw [find_updateHistory db room f hf, hr]; rfl⟩

theorem hasRoom_setFinalPoints {db : DataBase} {room : Nat} (h : db.HasRoom room) (n : Int) (i : Nat) :
    (db.setFinalPoints room n i).HasRoom room := by
  unfold setFinalPoints
  split
  · exact hasRoom_updateHistory h fun _ => rfl
  · exact h

theorem hasRoom_ajouteVictoire {db : DataBase} {room : Nat} (h : db.HasRoom room) (u : Nat) :
    (db.ajouteVictoire u).HasRoom room := by
  rwa [HasRoom, history_ajouteVictoire]

theorem hasRoom_addPlayer {db : DataBase} {room : Nat} (h : db.HasRoom room) (player i : Nat) :
    (db.addPlayer room player i).HasRoom room := by
  unfold addPlayer
  split
  · exact hasRoom_updateHistory h fun _ => rfl
  · exact h

end DataBase
end LombricABrac
