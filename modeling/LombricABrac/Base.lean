import LombricABrac.EndGame
import LombricABrac.Lib.Columns
import LombricABrac.Tables
import Mathlib.Algebra.BigOperators.Fin

/-!
# The tables that a room sees

A room reads and writes some columns of the tables of the server: `DataBase` is a view of `Tables`.

    base_ecrit       : what a room writes is what it reads after
    ecrit_classement : the statements of `end_game` on the tables are those on the view, written back
    solde_classement : `end_game` gives a user the victories that it writes in the history
-/

namespace LombricABrac

/-! ## The view -/

/-- Of `users`, a room writes `victory_amount`. -/
def compteColumns : Columns CompteRow UserRow (Nat × String) where
  get u := ⟨u.id, u.username, u.victoryAmount⟩
  put a u := { u with victoryAmount := a.victoryAmount }
  key a := (a.id, a.username)
  get_put a u h := by
    obtain ⟨hid, hname⟩ := Prod.mk.inj h
    obtain ⟨id, username, victoryAmount⟩ := a
    subst hid hname
    rfl
  put_get _ := rfl
  put_put _ _ _ := rfl

/-- Of `history`, the players, their points and `finished`. -/
def partieColumns : Columns PartieRow HistoryRow Nat where
  get h := h.toHistoryRow
  put a h := { h with userId := a.userId, points := a.points, finished := a.finished }
  key a := a.id
  get_put a h hid := by
    obtain ⟨id, userId, points, finished⟩ := a
    subst hid
    rfl
  put_get _ := rfl
  put_put _ _ _ := rfl

namespace Tables

variable {t t' : Tables} {db : DataBase}

/-- The tables as a room sees them. -/
def base (t : Tables) : DataBase where
  users := compteColumns.read t.users
  worms := t.worms.map fun w => ⟨w.id, u32 w.ownerId, w.name⟩
  history := partieColumns.read t.history

/-- The tables with the columns of the view. -/
def ecrit (db : DataBase) (t : Tables) : Tables :=
  { t with
    users := compteColumns.write db.users t.users
    history := partieColumns.write db.history t.history }

/-- The view has the rows of the tables. -/
structure Vue (db : DataBase) (t : Tables) : Prop where
  users : compteColumns.Fits db.users t.users
  worms : db.worms = t.base.worms
  history : partieColumns.Fits db.history t.history

theorem vue_base (t : Tables) : Vue t.base t := ⟨rfl, rfl, rfl⟩

/-- **What a room writes is what it reads after.** -/
theorem base_ecrit (h : Vue db t) : (t.ecrit db).base = db := by
  obtain ⟨users, worms, history⟩ := db
  obtain ⟨hu, hw, hh⟩ := h
  simp only [base, ecrit, Columns.read_write hu, Columns.read_write hh, DataBase.mk.injEq, true_and, and_true]
  exact hw.symm

theorem ecrit_base (t : Tables) : t.ecrit t.base = t := by
  simp only [base, ecrit, Columns.write_read]

theorem ecrit_ecrit (h : Vue db t) (db' : DataBase) : (t.ecrit db).ecrit db' = t.ecrit db' := by
  simp only [ecrit, Columns.write_write h.users, Columns.write_write h.history]

/-- The tables differ by what a room writes. -/
def Ecrites (t t' : Tables) : Prop := t' = t.ecrit t'.base ∧ Vue t'.base t

theorem ecrites_rfl (t : Tables) : Ecrites t t := ⟨(ecrit_base t).symm, vue_base t⟩

theorem Ecrites.trans {t'' : Tables} (h : Ecrites t t') (h' : Ecrites t' t'') : Ecrites t t'' := by
  obtain ⟨he, hv⟩ := h
  obtain ⟨he', hv'⟩ := h'
  refine ⟨?_, hv'.users.trans hv.users, hv'.worms.trans hv.worms, hv'.history.trans hv.history⟩
  rw [he', he, ecrit_ecrit hv, base_ecrit]
  exact ⟨hv'.users.trans hv.users, hv'.worms.trans hv.worms, hv'.history.trans hv.history⟩

/-! ## The statements -/

def getUserPoints (t : Tables) (userId : Nat) : Option Int :=
  (Table.find CompteRow.id userId t.users).map (·.victoryAmount)

def setUserPoints (t : Tables) (userId : Nat) (userPoints : Int) : Tables :=
  { t with users := Table.update CompteRow.id userId (fun u => { u with victoryAmount := userPoints }) t.users }

/-- `UPDATE history SET … WHERE id=room_id`. -/
def updateHistory (t : Tables) (roomId : Nat) (f : HistoryRow → HistoryRow) : Tables :=
  { t with history := Table.update (fun h : PartieRow => h.id) roomId (partieColumns.lift f) t.history }

def addPlayer (t : Tables) (roomId playerId playerNb : Nat) : Tables :=
  match DataBase.column playerNb with
  | some c => t.updateHistory roomId fun r => { r with userId := Function.update r.userId c playerId }
  | none => t

def setFinalPoints (t : Tables) (roomId : Nat) (playerPoints : Int) (playerIndex : Nat) : Tables :=
  match DataBase.column playerIndex with
  | some c => t.updateHistory roomId fun r => { r with points := Function.update r.points c playerPoints }
  | none => t

def closeRoom (t : Tables) (roomId : Nat) : Tables := t.updateHistory roomId fun r => { r with finished := true }

/-- One player in the loop of `end_game`. -/
def classe (gameId lastTeam : Nat) : Tables × Nat → Joueur → Tables × Nat
  | (t, playerIndex), j =>
    if j.equipe = 0 then (t, playerIndex)
    else
      let t :=
        if j.equipe = lastTeam then
          let t := t.setFinalPoints gameId 1 playerIndex
          match t.getUserPoints j.playerId with
          | some userPoints => t.setUserPoints j.playerId (userPoints + 1)
          | none => t
        else t.setFinalPoints gameId 0 playerIndex
      (t.addPlayer gameId j.playerId playerIndex, playerIndex + 1)

/-! ## The statements on the view -/

theorem find_base_users (t : Tables) (userId : Nat) : Table.find UserRow.id userId t.base.users =
    (Table.find CompteRow.id userId t.users).map compteColumns.get := by
  rw [base, Columns.read, Table.find, List.find?_map]
  rfl

theorem getUserPoints_base (t : Tables) (userId : Nat) : t.base.getUserPoints userId = t.getUserPoints userId := by
  rw [DataBase.getUserPoints, find_base_users, Option.map_map]
  rfl

/-- An update of the tables that goes through the view. -/
theorem ecrites_setUserPoints (t : Tables) (userId : Nat) (userPoints : Int) :
    (t.setUserPoints userId userPoints).base = t.base.setUserPoints userId userPoints ∧
      Ecrites t (t.setUserPoints userId userPoints) := by
  have hlift : Table.update CompteRow.id userId (fun u => { u with victoryAmount := userPoints }) t.users =
      t.users.map (compteColumns.lift fun r =>
        if r.id = userId then { r with victoryAmount := userPoints } else r) := by
    apply List.map_congr_left
    intro u _
    show _ = compteColumns.put (if u.id = userId then _ else _) u
    by_cases hu : u.id = userId
    · rw [if_pos hu, if_pos hu]
      rfl
    · rw [if_neg hu, if_neg hu]
      rfl
  have hfits : compteColumns.Fits ((compteColumns.read t.users).map fun r =>
      if r.id = userId then { r with victoryAmount := userPoints } else r) t.users := by
    apply Columns.fits_map _ (Columns.fits_read t.users)
    intro r
    split <;> rfl
  have hbase : (t.setUserPoints userId userPoints).base = t.base.setUserPoints userId userPoints := by
    simp only [base, setUserPoints, DataBase.setUserPoints, hlift, Columns.map_lift, Columns.read_write hfits]
    rfl
  refine ⟨hbase, ?_, ?_⟩
  · rw [hbase]
    simp only [ecrit, setUserPoints, hlift, Columns.map_lift, DataBase.setUserPoints, base, Columns.write_read]
    rfl
  · rw [hbase]
    exact ⟨hfits, rfl, rfl⟩

/-- An `UPDATE` of `history` goes through the view. -/
theorem update_lift (rows : List PartieRow) (roomId : Nat) (f : HistoryRow → HistoryRow) :
    Table.update (fun h : PartieRow => h.id) roomId (partieColumns.lift f) rows =
      rows.map (partieColumns.lift fun r => if r.id = roomId then f r else r) := by
  apply List.map_congr_left
  intro h _
  show _ = partieColumns.put (if h.id = roomId then _ else _) h
  by_cases hh : h.id = roomId
  · rw [if_pos hh, if_pos hh]
    rfl
  · rw [if_neg hh, if_neg hh]
    rfl

theorem ecrites_updateHistory (t : Tables) (roomId : Nat) {f : HistoryRow → HistoryRow}
    (hf : ∀ r, (f r).id = r.id) :
    (t.updateHistory roomId f).base = t.base.updateHistory roomId f ∧ Ecrites t (t.updateHistory roomId f) := by
  have hfits : partieColumns.Fits ((partieColumns.read t.history).map fun r =>
      if r.id = roomId then f r else r) t.history := by
    apply Columns.fits_map _ (Columns.fits_read t.history)
    intro r
    show (if r.id = roomId then f r else r).id = r.id
    split
    · exact hf r
    · rfl
  have hbase : (t.updateHistory roomId f).base = t.base.updateHistory roomId f := by
    simp only [base, updateHistory, DataBase.updateHistory, update_lift, Columns.map_lift, Columns.read_write hfits]
    rfl
  refine ⟨hbase, ?_, ?_⟩
  · rw [hbase]
    simp only [ecrit, updateHistory, update_lift, Columns.map_lift, DataBase.updateHistory, base, Columns.write_read]
    rfl
  · rw [hbase]
    exact ⟨rfl, rfl, hfits⟩

theorem ecrites_addPlayer (t : Tables) (roomId playerId playerNb : Nat) :
    (t.addPlayer roomId playerId playerNb).base = t.base.addPlayer roomId playerId playerNb ∧
      Ecrites t (t.addPlayer roomId playerId playerNb) := by
  unfold addPlayer DataBase.addPlayer
  cases DataBase.column playerNb with
  | none => exact ⟨rfl, ecrites_rfl t⟩
  | some c => exact ecrites_updateHistory t roomId fun _ => rfl

theorem ecrites_setFinalPoints (t : Tables) (roomId : Nat) (playerPoints : Int) (playerIndex : Nat) :
    (t.setFinalPoints roomId playerPoints playerIndex).base =
        t.base.setFinalPoints roomId playerPoints playerIndex ∧
      Ecrites t (t.setFinalPoints roomId playerPoints playerIndex) := by
  unfold setFinalPoints DataBase.setFinalPoints
  cases DataBase.column playerIndex with
  | none => exact ⟨rfl, ecrites_rfl t⟩
  | some c => exact ecrites_updateHistory t roomId fun _ => rfl

theorem ecrites_closeRoom (t : Tables) (roomId : Nat) :
    (t.closeRoom roomId).base = t.base.closeRoom roomId ∧ Ecrites t (t.closeRoom roomId) :=
  ecrites_updateHistory t roomId fun _ => rfl

/-- One player in `end_game`. -/
theorem ecrites_classe (gameId lastTeam : Nat) (t : Tables) (k : Nat) (j : Joueur) :
    ((classe gameId lastTeam (t, k) j).1.base, (classe gameId lastTeam (t, k) j).2) =
        Game.classe gameId lastTeam (t.base, k) j ∧ Ecrites t (classe gameId lastTeam (t, k) j).1 := by
  rw [classe, Game.classe]
  by_cases h0 : j.equipe = 0
  · rw [if_pos h0, if_pos h0]
    exact ⟨rfl, ecrites_rfl t⟩
  · rw [if_neg h0, if_neg h0]
    by_cases hl : j.equipe = lastTeam
    · simp only [if_pos hl]
      obtain ⟨hb, he⟩ := ecrites_setFinalPoints t gameId 1 k
      rw [DataBase.ajouteVictoire, ← hb, getUserPoints_base]
      cases (t.setFinalPoints gameId 1 k).getUserPoints j.playerId with
      | none =>
        obtain ⟨hb', he'⟩ := ecrites_addPlayer (t.setFinalPoints gameId 1 k) gameId j.playerId k
        exact ⟨Prod.ext hb' rfl, he.trans he'⟩
      | some userPoints =>
        obtain ⟨hb', he'⟩ := ecrites_setUserPoints (t.setFinalPoints gameId 1 k) j.playerId (userPoints + 1)
        obtain ⟨hb'', he''⟩ := ecrites_addPlayer
          ((t.setFinalPoints gameId 1 k).setUserPoints j.playerId (userPoints + 1)) gameId j.playerId k
        exact ⟨Prod.ext (hb''.trans (by rw [hb'])) rfl, (he.trans he').trans he''⟩
    · simp only [if_neg hl]
      obtain ⟨hb, he⟩ := ecrites_setFinalPoints t gameId 0 k
      obtain ⟨hb', he'⟩ := ecrites_addPlayer (t.setFinalPoints gameId 0 k) gameId j.playerId k
      exact ⟨Prod.ext (hb'.trans (by rw [hb])) rfl, he.trans he'⟩

theorem ecrites_classement (gameId lastTeam : Nat) (players : List Joueur) : ∀ (t : Tables) (k : Nat),
    (players.foldl (classe gameId lastTeam) (t, k)).1.base =
        (players.foldl (Game.classe gameId lastTeam) (t.base, k)).1 ∧
      Ecrites t (players.foldl (classe gameId lastTeam) (t, k)).1 := by
  induction players with
  | nil => exact fun t k => ⟨rfl, ecrites_rfl t⟩
  | cons j players ih =>
    intro t k
    obtain ⟨hb, he⟩ := ecrites_classe gameId lastTeam t k j
    obtain ⟨hb', he'⟩ := ih (classe gameId lastTeam (t, k) j).1 (classe gameId lastTeam (t, k) j).2
    rw [List.foldl_cons, List.foldl_cons, ← hb]
    exact ⟨hb', he.trans he'⟩

/-- **The statements of `end_game`** on the tables are those on the view, written back. -/
theorem ecrit_classement (gameId lastTeam : Nat) (players : List Joueur) (t : Tables) :
    (players.foldl (classe gameId lastTeam) (t, 1)).1 =
        t.ecrit (players.foldl (Game.classe gameId lastTeam) (t.base, 1)).1 ∧
      Vue (players.foldl (Game.classe gameId lastTeam) (t.base, 1)).1 t := by
  obtain ⟨hb, he, hv⟩ := ecrites_classement gameId lastTeam players t 1
  rw [hb] at he hv
  exact ⟨he, hv⟩

theorem ecrit_closeRoom (t : Tables) (roomId : Nat) :
    t.closeRoom roomId = t.ecrit (t.base.closeRoom roomId) ∧ Vue (t.base.closeRoom roomId) t := by
  obtain ⟨hb, he, hv⟩ := ecrites_closeRoom t roomId
  rw [hb] at he hv
  exact ⟨he, hv⟩

end Tables

/-! ## The victories that the history tells -/

/-- What a row gives a user: a victory for each of its columns that has 1 point. -/
def HistoryRow.gagnees (u : Nat) (r : HistoryRow) : Nat :=
  ∑ c, if r.userId c = u ∧ r.points c = 1 then 1 else 0

/-- A player and its points take a column that held no victory. -/
theorem HistoryRow.gagnees_avec (u : Nat) {r : HistoryRow} {c : Colonne} (hc : r.points c ≠ 1) (id : Nat) (n : Int) :
    gagnees u { r with userId := Function.update r.userId c id, points := Function.update r.points c n } =
      gagnees u r + if id = u ∧ n = 1 then 1 else 0 := by
  have hautres : ∀ c' ∈ Finset.univ.erase c, (if Function.update r.userId c id c' = u ∧
      Function.update r.points c n c' = 1 then 1 else 0) = if r.userId c' = u ∧ r.points c' = 1 then 1 else 0 := by
    intro c' hc'
    have hne : c' ≠ c := Finset.ne_of_mem_erase hc'
    rw [Function.update_of_ne hne, Function.update_of_ne hne]
  rw [gagnees, gagnees, ← Finset.sum_erase_add _ _ (Finset.mem_univ c),
    ← Finset.sum_erase_add (a := c) _ (fun c => if r.userId c = u ∧ r.points c = 1 then 1 else 0)
      (Finset.mem_univ c), Finset.sum_congr rfl hautres]
  simp only [Function.update_self, if_neg fun h : r.userId c = u ∧ r.points c = 1 => hc h.2, Nat.add_zero]

namespace DataBase

variable {db : DataBase} {room last k u : Nat} {r : HistoryRow}

def gagnees (u : Nat) (db : DataBase) : Nat := (db.history.map (HistoryRow.gagnees u)).sum

def victoires (u : Nat) (db : DataBase) : Int := (db.getUserPoints u).getD 0

/-- The victories of a user that are not in the history. -/
def solde (u : Nat) (db : DataBase) : Int := db.victoires u - db.gagnees u

theorem gagnees_updateHistory (hids : (db.history.map (·.id)).Nodup)
    (hr : Table.find HistoryRow.id room db.history = some r) (f : HistoryRow → HistoryRow) :
    (db.updateHistory room f).gagnees u + r.gagnees u = db.gagnees u + (f r).gagnees u :=
  Table.sum_update hids hr (HistoryRow.gagnees u)

/-- The end of a game is no victory. -/
theorem solde_closeRoom (hids : (db.history.map (·.id)).Nodup)
    (hr : Table.find HistoryRow.id room db.history = some r) : (db.closeRoom room).solde u = db.solde u := by
  have hsum := gagnees_updateHistory (u := u) hids hr fun r => { r with finished := true }
  have hrow : HistoryRow.gagnees u { r with finished := true } = r.gagnees u := rfl
  have hv : (db.closeRoom room).victoires u = db.victoires u := rfl
  have hg : (db.closeRoom room).gagnees u = db.gagnees u := by
    rw [closeRoom]
    omega
  rw [solde, solde, hv, hg]

/-! ### One player -/

/-- What `end_game` makes of the row of its game for one player. -/
def inscrit (c : Colonne) (last : Nat) (j : Joueur) (r : HistoryRow) : HistoryRow :=
  { r with
    userId := Function.update r.userId c j.playerId
    points := Function.update r.points c (if j.equipe = last then 1 else 0) }

theorem inscrit_id (c : Colonne) (last : Nat) (j : Joueur) (r : HistoryRow) : (inscrit c last j r).id = r.id := rfl

theorem column_succ (c : Colonne) : column (c.val + 1) = some c := by
  rw [column, dif_pos ⟨Nat.le_add_left 1 c.val, Nat.succ_le_of_lt c.isLt⟩]
  rfl

theorem history_classe {j : Joueur} (hj : j.enLice = true) (c : Colonne) :
    (Game.classe room last (db, c.val + 1) j).1.history =
      Table.update HistoryRow.id room (inscrit c last j) db.history := by
  have h0 : j.equipe ≠ 0 := by simpa [Joueur.enLice] using hj
  have hcomp : ∀ n : Int, ((db.setFinalPoints room n (c.val + 1)).addPlayer room j.playerId (c.val + 1)).history =
      Table.update HistoryRow.id room (fun r => { r with
        userId := Function.update r.userId c j.playerId, points := Function.update r.points c n }) db.history := by
    intro n
    simp only [setFinalPoints, addPlayer, column_succ, updateHistory]
    exact Table.update_update (by intro r; rfl) _ room db.history
  have haddHistory : ∀ db' : DataBase, (db'.addPlayer room j.playerId (c.val + 1)).history =
      Table.update HistoryRow.id room (fun r => { r with
        userId := Function.update r.userId c j.playerId }) db'.history := by
    intro db'
    simp only [addPlayer, column_succ, updateHistory]
  have hinscrit : inscrit c last j = fun r => { r with
      userId := Function.update r.userId c j.playerId
      points := Function.update r.points c (if j.equipe = last then 1 else 0) } := rfl
  rw [Game.classe, if_neg h0]
  by_cases hl : j.equipe = last
  · simp only [if_pos hl, haddHistory, history_ajouteVictoire]
    rw [← haddHistory, hcomp]
    simp only [hinscrit, if_pos hl]
  · simp only [if_neg hl, hcomp]
    simp only [hinscrit, if_neg hl]

/-- `end_game` updates one row, and does not say that its game is over. -/
theorem exists_history_classe (room last k : Nat) (db : DataBase) (j : Joueur) : ∃ f : HistoryRow → HistoryRow,
    (∀ r, (f r).id = r.id ∧ (f r).finished = r.finished) ∧
      (Game.classe room last (db, k) j).1.history = Table.update HistoryRow.id room f db.history := by
  have hrien : ∀ db' : DataBase, db'.history = db.history → ∃ f : HistoryRow → HistoryRow,
      (∀ r, (f r).id = r.id ∧ (f r).finished = r.finished) ∧
        db'.history = Table.update HistoryRow.id room f db.history :=
    fun db' h => ⟨id, fun _ => ⟨rfl, rfl⟩, h.trans (Table.update_id room db.history).symm⟩
  by_cases hj : j.enLice = true
  · by_cases hk : 1 ≤ k ∧ k ≤ 4
    · obtain ⟨c, rfl⟩ : ∃ c : Colonne, k = c.val + 1 := ⟨⟨k - 1, by omega⟩, by simp only; omega⟩
      exact ⟨inscrit c last j, fun _ => ⟨rfl, rfl⟩, history_classe hj c⟩
    · have h0 : j.equipe ≠ 0 := by simpa [Joueur.enLice] using hj
      apply hrien
      rw [Game.classe, if_neg h0]
      simp only [addPlayer, setFinalPoints, column_eq_none hk]
      split
      · exact history_ajouteVictoire db j.playerId
      · rfl
  · have h0 : j.equipe = 0 := by simpa [Joueur.enLice] using hj
    apply hrien
    rw [Game.classe, if_pos h0]

theorem exists_history_classement (room last : Nat) (players : List Joueur) : ∀ (db : DataBase) (k : Nat),
    ∃ f : HistoryRow → HistoryRow, (∀ r, (f r).id = r.id ∧ (f r).finished = r.finished) ∧
      (players.foldl (Game.classe room last) (db, k)).1.history =
        Table.update HistoryRow.id room f db.history := by
  induction players with
  | nil => exact fun db _ => ⟨id, fun _ => ⟨rfl, rfl⟩, (Table.update_id room db.history).symm⟩
  | cons j players ih =>
    intro db k
    obtain ⟨f, hf, hhist⟩ := exists_history_classe room last k db j
    obtain ⟨f', hf', hhist'⟩ := ih (Game.classe room last (db, k) j).1 (Game.classe room last (db, k) j).2
    refine ⟨fun r => f' (f r), fun r => ⟨(hf' _).1.trans (hf r).1, (hf' _).2.trans (hf r).2⟩, ?_⟩
    rw [List.foldl_cons, ← Table.update_update (fun r => (hf r).1), ← hhist]
    exact hhist'

/-- **The players in their columns**, from column `k`: each winner has one more victory in the history.  The
induction is on the players; the columns that are left hold no victory. -/
theorem gagnees_classement (u : Nat) (players : List Joueur) : ∀ (db : DataBase) (k : Nat) (r : HistoryRow),
    (db.history.map (·.id)).Nodup → Table.find HistoryRow.id room db.history = some r →
    (∀ c : Colonne, k ≤ c.val + 1 → r.points c ≠ 1) → 1 ≤ k → k + (players.filter Joueur.enLice).length ≤ 5 →
    (players.foldl (Game.classe room last) (db, k)).1.gagnees u =
      db.gagnees u + (players.filter Joueur.enLice).countP fun j => j.playerId = u ∧ j.equipe = last := by
  induction players with
  | nil => exact fun db k r _ _ _ _ _ => rfl
  | cons j players ih =>
    intro db k r hids hr hlibre hk hlen
    rw [List.foldl_cons]
    by_cases hj : j.enLice = true
    · rw [List.filter_cons_of_pos hj, List.length_cons] at hlen
      obtain ⟨c, rfl⟩ : ∃ c : Colonne, k = c.val + 1 := ⟨⟨k - 1, by omega⟩, by simp only; omega⟩
      have h0 : j.equipe ≠ 0 := by simpa [Joueur.enLice] using hj
      have hhist : (Game.classe room last (db, c.val + 1) j).1.history =
          Table.update HistoryRow.id room (inscrit c last j) db.history := history_classe hj c
      have hsnd : (Game.classe room last (db, c.val + 1) j).2 = c.val + 2 := by
        rw [Game.classe, if_neg h0]
      generalize hres : Game.classe room last (db, c.val + 1) j = res at hhist hsnd
      obtain ⟨db', k'⟩ := res
      simp only at hhist hsnd
      subst hsnd
      have hids' : (db'.history.map (·.id)).Nodup := by
        rw [hhist, Table.map_key_update (inscrit_id c last j)]
        exact hids
      have hr' : Table.find HistoryRow.id room db'.history = some (inscrit c last j r) := by
        rw [hhist, Table.find_update (inscrit_id c last j), if_pos rfl, hr, Option.map_some]
      have hsum : db'.gagnees u + r.gagnees u = db.gagnees u + (inscrit c last j r).gagnees u := by
        rw [gagnees, hhist]
        exact Table.sum_update hids hr (HistoryRow.gagnees u)
      have hrow : (inscrit c last j r).gagnees u =
          r.gagnees u + if j.playerId = u ∧ j.equipe = last then 1 else 0 := by
        rw [inscrit, HistoryRow.gagnees_avec u (hlibre c le_rfl)]
        by_cases hl : j.equipe = last <;> simp [hl]
      have hlibre' : ∀ c' : Colonne, c.val + 2 ≤ c'.val + 1 → (inscrit c last j r).points c' ≠ 1 := by
        intro c' hc'
        have hne : c' ≠ c := by
          rintro rfl
          omega
        have hpoints : (inscrit c last j r).points c' = r.points c' := Function.update_of_ne hne ..
        rw [hpoints]
        exact hlibre c' (by omega)
      have ih := ih db' (c.val + 2) _ hids' hr' hlibre' (by omega) (by omega)
      rw [ih, List.filter_cons_of_pos hj, List.countP_cons]
      simp only [decide_eq_true_eq]
      omega
    · have h0 : j.equipe = 0 := by simpa [Joueur.enLice] using hj
      rw [List.filter_cons_of_neg hj] at hlen ⊢
      rw [Game.classe, if_pos h0]
      exact ih db k r hids hr hlibre hk hlen

/-- **`end_game` gives a user the victories that it writes in the history**, where the columns are enough for
the players and each of them has an account. -/
theorem solde_classement (u : Nat) {players : List Joueur} (hids : (db.history.map (·.id)).Nodup)
    (hr : Table.find HistoryRow.id room db.history = some r) (hlibre : ∀ c, r.points c ≠ 1)
    (hlen : (players.filter Joueur.enLice).length ≤ 4)
    (hcomptes : ∀ j ∈ players, (db.getUserPoints j.playerId).isSome = true) :
    (players.foldl (Game.classe room last) (db, 1)).1.solde u = db.solde u := by
  have hg : (players.foldl (Game.classe room last) (db, 1)).1.gagnees u = db.gagnees u +
      (players.filter Joueur.enLice).countP fun j => j.playerId = u ∧ j.equipe = last :=
    gagnees_classement u players db 1 r hids hr (fun c _ => hlibre c) le_rfl (by omega)
  obtain ⟨_, _, hv⟩ := classe_foldl room last players db 1 ⟨r, hr⟩ le_rfl
  rw [solde, solde, hg, victoires, victoires, hv u]
  cases hu : db.getUserPoints u with
  | some n =>
    simp only [Option.map_some, Option.getD_some]
    push_cast
    omega
  | none =>
    have hzero : (players.filter Joueur.enLice).countP (fun j => j.playerId = u ∧ j.equipe = last) = 0 := by
      rw [List.countP_eq_zero]
      intro j hj hjl
      have hsome := hcomptes j (List.mem_of_mem_filter hj)
      rw [(of_decide_eq_true hjl).1, hu] at hsome
      cases hsome
    rw [hzero]
    rfl

end DataBase
end LombricABrac
