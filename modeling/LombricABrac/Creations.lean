import LombricABrac.Voies
import LombricABrac.Lib.Runs

/-!
# The id of a new room

`create_room_thread` of `Server/src/broker.cpp`, which the broker runs for each CLIENT_CREATE_ROOM.  It inserts
a row into `history` and asks for the id of the last one, by a time that is kept in seconds: of the rows
of one second SQLite may return any.

    derniers_createRoom  : the rows that may come first
    distinctes_etape     : the creations that give a room its own id, whatever comes first
    distinctes_of_reach  : the runs of such creations
    meme_seconde         : two rooms in one second
-/

namespace LombricABrac

namespace Tables

/-- The row of `db.create_room(owner_id)`, with the time of the clock. -/
def nouvelle (ownerId heure : Nat) (t : Tables) : PartieRow where
  id := suivant (t.history.map (·.id))
  userId i := if i.val = 0 then ownerId else 0
  points _ := 0
  finished := false
  timestamp := heure

def createRoom (ownerId heure : Nat) (t : Tables) : Tables :=
  { t with history := t.history ++ [t.nouvelle ownerId heure] }

/-- The rows with the last time. -/
def derniers (t : Tables) : List Nat :=
  (t.history.filter fun h => ∀ h' ∈ t.history, h'.timestamp ≤ h.timestamp).map (·.id)

/-- `db.get_last_room_id(&room_id)`, where the rows with the last time come in some order. -/
def getLastRoomId (choix : Nat) (t : Tables) : Option Nat := t.derniers[choix % t.derniers.length]?

end Tables

/-! ## State -/

/-- A room: the row that was inserted for it, if one was, and the id that its thread is given. -/
structure Creation where
  ligne : Option Nat
  roomId : Int

/-- The channel of the room. -/
def Creation.voie (c : Creation) : Voie := .salle c.roomId

structure Creations where
  tables : Tables
  heure : Nat
  salles : List Creation

namespace Creations

/-- A creation: the seconds since the last one, whether the two statements succeed, which row comes first
and what the variable holds.  Or another column of a row is written: `add_player`, `set_final_points`,
`close_room`. -/
inductive Pas where
  | cree (ownerId attente : Nat) (insere lit : Bool) (choix : Nat) (indefini : Int)
  | modifie (roomId : Nat) (f : HistoryRow → HistoryRow)

def createRoomThread (ownerId attente : Nat) (insere lit : Bool) (choix : Nat) (indefini : Int)
    (st : Creations) : Creations :=
  let heure := st.heure + attente
  let tables := if insere then st.tables.createRoom ownerId heure else st.tables
  let roomId := if lit then (tables.getLastRoomId choix).elim indefini Int.ofNat else indefini
  { tables
    heure
    salles := st.salles ++
      [⟨if insere then some (suivant (st.tables.history.map (·.id))) else none, roomId⟩] }

def etape (p : Pas) (st : Creations) : Option Creations :=
  match p with
  | .cree ownerId attente insere lit choix indefini =>
    some (st.createRoomThread ownerId attente insere lit choix indefini)
  | .modifie roomId f => some { st with tables := { st.tables with history := st.tables.history.map fun h =>
      if h.id = roomId then { h with toHistoryRow := { f h.toHistoryRow with id := h.id } } else h } }

/-- Each room has the id of the row inserted for it, and no two have one id or one channel. -/
structure Distinctes (st : Creations) : Prop where
  ligne : ∀ c ∈ st.salles, c.ligne.map Int.ofNat = some c.roomId
  roomId : (st.salles.map (·.roomId)).Nodup
  voie : (st.salles.map fun c => c.voie.texte).Nodup

/-- No row is of the second in which the room is created, and both statements succeed. -/
def seule (p : Pas) (st : Creations) : Bool :=
  match p with
  | .cree _ attente insere lit _ _ =>
    insere && lit && st.tables.history.all fun h => h.timestamp != st.heure + attente
  | .modifie .. => true

/-- The rows there are of some time before. -/
def Depart (st : Creations) : Prop :=
  (∀ h ∈ st.tables.history, h.timestamp ≤ st.heure) ∧ st.salles = []

/-! ## Invariant -/

variable {p : Pas} {st st' : Creations}

/-- What holds of every run: no row is of a time to come, and the rows of the rooms are there. -/
structure Passe (st : Creations) : Prop where
  heure : ∀ h ∈ st.tables.history, h.timestamp ≤ st.heure
  lignes : ∀ c ∈ st.salles, ∀ n ∈ c.ligne, n ∈ st.tables.history.map (·.id)

theorem passe_etape (h : st.Passe) (hs : etape p st = some st') : st'.Passe := by
  cases p with
  | cree ownerId attente insere lit choix indefini =>
    cases hs
    unfold createRoomThread
    cases insere with
    | false =>
      refine ⟨fun r hr => (h.heure r hr).trans (Nat.le_add_right _ _), fun c hc n hn => ?_⟩
      rcases List.mem_append.mp hc with hc | hc
      · exact h.lignes c hc n hn
      · rw [List.mem_singleton.mp hc] at hn
        cases hn
    | true =>
      refine ⟨fun r hr => ?_, fun c hc n hn => ?_⟩
      · rcases List.mem_append.mp hr with hr | hr
        · exact (h.heure r hr).trans (Nat.le_add_right _ _)
        · rw [List.mem_singleton.mp hr]
          exact le_rfl
      · simp only [if_true, Tables.createRoom, List.map_append, List.mem_append]
        rcases List.mem_append.mp hc with hc | hc
        · exact Or.inl (h.lignes c hc n hn)
        · rw [List.mem_singleton.mp hc] at hn
          cases hn
          exact Or.inr (List.mem_singleton.mpr rfl)
  | modifie roomId f =>
    cases hs
    refine ⟨fun r hr => ?_, fun c hc n hn => ?_⟩
    · obtain ⟨r', hr', rfl⟩ := List.mem_map.mp hr
      split
      · exact h.heure r' hr'
      · exact h.heure r' hr'
    · obtain ⟨r, hr, hn⟩ := List.mem_map.mp (h.lignes c hc n hn)
      refine List.mem_map.mpr ⟨_, List.mem_map.mpr ⟨r, hr, rfl⟩, ?_⟩
      split
      · exact hn
      · exact hn

/-! ## A creation -/

/-- **The rows that may come first**: the new one, and those of its second. -/
theorem derniers_createRoom {t : Tables} {heure : Nat} (ht : ∀ h ∈ t.history, h.timestamp ≤ heure)
    (ownerId : Nat) : (t.createRoom ownerId heure).derniers =
      (t.history.filter fun h => h.timestamp = heure).map (·.id) ++ [suivant (t.history.map (·.id))] := by
  have hle : ∀ h ∈ (t.createRoom ownerId heure).history, h.timestamp ≤ heure := by
    intro h hh
    rcases List.mem_append.mp hh with hh | hh
    · exact ht h hh
    · rw [List.mem_singleton.mp hh]
      exact le_rfl
  -- no time is later than that of the new row
  have hmax : ∀ h ∈ (t.createRoom ownerId heure).history,
      (∀ h' ∈ (t.createRoom ownerId heure).history, h'.timestamp ≤ h.timestamp) ↔ h.timestamp = heure := by
    intro h hh
    constructor
    · intro hall
      have hnew : heure ≤ h.timestamp := hall _ (List.mem_append_right _ (List.mem_singleton.mpr rfl))
      exact le_antisymm (hle h hh) hnew
    · rintro he h' hh'
      rw [he]
      exact hle h' hh'
  have hfilter : (t.createRoom ownerId heure).history.filter (fun h =>
      ∀ h' ∈ (t.createRoom ownerId heure).history, h'.timestamp ≤ h.timestamp) =
        (t.createRoom ownerId heure).history.filter fun h => h.timestamp = heure :=
    List.filter_congr fun h hh => decide_eq_decide.mpr (hmax h hh)
  rw [Tables.derniers, hfilter, Tables.createRoom, List.filter_append, List.map_append]
  congr 1
  rw [List.filter_cons_of_pos (by exact decide_eq_true rfl), List.filter_nil]
  rfl

/-- Alone in its second, the new row comes first. -/
theorem roomId_of_seule {t : Tables} {heure : Nat} (ht : ∀ h ∈ t.history, h.timestamp ≤ heure)
    (hne : ∀ h ∈ t.history, h.timestamp ≠ heure) (ownerId choix : Nat) :
    (t.createRoom ownerId heure).getLastRoomId choix = some (suivant (t.history.map (·.id))) := by
  have hnil : (t.history.filter fun h => h.timestamp = heure) = [] :=
    List.filter_eq_nil_iff.mpr fun h hh => by simpa using hne h hh
  rw [Tables.getLastRoomId, derniers_createRoom ht, hnil, List.map_nil, List.nil_append,
    List.length_singleton, Nat.mod_one]
  rfl

/-- Another row of its second may come first. -/
theorem exists_choix {t : Tables} {heure : Nat} (ht : ∀ h ∈ t.history, h.timestamp ≤ heure)
    {h : PartieRow} (hh : h ∈ t.history) (he : h.timestamp = heure) (ownerId : Nat) :
    ∃ choix, (t.createRoom ownerId heure).getLastRoomId choix = some h.id := by
  have hin : h.id ∈ (t.createRoom ownerId heure).derniers := by
    rw [derniers_createRoom ht]
    refine List.mem_append_left _ (List.mem_map.mpr ⟨h, List.mem_filter.mpr ⟨hh, ?_⟩, rfl⟩)
    exact decide_eq_true he
  obtain ⟨i, hi, hget⟩ := List.getElem_of_mem hin
  refine ⟨i, ?_⟩
  rw [Tables.getLastRoomId, Nat.mod_eq_of_lt hi, List.getElem?_eq_getElem hi, hget]

theorem nodup_voies {l : List Creation} (h : (l.map (·.roomId)).Nodup) :
    (l.map fun c => c.voie.texte).Nodup := by
  have hmap : (l.map fun c => c.voie.texte) = (l.map (·.roomId)).map fun id => (Voie.salle id).texte := by
    rw [List.map_map]
    rfl
  rw [hmap]
  exact h.map fun a b hab => Voie.salle.inj (Voie.texte_injective hab)

/-- **A creation alone in its second**: the room gets the id of its row, whatever comes first. -/
theorem distinctes_seule (hP : st.Passe) (hD : st.Distinctes) {attente : Nat}
    (hne : ∀ h ∈ st.tables.history, h.timestamp ≠ st.heure + attente) (ownerId choix : Nat) (indefini : Int) :
    (st.createRoomThread ownerId attente true true choix indefini).Distinctes := by
  have hheure : ∀ h ∈ st.tables.history, h.timestamp ≤ st.heure + attente :=
    fun h hh => (hP.heure h hh).trans (Nat.le_add_right _ _)
  have hroom := roomId_of_seule hheure hne ownerId choix
  have hsalles : (st.createRoomThread ownerId attente true true choix indefini).salles =
      st.salles ++ [⟨some (suivant (st.tables.history.map (·.id))),
        (suivant (st.tables.history.map (·.id)) : Int)⟩] := by
    simp only [createRoomThread, if_true, hroom]
    rfl
  have hnodup : ((st.createRoomThread ownerId attente true true choix indefini).salles.map
      (·.roomId)).Nodup := by
    rw [hsalles, List.map_append, List.nodup_append]
    refine ⟨hD.roomId, List.nodup_singleton _, ?_⟩
    rintro a ha b hb rfl
    -- the rooms there are have rows, whose ids come before
    obtain ⟨c, hc, rfl⟩ := List.mem_map.mp ha
    obtain ⟨n, hn, hcn⟩ := Option.map_eq_some_iff.mp (hD.ligne c hc)
    have hlt := lt_suivant (hP.lignes c hc n hn)
    have hb : c.roomId = (suivant (st.tables.history.map (·.id)) : Int) := List.mem_singleton.mp hb
    have hcn : (n : Int) = c.roomId := hcn
    omega
  refine ⟨fun c hc => ?_, hnodup, nodup_voies hnodup⟩
  rw [hsalles] at hc
  rcases List.mem_append.mp hc with hc | hc
  · exact hD.ligne c hc
  · rw [List.mem_singleton.mp hc]
    rfl

/-- **A creation** gives its room an id of its own, whatever comes first, exactly where its row is alone in
its second and both statements succeed. -/
theorem distinctes_createRoom (hP : st.Passe) (hD : st.Distinctes) (ownerId attente : Nat)
    (insere lit : Bool) :
    (∀ choix indefini, (st.createRoomThread ownerId attente insere lit choix indefini).Distinctes) ↔
      (insere && lit && st.tables.history.all fun h => h.timestamp != st.heure + attente) = true := by
  have hheure : ∀ h ∈ st.tables.history, h.timestamp ≤ st.heure + attente :=
    fun h hh => (hP.heure h hh).trans (Nat.le_add_right _ _)
  have hligne : ∀ choix indefini, (st.createRoomThread ownerId attente insere lit choix indefini).Distinctes →
      insere = true ∧ (if lit then ((st.tables.createRoom ownerId (st.heure + attente)).getLastRoomId
        choix).elim indefini Int.ofNat else indefini) = (suivant (st.tables.history.map (·.id)) : Int) := by
    intro choix indefini h
    have hlast := h.ligne _ (List.mem_append_right _ (List.mem_singleton.mpr rfl))
    cases insere with
    | false => cases hlast
    | true => exact ⟨rfl, (Option.some.inj hlast).symm⟩
  simp only [Bool.and_eq_true, List.all_eq_true, bne_iff_ne]
  constructor
  · intro h
    obtain ⟨hinsere, _⟩ := hligne 0 0 (h 0 0)
    have hlit : lit = true := by
      by_contra hlit
      have h0 := (hligne 0 0 (h 0 0)).2
      have h1 := (hligne 0 1 (h 0 1)).2
      rw [if_neg hlit] at h0 h1
      omega
    refine ⟨⟨hinsere, hlit⟩, fun r hr he => ?_⟩
    obtain ⟨choix, hchoix⟩ := exists_choix hheure hr he ownerId
    have hid := (hligne choix 0 (h choix 0)).2
    rw [if_pos hlit, hchoix] at hid
    have hlt := lt_suivant (List.mem_map.mpr ⟨r, hr, rfl⟩ : r.id ∈ st.tables.history.map (·.id))
    have hid : (r.id : Int) = (suivant (st.tables.history.map (·.id)) : Int) := hid
    omega
  · rintro ⟨⟨rfl, rfl⟩, hne⟩ choix indefini
    exact distinctes_seule hP hD hne ownerId choix indefini

theorem distinctes_etape (hP : st.Passe) (hD : st.Distinctes) (hok : seule p st = true)
    (hs : etape p st = some st') : st'.Distinctes := by
  cases p with
  | cree ownerId attente insere lit choix indefini =>
    cases hs
    exact (distinctes_createRoom hP hD ownerId attente insere lit).mpr hok choix indefini
  | modifie roomId f =>
    cases hs
    exact ⟨hD.ligne, hD.roomId, hD.voie⟩

/-! ## Runs -/

/-- **Each room has its own id**: in every run whose rooms are created in seconds of which no other row is,
by statements that succeed; the first room of a second that has a row may get the id of another one. -/
theorem distinctes_of_reach (st : Creations)
    (h : Runs.Reach etape (fun p st => seule p st = true) Depart st) :
    st.Distinctes ∧ ∀ ownerId attente insere lit,
      (∀ choix indefini st', etape (.cree ownerId attente insere lit choix indefini) st = some st' →
        st'.Distinctes) ↔ ∀ choix indefini, seule (.cree ownerId attente insere lit choix indefini) st = true := by
  have hinv : st.Passe ∧ st.Distinctes := by
    refine h.invariant (I := fun st => st.Passe ∧ st.Distinctes) (fun st h0 => ?_) fun p st st' hI hok hs =>
      ⟨passe_etape hI.1 hs, distinctes_etape hI.1 hI.2 hok hs⟩
    obtain ⟨hheure, hnil⟩ := h0
    refine ⟨⟨hheure, ?_⟩, ⟨?_, ?_, ?_⟩⟩ <;> rw [hnil]
    · exact nofun
    · exact nofun
    · exact List.nodup_nil
    · exact List.nodup_nil
  refine ⟨hinv.2, fun ownerId attente insere lit => ?_⟩
  have hcree := distinctes_createRoom hinv.1 hinv.2 ownerId attente insere lit
  constructor
  · exact fun hall choix indefini => hcree.mp fun choix indefini => hall choix indefini _ rfl
  · rintro hseule choix indefini st' hs
    cases hs
    exact hcree.mpr (hseule 0 0) choix indefini

/-! ## Two rooms -/

/-- No room was ever created. -/
def vide : Creations := ⟨⟨[], [], [], [], []⟩, 0, []⟩

theorem depart_vide : Depart vide := ⟨nofun, rfl⟩

/-- Users 1 and 2 ask in the same second: both are given room 1. -/
theorem meme_seconde : ∃ st, Runs.Reach etape (fun _ _ => True) Depart st ∧
    st.salles.map (·.ligne) = [some 1, some 2] ∧ st.salles.map (·.roomId) = [1, 1] ∧ ¬ st.Distinctes := by
  obtain ⟨st, _, hr, hp⟩ := Runs.exists_of_exec etape (fun _ _ => True) depart_vide
    [.cree 1 5 true true 0 0, .cree 2 0 true true 0 0]
    (fun st => st.salles.map (·.ligne) == [some 1, some 2] && st.salles.map (·.roomId) == [1, 1])
    (by decide +kernel)
  simp only [Bool.and_eq_true, beq_iff_eq] at hp
  refine ⟨st, hr, hp.1, hp.2, fun hD => ?_⟩
  have hnodup := hD.roomId
  rw [hp.2] at hnodup
  exact absurd hnodup (by decide)

/-- A second later the room gets its own id. -/
theorem seconde_apres : ∃ st, Runs.exec etape (fun p st => seule p st = true)
      [.cree 1 5 true true 0 0, .cree 2 1 true true 0 0] vide = some st ∧
    st.salles.map (·.roomId) = [1, 2] ∧ st.Distinctes := by
  obtain ⟨st, hst, hr, hp⟩ := Runs.exists_of_exec etape (fun p st => seule p st = true) depart_vide
    [.cree 1 5 true true 0 0, .cree 2 1 true true 0 0]
    (fun st => st.salles.map (·.roomId) == [1, 2]) (by decide +kernel)
  exact ⟨st, hst, beq_iff_eq.mp hp, (distinctes_of_reach st hr).1⟩

end Creations
end LombricABrac
