import Mathlib.Data.Nat.Sqrt
import Mathlib.Tactic.Linarith

/-!
# The map: blocks, explosions, water

`Map` of `sharedFiles/src/map.cpp`.  Coordinates are `int`s, read as unbounded,
and reach the map through `static_cast<uint32_t>` (`u32`); `mur` is a vector of
rows whose size is fixed by `largeur` and `hauteur`, both below `2 ^ 31` since
they are compared with `int` coordinates.  Writing a row outside the map is
undefined in the source and `none` here.

    explose_dug : an explosion turns LIGHT_WALL cells into AIR and reports exactly these
    AirLe       : the air of one map is air in the other; every operation keeps it
-/

namespace LombricABrac

def air : Char := ' '
def lightWall : Char := '#'
def solidWall : Char := '='

/-- `static_cast<uint32_t>` of an `int`: a negative one wraps to `2 ^ 31` or more. -/
def u32 (z : Int) : Nat := if 0 ≤ z then z.toNat else 2 ^ 32 - min z.natAbs (2 ^ 31)

theorem u32_of_nonneg {z : Int} (h : 0 ≤ z) : u32 z = z.toNat := if_pos h

@[simp] theorem u32_natCast (n : Nat) : u32 (n : Int) = n := by simp [u32]

theorem two_pow_le_u32 {z : Int} (h : z < 0) : 2 ^ 31 ≤ u32 z := by
  rw [u32, if_neg (by omega)]
  omega

/-- A value below `2 ^ 31` is the cast of a non-negative `int` only. -/
theorem eq_of_u32_lt {z : Int} (h : u32 z < 2 ^ 31) : 0 ≤ z ∧ z = (u32 z : Int) := by
  have hz : 0 ≤ z := by
    by_contra hn
    have := two_pow_le_u32 (z := z) (by omega)
    omega
  exact ⟨hz, by rw [u32_of_nonneg hz]; omega⟩

structure Map where
  largeur : Nat
  hauteur : Nat
  mur : Fin hauteur → Fin largeur → Char
  waterLevel : Nat
  largeur_lt : largeur < 2 ^ 31
  hauteur_lt : hauteur < 2 ^ 31

namespace Map

/-- The constructor `Map(l, h, m)`: no water. -/
def new (l h : Nat) (m : Fin h → Fin l → Char) (hl : l < 2 ^ 31) (hh : h < 2 ^ 31) : Map :=
  ⟨l, h, m, 0, hl, hh⟩

/-- `mur[y][x]`, where it is inside the map. -/
def bloc (m : Map) (x y : Nat) : Option Char :=
  if h : x < m.largeur ∧ y < m.hauteur then some (m.mur ⟨y, h.2⟩ ⟨x, h.1⟩) else none

def isTypeBloc (m : Map) (x y : Nat) (type : Char) : Bool := m.bloc x y == some type

/-- Outside the map no index matches and nothing is written, as the guard of the source asks. -/
def setBloc (m : Map) (x y : Nat) (type : Char) : Map :=
  { m with mur := fun j i => if j.val = y ∧ i.val = x then type else m.mur j i }

/-- `for(i < largeur) mur[row][i] = AIR`. -/
def clearRow (m : Map) (row : Nat) : Map :=
  { m with mur := fun j i => if j.val = row then air else m.mur j i }

/-- Three columns of AIR over LIGHT_WALL over SOLID_WALL. -/
def petite : Map :=
  new 3 5 (fun y _ => if y.val = 4 then solidWall else if y.val = 3 then lightWall else air)
    (by decide) (by decide)

/-! ## Explosions -/

/-- Least integer at or above `√d`. -/
def ceilSqrt (d : Nat) : Nat := if d.sqrt * d.sqrt = d then d.sqrt else d.sqrt + 1

/-- `int y = y2`: `yExplosion - √d` truncated toward zero. -/
def yDebut (yExplosion : Int) (d : Nat) : Int :=
  if (ceilSqrt d : Int) ≤ yExplosion then yExplosion - ceilSqrt d else yExplosion - d.sqrt

/-- The rows `y2 ≤ y ≤ y1` of one column. -/
def colonne (x yExplosion : Int) (d : Nat) : List (Int × Int) :=
  (List.range (yExplosion + d.sqrt + 1 - yDebut yExplosion d).toNat).map fun (j : Nat) =>
    (x, yDebut yExplosion d + j)

/-- The cells `explose` visits, in its order. -/
def cases (xExplosion yExplosion : Int) (radius : Nat) : List (Int × Int) :=
  (List.range (2 * radius + 1)).flatMap fun (k : Nat) =>
    let x := xExplosion - radius + k
    colonne x yExplosion ((radius : Int) ^ 2 - (x - xExplosion) ^ 2).toNat

/-- The body of the double loop. -/
def creuse (s : Map × List Int) (c : Int × Int) : Map × List Int :=
  if s.1.isTypeBloc (u32 c.1) (u32 c.2) lightWall then
    (s.1.setBloc (u32 c.1) (u32 c.2) air, s.2 ++ [c.1, c.2])
  else s

def explose (m : Map) (xExplosion yExplosion : Int) (radius : Nat) : Map × List Int :=
  (cases xExplosion yExplosion radius).foldl creuse (m, [])

/-! ## Water -/

def setWaterLevel (m : Map) (newLevel : Nat) : Option Map :=
  let m := { m with waterLevel := newLevel }
  if newLevel = 0 then some m
  else if newLevel ≤ m.hauteur then some (m.clearRow (m.hauteur - newLevel)) else none

def increaseWaterLevel (m : Map) : Option Map :=
  let m := { m with waterLevel := m.waterLevel + 1 }
  if m.waterLevel ≤ m.hauteur then some (m.clearRow (m.hauteur - m.waterLevel)) else none

/-! ## Lemmas -/

theorem ceilSqrt_le {d k : Nat} (h : d ≤ k ^ 2) : ceilSqrt d ≤ k := by
  have hle : d.sqrt ≤ k := by
    rw [← Nat.sqrt_eq' k]
    exact Nat.sqrt_le_sqrt h
  unfold ceilSqrt
  split
  · exact hle
  · next hne =>
    -- `k` itself is reached only by the square of `k`
    rcases eq_or_lt_of_le hle with he | hlt
    · have hd := Nat.sqrt_le d
      rw [he, ← pow_two] at hd hne
      omega
    · exact hlt

theorem bloc_of_lt {m : Map} {x y : Nat} (h : x < m.largeur ∧ y < m.hauteur) :
    m.bloc x y = some (m.mur ⟨y, h.2⟩ ⟨x, h.1⟩) := dif_pos h

theorem bloc_eq_none_iff (m : Map) (x y : Nat) :
    m.bloc x y = none ↔ ¬ (x < m.largeur ∧ y < m.hauteur) := by
  simp [bloc]

theorem lt_of_bloc {m : Map} {x y : Nat} {c : Char} (h : m.bloc x y = some c) :
    x < m.largeur ∧ y < m.hauteur := by
  by_contra hn
  rw [(bloc_eq_none_iff m x y).mpr hn] at h
  cases h

theorem bloc_setBloc (m : Map) (x y : Nat) (c : Char) (i j : Nat) :
    (m.setBloc x y c).bloc i j =
      if i = x ∧ j = y then (m.bloc i j).map fun _ => c else m.bloc i j := by
  by_cases h : i < m.largeur ∧ j < m.hauteur
  · have e : (m.setBloc x y c).bloc i j =
        some (if j = y ∧ i = x then c else m.mur ⟨j, h.2⟩ ⟨i, h.1⟩) :=
      bloc_of_lt (m := m.setBloc x y c) h
    rw [e, bloc_of_lt h]
    by_cases hxy : i = x ∧ j = y
    · rw [if_pos hxy, if_pos hxy.symm]
      rfl
    · rw [if_neg hxy, if_neg (fun h => hxy h.symm)]
  · rw [(bloc_eq_none_iff m i j).mpr h, (bloc_eq_none_iff (m.setBloc x y c) i j).mpr h]
    split <;> rfl

theorem bloc_clearRow (m : Map) (row i j : Nat) :
    (m.clearRow row).bloc i j = if j = row then (m.bloc i j).map fun _ => air else m.bloc i j := by
  by_cases h : i < m.largeur ∧ j < m.hauteur
  · have e : (m.clearRow row).bloc i j = some (if j = row then air else m.mur ⟨j, h.2⟩ ⟨i, h.1⟩) :=
      bloc_of_lt (m := m.clearRow row) h
    rw [e, bloc_of_lt h]
    split <;> rfl
  · rw [(bloc_eq_none_iff m i j).mpr h, (bloc_eq_none_iff (m.clearRow row) i j).mpr h]
    split <;> rfl

theorem isTypeBloc_iff (m : Map) (x y : Nat) (c : Char) :
    m.isTypeBloc x y c = true ↔ m.bloc x y = some c := by
  simp [isTypeBloc]

/-- Two maps of one size, one water level and the same blocks are equal. -/
theorem ext_bloc {m m' : Map} (hl : m.largeur = m'.largeur) (hh : m.hauteur = m'.hauteur)
    (hw : m.waterLevel = m'.waterLevel) (hb : ∀ x y, m.bloc x y = m'.bloc x y) : m = m' := by
  obtain ⟨l, h, mur, w, h1, h2⟩ := m
  obtain ⟨l', h', mur', w', h1', h2'⟩ := m'
  simp only at hl hh hw
  subst hl hh hw
  have : mur = mur' := by
    funext j i
    have := hb i.val j.val
    simpa [bloc] using this
  subst this
  rfl

/-! ### What an operation does to the air -/

/-- `m'` has the size of `m` and at least its air. -/
structure AirLe (m m' : Map) : Prop where
  largeur_eq : m'.largeur = m.largeur
  hauteur_eq : m'.hauteur = m.hauteur
  air_mono : ∀ x y, m.bloc x y = some air → m'.bloc x y = some air

theorem airLe_clearRow (m : Map) (row : Nat) : AirLe m (m.clearRow row) := by
  refine ⟨rfl, rfl, fun x y h => ?_⟩
  rw [bloc_clearRow, h]
  split <;> rfl

theorem increaseWaterLevel_spec {m m' : Map} (h : m.increaseWaterLevel = some m') :
    m.waterLevel + 1 ≤ m.hauteur ∧
      m' = { m.clearRow (m.hauteur - (m.waterLevel + 1)) with waterLevel := m.waterLevel + 1 } := by
  simp only [increaseWaterLevel] at h
  split at h
  · next hle => cases h; exact ⟨hle, rfl⟩
  · simp at h

theorem airLe_increaseWaterLevel {m m' : Map} (h : m.increaseWaterLevel = some m') : AirLe m m' := by
  obtain ⟨_, rfl⟩ := increaseWaterLevel_spec h
  exact ⟨rfl, rfl, fun x y hx => (airLe_clearRow m _).air_mono x y hx⟩

/-! ### Explosions turn LIGHT_WALL into AIR and report it -/

/-- `x0, y0, x1, y1, …`: how a list of cells is pushed on a `std::vector`. -/
def flat (cs : List (Nat × Nat)) : List Nat := cs.flatMap fun c => [c.1, c.2]

theorem flat_append (cs ds : List (Nat × Nat)) : flat (cs ++ ds) = flat cs ++ flat ds :=
  List.flatMap_append

/-- `m'` is `m` with the LIGHT_WALL cells `cs` turned into AIR. -/
structure Dug (m : Map) (cs : List (Nat × Nat)) (m' : Map) : Prop where
  largeur_eq : m'.largeur = m.largeur
  hauteur_eq : m'.hauteur = m.hauteur
  waterLevel_eq : m'.waterLevel = m.waterLevel
  wall : ∀ c ∈ cs, m.bloc c.1 c.2 = some lightWall
  bloc_eq : ∀ x y, m'.bloc x y = if (x, y) ∈ cs then some air else m.bloc x y

theorem dug_nil (m : Map) : Dug m [] m :=
  ⟨rfl, rfl, rfl, by simp, by simp⟩

theorem Dug.airLe {m m' : Map} {cs : List (Nat × Nat)} (h : Dug m cs m') : AirLe m m' := by
  refine ⟨h.largeur_eq, h.hauteur_eq, fun x y hx => ?_⟩
  rw [h.bloc_eq]
  split
  · rfl
  · exact hx

theorem Dug.trans {m m' m'' : Map} {cs ds : List (Nat × Nat)} (h : Dug m cs m') (h' : Dug m' ds m'') :
    Dug m (cs ++ ds) m'' := by
  refine ⟨h'.1.trans h.1, h'.2.trans h.2, h'.3.trans h.3, fun c hc => ?_, fun x y => ?_⟩
  · rcases List.mem_append.mp hc with hc | hc
    · exact h.wall c hc
    · -- a cell dug later was still LIGHT_WALL, so the first digging left it alone
      have hw := h'.wall c hc
      rw [h.bloc_eq] at hw
      split at hw
      · simp [air, lightWall] at hw
      · exact hw
  · rw [h'.bloc_eq, h.bloc_eq]
    by_cases hd : (x, y) ∈ ds <;> by_cases hc : (x, y) ∈ cs <;> simp [hd, hc]

theorem dug_setBloc {m : Map} {x y : Nat} (h : m.bloc x y = some lightWall) :
    Dug m [(x, y)] (m.setBloc x y air) := by
  refine ⟨rfl, rfl, rfl, by simpa using h, fun i j => ?_⟩
  rw [bloc_setBloc]
  by_cases hij : i = x ∧ j = y
  · obtain ⟨rfl, rfl⟩ := hij
    simp [h]
  · rw [if_neg hij, if_neg (by simpa using hij)]

theorem creuse_dug (s : Map × List Int) (c : Int × Int) :
    ∃ cs, (creuse s c).2.map u32 = s.2.map u32 ++ flat cs ∧ Dug s.1 cs (creuse s c).1 := by
  unfold creuse
  split
  · next hw =>
    rw [isTypeBloc_iff] at hw
    exact ⟨[(u32 c.1, u32 c.2)], by simp [flat], dug_setBloc hw⟩
  · exact ⟨[], by simp [flat], dug_nil s.1⟩

/-- **`explose` reports exactly the cells it changes**, all of them LIGHT_WALL before. -/
theorem explose_dug (m : Map) (xE yE : Int) (radius : Nat) :
    ∃ cs, (m.explose xE yE radius).2.map u32 = flat cs ∧ Dug m cs (m.explose xE yE radius).1 := by
  have step : ∀ (l : List (Int × Int)) (s : Map × List Int) (cs : List (Nat × Nat)),
      s.2.map u32 = flat cs → Dug m cs s.1 →
      ∃ ds, (l.foldl creuse s).2.map u32 = flat ds ∧ Dug m ds (l.foldl creuse s).1 := by
    intro l
    induction l with
    | nil => intro s cs h1 h2; exact ⟨cs, h1, h2⟩
    | cons c l ih =>
      intro s cs h1 h2
      obtain ⟨ds, h3, h4⟩ := creuse_dug s c
      exact ih (creuse s c) (cs ++ ds) (by rw [h3, h1, flat_append]) (h2.trans h4)
  exact step _ (m, []) [] rfl (dug_nil m)

end Map

end LombricABrac
