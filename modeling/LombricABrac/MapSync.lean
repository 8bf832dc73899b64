import LombricABrac.GameThread
import LombricABrac.Explosions
import LombricABrac.Lib.Board

/-!
# The client's map follows the server's

`partieQT` of `Client/src/partieQT.cpp` replays a shot on its own: its explosions dig the client's
map and are recorded in `blockDeleted`.  A NEXT_ROUND puts these cells back, digs the cells of
UPDATE_WALL, then clears the row of the water.  Seen as boards, the first step undoes what the
client dug (`Board.put_restore`), the second is the digging of the server, or nothing when the list
is the one of an older round (`Board.put_eq_self`).

    pose_restaure      : putting back the cells of any local explosions gives the map before them
    suit_handleGame    : what a handler sends leads a client from one map of the server to the next
    carte_synchronisee : after each NEXT_ROUND the client has the map of the server at `end_round`
-/

namespace LombricABrac

/-! ## The client -/

/-- The members of `partieQT` that concern the map. -/
structure PartieQT where
  carte : Map
  blockDeleted : List Int
  destroyByServ : List Nat

namespace PartieQT

/-- `setBloc` for each pair of coordinates of a list. -/
def pose (type : Char) : List Nat → Map → Map
  | x :: y :: reste, m => pose type reste (m.setBloc x y type)
  | _, m => m

def addDeletedBlock (v : List Int) (q : PartieQT) : PartieQT :=
  { q with blockDeleted := q.blockDeleted ++ v }

/-- A projectile dies in the simulation of the client. -/
def explose (x y : Int) (radius : Nat) (q : PartieQT) : PartieQT :=
  addDeletedBlock (q.carte.explose x y radius).2 { q with carte := (q.carte.explose x y radius).1 }

def synchronizeMap (b : List Nat) (q : PartieQT) : PartieQT :=
  { q with carte := pose air b (pose lightWall (q.blockDeleted.map u32) q.carte) }

/-- What `updateGame` does to the map with UPDATE_WALL and with NEXT_ROUND. -/
def lit (a : Annonce) (q : PartieQT) : Option PartieQT :=
  match a with
  | .updateWall coord => some { q with destroyByServ := coord }
  | .nextRound next =>
    ((q.synchronizeMap q.destroyByServ).carte.setWaterLevel next.waterLevel).map fun carte =>
      ⟨carte, [], q.destroyByServ⟩
  | _ => some q

end PartieQT

/-! ## Maps as boards -/

namespace Map

open Board

/-- The blocks, as a board of all coordinates. -/
def plan (m : Map) : Nat × Nat → Option Char := fun c => m.bloc c.1 c.2

theorem ext_plan {m m' : Map} (hl : m.largeur = m'.largeur) (hh : m.hauteur = m'.hauteur)
    (hw : m.waterLevel = m'.waterLevel) (hp : m.plan = m'.plan) : m = m' :=
  ext_bloc hl hh hw fun x y => congrFun hp (x, y)

/-- Cells of a list that are inside the map. -/
def dedans (m : Map) (cs : List (Nat × Nat)) : Set (Nat × Nat) := {c | c ∈ cs ∧ m.plan c ≠ none}

theorem dedans_of_plan {m : Map} {cs : List (Nat × Nat)} {t : Char}
    (h : ∀ c ∈ cs, m.plan c = some t) : m.dedans cs = {c | c ∈ cs} := by
  ext c
  constructor
  · exact And.left
  · intro hc
    exact ⟨hc, by rw [h c hc]; exact Option.some_ne_none t⟩

theorem plan_setBloc (m : Map) (x y : Nat) (t : Char) :
    (m.setBloc x y t).plan = put (m.dedans [(x, y)]) (some t) m.plan := by
  funext ⟨i, j⟩
  have hb := bloc_setBloc m x y t i j
  by_cases hin : (i, j) ∈ m.dedans [(x, y)]
  · rw [put_of_mem hin]
    obtain ⟨he, hn⟩ := hin
    obtain ⟨rfl, rfl⟩ := Prod.mk.inj (List.mem_singleton.mp he)
    obtain ⟨b, hb'⟩ := Option.ne_none_iff_exists'.mp hn
    rw [if_pos ⟨rfl, rfl⟩, show m.bloc i j = some b from hb'] at hb
    exact hb
  · rw [put_of_notMem hin]
    by_cases hij : i = x ∧ j = y
    · obtain ⟨rfl, rfl⟩ := hij
      have hnone : m.bloc i j = none := by
        by_contra hne
        exact hin ⟨List.mem_singleton.mpr rfl, hne⟩
      rw [if_pos ⟨rfl, rfl⟩, hnone] at hb
      exact hb.trans hnone.symm
    · rw [if_neg hij] at hb
      exact hb

/-- Putting a block never takes a cell out of the map. -/
theorem plan_setBloc_ne_none (m : Map) (x y : Nat) (t : Char) (c : Nat × Nat) :
    (m.setBloc x y t).plan c ≠ none ↔ m.plan c ≠ none := by
  rw [plan_setBloc]
  by_cases hin : c ∈ m.dedans [(x, y)]
  · rw [put_of_mem hin]
    exact ⟨fun _ => hin.2, fun _ => Option.some_ne_none t⟩
  · rw [put_of_notMem hin]

theorem pose_meme (t : Char) (cs : List (Nat × Nat)) : ∀ m : Map,
    (PartieQT.pose t (flat cs) m).largeur = m.largeur ∧
      (PartieQT.pose t (flat cs) m).hauteur = m.hauteur ∧
      (PartieQT.pose t (flat cs) m).waterLevel = m.waterLevel := by
  induction cs with
  | nil => intro m; exact ⟨rfl, rfl, rfl⟩
  | cons c cs ih => intro m; exact ih (m.setBloc c.1 c.2 t)

theorem plan_pose (t : Char) (cs : List (Nat × Nat)) : ∀ m : Map,
    (PartieQT.pose t (flat cs) m).plan = put (m.dedans cs) (some t) m.plan := by
  induction cs with
  | nil =>
    intro m
    have hempty : m.dedans [] = ∅ := by
      ext c
      simp [dedans]
    rw [hempty, put_empty]
    rfl
  | cons c cs ih =>
    intro m
    have hstep : (PartieQT.pose t (flat (c :: cs)) m) = PartieQT.pose t (flat cs) (m.setBloc c.1 c.2 t) := rfl
    rw [hstep, ih, plan_setBloc, put_put]
    congr 1
    ext d
    simp only [dedans, plan_setBloc_ne_none, Set.mem_union, Set.mem_ofPred_eq, List.mem_cons]
    tauto

theorem Dug.plan {m m' : Map} {cs : List (Nat × Nat)} (h : Dug m cs m') :
    m'.plan = put {c | c ∈ cs} (some air) m.plan := by
  funext ⟨x, y⟩
  by_cases hc : (x, y) ∈ cs
  · rw [put_of_mem (show (x, y) ∈ {c | c ∈ cs} from hc)]
    exact (h.bloc_eq x y).trans (if_pos hc)
  · rw [put_of_notMem (show (x, y) ∉ {c | c ∈ cs} from hc)]
    exact (h.bloc_eq x y).trans (if_neg hc)

theorem Dug.air {m m' : Map} {cs : List (Nat × Nat)} (h : Dug m cs m') :
    ∀ c ∈ cs, m'.plan c = some LombricABrac.air := fun c hc => (h.bloc_eq c.1 c.2).trans (if_pos hc)

/-- **What the client dug is put back.** -/
theorem pose_restaure {m m' : Map} {cs : List (Nat × Nat)} (h : Dug m cs m') :
    PartieQT.pose lightWall (flat cs) m' = m := by
  obtain ⟨hl, hh, hw⟩ := pose_meme lightWall cs m'
  refine ext_plan (hl.trans h.largeur_eq) (hh.trans h.hauteur_eq) (hw.trans h.waterLevel_eq) ?_
  rw [plan_pose, dedans_of_plan h.air, h.plan]
  exact put_restore fun c hc => h.wall c hc

/-- The list of a shot digs what the shot dug. -/
theorem pose_creuse {m m' : Map} {cs : List (Nat × Nat)} (h : Dug m cs m') :
    PartieQT.pose air (flat cs) m = m' := by
  obtain ⟨hl, hh, hw⟩ := pose_meme LombricABrac.air cs m
  refine ext_plan (hl.trans h.largeur_eq.symm) (hh.trans h.hauteur_eq.symm)
    (hw.trans h.waterLevel_eq.symm) ?_
  rw [plan_pose, dedans_of_plan fun c hc => h.wall c hc, h.plan]

/-- The list of an older round does nothing. -/
theorem pose_vide {m : Map} {cs : List (Nat × Nat)} (h : ∀ c ∈ cs, m.plan c = some LombricABrac.air) :
    PartieQT.pose air (flat cs) m = m := by
  obtain ⟨hl, hh, hw⟩ := pose_meme LombricABrac.air cs m
  refine ext_plan hl hh hw ?_
  rw [plan_pose, dedans_of_plan h]
  exact put_eq_self h

/-! ### The row of the water -/

/-- The level is inside the map, and its row is AIR. -/
structure EauVide (m : Map) : Prop where
  le : m.waterLevel ≤ m.hauteur
  vide : m.waterLevel ≠ 0 → ∀ x, m.bloc x (m.hauteur - m.waterLevel) ≠ none →
    m.bloc x (m.hauteur - m.waterLevel) = some air

theorem clearRow_self {m : Map} {row : Nat} (h : ∀ x, m.bloc x row ≠ none → m.bloc x row = some air) :
    m.clearRow row = m := by
  refine ext_bloc rfl rfl rfl fun x y => ?_
  rw [bloc_clearRow]
  split
  · next hy =>
    subst hy
    by_cases hn : m.bloc x y = none
    · rw [hn]
      rfl
    · rw [h x hn]
      rfl
  · rfl

/-- A NEXT_ROUND without a rise of the water. -/
theorem setWaterLevel_self {m : Map} (h : m.EauVide) : m.setWaterLevel m.waterLevel = some m := by
  unfold setWaterLevel
  simp only
  split
  · rfl
  · next h0 =>
    rw [if_pos h.le]
    exact congrArg some (clearRow_self (h.vide h0))

/-- A NEXT_ROUND after a rise: the client clears the row that the server cleared. -/
theorem setWaterLevel_montee {m m' : Map} (h : m.increaseWaterLevel = some m') :
    m.setWaterLevel m'.waterLevel = some m' := by
  obtain ⟨hle, rfl⟩ := increaseWaterLevel_spec h
  unfold setWaterLevel
  simp only
  rw [if_neg (Nat.succ_ne_zero _), if_pos hle]
  rfl

theorem EauVide.dug {m m' : Map} {cs : List (Nat × Nat)} (h : m.EauVide) (hd : Dug m cs m') :
    m'.EauVide := by
  refine ⟨by rw [hd.waterLevel_eq, hd.hauteur_eq]; exact h.le, ?_⟩
  rw [hd.waterLevel_eq, hd.hauteur_eq]
  intro h0 x hn
  have hb := hd.bloc_eq x (m.hauteur - m.waterLevel)
  split at hb
  · exact hb
  · rw [hb] at hn ⊢
    exact h.vide h0 x hn

theorem eauVide_montee {m m' : Map} (h : m.increaseWaterLevel = some m') : m'.EauVide := by
  obtain ⟨hle, rfl⟩ := increaseWaterLevel_spec h
  refine ⟨hle, fun _ x hn => ?_⟩
  have hb := bloc_clearRow m (m.hauteur - (m.waterLevel + 1)) x (m.hauteur - (m.waterLevel + 1))
  rw [if_pos rfl] at hb
  have hb' : Map.bloc { m.clearRow (m.hauteur - (m.waterLevel + 1)) with waterLevel := m.waterLevel + 1 }
      x (m.hauteur - (m.waterLevel + 1)) =
        (m.bloc x (m.hauteur - (m.waterLevel + 1))).map fun _ => air := hb
  refine hb'.trans ?_
  cases hm : m.bloc x (m.hauteur - (m.waterLevel + 1)) with
  | none =>
    rw [hm] at hb'
    exact absurd hb' hn
  | some b => rfl

end Map

/-! ## Messages on their way -/

/-- The published messages that client `u` receives. -/
def pour (u : Nat) (l : List (Canal × Annonce)) : List Annonce :=
  (l.filter fun e => e.1 = .joueur u).map (·.2)

theorem pour_append (u : Nat) (l l' : List (Canal × Annonce)) :
    pour u (l ++ l') = pour u l ++ pour u l' := by
  simp [pour]

/-- Client `u` is one player of the room. -/
def Game.Present (u : Nat) (g : Game) : Prop := (g.players.filter fun j => j.playerId = u).length = 1

namespace Game

variable {u : Nat} {g g' : Game}

theorem Present.of_fixe (h : g.Present u) (hf : g'.fixe = g.fixe) : g'.Present u := by
  have he : Present u g' = Present u g := by
    refine eq_of_fixe (Present u) (fun g => ?_) hf
    simp only [Present, Game.fixe, List.filter_map, List.length_map]
    rfl
  rwa [he]

theorem Present.pour_annonce (h : g.Present u) (a : Annonce) : pour u (g.annonce a) = [a] := by
  obtain ⟨j, hj⟩ := List.length_eq_one_iff.mp h
  rw [pour, annonce, List.filter_map]
  simp only [Function.comp_def, Canal.joueur.injEq]
  rw [hj]
  rfl

theorem Present.pour_annonceTour (h : g.Present u) (lomb : NextLombric) :
    ∃ b, pour u (g.annonceTour lomb) = [.nextRound { lomb with isYours := b }] := by
  have hlen : (g.players.zipIdx.filter fun p => decide (p.1.playerId = u)).length = 1 := by
    have hmap : (g.players.zipIdx.filter fun p => decide (p.1.playerId = u)).map Prod.fst =
        g.players.filter fun j => j.playerId = u := by
      rw [← List.zipIdx_map_fst 0 g.players, List.filter_map, List.zipIdx_map_fst]
      rfl
    rw [← List.length_map Prod.fst, hmap]
    exact h
  obtain ⟨p, hp⟩ := List.length_eq_one_iff.mp hlen
  refine ⟨p.2 == g.currentPlayerId, ?_⟩
  rw [pour, annonceTour, List.filter_map]
  simp only [Function.comp_def, Canal.joueur.injEq]
  rw [hp]
  rfl

end Game

/-- It says nothing about the map. -/
def Annonce.muette : Annonce → Bool
  | .updateWall _ => false
  | .nextRound _ => false
  | _ => true

/-- Each message with the map that the server had when it had sent them. -/
def dater (m : Map) (l : List Annonce) : List (Annonce × Map) := l.map fun a => (a, m)

/-- From the map `base` and the list `destroy`, the messages lead through the dated maps, and `fin`
holds after the last one. -/
def Suit (fin : Map → List Nat → Prop) : Map → List Nat → List (Annonce × Map) → Prop
  | base, destroy, [] => fin base destroy
  | base, destroy, (a, m) :: file =>
    match a with
    | .updateWall coord => Suit fin base coord file
    | .nextRound next =>
      (PartieQT.pose air destroy base).setWaterLevel next.waterLevel = some m ∧ Suit fin m destroy file
    | _ => Suit fin base destroy file

namespace Suit

variable {fin fin' : Map → List Nat → Prop} {base : Map} {destroy : List Nat}

theorem of_muette {a : Annonce} {m : Map} {file : List (Annonce × Map)} (ha : a.muette = true) :
    Suit fin base destroy ((a, m) :: file) ↔ Suit fin base destroy file := by
  cases a <;> first | exact Iff.rfl | cases ha

/-- Messages that say nothing. -/
theorem of_muettes {m : Map} {l : List Annonce} (hl : ∀ a ∈ l, a.muette = true) (h : fin base destroy) :
    Suit fin base destroy (dater m l) := by
  induction l with
  | nil => exact h
  | cons a l ih =>
    exact (of_muette (hl a List.mem_cons_self)).mpr (ih fun b hb => hl b (List.mem_cons_of_mem _ hb))

/-- What follows the last message follows the whole. -/
theorem append {file file' : List (Annonce × Map)} : ∀ {base : Map} {destroy : List Nat},
    Suit fin base destroy file → (∀ b d, fin b d → Suit fin' b d file') →
    Suit fin' base destroy (file ++ file') := by
  induction file with
  | nil =>
    intro base destroy h hfin
    exact hfin base destroy h
  | cons e file ih =>
    obtain ⟨a, m⟩ := e
    intro base destroy h hfin
    cases a with
    | updateWall coord =>
      show Suit fin' base coord (file ++ file')
      exact ih h hfin
    | nextRound next => exact ⟨h.1, ih h.2 hfin⟩
    | _ =>
      show Suit fin' base destroy (file ++ file')
      exact ih h hfin

end Suit

/-! ## What the server sends -/

/-- `cells` of the list are AIR: digging them again does nothing. -/
def Vide (destroy : List Nat) (m : Map) : Prop :=
  ∃ cs, destroy = Map.flat cs ∧ ∀ c ∈ cs, m.plan c = some air

theorem Vide.airLe {destroy : List Nat} {m m' : Map} (h : Vide destroy m) (hm : Map.AirLe m m') :
    Vide destroy m' := by
  obtain ⟨cs, hcs, hair⟩ := h
  exact ⟨cs, hcs, fun c hc => hm.air_mono c.1 c.2 (hair c hc)⟩

/-- The room, with a map that a client would have after its list `destroy`. -/
structure Aligne (u : Nat) (s : Salle) (destroy : List Nat) (obj : Partie) : Prop where
  gameObject : s.jeu.gameObject = some obj
  repos : obj.SansProjectile
  present : s.jeu.Present u
  vide : Vide destroy obj.carte
  eau : obj.carte.EauVide

/-- When everything is read and the game is on, the maps are the same. -/
def Fin (u : Nat) (s : Salle) (base : Map) (destroy : List Nat) : Prop :=
  s.currentStep = stepGame → ∃ obj, Aligne u s destroy obj ∧ obj.carte = base

theorem dropHealthBox_carte {p p' : Partie} {pv : Int} {rand reste : List Nat} {pos : Nat × Nat}
    (h : p.dropHealthBox pv rand = some (p', pos, reste)) :
    p'.carte = p.carte ∧ (p.SansProjectile → p'.SansProjectile) := by
  unfold Partie.dropHealthBox at h
  split at h
  · simp at h
  · cases h
    refine ⟨rfl, fun hp s hs => ?_⟩
    rcases List.mem_append.mp hs with hs | hs
    · exact hp s hs
    · rw [List.mem_singleton.mp hs]
      simp [Sprite.forme]

namespace Aligne

variable {u : Nat} {s s' : Salle} {destroy : List Nat} {obj : Partie} {env : Env}

/-- The rise of the water: the client's `setWaterLevel` follows it. -/
theorem monteeEau {g : Game} (h : Aligne u s destroy obj) (hm : s.jeu.monteeEau env = some g) :
    ∃ obj', Aligne u { s with jeu := g } destroy obj' ∧
      obj.carte.setWaterLevel obj'.carte.waterLevel = some obj'.carte := by
  rcases Game.monteeEau_cases hm with rfl | ⟨obj₀, obj₁, obj', hobj, hw, hu, rfl⟩
  · exact ⟨obj, h, Map.setWaterLevel_self h.eau⟩
  · rw [h.gameObject] at hobj
    cases hobj
    obtain ⟨carte, hc, rfl⟩ := Option.map_eq_some_iff.mp hw
    have hrepos : Partie.SansProjectile { obj with carte } := h.repos
    have hcarte : obj'.carte = carte := Partie.update_carte hrepos hu
    have hair := Map.airLe_increaseWaterLevel hc
    refine ⟨obj', ⟨rfl, Partie.sansProjectile_update hrepos.enVol hu, h.present, ?_, ?_⟩, ?_⟩
    · rw [hcarte]
      exact h.vide.airLe hair
    · rw [hcarte]
      exact Map.eauVide_montee hc
    · rw [hcarte]
      exact Map.setWaterLevel_montee hc

/-- **`end_round`.**  The client digs its list, then follows the water. -/
theorem suit_endRound (h : Aligne u s destroy obj) (base : Map)
    (hb : PartieQT.pose air destroy base = obj.carte) (h1 : s.currentStep = stepGame)
    (hr : Salle.endRound env s = some s') : ∃ l obj', s'.envois = s.envois ++ l ∧
      s'.jeu.gameObject = some obj' ∧ Suit (Fin u s') base destroy (dater obj'.carte (pour u l)) := by
  obtain ⟨g, nbrTeam, lastTeam, hm, _, ⟨_, rfl⟩ | ⟨_, ht⟩⟩ := Salle.endRound_cases hr
  · -- the game is over
    obtain ⟨obj', h', _⟩ := h.monteeEau hm
    refine ⟨_, obj', rfl, h'.gameObject, ?_⟩
    rw [h'.present.pour_annonce]
    refine Suit.of_muettes (by simp [Annonce.muette]) fun hs => ?_
    have h1 : s.currentStep = 1 := h1
    have hs : s.currentStep + 1 = 1 := hs
    omega
  · obtain ⟨obj₁, h', hwater⟩ := h.monteeEau hm
    obtain ⟨id, g', obj₂, obj', x, y, hc, hobj, hcaisse, rfl⟩ := Salle.tourSuivant_cases ht
    have hf := (Game.chercheTour_spec _ hc).1
    obtain rfl : obj₂ = obj₁ := by
      rw [Game.gameObject_of_fixe hf, h'.gameObject] at hobj
      exact (Option.some.inj hobj).symm
    have hcarte : obj'.carte = obj₂.carte ∧ obj'.SansProjectile := by
      rcases Game.caisse_cases hcaisse with rfl | ⟨rand, pos, reste, hd⟩
      · exact ⟨rfl, h'.repos⟩
      · obtain ⟨hc', hp⟩ := dropHealthBox_carte hd
        exact ⟨hc', hp h'.repos⟩
    have hpresent : g'.Present u := h'.present.of_fixe hf
    refine ⟨_, obj', rfl, rfl, ?_⟩
    obtain ⟨b, hpour⟩ := hpresent.pour_annonceTour ⟨id, false, obj'.carte.waterLevel, x, y⟩
    rw [hpour, hcarte.1]
    refine ⟨by rw [hb]; exact hwater, fun _ => ⟨obj', ⟨rfl, hcarte.2, hpresent, ?_, ?_⟩, hcarte.1⟩⟩
    · rw [hcarte.1]
      exact h'.vide
    · rw [hcarte.1]
      exact h'.eau

theorem envoie (h : Aligne u s destroy obj) (l : List (Canal × Annonce)) :
    Aligne u (s.envoie l) destroy obj :=
  ⟨h.gameObject, h.repos, h.present, h.vide, h.eau⟩

/-- A message that leaves the walls alone, and perhaps the end of the turn. -/
theorem suit_muette {s₁ : Salle} {obj₁ : Partie} {a : Annonce} {fin : Bool}
    (h₁ : Aligne u s₁ destroy obj₁) (ha : a.muette = true)
    (henv : s₁.envois = s.envois ++ s₁.jeu.annonce a) (h1 : s₁.currentStep = stepGame)
    (hfin : fin = true ∧ Salle.endRound env s₁ = some s' ∨ fin = false ∧ s' = s₁) :
    ∃ l obj', s'.envois = s.envois ++ l ∧ s'.jeu.gameObject = some obj' ∧
      Suit (Fin u s') obj₁.carte destroy (dater obj'.carte (pour u l)) := by
  rcases hfin with ⟨_, hr⟩ | ⟨_, rfl⟩
  · obtain ⟨cs, hcs, hair⟩ := h₁.vide
    obtain ⟨l, obj', hl, hobj', hsuit⟩ :=
      h₁.suit_endRound obj₁.carte (by rw [hcs]; exact Map.pose_vide hair) h1 hr
    refine ⟨s₁.jeu.annonce a ++ l, obj', by rw [hl, henv, List.append_assoc], hobj', ?_⟩
    rw [pour_append, h₁.present.pour_annonce]
    exact (Suit.of_muette ha).mpr hsuit
  · refine ⟨_, obj₁, henv, h₁.gameObject, ?_⟩
    rw [h₁.present.pour_annonce]
    exact (Suit.of_muette ha).mpr fun _ => ⟨obj₁, h₁, rfl⟩

/-- **`handle_game`.** -/
theorem suit_handleGame {serveur : Serveur} {m : ZmqMsg} (h : Aligne u s destroy obj)
    (h1 : s.currentStep = stepGame) (hr : Salle.handleGame serveur env m s = some s') :
    ∃ l obj', s'.envois = s.envois ++ l ∧ s'.jeu.gameObject = some obj' ∧
      Suit (Fin u s') obj.carte destroy (dater obj'.carte (pour u l)) := by
  obtain ⟨s₁, fin, ht, hfin⟩ := Salle.handleGame_cases hr
  unfold Salle.traite at ht
  split at ht
  · next lp hc =>
    obtain ⟨obj₁, hb, he⟩ := Option.map_eq_some_iff.mp ht
    rw [h.gameObject, Option.bind_some] at hb
    cases he
    have hcarte := Partie.moveCurrentLombric_carte h.repos hb
    have h₁ : Aligne u (Salle.envoie (s.jeu.annonce (.posLombR lp)) (s.avec obj₁)) destroy obj₁ :=
      ⟨rfl, h.repos.moveCurrentLombric hb, h.present, by rw [hcarte]; exact h.vide,
        by rw [hcarte]; exact h.eau⟩
    rw [← hcarte]
    exact suit_muette h₁ rfl rfl h1 hfin
  · cases ht
    exact suit_muette (h.envoie _) rfl rfl h1 hfin
  · cases ht
    exact suit_muette (h.envoie _) rfl rfl h1 hfin
  · next tir hc =>
    obtain ⟨⟨obj₁, murs, degats⟩, hb, he⟩ := Option.map_eq_some_iff.mp ht
    rw [h.gameObject, Option.bind_some] at hb
    cases he
    -- the list of the shot replaces the older one
    obtain ⟨cs, hcs, hdug⟩ := Partie.useWeapon_dug hb
    obtain ⟨hr', _⟩ | ⟨hf, _⟩ := id hfin
    · have h₁ : Aligne u (Salle.envoie (s.jeu.annonce (.shoot tir) ++ s.jeu.annonce (.updateWall murs) ++
          s.jeu.annonce (.lombDmg degats)) (s.avec obj₁)) murs obj₁ :=
        ⟨rfl, h.repos.useWeapon hb, h.present, ⟨cs, hcs, hdug.air⟩, h.eau.dug hdug⟩
      obtain ⟨l, obj', hl, hobj', hsuit⟩ :=
        h₁.suit_endRound obj.carte (by rw [hcs]; exact Map.pose_creuse hdug) h1
          (hfin.resolve_right (by simp)).2
      refine ⟨s.jeu.annonce (.shoot tir) ++ s.jeu.annonce (.updateWall murs) ++
        s.jeu.annonce (.lombDmg degats) ++ l, obj', ?_, hobj', ?_⟩
      · rw [hl, Salle.envoie, List.append_assoc]
        rfl
      · rw [pour_append, pour_append, pour_append, h.present.pour_annonce, h.present.pour_annonce,
          h.present.pour_annonce]
        exact hsuit
    · simp at hf
  · cases ht
    rcases hfin with ⟨hf, _⟩ | ⟨_, rfl⟩
    · simp at hf
    · exact ⟨[], obj, (List.append_nil _).symm, h.gameObject, fun _ => ⟨obj, h, rfl⟩⟩

end Aligne

/-! ## Rounds -/

/-- A room and a client: `file` has the messages that the client has not applied yet, each with
the map of the server when its handler ended. -/
structure Synchro where
  salle : Salle
  client : PartieQT
  file : List (Annonce × Map)

namespace Synchro

/-- The server handles a message or an elapsed round; the client digs on its own, or applies the next
message. -/
inductive Pas where
  | message (m : ZmqMsg) (env : Env) (db : DataBase)
  | heure (env : Env) (db : DataBase)
  | explose (x y : Int) (radius : Nat)
  | lit

/-- What client `u` is sent between two states of the room. -/
def recus (u : Nat) (avant apres : Salle) : List (Annonce × Map) :=
  match apres.jeu.gameObject with
  | some obj => dater obj.carte (pour u (apres.envois.drop avant.envois.length))
  | none => []

def avance (u : Nat) (st : Synchro) (salle : Salle) : Synchro :=
  { st with salle, file := st.file ++ recus u st.salle salle }

def etape (serveur : Serveur) (u : Nat) (e : Pas) (st : Synchro) : Option Synchro :=
  match e with
  | .message m env db =>
    if st.salle.currentStep = stepGame then
      (Salle.handleGame serveur env m { st.salle with db }).map (st.avance u)
    else none
  | .heure env db =>
    if st.salle.currentStep = stepGame then
      (Salle.endRound env { st.salle with db }).map (st.avance u)
    else none
  | .explose x y radius => some { st with client := st.client.explose x y radius }
  | .lit =>
    match st.file with
    | [] => none
    | (a, _) :: file => (st.client.lit a).map fun client => { st with client, file }

/-- START has just been handled; the client has the same map and has applied nothing. -/
def Depart (serveur : Serveur) (u : Nat) (st : Synchro) : Prop :=
  ∃ env s obj, s.demarre serveur env = some st.salle ∧ st.salle.jeu.gameObject = some obj ∧
    st.salle.jeu.Present u ∧ st.client = ⟨obj.carte, [], []⟩ ∧ st.file = recus u s st.salle

/-- The client's map is `base` less what its own explosions dug, and the messages lead on from `base`. -/
def Inv (u : Nat) (st : Synchro) : Prop :=
  ∃ base cs, Map.Dug base cs st.client.carte ∧ st.client.blockDeleted.map u32 = Map.flat cs ∧
    Suit (Fin u st.salle) base st.client.destroyByServ st.file

variable {serveur : Serveur} {u : Nat} {st st' : Synchro}

theorem recus_eq {avant apres : Salle} {l : List (Canal × Annonce)} {obj : Partie}
    (hl : apres.envois = avant.envois ++ l) (hobj : apres.jeu.gameObject = some obj) :
    recus u avant apres = dater obj.carte (pour u l) := by
  unfold recus
  rw [hobj, hl, List.drop_left]

/-- The server's handlers, from whatever the client has still to apply. -/
theorem Inv.avance (h : st.Inv u) (h1 : st.salle.currentStep = stepGame) {salle : Salle}
    (hs : ∀ destroy obj, Aligne u st.salle destroy obj →
      ∃ l obj', salle.envois = st.salle.envois ++ l ∧ salle.jeu.gameObject = some obj' ∧
        Suit (Fin u salle) obj.carte destroy (dater obj'.carte (pour u l))) :
    (st.avance u salle).Inv u := by
  obtain ⟨base, cs, hd, hb, hsuit⟩ := h
  refine ⟨base, cs, hd, hb, hsuit.append fun b d hfin => ?_⟩
  obtain ⟨obj, hal, rfl⟩ := hfin h1
  obtain ⟨l, obj', hl, hobj', hsuit'⟩ := hs d obj hal
  rw [recus_eq hl hobj']
  exact hsuit'

/-- A local explosion is recorded. -/
theorem Inv.explose (h : st.Inv u) (x y : Int) (radius : Nat) :
    Inv u { st with client := st.client.explose x y radius } := by
  obtain ⟨base, cs, hd, hb, hsuit⟩ := h
  obtain ⟨ds, hds, hd'⟩ := st.client.carte.explose_dug x y radius
  refine ⟨base, cs ++ ds, hd.trans hd', ?_, hsuit⟩
  show (st.client.blockDeleted ++ (st.client.carte.explose x y radius).2).map u32 = _
  rw [List.map_append, hb, hds, Map.flat_append]

/-- **NEXT_ROUND**: what was dug here is put back, then the map is the dated one. -/
theorem lit_nextRound {client : PartieQT} {base m : Map} {cs : List (Nat × Nat)} {next : NextLombric}
    (hd : Map.Dug base cs client.carte) (hb : client.blockDeleted.map u32 = Map.flat cs)
    (hm : (PartieQT.pose air client.destroyByServ base).setWaterLevel next.waterLevel = some m) :
    client.lit (.nextRound next) = some ⟨m, [], client.destroyByServ⟩ := by
  unfold PartieQT.lit PartieQT.synchronizeMap
  simp only
  rw [hb, Map.pose_restaure hd, hm]
  rfl

theorem Inv.lit (h : st.Inv u) {a : Annonce} {m : Map} {file : List (Annonce × Map)}
    (hf : st.file = (a, m) :: file) {client : PartieQT} (hl : st.client.lit a = some client) :
    Inv u { st with client, file } := by
  obtain ⟨base, cs, hd, hb, hsuit⟩ := h
  rw [hf] at hsuit
  cases a with
  | nextRound next =>
    obtain ⟨hm, hsuit⟩ := hsuit
    rw [lit_nextRound hd hb hm] at hl
    cases hl
    exact ⟨m, [], Map.dug_nil m, rfl, hsuit⟩
  | updateWall coord =>
    cases hl
    exact ⟨base, cs, hd, hb, hsuit⟩
  | _ =>
    cases hl
    exact ⟨base, cs, hd, hb, hsuit⟩

theorem inv_etape {e : Pas} (h : st.Inv u) (hs : etape serveur u e st = some st') : st'.Inv u := by
  cases e with
  | message m env db =>
    simp only [etape] at hs
    split at hs
    · next h1 =>
      obtain ⟨salle, hr, rfl⟩ := Option.map_eq_some_iff.mp hs
      refine h.avance h1 fun destroy obj hal => ?_
      have hal' : Aligne u { st.salle with db } destroy obj :=
        ⟨hal.gameObject, hal.repos, hal.present, hal.vide, hal.eau⟩
      exact hal'.suit_handleGame h1 hr
    · simp at hs
  | heure env db =>
    simp only [etape] at hs
    split at hs
    · next h1 =>
      obtain ⟨salle, hr, rfl⟩ := Option.map_eq_some_iff.mp hs
      refine h.avance h1 fun destroy obj hal => ?_
      have hal' : Aligne u { st.salle with db } destroy obj :=
        ⟨hal.gameObject, hal.repos, hal.present, hal.vide, hal.eau⟩
      obtain ⟨cs, hcs, hair⟩ := hal.vide
      exact hal'.suit_endRound obj.carte (by rw [hcs]; exact Map.pose_vide hair) h1 hr
    · simp at hs
  | explose x y radius =>
    cases hs
    exact h.explose x y radius
  | lit =>
    simp only [etape] at hs
    split at hs
    · simp at hs
    · next a m file hf =>
      obtain ⟨client, hl, rfl⟩ := Option.map_eq_some_iff.mp hs
      exact h.lit hf hl

/-- START sends the list of the worms and a first NEXT_ROUND, with the level 0. -/
theorem inv_depart (h : st.Depart serveur u) : st.Inv u := by
  obtain ⟨env, s, obj, hd, hobj, hp, hc, hf⟩ := h
  obtain ⟨obj₀, id, g, lombs, hspawn, hg, hsalle⟩ := Salle.demarre_cases hd
  obtain ⟨f, ids, sprites, reste, _, _, hl, rfl⟩ := Game.spawnLombric_spec hspawn
  rw [hsalle] at hobj hp
  cases hobj
  have heau : f.carte.EauVide := ⟨Nat.zero_le _, fun h0 => absurd rfl h0⟩
  have hrepos : Partie.SansProjectile (Partie.setParam f.carte sprites true) := by
    intro w hw
    obtain ⟨_, _, hcorps⟩ := Partie.corps_nouveauxLombrics hl hw
    simp [Sprite.forme, hcorps]
  obtain ⟨b, hpour⟩ := Game.Present.pour_annonceTour (g := g) hp ⟨id, false, 0, -1, -1⟩
  have hrec : recus u s st.salle = [(.start lombs, f.carte),
      (.nextRound { (⟨id, false, 0, -1, -1⟩ : NextLombric) with isYours := b }, f.carte)] := by
    rw [recus_eq (l := g.annonce (.start lombs) ++ g.annonceTour ⟨id, false, 0, -1, -1⟩)
      (by rw [hsalle, List.append_assoc]) (by rw [hsalle]), pour_append,
      Game.Present.pour_annonce (g := g) hp, hpour]
    rfl
  refine ⟨f.carte, [], ?_, ?_, ?_⟩
  · rw [hc]
    exact Map.dug_nil f.carte
  · rw [hc]
    rfl
  · rw [hf, hrec, hc]
    refine ⟨?_, fun _ => ⟨(Partie.setParam f.carte sprites true).setCurrentLomb id,
      ⟨by rw [hsalle], hrepos, by rw [hsalle]; exact hp, ⟨[], rfl, by simp⟩, heau⟩, rfl⟩⟩
    exact Map.setWaterLevel_self heau

/-- **After each NEXT_ROUND the client has the server's map**: in every run of rounds, for every
explosions of its own, whenever the next message is a NEXT_ROUND, applying it gives the map that the
server had when the `end_round` that sent it was done. -/
theorem carte_synchronisee (serveur : Serveur) (u : Nat) (st : Synchro)
    (h : Runs.Reach (etape serveur u) (fun _ _ => True) (Depart serveur u) st) (next : NextLombric)
    (m : Map) (file : List (Annonce × Map)) (hf : st.file = (.nextRound next, m) :: file) :
    ∃ client, st.client.lit (.nextRound next) = some client ∧ client.carte = m := by
  obtain ⟨base, cs, hd, hb, hsuit⟩ : st.Inv u :=
    h.invariant (fun _ => inv_depart) fun _ _ _ hI _ hs => inv_etape hI hs
  rw [hf] at hsuit
  exact ⟨_, lit_nextRound hd hb hsuit.1, rfl⟩

/-- Players 1 and 2 in the lobby, with a team and a worm each. -/
def salleDeux : Salle where
  jeu := { Game.new 1 1 with
    lombNb := 1
    players :=
      [⟨1, 1, 0, 1, "", [7, 0, 0, 0, 0, 0, 0, 0]⟩, ⟨2, 2, 0, 1, "", [8, 0, 0, 0, 0, 0, 0, 0]⟩] }
  currentStep := stepRoom
  db := ⟨[], [], []⟩
  envois := []
  endGames := 0

/-- A clock at 0, worms to the left, no box. -/
def envTir : Env := ⟨0, 0, 0, [99, 0, 0, 0], 100, 0, 0⟩

/-- The only message left is a NEXT_ROUND. -/
def resteTour (st : Synchro) : Bool :=
  match st.file with
  | [(.nextRound _, _)] => true
  | _ => false

/-- The shot digs the floor, and so did the client before it knew; the NEXT_ROUND after it. -/
theorem tir_synchronise : ∃ salle st next m,
    salleDeux.demarre (Thread.serveurDe Map.petite) envTir = some salle ∧
    Runs.exec (etape (Thread.serveurDe Map.petite) 1) (fun _ _ => True)
      [.message ⟨1, .shoot ⟨0, 100, 0⟩⟩ envTir ⟨[], [], []⟩, .explose 1 3 0, .lit, .lit, .lit, .lit, .lit]
      ⟨salle, ⟨Map.petite, [], []⟩, recus 1 salleDeux salle⟩ = some st ∧
    st.file = [(.nextRound next, m)] ∧
      ∃ client, st.client.lit (.nextRound next) = some client ∧ client.carte = m := by
  have hsome : ((salleDeux.demarre (Thread.serveurDe Map.petite) envTir).bind fun salle =>
      Runs.exec (etape (Thread.serveurDe Map.petite) 1) (fun _ _ => True)
        [.message ⟨1, .shoot ⟨0, 100, 0⟩⟩ envTir ⟨[], [], []⟩, .explose 1 3 0, .lit, .lit, .lit, .lit, .lit]
        ⟨salle, ⟨Map.petite, [], []⟩, recus 1 salleDeux salle⟩).any resteTour = true := by decide +kernel
  obtain ⟨st, hst, hp⟩ := Option.any_eq_true _ _ |>.mp hsome
  obtain ⟨salle, hsalle, hexec⟩ := Option.bind_eq_some_iff.mp hst
  unfold resteTour at hp
  split at hp
  · next next m hf =>
    have hdepart : Depart (Thread.serveurDe Map.petite) 1
        ⟨salle, ⟨Map.petite, [], []⟩, recus 1 salleDeux salle⟩ := by
      obtain ⟨obj, id, g, lombs, hobj, hg, rfl⟩ := Salle.demarre_cases hsalle
      obtain ⟨f, ids, sprites, reste, hcarte, _, _, rfl⟩ := Game.spawnLombric_spec hobj
      cases hcarte
      have hp : g.Present 1 := by
        refine Game.Present.of_fixe ?_ (Game.getNextLombricId_spec hg).1
        show salleDeux.jeu.Present 1
        rfl
      exact ⟨envTir, salleDeux, _, hsalle, rfl, hp, rfl, rfl⟩
    exact ⟨salle, st, next, m, hsalle, hexec, hf, carte_synchronisee (Thread.serveurDe Map.petite) 1 st
      (Runs.reach_of_exec _ (.init hdepart) hexec) next m [] hf⟩
  · simp at hp

end Synchro
end LombricABrac
