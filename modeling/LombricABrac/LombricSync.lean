import LombricABrac.Deplacements
import LombricABrac.Registre

/-!
# The client's worms follow the server's

A shot makes `useWeapon` list its worms (LOMB_DMG); `partieQT::synchronizeLombrics` copies the
entries into the worms of the client.  The server has erased the worms that died, so that the list
does not name them, and the client keeps those that its own simulation let live.

    synchronizeLombrics_eq : the entries with an id go to the first sprite that has it
    synchronize_iff        : the two games agree where the worms that the list does not name, those killed
                             and those without id, agree already
    mort_oublie            : a worm killed by the server alone stays alive on the client
-/

namespace LombricABrac

/-! ## The client -/

/-- `dynamic_cast<Lombric_c*>(findById(spriteVector, id))`. -/
def lombricDe (id : Nat) (v : List Sprite) : Option Sprite :=
  (v.find? fun s => s.getId = id).bind fun s =>
    match s.corps with
    | .lombric _ => some s
    | _ => none

namespace PartieQT

/-- `setPos` and `setLife`, for a worm. -/
def recoit (l : Partie.Degat) (s : Sprite) : Sprite :=
  match s.corps with
  | .lombric w =>
    ⟨s.toBase.setPos (Partie.int32 l.posX) (Partie.int32 l.posY),
      .lombric { w with vie := Partie.int32 l.vie }⟩
  | _ => s

/-- One entry: it goes to the first sprite with its id. -/
def metLombric (l : Partie.Degat) : List Sprite → List Sprite
  | [] => []
  | s :: v => if s.getId = l.idLomb then recoit l s :: v else s :: metLombric l v

def synchronizeLombrics (d : List Partie.Degat) (v : List Sprite) : List Sprite :=
  d.foldl (fun v l => metLombric l v) v

end PartieQT

/-! ## Finding a worm -/

theorem lombricDe_findLombric (p : Partie) (id : Nat) :
    p.findLombric id = lombricDe id p.spriteVector := rfl

variable {id : Nat} {v : List Sprite}

/-- An id that is not `0` is one of a worm. -/
theorem lombricDe_eq (hid : id ≠ 0) : lombricDe id v = v.find? fun s => s.getId = id := by
  unfold lombricDe
  cases hs : v.find? fun s => s.getId = id with
  | none => rfl
  | some s =>
    have hsid : s.getId = id := by simpa using List.find?_some hs
    obtain ⟨l, hl⟩ := exists_lombric (s := s) (by rw [hsid]; exact hid)
    simp only [Option.bind_some, hl]

theorem isSome_lombricDe (hid : id ≠ 0) : (lombricDe id v).isSome = true ↔ id ∈ v.map Sprite.getId := by
  rw [lombricDe_eq hid, List.find?_isSome]
  simp

/-- The worms with that id, in the order of the vector. -/
def porteurs (id : Nat) (v : List Sprite) : List Sprite := v.filter fun s => s.getId = id

theorem porteurs_eq_nil : porteurs id v = [] ↔ id ∉ v.map Sprite.getId := by
  simp [porteurs, List.filter_eq_nil_iff]

/-! ## What the entries do -/

namespace PartieQT

@[simp] theorem recoit_getId (l : Partie.Degat) (s : Sprite) : (recoit l s).getId = s.getId := by
  unfold recoit
  split
  · next w hw => simp [Sprite.getId, hw]
  · rfl

theorem find_metLombric (l : Partie.Degat) (id : Nat) (v : List Sprite) :
    (metLombric l v).find? (fun s => s.getId = id) =
      (v.find? fun s => s.getId = id).map fun s => if l.idLomb = id then recoit l s else s := by
  induction v with
  | nil => rfl
  | cons s v ih =>
    unfold metLombric
    by_cases hs : s.getId = l.idLomb
    · rw [if_pos hs]
      by_cases hid : s.getId = id
      · simp [hid, hs ▸ hid]
      · have hne : ¬ l.idLomb = id := fun h => hid (hs.trans h)
        simp [hid, hne]
    · rw [if_neg hs]
      by_cases hid : s.getId = id
      · have hne : ¬ l.idLomb = id := fun h => hs (hid.trans h.symm)
        simp [hid, hne]
      · rw [List.find?_cons_of_neg (by simpa using hid), List.find?_cons_of_neg (by simpa using hid), ih]

@[simp] theorem recoit_adresse (l : Partie.Degat) (s : Sprite) : (recoit l s).adresse = s.adresse := by
  unfold recoit
  split <;> rfl

/-- What the list makes of a sprite of `v`: the entries with an id go to the first that has it. -/
def apres (d : List Partie.Degat) (v : List Sprite) (s : Sprite) : Sprite :=
  if v.find? (fun x => x.getId = s.getId) = some s then
    (d.filter fun l => l.idLomb = s.getId).foldl (fun s l => recoit l s) s
  else s

theorem apres_premier {d : List Partie.Degat} {v : List Sprite} {s : Sprite}
    (h : v.find? (fun x => x.getId = s.getId) = some s) :
    apres d v s = (d.filter fun l => l.idLomb = s.getId).foldl (fun s l => recoit l s) s := if_pos h

theorem apres_autre {d : List Partie.Degat} {v : List Sprite} {s : Sprite}
    (h : v.find? (fun x => x.getId = s.getId) ≠ some s) : apres d v s = s := if_neg h

theorem foldl_recoit_adresse (d : List Partie.Degat) : ∀ s : Sprite,
    (d.foldl (fun s l => recoit l s) s).adresse = s.adresse := by
  induction d with
  | nil => exact fun _ => rfl
  | cons l d ih => exact fun s => (ih (recoit l s)).trans (recoit_adresse l s)

@[simp] theorem apres_adresse (d : List Partie.Degat) (v : List Sprite) (s : Sprite) :
    (apres d v s).adresse = s.adresse := by
  unfold apres
  split
  · exact foldl_recoit_adresse _ s
  · rfl

/-- Two objects of one address are one. -/
theorem eq_of_adresse {v : List Sprite} (hv : (v.map (·.adresse)).Nodup) {s s' : Sprite} (hs : s ∈ v)
    (hs' : s' ∈ v) (h : s.adresse = s'.adresse) : s = s' := List.inj_on_of_nodup_map hv hs hs' h

/-- One entry. -/
theorem metLombric_eq (l : Partie.Degat) : ∀ {v : List Sprite}, (v.map (·.adresse)).Nodup →
    metLombric l v = v.map (apres [l] v) := by
  intro v
  induction v with
  | nil => exact fun _ => rfl
  | cons s v ih =>
    intro hv
    have hne : ∀ x ∈ v, x ≠ s := fun x hx he =>
      (List.nodup_cons.mp hv).1 (List.mem_map.mpr ⟨x, hx, congrArg (·.adresse) he⟩)
    have hfirst : apres [l] (s :: v) s = if s.getId = l.idLomb then recoit l s else s := by
      rw [apres_premier (List.find?_cons_of_pos (by simp))]
      by_cases hs : s.getId = l.idLomb
      · simp [hs]
      · simp [hs, Ne.symm hs]
    unfold metLombric
    rw [List.map_cons, hfirst]
    by_cases hs : s.getId = l.idLomb
    · -- the first sprite with the id: the others keep what they have
      rw [if_pos hs, if_pos hs]
      congr 1
      refine ((List.map_congr_left fun x hx => ?_).trans (List.map_id' v)).symm
      unfold apres
      split
      · next hx' =>
        by_cases hid : s.getId = x.getId
        · rw [List.find?_cons_of_pos (by simpa using hid)] at hx'
          exact absurd (Option.some.inj hx').symm (hne x hx)
        · have hno : ¬ l.idLomb = x.getId := fun h => hid (hs.trans h)
          simp [hno]
      · rfl
    · rw [if_neg hs, if_neg hs, ih (List.nodup_cons.mp hv).2]
      congr 1
      refine List.map_congr_left fun x hx => ?_
      unfold apres
      by_cases hid : s.getId = x.getId
      · have hno : ¬ l.idLomb = x.getId := fun h => hs (hid.trans h.symm)
        simp [hno]
      · rw [List.find?_cons_of_neg (by simpa using hid)]

/-- **The whole list**, by induction on it: each sprite is changed where it stands. -/
theorem synchronizeLombrics_eq (d : List Partie.Degat) : ∀ {v : List Sprite},
    (v.map (·.adresse)).Nodup → synchronizeLombrics d v = v.map (apres d v) := by
  induction d with
  | nil =>
    intro v _
    refine ((List.map_congr_left fun s _ => ?_).trans (List.map_id' v)).symm
    unfold apres
    split <;> rfl
  | cons l d ih =>
    intro v hv
    have hstep : synchronizeLombrics (l :: d) v = synchronizeLombrics d (metLombric l v) := rfl
    have hv' : ((metLombric l v).map (·.adresse)).Nodup := by
      rw [metLombric_eq l hv, List.map_map]
      exact (congrArg List.Nodup (List.map_congr_left fun s _ => apres_adresse [l] v s)).mpr hv
    rw [hstep, ih hv', metLombric_eq l hv, List.map_map, ← metLombric_eq l hv]
    refine List.map_congr_left fun s hs => ?_
    have hfind := find_metLombric l s.getId v
    simp only [Function.comp_apply]
    by_cases hs' : v.find? (fun x => x.getId = s.getId) = some s
    · have h1 : apres [l] v s = if l.idLomb = s.getId then recoit l s else s := by
        rw [apres_premier hs']
        by_cases hl : l.idLomb = s.getId <;> simp [hl]
      have hid : (apres [l] v s).getId = s.getId := by
        rw [h1]
        split
        · exact recoit_getId l s
        · rfl
      rw [hs', Option.map_some, ← h1, ← hid] at hfind
      rw [apres_premier hfind, hid, apres_premier hs', apres_premier hs', ← List.foldl_append,
        ← List.filter_append]
      rfl
    · have h1 : apres [l] v s = s := apres_autre hs'
      have hne : (metLombric l v).find? (fun x => x.getId = s.getId) ≠ some s := by
        rw [hfind]
        intro he
        obtain ⟨x, hx, hxs⟩ := Option.map_eq_some_iff.mp he
        have hadr : x.adresse = s.adresse := by
          rw [← hxs]
          split
          · exact (recoit_adresse l x).symm
          · rfl
        rw [eq_of_adresse hv (List.mem_of_find?_eq_some hx) hs hadr] at hx
        exact hs' hx
      rw [h1, apres_autre hne, apres_autre hs']

/-- The place and the life after some entries are those of the last one. -/
theorem foldl_recoit (l : Partie.Degat) (d : List Partie.Degat) : ∀ {s : Sprite} {w : Lombric},
    s.corps = .lombric w → ∃ s', (d ++ [l]).foldl (fun s l => recoit l s) s = s' ∧
      s'.posX = Partie.int32 l.posX ∧ s'.posY = Partie.int32 l.posY ∧
      s'.getLife = Partie.int32 l.vie := by
  induction d with
  | nil =>
    intro s w hw
    refine ⟨_, rfl, ?_, ?_, ?_⟩ <;> simp [recoit, hw, Base.setPos, Sprite.getLife]
  | cons a d ih =>
    intro s w hw
    have ha : (recoit a s).corps = .lombric { w with vie := Partie.int32 a.vie } := by
      simp [recoit, hw]
    exact ih ha

end PartieQT

/-! ## After the shot -/

/-- The place and the life of a worm fit the `int`s that hold them. -/
structure Sprite.EnInt (s : Sprite) : Prop where
  posX : -2 ^ 31 ≤ s.posX ∧ s.posX < 2 ^ 31
  posY : -2 ^ 31 ≤ s.posY ∧ s.posY < 2 ^ 31
  vie : -2 ^ 31 ≤ s.getLife ∧ s.getLife < 2 ^ 31

/-- Two worms at one place, with one life. -/
def Sprite.Pareil (s s' : Sprite) : Prop :=
  s.posX = s'.posX ∧ s.posY = s'.posY ∧ s.getLife = s'.getLife

/-- The object at the address `a` is there and lives. -/
def Vivant (a : Nat) (v : List Sprite) : Prop := ∃ s ∈ v, s.adresse = a ∧ 0 < s.getLife

instance (a : Nat) (v : List Sprite) : Decidable (Vivant a v) :=
  inferInstanceAs (Decidable (∃ s ∈ v, _))

/-- The server's worm at the address `a` and the client's at the address `b`: both live or none, and
where they live they have one place and one life. -/
structure Accord (p : Partie) (v : List Sprite) (a b : Nat) : Prop where
  vivant : Vivant b v ↔ Vivant a p.spriteVector
  pareil : ∀ s ∈ p.spriteVector, s.adresse = a → 0 < s.getLife → ∀ w ∈ v, w.adresse = b → w.Pareil s

/-- The list of the server names this worm of the client: it has an id, is the first that has it, and
the server still has a worm with it. -/
def Nomme (p : Partie) (v : List Sprite) (w : Sprite) : Prop :=
  w.getId ≠ 0 ∧ v.find? (fun s => s.getId = w.getId) = some w ∧ porteurs w.getId p.spriteVector ≠ []

/-- What the client's worm `w` needs to follow the server's at the address `a`: where the list names it,
that worm is there and like the last one with its id; elsewhere they agree already. -/
structure Renseigne (p : Partie) (v : List Sprite) (a : Nat) (w : Sprite) : Prop where
  nomme : Nomme p v w → ∀ d ∈ (porteurs w.getId p.spriteVector).getLast?,
    ∃ s ∈ p.spriteVector, s.adresse = a ∧ d.Pareil s
  tu : ¬ Nomme p v w → Accord p v a w.adresse

/-- A worm that is left and has its id for itself is named. -/
theorem Renseigne.of_reste {p : Partie} {s w : Sprite} (hs : s ∈ p.spriteVector)
    (hid : s.getId = w.getId) (h0 : w.getId ≠ 0)
    (hseul : ∀ t ∈ p.spriteVector, t.getId = s.getId → t = s)
    (hw : v.find? (fun s => s.getId = w.getId) = some w) : Renseigne p v s.adresse w where
  nomme _ d hd := by
    obtain ⟨hmem, hdid⟩ := List.mem_filter.mp (List.mem_of_getLast? hd)
    rw [hseul d hmem ((of_decide_eq_true hdid).trans hid.symm)]
    exact ⟨s, hs, rfl, rfl, rfl, rfl⟩
  tu hn := by
    refine absurd ⟨h0, hw, fun hnil => ?_⟩ hn
    exact porteurs_eq_nil.mp hnil (hid ▸ List.mem_map_of_mem hs)

namespace Partie

variable {p p' : Partie}

/-- The entries with the id of a worm. -/
theorem filter_degats (hid : id ≠ 0) : p.degats.filter (fun l => l.idLomb = id) =
    (porteurs id p.spriteVector).map fun s => ⟨s.getId, u32 s.posX, u32 s.posY, u32 s.getLife⟩ := by
  unfold degats porteurs
  rw [List.filter_map, List.filter_filter]
  congr 1
  refine List.filter_congr fun s _ => ?_
  by_cases h : s.getId = id <;> simp [h, hid]

theorem isLombAlive_eq (h : p.findLombric id = some s) : p.isLombAlive id = decide (0 < s.getLife) := by
  unfold isLombAlive
  rw [h]

/-- After the list: the worm that was there, with what its entries make of it. -/
theorem mem_synchronize (hv : (v.map (·.adresse)).Nodup) {w w' : Sprite} (hw : w ∈ v) {d : List Degat} :
    w' ∈ PartieQT.synchronizeLombrics d v ∧ w'.adresse = w.adresse ↔ w' = PartieQT.apres d v w := by
  rw [PartieQT.synchronizeLombrics_eq d hv, List.mem_map]
  constructor
  · rintro ⟨⟨x, hx, rfl⟩, hadr⟩
    rw [PartieQT.eq_of_adresse hv hx hw ((PartieQT.apres_adresse d v x).symm.trans hadr)]
  · rintro rfl
    exact ⟨⟨w, hw, rfl⟩, PartieQT.apres_adresse d v w⟩

/-- A worm that the list does not name stays as it was. -/
theorem apres_of_not_nomme {w : Sprite} (hn : ¬ Nomme p v w) : PartieQT.apres p.degats v w = w := by
  by_cases hw : v.find? (fun s => s.getId = w.getId) = some w
  · rw [PartieQT.apres_premier hw]
    by_cases h0 : w.getId = 0
    · -- no entry has the id 0
      have hnil : p.degats.filter (fun l => l.idLomb = w.getId) = [] := by
        refine List.filter_eq_nil_iff.mpr fun l hl => ?_
        obtain ⟨s, hs, rfl⟩ := List.mem_map.mp hl
        simpa [h0] using (List.mem_filter.mp hs).2
      rw [hnil]
      rfl
    · have hnil : porteurs w.getId p.spriteVector = [] := by
        by_contra hne
        exact hn ⟨h0, hw, hne⟩
      rw [filter_degats h0, hnil]
      rfl
  · exact PartieQT.apres_autre hw

/-- Of the entries with the id of a worm the last one stays. -/
theorem apres_of_nomme {w : Sprite} (hn : Nomme p v w) (hint : ∀ s ∈ p.spriteVector, s.EnInt)
    {d : Sprite} (hd : (porteurs w.getId p.spriteVector).getLast? = some d) :
    (PartieQT.apres p.degats v w).Pareil d := by
  obtain ⟨h0, hw, _⟩ := hn
  obtain ⟨lw, hlw⟩ := exists_lombric h0
  obtain ⟨avant, hlast⟩ := List.getLast?_eq_some_iff.mp hd
  obtain ⟨w', hw', hx, hy, hvie⟩ := PartieQT.foldl_recoit
    ⟨d.getId, u32 d.posX, u32 d.posY, u32 d.getLife⟩
    (avant.map fun s => ⟨s.getId, u32 s.posX, u32 s.posY, u32 s.getLife⟩) hlw
  rw [PartieQT.apres_premier hw, filter_degats h0, hlast, List.map_append, List.map_singleton, hw']
  have hde := hint d (List.mem_filter.mp (List.mem_of_getLast? hd)).1
  exact ⟨hx.trans (int32_u32 hde.posX.1 hde.posX.2), hy.trans (int32_u32 hde.posY.1 hde.posY.2),
    hvie.trans (int32_u32 hde.vie.1 hde.vie.2)⟩

/-- **One worm**, of the server at the address `a` and of the client: `w`. -/
theorem accord_iff (hp : (p.spriteVector.map (·.adresse)).Nodup)
    (hlife : ∀ s ∈ p.spriteVector, s.getId ≠ 0 → 0 < s.getLife) (hint : ∀ s ∈ p.spriteVector, s.EnInt)
    (hv : (v.map (·.adresse)).Nodup) (a : Nat) {w : Sprite} (hw : w ∈ v) :
    Accord p (PartieQT.synchronizeLombrics p.degats v) a w.adresse ↔ Renseigne p v a w := by
  have hmem := fun w' => @mem_synchronize v hv w w' hw p.degats
  by_cases hn : Nomme p v w
  · obtain ⟨d, hd⟩ : ∃ d, (porteurs w.getId p.spriteVector).getLast? = some d :=
      ⟨_, List.getLast?_eq_some_getLast hn.2.2⟩
    have hpareil := apres_of_nomme hn hint hd
    obtain ⟨hin, hadr⟩ := (hmem _).mpr rfl
    have hvie : 0 < d.getLife := by
      obtain ⟨hdp, hdid⟩ := List.mem_filter.mp (List.mem_of_getLast? hd)
      exact hlife d hdp (of_decide_eq_true hdid ▸ hn.1)
    have hviv : Vivant w.adresse (PartieQT.synchronizeLombrics p.degats v) :=
      ⟨_, hin, hadr, by rw [hpareil.2.2]; exact hvie⟩
    constructor
    · intro ha
      refine ⟨fun _ d' hd' => ?_, fun h => absurd hn h⟩
      rw [hd] at hd'
      cases hd'
      obtain ⟨s, hs, hsa, hslife⟩ := ha.vivant.mp hviv
      obtain ⟨h1, h2, h3⟩ := ha.pareil s hs hsa hslife _ hin hadr
      exact ⟨s, hs, hsa, hpareil.1.symm.trans h1, hpareil.2.1.symm.trans h2, hpareil.2.2.symm.trans h3⟩
    · intro hr
      obtain ⟨s, hs, hsa, h1, h2, h3⟩ := hr.nomme hn d hd
      refine ⟨iff_of_true hviv ⟨s, hs, hsa, h3 ▸ hvie⟩, fun s' hs' hsa' _ w' hw' hwa => ?_⟩
      rw [PartieQT.eq_of_adresse hp hs' hs (hsa'.trans hsa.symm), (hmem w').mp ⟨hw', hwa⟩]
      exact ⟨hpareil.1.trans h1, hpareil.2.1.trans h2, hpareil.2.2.trans h3⟩
  · -- the client's worm is the one of before
    have hmeme : ∀ w', w' ∈ PartieQT.synchronizeLombrics p.degats v ∧ w'.adresse = w.adresse ↔
        w' ∈ v ∧ w'.adresse = w.adresse := by
      intro w'
      rw [hmem, apres_of_not_nomme hn]
      refine ⟨?_, fun h => PartieQT.eq_of_adresse hv h.1 hw h.2⟩
      rintro rfl
      exact ⟨hw, rfl⟩
    have hviv : Vivant w.adresse (PartieQT.synchronizeLombrics p.degats v) ↔ Vivant w.adresse v := by
      refine exists_congr fun w' => ?_
      rw [← and_assoc, ← and_assoc, hmeme w']
    constructor
    · intro ha
      exact ⟨fun h => absurd h hn, fun _ => ⟨hviv.symm.trans ha.vivant, fun s hs hsa hl w' hw' hwa =>
        have h := (hmeme w').mpr ⟨hw', hwa⟩
        ha.pareil s hs hsa hl w' h.1 h.2⟩⟩
    · intro hr
      have ha := hr.tu hn
      exact ⟨hviv.trans ha.vivant, fun s hs hsa hl w' hw' hwa =>
        have h := (hmeme w').mp ⟨hw', hwa⟩
        ha.pareil s hs hsa hl w' h.1 h.2⟩

/-- **After a shot and the synchronisation** client and server agree on every worm that the server had
before the shot, those without id included, exactly where the list does what each of them needs: any
shot, any lives and places of the client's worms.  `copie` gives the client's worm for one of the
server's. -/
theorem synchronize_iff (calculDirVect : Direction) (fuel : Nat) (tir : Tir) (p p' : Partie)
    (murs : List Nat) (degats : List Degat) (v : List Sprite) (copie : Sprite → Sprite)
    (hu : p.useWeapon calculDirVect fuel tir = some (p', murs, degats)) (hp : p.Registre fun _ => True)
    (hint : ∀ s ∈ p'.spriteVector, s.EnInt) (hv : (v.map (·.adresse)).Nodup)
    (hc : ∀ s ∈ p.spriteVector, (∃ l, s.corps = .lombric l) → copie s ∈ v ∧
      (∃ l, (copie s).corps = .lombric l) ∧ (copie s).getId = s.getId) :
    (∀ s ∈ p.spriteVector, (∃ l, s.corps = .lombric l) →
      Accord p' (PartieQT.synchronizeLombrics degats v) s.adresse (copie s).adresse) ↔
    ∀ s ∈ p.spriteVector, (∃ l, s.corps = .lombric l) → Renseigne p' v s.adresse (copie s) := by
  have hr := hp.useWeapon hu trivial
  obtain ⟨p₁, hp₁, he⟩ := Option.map_eq_some_iff.mp hu
  obtain ⟨p₀, _, hup⟩ := Option.bind_eq_some_iff.mp hp₁
  cases he
  have hlife : ∀ s ∈ p'.spriteVector, s.getId ≠ 0 → 0 < s.getLife := by
    intro s hs hid
    obtain ⟨l, hl⟩ := exists_lombric hid
    have := (update_vivants hup hs hl).1
    rwa [Sprite.getLife, hl]
  refine forall_congr' fun s => forall_congr' fun hs => forall_congr' fun hl => ?_
  exact accord_iff hr.nodup hlife hint hv s.adresse (hc s hs hl).1

/-- Worm 7 shoots; worm 8, with `vie` life points, stands two cells away. -/
def duelDeVers (vie : Int) : Partie where
  carte := Map.petite
  spriteVector :=
    [⟨⟨0, 0, 2, none⟩, .lombric ⟨7, 100, 150⟩⟩, ⟨⟨1, 2, 2, none⟩, .lombric ⟨8, vie, 150⟩⟩]
  currentWorms := some 0
  blockDeleted := []
  endTour := false
  suivante := 2

/-- The client after its own simulation: the worms where they were, unhurt. -/
def versDuClient : List Sprite :=
  [⟨⟨0, 0, 2, none⟩, .lombric ⟨7, 100, 150⟩⟩, ⟨⟨1, 2, 2, none⟩, .lombric ⟨8, 5, 150⟩⟩]

/-- The client's worm at the address of the server's. -/
def copieDuel (s : Sprite) : Sprite := (versDuClient.find? fun w => w.adresse = s.adresse).getD s

/-- `cos 0` and `-sin 0`. -/
def versLaDroite : Direction := fun _ => (1, 0)

/-- The state of a server and the list it sends. -/
def apresTir (vie : Int) : Option (Partie × List Nat × List Degat) :=
  (duelDeVers vie).useWeapon versLaDroite 200 ⟨0, 100, 0⟩

/-- The missile kills worm 8 on the server, which had 5 life points; the list of the server names
worm 7 only, and worm 8 goes on living on the client. -/
theorem mort_oublie : ∃ p' murs degats, apresTir 5 = some (p', murs, degats) ∧
    degats.map (·.idLomb) = [7] ∧ ¬ Vivant 1 p'.spriteVector ∧
    Vivant 1 (PartieQT.synchronizeLombrics degats versDuClient) ∧
    ¬ Accord p' (PartieQT.synchronizeLombrics degats versDuClient) 1 1 := by
  have htir : (apresTir 5).any (fun r => r.2.2.map (·.idLomb) == [7] && !decide (Vivant 1 r.1.spriteVector) &&
      decide (Vivant 1 (PartieQT.synchronizeLombrics r.2.2 versDuClient))) = true := by decide +kernel
  obtain ⟨⟨p', murs, degats⟩, hr, hp⟩ := Option.any_eq_true _ _ |>.mp htir
  simp only [Bool.and_eq_true, beq_iff_eq, Bool.not_eq_true', decide_eq_false_iff_not,
    decide_eq_true_eq] at hp
  obtain ⟨⟨hids, hmort⟩, hviv⟩ := hp
  exact ⟨p', murs, degats, hr, hids, hmort, hviv, fun ha => hmort (ha.vivant.mp hviv)⟩

theorem registre_duel (vie : Int) : (duelDeVers vie).Registre fun _ => True :=
  ⟨by simp [duelDeVers], by simp [duelDeVers], fun _ _ => trivial⟩

/-- With 100 life points both worms live on. -/
theorem touche_suivie : ∃ p' murs degats, apresTir 100 = some (p', murs, degats) ∧
    ∀ s ∈ (duelDeVers 100).spriteVector, (∃ l, s.corps = .lombric l) →
      Accord p' (PartieQT.synchronizeLombrics degats versDuClient) s.adresse (copieDuel s).adresse := by
  have htir : (apresTir 100).any (fun r =>
      r.1.spriteVector.map (fun s => (s.adresse, s.getId)) == [(0, 7), (1, 8)] &&
      r.1.spriteVector.all fun s => decide ((-2 ^ 31 ≤ s.posX ∧ s.posX < 2 ^ 31) ∧
        (-2 ^ 31 ≤ s.posY ∧ s.posY < 2 ^ 31) ∧ (-2 ^ 31 ≤ s.getLife ∧ s.getLife < 2 ^ 31))) = true := by
    decide +kernel
  obtain ⟨⟨p', murs, degats⟩, hr, hp⟩ := Option.any_eq_true _ _ |>.mp htir
  simp only [Bool.and_eq_true, beq_iff_eq, List.all_eq_true, decide_eq_true_eq] at hp
  obtain ⟨hids, hints⟩ := hp
  have hint : ∀ s ∈ p'.spriteVector, s.EnInt := fun s hs =>
    ⟨(hints s hs).1, (hints s hs).2.1, (hints s hs).2.2⟩
  have hduel : ∀ s ∈ (duelDeVers 100).spriteVector, s = ⟨⟨0, 0, 2, none⟩, .lombric ⟨7, 100, 150⟩⟩ ∨
      s = ⟨⟨1, 2, 2, none⟩, .lombric ⟨8, 100, 150⟩⟩ := by
    simp [duelDeVers]
  refine ⟨p', murs, degats, hr, (synchronize_iff versLaDroite 200 ⟨0, 100, 0⟩ (duelDeVers 100) p' murs
    degats versDuClient copieDuel hr (registre_duel 100) hint (by decide) ?_).mpr ?_⟩
  · intro s hs _
    rcases hduel s hs with rfl | rfl
    · exact ⟨List.mem_cons_self, ⟨_, rfl⟩, rfl⟩
    · exact ⟨List.mem_cons_of_mem _ List.mem_cons_self, ⟨_, rfl⟩, rfl⟩
  · intro s hs _
    obtain ⟨a, b, hv⟩ := List.length_eq_two.mp (by simpa using congrArg List.length hids)
    rw [hv] at hids
    simp only [List.map_cons, List.map_nil, List.cons.injEq, Prod.mk.injEq, and_true] at hids
    obtain ⟨⟨ha0, ha7⟩, hb1, hb8⟩ := hids
    rcases hduel s hs with rfl | rfl
    · have h := Renseigne.of_reste (p := p') (s := a) (v := versDuClient)
        (w := ⟨⟨0, 0, 2, none⟩, .lombric ⟨7, 100, 150⟩⟩) (by simp [hv]) ha7 (by decide)
        (by simp [hv, ha7, hb8]) rfl
      rwa [ha0] at h
    · have h := Renseigne.of_reste (p := p') (s := b) (v := versDuClient)
        (w := ⟨⟨1, 2, 2, none⟩, .lombric ⟨8, 5, 150⟩⟩) (by simp [hv]) hb8 (by decide)
        (by simp [hv, ha7, hb8]) rfl
      rwa [hb1] at h

end Partie
end LombricABrac
