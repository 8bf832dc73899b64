import LombricABrac.Presents
import LombricABrac.Envois
import LombricABrac.Registre
import LombricABrac.LombricSync

/-!
# The turns of a game

A turn opens when NEXT_ROUND is published: at START, and at the end of each `end_round` that does not
end the game.  Between two turns the worms only get fewer, and after an update those left are alive.

    etape_precede    : a step does not look at what was published before
    endRound_manche  : the end of a round, with the turn it opens
    entre_handleGame : a message of the game, up to that end, changes the object only
-/

namespace LombricABrac

/-- A turn: its worm, and the game as it opens. -/
structure Manche where
  lombric : Nat
  jeu : Game

/-- Whose turn it is. -/
def Manche.joueur (t : Manche) : Nat := t.jeu.currentPlayerId

/-- The worm that a NEXT_ROUND names. -/
def lombricAnnonce : Canal × Annonce → Option Nat
  | (_, .nextRound lomb) => some lomb.idLomb
  | _ => none

namespace Salle

/-- The turn that opens from a state of the room to a later one. -/
def ouvre (s s' : Salle) : Option Manche :=
  ((s'.envois.drop s.envois.length).findSome? lombricAnnonce).map fun id => ⟨id, s'.jeu⟩

/-- What is published from one state to another has this for its first NEXT_ROUND. -/
def Publie (o : Option Nat) (s s' : Salle) : Prop :=
  ∃ l, s'.envois = s.envois ++ l ∧ l.findSome? lombricAnnonce = o

variable {o : Option Nat} {s s₁ s' : Salle}

theorem Publie.ouvre_eq (h : Publie o s s') : s.ouvre s' = o.map fun id => ⟨id, s'.jeu⟩ := by
  obtain ⟨l, he, hl⟩ := h
  rw [ouvre, he, List.drop_left, hl]

theorem publie_rien (h : s'.envois = s.envois) : Publie none s s' :=
  ⟨[], h.trans (List.append_nil _).symm, rfl⟩

theorem Publie.trans (h : Publie none s s₁) (h' : Publie o s₁ s') : Publie o s s' := by
  obtain ⟨l, he, hl⟩ := h
  obtain ⟨l', he', hl'⟩ := h'
  refine ⟨l ++ l', ?_, ?_⟩
  · rw [he', he, List.append_assoc]
  · rw [List.findSome?_append, hl, hl']
    rfl

end Salle

namespace Game

theorem findSome_annonce (g : Game) {a : Annonce} (ha : ∀ canal, lombricAnnonce (canal, a) = none) :
    (g.annonce a).findSome? lombricAnnonce = none := by
  rw [annonce, List.findSome?_map, List.findSome?_eq_none_iff]
  exact fun j _ => ha _

/-- Where somebody is in the room, a NEXT_ROUND is sent. -/
theorem findSome_annonceTour {g : Game} (hg : g.players ≠ []) (lomb : NextLombric) :
    (g.annonceTour lomb).findSome? lombricAnnonce = some lomb.idLomb := by
  obtain ⟨j, js, hj⟩ := List.exists_cons_of_ne_nil hg
  rw [annonceTour, hj]
  rfl

end Game

namespace Salle

variable {serveur : Serveur} {env : Env} {m : ZmqMsg} {s s' : Salle}

theorem NePublieQue.publie {P : Annonce → Prop} (h : NePublieQue P s s')
    (hP : ∀ lomb, ¬ P (.nextRound lomb)) : Publie none s s' := by
  obtain ⟨l, hl, hall⟩ := h
  refine ⟨l, hl, List.findSome?_eq_none_iff.mpr fun e he => ?_⟩
  have hPe := hall e he
  unfold lombricAnnonce
  split
  · exact absurd hPe (hP _)
  · rfl

theorem publie_handleQuit (m : ZmqMsg) (s : Salle) : Publie none s (s.handleQuit m) :=
  (nePublieQue_handleQuit m s).publie fun _ => id

theorem publie_traite {fin : Bool} (h : traite serveur env m s = some (s', fin)) : Publie none s s' :=
  (nePublieQue_traite h).publie fun _ => id

theorem publie_demarre {obj : Partie} {id : Nat} {g : Game} {lombs : List LombricInfo}
    (hg : (s.jeu.commence env obj).getNextLombricId = some (id, g)) :
    Publie (some id) s { s with
      jeu := { g with gameObject := some (obj.setCurrentLomb id) }
      currentStep := stepGame
      envois := s.envois ++ g.annonce (.start lombs) ++ g.annonceTour ⟨id, false, 0, -1, -1⟩ } := by
  refine ⟨_, List.append_assoc _ _ _, ?_⟩
  have hne : g.players ≠ [] := by
    intro hnil
    have hlen := Game.length_of_fixe (Game.getNextLombricId_spec hg).1
    rw [hnil, List.length_nil] at hlen
    unfold Game.getNextLombricId at hg
    rw [List.eq_nil_of_length_eq_zero hlen.symm] at hg
    simp at hg
  rw [List.findSome?_append, Game.findSome_annonce _ fun _ => rfl, Game.findSome_annonceTour hne]
  rfl

/-- A message of the lobby: START, which opens a turn, or the cursor and the object stay. -/
theorem handleRoom_manche (h : handleRoom serveur env m s = some s') :
    m.contenu = .start ∧ m.receiverId = s.jeu.ownerId ∧ demarre serveur env s = some s' ∨
      Publie none s s' ∧ s'.jeu.gameObject = s.jeu.gameObject ∧
        s'.jeu.currentPlayerId = s.jeu.currentPlayerId := by
  rcases nePublieQue_handleRoom h with hd | hp
  · exact Or.inl hd
  · have hp := hp.publie fun _ => id
    rcases handleRoom_lobby h with ⟨_, hd⟩ | ⟨_, ho, hc, _⟩
    · -- nothing was published, so it is not a START
      obtain ⟨_, _, _, _, _, hn, rfl⟩ := demarre_cases hd
      cases hp.ouvre_eq.symm.trans (publie_demarre hn).ouvre_eq
    · exact Or.inr ⟨hp, ho, hc⟩

end Salle

/-! ## What was published is only kept -/

namespace Salle

/-- The room, with `l` published before. -/
def precede (l : List (Canal × Annonce)) (s : Salle) : Salle := { s with envois := l ++ s.envois }

variable {serveur : Serveur} {env : Env} {m : ZmqMsg} {s : Salle} (l : List (Canal × Annonce))

@[simp] theorem precede_currentStep : (s.precede l).currentStep = s.currentStep := rfl

@[simp] theorem precede_jeu : (s.precede l).jeu = s.jeu := rfl

theorem envoie_precede (a : List (Canal × Annonce)) : (s.precede l).envoie a = (s.envoie a).precede l := by
  simp only [envoie, precede, List.append_assoc]

theorem handleQuit_precede : (s.precede l).handleQuit m = (s.handleQuit m).precede l := by
  unfold handleQuit
  split
  · simp only [precede, List.append_assoc]
    rfl
  · rfl

theorem demarre_precede : demarre serveur env (s.precede l) = (demarre serveur env s).map (precede l) := by
  unfold demarre
  simp only [precede]
  split
  · rfl
  · split
    · rfl
    · simp only [Option.map_some, List.append_assoc]
      rfl

theorem regle_precede (c : Contenu) : (s.precede l).regle c = (s.regle c).precede l := by
  unfold regle
  simp only [precede]
  split
  · simp only [envoie, List.append_assoc]
  · rfl

theorem handleRoom_precede : handleRoom serveur env m (s.precede l) = (handleRoom serveur env m s).map (precede l) := by
  unfold handleRoom
  split
  · rw [envoie_precede]
    rfl
  · simp only [precede, envoie, Option.map_some, List.append_assoc]
  · simp only [precede, Option.map_map]
    congr 1
    funext j
    simp only [precede, envoie, Function.comp_apply, List.append_assoc]
  · simp only [demarre_precede]
    split
    · next h => rw [if_pos (show m.receiverId = s.jeu.ownerId from h)]
    · next h =>
      rw [if_neg (show ¬ m.receiverId = s.jeu.ownerId from h)]
      rfl
  · rw [regle_precede]
    split
    · next h =>
      rw [if_pos (show m.receiverId = s.jeu.ownerId from h)]
      rfl
    · next h =>
      rw [if_neg (show ¬ m.receiverId = s.jeu.ownerId from h)]
      rfl

theorem endRound_precede : endRound env (s.precede l) = (endRound env s).map (precede l) := by
  unfold endRound
  simp only [precede]
  split
  · rfl
  · split
    · rfl
    · split
      · simp only [endGame, precede, Option.map_some, List.append_assoc]
      · unfold tourSuivant
        simp only
        split
        · rfl
        · split
          · rfl
          · simp only [precede, Option.map_some, List.append_assoc]

theorem traite_precede : traite serveur env m (s.precede l) =
    (traite serveur env m s).map fun (s, fin) => (s.precede l, fin) := by
  unfold traite
  split
  · simp only [bouge, Option.map_map]
    congr 1
    funext obj
    simp only [precede, avec, envoie, Function.comp_apply, List.append_assoc]
  · rw [envoie_precede]
    rfl
  · rw [envoie_precede]
    rfl
  · simp only [tire, Option.map_map]
    congr 1
    funext r
    simp only [precede, avec, envoie, Function.comp_apply, List.append_assoc]
  · rfl

theorem handleGame_precede : handleGame serveur env m (s.precede l) = (handleGame serveur env m s).map (precede l) := by
  unfold handleGame
  rw [traite_precede]
  cases traite serveur env m s with
  | none => rfl
  | some r =>
    obtain ⟨s, fin⟩ := r
    simp only [Option.map_some]
    cases fin with
    | true => simpa using endRound_precede l
    | false => rfl

theorem ouvre_precede {s' : Salle} : (s.precede l).ouvre (s'.precede l) = s.ouvre s' := by
  unfold ouvre precede
  rw [List.length_append, ← List.drop_drop, List.drop_left]

end Salle

namespace Thread

def precede (l : List (Canal × Annonce)) (th : Thread) : Thread := { th with salle := th.salle.precede l }

theorem verifieHeure_precede {env : Env} {s : Salle} (l : List (Canal × Annonce)) :
    verifieHeure env (s.precede l) = (verifieHeure env s).map (Salle.precede l) := by
  unfold verifieHeure
  rw [Salle.endRound_precede, Salle.precede_jeu]
  split <;> rfl

/-- A step does not look at what was published before. -/
theorem etape_precede (l : List (Canal × Annonce)) (serveur : Serveur) (e : Evenement) (th : Thread) :
    etape serveur e (th.precede l) = (etape serveur e th).map (precede l) := by
  obtain ⟨lieu, salle, closeRooms⟩ := th
  have haig : ∀ th : Thread, aiguille (th.precede l) = (aiguille th).precede l := by
    intro th
    unfold aiguille precede Salle.precede
    simp only
    split
    · rfl
    · split
      · rfl
      · split <;> rfl
  unfold etape precede
  simp only [Salle.precede_currentStep, Salle.handleQuit_precede]
  split
  · next db => exact congrArg some (haig ⟨.tete, { salle with db }, closeRooms⟩)
  · by_cases h : salle.currentStep = stepRoom <;> simp [h]
  · by_cases h : salle.currentStep = stepRoom <;> simp [h]
  · next m env db =>
    refine (congrArg (Option.map _) (Salle.handleRoom_precede (s := { salle with db }) l)).trans ?_
    rw [Option.map_map, Option.map_map]
    rfl
  · by_cases h : salle.currentStep = stepGame <;> simp [h]
  · by_cases h : salle.currentStep = stepGame <;> simp [h]
  · by_cases h : salle.currentStep = stepGame <;> simp [h]
  · next m env db =>
    refine (congrArg (Option.map _) (Salle.handleGame_precede (s := { salle with db }) l)).trans ?_
    rw [Option.map_map, Option.map_map]
    rfl
  · next env db =>
    refine (congrArg (Option.map _) (verifieHeure_precede (s := { salle with db }) l)).trans ?_
    rw [Option.map_map, Option.map_map]
    rfl
  · rfl

end Thread

/-! ## The worms that are left -/

namespace Sprite

/-- The id of a worm; other objects have none. -/
def Nature.vers : Nature → Option Nat
  | .lombric id _ => some id
  | _ => none

end Sprite

namespace Partie

variable {p p' : Partie} {id : Nat}

/-- The ids of the worms, in the order of the vector. -/
def vers (p : Partie) : List Nat := (p.spriteVector.map Sprite.nature).filterMap Sprite.Nature.vers

/-- Each worm of the vector has positive life. -/
def Nets (p : Partie) : Prop := ∀ s ∈ p.spriteVector, ∀ l, s.corps = .lombric l → 0 < l.vie

theorem mem_vers {s : Sprite} {l : Lombric} (hs : s ∈ p.spriteVector) (hl : s.corps = .lombric l) :
    l.id ∈ p.vers := by
  refine List.mem_filterMap.mpr ⟨s.nature, List.mem_map_of_mem hs, ?_⟩
  rw [Sprite.nature, hl]
  rfl

theorem mem_vers_of_alive (h : p.isLombAlive id = true) : id ∈ p.vers := by
  obtain ⟨s, hs, _⟩ := isLombAlive_spec h
  obtain ⟨hmem, hid, l, hl⟩ := findLombric_spec hs
  have := mem_vers hmem hl
  rwa [show l.id = id by rw [← hid, Sprite.getId, hl]] at this

theorem Nets.alive (h : p.Nets) (h0 : id ≠ 0) (hid : id ∈ p.vers) : p.isLombAlive id = true := by
  obtain ⟨n, hn, hv⟩ := List.mem_filterMap.mp hid
  obtain ⟨s, hs, rfl⟩ := List.mem_map.mp hn
  have hsid : s.getId = id := by
    rw [Sprite.getId_eq]
    cases hc : s.nature with
    | lombric i m => rw [hc] at hv; exact Option.some.inj hv
    | projectile q => rw [hc] at hv; cases hv
    | healthBox b => rw [hc] at hv; cases hv
  -- the first sprite with that id is a worm as well
  obtain ⟨w, hw⟩ := Option.isSome_iff_exists.mp
    ((isSome_lombricDe h0 (v := p.spriteVector)).mpr (hsid ▸ List.mem_map_of_mem hs))
  obtain ⟨hmem, _, l, hl⟩ := findLombric_spec (p := p) hw
  rw [isLombAlive_eq (p := p) hw, Sprite.getLife, hl, decide_eq_true_eq]
  exact h w hmem l hl

theorem update_nets {fuel : Nat} (hu : p.update fuel = some p') : p'.Nets :=
  fun _ hs _ hl => (update_vivants hu hs hl).1

theorem update_vers {fuel : Nat} (hu : p.update fuel = some p') : p'.vers ⊆ p.vers :=
  ((update_sublist Sprite.conserve_nature hu).filterMap Sprite.Nature.vers).subset

/-- `p'` has the worms of `p`, with their ids and lives. -/
structure MemesVers (p p' : Partie) : Prop where
  vers : p'.vers = p.vers
  nets : p.Nets → p'.Nets
  alive : ∀ id, id ≠ 0 → p'.isLombAlive id = p.isLombAlive id

theorem MemesVers.of_eq (h : p'.spriteVector = p.spriteVector) : p.MemesVers p' := by
  refine ⟨?_, ?_, fun id _ => ?_⟩
  · unfold Partie.vers
    rw [h]
  · intro hn
    rw [Nets, h]
    exact hn
  · unfold isLombAlive findLombric findById
    rw [h]

theorem MemesVers.trans {p₁ : Partie} (h : p.MemesVers p₁) (h' : p₁.MemesVers p') : p.MemesVers p' :=
  ⟨h'.vers.trans h.vers, fun hn => h'.nets (h.nets hn), fun id h0 => (h'.alive id h0).trans (h.alive id h0)⟩

/-- Boxes and missiles are put at the end. -/
theorem memesVers_pushBack (x y : Int) (movement : Option PhysicsObject) {corps : Corps}
    (hc : ∀ l, corps ≠ .lombric l) : p.MemesVers (p.pushBack x y movement corps) := by
  have hid : (⟨⟨p.suivante, x, y, movement⟩, corps⟩ : Sprite).getId = 0 := by
    cases corps with
    | lombric l => exact absurd rfl (hc l)
    | projectile q => rfl
    | healthBox b => rfl
  refine ⟨?_, fun hn s hs l hl => ?_, fun id h0 => ?_⟩
  · rw [vers, pushBack, List.map_append, List.filterMap_append, vers]
    cases corps with
    | lombric l => exact absurd rfl (hc l)
    | projectile q => exact List.append_nil _
    | healthBox b => exact List.append_nil _
  · rcases List.mem_append.mp hs with hs | hs
    · exact hn s hs l hl
    · rw [List.mem_singleton.mp hs] at hl
      exact absurd hl (hc l)
  · have hfind : (p.pushBack x y movement corps).findLombric id = p.findLombric id := by
      rw [lombricDe_findLombric, lombricDe_findLombric, lombricDe_eq h0, lombricDe_eq h0, pushBack,
        List.find?_append, List.find?_singleton, if_neg (by simpa [hid] using h0.symm), Option.or_none]
    rw [isLombAlive, hfind]
    rfl

theorem memesVers_caisse {env : Env} {g : Game} {x y : Int} (h : g.caisse env p = some (p', x, y)) :
    p.MemesVers p' := by
  rcases Game.caisse_cases h with rfl | ⟨rand, pos, reste, hd⟩
  · exact .of_eq rfl
  · unfold dropHealthBox at hd
    split at hd
    · simp at hd
    · cases hd
      exact memesVers_pushBack _ _ _ fun l hl => by cases hl

/-- What an update of `p` leaves. -/
structure Eclairci (p p' : Partie) : Prop where
  vers : p'.vers ⊆ p.vers
  nets : p'.Nets

theorem Eclairci.of_update {p₁ : Partie} {fuel : Nat} (hu : p₁.update fuel = some p')
    (h : p₁.vers = p.vers) : p.Eclairci p' :=
  ⟨h ▸ update_vers hu, update_nets hu⟩

theorem vers_of_nature (h : p'.spriteVector.map Sprite.nature = p.spriteVector.map Sprite.nature) :
    p'.vers = p.vers := by
  rw [vers, h, vers]

theorem moveCurrentLombric_eclairci {fuel : Nat} {lp : LombPos}
    (hm : p.moveCurrentLombric fuel lp = some p') : p' = p ∨ p.Eclairci p' := by
  refine (moveCurrentLombric_cases hm).imp_right ?_
  rintro ⟨adresse, hu⟩
  refine .of_update hu (vers_of_nature ?_)
  rw [poser, List.map_map]
  refine List.map_congr_left fun s _ => ?_
  simp only [Function.comp_apply]
  split <;> rfl

theorem vers_shoot {calculDirVect : Direction} {tir : Tir} (hs : shoot calculDirVect tir p = some p') :
    p'.vers = p.vers := by
  unfold shoot at hs
  split at hs
  · obtain ⟨lomb, _, rfl⟩ := Option.map_eq_some_iff.mp hs
    exact (memesVers_pushBack _ _ _ fun l hl => by cases hl).vers
  · obtain ⟨lomb, _, rfl⟩ := Option.map_eq_some_iff.mp hs
    refine vers_of_nature ?_
    rw [List.map_map]
    refine List.map_congr_left fun s _ => ?_
    simp only [Function.comp_apply]
    split
    · exact Sprite.nature_addLife s (-25)
    · rfl
  · cases hs
    rfl
  · simp at hs

theorem useWeapon_eclairci {calculDirVect : Direction} {fuel : Nat} {tir : Tir} {murs : List Nat}
    {degats : List Degat} (hs : p.useWeapon calculDirVect fuel tir = some (p', murs, degats)) :
    p.Eclairci p' := by
  obtain ⟨q, hb, he⟩ := Option.map_eq_some_iff.mp hs
  obtain ⟨p₁, hp₁, hu⟩ := Option.bind_eq_some_iff.mp hb
  cases he
  have hv := vers_shoot hp₁
  exact .of_update hu hv

end Partie

/-! ## Between two turns -/

namespace Game

variable {g g₁ g' : Game}

/-- Nothing changes between two turns but the object, and that by updates. -/
def Entre (g g' : Game) : Prop :=
  g' = g ∨ ∃ obj obj', g.gameObject = some obj ∧ g' = { g with gameObject := some obj' } ∧
    obj.Eclairci obj'

theorem Entre.of_monteeEau {env : Env} (h : g.monteeEau env = some g') : g.Entre g' := by
  rcases monteeEau_cases h with rfl | ⟨obj, obj₁, obj', hobj, hw, hu, rfl⟩
  · exact Or.inl rfl
  · obtain ⟨carte, _, rfl⟩ := Option.map_eq_some_iff.mp hw
    exact Or.inr ⟨obj, obj', hobj, rfl, .of_update hu rfl⟩

end Game

namespace Salle

variable {serveur : Serveur} {env : Env} {m : ZmqMsg} {s s' : Salle}

theorem entre_traite {fin : Bool} (h : traite serveur env m s = some (s', fin)) :
    s.jeu.Entre s'.jeu := by
  obtain ⟨_, _, _, _, ⟨hj, _⟩ | ⟨obj, obj', hobj, hj, ⟨lp, _, hm, _⟩ | ⟨tir, murs, degats, _, _, hu⟩⟩⟩ :=
    traite_cases h
  · exact Or.inl hj
  · rcases Partie.moveCurrentLombric_eclairci hm with rfl | he
    · refine Or.inl (hj.trans ?_)
      rw [← hobj]
    · exact Or.inr ⟨obj, obj', hobj, hj, he⟩
  · exact Or.inr ⟨obj, obj', hobj, hj, Partie.useWeapon_eclairci hu⟩

/-- **The end of a round**: the water may rise, then the game ends or a turn opens. -/
theorem endRound_manche (h : endRound env s = some s') :
    ∃ g, s.jeu.monteeEau env = some g ∧ (s'.jeu = g ∧ Publie none s s' ∨
      ∃ id g' obj obj', g.chercheTour env.fuel = some (id, g') ∧ g'.gameObject = some obj ∧
        obj.MemesVers obj' ∧
        s'.jeu = { g' with gameObject := some obj', beginTimeRound := env.heureFin } ∧
        Publie (some id) s s') := by
  obtain ⟨g, nbrTeam, lastTeam, hm, _, ⟨_, rfl⟩ | ⟨_, ht⟩⟩ := endRound_cases h
  · exact ⟨g, hm, Or.inl ⟨rfl, _, rfl, Game.findSome_annonce _ fun _ => rfl⟩⟩
  · obtain ⟨id, g', obj, obj', x, y, hc, hobj, hcaisse, rfl⟩ := tourSuivant_cases ht
    refine ⟨g, hm, Or.inr ⟨id, g', obj, obj', hc, hobj, ?_, rfl, _, rfl, ?_⟩⟩
    · have hcourant : obj.MemesVers (obj.setCurrentLomb id) := .of_eq rfl
      exact hcourant.trans (Partie.memesVers_caisse hcaisse)
    · obtain ⟨_, _, _, j, i, _, hj, _⟩ := Game.chercheTour_spec _ hc
      refine Game.findSome_annonceTour ?_ _
      rintro hnil
      rw [hnil] at hj
      cases hj

/-- A message of the game, up to the call of `end_round`. -/
theorem entre_handleGame (h : handleGame serveur env m s = some s') :
    ∃ s₁, s.jeu.Entre s₁.jeu ∧ Publie none s s₁ ∧ (endRound env s₁ = some s' ∨ s' = s₁) := by
  obtain ⟨s₁, fin, ht, ⟨_, hr⟩ | ⟨_, rfl⟩⟩ := handleGame_cases h
  · exact ⟨s₁, entre_traite ht, publie_traite ht, Or.inl hr⟩
  · exact ⟨s', entre_traite ht, publie_traite ht, Or.inr rfl⟩

end Salle
end LombricABrac
