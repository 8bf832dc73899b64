import LombricABrac.Admission
import LombricABrac.Lib.Desk

/-!
# Who is let in first

Users that look for a match wait in `waiting_players`.  The broker answers the first of them for each
"true" that a room publishes on `all`, whoever it pinged the room for.  A run keeps what was published for
the broker and what it answered.

    guichet_of_reach       : the broker is a desk, whose tickets are the places of the rooms
    premier_servi_of_reach : users are answered in the order of their requests, each for a place of its own
    longueur_of_reach      : nobody waits while a place that was announced could have been theirs
-/

namespace LombricABrac

/-! ## Messages -/

/-- What a message is for the queue of the broker. -/
def Demande.guichet : Demande → Option (Desk.Event Nat Nat)
  | .lookup id => some (.client id)
  | .ping true gameId => some (.ticket gameId)
  | .ping false _ => none

/-- Who asks. -/
def Demande.usager (d : Demande) : Option Nat := d.guichet.bind Desk.Event.client?

/-- Which room has a place. -/
def Demande.libre (d : Demande) : Option Nat := d.guichet.bind Desk.Event.ticket?

/-- The answer to a CLIENT_LOOKUP_MATCH. -/
def Courrier.reponse : Nat × Courrier → Option (Nat × Nat)
  | (id, .lookupResponse gameId) => some (id, gameId)
  | _ => none

/-- The room says on `all` that it has a place. -/
def Annonce.libre (room : Nat) : Canal × Annonce → Bool
  | (.all, .ping place gameId) => Demande.accorde room (.ping place gameId)
  | _ => false

/-! ## State -/

/-- The network, what was published for the broker since the start, and what it answered. -/
structure Journal where
  reseau : Reseau
  publies : List Demande
  reponses : List (Nat × Nat)

namespace Reseau

/-- The answers that a step adds to the messages for the users. -/
def reponses (st st' : Reseau) : List (Nat × Nat) :=
  (st'.boite.drop st.boite.length).filterMap Courrier.reponse

end Reseau

namespace Journal

def etape (serveur : Serveur) (p : Reseau.Pas) (j : Journal) : Option Journal :=
  (j.reseau.etape serveur p).map fun st =>
    { reseau := st
      publies := j.publies ++ st.broker.drop j.reseau.broker.length
      reponses := j.reponses ++ j.reseau.reponses st }

def Depart (j : Journal) : Prop := ∃ st, Reseau.Depart st ∧ j = ⟨st, [], []⟩

/-- What the broker has read. -/
def lus (j : Journal) : List Demande := j.publies.take (j.publies.length - j.reseau.broker.length)

/-- What the broker should have made of what it has read. -/
def file (j : Journal) : Desk.State Nat Nat := Desk.run (j.lus.filterMap Demande.guichet)

end Journal

/-! ## What one step does -/

namespace Reseau

variable {serveur : Serveur} {st st' : Reseau} {p : Pas}

/-- A step reads a message of the broker, or publishes some for it; only the broker answers. -/
inductive Guichet (st st' : Reseau) : Prop
  | lit (d : Demande) : st.broker = d :: st'.broker →
      (∀ servis, (⟨st'.waitingPlayers, servis ++ st.reponses st'⟩ : Desk.State Nat Nat) =
        d.guichet.elim ⟨st.waitingPlayers, servis⟩ (Desk.State.step ⟨st.waitingPlayers, servis⟩)) → Guichet st st'
  | publie (l : List Demande) : st'.broker = st.broker ++ l → st'.waitingPlayers = st.waitingPlayers →
      st.reponses st' = [] → Guichet st st'

theorem reponses_append {l : List (Nat × Courrier)} (h : st'.boite = st.boite ++ l) :
    st.reponses st' = l.filterMap Courrier.reponse := by
  rw [reponses, h, List.drop_left]

theorem reponses_of_le (h : st'.boite.length ≤ st.boite.length) : st.reponses st' = [] := by
  rw [reponses, List.drop_eq_nil_of_le h]
  rfl

/-- A room answers no CLIENT_LOOKUP_MATCH. -/
theorem reponse_pourUsager (l : List (Canal × Annonce)) :
    (l.filterMap Annonce.pourUsager).filterMap Courrier.reponse = [] := by
  apply List.filterMap_eq_nil_iff.mpr
  intro e he
  obtain ⟨⟨c, a⟩, _, he⟩ := List.mem_filterMap.mp he
  cases c with
  | all => cases he
  | joueur id => cases a <;> cases he <;> rfl

@[simp] theorem pingRooms_broker (st : Reseau) : st.pingRooms.broker = st.broker := by
  unfold pingRooms
  split <;> rfl

@[simp] theorem pingRooms_waitingPlayers (st : Reseau) : st.pingRooms.waitingPlayers = st.waitingPlayers := by
  unfold pingRooms
  split <;> rfl

@[simp] theorem pingRooms_boite (st : Reseau) : st.pingRooms.boite = st.boite := by
  unfold pingRooms
  split <;> rfl

@[simp] theorem traiteDemande_broker (d : Demande) (st : Reseau) : (traiteDemande d st).broker = st.broker := by
  unfold traiteDemande
  split
  · exact pingRooms_broker _
  · split <;> rfl
  · rfl

/-- The broker takes a message as a desk does. -/
theorem guichet_traiteDemande (d : Demande) (st : Reseau) (servis : List (Nat × Nat)) :
    (⟨(traiteDemande d st).waitingPlayers, servis ++ st.reponses (traiteDemande d st)⟩ : Desk.State Nat Nat) =
      d.guichet.elim ⟨st.waitingPlayers, servis⟩ (Desk.State.step ⟨st.waitingPlayers, servis⟩) := by
  cases d with
  | lookup id =>
    have hb : (traiteDemande (.lookup id) st).boite = st.boite := pingRooms_boite _
    have hw : (traiteDemande (.lookup id) st).waitingPlayers = st.waitingPlayers ++ [id] :=
      pingRooms_waitingPlayers _
    rw [hw, reponses_of_le (by rw [hb]), List.append_nil]
    rfl
  | ping place gameId =>
    cases place with
    | false =>
      have hb : st.reponses (traiteDemande (.ping false gameId) st) = [] := reponses_of_le le_rfl
      rw [hb, List.append_nil]
      rfl
    | true =>
      show _ = Desk.State.serve gameId ⟨st.waitingPlayers, servis⟩
      unfold traiteDemande
      cases hw : st.waitingPlayers with
      | nil =>
        rw [reponses_of_le le_rfl, List.append_nil, hw]
        rfl
      | cons id attente =>
        rw [reponses_append rfl]
        rfl

theorem guichet_tourBroker {recu : Bool} (h : st.tourBroker recu = some st') : Guichet st st' := by
  have hrecoit : ∀ s : Reseau, s.broker = st.broker → s.waitingPlayers = st.waitingPlayers →
      s.boite = st.boite → s.recoitDemande recu = some st' → Guichet st st' := by
    intro s hb hw hm h
    unfold recoitDemande at h
    split at h
    · cases h
      exact .publie [] (by rw [hb, List.append_nil]) hw (reponses_of_le (by rw [hm]))
    · next d broker hd _ =>
      cases h
      refine .lit d (by rw [traiteDemande_broker, ← hb, hd]) fun servis => ?_
      have hg := guichet_traiteDemande d { s with broker } servis
      have hr : st.reponses (traiteDemande d { s with broker }) =
          reponses { s with broker } (traiteDemande d { s with broker }) := by
        rw [reponses, reponses, ← hm]
      rw [hr, hg, ← hw]
    · cases h
  unfold tourBroker at h
  split at h
  · exact hrecoit st rfl rfl rfl h
  · exact hrecoit st.pingRooms (pingRooms_broker st) (pingRooms_waitingPlayers st) (pingRooms_boite st) h

/-- A thread that reads shortens its queue. -/
theorem length_prend {id : Nat} {c : Courrier} {boite reste : List (Nat × Courrier)}
    (h : prend id boite = some (c, reste)) : reste.length ≤ boite.length := by
  have hcount := countP_prend (fun _ => true) h
  simp only [List.countP_true, if_true] at hcount
  omega

theorem guichet_lit {id : Nat} (h : st.lit id = some st') : Guichet st st' := by
  obtain ⟨⟨c, boite⟩, hp, rfl⟩ := Option.map_eq_some_iff.mp h
  have hle := length_prend hp
  have hsame : ∀ s : Reseau, s.broker = st.broker → s.waitingPlayers = st.waitingPlayers → s.boite = boite →
      Guichet st s := by
    intro s hb hw hm
    exact .publie [] (by rw [hb, List.append_nil]) hw (reponses_of_le (by rw [hm]; exact hle))
  simp only
  split
  · exact hsame _ rfl rfl rfl
  · split
    · exact hsame _ rfl rfl rfl
    · exact hsame _ rfl rfl rfl
    · exact hsame _ rfl rfl rfl
    · exact hsame _ rfl rfl rfl

theorem guichet_avance (salle : Thread) (file : List ZmqMsg) (st : Reseau) : Guichet st (avance salle file st) := by
  refine .publie _ rfl rfl ?_
  rw [reponses_append rfl]
  exact reponse_pourUsager _

/-- The room's thread is told of a message that is in its queue. -/
theorem exists_avance {e : Evenement} (h : st.etapeSalle serveur e = some st') :
    ∃ th file, Thread.etape serveur e st.salle = some th ∧ st' = avance th file st := by
  cases e with
  | recoit m =>
    simp only [etapeSalle] at h
    split at h
    · cases h
    · split at h
      · obtain ⟨th, hth, rfl⟩ := Option.map_eq_some_iff.mp h
        exact ⟨th, _, hth, rfl⟩
      · cases h
  | silence =>
    obtain ⟨th, hth, rfl⟩ := Option.map_eq_some_iff.mp h
    exact ⟨th, _, hth, rfl⟩
  | suite env db =>
    obtain ⟨th, hth, rfl⟩ := Option.map_eq_some_iff.mp h
    exact ⟨th, _, hth, rfl⟩

/-- **What one step does** to the queue of the broker and to its answers. -/
theorem guichet_etape (h : st.etape serveur p = some st') : Guichet st st' := by
  have hrien : ∀ s : Reseau, s.broker = st.broker → s.waitingPlayers = st.waitingPlayers →
      s.boite.length ≤ st.boite.length → Guichet st s := by
    intro s hb hw hm
    exact .publie [] (by rw [hb, List.append_nil]) hw (reponses_of_le hm)
  cases p with
  | lookup id =>
    simp only [etape] at h
    split at h
    · cases h
      exact .publie [.lookup id] rfl rfl (reponses_of_le le_rfl)
    · cases h
  | joinRequest id room =>
    simp only [etape] at h
    split at h
    · cases h
      exact hrien _ rfl rfl le_rfl
    · cases h
  | expire id =>
    cases h
    exact hrien _ rfl rfl le_rfl
  | lit id => exact guichet_lit h
  | envoie id c =>
    simp only [etape] at h
    split at h
    · split at h
      · cases h
        exact hrien _ rfl rfl le_rfl
      · cases h
        exact hrien _ rfl rfl le_rfl
    · cases h
  | deconnecte id pseudo =>
    cases h
    exact hrien _ rfl rfl (List.length_filter_le _ _)
  | broker recu => exact guichet_tourBroker h
  | ailleurs canal place room =>
    simp only [etape] at h
    split at h
    · cases h
    · cases h
      refine .publie _ rfl rfl ?_
      rw [reponses_append rfl]
      exact reponse_pourUsager _
  | salle e =>
    obtain ⟨th, file, _, rfl⟩ := exists_avance h
    exact guichet_avance th file st

/-! ## The places that the room announced -/

/-- Of what the room publishes the broker gets the places. -/
theorem countP_pourBroker (room : Nat) (l : List (Canal × Annonce)) :
    (l.filterMap Annonce.pourBroker).countP (Demande.accorde room) = l.countP (Annonce.libre room) := by
  rw [List.countP_filterMap]
  apply List.countP_congr
  rintro ⟨c, a⟩ _
  cases c with
  | joueur id => rfl
  | all => cases a <;> rfl

/-- The broker changes nothing in the room, and publishes nothing for itself. -/
theorem frame_tourBroker {recu : Bool} (h : st.tourBroker recu = some st') :
    st'.roomId = st.roomId ∧ st'.salle = st.salle ∧ st'.broker.length ≤ st.broker.length := by
  have hping : ∀ s : Reseau, s.pingRooms.roomId = s.roomId ∧ s.pingRooms.salle = s.salle := by
    intro s
    unfold pingRooms
    split <;> exact ⟨rfl, rfl⟩
  have htraite : ∀ d s, (traiteDemande d s).roomId = s.roomId ∧ (traiteDemande d s).salle = s.salle := by
    intro d s
    unfold traiteDemande
    split
    · exact hping _
    · split <;> exact ⟨rfl, rfl⟩
    · exact ⟨rfl, rfl⟩
  have hrecoit : ∀ s : Reseau, s.recoitDemande recu = some st' →
      st'.roomId = s.roomId ∧ st'.salle = s.salle ∧ st'.broker.length ≤ s.broker.length := by
    intro s h
    unfold recoitDemande at h
    split at h
    · cases h
      exact ⟨rfl, rfl, le_rfl⟩
    · next d broker hd _ =>
      cases h
      refine ⟨(htraite d _).1, (htraite d _).2, ?_⟩
      rw [traiteDemande_broker, hd]
      exact Nat.le_succ _
    · cases h
  unfold tourBroker at h
  split at h
  · exact hrecoit st h
  · obtain ⟨hr, hs, hb⟩ := hrecoit st.pingRooms h
    rw [pingRooms_broker] at hb
    exact ⟨hr.trans (hping st).1, hs.trans (hping st).2, hb⟩

/-- The places that the broker hears of are those that the room publishes. -/
def Publie (st st' : Reseau) : Prop := st'.roomId = st.roomId ∧
  ∃ l, st'.salle.salle.envois = st.salle.salle.envois ++ l ∧
    (st'.broker.drop st.broker.length).countP (Demande.accorde st.roomId) = l.countP (Annonce.libre st.roomId)

theorem publie_etape (h : st.etape serveur p = some st') : Publie st st' := by
  have hsalle : ∀ s : Reseau, s.roomId = st.roomId → s.salle = st.salle →
      (s.broker.drop st.broker.length).countP (Demande.accorde st.roomId) = 0 → Publie st s := by
    intro s hr hs hc
    exact ⟨hr, [], by rw [hs, List.append_nil], hc⟩
  have hrien : ∀ s : Reseau, s.roomId = st.roomId → s.salle = st.salle → s.broker.length ≤ st.broker.length →
      Publie st s := by
    intro s hr hs hb
    refine hsalle s hr hs ?_
    rw [List.drop_eq_nil_of_le hb]
    rfl
  cases p with
  | lookup id =>
    simp only [etape] at h
    split at h
    · cases h
      refine hsalle _ rfl rfl ?_
      rw [List.drop_left]
      rfl
    · cases h
  | joinRequest id room =>
    simp only [etape] at h
    split at h
    · cases h
      exact hrien _ rfl rfl le_rfl
    · cases h
  | expire id =>
    cases h
    exact hrien _ rfl rfl le_rfl
  | lit id =>
    obtain ⟨⟨c, boite⟩, hp, rfl⟩ := Option.map_eq_some_iff.mp h
    simp only
    split
    · exact hrien _ rfl rfl le_rfl
    · split <;> exact hrien _ rfl rfl le_rfl
  | envoie id c =>
    simp only [etape] at h
    split at h
    · split at h
      · cases h
        exact hrien _ rfl rfl le_rfl
      · cases h
        exact hrien _ rfl rfl le_rfl
    · cases h
  | deconnecte id pseudo =>
    cases h
    exact hrien _ rfl rfl le_rfl
  | broker recu =>
    obtain ⟨hr, hs, hb⟩ := frame_tourBroker h
    exact hrien _ hr hs hb
  | ailleurs canal place room =>
    simp only [etape] at h
    split at h
    · cases h
    · next hroom =>
      cases h
      refine hsalle _ rfl rfl ?_
      have hz : accordes st.roomId [(canal, .ping place room)] = 0 := accordes_ailleurs hroom
      rw [List.drop_left]
      unfold accordes at hz
      omega
  | salle e =>
    obtain ⟨th, file, hth, rfl⟩ := exists_avance h
    have hl : ∃ l, th.salle.envois = st.salle.salle.envois ++ l := by
      rcases Thread.muet_etape hth with ⟨l, hl, _⟩ | ⟨_, _, _, _, _, _, _, hl⟩
      · exact ⟨l, hl⟩
      · exact ⟨_, hl⟩
    obtain ⟨l, hl⟩ := hl
    refine ⟨rfl, l, hl, ?_⟩
    have hb : (avance th file st).broker = st.broker ++ l.filterMap Annonce.pourBroker := by
      unfold avance
      rw [hl, List.drop_left]
    rw [hb, List.drop_left]
    exact countP_pourBroker _ l

end Reseau

/-! ## Runs -/

namespace Journal

variable {serveur : Serveur} {j j' : Journal}

theorem run_guichet (lus : List Demande) (d : Demande) : Desk.run ((lus ++ [d]).filterMap Demande.guichet) =
    d.guichet.elim (Desk.run (lus.filterMap Demande.guichet))
      (Desk.State.step (Desk.run (lus.filterMap Demande.guichet))) := by
  rw [List.filterMap_append]
  cases hd : d.guichet with
  | none =>
    rw [List.filterMap_cons_none hd]
    exact congrArg Desk.run (List.append_nil _)
  | some e =>
    rw [List.filterMap_cons_some hd]
    exact Desk.run_concat _ e

/-- The broker has made of what it read what a desk makes of it, and the places of the room are those that
it published. -/
structure Tient (j : Journal) : Prop where
  guichet : ∃ lus, j.publies = lus ++ j.reseau.broker ∧
    Desk.run (lus.filterMap Demande.guichet) = ⟨j.reseau.waitingPlayers, j.reponses⟩
  places : j.publies.countP (Demande.accorde j.reseau.roomId) =
    j.reseau.salle.salle.envois.countP (Annonce.libre j.reseau.roomId)

/-- **What one step preserves.** -/
theorem tient_etape {p : Reseau.Pas} (h : j.Tient) (hs : j.etape serveur p = some j') : j'.Tient := by
  obtain ⟨st, hst, rfl⟩ := Option.map_eq_some_iff.mp hs
  obtain ⟨⟨lus, hlus, hrun⟩, hplaces⟩ := h
  obtain ⟨hroom, l, hl, hcount⟩ := Reseau.publie_etape hst
  constructor
  · cases Reseau.guichet_etape hst with
    | lit d hd hsert =>
      refine ⟨lus ++ [d], ?_, ?_⟩
      · show j.publies ++ _ = _
        rw [hlus, hd, List.drop_eq_nil_of_le (by rw [List.length_cons]; omega), List.append_nil,
          List.append_assoc]
        rfl
      · rw [run_guichet, hrun]
        exact (hsert j.reponses).symm
    | publie l hb hw hr =>
      refine ⟨lus, ?_, ?_⟩
      · show j.publies ++ _ = _
        rw [hb, List.drop_left, hlus, List.append_assoc]
      · show _ = (⟨st.waitingPlayers, j.reponses ++ j.reseau.reponses st⟩ : Desk.State Nat Nat)
        rw [hr, List.append_nil, hw]
        exact hrun
  · show (j.publies ++ _).countP (Demande.accorde st.roomId) = st.salle.salle.envois.countP _
    rw [hroom, hl, List.countP_append, List.countP_append, hplaces, hcount]

theorem tient_of_reach (h : Runs.Reach (etape serveur) (fun _ _ => True) Depart j) : j.Tient := by
  refine h.invariant (fun j h0 => ?_) fun p j j' hj _ hs => tient_etape hj hs
  obtain ⟨_, ⟨owner, roomId, db, rfl⟩, rfl⟩ := h0
  exact ⟨⟨[], rfl, rfl⟩, rfl⟩

/-- **The broker is a desk.** -/
theorem guichet_of_reach (h : Runs.Reach (etape serveur) (fun _ _ => True) Depart j) :
    j.publies = j.lus ++ j.reseau.broker ∧ j.file = ⟨j.reseau.waitingPlayers, j.reponses⟩ := by
  obtain ⟨lus, hlus, hrun⟩ := (tient_of_reach h).guichet
  have htake : j.lus = lus := by
    rw [Journal.lus, hlus, List.length_append, Nat.add_sub_cancel, List.take_left]
  rw [file, htake]
  exact ⟨hlus, hrun⟩

theorem filterMap_usager (l : List Demande) :
    (l.filterMap Demande.guichet).filterMap Desk.Event.client? = l.filterMap Demande.usager :=
  List.filterMap_filterMap

theorem filterMap_libre (l : List Demande) :
    (l.filterMap Demande.guichet).filterMap Desk.Event.ticket? = l.filterMap Demande.libre :=
  List.filterMap_filterMap

theorem countP_libre (room : Nat) (l : List Demande) :
    (l.filterMap Demande.libre).count room = l.countP (Demande.accorde room) := by
  rw [List.count_eq_countP, List.countP_filterMap]
  apply List.countP_congr
  intro d _
  cases d with
  | lookup id => exact Iff.rfl
  | ping place gameId =>
    cases place with
    | false => exact Iff.rfl
    | true => simp [Demande.libre, Demande.guichet, Desk.Event.ticket?, Demande.accorde]

/-- **First come, first served**: in every run of the room, the broker and the users, those that the broker
answered, those that wait and those whose request it has not read are all that asked, in the order in which
they did; it has used a place of the rooms for each answer, in their order; and it has let no more users
into a room than the room said on `all` that it had a place. -/
theorem premier_servi_of_reach (h : Runs.Reach (etape serveur) (fun _ _ => True) Depart j) :
    j.reponses.map Prod.fst ++ j.reseau.waitingPlayers ++ j.reseau.broker.filterMap Demande.usager =
        j.publies.filterMap Demande.usager ∧
      (j.reponses.map Prod.snd ++ j.reseau.broker.filterMap Demande.libre).Sublist
        (j.publies.filterMap Demande.libre) ∧
      (j.reponses.map Prod.snd).count j.reseau.roomId +
          j.reseau.broker.countP (Demande.accorde j.reseau.roomId) ≤
        j.reseau.salle.salle.envois.countP (Annonce.libre j.reseau.roomId) := by
  obtain ⟨hlus, hfile⟩ := guichet_of_reach h
  have hservis := Desk.served_append_waiting (j.lus.filterMap Demande.guichet)
  have hplaces := Desk.served_tickets (j.lus.filterMap Demande.guichet)
  rw [file] at hfile
  rw [hfile, filterMap_usager] at hservis
  rw [hfile, filterMap_libre] at hplaces
  have hsub : (j.reponses.map Prod.snd ++ j.reseau.broker.filterMap Demande.libre).Sublist
      (j.publies.filterMap Demande.libre) := by
    rw [hlus, List.filterMap_append]
    exact hplaces.append (List.Sublist.refl _)
  refine ⟨?_, hsub, ?_⟩
  · conv_rhs => rw [hlus, List.filterMap_append]
    exact congrArg (· ++ _) hservis
  · have hcount := hsub.count_le j.reseau.roomId
    rw [List.count_append, countP_libre, countP_libre] at hcount
    rw [← (tient_of_reach h).places]
    exact hcount

/-- **Nobody waits for nothing**: the queue is the greatest excess of the requests over the places among
what the broker has read since some time. -/
theorem longueur_of_reach (h : Runs.Reach (etape serveur) (fun _ _ => True) Depart j) :
    (∀ b, b <:+ j.lus → (b.filterMap Demande.usager).length ≤
        j.reseau.waitingPlayers.length + (b.filterMap Demande.libre).length) ∧
      ∃ b, b <:+ j.lus ∧ (b.filterMap Demande.usager).length =
        j.reseau.waitingPlayers.length + (b.filterMap Demande.libre).length := by
  obtain ⟨_, hfile⟩ := guichet_of_reach h
  obtain ⟨hle, b, hb, heq⟩ := Desk.isGreatest_waiting (j.lus.filterMap Demande.guichet)
  rw [file] at hfile
  rw [hfile] at hle heq
  constructor
  · intro b hb
    have hb' := hle _ (hb.filterMap Demande.guichet)
    rwa [Desk.clients, Desk.tickets, filterMap_usager, filterMap_libre] at hb'
  · obtain ⟨a, ha⟩ := hb
    obtain ⟨l, c, hl, _, rfl⟩ := List.filterMap_eq_append_iff.mp ha.symm
    rw [Desk.clients, Desk.tickets, filterMap_usager, filterMap_libre] at heq
    exact ⟨c, ⟨l, hl.symm⟩, heq⟩

/-! ## Two users wait for one room -/

open Reseau (arrivees baseCinq)
open Thread (envPetit serveurDe)

/-- The owner comes in, users 2 and 3 look for a match, and the room says once that it has a place. -/
def recherches : List Reseau.Pas :=
  arrivees 0 ++ [.lookup 2, .lookup 3, .broker true, .broker true, .salle (.recoit ⟨0, .ping⟩),
    .salle (.suite (envPetit 0) baseCinq), .broker true]

/-- The first of them is let in, the other waits. -/
theorem deux_recherches : ∃ j, Runs.Reach (etape (serveurDe Map.petite)) (fun _ _ => True) Depart j ∧
    j.reponses = [(2, 1)] ∧ j.reseau.waitingPlayers = [3] ∧
    [2] ++ [3] ++ j.reseau.broker.filterMap Demande.usager = j.publies.filterMap Demande.usager := by
  obtain ⟨j, _, hr, hp⟩ := Runs.exists_of_exec (etape (serveurDe Map.petite)) (fun _ _ => True)
    (show Depart ⟨Reseau.new 1 1 baseCinq, [], []⟩ from ⟨_, ⟨1, 1, baseCinq, rfl⟩, rfl⟩) recherches
    (fun j => j.reponses == [(2, 1)] && j.reseau.waitingPlayers == [3]) (by decide +kernel)
  obtain ⟨hrep, hattend⟩ := Bool.and_eq_true_iff.mp hp
  have hservi := (premier_servi_of_reach hr).1
  rw [beq_iff_eq.mp hrep, beq_iff_eq.mp hattend] at hservi
  exact ⟨j, hr, beq_iff_eq.mp hrep, beq_iff_eq.mp hattend, hservi⟩

/-- Since the first of them asked, there was one place for the two. -/
theorem file_recherches : ∃ j, Runs.Reach (etape (serveurDe Map.petite)) (fun _ _ => True) Depart j ∧
    j.reseau.waitingPlayers = [3] ∧ ∃ b, b <:+ j.lus ∧ (b.filterMap Demande.usager).length =
      1 + (b.filterMap Demande.libre).length := by
  obtain ⟨j, _, hr, hp⟩ := Runs.exists_of_exec (etape (serveurDe Map.petite)) (fun _ _ => True)
    (show Depart ⟨Reseau.new 1 1 baseCinq, [], []⟩ from ⟨_, ⟨1, 1, baseCinq, rfl⟩, rfl⟩) recherches
    (fun j => j.reseau.waitingPlayers == [3]) (by decide +kernel)
  have hlong := (longueur_of_reach hr).2
  rw [beq_iff_eq.mp hp] at hlong
  exact ⟨j, hr, beq_iff_eq.mp hp, hlong⟩

end Journal
end LombricABrac
