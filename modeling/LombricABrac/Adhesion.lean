import LombricABrac.Connexion

/-!
# Who is told that it may join

The answer of `client_thread` to a CLIENT_JOIN_REQUEST.  The thread publishes a PING for the room and takes
the first frame that it reads for its consent, whatever its contents; a room says "true" or "false" on the
channel of the user.  The PINGs of the user for one room are numbered beside the runs of the connection
and of the room: the room takes them in order.

    repond_etape         : the room says "true" when it treats a PING in its lobby, with less than 4 players
    numerote_etape       : the PINGs of the user are those that the room has taken and those on their way
    accueilli_of_reach   : the runs whose frames come after that "true"
    refuse_accueilli     : a room of 4 players says "false"
-/

namespace LombricABrac

/-! ## The room -/

/-- The room treats a PING of user `id` in its lobby, and has a place. -/
def Thread.aPlace (id : Nat) (th : Thread) : Bool :=
  th.lieu == .salleMsg ⟨id, .ping⟩ && decide (th.salle.jeu.players.length < 4)

/-- The room treats a PING of user `id`, in its lobby or in its game. -/
def Thread.ping (id : Nat) (th : Thread) : Bool :=
  th.lieu == .salleMsg ⟨id, .ping⟩ || th.lieu == .partieMsg ⟨id, .ping⟩

/-- An answer "true" to a PING. -/
def Annonce.accepte : Canal × Annonce → Bool
  | (_, .ping place _) => place
  | _ => false

/-- What a step of the room has published. -/
def Salle.annonces (s s' : Salle) : List (Canal × Annonce) := s'.envois.drop s.envois.length

theorem Salle.Muet.refuse {s s' : Salle} (h : s.Muet s') : (s.annonces s').any Annonce.accepte = false := by
  obtain ⟨l, hl, hn⟩ := h
  rw [Salle.annonces, hl, List.drop_left, List.any_eq_false]
  rintro ⟨c, a⟩ hin
  cases a with
  | ping place id => exact absurd hin (hn c place id)
  | _ => exact Bool.false_ne_true

namespace Thread

variable {serveur : Serveur} {e : Evenement} {th th' : Thread}

/-- **The answer to a PING**: the room has it in hand, and says "true" where it has a place in its lobby. -/
theorem repond_etape (id : Nat) (h : etape serveur e th = some th') :
    (th.ping id && (th.salle.annonces th'.salle).any Annonce.accepte) = th.aPlace id := by
  by_cases hl : th.lieu = .salleMsg ⟨id, .ping⟩
  · have hping : th.ping id = true := by simp [ping, hl]
    have hplace : th.aPlace id = decide (th.salle.jeu.players.length < 4) := by simp [aPlace, hl]
    rw [hping, hplace, Bool.true_and]
    unfold etape at h
    rw [hl] at h
    cases e with
    | suite env db =>
      cases h
      rw [Salle.annonces, Salle.envoie, List.drop_left]
      exact Bool.or_false _
    | _ => cases h
  · have hplace : th.aPlace id = false := by simp [aPlace, hl]
    rcases muet_etape h with hm | ⟨m, env, db, canal, _, hlieu, hm, _⟩
    · rw [hm.refuse, hplace, Bool.and_false]
    · have hping : th.ping id = false := by
        have hne : ¬ m = ⟨id, .ping⟩ := fun he => hl (hlieu.trans (congrArg Lieu.salleMsg he))
        simp [ping, hlieu, hne]
      rw [hping, hplace, Bool.false_and]

end Thread
/-! ## State -/

/-- A connection and a room, with the PINGs of the user for the room: how many were published, how many the
room has taken, those treated in its lobby while it had a place, those it has answered by "true", and those
after which the client was told SERVER_JOIN_RESPONSE true. -/
structure Adhesion where
  cx : Connexion
  pings : Nat
  recus : Nat
  places : List Nat
  repondus : List Nat
  admis : List Nat

namespace Adhesion

open Connexion (Pas)

def new (cx : Connexion) : Adhesion := ⟨cx, 0, 0, [], [], []⟩

/-- The PINGs of the user on their way to the room. -/
def enRoute (cx : Connexion) : Nat := cx.file.count ⟨cx.id, .ping⟩

/-- The connection waits for the answer of the room, and tells its client true for the frame it reads. -/
def admet (p : Pas) (cx : Connexion) : Bool :=
  match p with
  | .recoit => cx.point == .attend cx.roomId
  | _ => false

/-- The room goes on, with a PING of the user that it has a place for. -/
def aPlace (p : Pas) (cx : Connexion) : Bool :=
  match p with
  | .salle _ => cx.salle.aPlace cx.id
  | _ => false

/-- The room has a PING of the user in hand, and publishes a "true". -/
def repond (cx cx' : Connexion) : Bool :=
  cx.salle.ping cx.id && (cx.salle.salle.annonces cx'.salle.salle).any Annonce.accepte

def etape (serveur : Serveur) (p : Pas) (st : Adhesion) : Option Adhesion :=
  (Connexion.etape serveur p st.cx).map fun cx =>
    { cx
      pings := st.pings + (enRoute cx - enRoute st.cx)
      recus := st.recus + (enRoute st.cx - enRoute cx)
      places := st.places ++ if aPlace p st.cx then [st.recus] else []
      repondus := st.repondus ++ if repond st.cx cx then [st.recus] else []
      admis := st.admis ++ if admet p st.cx then [st.pings] else [] }

/-- The client was told true only where the room has said "true" to this PING. -/
def Accueilli (st : Adhesion) : Prop := ∀ k ∈ st.admis, k ∈ st.repondus

/-- Where a frame is read after a CLIENT_JOIN_REQUEST, the room has treated this PING in its lobby while it
had less than 4 players. -/
def averti (p : Pas) (st : Adhesion) : Bool := !admet p st.cx || st.places.contains st.pings

def Depart (st : Adhesion) : Prop := ∃ cx, Connexion.Depart cx ∧ st = new cx

/-! ## Steps -/

variable {serveur : Serveur} {p : Pas} {st st' : Adhesion} {cx cx' : Connexion}

/-- The room makes a step, or it does not. -/
theorem salle_etape (h : Connexion.etape serveur p cx = some cx') :
    (∃ e, p = .salle e ∧ Thread.etape serveur e cx.salle = some cx'.salle) ∨
      aPlace p cx = false ∧ cx'.salle = cx.salle := by
  rcases Connexion.etape_cases h with ⟨e, th, file, rfl, hth, rfl⟩ | ⟨b, boite, rfl, _, _, hr⟩ | ⟨hcalme, _⟩
  · exact Or.inl ⟨e, rfl, hth⟩
  · exact Or.inr ⟨rfl, (Connexion.recoit_cases hr).1.salle⟩
  · cases p with
    | salle e =>
      obtain ⟨th, file, hth, rfl⟩ := Connexion.etapeSalle_cases h
      exact Or.inl ⟨e, rfl, hth⟩
    | _ => exact Or.inr ⟨rfl, hcalme.salle⟩

/-- **The room says "true"** exactly where it treats the PING with a place. -/
theorem repond_iff (h : Connexion.etape serveur p cx = some cx') : repond cx cx' = aPlace p cx := by
  rcases salle_etape h with ⟨e, rfl, hth⟩ | ⟨hp, hsalle⟩
  · exact Thread.repond_etape cx.id hth
  · rw [hp, repond, hsalle, Salle.annonces, List.drop_length]
    exact Bool.and_false _

/-- The PINGs that the room treats with a place are those it answers by "true", and its PINGs are those it
has taken and those on their way to it. -/
structure Numerote (st : Adhesion) : Prop where
  repondus : st.repondus = st.places
  pings : st.pings = st.recus + enRoute st.cx

theorem numerote_etape (hN : st.Numerote) (h : etape serveur p st = some st') : st'.Numerote := by
  obtain ⟨cx', hcx, rfl⟩ := Option.map_eq_some_iff.mp h
  refine ⟨?_, ?_⟩
  · simp only [hN.repondus, repond_iff hcx]
  · have hp := hN.pings
    simp only
    omega

/-- **One step** keeps what the client is told true exactly where the frame comes after a "true". -/
theorem accueilli_etape (hN : st.Numerote) (hA : st.Accueilli) (h : etape serveur p st = some st') :
    averti p st = true ↔ st'.Accueilli := by
  obtain ⟨cx', hcx, rfl⟩ := Option.map_eq_some_iff.mp h
  unfold Accueilli averti
  cases ha : admet p st.cx with
  | false =>
    refine iff_of_true rfl fun k hk => List.mem_append_left _ (hA k ?_)
    simpa using hk
  | true =>
    -- a receive of the connection is no step of the room
    have hp : aPlace p st.cx = false := by
      cases p with
      | recoit => rfl
      | _ => cases ha
    rw [Bool.not_true, Bool.false_or, List.contains_iff_mem, ← hN.repondus]
    simp only [repond_iff hcx, hp, if_true, Bool.false_eq_true, if_false, List.append_nil,
      List.mem_append, List.mem_singleton]
    constructor
    · rintro hk k (hin | rfl)
      · exact hA k hin
      · exact hk
    · exact fun hk => hk st.pings (Or.inr rfl)

/-! ## Runs -/

/-- **Let in by the room alone**: in every run whose frames are read, after a CLIENT_JOIN_REQUEST, once the
room has treated the PING with a place, the client is told true only where the room has said so; the first
frame that comes sooner lets it in without. -/
theorem accueilli_of_reach (serveur : Serveur) (st : Adhesion)
    (h : Runs.Reach (etape serveur) (fun p st => averti p st = true) Depart st) :
    st.Accueilli ∧ ∀ p st', etape serveur p st = some st' → (averti p st = true ↔ st'.Accueilli) := by
  have hinv : st.Numerote ∧ st.Accueilli := by
    refine h.invariant (I := fun st => st.Numerote ∧ st.Accueilli) (fun st h0 => ?_)
      fun p st st' hI hok hs => ⟨numerote_etape hI.1 hs, (accueilli_etape hI.1 hI.2 hs).mp hok⟩
    obtain ⟨cx, ⟨id, owner, roomId, db, rfl⟩, rfl⟩ := h0
    exact ⟨⟨rfl, rfl⟩, nofun⟩
  exact ⟨hinv.2, fun p st' hs => accueilli_etape hinv.1 hinv.2 hs⟩

/-! ## A full room -/

open Thread (envPetit serveurDe)
open Reseau (baseCinq)

def suite : Pas := .salle (.suite (envPetit 0) baseCinq)

/-- Users 1 to `n` come into room 1. -/
def remplie (n : Nat) : List Pas :=
  suite :: (List.range' 1 n).flatMap fun id =>
    [.autre ⟨id, .infoRoom⟩, .salle (.recoit ⟨id, .infoRoom⟩), suite]

/-- User 5 asks to join; the room answers, and the connection reads a frame. -/
def demande : List Pas :=
  [.expire, .requete (.joinRequest 1), .salle (.recoit ⟨5, .ping⟩), suite, .livre, .recoit]

def avecCinq : Adhesion := new (Connexion.new 5 1 1 baseCinq)

theorem depart_avecCinq : Depart avecCinq := ⟨_, ⟨5, 1, 1, baseCinq, rfl⟩, rfl⟩

/-- The room has 4 players and says "false"; the user is let in. -/
theorem refuse_accueilli : ∃ st, Runs.Reach (etape (serveurDe Map.petite)) (fun _ _ => True) Depart st ∧
    st.cx.salle.salle.jeu.ids = [1, 2, 3, 4] ∧ st.admis = [1] ∧ st.repondus = [] ∧ st.cx.isOnGame = true ∧
    ¬ st.Accueilli := by
  obtain ⟨st, _, hr, hp⟩ := Runs.exists_of_exec (etape (serveurDe Map.petite)) (fun _ _ => True)
    depart_avecCinq (remplie 4 ++ demande)
    (fun st => st.cx.salle.salle.jeu.ids == [1, 2, 3, 4] && st.admis == [1] && st.repondus == [] &&
      st.cx.isOnGame) (by decide +kernel)
  simp only [Bool.and_eq_true, beq_iff_eq] at hp
  obtain ⟨⟨⟨hids, hadmis⟩, hrep⟩, hg⟩ := hp
  refine ⟨st, hr, hids, hadmis, hrep, hg, fun hA => ?_⟩
  have hin := hA 1 (by rw [hadmis]; exact List.mem_singleton.mpr rfl)
  rw [hrep] at hin
  cases hin

/-- With 3 players it says "true". -/
theorem place_accueilli : ∃ st, Runs.exec (etape (serveurDe Map.petite)) (fun p st => averti p st = true)
      (remplie 3 ++ demande) avecCinq = some st ∧ st.admis = [1] ∧ st.repondus = [1] ∧ st.Accueilli := by
  obtain ⟨st, hst, hr, hp⟩ := Runs.exists_of_exec (etape (serveurDe Map.petite))
    (fun p st => averti p st = true) depart_avecCinq (remplie 3 ++ demande)
    (fun st => st.admis == [1] && st.repondus == [1]) (by decide +kernel)
  simp only [Bool.and_eq_true, beq_iff_eq] at hp
  exact ⟨st, hst, hp.1, hp.2, (accueilli_of_reach (serveurDe Map.petite) st hr).1⟩

end Adhesion
end LombricABrac
