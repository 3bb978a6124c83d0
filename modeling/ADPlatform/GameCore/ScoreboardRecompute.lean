import ADPlatform.Lib.Concurrent
import ADPlatform.GameCore.PostgresScoreboard

/-! # Concurrent recomputes of the stored scoreboard

`RecomputeScoreboard` on the postgres store as its nine queries and its write transaction, each of
them one step, next to accepted submissions and to teams that are activated and deactivated. The
shared state remembers what each recompute has seen of the others. -/

namespace ADPlatform.GameCore
open Concurrent

/-- The history of one recompute: how many submissions were committed when it began, which teams
have been active ever since it read its list of teams, and whether it has finished. -/
structure RecomputeRecord where
  submissions : Nat
  steady : List Int
  finished : Bool := false
  deriving DecidableEq, Repr

/-- The tables, and the recomputes in the order in which they began; `lastWrite` is the recompute
that wrote the stored scoreboard. -/
structure ScoringShared (K : Type) where
  db : Database K
  recomputes : List RecomputeRecord := []
  lastWrite : Option Nat := none

/-- The steps of a recompute, each a query of its own, and what changes the tables meanwhile. -/
inductive ScoreOp (K : Type) where
  | acceptFlagSubmission (submission : AcceptedFlagSubmission)
  | setTeamActive (teamID : Int) (active : Bool)
  | teams
  | previousRanks
  | attackByTeam
  | defenseByTeam
  | slaByTeam (slaFactor : K)
  | attackByTeamService
  | slaByTeamService (slaFactor : K)
  | defenseByTeamService
  | challenges
  | saveScoreboard (recompute : Nat) (entries : List (ScoreboardEntry K))

/-- What a step answers. The first query also tells a recompute its number. -/
def ScoreOp.Res {K : Type} : ScoreOp K → Type
  | acceptFlagSubmission _ => Except StoreError Bool
  | teams => Nat × List (Int × String)
  | previousRanks => List (Int × Nat)
  | attackByTeam | defenseByTeam | slaByTeam _ => List (Int × K)
  | attackByTeamService | slaByTeamService _ | defenseByTeamService => List ((Int × Int) × K)
  | challenges => List (Int × String)
  | setTeamActive .. | saveScoreboard .. => Unit

variable {K : Type} [Field K]

/-- A recompute is finished. -/
def RecomputeRecord.finish (r : RecomputeRecord) : RecomputeRecord := { r with finished := true }

/-- A team has been deactivated. -/
def RecomputeRecord.drop (teamID : Int) (r : RecomputeRecord) : RecomputeRecord :=
  { r with steady := r.steady.filter (· ≠ teamID) }

/-- The steps on the tables and the record of recomputes. -/
def scoreSem (M : FaustMath K) (crypto : Crypto) :
    Semantics (ScoringShared K) Unit (ScoreOp K) ScoreOp.Res
  | _, .acceptFlagSubmission x, s =>
    let (db, r) := s.db.acceptFlagSubmission crypto x
    some ({ s with db }, r)
  | _, .setTeamActive teamID active, s => some ({ s with
      db := s.db.setTeamActive teamID active
      recomputes := if active then s.recomputes else s.recomputes.map (.drop teamID) }, ())
  | _, .teams, s =>
    let record :=
      { submissions := s.db.submittedFlags.length, steady := s.db.activeTeams.map (·.1) }
    some ({ s with recomputes := s.recomputes ++ [record] }, s.recomputes.length, s.db.activeTeams)
  | _, .previousRanks, s => some (s, s.db.storedRanks)
  | _, .attackByTeam, s => some (s, s.db.attackByTeam)
  | _, .defenseByTeam, s => some (s, s.db.defenseByTeam M)
  | _, .slaByTeam slaFactor, s => some (s, s.db.slaByTeam slaFactor)
  | _, .attackByTeamService, s => some (s, s.db.attackByTeamService)
  | _, .slaByTeamService slaFactor, s => some (s, s.db.slaByTeamService slaFactor)
  | _, .defenseByTeamService, s => some (s, s.db.defenseByTeamService M)
  | _, .challenges, s => some (s, s.db.orderedChallenges)
  | _, .saveScoreboard n entries, s => some ({
      db := s.db.saveScoreboard entries
      recomputes := s.recomputes.modify n .finish
      lastWrite := some n }, ())

/-- The store's code over these steps. -/
abbrev ScoreProc (K : Type) := Proc (ScoreOp K) ScoreOp.Res

namespace ScoreProc
open Proc

/-! Each query as a program of one step. -/

def teams : ScoreProc K (Nat × List (Int × String)) := perform ScoreOp.teams
def previousRanks : ScoreProc K (List (Int × Nat)) := perform ScoreOp.previousRanks
def attackByTeam : ScoreProc K (List (Int × K)) := perform ScoreOp.attackByTeam
def defenseByTeam : ScoreProc K (List (Int × K)) := perform ScoreOp.defenseByTeam
def slaByTeam (slaFactor : K) : ScoreProc K (List (Int × K)) :=
  perform (ScoreOp.slaByTeam slaFactor)
def attackByTeamService : ScoreProc K (List ((Int × Int) × K)) :=
  perform ScoreOp.attackByTeamService
def slaByTeamService (slaFactor : K) : ScoreProc K (List ((Int × Int) × K)) :=
  perform (ScoreOp.slaByTeamService slaFactor)
def defenseByTeamService : ScoreProc K (List ((Int × Int) × K)) :=
  perform ScoreOp.defenseByTeamService
def challenges : ScoreProc K (List (Int × String)) := perform ScoreOp.challenges

end ScoreProc

variable [LinearOrder K]

/-- `RecomputeScoreboard`. -/
def recomputeScoreboard (M : FaustMath K) (rt : Go.Runtime) : ScoreProc K Unit := do
  let (recompute, teams) ← ScoreProc.teams
  let previousRanks ← ScoreProc.previousRanks
  let attackByTeam ← ScoreProc.attackByTeam
  let defenseByTeam ← ScoreProc.defenseByTeam
  let slaByTeam ← ScoreProc.slaByTeam (faustSLAFactor M teams.length)
  let attackByTeamService ← ScoreProc.attackByTeamService
  let slaByTeamService ← ScoreProc.slaByTeamService (faustSLAFactor M teams.length)
  let defenseByTeamService ← ScoreProc.defenseByTeamService
  let challenges ← ScoreProc.challenges
  Proc.perform (ScoreOp.saveScoreboard recompute (ScoreQueries.entries rt
    { teams, previousRanks, attackByTeam, defenseByTeam, slaByTeam, attackByTeamService
      slaByTeamService, defenseByTeamService, challenges }))

/-- Accepted submissions and recomputes. -/
inductive SubmissionTraffic where
  | acceptFlagSubmission (submission : AcceptedFlagSubmission)
  | recomputeScoreboard (rt : Go.Runtime)

/-- The code that serves a request. -/
def SubmissionTraffic.handler (M : FaustMath K) :
    SubmissionTraffic → Thread (ScoreOp K) ScoreOp.Res
  | acceptFlagSubmission x =>
    (Proc.perform (ScoreOp.acceptFlagSubmission x) : ScoreProc K (Except StoreError Bool)).toThread
  | recomputeScoreboard rt => (GameCore.recomputeScoreboard M rt).toThread

/-- Changes of the active teams and recomputes. -/
inductive ActivationTraffic where
  | setTeamActive (teamID : Int) (active : Bool)
  | recomputeScoreboard (rt : Go.Runtime)

/-- The code that serves a request. -/
def ActivationTraffic.handler (M : FaustMath K) :
    ActivationTraffic → Thread (ScoreOp K) ScoreOp.Res
  | setTeamActive teamID active =>
    (Proc.perform (ScoreOp.setTeamActive teamID active) : ScoreProc K Unit).toThread
  | recomputeScoreboard rt => (GameCore.recomputeScoreboard M rt).toThread

/-! ## Rules for the recompute -/

section rules
variable {M : FaustMath K} {C : Contract (ScoringShared K) Unit (ScoreOp K) ScoreOp.Res}

/-- What a contract has to grant so that a recompute keeps it: from its first query on it has seen
`began n teams`, and the attack and defense queries have answered something `seen`. -/
structure RecomputeRules (C : Contract (ScoringShared K) Unit (ScoreOp K) ScoreOp.Res)
    (began : Nat → List (Int × String) → ScoringShared K → Prop)
    (attack defense : Nat → List (Int × K) → ScoringShared K → Prop) : Prop where
  teams : ∀ s, C.Meets (Proc.perform .teams) s
    fun (r : Nat × List (Int × String)) t => began r.1 r.2 t
  attackByTeam : ∀ n teams s, began n teams s → C.Meets (Proc.perform .attackByTeam) s
    fun (r : List (Int × K)) t => attack n r t
  defenseByTeam : ∀ n teams s, began n teams s → C.Meets (Proc.perform .defenseByTeam) s
    fun (r : List (Int × K)) t => defense n r t
  previousRanks : C.Keeps .previousRanks
  slaByTeam : ∀ slaFactor, C.Keeps (.slaByTeam slaFactor)
  attackByTeamService : C.Keeps .attackByTeamService
  slaByTeamService : ∀ slaFactor, C.Keeps (.slaByTeamService slaFactor)
  defenseByTeamService : C.Keeps .defenseByTeamService
  challenges : C.Keeps .challenges
  saveScoreboard : ∀ n rt (q : ScoreQueries K) s, began n q.teams s → attack n q.attackByTeam s →
    defense n q.defenseByTeam s → C.Fine (Proc.perform (.saveScoreboard n (q.entries rt))) s
  began_rely : ∀ {n teams s t}, C.rely s t → began n teams s → began n teams t
  attack_rely : ∀ {n r s t}, C.rely s t → attack n r s → attack n r t
  defense_rely : ∀ {n r s t}, C.rely s t → defense n r s → defense n r t

variable {began : Nat → List (Int × String) → ScoringShared K → Prop}
  {attack defense : Nat → List (Int × K) → ScoringShared K → Prop}

theorem RecomputeRules.fine (H : RecomputeRules C began attack defense) {rt : Go.Runtime}
    {s : ScoringShared K} : C.Fine (recomputeScoreboard M rt) s := by
  refine (H.teams s).bind fun ⟨n, teams⟩ s₁ _ _ hbegan => ?_
  refine Contract.Fine.bind (.perform H.previousRanks) fun previousRanks s₂ _ hr => ?_
  have hbegan := H.began_rely hr hbegan
  refine (H.attackByTeam n teams s₂ hbegan).bind fun attackByTeam s₃ _ hr hattack => ?_
  have hbegan := H.began_rely hr hbegan
  refine (H.defenseByTeam n teams s₃ hbegan).bind fun defenseByTeam s₄ _ hr hdefense => ?_
  have hbegan := H.began_rely hr hbegan
  have hattack := H.attack_rely hr hattack
  refine Contract.Fine.bind (.perform (H.slaByTeam _)) fun slaByTeam s₅ _ hr₅ => ?_
  refine Contract.Fine.bind (.perform H.attackByTeamService) fun attackByTeamService s₆ _ hr₆ => ?_
  refine Contract.Fine.bind (.perform (H.slaByTeamService _)) fun slaByTeamService s₇ _ hr₇ => ?_
  refine Contract.Fine.bind (.perform H.defenseByTeamService) fun defenseByTeamService
    s₈ _ hr₈ => ?_
  refine Contract.Fine.bind (.perform H.challenges) fun challenges s₉ _ hr₉ => ?_
  have hr := C.rely_trans hr₅ (C.rely_trans hr₆ (C.rely_trans hr₇ (C.rely_trans hr₈ hr₉)))
  exact H.saveScoreboard n rt _ s₉ (H.began_rely hr hbegan) (H.attack_rely hr hattack)
    (H.defense_rely hr hdefense)

end rules

end ADPlatform.GameCore
