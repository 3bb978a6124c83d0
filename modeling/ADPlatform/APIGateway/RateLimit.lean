import ADPlatform.Lib.Runs
import ADPlatform.Lib.TokenBucket

/-! # Rate limits

`redisTokenBucketScript` keeps a token bucket under a key, and `Allow` sends it a policy and the
clock of the gateway that asks. Several gateways share a bucket. The numbers of the script are exact
rationals here, and a key does not expire between the requests of a run. -/

namespace ADPlatform.APIGateway

/-- A token bucket: how many requests at once, and how fast they come back. -/
structure RateLimitPolicy where
  capacity : Int
  refillPerSecond : ℚ
  failClosedOnError : Bool := false

/-- A decision; the wait is in milliseconds. -/
structure RateLimitDecision where
  allowed : Bool
  retryAfter : Int := 0
  deriving DecidableEq

/-! ## The script -/

/-- What is stored under a key. -/
structure BucketState where
  tokens : Option ℚ := none
  ts : Option ℚ := none
  ttlMs : ℚ := 0
  deriving DecidableEq

/-- The arguments that the script is called with. -/
structure ScriptArgs where
  capacity : ℚ
  refillPerMs : ℚ
  nowMs : ℚ
  requested : ℚ
  ttlMs : ℚ

/-- `redisTokenBucketScript`. -/
def redisTokenBucketScript (args : ScriptArgs) (state : BucketState) :
    BucketState × RateLimitDecision :=
  let tokens := state.tokens.getD args.capacity
  let ts := state.ts.getD args.nowMs
  let delta := args.nowMs - ts
  let delta := if delta < 0 then 0 else delta
  let tokens := min args.capacity (tokens + delta * args.refillPerMs)
  if tokens ≥ args.requested then
    ({ tokens := tokens - args.requested, ts := args.nowMs, ttlMs := args.ttlMs },
      { allowed := true })
  else
    let retryAfter :=
      if args.refillPerMs > 0 then ⌈(args.requested - tokens) / args.refillPerMs⌉ else 0
    ({ tokens, ts := args.nowMs, ttlMs := args.ttlMs }, { allowed := false, retryAfter })

/-! ## The requests -/

/-- The nearest integer; of two equally near, the even one. -/
def roundHalfEven (x : ℚ) : Int :=
  let n := ⌊x⌋
  if x - n < 1 / 2 ∨ (x - n = 1 / 2 ∧ n % 2 = 0) then n else n + 1

namespace RateLimitPolicy
variable (policy : RateLimitPolicy)

/-- The number that `strconv.FormatFloat` writes with six decimals. -/
def refillPerMs : ℚ := roundHalfEven (policy.refillPerSecond / 1000 * 1000000) / 1000000

/-- The milliseconds in which the bucket fills twice, at least five seconds. -/
def idleTTL : Int := max ⌈policy.capacity / policy.refillPerSecond * 2 * 1000⌉ 5000

/-- `redisRateLimiter.Allow`, at a reading of the gateway's clock. -/
def allow (nowMillis : Int) (state : BucketState) : BucketState × RateLimitDecision :=
  if policy.capacity ≤ 0 ∨ policy.refillPerSecond ≤ 0 then (state, { allowed := true })
  else redisTokenBucketScript
    { capacity := policy.capacity, refillPerMs := policy.refillPerMs, nowMs := nowMillis
      requested := 1, ttlMs := policy.idleTTL } state

/-- The decisions on requests, each with its stamp. -/
def decisions : BucketState → List Int → List (Int × RateLimitDecision)
  | _, [] => []
  | state, now :: stamps =>
    (now, (policy.allow now state).2) :: decisions (policy.allow now state).1 stamps

/-- The number of requests that are allowed among those stamped from `first` to `last`. -/
def allowedBetween (state : BucketState) (stamps : List Int) (first last : ℚ) : Nat :=
  (policy.decisions state stamps).countP fun (now, decision) =>
    decision.allowed && first ≤ now && now ≤ last

/-- The bucket keeps its promise: in any interval of `d` seconds it allows at most its capacity and
what flows in during `d`. -/
def KeepsRate (state : BucketState) (stamps : List Int) : Prop :=
  ∀ first d : ℚ, 0 ≤ d → (policy.allowedBetween state stamps first (first + 1000 * d) : ℚ) ≤
    policy.capacity + policy.refillPerSecond * d

/-- The request is not stamped before the one that the bucket saw last. -/
def notBefore (now : Int) (state : BucketState) : Prop := ∀ ts ∈ state.ts, ts ≤ now

/-! ## The bucket behind the script -/

/-- The policy as the script gets it. -/
def bucketPolicy : TokenBucket.Policy ℚ where
  capacity := policy.capacity
  rate := policy.refillPerMs
  cost := 1

end RateLimitPolicy

/-- The bucket that a request finds. -/
def BucketState.bucket (state : BucketState) (capacity now : ℚ) : TokenBucket.Bucket ℚ where
  tokens := state.tokens.getD capacity
  stamp := state.ts.getD now

namespace RateLimitPolicy
variable {policy : RateLimitPolicy} {state : BucketState} {now : Int} {stamps : List Int}
  {first last : ℚ}

/-- A request on the stored state is one on its bucket. -/
theorem allow_eq (hcapacity : 0 < policy.capacity) (hrefill : 0 < policy.refillPerSecond)
    (now : Int) (state : BucketState) :
    (policy.allow now state).2.allowed =
      policy.bucketPolicy.grants now (state.bucket policy.capacity now) ∧
    ∀ next : ℚ, (policy.allow now state).1.bucket policy.capacity next =
      policy.bucketPolicy.request now (state.bucket policy.capacity now) := by
  have hdelta : ∀ x : ℚ, (if x < 0 then 0 else x) = max 0 x := by
    intro x
    split
    · exact (max_eq_left (le_of_lt ‹_›)).symm
    · exact (max_eq_right (not_lt.mp ‹_›)).symm
  rw [allow, if_neg (by rintro (h | h) <;> exact absurd h (not_le.mpr ‹_›)), redisTokenBucketScript]
  simp only [hdelta]
  split
  · rename_i hgrants
    have hgrants' : policy.bucketPolicy.grants now (state.bucket policy.capacity now) = true :=
      decide_eq_true hgrants
    refine ⟨hgrants'.symm, fun next => ?_⟩
    rw [TokenBucket.Policy.request, hgrants']
    rfl
  · rename_i hgrants
    have hgrants' : policy.bucketPolicy.grants now (state.bucket policy.capacity now) = false :=
      decide_eq_false hgrants
    refine ⟨hgrants'.symm, fun next => ?_⟩
    rw [TokenBucket.Policy.request, hgrants']
    rfl

/-- The requests that are allowed are those that the bucket grants. -/
theorem allowedBetween_eq (hcapacity : 0 < policy.capacity) (hrefill : 0 < policy.refillPerSecond)
    {b : TokenBucket.Bucket ℚ} (hb : ∀ next ∈ stamps.head?, state.bucket policy.capacity next = b) :
    policy.allowedBetween state stamps first last =
      policy.bucketPolicy.granted first last b (stamps.map (↑)) := by
  induction stamps generalizing state b with
  | nil => rfl
  | cons now stamps ih =>
    obtain rfl := hb now rfl
    obtain ⟨hallowed, hnext⟩ := allow_eq hcapacity hrefill now state
    have hrest : policy.allowedBetween (policy.allow now state).1 stamps first last =
        policy.bucketPolicy.granted first last _ (stamps.map (↑)) := ih fun next _ => hnext next
    rw [allowedBetween] at hrest
    rw [List.map_cons, TokenBucket.Policy.granted, ← hrest, allowedBetween, decisions,
      List.countP_cons, Nat.add_comm]
    simp only [hallowed, Bool.and_eq_true, decide_eq_true_eq, and_assoc]

/-- Requests that come in order come in order to the bucket. -/
theorem inOrder_of_notBefore (hcapacity : 0 < policy.capacity)
    (hrefill : 0 < policy.refillPerSecond)
    (horder : Runs.EachCall (fun now state => (policy.allow now state).1) notBefore state stamps)
    {b : TokenBucket.Bucket ℚ} (hb : ∀ next ∈ stamps.head?, state.bucket policy.capacity next = b) :
    TokenBucket.Policy.InOrder b.stamp (stamps.map (↑)) := by
  induction stamps generalizing state b with
  | nil => trivial
  | cons now stamps ih =>
    obtain ⟨hnow, horder⟩ := Runs.eachCall_cons.mp horder
    obtain rfl := hb now rfl
    obtain ⟨-, hnext⟩ := allow_eq hcapacity hrefill now state
    refine ⟨?_, ih horder fun next _ => hnext next⟩
    cases hts : state.ts with
    | none => simp [BucketState.bucket, hts]
    | some ts => simpa [BucketState.bucket, hts] using hnow ts hts

end RateLimitPolicy

open RateLimitPolicy

/-- In every run whose requests come in the order of their stamps, a bucket whose rate is not
rounded up keeps its promise, whatever it held at first. -/
theorem keepsRate_of_inOrder (policy : RateLimitPolicy) (hcapacity : 0 < policy.capacity)
    (hrefill : 0 < policy.refillPerSecond) (state : BucketState) (stamps : List Int)
    (hrate : policy.refillPerMs * 1000 ≤ policy.refillPerSecond)
    (horder : Runs.EachCall (fun now state => (policy.allow now state).1) notBefore state stamps) :
    policy.KeepsRate state stamps := by
  intro first d hd
  have hb : ∀ next ∈ stamps.head?, state.bucket policy.capacity next =
      state.bucket policy.capacity ((stamps.head?.getD 0 : Int) : ℚ) := by
    intro next hnext
    rw [Option.mem_def.mp hnext]
    rfl
  have hpos : 0 ≤ policy.refillPerMs := by
    have hfloor : 0 ≤ ⌊policy.refillPerSecond / 1000 * 1000000⌋ :=
      Int.floor_nonneg.mpr (by positivity)
    have hround : 0 ≤ roundHalfEven (policy.refillPerSecond / 1000 * 1000000) := by
      unfold roundHalfEven
      dsimp only
      split <;> omega
    exact div_nonneg (Int.cast_nonneg hround) (by norm_num)
  have hcount := TokenBucket.Policy.granted_mul_cost_le (p := policy.bucketPolicy)
    (Int.cast_nonneg hcapacity.le) hpos zero_le_one
      (inOrder_of_notBefore hcapacity hrefill horder hb)
    (le_add_of_nonneg_right (mul_nonneg (by norm_num) hd) : first ≤ first + 1000 * d)
  rw [← allowedBetween_eq hcapacity hrefill hb] at hcount
  have hflow : 1000 * d * policy.refillPerMs ≤ policy.refillPerSecond * d := by
    calc 1000 * d * policy.refillPerMs = policy.refillPerMs * 1000 * d := by ring
      _ ≤ policy.refillPerSecond * d := mul_le_mul_of_nonneg_right hrate hd
  simp only [bucketPolicy, mul_one, add_sub_cancel_left] at hcount
  exact hcount.trans (by gcongr)

/-- `scoreboardRateLimitPolicy`. -/
def scoreboardRateLimitPolicy : RateLimitPolicy where
  capacity := 6
  refillPerSecond := 3

/-- `registrationEmailRateLimitPolicy`. -/
def registrationEmailRateLimitPolicy : RateLimitPolicy where
  capacity := 3
  refillPerSecond := 3 / 3600
  failClosedOnError := true

theorem keepsRate_of_inOrder_scoreboard :
    scoreboardRateLimitPolicy.KeepsRate { tokens := some 1, ts := some 0 } [0, 0, 500] := by
  refine keepsRate_of_inOrder scoreboardRateLimitPolicy (by decide) (by decide) _ _
    (by decide +kernel) ?_
  refine Runs.eachCall_cons.mpr ⟨?_, Runs.eachCall_cons.mpr ⟨?_, Runs.eachCall_cons.mpr
    ⟨?_, Runs.eachCall_nil⟩⟩⟩
  all_goals
    unfold notBefore
    decide +kernel

/-- The clock of one gateway is a second behind: the bucket gains the tokens of that second
twice. -/
theorem keepsRate_behind : ¬ ∀ (policy : RateLimitPolicy) (state : BucketState) (stamps : List Int),
    0 < policy.capacity → 0 < policy.refillPerSecond → policy.KeepsRate state stamps := by
  intro h
  have hlate :=
    h scoreboardRateLimitPolicy {} (List.replicate 6 1000 ++ [0] ++ List.replicate 3 1000)
    (by decide) (by decide) 1000 0 le_rfl
  revert hlate
  decide +kernel

/-- The rate of three requests an hour is sent as one for each thousand seconds. -/
example : ¬ registrationEmailRateLimitPolicy.KeepsRate {} [0, 0, 0, 1000000] := by
  intro h
  have hmore := h 0 1000 (by decide)
  revert hmore
  decide +kernel

end ADPlatform.APIGateway
