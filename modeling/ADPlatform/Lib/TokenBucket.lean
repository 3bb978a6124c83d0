import Mathlib

/-! # Token buckets

A bucket holds at most `capacity` tokens and gains `rate` tokens in a unit of time; a request takes
`cost` tokens if they are there. As long as no request is stamped before the last one, the requests
granted in an interval are paid for by a full bucket and by what flows in meanwhile
(`granted_mul_cost_le`). -/

namespace TokenBucket
variable {K : Type} [Field K] [LinearOrder K]

/-- A bucket, with the stamp of its last request. -/
structure Bucket (K : Type) where
  tokens : K
  stamp : K

/-- What a bucket is made of. -/
structure Policy (K : Type) where
  capacity : K
  rate : K
  cost : K

namespace Policy

/-- The tokens at a request; a clock that went back brings none. -/
def refilled (p : Policy K) (now : K) (b : Bucket K) : K :=
  min p.capacity (b.tokens + max 0 (now - b.stamp) * p.rate)

/-- The bucket has enough tokens at this time. -/
def grants (p : Policy K) (now : K) (b : Bucket K) : Bool := p.cost ≤ p.refilled now b

/-- The bucket behind a request, which leaves its stamp. -/
def request (p : Policy K) (now : K) (b : Bucket K) : Bucket K where
  tokens := if p.grants now b then p.refilled now b - p.cost else p.refilled now b
  stamp := now

/-- The number of requests with a stamp from `first` to `last` that are granted. -/
def granted (p : Policy K) (first last : K) : Bucket K → List K → Nat
  | _, [] => 0
  | b, now :: stamps =>
    (if p.grants now b ∧ first ≤ now ∧ now ≤ last then 1 else 0) +
      granted p first last (p.request now b) stamps

/-- No request is stamped before the one before it. -/
def InOrder : K → List K → Prop
  | _, [] => True
  | stamp, now :: stamps => stamp ≤ now ∧ InOrder now stamps

variable {p : Policy K} {b : Bucket K} {first last now stamp : K} {stamps : List K}

omit [Field K] in
theorem InOrder.le (h : InOrder stamp stamps) : ∀ now ∈ stamps, stamp ≤ now := by
  induction stamps generalizing stamp with
  | nil => exact nofun
  | cons next stamps ih =>
    intro now hnow
    rcases List.mem_cons.mp hnow with rfl | hnow
    · exact h.1
    · exact h.1.trans (ih h.2 now hnow)

/-- Requests behind the interval do not count. -/
theorem granted_eq_zero (h : ∀ now ∈ stamps, last < now) : p.granted first last b stamps = 0 := by
  induction stamps generalizing b with
  | nil => rfl
  | cons now stamps ih =>
    rw [granted, ih fun next hnext => h next (.tail _ hnext), if_neg]
    exact fun hin => absurd hin.2.2 (not_le.mpr (h now (.head _)))

variable [IsStrictOrderedRing K]

theorem refilled_le (h : b.stamp ≤ now) :
    p.refilled now b ≤ b.tokens + (now - b.stamp) * p.rate := by
  have hdelta : max 0 (now - b.stamp) = now - b.stamp := max_eq_right (sub_nonneg.mpr h)
  rw [refilled, hdelta]
  exact min_le_right _ _

/-- What a request leaves and takes is at most what was there. -/
theorem request_tokens_le : max (p.request now b).tokens 0 +
    (if p.grants now b then p.cost else 0) ≤ max (p.refilled now b) 0 := by
  rw [request]
  by_cases hgrants : p.grants now b
  · have hle : p.cost ≤ p.refilled now b := of_decide_eq_true hgrants
    simp only [hgrants, if_true]
    rw [max_eq_left (sub_nonneg.mpr hle), sub_add_cancel]
    exact le_max_left _ _
  · simp [hgrants]

/-- From inside the interval on, the tokens there and what flows in pay for the requests. -/
theorem granted_le_of_inside (hrate : 0 ≤ p.rate) (hcost : 0 ≤ p.cost)
    (horder : InOrder b.stamp stamps) (hlast : b.stamp ≤ last) :
    p.granted first last b stamps * p.cost ≤ max b.tokens 0 + (last - b.stamp) * p.rate := by
  induction stamps generalizing b with
  | nil =>
    have hflow := mul_nonneg (sub_nonneg.mpr hlast) hrate
    simpa [granted] using add_nonneg (le_max_right b.tokens 0) hflow
  | cons now stamps ih =>
    obtain ⟨hnow, horder⟩ := horder
    have hflow : 0 ≤ (now - b.stamp) * p.rate := mul_nonneg (sub_nonneg.mpr hnow) hrate
    by_cases hin : now ≤ last
    swap
    · -- this request and all that follow are behind the interval
      have hbehind : ∀ next ∈ now :: stamps, last < next := by
        intro next hnext
        rcases List.mem_cons.mp hnext with rfl | hnext
        · exact not_le.mp hin
        · exact (not_le.mp hin).trans_le (horder.le next hnext)
      rw [granted_eq_zero hbehind]
      simpa using add_nonneg (le_max_right b.tokens 0) (mul_nonneg (sub_nonneg.mpr hlast) hrate)
    have hrest : p.granted first last (p.request now b) stamps * p.cost ≤
        max (p.request now b).tokens 0 + (last - now) * p.rate := ih horder hin
    have htokens : max (p.request now b).tokens 0 + (if p.grants now b then p.cost else 0) ≤
        max (p.refilled now b) 0 := request_tokens_le
    have hrefilled : max (p.refilled now b) 0 ≤ max b.tokens 0 + (now - b.stamp) * p.rate :=
      max_le ((refilled_le hnow).trans (by gcongr; exact le_max_left _ _))
        (add_nonneg (le_max_right _ _) hflow)
    have hhead : ((if p.grants now b ∧ first ≤ now ∧ now ≤ last then 1 else 0 : Nat) : K) * p.cost ≤
        if p.grants now b then p.cost else 0 := by
      split
      · rename_i h
        simp [h.1]
      · split <;> simp [hcost]
    have hsum : (last - b.stamp) * p.rate =
        (now - b.stamp) * p.rate + (last - now) * p.rate := by ring
    rw [granted, Nat.cast_add, add_mul, hsum]
    linarith

/-- The requests granted in an interval cost at most a full bucket and what flows in meanwhile. -/
theorem granted_mul_cost_le (hcapacity : 0 ≤ p.capacity) (hrate : 0 ≤ p.rate) (hcost : 0 ≤ p.cost)
    (horder : InOrder b.stamp stamps) (hinterval : first ≤ last) :
    p.granted first last b stamps * p.cost ≤ p.capacity + (last - first) * p.rate := by
  have hbound : 0 ≤ p.capacity + (last - first) * p.rate :=
    add_nonneg hcapacity (mul_nonneg (sub_nonneg.mpr hinterval) hrate)
  induction stamps generalizing b with
  | nil => simpa [granted] using hbound
  | cons now stamps ih =>
    obtain ⟨-, horder⟩ := horder
    by_cases hfirst : first ≤ now
    swap
    · rw [granted, if_neg fun h => hfirst h.2.1, Nat.zero_add]
      exact ih horder
    by_cases hlast : now ≤ last
    swap
    · rw [granted, if_neg fun h => hlast h.2.2, granted_eq_zero fun next hnext =>
        (not_le.mp hlast).trans_le (horder.le next hnext)]
      simpa using hbound
    -- the first request in the interval finds no more than a full bucket
    have hrest : p.granted first last (p.request now b) stamps * p.cost ≤
        max (p.request now b).tokens 0 + (last - now) * p.rate :=
      granted_le_of_inside hrate hcost horder hlast
    have htokens : max (p.request now b).tokens 0 + (if p.grants now b then p.cost else 0) ≤
        max (p.refilled now b) 0 := request_tokens_le
    have hfull : max (p.refilled now b) 0 ≤ p.capacity := max_le (min_le_left _ _) hcapacity
    have hhead : ((if p.grants now b ∧ first ≤ now ∧ now ≤ last then 1 else 0 : Nat) : K) * p.cost =
        if p.grants now b then p.cost else 0 := by
      simp [hfirst, hlast]
    have hflow : (last - now) * p.rate ≤ (last - first) * p.rate := by gcongr
    rw [granted, Nat.cast_add, add_mul, hhead]
    linarith

end Policy

end TokenBucket
