import Mathlib.Algebra.Order.Floor.Ring
import Mathlib.Data.Rat.Floor
import Mathlib.Tactic.Linarith
import Mathlib.Tactic.Positivity
import Mathlib.Tactic.Ring
import Mathlib.Tactic.FieldSimp
import Mathlib.Tactic.NormNum

/-! # The token bucket

One key of the store that limits the rate of an agent: the script that Redis runs,
whose key expires once it has long been full again, and its in-process equivalent.
Every call brings the time of the gateway that makes it, and the bucket is refilled
from the time the last call left. A gateway whose clock lags leaves an earlier time,
and the next one is given its refill again.

Numbers are those of any ordered field with whole parts; times are milliseconds. -/

namespace Commerce.RateLimit

variable {K : Type} [Field K] [LinearOrder K] [IsStrictOrderedRing K] [FloorRing K]

/-- A capacity and a refill in tokens a second, as the configuration admits them. -/
structure Limits (K : Type) [Field K] [LinearOrder K] where
  capacity : K
  refillPerSecond : K
  capacity_nonneg : 0 ≤ capacity
  refill_pos : 0 < refillPerSecond

structure RateLimitDecision where
  allowed : Bool
  remaining : ℤ
  retryAfterMs : ℤ
  deriving DecidableEq

/-- A call by a gateway replica, with the time of its clock and the time at which Redis
    runs it. -/
structure Call where
  replica : ℕ
  now : ℤ
  server : ℤ

/-- A bucket as Redis keeps it, until it expires. -/
structure Stored (K : Type) where
  tokens : K
  ts : ℤ
  expires : ℤ

structure MemoryBucket (K : Type) where
  tokens : K
  ts : ℤ

variable (p : Limits K)

/-- What is left of `tokens` and decided when a token is asked for. -/
def consume (tokens : K) : RateLimitDecision × K :=
  if 1 ≤ tokens then (⟨true, ⌊tokens - 1⌋, 0⟩, tokens - 1)
  else (⟨false, ⌊tokens⌋, ⌈(1 - tokens) / p.refillPerSecond * 1000⌉⟩, tokens)

/-- The tokens at `now`, of those left at `ts`. -/
def refilled (tokens : K) (ts now : ℤ) : K :=
  min p.capacity (tokens + ((max 0 (now - ts) : ℤ) : K) / 1000 * p.refillPerSecond)

/-- After how many milliseconds a key expires. -/
def ttl : ℤ := ⌈p.capacity / p.refillPerSecond * 1000⌉ + 1000

/-- The key as the script finds it. -/
def live (state : Option (Stored K)) (server : ℤ) : Option (Stored K) :=
  state.filter fun b => server ≤ b.expires

/-- `TOKEN_BUCKET_SCRIPT`. -/
def script (c : Call) (state : Option (Stored K)) : RateLimitDecision × Stored K :=
  let found := live state c.server
  let tokens := (found.map (·.tokens)).getD p.capacity
  let ts := (found.map (·.ts)).getD c.now
  let consumed := consume p (refilled p tokens ts c.now)
  (consumed.1, ⟨consumed.2, c.now, c.server + ttl p⟩)

/-- `InMemoryStore.consumeToken`. -/
def consumeToken (now : ℤ) (bucket : Option (MemoryBucket K)) : RateLimitDecision × MemoryBucket K :=
  let bucket := bucket.getD ⟨p.capacity, now⟩
  let consumed := consume p (refilled p bucket.tokens bucket.ts now)
  (consumed.1, ⟨consumed.2, now⟩)

/-- The decisions of Redis on calls one after another. -/
def redisRun : Option (Stored K) → List Call → List (Call × RateLimitDecision)
  | _, [] => []
  | state, c :: calls => (c, (script p c state).1) :: redisRun (some (script p c state).2) calls

/-- The decisions of the in-process store. -/
def memoryRun : Option (MemoryBucket K) → List Call → List (Call × RateLimitDecision)
  | _, [] => []
  | bucket, c :: calls =>
    (c, (consumeToken p c.now bucket).1) :: memoryRun (some (consumeToken p c.now bucket).2) calls

/-- How many calls with times from `t₁` to `t₂` were allowed. -/
def allowedBetween (t₁ t₂ : ℤ) (run : List (Call × RateLimitDecision)) : ℕ :=
  run.countP fun r => r.2.allowed ∧ t₁ ≤ r.1.now ∧ r.1.now ≤ t₂

/-! ## Calls in order -/

/-- The call is no earlier than the bucket it finds, and one that finds it expired comes
    after the time a full refill takes. -/
structure InTime (c : Call) (b : Stored K) : Prop where
  later : b.ts ≤ c.now
  idle : b.expires < c.server → p.capacity ≤ ((c.now - b.ts : ℤ) : K) / 1000 * p.refillPerSecond

/-- Every call of a run is in time. -/
def InOrder : Option (Stored K) → List Call → Prop
  | _, [] => True
  | state, c :: calls => (∀ b ∈ state, InTime p c b) ∧ InOrder (some (script p c state).2) calls

/-- The clock of every replica, and that of the server, moves forward. -/
structure Forward (calls : List Call) : Prop where
  replicas : calls.Pairwise fun c d => c.replica = d.replica → c.now ≤ d.now
  server : calls.Pairwise fun c d => c.server ≤ d.server

/-- Replicas and server agree on the time. -/
def Agreed (calls : List Call) : Prop := ∀ c ∈ calls, c.now = c.server

/-! ## What a call takes -/

variable {tokens : K}

theorem consume_nonneg (h : 0 ≤ tokens) : 0 ≤ (consume p tokens).2 := by
  unfold consume
  split
  · rename_i h1
    exact sub_nonneg.mpr h1
  · exact h

omit [IsStrictOrderedRing K] in
/-- A call takes a token if it is allowed. -/
theorem consume_takes (tokens : K) :
    (consume p tokens).2 = tokens - if (consume p tokens).1.allowed then 1 else 0 := by
  unfold consume
  split
  · simp
  · simp

theorem refilled_nonneg (h : 0 ≤ tokens) (ts now : ℤ) : 0 ≤ refilled p tokens ts now := by
  have hmax : (0 : K) ≤ ((max 0 (now - ts) : ℤ) : K) := by exact_mod_cast le_max_left _ _
  have hr := p.refill_pos
  exact le_min p.capacity_nonneg (by positivity)

/-- The tokens that a call finds. -/
def found (c : Call) (state : Option (Stored K)) : K :=
  refilled p (((live state c.server).map (·.tokens)).getD p.capacity) (((live state c.server).map (·.ts)).getD c.now)
    c.now

omit [IsStrictOrderedRing K] in
theorem script_takes (c : Call) (state : Option (Stored K)) :
    (script p c state).2.tokens = found p c state - if (script p c state).1.allowed then 1 else 0 :=
  consume_takes p (found p c state)

omit [IsStrictOrderedRing K] [FloorRing K] in
theorem found_le_capacity (c : Call) (state : Option (Stored K)) : found p c state ≤ p.capacity := min_le_left _ _

variable {c : Call}

variable {b : Stored K}

/-- What a call in time finds, expired or not, is what is left and a refill. -/
theorem found_le (h : InTime p c b) (hb : 0 ≤ b.tokens) :
    found p c (some b) ≤ b.tokens + ((c.now - b.ts : ℤ) : K) / 1000 * p.refillPerSecond := by
  have hlater := h.later
  by_cases hlive : c.server ≤ b.expires
  · have hfound : live (some b) c.server = some b := by simp [live, hlive]
    have hmax : max 0 (c.now - b.ts) = c.now - b.ts := max_eq_right (by omega)
    rw [found, hfound]
    show refilled p b.tokens b.ts c.now ≤ _
    rw [refilled, hmax]
    exact min_le_right _ _
  · have hidle := h.idle (not_le.mp hlive)
    have hcapacity := found_le_capacity p c (some b)
    linarith

/-- A bucket with no less than nothing in it. -/
def Filled (state : Option (Stored K)) : Prop := ∀ b ∈ state, 0 ≤ b.tokens

variable {state : Option (Stored K)}

theorem script_filled (c : Call) (h : Filled state) : 0 ≤ (script p c state).2.tokens := by
  apply consume_nonneg
  apply refilled_nonneg
  cases hfound : live state c.server with
  | none => exact p.capacity_nonneg
  | some b => exact h b (Option.mem_filter_iff.mp hfound).1

/-! ## The rate -/

variable {p}

/-- A call adds one at most, if it is allowed. -/
theorem countP_call_le (c : Call) (state : Option (Stored K)) (calls : List Call) (t₁ t₂ : ℤ) :
    (allowedBetween t₁ t₂ (redisRun p state (c :: calls)) : K) ≤
      allowedBetween t₁ t₂ (redisRun p (some (script p c state).2) calls) +
        if (script p c state).1.allowed then 1 else 0 := by
  have hone : allowedBetween t₁ t₂ (redisRun p state (c :: calls)) ≤
      allowedBetween t₁ t₂ (redisRun p (some (script p c state).2) calls) +
        if (script p c state).1.allowed then 1 else 0 := by
    rw [redisRun, allowedBetween, List.countP_cons, allowedBetween]
    gcongr
    split_ifs <;> simp_all
  exact_mod_cast hone

variable {t₂ t₁ : ℤ}

omit [IsStrictOrderedRing K] in
/-- A call before the span adds nothing. -/
theorem allowedBetween_early (calls : List Call) (state : Option (Stored K)) (h : c.now < t₁) :
    allowedBetween t₁ t₂ (redisRun p state (c :: calls)) =
      allowedBetween t₁ t₂ (redisRun p (some (script p c state).2) calls) := by
  rw [redisRun, allowedBetween, List.countP_cons, if_neg (by simp; omega)]
  rfl

variable {calls : List Call}

omit [IsStrictOrderedRing K] in
/-- Nothing is allowed in a span from a call after it on. -/
theorem allowedBetween_late (h : InOrder p state (c :: calls)) (hc : t₂ < c.now) :
    allowedBetween t₁ t₂ (redisRun p state (c :: calls)) = 0 := by
  induction calls generalizing state c with
  | nil =>
    rw [redisRun, allowedBetween, List.countP_cons, if_neg (by simp; omega)]
    rfl
  | cons d calls ih =>
    have hlater : c.now ≤ d.now := (h.2.1 _ rfl).later
    have hrest := ih h.2 (show t₂ < d.now by omega)
    rw [allowedBetween] at hrest
    rw [redisRun, allowedBetween, List.countP_cons, hrest, if_neg (by simp; omega)]

/-- From a bucket on, calls in order are allowed as often as it holds tokens and is
    refilled until `t₂`. -/
theorem allowed_le (hb : 0 ≤ b.tokens) (h : InOrder p (some b) calls) (t₁ : ℤ) (ht : b.ts ≤ t₂) :
    (allowedBetween t₁ t₂ (redisRun p (some b) calls) : K) ≤
      b.tokens + ((t₂ - b.ts : ℤ) : K) / 1000 * p.refillPerSecond := by
  have hr := p.refill_pos
  induction calls generalizing b with
  | nil =>
    have htime : (0 : K) ≤ ((t₂ - b.ts : ℤ) : K) := by exact_mod_cast sub_nonneg.mpr ht
    have : allowedBetween t₁ t₂ (redisRun p (some b) []) = 0 := rfl
    rw [this, Nat.cast_zero]
    exact add_nonneg hb (mul_nonneg (div_nonneg htime (by norm_num)) hr.le)
  | cons c calls ih =>
    have hintime := h.1 b rfl
    have hfound := found_le p hintime hb
    have htakes := script_takes p c (some b)
    by_cases hc : c.now ≤ t₂
    · have hrest := ih (script_filled p c fun x hx => by cases hx; exact hb) h.2 hc
      have hone := countP_call_le (p := p) c (some b) calls t₁ t₂
      have hts : (script p c (some b)).2.ts = c.now := rfl
      rw [hts] at hrest
      push_cast at hrest hfound ⊢
      linarith
    · rw [allowedBetween_late h (not_le.mp hc), Nat.cast_zero]
      have htime : (0 : K) ≤ ((t₂ - b.ts : ℤ) : K) := by exact_mod_cast sub_nonneg.mpr ht
      exact add_nonneg hb (mul_nonneg (div_nonneg htime (by norm_num)) hr.le)

/-- **The rate is enforced** on calls in order, from any store. -/
theorem rate_enforced (hs : Filled state) (h : InOrder p state calls) (ht : t₁ ≤ t₂) :
    (allowedBetween t₁ t₂ (redisRun p state calls) : K) ≤
      p.capacity + ((t₂ - t₁ : ℤ) : K) / 1000 * p.refillPerSecond := by
  have hr := p.refill_pos
  have hcapacity := p.capacity_nonneg
  have hbound : 0 ≤ p.capacity + ((t₂ - t₁ : ℤ) : K) / 1000 * p.refillPerSecond := by
    have htime : (0 : K) ≤ ((t₂ - t₁ : ℤ) : K) := by exact_mod_cast sub_nonneg.mpr ht
    exact add_nonneg hcapacity (mul_nonneg (div_nonneg htime (by norm_num)) hr.le)
  induction calls generalizing state with
  | nil =>
    have hnone : allowedBetween t₁ t₂ (redisRun p state []) = 0 := by cases state <;> rfl
    rw [hnone, Nat.cast_zero]
    exact hbound
  | cons c calls ih =>
    have hfilled : Filled (some (script p c state).2) := fun x hx => by
      cases hx
      exact script_filled p c hs
    by_cases hbefore : c.now < t₁
    · -- the call comes before the span
      rw [allowedBetween_early calls state hbefore]
      exact ih hfilled h.2
    · by_cases hafter : c.now ≤ t₂
      · -- the first call of the span finds a capacity at most
        have hone := countP_call_le (p := p) c state calls t₁ t₂
        have hrest := allowed_le (script_filled p c hs) h.2 t₁ (show (script p c state).2.ts ≤ t₂ from hafter)
        have htakes := script_takes p c state
        have hfound := found_le_capacity p c state
        have hts : (script p c state).2.ts = c.now := rfl
        have htime : ((t₂ - c.now : ℤ) : K) / 1000 * p.refillPerSecond ≤
            ((t₂ - t₁ : ℤ) : K) / 1000 * p.refillPerSecond := by
          gcongr
          omega
        rw [hts] at hrest
        linarith
      · rw [allowedBetween_late h (not_le.mp hafter), Nat.cast_zero]
        exact hbound

/-! ## Clocks that agree -/

/-- The bucket of the in-process store is the one Redis keeps. -/
structure Same (state : Option (Stored K)) (bucket : Option (MemoryBucket K)) : Prop where
  bucket : bucket = state.map fun b => ⟨b.tokens, b.ts⟩
  expires : ∀ b ∈ state, b.expires = b.ts + ttl p

/-- By the time a key has expired, the bucket is full. -/
theorem capacity_le_of_expired {elapsed : ℤ} (h : ttl p < elapsed) :
    p.capacity ≤ (elapsed : K) / 1000 * p.refillPerSecond := by
  have hr := p.refill_pos
  have hceil : p.capacity / p.refillPerSecond * 1000 ≤ elapsed := by
    apply Int.ceil_le.mp
    unfold ttl at h
    omega
  calc p.capacity = p.capacity / p.refillPerSecond * 1000 / 1000 * p.refillPerSecond := by field_simp
    _ ≤ (elapsed : K) / 1000 * p.refillPerSecond := by gcongr

variable {bucket : Option (MemoryBucket K)}

/-- Where the clocks agree, a call decides the same of both stores. -/
theorem script_same (hs : Filled state) (h : Same (p := p) state bucket) (hc : c.now = c.server)
    (hlater : ∀ b ∈ state, b.ts ≤ c.now) :
    consumeToken p c.now bucket = ((script p c state).1, ⟨(script p c state).2.tokens, c.now⟩) := by
  have hfound : found p c state = refilled p (bucket.getD ⟨p.capacity, c.now⟩).tokens
      (bucket.getD ⟨p.capacity, c.now⟩).ts c.now := by
    rw [h.bucket, found]
    cases state with
    | none => rfl
    | some b =>
      by_cases hlive : c.server ≤ b.expires
      · have hfound : live (some b) c.server = some b := by simp [live, hlive]
        rw [hfound]
        rfl
      · -- an expired key comes back full, and the other bucket is full by then
        have hgone : live (some b) c.server = none := by simp [live]; omega
        have helapsed : ttl p < c.now - b.ts := by
          have := h.expires b rfl
          omega
        have hfull := capacity_le_of_expired helapsed
        have hmax : max 0 (c.now - b.ts) = c.now - b.ts := max_eq_right (by have := hlater b rfl; omega)
        have htokens := hs b rfl
        rw [hgone]
        show refilled p p.capacity c.now c.now = refilled p b.tokens b.ts c.now
        rw [refilled, refilled, hmax, sub_self, max_self, min_eq_left (by simp), min_eq_left (by linarith)]
  show ((consume p _).1, MemoryBucket.mk (consume p _).2 c.now) = _
  rw [← hfound]
  rfl

/-- **Both stores decide the same** where the clocks agree, and every call is in time. -/
theorem decisions_same (hs : Filled state) (h : Same (p := p) state bucket) (hagreed : Agreed calls)
    (hforward : calls.Pairwise fun c d => c.server ≤ d.server) (hlater : ∀ b ∈ state, ∀ c ∈ calls, b.ts ≤ c.now) :
    redisRun p state calls = memoryRun p bucket calls ∧ InOrder p state calls := by
  induction calls generalizing state bucket with
  | nil => exact ⟨by cases state <;> cases bucket <;> rfl, by cases state <;> trivial⟩
  | cons c calls ih =>
    have hc := hagreed c List.mem_cons_self
    have hlaterc : ∀ b ∈ state, b.ts ≤ c.now := fun b hb => hlater b hb c List.mem_cons_self
    have hsame := script_same hs h hc hlaterc
    have hnext : Same (p := p) (some (script p c state).2) (some ⟨(script p c state).2.tokens, c.now⟩) := by
      refine ⟨rfl, fun b hb => ?_⟩
      cases hb
      show c.server + ttl p = c.now + ttl p
      rw [hc]
    obtain ⟨hdecisions, horder⟩ := ih (fun x hx => by cases hx; exact script_filled p c hs) hnext
      (fun d hd => hagreed d (List.mem_cons_of_mem _ hd)) (List.pairwise_cons.mp hforward).2
      fun b hb d hd => by
        cases hb
        have hserver := (List.pairwise_cons.mp hforward).1 d hd
        have hd' := hagreed d (List.mem_cons_of_mem _ hd)
        show c.now ≤ d.now
        omega
    refine ⟨?_, fun b hb => ⟨hlaterc b hb, fun hexpired => capacity_le_of_expired ?_⟩, horder⟩
    · rw [redisRun, memoryRun, hsame, hdecisions]
    · have := h.expires b hb
      omega

/-- **The token bucket**: calls in order, by any replicas, are allowed in a span at most
    as often as the capacity and the refill of the span, and where all clocks agree
    every call is in order and both stores decide the same. -/
theorem bucket_enforces (p : Limits K) (calls : List Call) :
    (InOrder p none calls → ∀ t₁ t₂ : ℤ, t₁ ≤ t₂ → (allowedBetween t₁ t₂ (redisRun p none calls) : K) ≤
      p.capacity + ((t₂ - t₁ : ℤ) : K) / 1000 * p.refillPerSecond) ∧
    (Forward calls → Agreed calls → redisRun p none calls = memoryRun p none calls ∧ InOrder p none calls) := by
  have hempty : Filled (none : Option (Stored K)) := fun b hb => by cases hb
  refine ⟨fun h t₁ t₂ ht => rate_enforced hempty h ht, fun hforward hagreed => ?_⟩
  exact decisions_same hempty ⟨rfl, fun b hb => by cases hb⟩ hagreed hforward.server fun b hb => by cases hb

/-! ## A lagging replica -/

/-- One token, and one more a second. -/
def single : Limits ℚ := ⟨1, 1, by norm_num, by norm_num⟩

/-- Half a second apart, one call of two is allowed. -/
theorem bucket_enforces_single :
    (allowedBetween 0 500 (redisRun single none [⟨0, 0, 0⟩, ⟨1, 500, 500⟩]) : ℚ) ≤ 1 + ((500 - 0 : ℤ) : ℚ) / 1000 * 1 :=
  (bucket_enforces single [⟨0, 0, 0⟩, ⟨1, 500, 500⟩]).1
    (((bucket_enforces single [⟨0, 0, 0⟩, ⟨1, 500, 500⟩]).2 ⟨by decide, by decide⟩ (by simp [Agreed])).2) 0 500 (by decide)

/-- A replica a second ahead, one that lags, and the first again. -/
def lagging : List Call := [⟨0, 1000, 0⟩, ⟨1, 0, 1⟩, ⟨0, 1001, 2⟩]

/-- With a lagging replica in between, two calls are allowed within a millisecond. -/
theorem lagging_exceeds : Forward lagging ∧ ¬ (allowedBetween 1000 1001 (redisRun single none lagging) : ℚ) ≤
    single.capacity + ((1001 - 1000 : ℤ) : ℚ) / 1000 * single.refillPerSecond := by
  refine ⟨⟨by decide, by decide⟩, ?_⟩
  have hcount : allowedBetween 1000 1001 (redisRun single none lagging) = 2 := by
    decide +kernel
  rw [hcount]
  norm_num [single]

end Commerce.RateLimit
