import Mathlib.Order.MinMax

/-! # Token bucket

`congestion/token_bucket.rs`: a rate limiter that holds up to `capacity` tokens (bytes) and adds
`rate_bps` of them per second. Every operation first calls `refill`, which credits the whole
tokens earned since `last_refill`.

* `Instant` is a count of nanoseconds on a clock that never goes back, read by each call as its
  argument `now`; `as_secs_f64` and the product with the rate are exact, so the credit of a
  refill is `elapsed * rate_bps / 10 ^ 9`, rounded down as `as u64` rounds.
* `TokenBucket` carries `tokens ≤ capacity`, which every constructor and every call keeps.

`refill` moves `last_refill` to `now` whenever it credits anything, and drops the fraction of a
token earned since: a bucket polled every `d` nanoseconds gains `d * rate_bps / 10 ^ 9` tokens a
poll, rounded down (`tokens_polls`), so polling every millisecond at 1999 bytes per second
credits 1000 bytes a second. When it credits nothing it keeps the old `last_refill`, so
`set_rate`, which refills at the old rate first, leaves the time since then to be credited at
the new rate (`lastRefill_setRate`).
-/

namespace Hdds.Congestion
set_option autoImplicit false

/-- `TokenBucket`, with the clock in nanoseconds. -/
structure TokenBucket where
  tokens : ℕ
  capacity : ℕ
  rateBps : ℕ
  lastRefill : ℕ
  tokens_le : tokens ≤ capacity

namespace TokenBucket

/-- `TokenBucket::new`: starts full. -/
def new (rateBps capacity now : ℕ) : TokenBucket :=
  ⟨capacity, capacity, rateBps, now, le_rfl⟩

/-- `TokenBucket::new_empty`. -/
def newEmpty (rateBps capacity now : ℕ) : TokenBucket :=
  ⟨0, capacity, rateBps, now, Nat.zero_le _⟩

/-- `TokenBucket::with_initial`. -/
def withInitial (rateBps capacity initial now : ℕ) : TokenBucket :=
  ⟨min initial capacity, capacity, rateBps, now, min_le_right _ _⟩

/-- `TokenBucket::refill`: credit the whole tokens earned since `last_refill`, and move
`last_refill` to `now` only if there are any. -/
def refill (b : TokenBucket) (now : ℕ) : TokenBucket :=
  let elapsed := now - b.lastRefill
  if elapsed = 0 then b
  else
    let add := elapsed * b.rateBps / 1000000000
    if 0 < add then
      { b with tokens := min (b.tokens + add) b.capacity, lastRefill := now,
               tokens_le := min_le_right _ _ }
    else b

/-- `self.tokens -= n` for `n` at most the tokens held. -/
def take (b : TokenBucket) (n : ℕ) : TokenBucket :=
  { b with tokens := b.tokens - n, tokens_le := (Nat.sub_le _ _).trans b.tokens_le }

/-- `TokenBucket::try_consume`. -/
def tryConsume (b : TokenBucket) (now bytes : ℕ) : Bool × TokenBucket :=
  let b := b.refill now
  if bytes ≤ b.tokens then (true, b.take bytes) else (false, b)

/-- `TokenBucket::consume_available`. -/
def consumeAvailable (b : TokenBucket) (now bytes : ℕ) : ℕ × TokenBucket :=
  let b := b.refill now
  let consumed := min b.tokens bytes
  (consumed, b.take consumed)

/-- `TokenBucket::force_consume`: `saturating_sub`. -/
def forceConsume (b : TokenBucket) (now bytes : ℕ) : TokenBucket :=
  (b.refill now).take bytes

/-- `TokenBucket::has_tokens`. -/
def hasTokens (b : TokenBucket) (now bytes : ℕ) : Bool × TokenBucket :=
  let b := b.refill now
  (decide (bytes ≤ b.tokens), b)

/-- `TokenBucket::tokens`. -/
def tokensNow (b : TokenBucket) (now : ℕ) : ℕ × TokenBucket :=
  let b := b.refill now
  (b.tokens, b)

/-- `TokenBucket::set_rate`: refill at the old rate, then change it. -/
def setRate (b : TokenBucket) (now rateBps : ℕ) : TokenBucket :=
  { b.refill now with rateBps := rateBps }

/-- `TokenBucket::set_capacity`. -/
def setCapacity (b : TokenBucket) (capacity : ℕ) : TokenBucket :=
  { b with capacity := capacity, tokens := min b.tokens capacity, tokens_le := min_le_right _ _ }

/-- `TokenBucket::reset`. -/
def reset (b : TokenBucket) (now : ℕ) : TokenBucket :=
  { b with tokens := b.capacity, lastRefill := now, tokens_le := le_rfl }

/-! ## Refill -/

section Refill

variable (b : TokenBucket) (now : ℕ)

@[simp] theorem capacity_refill : (b.refill now).capacity = b.capacity := by
  unfold refill
  dsimp only
  split_ifs <;> rfl

@[simp] theorem rateBps_refill : (b.refill now).rateBps = b.rateBps := by
  unfold refill
  dsimp only
  split_ifs <;> rfl

/-- A refill that earns at least one token credits them all, up to the capacity, and moves
`last_refill` to `now`. -/
theorem refill_of_pos (h : 0 < (now - b.lastRefill) * b.rateBps / 1000000000) :
    (b.refill now).tokens = min (b.tokens + (now - b.lastRefill) * b.rateBps / 1000000000)
        b.capacity ∧
      (b.refill now).lastRefill = now := by
  have helapsed : now - b.lastRefill ≠ 0 := by
    intro h0
    rw [h0, Nat.zero_mul, Nat.zero_div] at h
    exact Nat.lt_irrefl 0 h
  unfold refill
  dsimp only
  rw [if_neg helapsed, if_pos h]
  exact ⟨rfl, rfl⟩

/-- A refill that earns less than one token changes nothing, `last_refill` included. -/
theorem refill_of_lt (h : (now - b.lastRefill) * b.rateBps < 1000000000) : b.refill now = b := by
  have hzero : (now - b.lastRefill) * b.rateBps / 1000000000 = 0 := Nat.div_eq_of_lt h
  unfold refill
  dsimp only
  split_ifs with h₁ h₂
  · rfl
  · omega
  · rfl

end Refill

/-! ## Polling at a fixed period -/

/-- `tokens()` called `n` times, every `d` nanoseconds after `last_refill`. -/
def polls (b : TokenBucket) (d : ℕ) : ℕ → TokenBucket
  | 0 => b
  | n + 1 =>
    let b' := polls b d n
    (b'.tokensNow (b'.lastRefill + d)).2

/-- Polled every `d` nanoseconds, the bucket gains `d * rate_bps / 10 ^ 9` tokens a poll, the
fraction of a token earned in each period being dropped, as long as it stays below capacity and
each period earns a whole token. -/
theorem tokens_polls (b : TokenBucket) (d : ℕ) (hpos : 0 < d * b.rateBps / 1000000000) (n : ℕ)
    (hcap : b.tokens + n * (d * b.rateBps / 1000000000) ≤ b.capacity) :
    (polls b d n).tokens = b.tokens + n * (d * b.rateBps / 1000000000) ∧
      (polls b d n).lastRefill = b.lastRefill + n * d ∧
      (polls b d n).capacity = b.capacity ∧ (polls b d n).rateBps = b.rateBps := by
  induction n with
  | zero => simp [polls]
  | succ n ih =>
    obtain ⟨htokens, hlast, hcapacity, hrate⟩ :=
      ih (le_trans (by rw [Nat.succ_mul]; omega) hcap)
    have helapsed : (polls b d n).lastRefill + d - (polls b d n).lastRefill = d := by omega
    -- each poll comes a whole period after the last refill, which it moves forward again
    obtain ⟨htokens', hlast'⟩ := refill_of_pos (polls b d n) ((polls b d n).lastRefill + d)
      (by rw [helapsed, hrate]; exact hpos)
    simp only [polls, tokensNow]
    rw [htokens', hlast', helapsed, htokens, hrate, hcapacity, capacity_refill, rateBps_refill,
      hcapacity, hrate, Nat.min_eq_left (by rw [Nat.succ_mul] at hcap; omega), hlast]
    refine ⟨?_, ?_, rfl, rfl⟩ <;> rw [Nat.succ_mul] <;> omega

/-- One millisecond at 1999 bytes per second earns one whole byte. -/
example : ((newEmpty 1999 1000000 0).tokensNow 1000000).1 = 1 := by decide

/-! ## Changing the rate -/

/-- `set_rate` at a time that earns no token at the old rate keeps the old `last_refill`: the
next refill credits the whole time since then at the new rate. -/
theorem lastRefill_setRate (b : TokenBucket) (now rateBps : ℕ)
    (h : (now - b.lastRefill) * b.rateBps < 1000000000) :
    b.setRate now rateBps = { b with rateBps := rateBps } := by
  rw [setRate, refill_of_lt b now h]

/-- The credit of a refill after `set_rate`: the time since the `last_refill` before it, at the
new rate. -/
theorem refill_setRate (b : TokenBucket) (now₁ now₂ rateBps : ℕ)
    (h : (now₁ - b.lastRefill) * b.rateBps < 1000000000)
    (hpos : 0 < (now₂ - b.lastRefill) * rateBps / 1000000000) :
    ((b.setRate now₁ rateBps).refill now₂).tokens =
      min (b.tokens + (now₂ - b.lastRefill) * rateBps / 1000000000) b.capacity := by
  rw [lastRefill_setRate b now₁ rateBps h]
  exact (refill_of_pos { b with rateBps := rateBps } now₂ hpos).1

/-- The credit of the bucket is not its rate. Polled every `d` nanoseconds it gains
`d * rate_bps / 10 ^ 9` tokens a poll, rounded down, whatever fraction of a token each period
earns beyond that. After `set_rate` at a time that earns no token at the old rate, it credits
the time before the change at the new rate. -/
theorem token_bucket_credit_diverges_from_rate (b : TokenBucket) :
    (∀ d n, 0 < d * b.rateBps / 1000000000 →
      b.tokens + n * (d * b.rateBps / 1000000000) ≤ b.capacity →
      (polls b d n).tokens = b.tokens + n * (d * b.rateBps / 1000000000)) ∧
    (∀ now₁ now₂ rateBps, (now₁ - b.lastRefill) * b.rateBps < 1000000000 →
      0 < (now₂ - b.lastRefill) * rateBps / 1000000000 →
      ((b.setRate now₁ rateBps).refill now₂).tokens =
        min (b.tokens + (now₂ - b.lastRefill) * rateBps / 1000000000) b.capacity) :=
  ⟨fun d n hpos hcap => (tokens_polls b d hpos n hcap).1,
    fun now₁ now₂ rateBps h hpos => refill_setRate b now₁ now₂ rateBps h hpos⟩

/-- At 1999 bytes per second, a thousand polls a millisecond apart credit 1000 bytes in a
second; and a rate raised from 1 to 10⁶ bytes per second at 0.9 s credits 901000 bytes by
0.901 s, where the rates give 1000.9. -/
theorem token_bucket_credit_at_one_millisecond_polls :
    (polls (newEmpty 1999 1000000 0) 1000000 1000).tokens = 1000 ∧
      (((newEmpty 1 1000000 0).setRate 900000000 1000000).refill 901000000).tokens = 901000 := by
  obtain ⟨hpolls, -⟩ := token_bucket_credit_diverges_from_rate (newEmpty 1999 1000000 0)
  obtain ⟨-, hrate'⟩ := token_bucket_credit_diverges_from_rate (newEmpty 1 1000000 0)
  refine ⟨(hpolls 1000000 1000 (by decide) (by decide)).trans (by decide),
    (hrate' 900000000 901000000 1000000 (by decide) (by decide)).trans (by decide)⟩

end TokenBucket

end Hdds.Congestion
