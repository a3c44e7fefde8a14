import Chronicle.Json.Record
import Chronicle.Time.Span

/-!
# Retry policies

A policy decides after a failed attempt whether there is another one, and after which delay.
The delay grows geometrically up to a maximum and may be spread around that value.
-/

namespace Chronicle

structure RetryPolicy where
  initialInterval : Span
  coefficient : Binary64
  maximumInterval : Span
  /-- Zero for no limit. -/
  maximumAttempts : Nat
  permanentCodes : List String
  jitter : Binary64
  deriving DecidableEq, Repr

inductive RetryDecision where
  | retry (delay : Span)
  | giveUp (exhausted : Bool)
  deriving DecidableEq, Repr

namespace RetryDecision

def willRetry : RetryDecision → Bool
  | .retry _ => true
  | .giveUp _ => false

end RetryDecision

namespace RetryPolicy

def exponential : RetryPolicy :=
  ⟨.ofSeconds 1, .ofNat 2, .ofSeconds 100, 5, [], .ofNat 0⟩

def never : RetryPolicy := ⟨.zero, .ofNat 1, .zero, 1, [], .ofNat 0⟩

def fixed (interval : Span) (maximumAttempts : Nat) : RetryPolicy :=
  ⟨interval, .ofNat 1, interval, maximumAttempts, [], .ofNat 0⟩

instance : Inhabited RetryPolicy := ⟨exponential⟩

def withJitter (policy : RetryPolicy) (jitter : Binary64) : RetryPolicy :=
  { policy with jitter := jitter.clamp (.ofNat 0) (.ofNat 1) }

def withPermanentCode (policy : RetryPolicy) (code : String) : RetryPolicy :=
  { policy with permanentCodes := policy.permanentCodes ++ [code] }

/-- Seconds before the next attempt, without jitter. -/
def backoffSeconds (policy : RetryPolicy) (failedAttempt : Nat) : Binary64 :=
  let exponent := min (failedAttempt - 1) (Nat.pow 2 31 - 1)
  let base := policy.initialInterval.toBinary64.mul (policy.coefficient.pow exponent)
  base.min policy.maximumInterval.toBinary64

/-- A delay below zero counts as zero, one that is no span as the maximum. -/
def delayOfSeconds (policy : RetryPolicy) (seconds : Binary64) : Span :=
  if seconds.isNan then policy.maximumInterval
  else (Span.ofBinary64? (seconds.max (.ofNat 0))).getD policy.maximumInterval

/-- Delay before the next attempt, in the middle of the range that jitter spreads it over. -/
def backoff (policy : RetryPolicy) (failedAttempt : Nat) : Span :=
  policy.delayOfSeconds (policy.backoffSeconds failedAttempt)

/-- Half the width of the range of delays, in seconds. -/
def spread (policy : RetryPolicy) (failedAttempt : Nat) : Binary64 :=
  let share := if policy.jitter.isFinite then policy.jitter.clamp (.ofNat 0) (.ofNat 1) else .ofNat 0
  (policy.backoffSeconds failedAttempt).mul share

/-- Shortest and longest delay that jitter allows. -/
def backoffRange (policy : RetryPolicy) (failedAttempt : Nat) : Span × Span :=
  let middle := policy.backoffSeconds failedAttempt
  let spread := policy.spread failedAttempt
  if Binary64.lt (.ofNat 0) spread then
    (policy.delayOfSeconds (middle.sub spread), policy.delayOfSeconds (middle.add spread))
  else (policy.delayOfSeconds middle, policy.delayOfSeconds middle)

def allowsCode (policy : RetryPolicy) : Option String → Bool
  | some code => !policy.permanentCodes.contains code
  | none => true

def hasAttemptsLeft (policy : RetryPolicy) (attempt : Nat) : Bool :=
  policy.maximumAttempts = 0 || attempt < policy.maximumAttempts

def decide (policy : RetryPolicy) (attempt : Nat) (retryable : Bool) (code : Option String) :
    RetryDecision :=
  if !retryable || !policy.allowsCode code then .giveUp false
  else if !policy.hasAttemptsLeft attempt then .giveUp true
  else .retry (policy.backoff attempt)

def toJson (policy : RetryPolicy) : Json :=
  .record [("initial_interval", policy.initialInterval.toJson),
    ("backoff_coefficient", .ofFloat policy.coefficient),
    ("maximum_interval", policy.maximumInterval.toJson),
    ("maximum_attempts", .ofNat policy.maximumAttempts),
    ("non_retryable_error_codes", .texts policy.permanentCodes),
    ("jitter", .ofFloat policy.jitter)]

def ofJson? (value : Json) : Option RetryPolicy := do
  let initialInterval ← value.required "initial_interval" Span.ofJson?
  let coefficient ← value.required "backoff_coefficient" Json.number?
  let maximumInterval ← value.required "maximum_interval" Span.ofJson?
  let maximumAttempts ← value.required "maximum_attempts" (Json.word? 32)
  let permanentCodes ← value.defaulted "non_retryable_error_codes" [] (Json.listOf? Json.text?)
  let jitter ← value.defaulted "jitter" (.ofNat 0) Json.number?
  some ⟨initialInterval, coefficient, maximumInterval, maximumAttempts, permanentCodes, jitter⟩

end RetryPolicy

end Chronicle
