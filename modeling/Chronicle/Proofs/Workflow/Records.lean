import Chronicle.Proofs.Json.Records
import Chronicle.Proofs.Text.Identifiers
import Chronicle.Proofs.Time.Timestamps
import Chronicle.Workflow.FanIn
import Chronicle.Workflow.Options
import Chronicle.Workflow.Failure
import Chronicle.Workflow.Event
import Chronicle.Workflow.RunRef

/-!
# Records of options, failures, references and signals

What of each type can be stored, and that it is read back.
-/

namespace Chronicle

open Json (RoundTrips)

/-! ## Spans, instants and identifiers -/

/-- Whole milliseconds of 64 bits. -/
def Span.IsStorable (span : Span) : Prop := ∃ millis < 2 ^ 64, span = .ofMillis millis

theorem Span.roundTrips : RoundTrips toJson ofJson? IsStorable where
  written := by
    rintro _ ⟨millis, hbound, rfl⟩
    have hword : millis * 1000000 / 1000000 % Nat.pow 2 64 = millis := by
      rw [Nat.mul_div_cancel _ (by decide)]
      exact Nat.mod_eq_of_lt hbound
    have hlimit : (millis : Int) < (2 ^ 64 : Nat) := Int.ofNat_lt.2 hbound
    rw [toJson, ofJson?, ofMillis, hword, if_pos (by simpa using hlimit), Int.toNat_natCast, ofMillis]
  accepted json span h := by
    cases json with
    | int written =>
        simp only [ofJson?, Option.ite_none_right_eq_some, Bool.and_eq_true, decide_eq_true_eq] at h
        obtain ⟨⟨hpositive, hbound⟩, hspan⟩ := h
        have hbound : written < ((2 ^ 64 : Nat) : Int) := hbound
        exact ⟨written.toNat, by omega, (Option.some.inj hspan).symm⟩
    | _ => cases h

theorem Instant.roundTrips : RoundTrips toJson ofJson? IsProper where
  written _ := ofJson?_toJson
  accepted _ _ := isProper_of_ofJson?

theorem Uuid.roundTrips : RoundTrips toJson ofJson? IsProper where
  written _ := ofJson?_toJson
  accepted _ _ := isProper_of_ofJson?

/-! ## Options -/

structure RetryPolicy.IsStorable (policy : RetryPolicy) : Prop where
  initialInterval : policy.initialInterval.IsStorable
  coefficient : policy.coefficient.isFinite = true
  maximumInterval : policy.maximumInterval.IsStorable
  maximumAttempts : policy.maximumAttempts < 2 ^ 32
  jitter : policy.jitter.isFinite = true

theorem RetryPolicy.roundTrips : RoundTrips toJson ofJson? IsStorable where
  written policy h := by
    simp [toJson, ofJson?, Span.roundTrips.written _ h.initialInterval,
      Json.number_roundTrips.written _ h.coefficient, Span.roundTrips.written _ h.maximumInterval,
      (Json.word_roundTrips 32).written _ h.maximumAttempts,
      Json.number_roundTrips.written _ h.jitter]
  accepted json policy h := by
    unfold ofJson? at h
    simp only [↓Json.bind_eq_some] at h
    obtain ⟨_, hinitial, _, hcoefficient, _, hmaximum, _, hattempts, _, -, _, hjitter, hpolicy⟩ := h
    obtain rfl := Option.some.inj hpolicy
    exact ⟨Span.roundTrips.required hinitial, Json.number_roundTrips.required hcoefficient,
      Span.roundTrips.required hmaximum, (Json.word_roundTrips 32).required hattempts,
      Json.number_roundTrips.defaulted (by decide) hjitter⟩

structure ActivityOptions.IsStorable (options : ActivityOptions) : Prop where
  retryPolicy : options.retryPolicy.IsStorable
  pickupTimeout : ∀ timeout ∈ options.pickupTimeout, timeout.IsStorable
  attemptTimeout : options.attemptTimeout.IsStorable
  heartbeatTimeout : ∀ timeout ∈ options.heartbeatTimeout, timeout.IsStorable

theorem ActivityOptions.roundTrips : RoundTrips toJson ofJson? IsStorable where
  written options h := by
    simp [toJson, ofJson?, RetryPolicy.roundTrips.written _ h.retryPolicy,
      Span.roundTrips.nullable rfl h.pickupTimeout, Span.roundTrips.written _ h.attemptTimeout,
      Span.roundTrips.nullable rfl h.heartbeatTimeout]
  accepted json options h := by
    unfold ofJson? at h
    simp only [↓Json.bind_eq_some] at h
    obtain ⟨_, hretry, _, -, _, hpickup, _, hattempt, _, hheartbeat, hoptions⟩ := h
    obtain rfl := Option.some.inj hoptions
    exact ⟨RetryPolicy.roundTrips.required hretry, Span.roundTrips.optional hpickup,
      Span.roundTrips.required hattempt, Span.roundTrips.optional hheartbeat⟩

structure WorkflowOptions.IsStorable (options : WorkflowOptions) : Prop where
  retryPolicy : ∀ policy ∈ options.retryPolicy, policy.IsStorable
  executionTimeout : ∀ timeout ∈ options.executionTimeout, timeout.IsStorable

theorem WorkflowOptions.roundTrips : RoundTrips toJson ofJson? IsStorable where
  written options h := by
    have hobject : options.toJson.isObject = true := rfl
    rw [ofJson?, hobject]
    simp [toJson, RetryPolicy.roundTrips.nullable rfl h.retryPolicy,
      Span.roundTrips.nullable rfl h.executionTimeout]
  accepted json options h := by
    unfold ofJson? at h
    simp only [Option.ite_none_left_eq_some, ↓Json.bind_eq_some] at h
    obtain ⟨-, _, hretry, _, -, _, htimeout, hoptions⟩ := h
    obtain rfl := Option.some.inj hoptions
    exact ⟨RetryPolicy.roundTrips.optional hretry, Span.roundTrips.optional htimeout⟩

theorem WorkflowOptions.standard_isStorable : standard.IsStorable where
  retryPolicy := nofun
  executionTimeout := nofun

/-! ## Failures -/

/-- A payload of `null` is not told from none. -/
def ActivityFailure.IsStorable (failure : ActivityFailure) : Prop := failure.details ≠ some .null

theorem ActivityFailure.roundTrips : RoundTrips toJson ofJson? IsStorable where
  written failure h := by
    simp [toJson, ofJson?, Json.nullable_orNull h]
  accepted json failure h := by
    unfold ofJson? at h
    simp only [↓Json.bind_eq_some] at h
    obtain ⟨_, -, _, -, _, -, _, hdetails, hfailure⟩ := h
    obtain rfl := Option.some.inj hfailure
    exact Json.ne_null_of_optional hdetails

def Failure.IsStorable (failure : Failure) : Prop := failure.details ≠ some .null

theorem Failure.readWith_roundTrips {kind? : Json → Option FailureKind}
    (hkind : ∀ kind : FailureKind, kind? kind.toJson = some kind) :
    RoundTrips toJson (readWith kind?) IsStorable where
  written failure h := by
    simp [toJson, readWith, hkind, Json.nullable_orNull h]
  accepted json failure h := by
    unfold readWith at h
    simp only [↓Json.bind_eq_some] at h
    obtain ⟨_, -, _, -, _, -, _, -, _, hdetails, hfailure⟩ := h
    obtain rfl := Option.some.inj hfailure
    exact Json.ne_null_of_optional hdetails

theorem Failure.roundTrips : RoundTrips toJson ofJson? IsStorable :=
  readWith_roundTrips fun kind => by cases kind <;> rfl

theorem Failure.tagged_roundTrips : RoundTrips toJson ofTaggedJson? IsStorable :=
  readWith_roundTrips fun kind => by cases kind <;> rfl

/-! ## References and signals -/

def RunRef.IsStorable (ref : RunRef) : Prop := ref.runId.IsProper

theorem RunRef.roundTrips : RoundTrips toJson ofJson? IsStorable where
  written ref h := by
    simp [toJson, ofJson?, Uuid.roundTrips.written _ h]
  accepted json ref h := by
    unfold ofJson? at h
    simp only [↓Json.bind_eq_some] at h
    obtain ⟨_, -, _, hrun, href⟩ := h
    obtain rfl := Option.some.inj href
    exact Uuid.roundTrips.required hrun

def Signal.IsStorable (signal : Signal) : Prop := signal.sentAt.IsProper

theorem Signal.roundTrips : RoundTrips toJson ofJson? IsStorable where
  written signal h := by
    simp [toJson, ofJson?, Instant.roundTrips.written _ h]
  accepted json signal h := by
    unfold ofJson? at h
    simp only [↓Json.bind_eq_some] at h
    obtain ⟨_, -, _, -, _, hsent, hsignal⟩ := h
    obtain rfl := Option.some.inj hsignal
    exact Instant.roundTrips.required hsent

/-! ## Fan-ins -/

theorem FanIn.roundTrips : RoundTrips toJson ofJson? fun _ => True where
  written fanIn _ := by
    simp [toJson, ofJson?, fields?]
  accepted _ _ _ := trivial

end Chronicle
