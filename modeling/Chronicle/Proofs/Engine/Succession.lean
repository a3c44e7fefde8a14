import Chronicle.Proofs.Engine.Attempts
import Chronicle.Proofs.Engine.Books

/-!
# Succession of runs

The runs of a workflow id succeed each other.  Every run but the last one is closed and names the
next, and attempts are counted anew unless the next run is another attempt of the one that failed.
-/

namespace Chronicle

open Relation (ReflTransGen)

/-- The attempt of the run is one that its retry policy allows. -/
def Run.WithinLimit (run : Run) : Prop :=
  ∀ policy, run.options.retryPolicy = some policy → policy.maximumAttempts ≠ 0 →
    run.attempt ≤ policy.maximumAttempts

/-- The entry fails the earlier run, and the retry policy of that run has it begin the later one. -/
def LogEntry.Retries (entry : LogEntry) (earlier later : Run) : Prop :=
  entry.ref = earlier.ref ∧ later.ref ∈ entry.commit.newRuns.map NewRun.ref ∧
    ∃ closing failure policy delay, entry.commit.closing = some closing ∧
      closing.status = .failed ∧ closing.failure = some failure ∧
      earlier.options.retryPolicy = some policy ∧
      policy.decide earlier.attempt failure.retryable failure.code = .retry delay

def Retried (log : List LogEntry) (earlier later : Run) : Prop :=
  ∃ entry ∈ log, entry.Retries earlier later

/-- Attempts are counted on in a retry, and otherwise from one. -/
def Numbered (log : List LogEntry) (earlier later : Run) : Prop :=
  (Retried log earlier later → later.attempt = earlier.attempt + 1) ∧
    (¬ Retried log earlier later → later.attempt = 1)

theorem Run.WithinLimit.first {run : Run} (h : run.attempt = 1) : run.WithinLimit := by
  intro policy _ hlimited
  rw [h]
  exact Nat.one_le_iff_ne_zero.2 hlimited

/-- A retry leaves the limit of the policy unbroken. -/
theorem RetryPolicy.next_le_of_retry {policy : RetryPolicy} {attempt : Nat} {retryable : Bool}
    {code : Option String} {delay : Span} (h : policy.decide attempt retryable code = .retry delay)
    (hlimited : policy.maximumAttempts ≠ 0) : attempt + 1 ≤ policy.maximumAttempts := by
  have hleft := Event.Admissible.hasAttemptsLeft_of_retry h
  unfold hasAttemptsLeft at hleft
  have hless : attempt < policy.maximumAttempts := by simpa [hlimited] using hleft
  exact hless

/-- A run is continued as a retry when its policy says so, and from attempt one otherwise. -/
theorem Decision.continuationPlan?_cases {run : Run} {failure : Option Failure} {now : Instant}
    {attempt : Nat} {delay : Span} (h : continuationPlan? run failure now = some (attempt, delay)) :
    (∃ cause policy delay, failure = some cause ∧ run.options.retryPolicy = some policy ∧
        policy.decide run.attempt cause.retryable cause.code = .retry delay ∧
        attempt = run.attempt + 1) ∨
      (attempt = 1 ∧ ∀ cause policy delay, failure = some cause →
        run.options.retryPolicy = some policy →
        policy.decide run.attempt cause.retryable cause.code ≠ .retry delay) := by
  have hscheduled : continuationPlan? run none now = some (attempt, delay) → attempt = 1 := by
    intro hplan
    simp only [continuationPlan?] at hplan
    split at hplan
    · obtain ⟨fireAt, -, heq⟩ := Option.map_eq_some_iff.1 hplan
      cases heq
      rfl
    · cases hplan
  cases failure with
  | none => exact .inr ⟨hscheduled h, fun _ _ _ hnone => by cases hnone⟩
  | some cause =>
      cases hpolicy : run.options.retryPolicy with
      | none =>
          simp only [continuationPlan?, hpolicy] at h
          exact .inr ⟨hscheduled h, fun _ _ _ _ hnone => by cases hnone⟩
      | some policy =>
          cases hverdict : policy.decide run.attempt cause.retryable cause.code with
          | retry wait =>
              simp only [continuationPlan?, hpolicy, hverdict, Option.some.injEq,
                Prod.mk.injEq] at h
              exact .inl ⟨cause, policy, wait, rfl, rfl, hverdict, h.1.symm⟩
          | giveUp exhausted =>
              simp only [continuationPlan?, hpolicy, hverdict] at h
              refine .inr ⟨hscheduled h, ?_⟩
              rintro other same delay ⟨⟩ ⟨⟩ hretry
              rw [hverdict] at hretry
              cases hretry

/-! ## The log -/

section Log

variable {log : List LogEntry} {entry : LogEntry} {earlier later : Run}

/-- An entry that begins other runs does not make a retry of the later one. -/
theorem retried_concat (h : later.ref ∉ entry.commit.newRuns.map NewRun.ref) :
    Retried (log ++ [entry]) earlier later ↔ Retried log earlier later := by
  unfold Retried
  simp only [List.mem_append, List.mem_singleton, or_and_right, exists_or, exists_eq_left]
  exact or_iff_left fun hretries => h hretries.2.1

theorem Numbered.concat (numbered : Numbered log earlier later)
    (h : later.ref ∉ entry.commit.newRuns.map NewRun.ref) :
    Numbered (log ++ [entry]) earlier later := by
  unfold Numbered
  rw [retried_concat h]
  exact numbered

end Log

/-! ## Books -/

namespace Book

variable {starts : NewRun → Prop} {before after : Book}

structure Succession (book : Book) : Prop where
  sole : book.runs.Sole
  chained : book.runs.Chained
  /-- The runs that were begun by commits are in the store. -/
  logged : ∀ entry ∈ book.log, ∀ new ∈ entry.commit.newRuns, (book.runs.find? new.ref).isSome = true
  first : ∀ workflowId, ∀ run ∈ (book.runs.originsOf workflowId).head?, run.attempt = 1
  numbered : ∀ workflowId, (book.runs.originsOf workflowId).IsChain (Numbered book.log)
  limited : ∀ workflowId, ∀ run ∈ book.runs.originsOf workflowId, run.WithinLimit

theorem Succession.opening {store : Store} (blank : store.runs = .empty) :
    Succession ⟨store, []⟩ where
  sole := by
    show store.runs.Sole
    rw [blank]
    exact .empty
  chained := by
    show store.runs.Chained
    rw [blank]
    exact .empty
  logged := fun _ hmem => (nomatch hmem)
  first := by
    show ∀ workflowId, ∀ run ∈ (store.runs.originsOf workflowId).head?, run.attempt = 1
    rw [blank]
    exact fun _ _ hmem => (nomatch hmem)
  numbered := by
    show ∀ workflowId, (store.runs.originsOf workflowId).IsChain _
    rw [blank]
    exact fun _ => .nil
  limited := by
    show ∀ workflowId, ∀ run ∈ store.runs.originsOf workflowId, run.WithinLimit
    rw [blank]
    exact fun _ _ hmem => (nomatch hmem)

/-- The new run may take its place after the runs that were there. -/
structure Succeeds (log : List LogEntry) (origins : List Run) (new : Run) : Prop where
  numbered : ∀ earlier ∈ origins.getLast?, Numbered log earlier new
  first : origins = [] → new.attempt = 1
  limited : new.WithinLimit

/-- A run that no commit begins again counts its attempts from one. -/
theorem Succeeds.unlogged {log : List LogEntry} {origins : List Run} {new : Run}
    (hfirst : new.attempt = 1) (hnew : ∀ earlier ∈ origins.getLast?, ¬ Retried log earlier new) :
    Succeeds log origins new where
  numbered := fun earlier hearlier =>
    ⟨fun hretried => absurd hretried (hnew earlier hearlier), fun _ => hfirst⟩
  first := fun _ => hfirst
  limited := .first hfirst

theorem Succession.not_retried (succession : before.Succession) {earlier later : Run}
    (fresh : before.runs.find? later.ref = none) : ¬ Retried before.log earlier later := by
  rintro ⟨entry, hmem, -, hbegun, -⟩
  obtain ⟨new, hnew, href⟩ := List.mem_map.1 hbegun
  have hfound := succession.logged entry hmem new hnew
  rw [href, fresh] at hfound
  cases hfound

/-- The runs that were there keep their numbers, and a new one takes its place after them. -/
theorem Succession.extend (succession : before.Succession)
    (steps : ReflTransGen RunTable.Orderly before.runs after.runs)
    (logged : ∀ entry ∈ after.log, ∀ new ∈ entry.commit.newRuns,
      (after.runs.find? new.ref).isSome = true)
    (kept : ∀ earlier later, (before.runs.find? later.ref).isSome = true →
      Numbered before.log earlier later → Numbered after.log earlier later)
    (added : ∀ workflowId, ∃ new : Option Run, after.runs.originsOf workflowId =
        before.runs.originsOf workflowId ++ new.toList ∧
      ∀ run ∈ new, Succeeds after.log (before.runs.originsOf workflowId) run) :
    after.Succession := by
  have hnumbered : ∀ workflowId, (before.runs.originsOf workflowId).IsChain (Numbered after.log) := by
    intro workflowId
    apply (succession.numbered workflowId).imp_of_mem_imp
    intro earlier later _ hlater
    apply kept
    obtain ⟨record, hfind, -⟩ := RunTable.find?_of_mem_originsOf succession.chained hlater
    rw [hfind]
    rfl
  refine ⟨succession.sole.orderlies steps, succession.chained.orderlies steps, logged, ?_, ?_, ?_⟩
  all_goals
    intro workflowId
    obtain ⟨new, horigins, hsucceeds⟩ := added workflowId
    rw [horigins]
  · intro run hhead
    cases hbefore : before.runs.originsOf workflowId with
    | nil =>
        rw [hbefore, List.nil_append] at hhead
        cases new with
        | none => cases hhead
        | some origin =>
            cases hhead
            exact (hsucceeds _ rfl).first hbefore
    | cons first rest =>
        rw [hbefore] at hhead
        apply succession.first workflowId
        rw [hbefore]
        exact hhead
  · rw [List.isChain_append]
    refine ⟨hnumbered workflowId, ?_, ?_⟩
    · cases new with
      | none => exact .nil
      | some origin => exact List.isChain_singleton _
    · intro earlier hearlier later hlater
      cases new with
      | none => cases hlater
      | some origin =>
          cases hlater
          exact (hsucceeds _ rfl).numbered earlier hearlier
  · intro run hmem
    rcases List.mem_append.1 hmem with hold | hnew
    · exact succession.limited workflowId run hold
    · exact (hsucceeds run (by simpa using hnew)).limited

/-- The run of the entry is open, so that it is the last one of its workflow id. -/
theorem last_origin (sole : before.runs.Sole) (chained : before.runs.Chained) {entry : LogEntry}
    {record : RunRecord} {run : Run} {children : List NewRun} {next : Option NewRun}
    (accepted : entry.Accepted before.store record run children next) :
    (before.runs.originsOf entry.ref.workflowId).getLast? = some record.run.origin := by
  have hcurrent := sole entry.ref record accepted.found accepted.isOpen
  rw [chained.current] at hcurrent
  obtain ⟨last, hlast, href⟩ := Option.map_eq_some_iff.1 hcurrent
  have hmem := List.mem_of_mem_filter (List.mem_of_getLast? hlast)
  have hfind := RunTable.find?_of_mem chained.distinct hmem
  have hfound : before.runs.find? entry.ref = some record := accepted.found
  rw [href, hfound, Option.some.injEq] at hfind
  rw [RunTable.originsOf, List.getLast?_map, hlast, hfind]
  rfl

/-- The run that continues another one is a retry of it, or its attempts are counted anew. -/
theorem next_cases {entry : LogEntry} {record : RunRecord} {run : Run} {children : List NewRun}
    {next : Option NewRun} (accepted : entry.Accepted before.store record run children next)
    {new : NewRun} (hnext : new ∈ next) :
    (entry.Retries record.run.origin (new.toRun entry.now).origin ∧
        new.attempt = record.run.attempt + 1 ∧ (new.toRun entry.now).origin.WithinLimit) ∨
      (new.attempt = 1 ∧ ¬ entry.Retries record.run.origin (new.toRun entry.now).origin) := by
  have hbegun : new.ref ∈ entry.commit.newRuns.map NewRun.ref := by
    apply List.mem_map_of_mem
    rw [accepted.begets.newRuns]
    exact List.mem_append_right _ (by simpa using hnext)
  obtain ⟨closing, hclosing, continues⟩ := accepted.begets.continues new hnext
  obtain ⟨hfailed, now, runId, attempt, delay, hplan, rfl⟩ := continues new hnext
  have hoptions : run.options = record.run.options := by
    have hsame := congrArg Run.options accepted.origin
    exact hsame
  have hattempt : run.attempt = record.run.attempt := by
    have hsame := congrArg Run.attempt accepted.origin
    exact hsame
  -- the plan was made for the run that closes, which has the options and the attempt of its record
  have hcases := Decision.continuationPlan?_cases hplan
  rw [hoptions, hattempt] at hcases
  rcases hcases with ⟨cause, policy, wait, hcause, hpolicy, hverdict, hcounted⟩ | ⟨hfirst, hgiveUp⟩
  · refine .inl ⟨⟨(RunTable.ref_of_find? accepted.found).symm, hbegun, ?_⟩, hcounted, ?_⟩
    · exact ⟨closing, cause, policy, wait, hclosing, hfailed (by rw [hcause]; rfl), hcause, hpolicy,
        hverdict⟩
    · intro other hother hlimited
      have hsame : record.run.options.retryPolicy = some other := hoptions ▸ hother
      rw [hpolicy, Option.some.injEq] at hsame
      subst hsame
      show attempt ≤ policy.maximumAttempts
      rw [hcounted]
      exact policy.next_le_of_retry hverdict hlimited
  · refine .inr ⟨hfirst, ?_⟩
    rintro ⟨-, -, other, cause, policy, wait, hother, -, hcause, hpolicy, hverdict⟩
    rw [hclosing, Option.some.injEq] at hother
    subst hother
    exact hgiveUp cause policy wait hcause hpolicy hverdict

/-- What the log says of a run that the last entry begins, that entry says. -/
theorem Succession.retries_of_retried (succession : before.Succession) {entry : LogEntry}
    {earlier later : Run} (fresh : before.runs.find? later.ref = none)
    (h : Retried (before.log ++ [entry]) earlier later) : entry.Retries earlier later := by
  obtain ⟨other, hother, hretries⟩ := h
  rcases List.mem_append.1 hother with hold | hnew
  · exact absurd ⟨other, hold, hretries⟩ (succession.not_retried fresh)
  · rw [← List.mem_singleton.1 hnew]
    exact hretries

/-- A run that a commit begins is a child, a retry of the run that failed, or scheduled anew. -/
theorem Succession.succeeds (succession : before.Succession) {entry : LogEntry} {record : RunRecord}
    {run : Run} {children : List NewRun} {next : Option NewRun}
    (accepted : entry.Accepted before.store record run children next) {new : NewRun}
    (hmem : new ∈ entry.commit.newRuns) :
    Succeeds (before.log ++ [entry]) (before.runs.originsOf new.ref.workflowId)
      (new.toRun entry.now).origin := by
  have hfresh : before.runs.find? (new.toRun entry.now).origin.ref = none := accepted.fresh new hmem
  rw [accepted.begets.newRuns] at hmem
  rcases List.mem_append.1 hmem with hchild | hnext
  · refine .unlogged (accepted.begets.bears.begun new hchild).2.1 ?_
    intro earlier hlast hretried
    -- the run that was retried has the workflow id of the child
    obtain ⟨record, hrecord, rfl⟩ := List.mem_map.1 (List.mem_of_getLast? hlast)
    have hown := (succession.retries_of_retried hfresh hretried).1
    have hsame : entry.ref.workflowId = new.ref.workflowId :=
      (congrArg RunRef.workflowId hown).trans (RunTable.workflowId_of_mem_recordsOf hrecord)
    exact accepted.apart new hchild hsame.symm
  · replace hnext : new ∈ next := by simpa using hnext
    have hlast := last_origin succession.sole succession.chained accepted
    rw [← accepted.next_workflowId new hnext] at hlast
    have honly : ∀ earlier ∈ (before.runs.originsOf new.ref.workflowId).getLast?,
        earlier = record.run.origin := by
      intro earlier hearlier
      rw [hlast, Option.mem_some] at hearlier
      exact hearlier.symm
    rcases next_cases accepted hnext with ⟨hretries, hcounted, hlimited⟩ | ⟨hfirst, hnot⟩
    · refine ⟨?_, ?_, hlimited⟩
      · intro earlier hearlier
        rw [honly earlier hearlier]
        exact ⟨fun _ => hcounted, fun hnot => absurd ⟨entry, by simp, hretries⟩ hnot⟩
      · intro hnone
        rw [hnone] at hlast
        cases hlast
    · refine .unlogged hfirst ?_
      intro earlier hearlier hretried
      rw [honly earlier hearlier] at hretried
      exact hnot (succession.retries_of_retried hfresh hretried)

/-- A commit begins at most one run of a workflow id. -/
theorem origins_of_committed {entry : LogEntry} {record : RunRecord} {run : Run}
    {children : List NewRun} {next : Option NewRun}
    (accepted : entry.Accepted before.store record run children next) (workflowId : String) :
    ∃ new : Option NewRun, (∀ one ∈ new, one ∈ entry.commit.newRuns ∧ one.ref.workflowId = workflowId) ∧
      (before.store.apply entry.ref entry.commit entry.now).wake.runs.originsOf workflowId =
        before.runs.originsOf workflowId ++
          (new.map fun one => (one.toRun entry.now).origin).toList := by
  have horigins := @RunTable.originsOf_applied before.store.runs entry.ref _ entry.now
    accepted.begets.tidy accepted.fresh accepted.refs workflowId
  have hdistinct := accepted.workflowIds
  rw [Store.wake_runs, Store.apply_runs]
  cases hfilter : entry.commit.newRuns.filter fun new => new.ref.workflowId = workflowId with
  | nil =>
      rw [hfilter] at horigins
      exact ⟨none, by simp, horigins⟩
  | cons new rest =>
      have hmem : ∀ other ∈ new :: rest,
          other ∈ entry.commit.newRuns ∧ other.ref.workflowId = workflowId := by
        intro other hother
        rw [← hfilter] at hother
        simpa using List.mem_filter.1 hother
      have hnodup : ((new :: rest).map fun new => new.ref.workflowId).Nodup := by
        rw [← hfilter]
        exact hdistinct.sublist (List.filter_sublist.map _)
      have hrest : rest = [] := by
        cases rest with
        | nil => rfl
        | cons other more =>
            have hfirst := (hmem new (by simp)).2
            have hsecond := (hmem other (by simp)).2
            simp [hfirst, hsecond] at hnodup
      subst hrest
      rw [hfilter] at horigins
      exact ⟨some new, by simpa using hmem, horigins⟩

theorem Succession.turn (succession : before.Succession)
    (hfirst : ∀ new, starts new → new.attempt = 1) (turn : Turn starts before after) :
    after.Succession := by
  have steps := turn.orderly succession.sole
  have hlasting : ∀ ref, (before.runs.find? ref).isSome = true →
      (after.runs.find? ref).isSome = true := by
    intro ref hsome
    obtain ⟨record, hfind⟩ := Option.isSome_iff_exists.1 hsome
    obtain ⟨later, hlater, -⟩ := RunTable.outlasts_of_orderly steps hfind
    rw [hlater]
    rfl
  have hlogged : ∀ entry ∈ before.log, ∀ new ∈ entry.commit.newRuns,
      (after.runs.find? new.ref).isSome = true :=
    fun entry hentry new hnew => hlasting _ (succession.logged entry hentry new hnew)
  cases turn with
  | still runs =>
      refine succession.extend steps hlogged (fun _ _ _ numbered => numbered) ?_
      intro workflowId
      refine ⟨none, ?_, by simp⟩
      show RunTable.originsOf _ _ = _
      simp [Book.runs, runs]
  | @began new now allowed free fresh genuine =>
      refine succession.extend steps hlogged (fun _ _ _ numbered => numbered) ?_
      intro workflowId
      have horigins := RunTable.originsOf_create fresh now workflowId
      have hruns : (before.store.startRun new now).wake.runs = before.runs.create new now := by
        simp [Book.runs]
      show ∃ added, (before.store.startRun new now).wake.runs.originsOf workflowId = _ ∧ _
      rw [hruns, horigins]
      split
      · refine ⟨some (new.toRun now).origin, rfl, ?_⟩
        rintro run ⟨⟩
        exact .unlogged (hfirst new allowed) fun earlier _ => succession.not_retried fresh
      · exact ⟨none, rfl, by simp⟩
  | @committed entry record run children next accepted =>
      refine succession.extend steps ?_ ?_ ?_
      · intro other hother new hnew
        rcases List.mem_append.1 hother with hold | hlast
        · exact hlogged other hold new hnew
        · rw [List.mem_singleton.1 hlast] at hnew
          obtain ⟨begun, hbegun, -⟩ := accepted.begun succession.sole succession.chained hnew
          show ((before.store.apply _ _ _).wake.runs.find? new.ref).isSome = true
          rw [hbegun]
          rfl
      · -- the entry begins no run that is there already
        intro earlier later hfound numbered
        apply numbered.concat
        intro hmem
        obtain ⟨new, hnew, href⟩ := List.mem_map.1 hmem
        have hmissing := accepted.fresh new hnew
        rw [href] at hmissing
        rw [Book.runs, hmissing] at hfound
        cases hfound
      · intro workflowId
        obtain ⟨new, hnew, horigins⟩ := origins_of_committed accepted workflowId
        refine ⟨_, horigins, ?_⟩
        intro origin horigin
        obtain ⟨one, hone, rfl⟩ := Option.map_eq_some_iff.1 horigin
        obtain ⟨hmem, rfl⟩ := hnew one hone
        exact succession.succeeds accepted hmem

theorem Succession.turns (succession : before.Succession)
    (hfirst : ∀ new, starts new → new.attempt = 1) (turns : ReflTransGen (Turn starts) before after) :
    after.Succession := by
  induction turns with
  | refl => exact succession
  | tail _ turn ih => exact ih.turn hfirst turn

/-- The runs of a workflow id, in the order of their creation, form a single chain. -/
structure HasChain (book : Book) (workflowId : String) : Prop where
  distinct : ((book.runs.runsOf workflowId).map Run.ref).Nodup
  linked : (book.runs.runsOf workflowId).IsChain fun earlier later =>
    earlier.status.isClosed = true ∧ earlier.nextRunId = some later.ref.runId
  last : ∀ run ∈ (book.runs.runsOf workflowId).getLast?, run.nextRunId = none
  current : book.store.currentRun workflowId =
    match (book.runs.runsOf workflowId).getLast? with
    | some run => .ok run
    | none => .error (.workflowNotFound workflowId)
  first : ∀ run ∈ (book.runs.runsOf workflowId).head?, run.attempt = 1
  numbered : (book.runs.runsOf workflowId).IsChain (Numbered book.log)
  limited : ∀ run ∈ book.runs.runsOf workflowId, run.WithinLimit

theorem originsOf_eq (table : RunTable) (workflowId : String) :
    table.originsOf workflowId = (table.runsOf workflowId).map Run.origin := by
  rw [RunTable.originsOf, RunTable.runsOf, List.map_map]
  rfl

theorem Succession.hasChain {book : Book} (succession : book.Succession) (workflowId : String) :
    book.HasChain workflowId where
  distinct := by
    rw [RunTable.runsOf, List.map_map]
    exact succession.chained.distinct.sublist (List.filter_sublist.map _)
  linked := by
    rw [RunTable.runsOf, List.isChain_map]
    exact succession.chained.linked workflowId
  last := by
    intro run hlast
    rw [RunTable.runsOf, List.getLast?_map] at hlast
    obtain ⟨record, hrecord, rfl⟩ := Option.map_eq_some_iff.1 hlast
    exact succession.chained.last workflowId record hrecord
  current := succession.chained.currentRun workflowId
  first := by
    intro run hhead
    apply succession.first workflowId run.origin
    rw [originsOf_eq, List.head?_map]
    exact Option.mem_map_of_mem _ hhead
  numbered := by
    have hnumbered := succession.numbered workflowId
    rw [originsOf_eq, List.isChain_map] at hnumbered
    exact hnumbered
  limited := by
    intro run hmem
    have hlimited := succession.limited workflowId run.origin
    rw [originsOf_eq] at hlimited
    exact hlimited (List.mem_map_of_mem hmem)

end Book

/-! ## Scenes -/

/-- An operation that starts runs with their first attempt. -/
structure FirstOperation : Type 1 where
  operation : Operation
  startsFirst : ∀ new, operation.Begins new → new.attempt = 1

namespace FirstOperation

def program (first : FirstOperation) : Program Unit := first.operation.program

/-- The runs of a workflow id form a single chain, and keep their places in it. -/
theorem runs_formChain {start : World} (blank : start.IsBlank) {scene : Scene FirstOperation Unit}
    (reaches : Scene.Reaches program (.opening start) scene) (workflowId : String) :
    scene.book.HasChain workflowId ∧
      ∀ later, Scene.Reaches program scene later →
        (scene.book.runs.runsOf workflowId).map Run.ref <+:
          (later.book.runs.runsOf workflowId).map Run.ref := by
  have opening : Scene.Booked FirstOperation.operation (.opening start) fun _ => .nothing :=
    .opening blank
  have hfirst : ∀ new, Scene.Starts FirstOperation.operation new → new.attempt = 1 := by
    rintro new ⟨first, hbegins⟩
    exact first.startsFirst new hbegins
  obtain ⟨turns, know, booked⟩ := opening.turns reaches
  have succession := (Book.Succession.opening blank).turns hfirst turns
  refine ⟨succession.hasChain workflowId, ?_⟩
  intro later hlater
  obtain ⟨more, -⟩ := booked.turns hlater
  have horigins := RunTable.origins_of_orderly (Book.orderlies more booked.sole) workflowId
  simp only [Book.originsOf_eq] at horigins
  have hrefs := horigins.map Run.ref
  rw [List.map_map, List.map_map] at hrefs
  exact hrefs

/-- A run is started and terminated, and its workflow id is used again. -/
theorem restarted_formsChain :
    ∃ scene, Scene.Reaches program (.opening Operation.blankWorld) scene ∧
      (scene.book.runs.runsOf "orders").length = 2 ∧ scene.book.HasChain "orders" ∧
      ∀ later, Scene.Reaches program scene later →
        (scene.book.runs.runsOf "orders").map Run.ref <+:
          (later.book.runs.runsOf "orders").map Run.ref := by
  have blank : Operation.blankWorld.IsBlank := rfl
  let starting : FirstOperation := ⟨.clientStart "bare" "orders" "default" .null .standard, by
    rintro new ⟨runId, rfl⟩
    rfl⟩
  let terminating : FirstOperation :=
    ⟨.terminate Operation.sampleEngine Operation.sampleRun "done", fun _ hnone => nomatch hnone⟩
  have entered : Scene.Reaches program (.opening Operation.blankWorld)
      ⟨Operation.blankWorld, [⟨_, program starting⟩, ⟨_, program terminating⟩,
        ⟨_, program starting⟩], []⟩ :=
    ((ReflTransGen.single (.enter _)).tail (.enter _)).tail (.enter _)
  have started := (entered.act 0 rfl rfl).act 0 rfl rfl
  have terminated := ((started.act 1 rfl rfl).act 1 rfl rfl).act 1 rfl rfl
  have restarted := (terminated.act 2 rfl rfl).act 2 rfl rfl
  exact ⟨_, restarted, rfl, runs_formChain blank restarted "orders"⟩

end FirstOperation

end Chronicle
