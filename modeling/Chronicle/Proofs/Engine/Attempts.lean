import Chronicle.Proofs.Engine.Protocol
import Chronicle.Proofs.Worker.Roles

/-!
# Attempts keep to the protocol

Whoever records something about an attempt finds it to be the current one of an open activity, in
the history that the record continues.  That is all it takes for the history of an activity which
was scheduled once to keep to the protocol.
-/

namespace Chronicle

open Relation (ReflTransGen)

/-! ## What may be recorded -/

/-- News is recorded only about the current attempt of an open activity. -/
def ActivityNews.Admissible (activityId : String) (history : List HistoryEvent) :
    ActivityNews → Prop
  | .started attempt => ∃ state, AtAttempt history activityId attempt state ∧ state.started = false
  | .heartbeat attempt => (∃ state, AtAttempt history activityId attempt state) ∧
      PickedUp activityId attempt history
  | .ended attempt willRetry exhausted => ∃ state, AtAttempt history activityId attempt state ∧
      (willRetry = true → state.options.retryPolicy.hasAttemptsLeft attempt = true) ∧
      (exhausted = true → state.options.retryPolicy.hasAttemptsLeft attempt = false)
  | .cancelled => True

def Event.Admissible (history : List HistoryEvent) (event : Event) : Prop :=
  ∀ activityId news, event.news? activityId = some news → news.Admissible activityId history

namespace Event.Admissible

variable {history : List HistoryEvent} {event : Event}

theorem of_none (h : ∀ activityId, event.news? activityId = none) : event.Admissible history := by
  intro activityId news hnews
  rw [h activityId] at hnews
  cases hnews

theorem of_announcement (h : event.isAnnouncement = true) : event.Admissible history := by
  apply of_none
  cases event <;> simp_all [Event.isAnnouncement, Event.news?]

theorem of_decision (h : event.key? ≠ none ∨ Decision.isRejection event = true) :
    event.Admissible history := by
  intro activityId news hnews
  cases event <;> simp_all [Event.news?, Event.key?, Decision.isRejection]
  rw [← hnews.2]
  trivial

theorem hasAttemptsLeft_of_retry {policy : RetryPolicy} {attempt : Nat} {retryable : Bool}
    {code : Option String} {delay : Span} (h : policy.decide attempt retryable code = .retry delay) :
    policy.hasAttemptsLeft attempt = true := by
  unfold RetryPolicy.decide at h
  split at h
  · cases h
  · split at h
    · cases h
    · rename_i hleft
      simpa using hleft

theorem hasAttemptsLeft_of_exhausted {policy : RetryPolicy} {attempt : Nat} {retryable : Bool}
    {code : Option String} (h : policy.decide attempt retryable code = .giveUp true) :
    policy.hasAttemptsLeft attempt = false := by
  unfold RetryPolicy.decide at h
  split at h
  · cases h
  · split at h
    · rename_i hnone
      simpa using hnone
    · cases h

theorem of_ends {activityId : String} {attempt : Nat} {state : ActivityState} {delay : Option Span}
    (attempted : AtAttempt history activityId attempt state)
    (ends : EndsAttempt state.options.retryPolicy activityId attempt delay event) :
    event.Admissible history := by
  intro subject news hnews
  cases ends with
  | completed result =>
      simp only [Event.news?, Option.ite_none_right_eq_some, Option.some.injEq] at hnews
      obtain ⟨rfl, rfl⟩ := hnews
      exact ⟨state, attempted, by simp, by simp⟩
  | failed verdict =>
      simp only [Event.news?, Option.ite_none_right_eq_some, Option.some.injEq] at hnews
      obtain ⟨rfl, rfl⟩ := hnews
      refine ⟨state, attempted, by simp, ?_⟩
      rintro rfl
      exact hasAttemptsLeft_of_exhausted verdict
  | timedOut verdict =>
      simp only [Event.news?, Option.ite_none_right_eq_some, Option.some.injEq] at hnews
      obtain ⟨rfl, rfl⟩ := hnews
      refine ⟨state, attempted, by simp, ?_⟩
      rintro rfl
      exact hasAttemptsLeft_of_exhausted verdict
  | failedOnce verdict =>
      simp only [Event.news?, Option.ite_none_right_eq_some, Option.some.injEq] at hnews
      obtain ⟨rfl, rfl⟩ := hnews
      exact ⟨state, attempted, fun _ => hasAttemptsLeft_of_retry verdict, by simp⟩
  | timedOutOnce verdict =>
      simp only [Event.news?, Option.ite_none_right_eq_some, Option.some.injEq] at hnews
      obtain ⟨rfl, rfl⟩ := hnews
      exact ⟨state, attempted, fun _ => hasAttemptsLeft_of_retry verdict, by simp⟩

end Event.Admissible

/-- Every event was in order when it was recorded. -/
def Throughout (inOrder : List HistoryEvent → Event → Prop) (history : List HistoryEvent) : Prop :=
  ∀ before event, before ++ [event] <+: history → inOrder before event.event

namespace Throughout

variable {inOrder : List HistoryEvent → Event → Prop} {history : List HistoryEvent}

theorem nil : Throughout inOrder [] := by
  intro before event hinitial
  simp at hinitial

theorem concat {event : HistoryEvent} (throughout : Throughout inOrder history)
    (hevent : inOrder history event.event) : Throughout inOrder (history ++ [event]) := by
  intro before other hinitial
  rcases List.prefix_concat_iff.1 hinitial with hwhole | hearlier
  · obtain ⟨rfl, hlast⟩ := List.append_inj' hwhole rfl
    cases hlast
    exact hevent
  · exact throughout before other hearlier

theorem append {more : List HistoryEvent} (throughout : Throughout inOrder history)
    (hmore : ∀ event ∈ more, ∀ earlier, inOrder earlier event.event) :
    Throughout inOrder (history ++ more) := by
  induction more using List.reverseRecOn with
  | nil => rwa [List.append_nil]
  | append_singleton rest event ih =>
      rw [← List.append_assoc]
      apply (ih fun other hmem => hmore other (by simp [hmem])).concat
      exact hmore event (by simp) _

theorem of_prefix {first : List HistoryEvent} (throughout : Throughout inOrder history)
    (h : first <+: history) : Throughout inOrder first :=
  fun before event hinitial => throughout before event (hinitial.trans h)

theorem of_getElem? {place : Nat} {event : HistoryEvent} (throughout : Throughout inOrder history)
    (h : history[place]? = some event) : inOrder (history.take place) event.event := by
  apply throughout
  have htake := List.take_add_one (l := history) (i := place)
  rw [h, Option.toList_some] at htake
  exact htake ▸ List.take_prefix _ _

end Throughout

/-- Every event was admissible when it was recorded. -/
def Recounts (history : List HistoryEvent) : Prop :=
  ∀ before event, before ++ [event] <+: history → event.event.Admissible before

namespace Recounts

variable {history : List HistoryEvent}

theorem nil : Recounts [] := Throughout.nil

theorem concat {event : HistoryEvent} (recounts : Recounts history)
    (admissible : event.event.Admissible history) : Recounts (history ++ [event]) :=
  Throughout.concat recounts admissible

theorem of_prefix {first : List HistoryEvent} (recounts : Recounts history) (h : first <+: history) :
    Recounts first :=
  Throughout.of_prefix recounts h

end Recounts

/-! ## What moves record -/

/-- An update records one event, which is admissible. -/
theorem Update.admissible {fires : Prop} {run : Run} {history : List HistoryEvent} {commit : Commit}
    (update : Update fires run history commit) :
    ∃ event, commit.events = [event] ∧ event.Admissible history := by
  cases update with
  | @reported event report =>
      refine ⟨event, rfl, .of_none fun _ => ?_⟩
      cases event <;> simp_all [Event.isReport, Event.news?]
  | @forced event closing ends =>
      refine ⟨event, rfl, .of_none fun _ => ?_⟩
      cases event <;> simp_all [Event.closing?, Event.news?]
  | @started work state workerId now own provided attempted waits =>
      refine ⟨_, rfl, ?_⟩
      intro subject news hnews
      simp only [Event.news?, Option.ite_none_right_eq_some, Option.some.injEq] at hnews
      obtain ⟨rfl, rfl⟩ := hnews
      exact ⟨state, attempted, waits⟩
  | @beat work state details now own provided picked attempted =>
      refine ⟨_, rfl, ?_⟩
      intro subject news hnews
      simp only [Event.news?, Option.ite_none_right_eq_some, Option.some.injEq] at hnews
      obtain ⟨rfl, rfl⟩ := hnews
      exact ⟨⟨state, attempted⟩, picked⟩
  | ended attempted picked ends => exact ⟨_, rfl, .of_ends attempted ends⟩
  | retried now attempted picked ends => exact ⟨_, rfl, .of_ends attempted ends⟩
  | fired allowed pending => exact ⟨_, rfl, .of_none fun _ => rfl⟩
  | @missed activityId state allowed attempted waits =>
      refine ⟨_, rfl, ?_⟩
      intro subject news hnews
      simp only [Event.news?, Option.ite_none_right_eq_some, Option.some.injEq] at hnews
      obtain ⟨rfl, rfl⟩ := hnews
      exact ⟨state, attempted, by simp, by simp⟩

/-- A decision records what its commands ask for, and which children were rejected. -/
theorem Engine.Decided.key?_or_isRejection {engine : Engine} {ref : RunRef} {run : Run}
    {history : List HistoryEvent} {commit : Commit} (decided : engine.Decided ref run history commit)
    {event : Event} (hmem : event ∈ commit.events) :
    event.key? ≠ none ∨ Decision.isRejection event = true := by
  obtain ⟨-, outcome, now, -, -, -, hyields⟩ := decided
  obtain ⟨recorded, rejected, batch⟩ := Decision.batch_of_build hyields
  rw [batch.events, List.mem_append] at hmem
  refine hmem.imp (fun hrecorded hnone => ?_) (batch.rejections event)
  have hkey := List.mem_map_of_mem (f := Event.key?) hrecorded
  rw [batch.keys, hnone] at hkey
  simp at hkey

/-- Nothing is recorded that is out of order. -/
structure Guarded (inOrder : List HistoryEvent → Event → Prop) : Prop where
  begun : ∀ new now, Throughout inOrder (RunRecord.start new now).events
  updated : ∀ {fires : Prop} {run : Run} {history : List HistoryEvent} {commit : Commit},
    Update fires run history commit → ∃ event, commit.events = [event] ∧ inOrder history event
  decided : ∀ {history : List HistoryEvent} {event : Event},
    event.key? ≠ none ∨ Decision.isRejection event = true → inOrder history event
  announced : ∀ {history : List HistoryEvent} {event : Event},
    event.isAnnouncement = true → inOrder history event

namespace Guarded

variable {inOrder : List HistoryEvent → Event → Prop} {rules : Rules}

theorem writes (guarded : Guarded inOrder) {fires : Prop} {run : Run} {history : List HistoryEvent}
    {commit : Commit} (writes : rules.Writes fires run history commit)
    (throughout : Throughout inOrder history) (now : Instant) (eventId : Nat) :
    Throughout inOrder (history ++ RunRecord.number now eventId commit.events) := by
  rcases writes with update | ⟨engine, -, decided⟩
  · obtain ⟨event, hevents, hevent⟩ := guarded.updated update
    rw [hevents]
    exact throughout.concat hevent
  · apply throughout.append
    intro event hmem earlier
    exact guarded.decided (decided.key?_or_isRejection (RunRecord.event_mem_of_mem_number hmem))

theorem step (guarded : Guarded inOrder) {before after : RunRecord}
    (step : RunRecord.Step rules.Warrants Rules.announces before after)
    (throughout : Throughout inOrder before.events) : Throughout inOrder after.events := by
  cases step with
  | revised now isOpen warranted =>
      obtain ⟨run, -, writes⟩ := warranted
      rw [RunRecord.revise_events]
      exact guarded.writes writes throughout now _
  | notified now isOpen announced =>
      rw [RunRecord.append_events]
      exact throughout.concat (guarded.announced announced)
  | linked next => exact throughout

theorem leads (guarded : Guarded inOrder) {store : Store} (leads : Leads rules .empty store)
    {ref : RunRef} {record : RunRecord} (hfind : store.runs.find? ref = some record) :
    Throughout inOrder record.events :=
  RunTable.every_of_steps guarded.begun (fun _ _ step => guarded.step step) (Leads.runs leads)
    (fun _ _ hnone => nomatch hnone) ref record hfind

end Guarded

theorem Event.Admissible.guarded : Guarded fun history event => event.Admissible history where
  begun := fun _ _ => Throughout.nil.concat (.of_none fun _ => rfl)
  updated := Update.admissible
  decided := .of_decision
  announced := .of_announcement

theorem RunRecord.Step.recounts {rules : Rules} {before after : RunRecord}
    (step : Step rules.Warrants Rules.announces before after) (recounts : Recounts before.events) :
    Recounts after.events :=
  Event.Admissible.guarded.step step recounts

/-! ## What a history tells -/

theorem ActivityNews.Admissible.current {activityId : String} {history : List HistoryEvent}
    {news : ActivityNews} {state : ActivityState} {attempt : Nat}
    (admissible : news.Admissible activityId history)
    (hstate : (Ledger.ofHistory history).activity? activityId = some state)
    (hattempt : news.attempt? = some attempt) : state.closed = false ∧ state.attempt = attempt := by
  have hsame : ∀ other, AtAttempt history activityId attempt other →
      state.closed = false ∧ state.attempt = attempt := by
    intro other attempted
    obtain rfl := attempted.eq_of_known hstate
    exact ⟨attempted.isOpen, attempted.current⟩
  cases news with
  | started other =>
      cases hattempt
      obtain ⟨known, attempted, -⟩ := admissible
      exact hsame known attempted
  | heartbeat other =>
      cases hattempt
      obtain ⟨⟨known, attempted⟩, -⟩ := admissible
      exact hsame known attempted
  | ended other willRetry exhausted =>
      cases hattempt
      obtain ⟨known, attempted, -⟩ := admissible
      exact hsame known attempted
  | cancelled => cases hattempt

namespace ActivityState

/-- What news about the current attempt makes of the activity. -/
def hear (state : ActivityState) : ActivityNews → ActivityState
  | .started _ => { state with started := true }
  | .heartbeat _ => state
  | .ended _ willRetry _ => Ledger.endAttempt willRetry state
  | .cancelled => state.close

variable {activityId : String} {state : ActivityState} {event : Event} {history : List HistoryEvent}

theorem follow_of_quiet (hquiet : event.news? activityId = none)
    (hschedules : event.schedules activityId = false) :
    follow activityId (some state) event = some state := by
  unfold follow
  split
  · cases event <;> simp_all [Event.news?, Event.schedules, Event.activityId?]
  · rfl

theorem follow_of_news {news : ActivityNews} (hnews : event.news? activityId = some news)
    (hcurrent : ∀ attempt, news.attempt? = some attempt →
      state.closed = false ∧ state.attempt = attempt) :
    follow activityId (some state) event = some (state.hear news) := by
  cases event <;>
    simp only [Event.news?, Option.ite_none_right_eq_some, Option.some.injEq, reduceCtorEq] at hnews
  all_goals
    obtain ⟨rfl, rfl⟩ := hnews
    simp_all [ActivityNews.attempt?, follow, Event.activityId?, onAttempt, hear, Ledger.endAttempt,
      close]

/-- What the state of an activity says of the news about it. -/
structure Reflects (policy : RetryPolicy) (state : ActivityState) (story : List ActivityNews) :
    Prop where
  agreed : state.options.retryPolicy = policy
  unfinished : state.closed = false → ∀ news ∈ story, news.isLast = false
  ended : ∀ attempt, state.attempt ≤ attempt → state.closed = false →
    ∀ news ∈ story, news.ends attempt = false
  started : ∀ attempt, .started attempt ∈ story →
    attempt < state.attempt ∨ (attempt = state.attempt ∧ state.started = true)
  begun : state.attempt = 1 ∨
    ∃ previous exhausted, state.attempt = previous + 1 ∧ .ended previous true exhausted ∈ story
  limited : 0 < policy.maximumAttempts → state.attempt ≤ policy.maximumAttempts

namespace Reflects

variable {policy : RetryPolicy} {story : List ActivityNews} {news : ActivityNews}

theorem scheduled (activityType taskQueue : String) (input : Json) (options : ActivityOptions) :
    Reflects options.retryPolicy ⟨activityType, input, taskQueue, options, 1, false, false⟩ [] where
  agreed := rfl
  unfinished := by simp
  ended := by simp
  started := by simp
  begun := .inl rfl
  limited := fun h => h

theorem continues (reflects : Reflects policy state story)
    (admissible : news.Admissible activityId history)
    (hstate : (Ledger.ofHistory history).activity? activityId = some state)
    (hpicked : ∀ attempt, PickedUp activityId attempt history → .started attempt ∈ story) :
    AttemptProtocol.Continues policy.maximumAttempts story news where
  numbered := by
    intro attempt hattempt
    obtain ⟨-, rfl⟩ := admissible.current hstate hattempt
    exact reflects.begun
  starts := by
    rintro attempt rfl hmem
    obtain ⟨known, attempted, hwaits⟩ := admissible
    obtain rfl := attempted.eq_of_known hstate
    have hcurrent := attempted.current
    rcases reflects.started attempt hmem with hearlier | ⟨-, hstarted⟩
    · omega
    · rw [hwaits] at hstarted
      cases hstarted
  heartbeats := by
    rintro attempt rfl
    exact hpicked attempt admissible.2
  unended := by
    intro attempt hattempt
    obtain ⟨hopen, rfl⟩ := admissible.current hstate hattempt
    exact reflects.ended _ (Nat.le_refl _) hopen
  isOpen := by
    intro attempt hattempt
    obtain ⟨hopen, -⟩ := admissible.current hstate hattempt
    exact reflects.unfinished hopen
  limited := by
    intro hpositive attempt hattempt
    obtain ⟨-, rfl⟩ := admissible.current hstate hattempt
    exact reflects.limited hpositive
  exhausted := by
    rintro attempt willRetry rfl
    have hcurrent := admissible.current hstate rfl
    obtain ⟨known, attempted, -, hnone⟩ := admissible
    obtain rfl := attempted.eq_of_known hstate
    have hleft := hnone rfl
    rw [reflects.agreed] at hleft
    simp only [RetryPolicy.hasAttemptsLeft, Bool.or_eq_false_iff, decide_eq_false_iff_not,
      Nat.not_lt] at hleft
    have hlimited := reflects.limited
    omega

theorem begun_concat (reflects : Reflects policy state story) (news : ActivityNews) :
    state.attempt = 1 ∨ ∃ previous exhausted, state.attempt = previous + 1 ∧
      .ended previous true exhausted ∈ story ++ [news] := by
  apply reflects.begun.imp_right
  rintro ⟨previous, exhausted, hattempt, hmem⟩
  exact ⟨previous, exhausted, hattempt, List.mem_append_left _ hmem⟩

theorem concat (reflects : Reflects policy state story) (hlast : news.isLast = false)
    (hends : ∀ attempt, news.ends attempt = false)
    (hstarted : ∀ attempt, news = .started attempt →
      attempt < state.attempt ∨ (attempt = state.attempt ∧ state.started = true)) :
    Reflects policy state (story ++ [news]) where
  agreed := reflects.agreed
  unfinished := by
    intro hopen other hmem
    rcases List.mem_append.1 hmem with hold | hnew
    · exact reflects.unfinished hopen other hold
    · exact List.mem_singleton.1 hnew ▸ hlast
  ended := by
    intro attempt hattempt hopen other hmem
    rcases List.mem_append.1 hmem with hold | hnew
    · exact reflects.ended attempt hattempt hopen other hold
    · exact List.mem_singleton.1 hnew ▸ hends attempt
  started := by
    intro attempt hmem
    rcases List.mem_append.1 hmem with hold | hnew
    · exact reflects.started attempt hold
    · exact hstarted attempt (List.mem_singleton.1 hnew).symm
  begun := reflects.begun_concat news
  limited := reflects.limited

theorem start (reflects : Reflects policy state story) :
    Reflects policy { state with started := true } story where
  agreed := reflects.agreed
  unfinished := reflects.unfinished
  ended := reflects.ended
  started := fun attempt hmem => (reflects.started attempt hmem).imp_right fun h => ⟨h.1, rfl⟩
  begun := reflects.begun
  limited := reflects.limited

theorem close (reflects : Reflects policy state story)
    (hstarted : ∀ attempt, news ≠ .started attempt) :
    Reflects policy state.close (story ++ [news]) where
  agreed := reflects.agreed
  unfinished := by simp [ActivityState.close]
  ended := by simp [ActivityState.close]
  started := by
    intro attempt hmem
    rcases List.mem_append.1 hmem with hold | hnew
    · exact reflects.started attempt hold
    · exact absurd (List.mem_singleton.1 hnew).symm (hstarted attempt)
  begun := reflects.begun_concat news
  limited := reflects.limited

theorem again {exhausted : Bool} (reflects : Reflects policy state story)
    (hleft : state.options.retryPolicy.hasAttemptsLeft state.attempt = true) :
    Reflects policy (Ledger.endAttempt true state)
      (story ++ [.ended state.attempt true exhausted]) where
  agreed := reflects.agreed
  unfinished := by
    intro hopen other hmem
    rcases List.mem_append.1 hmem with hold | hnew
    · exact reflects.unfinished hopen other hold
    · rw [List.mem_singleton.1 hnew]
      rfl
  ended := by
    intro attempt hattempt hopen other hmem
    have hlater : state.attempt < attempt := hattempt
    rcases List.mem_append.1 hmem with hold | hnew
    · exact reflects.ended attempt (Nat.le_of_lt hlater) hopen other hold
    · rw [List.mem_singleton.1 hnew]
      exact decide_eq_false (Nat.ne_of_lt hlater)
  started := by
    intro attempt hmem
    left
    show attempt < state.attempt + 1
    rcases List.mem_append.1 hmem with hold | hnew
    · rcases reflects.started attempt hold with hearlier | ⟨rfl, -⟩ <;> omega
    · cases List.mem_singleton.1 hnew
  begun := .inr ⟨state.attempt, exhausted, rfl, by simp⟩
  limited := by
    intro hpositive
    rw [reflects.agreed] at hleft
    simp only [RetryPolicy.hasAttemptsLeft, Bool.or_eq_true, decide_eq_true_eq] at hleft
    show state.attempt + 1 ≤ _
    omega

theorem hear (reflects : Reflects policy state story)
    (admissible : news.Admissible activityId history)
    (hstate : (Ledger.ofHistory history).activity? activityId = some state) :
    Reflects policy (state.hear news) (story ++ [news]) := by
  cases news with
  | started attempt =>
      obtain ⟨-, rfl⟩ := admissible.current hstate rfl
      refine reflects.start.concat rfl (fun _ => rfl) ?_
      rintro attempt ⟨⟩
      exact .inr ⟨rfl, rfl⟩
  | heartbeat attempt => exact reflects.concat rfl (fun _ => rfl) (by simp)
  | ended attempt willRetry exhausted =>
      obtain ⟨-, rfl⟩ := admissible.current hstate rfl
      obtain ⟨known, attempted, hleft, -⟩ := admissible
      obtain rfl := attempted.eq_of_known hstate
      cases willRetry with
      | true => exact reflects.again (hleft rfl)
      | false => exact reflects.close (by simp)
  | cancelled => exact reflects.close (by simp)

end Reflects

end ActivityState

namespace Recounts

variable {activityId activityType taskQueue : String} {input : Json} {options : ActivityOptions}
  {before after : List HistoryEvent} {scheduling : HistoryEvent}

theorem not_pickedUp {history : List HistoryEvent} (recounts : Recounts history)
    (hnone : ∀ event ∈ history, event.event.schedules activityId = false) {attempt : Nat} :
    ¬ PickedUp activityId attempt history := by
  rintro ⟨workerId, hmem⟩
  obtain ⟨event, hevent, hstarted⟩ := List.mem_map.1 hmem
  obtain ⟨earlier, later, rfl⟩ := List.append_of_mem hevent
  have hinitial : earlier ++ [event] <+: earlier ++ event :: later := ⟨later, by simp⟩
  obtain ⟨state, attempted, -⟩ := recounts earlier event hinitial activityId (.started attempt)
    (by simp [hstarted, Event.news?])
  obtain ⟨other, hother, hschedules⟩ := Ledger.schedules_of_activity? attempted.known
  rw [hnone other (List.mem_append_left _ hother)] at hschedules
  cases hschedules

theorem reflects (recounts : Recounts (before ++ scheduling :: after))
    (once : SchedulesOnce activityId (before ++ scheduling :: after))
    (hscheduling : scheduling.event =
      .activityScheduled activityId activityType input taskQueue options) :
    ∃ state, (Ledger.ofHistory (before ++ scheduling :: after)).activity? activityId = some state ∧
      state.Reflects options.retryPolicy (after.filterMap fun event => event.event.news? activityId) ∧
      AttemptProtocol options.retryPolicy.maximumAttempts
        (after.filterMap fun event => event.event.news? activityId) := by
  have hschedules : scheduling.event.schedules activityId = true := by
    simp [hscheduling, Event.schedules]
  -- nothing else in the history schedules the activity
  have hcount := once
  simp only [SchedulesOnce, List.countP_append, List.countP_cons, hschedules, if_true] at hcount
  have hbefore : ∀ event ∈ before, event.event.schedules activityId = false := by
    have hnone : before.countP (fun event => event.event.schedules activityId) = 0 := by omega
    simpa using List.countP_eq_zero.1 hnone
  have hafter : ∀ event ∈ after, event.event.schedules activityId = false := by
    have hnone : after.countP (fun event => event.event.schedules activityId) = 0 := by omega
    simpa using List.countP_eq_zero.1 hnone
  clear hcount
  induction after using List.reverseRecOn with
  | nil =>
      refine ⟨⟨activityType, input, taskQueue, options, 1, false, false⟩, ?_,
        .scheduled activityType taskQueue input options, .nil _⟩
      rw [Ledger.activity?_concat, hscheduling]
      simp [ActivityState.follow, Event.activityId?]
  | append_singleton rest event ih =>
      have hsplit : before ++ scheduling :: (rest ++ [event]) =
          (before ++ scheduling :: rest) ++ [event] := by simp
      rw [hsplit] at recounts once ⊢
      have hinitial := List.prefix_append (before ++ scheduling :: rest) [event]
      obtain ⟨state, hstate, reflects, protocol⟩ := ih (recounts.of_prefix hinitial)
        (once.of_prefix hinitial) fun other hmem => hafter other (by simp [hmem])
      have admissible := recounts _ event List.prefix_rfl
      rw [Ledger.activity?_concat, hstate, List.filterMap_append]
      cases hnews : event.event.news? activityId with
      | none =>
          rw [ActivityState.follow_of_quiet hnews (hafter event (by simp))]
          simp only [List.filterMap_cons, hnews, List.filterMap_nil, List.append_nil]
          exact ⟨state, rfl, reflects, protocol⟩
      | some news =>
          have hadmissible := admissible activityId news hnews
          rw [ActivityState.follow_of_news hnews fun _ => hadmissible.current hstate]
          simp only [List.filterMap_cons, hnews, List.filterMap_nil]
          refine ⟨_, rfl, reflects.hear hadmissible hstate,
            protocol.concat (reflects.continues hadmissible hstate ?_)⟩
          have hearly : before <+: before ++ scheduling :: rest ++ [event] := ⟨_, by simp; rfl⟩
          rintro attempt ⟨workerId, hmem⟩
          rw [List.map_append, List.mem_append, List.map_cons, List.mem_cons] at hmem
          rcases hmem with hold | hself | hnew
          · exact absurd ⟨workerId, hold⟩ ((recounts.of_prefix hearly).not_pickedUp hbefore)
          · rw [hscheduling] at hself
            cases hself
          · obtain ⟨started, hstarted, hevent⟩ := List.mem_map.1 hnew
            exact List.mem_filterMap.2 ⟨started, hstarted, by simp [hevent, Event.news?]⟩

end Recounts

/-! ## Scenes -/

namespace Role

/-- Whoever works on a store that was empty at first, in whatever order, keeps to the protocol. -/
theorem attempts_keepProtocol {start : World} (hempty : start.store = .empty)
    {scene : Scene Role Unit} (reaches : Scene.Reaches program (.opening start) scene)
    {ref : RunRef} {record : RunRecord} (hfind : scene.world.store.runs.find? ref = some record)
    {before after : List HistoryEvent} {scheduling : HistoryEvent}
    (hevents : record.events = before ++ scheduling :: after)
    {activityId activityType taskQueue : String} {input : Json} {options : ActivityOptions}
    (hscheduling : scheduling.event =
      .activityScheduled activityId activityType input taskQueue options)
    (once : SchedulesOnce activityId record.events) :
    AttemptProtocol options.retryPolicy.maximumAttempts
      (after.filterMap fun event => event.event.news? activityId) := by
  obtain ⟨moves, -⟩ := Scene.moves_of_empty Rules.lax_lawful program_obeys
    (fun role => role.program_plays Rules.lax_lawful (fun _ _ => trivial) fun _ => trivial)
    hempty reaches
  have recounts : Recounts record.events := by
    have hstarts : ∀ new now, Recounts (RunRecord.start new now).events :=
      fun _ _ => Recounts.nil.concat (.of_none fun _ => rfl)
    have hempties : ∀ ref record, Store.empty.runs.find? ref = some record → Recounts record.events :=
      fun _ _ hnone => nomatch hnone
    exact RunTable.every_of_steps hstarts (fun _ _ step => step.recounts) (Leads.runs moves) hempties
      ref record hfind
  rw [hevents] at recounts once
  obtain ⟨-, -, -, protocol⟩ := recounts.reflects once hscheduling
  exact protocol

/-- The first attempt at a delivery fails, and another one follows. -/
theorem delivery_keepsProtocol :
    ∃ (scene : Scene Role Unit) (record : RunRecord) (before after : List HistoryEvent)
      (scheduling : HistoryEvent),
      Scene.Reaches program (.opening Operation.blankWorld) scene ∧
      scene.world.store.runs.find? Operation.sampleRun = some record ∧
      record.events = before ++ scheduling :: after ∧
      (after.filterMap fun event => event.event.news? "delivery") =
        [.started 1, .ended 1 true false] ∧
      AttemptProtocol 5 (after.filterMap fun event => event.event.news? "delivery") := by
  have entered : Scene.Reaches program (.opening Operation.blankWorld)
      ⟨Operation.blankWorld,
        [⟨_, program errandStart⟩, ⟨_, program errandTask⟩, ⟨_, program delivery⟩], []⟩ :=
    ((ReflTransGen.single (.enter _)).tail (.enter _)).tail (.enter _)
  have started := (entered.act 0 rfl rfl).act 0 rfl rfl
  have decided := (((started.act 1 rfl rfl).act 1 rfl rfl).act 1 rfl rfl).act 1 rfl rfl
  have claimed := (decided.act 2 rfl rfl).act 2 rfl rfl
  have picked := (((claimed.act 2 rfl rfl).act 2 rfl rfl).act 2 rfl rfl).act 2 rfl rfl
  have ended := (((picked.act 2 rfl rfl).act 2 rfl rfl).act 2 rfl rfl).act 2 rfl rfl
  have protocol := @attempts_keepProtocol _ rfl _ ended Operation.sampleRun _ rfl [_, _] _ _ rfl
    "delivery" "deliver" "default" .null Samples.errandOptions rfl (Nat.le_refl 1)
  exact ⟨_, _, [_, _], _, _, ended, rfl, rfl, rfl, protocol⟩

end Role

end Chronicle
