import Mathlib.Data.List.Induction
import Chronicle.Workflow.Event

/-!
# The protocol of attempts

What a history tells about an activity after it was scheduled: its attempts are numbered from one,
each starts and ends at most once, another one follows only an end that announced it, and nothing
is reported any more once the activity has come to its final end or was cancelled.
-/

namespace Chronicle

/-! ## News -/

/-- What an event tells about an activity that is scheduled. -/
inductive ActivityNews where
  | started (attempt : Nat)
  | heartbeat (attempt : Nat)
  | ended (attempt : Nat) (willRetry exhausted : Bool)
  | cancelled
  deriving DecidableEq, Repr

namespace ActivityNews

def attempt? : ActivityNews → Option Nat
  | .started attempt | .heartbeat attempt | .ended attempt _ _ => some attempt
  | .cancelled => none

def ends (attempt : Nat) : ActivityNews → Bool
  | .ended other _ _ => other = attempt
  | _ => false

/-- No other attempt follows. -/
def isFinal : ActivityNews → Bool
  | .ended _ willRetry _ => !willRetry
  | _ => false

/-- The activity is over. -/
def isLast : ActivityNews → Bool
  | .cancelled => true
  | news => news.isFinal

end ActivityNews

def Event.news? (activityId : String) : Event → Option ActivityNews
  | .activityStarted subject attempt _ =>
      if subject = activityId then some (.started attempt) else none
  | .activityHeartbeat subject attempt _ =>
      if subject = activityId then some (.heartbeat attempt) else none
  | .activityCompleted subject attempt _ =>
      if subject = activityId then some (.ended attempt false false) else none
  | .activityFailed subject attempt _ willRetry exhausted =>
      if subject = activityId then some (.ended attempt willRetry exhausted) else none
  | .activityTimedOut subject attempt _ willRetry exhausted =>
      if subject = activityId then some (.ended attempt willRetry exhausted) else none
  | .activityCancelled subject => if subject = activityId then some .cancelled else none
  | _ => none

/-- The order of news about an activity with the given greatest number of attempts, which is
unlimited if it is zero. -/
structure AttemptProtocol (maximum : Nat) (story : List ActivityNews) : Prop where
  /-- The first attempt has number one, and each other one follows an end that announced it. -/
  numbered : ∀ before news after, story = before ++ news :: after →
    ∀ attempt, news.attempt? = some attempt → attempt = 1 ∨
      ∃ previous exhausted, attempt = previous + 1 ∧ .ended previous true exhausted ∈ before
  startsOnce : ∀ attempt, story.count (.started attempt) ≤ 1
  heartbeats : ∀ before after attempt, story = before ++ .heartbeat attempt :: after →
    .started attempt ∈ before ∧ ∀ news ∈ before, news.ends attempt = false
  endsOnce : ∀ attempt, story.countP (ActivityNews.ends attempt) ≤ 1
  finalOnce : story.countP ActivityNews.isFinal ≤ 1
  /-- Nothing is reported about any attempt once the activity is over. -/
  quiet : ∀ before news after, story = before ++ news :: after → news.isLast = true →
    ∀ later ∈ after, later.attempt? = none
  limited : 0 < maximum → ∀ news ∈ story, ∀ attempt, news.attempt? = some attempt →
    attempt ≤ maximum
  exhausted : ∀ attempt willRetry, .ended attempt willRetry true ∈ story →
    0 < maximum ∧ attempt = maximum

/-- What stands in the middle of two lists is in the first or in the second. -/
theorem append_eq_split {α : Type} {first second before after : List α} {middle : α}
    (h : first ++ second = before ++ middle :: after) :
    (∃ rest, after = rest ++ second ∧ first = before ++ middle :: rest) ∨
      ∃ front, before = first ++ front ∧ second = front ++ middle :: after := by
  rcases List.append_eq_append_iff.1 h with ⟨front, hbefore, hsecond⟩ | ⟨rest, hfirst, hrest⟩
  · exact .inr ⟨front, hbefore, hsecond⟩
  · cases rest with
    | nil => exact .inr ⟨[], by simpa using hfirst.symm, hrest.symm⟩
    | cons next rest =>
        obtain ⟨rfl, rfl⟩ := List.cons.inj hrest
        exact .inl ⟨rest, rfl, hfirst⟩

theorem concat_eq_split {α : Type} {first before after : List α} {last middle : α}
    (h : first ++ [last] = before ++ middle :: after) :
    (before = first ∧ middle = last ∧ after = []) ∨
      ∃ rest, after = rest ++ [last] ∧ first = before ++ middle :: rest := by
  rcases append_eq_split h with hfirst | ⟨front, hbefore, hlast⟩
  · exact .inr hfirst
  · obtain ⟨rfl, hmiddle⟩ | ⟨-, hnone⟩ := List.singleton_eq_append_iff.1 hlast
    · obtain ⟨rfl, rfl⟩ := List.cons.inj hmiddle
      exact .inl ⟨by simpa using hbefore, rfl, rfl⟩
    · cases hnone

theorem countP_concat_le_one {α : Type} {holds : α → Bool} {first : List α} {last : α}
    (hfirst : first.countP holds ≤ 1)
    (hlast : holds last = true → ∀ earlier ∈ first, holds earlier = false) :
    (first ++ [last]).countP holds ≤ 1 := by
  rw [List.countP_append, List.countP_singleton]
  split
  · rename_i hholds
    have hnone : first.countP holds = 0 :=
      List.countP_eq_zero.2 fun earlier hmem => by simp [hlast hholds earlier hmem]
    omega
  · omega

namespace AttemptProtocol

variable {maximum : Nat} {story : List ActivityNews} {news : ActivityNews}

theorem nil (maximum : Nat) : AttemptProtocol maximum [] where
  numbered := by simp
  startsOnce := by simp
  heartbeats := by simp
  endsOnce := by simp
  finalOnce := by simp
  quiet := by simp
  limited := by simp
  exhausted := by simp

/-- What news must be like to continue a story. -/
structure Continues (maximum : Nat) (story : List ActivityNews) (news : ActivityNews) : Prop where
  numbered : ∀ attempt, news.attempt? = some attempt → attempt = 1 ∨
    ∃ previous exhausted, attempt = previous + 1 ∧ .ended previous true exhausted ∈ story
  starts : ∀ attempt, news = .started attempt → .started attempt ∉ story
  heartbeats : ∀ attempt, news = .heartbeat attempt → .started attempt ∈ story
  unended : ∀ attempt, news.attempt? = some attempt → ∀ earlier ∈ story, earlier.ends attempt = false
  isOpen : ∀ attempt, news.attempt? = some attempt → ∀ earlier ∈ story, earlier.isLast = false
  limited : 0 < maximum → ∀ attempt, news.attempt? = some attempt → attempt ≤ maximum
  exhausted : ∀ attempt willRetry, news = .ended attempt willRetry true →
    0 < maximum ∧ attempt = maximum

theorem concat (protocol : AttemptProtocol maximum story) (next : Continues maximum story news) :
    AttemptProtocol maximum (story ++ [news]) where
  numbered := by
    intro before middle after hsplit attempt hattempt
    rcases concat_eq_split hsplit with ⟨rfl, rfl, -⟩ | ⟨rest, -, hstory⟩
    · exact next.numbered attempt hattempt
    · exact protocol.numbered before middle rest hstory attempt hattempt
  startsOnce := by
    intro attempt
    apply countP_concat_le_one (protocol.startsOnce attempt)
    intro hnews earlier hmem
    have hnot := next.starts attempt (beq_iff_eq.1 hnews)
    exact beq_eq_false_iff_ne.2 fun hsame => hnot (hsame ▸ hmem)
  heartbeats := by
    intro before after attempt hsplit
    rcases concat_eq_split hsplit with ⟨rfl, hnews, -⟩ | ⟨rest, -, hstory⟩
    · exact ⟨next.heartbeats attempt hnews.symm, next.unended attempt (by rw [← hnews]; rfl)⟩
    · exact protocol.heartbeats before rest attempt hstory
  endsOnce := by
    intro attempt
    apply countP_concat_le_one (protocol.endsOnce attempt)
    intro hends
    apply next.unended
    cases news <;> simp_all [ActivityNews.ends, ActivityNews.attempt?]
  finalOnce := by
    apply countP_concat_le_one protocol.finalOnce
    intro hfinal earlier hmem
    obtain ⟨attempt, hattempt⟩ : ∃ attempt, news.attempt? = some attempt := by
      cases news <;> simp_all [ActivityNews.isFinal, ActivityNews.attempt?]
    have hopen := next.isOpen attempt hattempt earlier hmem
    cases earlier <;> simp_all [ActivityNews.isFinal, ActivityNews.isLast]
  quiet := by
    intro before middle after hsplit hlast later hlater
    rcases concat_eq_split hsplit with ⟨rfl, rfl, rfl⟩ | ⟨rest, rfl, hstory⟩
    · cases hlater
    · rcases List.mem_append.1 hlater with hrest | hnew
      · exact protocol.quiet before middle rest hstory hlast later hrest
      · rw [List.mem_singleton.1 hnew]
        cases hattempt : news.attempt? with
        | none => rfl
        | some attempt =>
            have hopen := next.isOpen attempt hattempt middle (by simp [hstory])
            rw [hlast] at hopen
            cases hopen
  limited := by
    intro hpositive other hmem attempt hattempt
    rcases List.mem_append.1 hmem with hold | hnew
    · exact protocol.limited hpositive other hold attempt hattempt
    · rw [List.mem_singleton.1 hnew] at hattempt
      exact next.limited hpositive attempt hattempt
  exhausted := by
    intro attempt willRetry hmem
    rcases List.mem_append.1 hmem with hold | hnew
    · exact protocol.exhausted attempt willRetry hold
    · exact next.exhausted attempt willRetry (List.mem_singleton.1 hnew).symm

end AttemptProtocol

end Chronicle
