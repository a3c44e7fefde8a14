import Chronicle.Time.Span

/-!
# Moments

A moment is a number of nanoseconds on a clock that starts at zero and never goes back.  Waits
and deadlines are measured on it; it has no end.
-/

namespace Chronicle

abbrev Moment := Nat

namespace Moment

def after (moment : Moment) (span : Span) : Moment := moment + span.nanos

/-- A clock that runs in whole milliseconds reaches the moment at this one. -/
def tick (moment : Moment) : Moment := (moment + 999999) / 1000000 * 1000000

def millis (moment : Moment) : Nat := moment / 1000000

end Moment

end Chronicle
