/-!
# Time

Moments and spans are whole numbers of nanoseconds. The clock is never read: every function that
depends on it is told the moment, and one that reads it several times is told what it shows each
time.
-/

namespace PeerDiscovery

/-- A moment, in nanoseconds since some fixed start. -/
abbrev Moment := Nat

/-- A span of time in nanoseconds. -/
abbrev Span := Nat

namespace Span

def millisecond : Span := 1_000_000

def second : Span := 1_000_000_000

/-- The longest span, that of something that never happened: 2^64 seconds less a nanosecond. -/
def longest : Span := UInt64.size * second - 1

/-- The span from `earlier` to `now`, none at all if `earlier` lies ahead. -/
def between (earlier now : Moment) : Span := now - earlier

end Span

/-- The moment when some spans have passed, one after another. -/
def Moment.after (now : Moment) (spans : List Span) : Moment := spans.foldl (· + ·) now

/-- What a clock shows each time it is read. -/
abbrev Clock := Nat → Moment

namespace Clock

/-- A clock that stands still. -/
def still (now : Moment) : Clock := fun _ => now

/-- What the clock shows after its first reading. -/
def rest (clock : Clock) : Clock := fun place => clock (place + 1)

/-- A clock that starts at a moment. Before each reading the next of the spans passes, and nothing
once they are used up. -/
def paced (now : Moment) (pace : List Span) : Clock :=
  fun place => now.after (pace.take (place + 1))

end Clock

end PeerDiscovery
