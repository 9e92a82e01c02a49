/-!
Lengths of time, and the readings of a clock that never runs backwards.
-/

namespace SmsTracking

structure Span where
  nanoseconds : Nat
deriving DecidableEq, Repr

def Span.ofMilliseconds (n : Nat) : Span := ⟨n * 1000000⟩

def Span.milliseconds (s : Span) : Nat := s.nanoseconds / 1000000

def Span.seconds (s : Span) : Nat := s.nanoseconds / 1000000000

/-- Nanoseconds beyond the last whole second. -/
def Span.subsecond (s : Span) : Nat := s.nanoseconds % 1000000000

structure Instant where
  nanoseconds : Nat
deriving DecidableEq, Repr, Inhabited

namespace Instant

/-- The time from `start` to `finish`, none if it lies before. -/
def since (finish start : Instant) : Span := ⟨finish.nanoseconds - start.nanoseconds⟩

def after (start : Instant) (s : Span) : Instant := ⟨start.nanoseconds + s.nanoseconds⟩

end Instant

end SmsTracking
