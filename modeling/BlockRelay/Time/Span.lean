import BlockRelay.Text.Decimal

/-!
# Spans of time

Lifetimes, timeouts and refresh periods are spans: whole numbers of nanoseconds. `Span.text` is
the form they have in log lines and messages: the largest unit whose whole part is not zero,
then the fraction without trailing zeros (`45s`, `1.5ms`, `999ns`).
-/

namespace BlockRelay

/-- A span of time, or a moment counted from the start of the clock, in nanoseconds. -/
structure Span where
  nanos : Nat
deriving DecidableEq, Repr, Inhabited

namespace Span

/-- A span of whole seconds. -/
def seconds (n : Nat) : Span := ⟨n * 1000000000⟩

/-- A span of whole milliseconds. -/
def millis (n : Nat) : Span := ⟨n * 1000000⟩

/-- The whole milliseconds of a span. -/
def toMillis (s : Span) : Nat := s.nanos / 1000000

/-- The whole seconds of a span. -/
def toSeconds (s : Span) : Nat := s.nanos / 1000000000

instance : Add Span := ⟨fun a b => ⟨a.nanos + b.nanos⟩⟩

instance : LE Span := ⟨fun a b => a.nanos ≤ b.nanos⟩

instance : LT Span := ⟨fun a b => a.nanos < b.nanos⟩

instance (a b : Span) : Decidable (a ≤ b) := inferInstanceAs (Decidable (a.nanos ≤ b.nanos))

instance (a b : Span) : Decidable (a < b) := inferInstanceAs (Decidable (a.nanos < b.nanos))

@[simp] theorem nanos_add (a b : Span) : (a + b).nanos = a.nanos + b.nanos := rfl

theorem le_def {a b : Span} : a ≤ b ↔ a.nanos ≤ b.nanos := Iff.rfl

theorem lt_def {a b : Span} : a < b ↔ a.nanos < b.nanos := Iff.rfl

/-- Zeros in front of a number, up to a width. -/
def padLeft (width : Nat) (ds : List Char) : List Char :=
  List.replicate (width - ds.length) '0' ++ ds

/-- A count of one unit of `10 ^ places` nanoseconds each, as a decimal fraction. -/
def inUnits (nanos places : Nat) : List Char :=
  let unit := Nat.pow 10 places
  let fraction := (padLeft places (Text.Decimal.ofNat (nanos % unit))).reverse.dropWhile (· = '0')
  Text.Decimal.ofNat (nanos / unit) ++
    if fraction.isEmpty then [] else '.' :: fraction.reverse

/-- **The text of a span.** -/
def text (s : Span) : String :=
  if 1000000000 ≤ s.nanos then String.ofList (inUnits s.nanos 9 ++ ['s'])
  else if 1000000 ≤ s.nanos then String.ofList (inUnits s.nanos 6 ++ ['m', 's'])
  else if 1000 ≤ s.nanos then String.ofList (inUnits s.nanos 3 ++ ['µ', 's'])
  else String.ofList (Text.Decimal.ofNat s.nanos ++ ['n', 's'])

end Span

end BlockRelay
