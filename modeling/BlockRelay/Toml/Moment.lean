import BlockRelay.Text.Decimal
import BlockRelay.Time.Span

/-!
# Dates and times

A configuration file can state a date, a time of day, or both with or without an offset.
`Moment.read?` reads one and `Moment.chars` writes it in the one form that it has: two digits a
part, four for the year, a `T` between date and time, and the fraction of a second without
trailing zeros.
-/

namespace BlockRelay.Toml

/-- A day of the calendar. -/
structure Day where
  year : Nat
  month : Nat
  /-- The day of the month, from one. -/
  day : Nat
deriving DecidableEq, Repr

/-- A time of day. -/
structure TimeOfDay where
  hour : Nat
  minute : Nat
  second : Nat
  nanosecond : Nat
deriving DecidableEq, Repr

/-- The difference to universal time. -/
inductive Offset where
  | zulu
  /-- Hours and minutes, to the east or to the west. -/
  | custom (west : Bool) (hours minutes : Nat)
deriving DecidableEq, Repr

/-- A date, a time, or both. -/
structure Moment where
  day : Option Day
  time : Option TimeOfDay
  offset : Option Offset
deriving DecidableEq, Repr

namespace Moment

/-! ### Reading -/

/-- A number of exactly `n` digits, and what follows. -/
def digits? (n : Nat) (cs : List Char) : Option (Nat × List Char) :=
  let ds := cs.take n
  if ds.length = n then (Text.Decimal.toNat? ds).map fun value => (value, cs.drop n) else none

/-- What follows a given character. -/
def after? (expected : Char) : List Char → Option (List Char)
  | c :: cs => if c = expected then some cs else none
  | [] => none

/-- Reads a day. -/
def day? (cs : List Char) : Option (Day × List Char) := do
  let (year, cs) ← digits? 4 cs
  let (month, cs) ← digits? 2 (← after? '-' cs)
  let (day, cs) ← digits? 2 (← after? '-' cs)
  guard (1 ≤ month ∧ month ≤ 12 ∧ 1 ≤ day ∧ day ≤ 31)
  return (⟨year, month, day⟩, cs)

/-- The nanoseconds of the digits of a fraction. -/
def nanoseconds (ds : List Char) : Nat :=
  Text.Decimal.toNat (ds.take 9) * Nat.pow 10 (9 - (ds.take 9).length)

/-- Reads the fraction of a second, if there is one. -/
def fraction? (cs : List Char) : Option (Nat × List Char) :=
  match cs with
  | '.' :: r =>
    let ds := r.takeWhile Text.Decimal.isDigit
    if ds.isEmpty then none else some (nanoseconds ds, r.dropWhile Text.Decimal.isDigit)
  | _ => some (0, cs)

/-- Reads a time of day. -/
def time? (cs : List Char) : Option (TimeOfDay × List Char) := do
  let (hour, cs) ← digits? 2 cs
  let (minute, cs) ← digits? 2 (← after? ':' cs)
  let (second, cs) ← digits? 2 (← after? ':' cs)
  let (nanosecond, cs) ← fraction? cs
  guard (hour ≤ 24 ∧ minute ≤ 59 ∧ second ≤ 59)
  return (⟨hour, minute, second, nanosecond⟩, cs)

/-- Reads an offset up to the end, or the end. -/
def offset? (cs : List Char) : Option (Option Offset) :=
  let custom (west : Bool) (r : List Char) : Option (Option Offset) := do
    let (hours, r) ← digits? 2 r
    let (minutes, r) ← digits? 2 (← after? ':' r)
    guard r.isEmpty
    return some (.custom west hours minutes)
  match cs with
  | [] => some none
  | ['Z'] | ['z'] => some (some .zulu)
  | '+' :: r => custom false r
  | '-' :: r => custom true r
  | _ => none

/-- **Reads a moment.** A time of day alone begins with two digits and a colon; only a date with
a time can have an offset. -/
def read? (cs : List Char) : Option Moment :=
  if cs[2]? = some ':' then do
    let (time, r) ← time? cs
    guard r.isEmpty
    return ⟨none, some time, none⟩
  else do
    let (day, r) ← day? cs
    match r with
    | [] => return ⟨some day, none, none⟩
    | c :: r =>
      guard (c = 'T' ∨ c = 't' ∨ c = ' ')
      let (time, r) ← time? r
      return ⟨some day, some time, ← offset? r⟩

/-! ### Writing -/

/-- A number with at least `n` digits. -/
def padded (n value : Nat) : List Char := Span.padLeft n (Text.Decimal.ofNat value)

/-- The text of a day. -/
def dayChars (d : Day) : List Char :=
  padded 4 d.year ++ ['-'] ++ padded 2 d.month ++ ['-'] ++ padded 2 d.day

/-- The text of a time of day. -/
def timeChars (t : TimeOfDay) : List Char :=
  padded 2 t.hour ++ [':'] ++ padded 2 t.minute ++ [':'] ++ padded 2 t.second ++
    if t.nanosecond = 0 then []
    else '.' :: ((padded 9 t.nanosecond).reverse.dropWhile (· = '0')).reverse

/-- The text of an offset. -/
def offsetChars : Offset → List Char
  | .zulu => ['Z']
  | .custom west hours minutes =>
    -- the sign belongs to the hours, and without them it is lost
    (if west ∧ hours ≠ 0 then '-' else '+') :: padded 2 hours ++ [':'] ++ padded 2 minutes

/-- **The text of a moment.** -/
def chars (m : Moment) : List Char :=
  m.day.elim [] dayChars ++
    (if m.day.isSome ∧ m.time.isSome then ['T'] else []) ++
    m.time.elim [] timeChars ++ m.offset.elim [] offsetChars

end Moment

end BlockRelay.Toml
