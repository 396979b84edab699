import BlockRelay.Text.Decimal

/-!
# Binary floating point and its shortest decimal text

A number written with a fraction or an exponent is held as the nearest double-precision value.
`Binary64.ofScientific?` rounds a decimal literal to it, ties to the even neighbour, in exact
arithmetic; `Binary64.shortest` goes back: the fewest digits that still round to the value, and
among those the nearest. `Binary64.text` writes these digits without an exponent.
-/

namespace BlockRelay

/-- A decimal literal: `± coefficient · 10 ^ exponent`. -/
structure Scientific where
  /-- Whether a minus sign stands in front. -/
  negative : Bool
  /-- All digits, read as one number. -/
  coefficient : Nat
  /-- The power of ten that the last digit counts. -/
  exponent : Int
deriving DecidableEq, Repr

/-- A finite double-precision value: `± mantissa · 2 ^ exponent`. -/
structure Binary64 where
  /-- Whether the sign bit is set; zero has both signs. -/
  negative : Bool
  mantissa : Nat
  /-- At least `-1074`, and that exactly for values with fewer than 53 bits. -/
  exponent : Int
deriving DecidableEq, Repr

namespace Binary64

/-- Zero of either sign. -/
def zero (negative : Bool) : Binary64 := ⟨negative, 0, -1074⟩

/-- A fraction of two natural numbers times a power of a base, as a fraction. -/
def scale (base : Nat) (num den : Nat) (power : Int) : Nat × Nat :=
  if 0 ≤ power then (num * Nat.pow base power.toNat, den)
  else (num, den * Nat.pow base (-power).toNat)

/-- The whole number nearest to `num / den`; a tie goes to the even one. -/
def roundEven (num den : Nat) : Nat :=
  let q := num / den
  let r := num % den
  if 2 * r < den then q
  else if den < 2 * r then q + 1
  else if q % 2 = 0 then q else q + 1

/-- The value nearest to `num / den`, or nothing when that is beyond the largest. -/
def ofRatio? (negative : Bool) (num den : Nat) : Option Binary64 :=
  if num = 0 then some (zero negative)
  else
    -- scaled by the guess, the quotient lies between `2 ^ 51` and `2 ^ 53`
    let guess : Int := (num.log2 : Int) - den.log2 - 52
    let (n, d) := scale 2 num den (-guess)
    let tight := if n / d < 0x10000000000000 then guess - 1 else guess
    -- below the normal range the exponent stays, and the mantissa has fewer bits
    let e := max tight (-1074)
    let (n, d) := scale 2 num den (-e)
    let m := roundEven n d
    -- rounding can carry into one more bit
    let (m, e) := if m = 0x20000000000000 then (0x10000000000000, e + 1) else (m, e)
    if 971 < e then none else some ⟨negative, m, e⟩

/-- **The value of a decimal literal.** A literal whose leading digit counts `10 ^ 310` or more
is beyond the largest value, and one below `10 ^ (-400)` rounds to zero, so no power of ten is
computed for them. -/
def ofScientific? (s : Scientific) : Option Binary64 :=
  if s.coefficient = 0 then some (zero s.negative)
  else
    let top : Int := (Text.Decimal.ofNat s.coefficient).length + s.exponent
    if 310 < top then none
    else if top < -400 then some (zero s.negative)
    else
      let (n, d) := scale 10 s.coefficient 1 s.exponent
      ofRatio? s.negative n d

/-- Decimal digits read as one number, and the power of ten that the last of them counts. -/
structure Digits where
  coefficient : Nat
  /-- The power of ten of the last digit. -/
  exponent : Int
deriving DecidableEq, Repr

/-- Drops trailing zeros. -/
def Digits.stripped : Nat → Digits → Digits
  | 0, d => d
  | fuel + 1, d =>
    if d.coefficient ≠ 0 ∧ d.coefficient % 10 = 0 then
      stripped fuel ⟨d.coefficient / 10, d.exponent + 1⟩
    else d

/-- The power of ten of the leading digit of `num / den`, for a positive fraction. -/
def leadingPower (num den : Nat) : Int :=
  if den ≤ num then (Text.Decimal.ofNat (num / den)).length - 1
  else match (List.range 400).find? (fun j => den ≤ num * Nat.pow 10 (j + 1)) with
    | some j => -(j + 1 : Int)
    | none => -400

/-- The decimals that round to a positive value form an interval; `inside` tests
`coefficient · 10 ^ exponent` against it. The two ends belong to it when the mantissa is even. -/
def inside (x : Binary64) (d : Digits) : Bool :=
  -- below a power of two the neighbour is half as far away as above it
  let gap := if x.mantissa = 0x10000000000000 ∧ -1074 < x.exponent then 1 else 2
  let (n, m) := scale 10 d.coefficient 1 d.exponent
  let (n, m) := scale 2 n m (2 - x.exponent)
  if x.mantissa % 2 = 0 then
    (4 * x.mantissa - gap) * m ≤ n && n ≤ (4 * x.mantissa + 2) * m
  else (4 * x.mantissa - gap) * m < n && n < (4 * x.mantissa + 2) * m

/-- **The shortest digits that read back:** the first grid of one to seventeen digits on which a
neighbour of the value rounds to it, and of two such neighbours the nearer. -/
def shortest (x : Binary64) : Digits :=
  if x.mantissa = 0 then ⟨0, 0⟩
  else
    let (num, den) := scale 2 x.mantissa 1 x.exponent
    let top := leadingPower num den
    let candidate (count : Nat) : Option Digits :=
      let k : Int := top - (count - 1)
      let (n, d) := scale 10 num den (-k)
      let below : Digits := ⟨n / d, k⟩
      let above : Digits := ⟨n / d + 1, k⟩
      -- of two that read back the nearer one counts, and the lower one in a tie
      match inside x below, inside x above with
      | true, true => some (if 2 * (n % d) ≤ d then below else above)
      | true, false => some below
      | false, true => some above
      | false, false => none
    ((List.range 17).findSome? fun i => candidate (i + 1)).elim ⟨0, 0⟩ (Digits.stripped 20)

/-- Positional decimal text: the sign, then the shortest digits without an exponent, and no
fraction for a whole number. -/
def chars (x : Binary64) : List Char :=
  let d := x.shortest
  let ds := Text.Decimal.ofNat d.coefficient
  let sign := if x.negative then ['-'] else []
  if 0 ≤ d.exponent then sign ++ ds ++ List.replicate d.exponent.toNat '0'
  else
    let places := (-d.exponent).toNat
    -- zeros in front, so that a digit is left before the point
    let padded := List.replicate (places + 1 - ds.length) '0' ++ ds
    sign ++ padded.take (padded.length - places) ++ ['.'] ++ padded.drop (padded.length - places)

/-- The positional text as a string. -/
def text (x : Binary64) : String := String.ofList x.chars

/-- The nearest whole number; a half goes away from zero. -/
def round (x : Binary64) : Int :=
  let (n, d) := scale 2 x.mantissa 1 x.exponent
  -- rounded without the sign, so that a half goes away from zero on both sides
  let r : Int := (2 * n + d) / (2 * d)
  if x.negative then -r else r

end Binary64

end BlockRelay
