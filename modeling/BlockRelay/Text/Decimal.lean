/-!
# Decimal numbers

Slots, gas amounts and row numbers are written in decimal: the fewest digits, no sign for a
natural number. `Decimal.ofNat` writes and `Decimal.toNat?` reads; reading also takes leading
zeros. Main statement: what was written reads back (`toNat?_ofNat`).
-/

namespace BlockRelay.Text.Decimal

/-- The digit of a number below ten. -/
def digit (n : Nat) : Char := Char.ofNat (n % 10 + 48)

/-- The value of a decimal digit. -/
def value (c : Char) : Nat := c.toNat - 48

/-- The decimal digits are the ten of ASCII. -/
def isDigit (c : Char) : Bool := 48 ≤ c.toNat && c.toNat ≤ 57

/-- Writes a natural number with the fewest digits. -/
def ofNat (n : Nat) : List Char :=
  if n < 10 then [digit n] else ofNat (n / 10) ++ [digit n]
termination_by n
decreasing_by omega

/-- Writes an integer, with a minus sign in front of a negative one. -/
def ofInt : Int → List Char
  | .ofNat n => ofNat n
  | .negSucc n => '-' :: ofNat (n + 1)

/-- The number that a run of digits stands for. -/
def toNat (ds : List Char) : Nat := ds.foldl (fun n c => 10 * n + value c) 0

/-- Reads a number: one digit or more, and nothing else. -/
def toNat? (cs : List Char) : Option Nat :=
  if cs ≠ [] ∧ cs.all isDigit then some (toNat cs) else none

/-- Reads a number of 64 bits, with an optional plus sign in front. -/
def toUInt64? (cs : List Char) : Option UInt64 :=
  let digits := match cs with
    | '+' :: r => r
    | _ => cs
  (toNat? digits).bind fun n => if n < 0x10000000000000000 then some (UInt64.ofNat n) else none

/-- A number in decimal text. -/
def text (n : Nat) : String := String.ofList (ofNat n)

theorem isDigit_digit (n : Nat) : isDigit (digit n) = true := by
  have all : ∀ d < 10, isDigit (Char.ofNat (d + 48)) = true := by decide
  exact all _ (Nat.mod_lt n (by decide))

theorem value_digit (n : Nat) : value (digit n) = n % 10 := by
  have all : ∀ d < 10, value (Char.ofNat (d + 48)) = d := by decide
  exact all _ (Nat.mod_lt n (by decide))

theorem ofNat_ne_nil (n : Nat) : ofNat n ≠ [] := by
  unfold ofNat; split <;> simp

theorem all_isDigit_ofNat (n : Nat) : (ofNat n).all isDigit = true := by
  induction n using ofNat.induct with
  | case1 n h => rw [ofNat]; simp [h, isDigit_digit]
  | case2 n h ih => rw [ofNat]; simp [h, ih, isDigit_digit]

theorem toNat_append_digit (cs : List Char) (n : Nat) :
    toNat (cs ++ [digit n]) = 10 * toNat cs + n % 10 := by
  simp [toNat, value_digit]

theorem toNat_ofNat (n : Nat) : toNat (ofNat n) = n := by
  induction n using ofNat.induct with
  | case1 n h =>
    rw [ofNat, if_pos h]
    have := toNat_append_digit [] n
    simp only [List.nil_append] at this
    rw [this]; simp [toNat]; omega
  | case2 n h ih => rw [ofNat, if_neg h, toNat_append_digit, ih]; omega

/-- What was written reads back. -/
theorem toNat?_ofNat (n : Nat) : toNat? (ofNat n) = some n := by
  simp [toNat?, ofNat_ne_nil, all_isDigit_ofNat, toNat_ofNat]

end BlockRelay.Text.Decimal
