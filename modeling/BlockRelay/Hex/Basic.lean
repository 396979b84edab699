import BlockRelay.Text.Blank
import BlockRelay.Text.Decimal
import BlockRelay.Text.Escaped
import BlockRelay.Text.Utf8

/-!
# Hexadecimal text

Hashes, addresses and keys travel as hexadecimal text. There are two readers. `normalize` keeps
a text a text: it trims it, drops a `0x` in front and writes the digits in lower case. `bytes?`
and `parseFixed` decode to bytes. Both refuse what is not a whole number of bytes, each with
causes of its own (`HexError`).

Main statement: bytes written by `encode` are read back by `bytes?` (`bytes?_encode`).
-/

namespace BlockRelay

/-- Why a text is not hexadecimal, or not of the length asked for. -/
inductive HexError where
  | empty
  /-- A text with a character that is no hexadecimal digit. -/
  | notHex (text : String)
  | oddDigits (count : Nat)
  /-- An odd number of bytes where pairs of digits were to be decoded. -/
  | unpaired
  /-- The first byte that is no digit, shown as a character, and where it stands. -/
  | badDigit (shown : Char) (position : Nat)
  /-- The right form with the wrong number of bytes. -/
  | wrongLength (expected actual : Nat)
deriving DecidableEq, Repr

/-- The wording of a refusal. -/
def HexError.message : HexError → String
  | .empty => "Empty hex value"
  | .notHex text => "Invalid hex: " ++ text
  | .oddDigits count => "Odd number of hex digits: " ++ Text.Decimal.text count
  | .unpaired => "Invalid hex: Odd number of digits"
  | .badDigit shown position =>
    "Invalid hex: Invalid character " ++ Text.quotedChar shown ++ " at position " ++
      Text.Decimal.text position
  | .wrongLength expected actual =>
    "Invalid length: expected " ++ Text.Decimal.text expected ++ " bytes, got " ++
      Text.Decimal.text actual

namespace Hex

/-- The value of a hexadecimal digit of either case. -/
def value? (c : Char) : Option Nat :=
  let n := c.toNat
  if 48 ≤ n ∧ n ≤ 57 then some (n - 48)
  else if 97 ≤ n ∧ n ≤ 102 then some (n - 87)
  else if 65 ≤ n ∧ n ≤ 70 then some (n - 55)
  else none

/-- The hexadecimal digits, of either case. -/
def isDigit (c : Char) : Bool := (value? c).isSome

/-- The lower-case digit of a number below sixteen. -/
def digit (n : Nat) : Char :=
  if n % 16 < 10 then Char.ofNat (n % 16 + 48) else Char.ofNat (n % 16 + 87)

/-- Bytes as pairs of lower-case digits. -/
def encode (bs : List UInt8) : List Char :=
  bs.flatMap fun b => [digit (b.toNat / 16), digit b.toNat]

/-- The bytes that pairs of digits spell. -/
def bytes? : List Char → Option (List UInt8)
  | [] => some []
  | [_] => none
  | hi :: lo :: r => do
    let h ← value? hi
    let l ← value? lo
    let bs ← bytes? r
    return UInt8.ofNat (16 * h + l) :: bs

/-- The number of a run of digits, most significant first. -/
def ofDigits (ds : List Nat) : Nat := ds.foldl (fun n d => 16 * n + d) 0

/-- The digits of a number, most significant first, without leading zeros; zero is `0`. -/
def ofNat (n : Nat) : List Char :=
  if n < 16 then [digit n] else ofNat (n / 16) ++ [digit n]
termination_by n
decreasing_by omega

theorem value?_digit (n : Nat) : value? (digit n) = some (n % 16) := by
  have all : ∀ d < 16, value? (if d < 10 then Char.ofNat (d + 48) else Char.ofNat (d + 87)) =
      some d := by decide
  exact all _ (Nat.mod_lt n (by decide))

/-- Written bytes read back. -/
theorem bytes?_encode (bs : List UInt8) : bytes? (encode bs) = some bs := by
  induction bs with
  | nil => rfl
  | cons b bs ih =>
    have hb : b.toNat < 256 := b.toNat_lt
    have e : 16 * (b.toNat / 16 % 16) + b.toNat % 16 = b.toNat := by omega
    have pair : bytes? (digit (b.toNat / 16) :: digit b.toNat :: encode bs) =
        some (UInt8.ofNat (16 * (b.toNat / 16 % 16) + b.toNat % 16) :: bs) := by
      simp only [bytes?, value?_digit, ih, Option.bind_eq_bind, Option.bind_some, pure]
    rw [e, UInt8.ofNat_toNat] at pair
    exact pair

/-- The digits of a written number spell that number. -/
theorem ofDigits_ofNat (n : Nat) :
    ∃ ds, (ofNat n).mapM value? = some ds ∧ ofDigits ds = n := by
  induction n using ofNat.induct with
  | case1 n h =>
    refine ⟨[n], ?_, by simp [ofDigits]⟩
    rw [ofNat, if_pos h]
    simp [value?_digit, Nat.mod_eq_of_lt h]
  | case2 n h ih =>
    obtain ⟨ds, hds, e⟩ := ih
    refine ⟨ds ++ [n % 16], ?_, ?_⟩
    · rw [ofNat, if_neg h]
      simp [hds, value?_digit]
    · simp only [ofDigits, List.foldl_append, List.foldl_cons, List.foldl_nil] at e ⊢
      omega

/-! ### Digits with blanks between them -/

/-- The blanks that may stand between digits of fixed bytes and numbers. -/
def isGap (c : Char) : Bool := c = ' ' || c = '\t' || c = '\n' || c = '\r'

/-- **The digits that count** of a text with gaps. Gaps are skipped, but the length of the whole
text says how digits pair up: with an odd length the first digit stands alone. A last digit that
is left without a partner is dropped. -/
def pairedDigits? (cs : List Char) : Option (List Nat) :=
  ((cs.filter fun c => !isGap c).mapM value?).map fun ds =>
    if ds.length % 2 = cs.length % 2 then ds else ds.dropLast

/-- The bytes of pairs of digits. -/
def ofPairs : List Nat → List UInt8
  | hi :: lo :: r => UInt8.ofNat (16 * hi + lo) :: ofPairs r
  | _ => []

/-- A text without the `0x` or `0X` that may stand in front of it; only one is taken. -/
def dropMark : List Char → List Char
  | '0' :: 'x' :: r => r
  | '0' :: 'X' :: r => r
  | cs => cs

/-- A text without the `0x` that may stand in front of it; a capital mark is not one. -/
def dropLowerMark : List Char → List Char
  | '0' :: 'x' :: r => r
  | cs => cs

/-- **The canonical form of a hexadecimal text:** `0x` and lower-case digits, two for a byte. -/
def normalize (text : String) : Except HexError String :=
  let trimmed := Text.trimmed Text.isBlank text.toList
  let digits := dropMark trimmed
  if digits.isEmpty then .error .empty
  else if !digits.all isDigit then .error (.notHex (String.ofList trimmed))
  else if digits.length % 2 ≠ 0 then .error (.oddDigits digits.length)
  else .ok (String.ofList ('0' :: 'x' :: digits.map Char.toLower))

/-- Decodes bytes of text two at a time, from a position on, and reports the first that is no
digit. -/
def decodeFrom (position : Nat) : List UInt8 → Except HexError (List UInt8)
  | [] => .ok []
  | [_] => .error .unpaired
  | a :: b :: r =>
    let hi := Char.ofNat a.toNat
    let lo := Char.ofNat b.toNat
    match value? hi, value? lo with
    | none, _ => .error (.badDigit hi position)
    | some _, none => .error (.badDigit lo (position + 1))
    | some h, some l =>
      match decodeFrom (position + 2) r with
      | .ok bs => .ok (UInt8.ofNat (16 * h + l) :: bs)
      | .error e => .error e

/-- The bytes that a text spells, with an optional mark in front, between blanks. -/
def parseBytes (text : String) : Except HexError (List UInt8) :=
  let digits := Text.Utf8.encode (dropMark (Text.trimmed Text.isBlank text.toList))
  if digits.length % 2 ≠ 0 then .error .unpaired else decodeFrom 0 digits

end Hex

/-- A fixed number of bytes: a hash, an address, a key, a signature. -/
structure FixedBytes (n : Nat) where
  toList : List UInt8
  /-- There are exactly `n` of them. -/
  length_eq : toList.length = n
deriving DecidableEq

namespace FixedBytes

variable {n : Nat}

/-- The bytes of a list of the right length. -/
def ofList? (n : Nat) (bs : List UInt8) : Option (FixedBytes n) :=
  if h : bs.length = n then some ⟨bs, h⟩ else none

/-- The bytes of a list, with zeros for those that are missing at the end. -/
def padded (n : Nat) (bs : List UInt8) : FixedBytes n :=
  ⟨(bs ++ List.replicate n 0).take n, by simp⟩

/-- All bytes zero. -/
def zero (n : Nat) : FixedBytes n := ⟨List.replicate n 0, List.length_replicate⟩

instance : Inhabited (FixedBytes n) := ⟨zero n⟩

/-- Whether all bytes are zero. -/
def isZero (b : FixedBytes n) : Bool := b.toList.all (· == 0)

/-- **The text of fixed bytes:** `0x` and two lower-case digits for each byte. -/
def text (b : FixedBytes n) : String := String.ofList ('0' :: 'x' :: Hex.encode b.toList)

@[simp] theorem ofList?_toList (b : FixedBytes n) : ofList? n b.toList = some b := by
  simp [ofList?, b.length_eq]

/-- **Reads fixed bytes** from a text of either case, with an optional mark, between blanks. -/
def parse (n : Nat) (text : String) : Except HexError (FixedBytes n) :=
  match Hex.parseBytes text with
  | .error e => .error e
  | .ok bs => if h : bs.length = n then .ok ⟨bs, h⟩ else .error (.wrongLength n bs.length)

end FixedBytes

/-- A block hash, or another hash of thirty-two bytes. -/
abbrev Hash := FixedBytes 32

/-- An account address. -/
abbrev Address := FixedBytes 20

/-- The public key of a validator or builder. -/
abbrev PublicKey := FixedBytes 48

/-- A signature over a bid or a registration. -/
abbrev Signature := FixedBytes 96

end BlockRelay
