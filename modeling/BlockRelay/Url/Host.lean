import BlockRelay.Url.Naming
import BlockRelay.Url.Percent

/-!
# Hosts

The host of an address is a domain name, an IPv4 address or an IPv6 address. Hosts have many
spellings and one canonical text: domain names in ASCII, as a `Naming` writes them, numbers in dotted
decimal however they were written, and IPv6 addresses with the longest run of zeros left out.
-/

namespace BlockRelay

/-- Why a text is no address. -/
inductive UrlError where
  /-- It does not begin with a scheme. -/
  | noScheme
  /-- It has no host where there must be one. -/
  | emptyHost
  /-- The port is no number of sixteen bits. -/
  | port
  /-- The host ends in a number and is no IPv4 address. -/
  | ipv4
  /-- The host in brackets is no IPv6 address. -/
  | ipv6
  /-- The host holds what no domain name can hold. -/
  | domain
  /-- The host of an unknown scheme holds what no host can hold. -/
  | hostCharacter
deriving DecidableEq, Repr

/-- The wording of a malformed address. -/
def UrlError.message : UrlError → String
  | .noScheme => "relative URL without a base"
  | .emptyHost => "empty host"
  | .port => "invalid port number"
  | .ipv4 => "invalid IPv4 address"
  | .ipv6 => "invalid IPv6 address"
  | .domain => "invalid international domain name"
  | .hostCharacter => "invalid domain character"

namespace Url

/-- A host. -/
inductive Host where
  | domain (name : List Char)
  /-- An IPv4 address, as one number of 32 bits. -/
  | ipv4 (address : Nat)
  /-- An IPv6 address, as eight numbers of 16 bits. -/
  | ipv6 (pieces : List Nat)
deriving DecidableEq, Repr

/-! ### IPv4 -/

/-- A number of an IPv4 address: decimal, or octal after a zero, or hexadecimal after `0x`. -/
def ipv4Number? (cs : List Char) : Option Nat :=
  let number (base : Nat) (ds : List Char) : Option Nat :=
    ds.foldlM (fun n c => (Hex.value? c).bind fun d =>
      if d < base then some (base * n + d) else none) 0
  match cs with
  | [] => none
  | '0' :: 'x' :: ds | '0' :: 'X' :: ds => number 16 ds
  | ['0'] => some 0
  | '0' :: ds => number 8 ds
  | ds => number 10 ds

/-- Whether the last piece of a domain name, not counting an empty one, is a number. -/
def endsInNumber (name : List Char) : Bool :=
  let last := match (Text.pieces (· = '.') name).reverse with
    -- a dot at the end leaves an empty piece, and the one before it counts
    | [] :: piece :: _ => piece
    | [] :: [] => []
    | piece :: _ => piece
    | [] => []
  (!last.isEmpty && last.all Text.Decimal.isDigit) || (ipv4Number? last).isSome

/-- The IPv4 address of up to four numbers: all but the last fill one byte, the last fills the
rest. -/
def ipv4? (name : List Char) : Option Nat :=
  let pieces := Text.pieces (· = '.') name
  let pieces := if pieces.getLast? = some [] then pieces.dropLast else pieces
  if 4 < pieces.length then none
  else do
    let numbers ← pieces.mapM ipv4Number?
    let last ← numbers.getLast?
    let front := numbers.dropLast
    guard (front.all (· ≤ 255) ∧ last < Nat.pow 256 (4 - front.length))
    return (front.zipIdx.map fun (n, i) => n * Nat.pow 256 (3 - i)).foldr (· + ·) last

/-! ### IPv6 -/

/-- What has been read of an IPv6 address: the pieces before the gap and, if there was one, the
pieces after it. -/
structure Ipv6Pieces where
  /-- The pieces so far, or those before the gap. -/
  front : List Nat
  back : Option (List Nat)

namespace Ipv6Pieces

/-- How many places of the eight are taken; a gap takes one. -/
def count (p : Ipv6Pieces) : Nat := p.front.length + p.back.elim 0 fun b => b.length + 1

/-- One more piece. -/
def push (p : Ipv6Pieces) (n : Nat) : Ipv6Pieces :=
  match p.back with
  | none => { p with front := p.front ++ [n] }
  | some b => { p with back := some (b ++ [n]) }

/-- The eight pieces, with zeros for the gap. A gap may stand for a single piece or for none
beyond those that are there. -/
def close (p : Ipv6Pieces) : Option (List Nat) :=
  match p.back with
  | none => if p.front.length = 8 then some p.front else none
  | some b => some (p.front ++ List.replicate (8 - p.front.length - b.length) 0 ++ b)

end Ipv6Pieces

/-- The two last pieces of an IPv6 address, written as an IPv4 address: four decimal numbers
without leading zeros. -/
def ipv6Tail? (cs : List Char) : Option (Nat × Nat) :=
  let number? (ds : List Char) : Option Nat :=
    if ds.head? = some '0' ∧ ds.length ≠ 1 then none
    else (Text.Decimal.toNat? ds).bind fun n => if n ≤ 255 then some n else none
  match (Text.pieces (· = '.') cs).mapM number? with
  | some [a, b, c, d] => some (256 * a + b, 256 * c + d)
  | _ => none

/-- The first up to `n` hexadecimal digits, and the rest. -/
def takeHex : Nat → List Char → List Char × List Char
  | n + 1, c :: cs =>
    if Hex.isDigit c then
      let (ds, r) := takeHex n cs
      (c :: ds, r)
    else ([], c :: cs)
  | _, cs => ([], cs)

theorem length_takeHex_le (n : Nat) (cs : List Char) : (takeHex n cs).2.length ≤ cs.length := by
  induction n generalizing cs with
  | zero => simp [takeHex]
  | succ n ih =>
    cases cs with
    | nil => simp [takeHex]
    | cons c cs =>
      unfold takeHex
      split
      · exact Nat.le_succ_of_le (ih cs)
      · simp

/-- Reads the pieces of an IPv6 address that follow those read so far. -/
def ipv6From (p : Ipv6Pieces) (cs : List Char) : Option Ipv6Pieces :=
  match cs with
  | [] => some p
  | c :: r =>
    if p.count = 8 then none
    else if c = ':' then
      -- a second colon makes the gap, and there is one gap at most
      if p.back.isSome then none else ipv6From { p with back := some [] } r
    else
      let ds := (takeHex 4 (c :: r)).1
      let n := (ds.mapM Hex.value?).elim 0 Hex.ofDigits
      match _h : (takeHex 4 (c :: r)).2 with
      | [] => some (p.push n)
      -- a single colon cannot be the last character
      | ':' :: r' => if r'.isEmpty then none else ipv6From (p.push n) r'
      | '.' :: _ =>
        -- the digits were the first of an IPv4 address, which takes two places
        if ds.isEmpty ∨ 6 < p.count then none
        else (ipv6Tail? (c :: r)).map fun (a, b) => (p.push a).push b
      | _ => none
termination_by cs.length
decreasing_by
  · simp
  · have := length_takeHex_le 4 (c :: r)
    rw [_h] at this
    simp only [List.length_cons] at this ⊢
    omega

/-- The IPv6 address of a text. -/
def ipv6? (cs : List Char) : Option (List Nat) :=
  match cs with
  | ':' :: ':' :: r => (ipv6From ⟨[], some []⟩ r).bind Ipv6Pieces.close
  | ':' :: _ => none
  | [] | [_] => none
  | cs => (ipv6From ⟨[], none⟩ cs).bind Ipv6Pieces.close

/-- The zeros at the beginning of a list of pieces. -/
def zeros (pieces : List Nat) : Nat := (pieces.takeWhile (· = 0)).length

/-- Where the first of the longest runs of zeros begins, and how long it is. -/
def longestZeros (pieces : List Nat) : Nat × Nat :=
  (List.range pieces.length).foldl (fun best i =>
    let n := zeros (pieces.drop i)
    -- only a longer run replaces the one found before
    if best.2 < n then (i, n) else best) (0, 0)

/-- The text of an IPv6 address. A run of zeros is left out if there are two or more. -/
def ipv6Chars (pieces : List Nat) : List Char :=
  let part (ps : List Nat) := Text.joined [':'] (ps.map Hex.ofNat)
  let (start, n) := longestZeros pieces
  if n < 2 then part pieces
  else part (pieces.take start) ++ [':', ':'] ++ part (pieces.drop (start + n))

/-! ### Domain names -/

/-- What no host can hold. -/
def isForbiddenInHost (c : Char) : Bool :=
  c.toNat = 0 || c = '\t' || c = '\n' || c = '\r' || c = ' ' || c = '#' || c = '/' || c = ':' ||
    c = '<' || c = '>' || c = '?' || c = '@' || c = '[' || c = '\\' || c = ']' || c = '^' ||
    c = '|'

/-- What no domain name can hold in ASCII: also controls and the percent sign. -/
def isForbiddenInDomain (c : Char) : Bool :=
  isForbiddenInHost c || c.toNat ≤ 0x1F || c = '%' || c.toNat = 0x7F

/-- **The ASCII form of a domain name.** -/
def asciiDomain? (naming : Naming) (name : List Char) : Option (List Char) :=
  (naming.ascii? name).filter fun out => !out.any isForbiddenInDomain

/-! ### Hosts -/

/-- The host in brackets. -/
def bracketedHost (cs : List Char) : Except UrlError Host :=
  match cs.reverse with
  | ']' :: inner =>
    match ipv6? inner.reverse with
    | some pieces => .ok (.ipv6 pieces)
    | none => .error .ipv6
  | _ => .error .ipv6

/-- **Reads a host** of a known scheme. -/
def Host.parse (naming : Naming) (cs : List Char) : Except UrlError Host :=
  match cs with
  | '[' :: r => bracketedHost r
  | cs =>
    match (Text.Utf8.decode? (percentDecode cs)).bind (asciiDomain? naming) with
    | none => .error .domain
    | some [] => .error .emptyHost
    | some name =>
      if endsInNumber name then
        match ipv4? name with
        | some address => .ok (.ipv4 address)
        | none => .error .ipv4
      else .ok (.domain name)

/-- Reads a host of an unknown scheme, which may be any text without the characters that end
it. -/
def Host.parseOpaque (cs : List Char) : Except UrlError Host :=
  match cs with
  | '[' :: r => bracketedHost r
  | cs =>
    if cs.any isForbiddenInHost then .error .hostCharacter
    else .ok (.domain (percentEncode isControl cs))

/-- The canonical text of a host. -/
def Host.chars : Host → List Char
  | .domain name => name
  | .ipv4 address =>
    Text.joined ['.'] ([3, 2, 1, 0].map fun i => Text.Decimal.ofNat (address / Nat.pow 256 i % 256))
  | .ipv6 pieces => ['['] ++ ipv6Chars pieces ++ [']']

end Url

end BlockRelay
