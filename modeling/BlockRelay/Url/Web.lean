import BlockRelay.Text.Blank
import BlockRelay.Url.Host

/-!
# Addresses

`Url.parse` reads the address of a node by the rules that browsers follow: blanks around it
are dropped and line breaks in it ignored, a backslash counts as a slash, missing slashes are
supplied, dot segments are resolved, and each part is encoded as it has to be. A web address is
kept in parts (`WebUrl`), and `WebUrl.chars` writes them down again in canonical form. Of
addresses with another scheme only the scheme is kept, after a look at the host. The names of hosts
are written in ASCII as a `Naming` says.
-/

namespace BlockRelay

/-- An `http` or `https` address in canonical parts. -/
structure WebUrl where
  secure : Bool
  /-- User name and password, encoded, with the colon between them. -/
  userinfo : List Char
  host : Url.Host
  /-- The port, if it is not the usual one of the scheme. -/
  port : Option Nat
  /-- The segments of the path, encoded; each is preceded by a slash. -/
  path : List (List Char)
  query : Option (List Char)
  fragment : Option (List Char)
deriving DecidableEq, Repr

/-- An address. -/
inductive Url where
  | web (a : WebUrl)
  | other (scheme : List Char)
deriving DecidableEq, Repr

namespace Url

/-! ### Schemes -/

/-- The schemes whose addresses have a host and a path of segments. -/
inductive Family where
  | special
  | file
  | unknown
deriving DecidableEq, Repr

/-- The family of a scheme. -/
def Family.of (scheme : List Char) : Family :=
  if scheme ∈ ["http".toList, "https".toList, "ws".toList, "wss".toList, "ftp".toList] then
    .special
  else if scheme = "file".toList then .file
  else .unknown

/-- An ASCII letter. -/
def isLetter (c : Char) : Bool :=
  (65 ≤ c.toNat && c.toNat ≤ 90) || (97 ≤ c.toNat && c.toNat ≤ 122)

/-- The characters of a scheme after its first letter. -/
def isSchemeChar (c : Char) : Bool :=
  isLetter c || Text.Decimal.isDigit c || c = '+' || c = '-' || c = '.'

/-- The scheme in front of a colon, in lower case, and what follows. -/
def scheme? (cs : List Char) : Option (List Char × List Char) :=
  match cs, cs.dropWhile isSchemeChar with
  | c :: _, ':' :: r =>
    if isLetter c then some ((cs.takeWhile isSchemeChar).map Char.toLower, r) else none
  | _, _ => none

/-! ### Authorities -/

/-- A slash, or in known schemes also a backslash. -/
def isSlash (special : Bool) (c : Char) : Bool := c = '/' || (special && c = '\\')

/-- What ends user information, host and port. -/
def endsAuthority (special : Bool) (c : Char) : Bool :=
  isSlash special c || c = '?' || c = '#'

/-- Splits a text at the last `@`, if there is one. -/
def splitLastAt (cs : List Char) : Option (List Char × List Char) :=
  match cs.reverse.span (· ≠ '@') with
  | (_, []) => none
  | (after, _ :: before) => some (before.reverse, after.reverse)

/-- User name and password, encoded. The colon is kept only in front of a password. -/
def encodeUserinfo (info : List Char) : List Char :=
  let user := info.takeWhile (· ≠ ':')
  let password := (info.dropWhile (· ≠ ':')).drop 1
  percentEncode inUserinfo user ++
    if password.isEmpty then [] else ':' :: percentEncode inUserinfo password

/-- Splits off the host: up to a colon that is not in brackets, or to the end of the
authority. -/
def splitHost (special : Bool) (inBrackets : Bool) : List Char → List Char × List Char
  | [] => ([], [])
  | c :: cs =>
    if (c = ':' && !inBrackets) || endsAuthority special c then ([], c :: cs)
    else
      let inBrackets := if c = '[' then true else if c = ']' then false else inBrackets
      let (host, r) := splitHost special inBrackets cs
      (c :: host, r)

/-- Reads a port: digits up to a slash, a backslash, a question mark, a hash or the end. -/
def readPort (cs : List Char) : Except UrlError (Option Nat × List Char) :=
  let ds := cs.takeWhile Text.Decimal.isDigit
  let rest := cs.dropWhile Text.Decimal.isDigit
  if 65535 < Text.Decimal.toNat ds then .error .port
  else if rest.head?.any fun c => !endsAuthority true c then .error .port
  else .ok (if ds.isEmpty then none else some (Text.Decimal.toNat ds), rest)

/-- User information, host and port of an address. -/
structure Authority where
  userinfo : List Char
  host : Host
  port : Option Nat

/-- The user information in front of a host, and the text from the host on. -/
def readUserinfo (special : Bool) (cs : List Char) : Except UrlError (List Char × List Char) :=
  let front := cs.takeWhile fun c => !endsAuthority special c
  let rest := cs.dropWhile fun c => !endsAuthority special c
  match splitLastAt front with
  | none => .ok ([], cs)
  | some (info, after) =>
    -- the sign has neither a user in front of it nor a host behind it
    if info.isEmpty ∧ after.isEmpty ∧ !rest.isEmpty then .error .emptyHost
    else .ok (encodeUserinfo info, after ++ rest)

/-- **Reads an authority,** after its two slashes, and answers what follows it. -/
def readAuthority (naming : Naming) (special : Bool) (cs : List Char) :
    Except UrlError (Authority × List Char) := do
  let (userinfo, cs) ← readUserinfo special cs
  let (hostText, rest) := splitHost special false cs
  if special ∧ hostText.isEmpty then throw .emptyHost
  let host ← if special then Host.parse naming hostText else Host.parseOpaque hostText
  -- only an address of an unknown scheme comes here without a host
  if host = .domain [] ∧ (rest.head? = some ':' ∨ !userinfo.isEmpty) then throw .emptyHost
  match rest with
  | ':' :: r =>
    let (port, rest) ← readPort r
    return (⟨userinfo, host, port⟩, rest)
  | _ => return (⟨userinfo, host, none⟩, rest)

/-! ### Paths -/

/-- A segment that stands for the current directory. -/
def isDot (segment : List Char) : Bool :=
  segment.map Char.toLower ∈ [".".toList, "%2e".toList]

/-- A segment that stands for the parent directory. -/
def isDoubleDot (segment : List Char) : Bool :=
  segment.map Char.toLower ∈ ["..".toList, ".%2e".toList, "%2e.".toList, "%2e%2e".toList]

/-- A segment like the name of a drive, which is never left again. -/
def isDrive : List Char → Bool
  | [c, ':'] | [c, '|'] => isLetter c
  | _ => false

/-- The segments without the last one. -/
def parent (segments : List (List Char)) : List (List Char) :=
  match segments.getLast? with
  | some segment => if isDrive segment then segments else segments.dropLast
  | none => []

/-- Puts segments one after the other behind those that are there, following dots. After a last
segment of dots the path ends in a slash. -/
def resolveFrom (done : List (List Char)) : List (List Char) → List (List Char)
  | [] => done
  | segment :: rest =>
    if isDoubleDot segment then
      resolveFrom (parent done ++ if rest.isEmpty then [[]] else []) rest
    else if isDot segment then resolveFrom (done ++ if rest.isEmpty then [[]] else []) rest
    else resolveFrom (done ++ [segment]) rest

/-- **The segments of a path,** encoded, with dot segments resolved. -/
def pathSegments (cs : List Char) : List (List Char) :=
  let cs := match cs with
    | c :: r => if isSlash true c then r else cs
    | [] => []
  resolveFrom [] ((Text.pieces (isSlash true) cs).map (percentEncode inPath))

/-! ### Addresses -/

/-- What stands around an address and is dropped: blanks and controls. -/
def isOuter (c : Char) : Bool := c.toNat ≤ 0x20

/-- What is ignored anywhere in an address: tabs and line breaks. -/
def isIgnored (c : Char) : Bool := c = '\t' || c = '\n' || c = '\r'

/-- The characters of an address that count. -/
def significant (s : String) : List Char :=
  (Text.trimmed isOuter s.toList).filter fun c => !isIgnored c

/-- Reads a web address, after its scheme. -/
def readWeb (naming : Naming) (secure : Bool) (cs : List Char) : Except UrlError WebUrl := do
  let (a, rest) ← readAuthority naming true (cs.dropWhile (isSlash true))
  let usual := if secure then 443 else 80
  let beforeFragment := rest.takeWhile (· ≠ '#')
  let afterHash := rest.dropWhile (· ≠ '#')
  let beforeQuery := beforeFragment.takeWhile (· ≠ '?')
  let afterMark := beforeFragment.dropWhile (· ≠ '?')
  return {
    secure
    userinfo := a.userinfo
    host := a.host
    port := if a.port = some usual then none else a.port
    path := pathSegments beforeQuery
    query := if afterMark.isEmpty then none else some (percentEncode inQuery (afterMark.drop 1))
    fragment :=
      if afterHash.isEmpty then none else some (percentEncode inFragment (afterHash.drop 1)) }

/-- Looks at the host of an address with another known scheme. -/
def checkSpecial (naming : Naming) (cs : List Char) : Except UrlError Unit := do
  let _ ← readAuthority naming true (cs.dropWhile (isSlash true))

/-- Looks at the host of a file's address, if it has one. -/
def checkFile (naming : Naming) (cs : List Char) : Except UrlError Unit := do
  match cs with
  | a :: b :: r =>
    if isSlash true a ∧ isSlash true b then
      let host := r.takeWhile fun c => !endsAuthority true c
      -- a drive is no host but the beginning of the path
      if !host.isEmpty ∧ !isDrive host then
        let _ ← Host.parse naming host
  | _ => return

/-- Looks at the authority of an address with an unknown scheme, if it has one. -/
def checkUnknown (naming : Naming) (cs : List Char) : Except UrlError Unit := do
  match cs with
  | '/' :: '/' :: r => let _ ← readAuthority naming false r
  | _ => return

end Url

/-- **Reads an address.** -/
def Url.parse (naming : Url.Naming) (s : String) : Except UrlError Url := do
  match Url.scheme? (Url.significant s) with
  | none => throw .noScheme
  | some (scheme, rest) =>
    if scheme = "http".toList then return .web (← Url.readWeb naming false rest)
    else if scheme = "https".toList then return .web (← Url.readWeb naming true rest)
    else
      match Url.Family.of scheme with
      | .special => Url.checkSpecial naming rest
      | .file => Url.checkFile naming rest
      | .unknown => Url.checkUnknown naming rest
      return .other scheme

/-- **The canonical text of a web address.** -/
def WebUrl.chars (a : WebUrl) : List Char :=
  (if a.secure then "https://".toList else "http://".toList) ++
    (if a.userinfo.isEmpty then [] else a.userinfo ++ ['@']) ++
    a.host.chars ++
    (a.port.elim [] fun n => ':' :: Text.Decimal.ofNat n) ++
    a.path.flatMap ('/' :: ·) ++
    (a.query.elim [] ('?' :: ·)) ++
    (a.fragment.elim [] ('#' :: ·))

end BlockRelay
