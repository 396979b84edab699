import BlockRelay.Beacon.Response
import Std.Data.HashMap

/-!
# The registry of validators

The relay serves proposers that the beacon chain knows. `ValidatorSet` is one complete list of
them, by canonical key; `Registry` serves the set of the last successful refresh. A refresh asks
a source, builds a whole new set and installs it in one step; a failed one changes nothing.

The two halves of a refresh, asking (`ValidatorSource.ask`) and installing (`Registry.install`),
are functions of their own, since other refreshes and readers may come between them.
-/

namespace BlockRelay

/-- The canonical form of a public key: ASCII letters in lower case, otherwise as it is. -/
def canonicalKey (pubkey : String) : String := String.ofList (pubkey.toList.map Char.toLower)

/-- A validator as the registry knows it. -/
structure KnownValidator where
  pubkey : String
  index : Option UInt64
  status : Option String
deriving DecidableEq, Repr

/-- A listed validator under its canonical key. -/
def KnownValidator.ofListed (v : ListedValidator) : KnownValidator :=
  ⟨canonicalKey v.pubkey, v.index, v.status⟩

/-- The validators of one refresh. -/
structure ValidatorSet where
  entries : Std.HashMap String KnownValidator
  /-- When the list was fetched, in seconds; nothing before the first refresh. -/
  refreshedAt : Option Nat

namespace ValidatorSet

/-- The set before the first refresh. -/
def initial : ValidatorSet := ⟨∅, none⟩

/-- Puts a listed validator in the place of any other with its canonical key. -/
def add (entries : Std.HashMap String KnownValidator) (v : ListedValidator) :
    Std.HashMap String KnownValidator :=
  entries.insert (canonicalKey v.pubkey) (.ofListed v)

/-- **The set of a list.** Of validators with the same canonical key the last one counts. -/
def ofList (refreshedAt : Nat) (list : List ListedValidator) : ValidatorSet :=
  ⟨list.foldl add ∅, some refreshedAt⟩

/-- The validator of a key in any casing. -/
def get? (s : ValidatorSet) (pubkey : String) : Option KnownValidator :=
  s.entries[canonicalKey pubkey]?

/-- Whether a key in any casing is known. -/
def contains (s : ValidatorSet) (pubkey : String) : Bool :=
  s.entries.contains (canonicalKey pubkey)

/-- The number of validators. -/
def size (s : ValidatorSet) : Nat := s.entries.size

/-- Whether there are none. -/
def isEmpty (s : ValidatorSet) : Bool := s.entries.isEmpty

end ValidatorSet

/-- What a source of validators answers. -/
abbrev FetchResult := Except BeaconError (List ListedValidator)

/-- Something that lists the validators when asked. -/
structure ValidatorSource (φ : Type) where
  /-- One answer, and the source afterwards. -/
  ask : φ → FetchResult × φ

/-- Where a registry takes its validators from. -/
inductive RegistryMode where
  | beacon
  | null
deriving DecidableEq, Repr

namespace RegistryMode

/-- The name of a mode in settings. -/
def name : RegistryMode → String
  | .beacon => "beacon"
  | .null => "null"

/-- The name of a mode in log lines. -/
def title : RegistryMode → String
  | .beacon => "Beacon"
  | .null => "Null"

end RegistryMode

/-- A registry. -/
structure Registry where
  /-- Where it takes its validators from. -/
  mode : RegistryMode
  current : ValidatorSet

namespace Registry

/-- A registry before its first refresh. -/
def new (mode : RegistryMode) : Registry := ⟨mode, .initial⟩

/-- Whether a key in any casing is known. -/
def isRegistered (r : Registry) (pubkey : String) : Bool := r.current.contains pubkey

/-- The validator of a key in any casing. -/
def get? (r : Registry) (pubkey : String) : Option KnownValidator := r.current.get? pubkey

/-- The number of known validators. -/
def count (r : Registry) : Nat := r.current.size

/-- The size of the installed set and the time of its refresh; nothing before the first. -/
def lastRefresh (r : Registry) : Option (Nat × Nat) :=
  r.current.refreshedAt.map fun at_ => (r.current.size, at_)

/-- **The second half of a refresh:** a list is installed as a whole, a failure is passed on and
nothing changes. -/
def install (r : Registry) (now : Nat) : FetchResult → Except BeaconError Unit × Registry
  | .ok list => (.ok (), { r with current := .ofList now list })
  | .error e => (.error e, r)

/-- **A refresh.** A registry without a source has nothing to do. -/
def refresh {φ : Type} (source : ValidatorSource φ) (now : Nat) (r : Registry) (s : φ) :
    Except BeaconError Unit × Registry × φ :=
  match r.mode with
  | .null => (.ok (), r, s)
  | .beacon =>
    let (answer, s) := source.ask s
    let (result, r) := r.install now answer
    (result, r, s)

end Registry

end BlockRelay
