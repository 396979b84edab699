import BlockRelay.Log.Line
import BlockRelay.Text.Blank
import BlockRelay.Text.Pieces

/-!
# Filters of log lines

A filter is written as a list of directives between commas: a severity alone is the limit for
everything, `part=severity` the limit for the parts whose names begin so, and a name alone lets
that part say everything. After a slash, a phrase can follow that every line must hold. Of the
directives that fit a line, the one with the longest name counts.
-/

namespace BlockRelay

/-- A limit on what parts of the program may log. -/
structure LogDirective where
  /-- What the names of the parts begin with; nothing for all parts. -/
  part : Option String
  /-- The least serious lines that are let through; nothing if there are none. -/
  limit : Option Severity
deriving DecidableEq, Repr

namespace LogDirective

/-- The limit that a word names, in any casing. -/
def limitOf? (word : String) : Option (Option Severity) :=
  let name := String.ofList (word.toList.map Char.toUpper)
  if name = "OFF" then some none
  else (Severity.all.find? fun s => s.name = name).map some

/-- Reads a directive that is not empty. -/
def read? (cs : List Char) : Option LogDirective :=
  match (Text.pieces (· = '=') cs).map String.ofList with
  | [name] =>
    match limitOf? name with
    | some limit => some ⟨none, limit⟩
    | none => some ⟨some name, some .trace⟩
  | [name, word] =>
    let word := Text.trim word
    if word = "" then some ⟨some name, some .trace⟩
    else (limitOf? word).map fun limit => ⟨some name, limit⟩
  | _ => none

/-- The length of the name, in bytes. -/
def length (d : LogDirective) : Nat := d.part.elim 0 String.utf8ByteSize

/-- Whether a directive is about a part. -/
def fits (d : LogDirective) (origin : String) : Bool :=
  d.part.all fun part => part.toList.isPrefixOf origin.toList

/-- Whether a severity is within the limit. -/
def admits (d : LogDirective) (s : Severity) : Bool := d.limit.any fun l => s.rank ≤ l.rank

/-- Puts a directive in the place of one for the same parts, or behind all others. -/
def insert (ds : List LogDirective) (d : LogDirective) : List LogDirective :=
  if ds.any fun e => e.part = d.part then ds.map fun e => if e.part = d.part then d else e
  else ds ++ [d]

end LogDirective

/-- A filter of log lines. -/
structure LogFilter where
  /-- The directives, with longer names behind shorter ones. -/
  directives : List LogDirective
  phrase : Option String
deriving DecidableEq, Repr

namespace LogFilter

/-- A filter of directives; without any, only errors are let through. -/
def ofDirectives (ds : List LogDirective) (phrase : Option String) : LogFilter :=
  let ds := ds.foldl LogDirective.insert []
  if ds.isEmpty then ⟨[⟨none, some .error⟩], phrase⟩
  else ⟨ds.mergeSort fun d e => d.length ≤ e.length, phrase⟩

/-- **Reads a filter.** Directives that cannot be read are left out, and of a text with more than
one slash nothing counts. -/
def read (text : String) : LogFilter :=
  let directives (cs : List Char) : List LogDirective :=
    ((Text.pieces (· = ',') cs).map (Text.trimmed Text.isBlank)).filterMap fun p =>
      if p.isEmpty then none else LogDirective.read? p
  match Text.pieces (· = '/') text.toList with
  | [ds] => ofDirectives (directives ds) none
  | [ds, phrase] => ofDirectives (directives ds) (some (String.ofList phrase))
  | _ => ofDirectives [] none

/-- **Whether a filter lets a line through.** -/
def admits (f : LogFilter) (l : LogLine) : Bool :=
  ((f.directives.reverse.find? fun d => d.fits l.origin).any fun d => d.admits l.severity) &&
    f.phrase.all fun phrase => Text.holds l.message phrase

end LogFilter

end BlockRelay
