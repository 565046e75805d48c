import Cooling.Binary64.Basic

/-!
# TOML documents

A TOML document is a table of values.  It is written as a list of entries and of headed
sections of entries, each under a path of keys (`Document`); `Document.table?` builds the
table, or finds that two parts of the document contradict each other.

A table may be written in parts, and where a table came from (`Origin`) decides which parts
may still be added: one that a header only passes through may later get a header of its own,
one made by dotted keys may get more dotted keys, and one that was written out as a whole,
under its header or between braces, gets neither.
-/

namespace Cooling

namespace Toml

/-- How a table came to be. -/
inductive Origin where
  /-- It has a header of its own. -/
  | header
  /-- A longer header passes through it. -/
  | passedThrough
  /-- It was made by dotted keys. -/
  | dotted
  /-- It is written between braces. -/
  | inline
deriving DecidableEq, Repr

end Toml

/-- A TOML value. -/
inductive Toml where
  | string (s : String)
  | integer (n : Int)
  | float (x : Binary64)
  | boolean (b : Bool)
  /-- A date, a time of day or both. -/
  | moment
  | array (items : List Toml)
  | table (origin : Toml.Origin) (members : List (String × Toml))
  /-- An array of tables that each have a header. -/
  | tables (rows : List (List (String × Toml)))

namespace Toml

/-- The members of a table, in order; keys are distinct. -/
abbrev Members := List (String × Toml)

/-- The value under a key. -/
def Members.get? (members : Members) (key : String) : Option Toml := List.lookup key members

/-! ## 1. Changing tables -/

/-- The members with the value under a key replaced by what `f` makes of it, or added. -/
def Members.alter? (key : String) (f : Option Toml → Option Toml) : Members → Option Members
  | [] => do return [(key, ← f none)]
  | (k, x) :: rest =>
    if k = key then do return (k, ← f (some x)) :: rest
    else do return (k, x) :: (← Members.alter? key f rest)

/-- The rows with the last one replaced. -/
def alterLast? (f : Members → Option Members) : List Members → Option (List Members)
  | [] => none
  | [row] => do return [← f row]
  | row :: rest => do return row :: (← alterLast? f rest)

/-- Adds a value under a dotted key, the path `path` and then `key`.  Tables on the path are
made as needed.  One that is there may be passed if it was made by dotted keys or if headers
only pass through it, and the last one must be of dotted keys. -/
def put? (key : String) (value : Toml) : List String → Members → Option Members
  | [], members => members.alter? key fun
    | none => some value
    | some _ => none
  | step :: path, members => members.alter? step fun
    | none => do return .table .dotted (← put? key value path [])
    | some (.table origin inner) =>
      if origin = .dotted ∨ (origin = .passedThrough ∧ path ≠ []) then
        do return .table origin (← put? key value path inner)
      else none
    | some (.tables rows) =>
      if path = [] then none
      else do return .tables (← alterLast? (put? key value path) rows)
    | some _ => none

/-- Adds values under dotted keys, one after the other. -/
def putAll? (entries : List (List String × String × Toml)) (members : Members) : Option Members :=
  entries.foldlM (fun members (path, key, value) => put? key value path members) members

/-- Changes the table at a path of headers.  Tables that are not there are passed through, and
of an array of tables the last one is meant. -/
def atPath? (f : Members → Option Members) : List String → Members → Option Members
  | [], members => f members
  | step :: path, members => members.alter? step fun
    | none => do return .table .passedThrough (← atPath? f path [])
    | some (.table .inline _) => none
    | some (.table origin inner) => do return .table origin (← atPath? f path inner)
    | some (.tables rows) => do return .tables (← alterLast? (atPath? f path) rows)
    | some _ => none

/-! ## 2. Documents -/

/-- An entry: the tables that its dotted key passes, the last part of the key, the value. -/
abbrev Entry := List String × String × Toml

/-- The entries under one header, given by the tables it passes and its last key.  A header in
double brackets starts one more row of an array of tables. -/
structure Section where
  isRow : Bool
  path : List String
  key : String
  entries : List Entry

/-- A document as it is written. -/
structure Document where
  entries : List Entry
  sections : List Section

/-- Adds a section.  A header may name a table only once, unless others passed through it. -/
def Section.addTo? (s : Section) (root : Members) : Option Members :=
  atPath? (fun members => members.alter? s.key fun found =>
    if s.isRow then do
      let row ← putAll? s.entries []
      match found with
      | none => return .tables [row]
      | some (.tables rows) => return .tables (rows ++ [row])
      | some _ => none
    else
      match found with
      | none => do return .table .header (← putAll? s.entries [])
      | some (.table .passedThrough inner) => do
        return .table .header (← putAll? s.entries inner)
      | some _ => none) s.path root

/-- The table that a document writes, if its parts agree. -/
def Document.table? (d : Document) : Option Members := do
  let root ← putAll? d.entries []
  d.sections.foldlM (fun root s => s.addTo? root) root

end Toml
end Cooling
