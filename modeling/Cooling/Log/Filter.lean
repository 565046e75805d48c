import Cooling.Log.Record
import Cooling.Text.Blank

/-!
# Log lines

A filter decides which records are shown: it gives levels to parts of the program by the
first letters of their names.  Of the rules for a record's part the most specific one counts;
a record that no rule is for is not shown.  Filters that also name the work which records are
written in the course of, or its details, are not among those here.
-/

namespace Cooling.Log

/-- Shows the records of the parts that start with `target`, up to a level, or none. -/
structure Rule where
  target : String
  level : Option Level
deriving DecidableEq, Repr

/-- The level a word names, in letters or by its number; `off` and 0 name none. -/
def level? (word : String) : Option (Option Level) :=
  match word.toLower with
  | "off" | "0" => some none
  | "error" | "1" => some (some .error)
  | "warn" | "2" => some (some .warn)
  | "info" | "3" => some (some .info)
  | "debug" | "4" => some (some .debug)
  | "trace" | "5" => some (some .trace)
  | _ => none

/-- The rule of one item: a level for all parts, or a part and its level.  A part alone is
shown at every level, and so is one whose level is left out. -/
def Rule.ofItem? (item : String) : Option Rule :=
  match level? item with
  | some level => some ⟨"", level⟩
  | none =>
    match Text.splitOn '=' item.toList with
    | [target] | [target, []] => some ⟨String.ofList target, some .trace⟩
    | [target, word] => (level? (String.ofList word)).map fun level => ⟨String.ofList target, level⟩
    | _ => none

/-- Which records are shown. -/
structure Filter where
  rules : List Rule
deriving DecidableEq, Repr

namespace Filter

/-- The filter that items between commas write.  Without any rule errors alone are shown. -/
def ofText (s : String) : Filter :=
  let items := (Text.splitOn ',' s.toList).filter (!·.isEmpty)
  match items.filterMap fun item => Rule.ofItem? (String.ofList item) with
  | [] => ⟨[⟨"", some .error⟩]⟩
  | rules => ⟨rules⟩

/-- The rule for a part of the program: the one with the longest name, the last of those. -/
def rule? (filter : Filter) (target : String) : Option Rule :=
  (filter.rules.filter fun r => r.target.toList.isPrefixOf target.toList).foldl
    (fun best r => match best with
      | none => some r
      | some b => if b.target.length ≤ r.target.length then some r else some b) none

/-- Whether records of a part and level are shown. -/
def admits (filter : Filter) (target : String) (level : Level) : Bool :=
  match (filter.rule? target).bind (·.level) with
  | some limit => level.rank ≤ limit.rank
  | none => false

/-- The work a record is marked with, as it stands in a line. -/
def spanText (filter : Filter) (span : Span) : String :=
  if filter.admits span.target span.level then
    span.name ++ "\x7b" ++ " ".intercalate (span.fields.map Field.text) ++ "\x7d: "
  else ""

/-- The line of a record, if it is shown. -/
def line? (filter : Filter) (r : Record) : Option String :=
  if filter.admits r.target r.level then
    some (r.level.name ++ " " ++ (r.span.map filter.spanText).getD "" ++ r.target ++ ": " ++
      " ".intercalate (r.message :: r.fields.map Field.text))
  else none

end Filter

/-- The line of a record under the filter that a text writes, if it is shown. -/
def line? (filter : String) (r : Record) : Option String := (Filter.ofText filter).line? r

end Cooling.Log
