import Cooling.Text.Quoted

/-!
# Log records

What the program reports while it works is a value: a computation that reports is `Logged`,
a result with the records written on the way, oldest first.  How records become lines, and
which of them do, is decided later by a filter (`Log/Filter.lean`).
-/

namespace Cooling

namespace Log

/-- How grave a record is, the gravest first. -/
inductive Level where
  | error
  | warn
  | info
  | debug
  | trace
deriving DecidableEq, Repr

namespace Level

/-- The level in front of a line. -/
def name : Level → String
  | error => "ERROR"
  | warn => "WARN"
  | info => "INFO"
  | debug => "DEBUG"
  | trace => "TRACE"

/-- The place of a level, the gravest at 0. -/
def rank : Level → Nat
  | error => 0
  | warn => 1
  | info => 2
  | debug => 3
  | trace => 4

end Level

/-- A named detail of a record, shown as it is or between quotes. -/
structure Field where
  name : String
  value : String
  isQuoted : Bool := false
deriving DecidableEq, Repr

namespace Field

/-- A detail shown between quotes. -/
def quoted (name value : String) : Field := ⟨name, value, true⟩

/-- A detail shown as it is. -/
def plain (name value : String) : Field := ⟨name, value, false⟩

/-- A number. -/
def count (name : String) (n : Nat) : Field := ⟨name, toString n, false⟩

/-- The detail as it stands in a line. -/
def text (f : Field) : String :=
  f.name ++ "=" ++ if f.isQuoted then Text.quoted f.value else f.value

end Field

/-- The work that records are written in the course of. -/
structure Span where
  name : String
  target : String
  level : Level
  fields : List Field
deriving DecidableEq, Repr

/-- A log record: the part of the program it comes from, what is reported, and details. -/
structure Record where
  level : Level
  target : String
  message : String
  fields : List Field := []
  span : Option Span := none
deriving DecidableEq, Repr

end Log

/-! ## Computations that report -/

/-- A result and the records written on the way. -/
structure Logged (α : Type) where
  value : α
  log : List Log.Record := []

namespace Logged

variable {α β : Type}

/-- The second computation's records follow the first one's. -/
instance : Monad Logged where
  pure a := ⟨a, []⟩
  bind x f := ⟨(f x.value).value, x.log ++ (f x.value).log⟩

@[simp] theorem value_pure (a : α) : (pure a : Logged α).value = a := rfl
@[simp] theorem log_pure (a : α) : (pure a : Logged α).log = [] := rfl
@[simp] theorem value_bind (x : Logged α) (f : α → Logged β) :
    (x >>= f).value = (f x.value).value := rfl
@[simp] theorem log_bind (x : Logged α) (f : α → Logged β) :
    (x >>= f).log = x.log ++ (f x.value).log := rfl

/-- Writes records. -/
def reportAll (records : List Log.Record) : Logged Unit := ⟨(), records⟩

/-- Writes one record. -/
def report (record : Log.Record) : Logged Unit := reportAll [record]

@[simp] theorem log_reportAll (rs : List Log.Record) : (reportAll rs).log = rs := rfl
/-- The same computation in the course of some work: records of no other work are marked. -/
def within (span : Log.Span) (x : Logged α) : Logged α :=
  ⟨x.value, x.log.map fun r => { r with span := r.span.or (some span) }⟩

instance : LawfulMonad Logged :=
  LawfulMonad.mk' Logged (fun x => by cases x; simp [Functor.map])
    (fun _ _ => by simp [bind, pure]) (fun _ _ _ => by simp [bind, List.append_assoc])

end Logged
end Cooling
