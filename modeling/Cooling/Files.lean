/-!
# Reading files

What comes of reading a file as text: it may not be there, it may not be readable, or it has
a content.  Nothing else about the file system matters to the program.
-/

namespace Cooling

/-- What comes of reading a file as text. -/
inductive FileRead where
  | absent
  | unreadable (reason : String)
  | text (content : String)
deriving DecidableEq, Repr

namespace FileRead

/-- The reading of a file's bytes, which must be UTF-8. -/
def ofBytes (bytes : ByteArray) : FileRead :=
  match String.fromUTF8? bytes with
  | some content => text content
  | none => unreadable "stream did not contain valid UTF-8"

/-- The reading of a directory. -/
def directory : FileRead := unreadable "Is a directory (os error 21)"

end FileRead

/-- What the readers of the two formats say of a text that they refuse.  The wording is theirs:
nothing depends on it but the report of a failure, which passes it on. -/
structure Wording where
  json : String → String
  toml : String → String

/-- A wording in a few words, the same of every text. -/
def Wording.brief : Wording := ⟨fun _ => "not valid JSON", fun _ => "not valid settings"⟩

/-- What comes of reading the file at a path. -/
abbrev Files := String → FileRead

/-- The path of a file in a directory. -/
def Files.path (dir name : String) : String :=
  if dir = "" ∨ dir.toList.getLast? = some '/' then dir ++ name else dir ++ "/" ++ name

end Cooling
