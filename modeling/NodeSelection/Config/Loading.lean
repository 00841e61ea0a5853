import NodeSelection.Config.Reading
import NodeSelection.Config.Validation
import NodeSelection.Toml.Text

/-!
Loading a configuration from the bytes of a file. The text is parsed whole before
any setting is looked at, and settings are validated only when all could be read.
-/

namespace NodeSelection

inductive LoadError where
  | unreadable (reason : String)
  /-- The text is not TOML, or a value in it is not what its key asks for. -/
  | malformed (message : Option String)
  | invalid (violations : List Violation)
deriving DecidableEq, Repr

namespace LoadError

def joined (violations : List Violation) : String :=
  String.intercalate ", " (violations.map Violation.message)

def message? : LoadError → Option String
  | unreadable reason => some ("IO error: " ++ reason)
  | malformed message => message
  | invalid violations => some ("Validation failed: " ++ joined violations)

def debug? : LoadError → Option String
  | invalid violations =>
    some ("Validation([" ++ String.intercalate ", " (violations.map Violation.debug) ++ "])")
  | unreadable _ | malformed _ => none

def missingFile : LoadError := unreadable "No such file or directory (os error 2)"

end LoadError

namespace Config

def accept (surplus : Surplus) (d : Document) : Except LoadError Config :=
  match ofDocument surplus d with
  | .error e => .error (.malformed e.message?)
  | .ok c =>
    match c.validate with
    | .error violations => .error (.invalid violations)
    | .ok () => .ok c

def ofText (text : String) : Except LoadError Config :=
  match Toml.parse? text with
  | none => .error (.malformed none)
  | some d => accept .ignored d

def ofBytes (bytes : ByteArray) : Except LoadError Config :=
  match String.fromUTF8? bytes with
  | none => .error (.unreadable "stream did not contain valid UTF-8")
  | some text => ofText text

def load (path : String) (bytes : ByteArray) : Except LoadError (Config × List Event) :=
  (ofBytes bytes).map fun c => (c, [.configLoaded path c.algorithm c.nodes.length])

end Config

end NodeSelection
