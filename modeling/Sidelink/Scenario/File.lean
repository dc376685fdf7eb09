import Sidelink.Document.Toml
import Sidelink.Document.Yaml
import Sidelink.Scenario.Decode
import Sidelink.Visible

/-!
Scenario files: the extension of a file's name tells its format, and what is read has to be coherent.
-/
namespace Sidelink

/-- Why a file gives no scenario. -/
inductive LoadError where
  /-- The file cannot be read, for a reason that the system gives. -/
  | unreadable (path reason : String)
  | unsupported (extension : Option String)
  | malformed (error : DecodeError)
  | scenario (error : ScenarioError)
  deriving DecidableEq

namespace LoadError

/-- A character inside the quotes of a message. -/
def escape (c : Char) : List Char :=
  if c = '"' then ['\\', '"']
  else if c = '\\' then ['\\', '\\']
  else if c = '\n' then ['\\', 'n']
  else if c = '\r' then ['\\', 'r']
  else if c = '\t' then ['\\', 't']
  else if c.toNat = 0 then ['\\', '0']
  else if Visible.isVisible c then [c]
  else '\\' :: 'u' :: '\x7b' :: Nat.toDigits 16 c.toNat ++ ['\x7d']

def message : LoadError → String
  | .unreadable path _ => s!"Cannot read scenario {path}"
  | .unsupported none => "Unsupported scenario format: None"
  | .unsupported (some extension) =>
    "Unsupported scenario format: Some(\"" ++ String.ofList (extension.toList.flatMap escape) ++ "\")"
  | .malformed error => error.message
  | .scenario error => error.message

def causes : LoadError → List String
  | .unreadable _ reason => [reason]
  | .scenario error => error.causes
  | .unsupported _ | .malformed _ => []

end LoadError

namespace Format

/-- The name of the file at the end of a path. -/
def fileName? (path : String) : Option (List Char) :=
  let names := ((path.toList.splitOn '/').filter (fun name => name ≠ [] && name ≠ ['.']))
  names.getLast?.filter (· ≠ ['.', '.'])

/-- What follows the last point of a file's name, unless the name begins with that point. -/
def extension? (path : String) : Option String :=
  match fileName? path with
  | none => none
  | some name =>
    match name.reverse.span (· ≠ '.') with
    | (_, []) => none
    | (_, [_]) => none
    | (after, _) => some (String.ofList after.reverse)

/-- The format of a scenario file. -/
def ofPath (path : String) : Except LoadError Format :=
  match extension? path with
  | some "yml" => .ok .yaml
  | some "yaml" => .ok .yaml
  | some "toml" => .ok .toml
  | other => .error (.unsupported other)

/-- Reads a document in a format. -/
def read? : Format → String → Option Document
  | .json => Document.Json.read
  | .yaml => Document.Yaml.read
  | .toml => Document.Toml.read

end Format

namespace Scenario

/-- The coherent scenario of a document that was read in a format. -/
def decode (format : Format) (d : Document) : Except LoadError Scenario :=
  match ofDocument format d with
  | .error error => .error (.malformed error)
  | .ok s =>
    match s.fault? with
    | some error => .error (.scenario error)
    | none => .ok s

/-- The coherent scenario of a text. -/
def parse (format : Format) (text : String) : Except LoadError Scenario :=
  match format.read? text with
  | none => .error (.malformed .unreadable)
  | some d => decode format d

/-- The coherent scenario of a file, given what it holds or why it cannot be read. -/
def load (path : String) (contents : Except String String) : Except LoadError Scenario :=
  match contents with
  | .error reason => .error (.unreadable path reason)
  | .ok text => do parse (← Format.ofPath path) text

end Scenario
end Sidelink
