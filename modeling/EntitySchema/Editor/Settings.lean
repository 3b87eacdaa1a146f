import EntitySchema.Json.Basic
import EntitySchema.Text.Escape

/-!
# Settings

Settings come as JSON. A section is an object whose fields are known by name, or an array that
lists the fields in order; each section has one field, which may be missing or `null`.

* `Settings` — the settings of the server.
* `Settings.decode` — the delay that a JSON value asks for.
* `Settings.apply` — settings after a change; a value that cannot be decoded changes nothing.
-/

namespace EntitySchema.Editor

/-- The settings of the server. -/
structure Settings where
  /-- The time in milliseconds from a change of a document to its diagnostics. -/
  debounce : Nat := 300
  deriving DecidableEq, Repr

namespace Settings

/-- A part of the settings that holds one field. -/
inductive Section where
  | root
  | diagnostics
  deriving DecidableEq, Repr

namespace Section

/-- How messages name a section. -/
def name : Section → String
  | root => "AmlConfig"
  | diagnostics => "AmlDiagnosticsConfig"

/-- The field of a section. -/
def field : Section → String
  | root => "diagnostics"
  | diagnostics => "debounceMs"

end Section

/-- What is asked of a JSON value. -/
inductive Shape where
  | ofSection (s : Section)
  | milliseconds
  deriving DecidableEq, Repr

/-- How messages name a shape. -/
def Shape.describe : Shape → String
  | ofSection s => "struct " ++ s.name
  | milliseconds => "u64"

/-- Why a JSON value cannot be decoded. -/
inductive Error where
  | wrongType (found : Json) (expected : Shape)
  | wrongInteger (n : Int)
  | noElement (s : Section)
  | surplusElements (count : Nat)
  deriving Repr

/-- A string that is quoted in a message has its double quotes escaped, and every extender spelled
out. -/
def quoteStyle : Text.EscapeStyle := ⟨['"'], true⟩

/-- How messages name a JSON value. -/
def describe : Json → String
  | .null => "null"
  | .bool b => "boolean `" ++ (if b then "true" else "false") ++ "`"
  | .number (.integer n) => "integer `" ++ toString n ++ "`"
  | .number (.float x) => "floating point `" ++ (Json.Number.float x).text ++ "`"
  | .string s => "string \"" ++ String.ofList (Text.escape quoteStyle s.toList) ++ "\""
  | .array _ => "sequence"
  | .object _ => "map"

/-- The text of an error. -/
def Error.message : Error → String
  | wrongType found expected =>
    "invalid type: " ++ describe found ++ ", expected " ++ expected.describe
  | wrongInteger n => "invalid value: integer `" ++ toString n ++ "`, expected u64"
  | noElement s => "invalid length 0, expected struct " ++ s.name ++ " with 1 element"
  | surplusElements count =>
    "invalid length " ++ toString count ++ ", expected fewer elements in array"

/-- Reads a value that may be `null`. -/
def optional {α : Type} (read : Json → Except Error α) : Json → Except Error (Option α)
  | .null => .ok none
  | v => (read v).map some

/-- Reads the field of a section. -/
def readSection {α : Type} (s : Section) (read : Json → Except Error α) :
    Json → Except Error (Option α)
  | .object fields => optional read (((Json.object fields).field? s.field).getD .null)
  | .array [] => .error (.noElement s)
  | .array [v] => optional read v
  | .array (v :: vs) => do
    let _ ← optional read v
    throw (.surplusElements (vs.length + 1))
  | v => .error (.wrongType v (.ofSection s))

/-- Reads a number of milliseconds, which has to fit into 64 bits. -/
def readMilliseconds : Json → Except Error Nat
  | .number (.integer n) => if 0 ≤ n ∧ n < Nat.pow 2 64 then .ok n.toNat else .error (.wrongInteger n)
  | v => .error (.wrongType v .milliseconds)

/-- The delay that a JSON value asks for, if it asks for one. -/
def decode (v : Json) : Except Error (Option Nat) :=
  (readSection .root (readSection .diagnostics readMilliseconds) v).map Option.join

/-- The settings after a change. -/
def apply (s : Settings) (v : Json) : Except Error Settings :=
  (decode v).map fun delay => ⟨delay.getD s.debounce⟩

end Settings

end EntitySchema.Editor
