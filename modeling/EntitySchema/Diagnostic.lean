import EntitySchema.Text.Blank
import EntitySchema.Text.Span

/-!
# Diagnostics

* `Diagnostic` — a message about a span of a document, with labels at other spans.
* `Diagnostic.haveErrors` — whether a list of diagnostics holds an error.
* `Diagnostic.render`, `Diagnostic.renderAll` — diagnostics as lines of a report.
-/

namespace EntitySchema

/-- How grave a diagnostic is. -/
inductive Severity where
  | error
  | warning
  | info
  | hint
  deriving DecidableEq, Repr

/-- The name of a severity in reports. -/
def Severity.name : Severity → String
  | error => "error"
  | warning => "warning"
  | info => "info"
  | hint => "hint"

/-- A remark of a diagnostic about another span. -/
structure Label where
  message : String
  span : Span
  deriving DecidableEq, Repr

/-- A message about a span of a document. -/
structure Diagnostic where
  code : String
  severity : Severity
  message : String
  span : Span
  labels : List Label
  deriving DecidableEq, Repr

namespace Diagnostic

/-- An error without labels. -/
def error (code message : String) (span : Span) : Diagnostic :=
  ⟨code, .error, message, span, []⟩

/-- Whether one of the diagnostics is an error. -/
def haveErrors (ds : List Diagnostic) : Bool := ds.any (·.severity == .error)

/-- The place where `s` starts in the file `path`, as `path:line:column`. -/
def location (path : String) (s : Span) : String :=
  path ++ ":" ++ toString s.first.position.line ++ ":" ++ toString s.first.position.column

/-- The line of a report that names the diagnostic itself. -/
def header (path : String) (d : Diagnostic) : String :=
  d.severity.name ++ "[" ++ d.code ++ "] " ++ location path d.span ++ " " ++ d.message

/-- The line of a report for a label. -/
def note (path : String) (l : Label) : String :=
  "  note: " ++ l.message ++ " at " ++ location path l.span

/-- The lines of a report about `d`, without white space at their end. -/
def render (path : String) (d : Diagnostic) : String :=
  let report := "\n".intercalate (header path d :: d.labels.map (note path))
  String.ofList (Text.trimEnd report.toList)

/-- The report about all diagnostics, in order. -/
def renderAll (path : String) (ds : List Diagnostic) : String :=
  "\n".intercalate (ds.map (render path))

end Diagnostic

end EntitySchema
