import EntitySchema.Completion
import EntitySchema.Editor.Coordinates
import EntitySchema.Schema.Outline
import EntitySchema.Schema.Rename
import EntitySchema.Schema.Warning

/-!
# What an editor shows of a document

* `diagnosticsOf` — the diagnostics of a document.
* `outlineOf` — its outline.
* `suggestionsAt` — the suggestions at a cursor.
* `renameRange`, `renameAt` — the name at a cursor, and the edits that change it.
-/

namespace EntitySchema.Editor

/-- A remark about another place of a document. -/
structure RelatedPlace where
  uri : String
  range : Range
  message : String
  deriving DecidableEq, Repr

/-- A diagnostic as editors show it. -/
structure Diagnostic where
  range : Range
  severity : Severity
  code : String
  message : String
  related : List RelatedPlace
  deriving DecidableEq, Repr

/-- The editor's form of a diagnostic about the document `uri`. -/
def Diagnostic.ofDiagnostic (uri : String) (d : EntitySchema.Diagnostic) : Diagnostic where
  range := .ofSpan d.span
  severity := d.severity
  code := d.code
  message := d.message
  related := d.labels.map fun l => ⟨uri, .ofSpan l.span, l.message⟩

/-- The diagnostics of the document `uri`. -/
def diagnosticsOf (uri text : String) : List Diagnostic :=
  (parse text).diagnostics.map (.ofDiagnostic uri)

/-- A node of an outline as editors show it. -/
structure OutlineNode where
  name : String
  range : Range
  selection : Range
  deriving DecidableEq, Repr

/-- An entry of an outline as editors show it. -/
structure OutlineEntry where
  node : OutlineNode
  children : List OutlineNode
  deriving DecidableEq, Repr

/-- The editor's form of a node. -/
def OutlineNode.ofNode (n : EntitySchema.OutlineNode) : OutlineNode :=
  ⟨n.name, .ofSpan n.span, .ofSpan n.selection⟩

/-- The outline of a document. -/
def outlineOf (text : String) : List OutlineEntry :=
  (parse text).schema.outline.map fun e => ⟨.ofNode e.node, e.children.map .ofNode⟩

/-- The suggestions at a cursor; `none` if the line in front of it asks for nothing. -/
def suggestionsAt (text : String) (c : Cursor) : Option (List Suggestion) :=
  (CompletionContext.ofLine? (lineBefore text.toList c)).map fun context =>
    (parse text).schema.suggestions context

/-- A text that takes the place of a range. -/
structure TextEdit where
  range : Range
  newText : String
  deriving DecidableEq, Repr

/-- The range of the name at a cursor. -/
def renameRange (text : String) (c : Cursor) : Except Refusal Range := do
  let target ← (parse text).occurrenceAt c.position
  return .ofSpan target.span

/-- The edits that rename what is named at a cursor; whether the new name is one is asked first. -/
def renameAt (text : String) (c : Cursor) (newName : String) : Except Refusal (List TextEdit) :=
  if isIdentifier newName then do
    let parsed := parse text
    let target ← parsed.occurrenceAt c.position
    return (parsed.schema.renameEdits target.item newName).map fun e =>
      ⟨.ofSpan e.span, e.replacement⟩
  else .error (.invalidName newName)

end EntitySchema.Editor
