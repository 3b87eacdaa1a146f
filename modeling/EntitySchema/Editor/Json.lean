import EntitySchema.Editor.Server

/-!
# JSON forms of what an editor sees
-/

namespace EntitySchema.Editor

/-- A cursor as an object. -/
def Cursor.toJson (c : Cursor) : Json :=
  .object [("line", .nat c.line.toNat), ("character", .nat c.character.toNat)]

/-- A range as an object. -/
def Range.toJson (r : Range) : Json :=
  .object [("start", r.start.toJson), ("end", r.stop.toJson)]

/-- A related place as an object. -/
def RelatedPlace.toJson (p : RelatedPlace) : Json :=
  .object
    [("location", .object [("uri", .string p.uri), ("range", p.range.toJson)]),
      ("message", .string p.message)]

/-- The number of a severity. -/
def severityNumber : Severity → Nat
  | .error => 1
  | .warning => 2
  | .info => 3
  | .hint => 4

/-- A field with a list, left out if the list is empty. -/
def nonemptyField {α : Type} (name : String) (f : α → Json) (as : List α) :
    List (String × Json) :=
  if as.isEmpty then [] else [(name, .list f as)]

/-- A diagnostic as an object. -/
def Diagnostic.toJson (d : Diagnostic) : Json :=
  .object
    ([("range", d.range.toJson), ("severity", .nat (severityNumber d.severity)),
      ("code", .string d.code), ("source", .string "aml"), ("message", .string d.message)] ++
      nonemptyField "relatedInformation" RelatedPlace.toJson d.related)

/-- A node of an outline as the fields of an object. -/
def OutlineNode.fields (detail : String) (kind : Nat) (n : OutlineNode) : List (String × Json) :=
  [("name", .string n.name), ("detail", .string detail), ("kind", .nat kind),
    ("range", n.range.toJson), ("selectionRange", n.selection.toJson)]

/-- An entry of an outline as an object. -/
def OutlineEntry.toJson (e : OutlineEntry) : Json :=
  .object
    (e.node.fields "entity" 5 ++
      nonemptyField "children" (fun n => .object (n.fields "attribute" 7)) e.children)

/-- The number of a kind of suggestion. -/
def suggestionNumber : SuggestionKind → Nat
  | .type => 25
  | .relation => 8

/-- A suggestion as an object. -/
def suggestionJson (s : Suggestion) : Json :=
  .object
    [("label", .string s.text), ("kind", .nat (suggestionNumber s.kind)),
      ("insertText", .string s.text)]

/-- An edit as an object. -/
def TextEdit.toJson (e : TextEdit) : Json :=
  .object [("range", e.range.toJson), ("newText", .string e.newText)]

/-- The edits of a document as an object. -/
def workspaceEditJson (uri : String) (edits : List TextEdit) : Json :=
  .object [("changes", .object [(uri, .list TextEdit.toJson edits)])]

/-- What the server can do. -/
def capabilitiesJson : Json :=
  .object
    [("capabilities", .object
      [("textDocumentSync", .nat 1), ("documentSymbolProvider", .bool true),
        ("completionProvider", .object
          [("resolveProvider", .bool false),
            ("triggerCharacters", .array [.string " ", .string ">"])]),
        ("renameProvider", .object [("prepareProvider", .bool true)])]),
      ("serverInfo", .object [("name", .string "aml-lsp"), ("version", .string "0.1.0")])]

/-- The number of the error that a refused request answers: its parameters are invalid. -/
def invalidParameters : Int := -32602

/-- A successful answer as an object. -/
def resultJson (v : Json) : Json := .object [("result", v)]

/-- A response as an object with a result or an error. -/
def Response.toJson : Response → Json
  | capabilities => resultJson capabilitiesJson
  | outline entries => resultJson (.list OutlineEntry.toJson entries)
  | suggestions items => resultJson (.option (.list suggestionJson) items)
  | renameRange range => resultJson (.option Range.toJson range)
  | renameEdits uri edits => resultJson (.option (workspaceEditJson uri) edits)
  | refused reason =>
    .object [("error", .object
      [("code", .int invalidParameters), ("message", .string reason.message)])]
  | done => resultJson .null

/-- The number of a log level. -/
def LogLevel.number : LogLevel → Nat
  | warning => 2
  | info => 3

/-- A message as an object. -/
def Message.toJson : Message → Json
  | diagnostics uri version ds =>
    let version := (version.map fun v => [("version", Json.int v)]).getD []
    .object
      [("method", .string "textDocument/publishDiagnostics"),
        ("params", .object
          ([("uri", .string uri), ("diagnostics", .list Diagnostic.toJson ds)] ++ version))]
  | log level text =>
    .object
      [("method", .string "window/logMessage"),
        ("params", .object [("type", .nat level.number), ("message", .string text)])]

end EntitySchema.Editor
