import EntitySchema.Json.Basic
import EntitySchema.Token

/-!
# JSON forms of tokens and diagnostics

Each type that is printed as JSON has a function `toJson`; the order of the fields is the order in
which they are printed.
-/

namespace EntitySchema

/-- A position as an object. -/
def Position.toJson (p : Position) : Json :=
  .object [("line", .nat p.line), ("column", .nat p.column)]

/-- A span as an object: its offsets, then its positions. -/
def Span.toJson (s : Span) : Json :=
  .object
    [("start_offset", .nat s.first.offset), ("end_offset", .nat s.last.offset),
      ("start", s.first.position.toJson), ("end", s.last.position.toJson)]

/-- The name of a kind of token in JSON. -/
def TokenKind.key : TokenKind → String
  | identifier => "ident"
  | primaryKey => "primary_key"
  | openParen => "paren_left"
  | closeParen => "paren_right"
  | dash => "dash"
  | greater => "greater_than"
  | newline => "newline"
  | space => "space"

/-- A token as an object. -/
def Token.toJson (t : Token) : Json :=
  .object [("kind", .string t.kind.key), ("text", .string t.text), ("span", t.span.toJson)]

/-- A label as an object. -/
def Label.toJson (l : Label) : Json :=
  .object [("message", .string l.message), ("span", l.span.toJson)]

/-- A diagnostic as an object. -/
def Diagnostic.toJson (d : Diagnostic) : Json :=
  .object
    [("code", .string d.code), ("severity", .string d.severity.name),
      ("message", .string d.message), ("span", d.span.toJson),
      ("labels", .list Label.toJson d.labels)]

/-- A listing as an object. -/
def Listing.toJson (l : Listing) : Json :=
  .object
    [("path", .string l.path), ("byte_count", .nat l.byteCount), ("line_count", .nat l.lineCount),
      ("tokens", .list Token.toJson l.lexed.tokens),
      ("diagnostics", .list Diagnostic.toJson l.lexed.errors)]

end EntitySchema
