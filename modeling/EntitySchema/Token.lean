import EntitySchema.Diagnostic
import EntitySchema.Text.Escape
import EntitySchema.Text.Lines
import EntitySchema.Tile

/-!
# Tokens

* `TokenKind`, `Token` — a tile that the grammar knows, with its text and span.
* `place` — tiles with the spans they cover.
* `lex` — the tokens of a text, and an error for each stray run.
* `Listing` — what is known of a file after cutting it into tokens.
-/

namespace EntitySchema

/-- The kinds of token. -/
inductive TokenKind where
  | identifier
  | primaryKey
  | openParen
  | closeParen
  | dash
  | greater
  | newline
  | space
  deriving DecidableEq, Repr

namespace TokenKind

/-- All kinds of token. -/
def all : List TokenKind :=
  [identifier, primaryKey, openParen, closeParen, dash, greater, newline, space]

/-- How messages name a kind of token. -/
def describe : TokenKind → String
  | identifier => "identifier"
  | primaryKey => "'pk'"
  | openParen => "'('"
  | closeParen => "')'"
  | dash => "'-'"
  | greater => "'>'"
  | newline => "newline"
  | space => "space"

/-- The kind of token that a symbol is. -/
def ofSymbol : Symbol → TokenKind
  | .openParen => openParen
  | .closeParen => closeParen
  | .dash => dash
  | .greater => greater

/-- The kind of token that a word is. -/
def ofWord (word : String) : TokenKind := if word = primaryKeyWord then primaryKey else identifier

end TokenKind

/-- A token of a document. -/
structure Token where
  kind : TokenKind
  text : String
  span : Span
  deriving DecidableEq, Repr

/-- How messages name a token: an identifier by its text, any other by its kind. -/
def Token.describe (t : Token) : String :=
  if t.kind = .identifier then "identifier '" ++ t.text ++ "'" else t.kind.describe

namespace Tile

/-- The text that a tile covers, as a string. -/
def text (t : Tile) : String := String.ofList t.chars

/-- The kind of token that a tile is; a stray run is none. -/
def kind? : Tile → Option TokenKind
  | newline => some .newline
  | space => some .space
  | symbol s => some (.ofSymbol s)
  | word c cs => some (.ofWord (String.ofList (c :: cs)))
  | stray _ _ => none

end Tile

/-- A tile together with the span it covers. -/
structure PlacedTile where
  tile : Tile
  span : Span
  deriving DecidableEq, Repr

/-- Puts tiles one behind the other, the first of them at `m`. -/
def place (m : Mark) : List Tile → List PlacedTile
  | [] => []
  | t :: ts => ⟨t, Span.ofText m t.chars⟩ :: place (m.after t.chars) ts

namespace PlacedTile

/-- The token that a placed tile is. -/
def token? (p : PlacedTile) : Option Token :=
  p.tile.kind?.map fun k => ⟨k, p.tile.text, p.span⟩

/-- Stray text is quoted with both kinds of quotes escaped, and an extender spelled out only where
it has nothing to extend. -/
def strayStyle : Text.EscapeStyle := ⟨['\'', '"'], false⟩

/-- The error that a placed stray run is. -/
def error? (p : PlacedTile) : Option Diagnostic :=
  match p.tile with
  | .stray c cs =>
    let shown := String.ofList (Text.escape strayStyle (c :: cs))
    some (.error "E1000" ("unexpected character(s) '" ++ shown ++ "'") p.span)
  | _ => none

end PlacedTile

/-! ## Lexing -/

/-- The tokens of a document and the errors met on the way. -/
structure Lexed where
  tokens : List Token
  errors : List Diagnostic
  deriving DecidableEq, Repr

/-- Cuts a document into tokens; each stray run is left out and reported. -/
def lex (text : String) : Lexed :=
  let placed := place .origin (tiles text.toList)
  ⟨placed.filterMap PlacedTile.token?, placed.filterMap PlacedTile.error?⟩

/-- A file with its size and its tokens. -/
structure Listing where
  path : String
  byteCount : Nat
  lineCount : Nat
  lexed : Lexed
  deriving DecidableEq, Repr

/-- The listing of a document that is stored under `path`. -/
def Listing.ofText (path text : String) : Listing where
  path := path
  byteCount := Text.byteSize text.toList
  lineCount := (Text.lines text.toList).length
  lexed := lex text

end EntitySchema
