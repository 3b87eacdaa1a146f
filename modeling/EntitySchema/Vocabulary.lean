/-!
# The vocabulary of schema documents

* `Symbol` — the four one-character symbols.
* `Word.isStart`, `Word.isPart` — the characters of a word.
* `primaryKeyWord` — the one word that is a keyword.
* `isIdentifier` — whether a text can name an entity, an attribute or a type.
* `attributeTypes` — the types that completion offers.
-/

namespace EntitySchema

/-- A symbol of one character. -/
inductive Symbol where
  | openParen
  | closeParen
  | dash
  | greater
  deriving DecidableEq, Repr

namespace Symbol

/-- The character that writes a symbol. -/
def char : Symbol → Char
  | openParen => '('
  | closeParen => ')'
  | dash => '-'
  | greater => '>'

/-- All symbols. -/
def all : List Symbol := [openParen, closeParen, dash, greater]

/-- The symbol that `c` writes. -/
def ofChar? (c : Char) : Option Symbol := all.find? (·.char = c)

@[simp] theorem ofChar?_char (s : Symbol) : ofChar? s.char = some s := by
  cases s <;> decide

theorem char_of_ofChar? {c : Char} {s : Symbol} (h : ofChar? c = some s) : s.char = c := by
  simpa using List.find?_some h

end Symbol

namespace Word

/-- Whether a word can start with `c`: an ASCII letter or an underscore. -/
def isStart (c : Char) : Bool := c.isAlpha || c == '_'

/-- Whether a word can go on with `c`: what starts one, or an ASCII digit. -/
def isPart (c : Char) : Bool := isStart c || c.isDigit

end Word

/-- The word that marks an attribute as primary key. -/
def primaryKeyWord : String := "pk"

/-- Whether `text` is one word other than the keyword, and so can serve as a name. -/
def isIdentifier (text : String) : Bool :=
  match text.toList with
  | [] => false
  | c :: cs => Word.isStart c && cs.all Word.isPart && text != primaryKeyWord

/-- The attribute types that completion offers, in the order of presentation. -/
def attributeTypes : List String :=
  ["int", "bigint", "numeric", "varchar", "text", "boolean", "uuid", "timestamp", "json", "jsonb"]

end EntitySchema
