import EntitySchema.Json.Number

/-!
# JSON values and their text

* `Json` — a JSON value; the fields of an object keep their order.
* `Json.field?` — the value of a field.
* `Json.compact` — the text of a value on one line.
* `Json.pretty` — the text of a value over several lines, indented by two spaces a level.
-/

namespace EntitySchema

/-- A JSON value. -/
inductive Json where
  | null
  | bool (b : Bool)
  | number (n : Json.Number)
  | string (s : String)
  | array (elements : List Json)
  | object (fields : List (String × Json))
  deriving Repr

namespace Json

/-- A natural number as a JSON value. -/
def nat (n : Nat) : Json := number (.integer n)

/-- An integer as a JSON value. -/
def int (n : Int) : Json := number (.integer n)

/-- A value or `null`. -/
def option {α : Type} (f : α → Json) : Option α → Json
  | none => null
  | some a => f a

/-- An array with an element for each item of a list. -/
def list {α : Type} (f : α → Json) (as : List α) : Json := array (as.map f)

/-- The value of the field `name` of an object; the last one counts if there are several. -/
def field? (name : String) : Json → Option Json
  | object fields => (fields.reverse.find? (·.1 == name)).map (·.2)
  | _ => none

/-- The characters with an escape of two characters, and the second of these. -/
def shortEscapes : List (Char × Char) :=
  [('"', '"'), ('\\', '\\'), ('\x08', 'b'), ('\x0c', 'f'), ('\n', 'n'), ('\r', 'r'), ('\t', 't')]

/-- How `c` is written inside a string. -/
def quoteChar (c : Char) : List Char :=
  match shortEscapes.lookup c with
  | some e => ['\\', e]
  | none =>
    if c.toNat < 0x20 then
      let digits := Nat.toDigits 16 c.toNat
      "\\u".toList ++ List.replicate (4 - digits.length) '0' ++ digits
    else [c]

/-- A string between its quotes. -/
def quote (s : String) : String :=
  "\"" ++ String.ofList (s.toList.flatMap quoteChar) ++ "\""

mutual

/-- The text of a value on one line. -/
def compact : Json → String
  | null => "null"
  | bool true => "true"
  | bool false => "false"
  | number n => n.text
  | string s => quote s
  | array elements => "[" ++ ",".intercalate (compactElements elements) ++ "]"
  | object fields => "\x7b" ++ ",".intercalate (compactFields fields) ++ "\x7d"

/-- The one-line texts of the elements of an array. -/
def compactElements : List Json → List String
  | [] => []
  | v :: vs => compact v :: compactElements vs

/-- The one-line texts of the fields of an object. -/
def compactFields : List (String × Json) → List String
  | [] => []
  | (name, v) :: fields => (quote name ++ ":" ++ compact v) :: compactFields fields

end

/-- Puts items between two brackets: one item a line, or nothing at all if there is none. -/
def block (opening closing indent : String) (items : List String) : String :=
  if items.isEmpty then opening ++ closing
  else
    let inner := indent ++ "  "
    opening ++ "\n" ++ inner ++ (",\n" ++ inner).intercalate items ++ "\n" ++ indent ++ closing

mutual

/-- The text of a value whose lines, from the second one on, start with `indent`. -/
def prettyAt (indent : String) : Json → String
  | null => "null"
  | bool true => "true"
  | bool false => "false"
  | number n => n.text
  | string s => quote s
  | array elements => block "[" "]" indent (prettyElements (indent ++ "  ") elements)
  | object fields => block "\x7b" "\x7d" indent (prettyFields (indent ++ "  ") fields)

/-- The texts of the elements of an array. -/
def prettyElements (indent : String) : List Json → List String
  | [] => []
  | v :: vs => prettyAt indent v :: prettyElements indent vs

/-- The texts of the fields of an object. -/
def prettyFields (indent : String) : List (String × Json) → List String
  | [] => []
  | (name, v) :: fields =>
    (quote name ++ ": " ++ prettyAt indent v) :: prettyFields indent fields

end

/-- The text of a value over several lines. -/
def pretty (v : Json) : String := prettyAt "" v

end Json

end EntitySchema
