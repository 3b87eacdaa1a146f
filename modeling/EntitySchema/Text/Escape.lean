import EntitySchema.Text.Combining
import EntitySchema.Text.Printable

/-!
# Escaped text

Text of a document that is quoted in a message is escaped, so that a message is one printable
line.

* `EscapeStyle` — the choices in which two kinds of quoted text differ.
* `escape` — the escaped form of a text.
-/

namespace EntitySchema.Text

/-- What an escaped text spells out beyond the unprintable characters. -/
structure EscapeStyle where
  /-- The quotes that are written behind a backslash. -/
  quotes : List Char
  /-- Whether an extender is spelled out wherever it stands, or only at the front of the text. -/
  everyExtender : Bool
  deriving Repr

/-- The characters with an escape of two characters, and the second of these. -/
def shortEscapes : List (Char × Char) :=
  [('\x00', '0'), ('\t', 't'), ('\r', 'r'), ('\n', 'n'), ('\\', '\\')]

/-- The code point of `c` in lower-case hexadecimal, in braces behind `\u`. -/
def codePointEscape (c : Char) : List Char :=
  "\\u\x7b".toList ++ Nat.toDigits 16 c.toNat ++ "\x7d".toList

/-- The escaped form of `c`, which is the first character of its text if `leading` is set. -/
def escapeChar (style : EscapeStyle) (leading : Bool) (c : Char) : List Char :=
  match shortEscapes.lookup c with
  | some e => ['\\', e]
  | none =>
    if c ∈ style.quotes then ['\\', c]
    else if (leading || style.everyExtender) && isExtender c then codePointEscape c
    else if isPrintable c then [c]
    else codePointEscape c

/-- The escaped form of a text. -/
def escape (style : EscapeStyle) : List Char → List Char
  | [] => []
  | c :: cs => escapeChar style true c ++ cs.flatMap (escapeChar style false)

end EntitySchema.Text
