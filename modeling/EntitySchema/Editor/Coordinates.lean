import EntitySchema.Text.Lines
import EntitySchema.Text.Span

/-!
# Places as editors count them

Editors count lines and characters from 0, in 32 bits, and exclude the end of a range.

* `Cursor`, `Range` — a place and a stretch of text as an editor gives them.
* `Range.ofSpan`, `Cursor.position` — the passage from and to the places of this library.
* `offsetAt` — the byte offset of a cursor.
* `lineBefore` — the text of the cursor's line in front of the cursor.
-/

namespace EntitySchema.Editor

/-- A place in a document, between two characters. -/
structure Cursor where
  line : UInt32
  character : UInt32
  deriving DecidableEq, Repr

/-- A stretch of a document. -/
structure Range where
  start : Cursor
  stop : Cursor
  deriving DecidableEq, Repr

/-- The range of a span; numbers that do not fit are taken modulo `2 ^ 32`. -/
def Range.ofSpan (s : Span) : Range where
  start := ⟨.ofNat (s.first.position.line - 1), .ofNat (s.first.position.column - 1)⟩
  stop := ⟨.ofNat (s.last.position.line - 1), .ofNat s.last.position.column⟩

/-- The position of the character behind a cursor. -/
def Cursor.position (c : Cursor) : Position := ⟨c.line.toNat + 1, c.character.toNat + 1⟩

/-- The byte offset of a cursor in lines of which the first has the number `n`. A cursor past the
end of its line stands in front of the newline; one past the last line stands at the end. -/
def offsetInLines (c : Cursor) (n : Nat) : List (List Char) → Nat
  | [] => 0
  | l :: ls =>
    if UInt32.ofNat n = c.line then Text.byteSize ((Text.lineBody l).take c.character.toNat)
    else Text.byteSize l + offsetInLines c (n + 1) ls

/-- The byte offset of a cursor. -/
def offsetAt (cs : List Char) (c : Cursor) : Nat := offsetInLines c 0 (Text.lines cs)

/-- The text between the start of the cursor's line and the cursor. -/
def lineBefore (cs : List Char) (c : Cursor) : List Char :=
  let (before, _) := (Text.splitAtByte? cs (offsetAt cs c)).getD (cs, [])
  Text.lastLine before

end EntitySchema.Editor
