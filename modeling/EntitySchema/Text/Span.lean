import EntitySchema.Text.Mark

/-!
# Spans of text

A span has two inclusive ends. Its first mark is the place of its first character; its last mark
has the position of its last character and the offset of that character's last byte.

* `Span.ofText` — the span of a text that stands at a mark.
* `Span.merge` — the span widened to cover another one, decided by byte offsets.
* `Span.contains`, `Span.encloses` — positions and spans inside a span.
-/

namespace EntitySchema

/-- A stretch of text, given by its first and last place. -/
structure Span where
  first : Mark
  last : Mark
  deriving DecidableEq, Repr

namespace Span

/-- The span of the one-line text `cs` at `m`; an empty text counts as one byte wide. -/
def ofText (m : Mark) (cs : List Char) : Span where
  first := m
  last :=
    ⟨m.offset + (Text.byteSize cs - 1),
      ⟨m.position.line, m.position.column + (cs.length - 1)⟩⟩

/-- The earlier of two marks, `a` if their offsets agree. -/
def earlier (a b : Mark) : Mark := if b.offset < a.offset then b else a

/-- The later of two marks, `a` if their offsets agree. -/
def later (a b : Mark) : Mark := if a.offset < b.offset then b else a

/-- Widens `a` to cover `b?` as well; nothing to cover leaves it as it is. -/
def merge (a : Span) : Option Span → Span
  | none => a
  | some b => ⟨earlier a.first b.first, later a.last b.last⟩

@[simp] theorem merge_none (a : Span) : a.merge none = a := rfl

@[simp] theorem merge_some (a b : Span) :
    a.merge (some b) = ⟨earlier a.first b.first, later a.last b.last⟩ := rfl

/-- Whether position `p` lies between the ends of `s`, ends included. -/
def contains (s : Span) (p : Position) : Bool :=
  s.first.position ≤ p && p ≤ s.last.position

/-- Whether `b` lies inside `a`, by offsets and by positions. -/
def encloses (a b : Span) : Bool :=
  a.first.offset ≤ b.first.offset && b.last.offset ≤ a.last.offset &&
    a.first.position ≤ b.first.position && b.last.position ≤ a.last.position

theorem contains_iff {s : Span} {p : Position} :
    s.contains p ↔ s.first.position ≤ p ∧ p ≤ s.last.position := by
  simp [contains]

theorem encloses_iff {a b : Span} :
    a.encloses b ↔ a.first.offset ≤ b.first.offset ∧ b.last.offset ≤ a.last.offset ∧
      a.first.position ≤ b.first.position ∧ b.last.position ≤ a.last.position := by
  simp [encloses, and_assoc]

end Span

end EntitySchema
