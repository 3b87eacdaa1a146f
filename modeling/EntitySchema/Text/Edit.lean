import EntitySchema.Text.Span

/-!
# Edits of a text

* `Edit` — a replacement for a span of a text.
* `Edit.applyFrom?` — edits applied from left to right.
* `Edit.applyAll?` — edits applied in the order of their places.
-/

namespace EntitySchema

/-- A text that takes the place of a span. -/
structure Edit where
  span : Span
  replacement : String
  deriving DecidableEq, Repr

namespace Edit

/-- The text `cs` from byte `cursor` on, after the edits. An edit that starts before the cursor or
ends past the text is left out; the result is `none` if an edit cuts a character, or goes back
behind its own start to a place that does. -/
def applyFrom? (cs : List Char) (cursor : Nat) : List Edit → Option (List Char)
  | [] => Text.slice? cs cursor (Text.byteSize cs)
  | e :: es =>
    if e.span.first.offset < cursor ∨ Text.byteSize cs ≤ e.span.last.offset then
      applyFrom? cs cursor es
    else do
      let kept ← Text.slice? cs cursor e.span.first.offset
      let rest ← applyFrom? cs (e.span.last.offset + 1) es
      return kept ++ e.replacement.toList ++ rest

/-- The edits by increasing start; edits with one start keep their order. -/
def inOrder (es : List Edit) : List Edit :=
  es.mergeSort fun a b => a.span.first.offset ≤ b.span.first.offset

/-- A text after edits, which may be given in any order. -/
def applyAll? (text : String) (es : List Edit) : Option String :=
  (applyFrom? text.toList 0 (inOrder es)).map String.ofList

end Edit

end EntitySchema
