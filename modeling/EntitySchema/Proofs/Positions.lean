import EntitySchema.Proofs.Order
import EntitySchema.Proofs.Segmentation

/-!
# Positions by counting

The line and the column of everything that a text is cut into can be counted off the text in front
of it: lines by newlines, columns by the characters behind the last newline.

* `positionAt?` — the position at a byte offset, by counting.
* `position_after_origin`: the mark that is reached by reading a text counts the same.
* `Span.Located` — a span whose ends have the positions that are counted at their characters.
* `Lexed.spans` — the spans of tokens and errors; `mem_spans_lex`: they are those of the tiles.
* `Span.SameOrder` — spans whose ends are ordered by bytes as they are by lines and columns;
  `sameOrder_of_mem_place`: the tiles of a text.
* **`located_lex`**: tokens and errors stand where they say, and bytes order them in the same way as
  lines and columns.
-/

namespace EntitySchema

open Text

/-- The position of the character at byte `offset` of `cs`: one more than the newlines in front of it,
and one more than the characters between the last of them and it. There is none if the offset is
past the end, or inside a character. -/
def positionAt? (cs : List Char) (offset : Nat) : Option Position :=
  (splitAtByte? cs offset).map fun p => ⟨1 + p.1.count '\n', 1 + (lastLine p.1).length⟩

theorem lastLine_concat (cs : List Char) (c : Char) :
    lastLine (cs ++ [c]) = if c = '\n' then [] else lastLine cs ++ [c] := by
  by_cases hc : c = '\n' <;> simp [lastLine, hc]

/-- **The position that is reached by reading a text is the one that is counted off it.** -/
theorem position_after_origin (cs : List Char) :
    (Mark.origin.after cs).position = ⟨1 + cs.count '\n', 1 + (lastLine cs).length⟩ := by
  -- a character at the end adds to its line or ends it, so the induction is from the right
  induction cs using List.reverseRecOn with
  | nil => rfl
  | append_singleton cs c ih =>
    rw [Mark.after_append, Mark.after_cons, Mark.after_nil, Mark.step, ih, lastLine_concat]
    by_cases hc : c = '\n'
    · simp [hc, Nat.add_comm, Nat.add_left_comm]
    · simp [hc, Nat.add_assoc]

theorem positionAt?_append (as bs : List Char) :
    positionAt? (as ++ bs) (byteSize as) = some (Mark.origin.after as).position := by
  rw [positionAt?, splitAtByte?_byteSize_append, position_after_origin]
  rfl

/-! ## Tiles -/

/-- The ends of the span `s` in the text `cs` have the positions that are counted there: the first one
that of the character it starts with, the last one that of the character whose last byte it is. -/
structure Span.Located (cs : List Char) (s : Span) : Prop where
  first : positionAt? cs s.first.offset = some s.first.position
  last : ∃ start c, s.first.offset ≤ start ∧ slice? cs start (s.last.offset + 1) = some [c] ∧
    positionAt? cs start = some s.last.position

theorem Tile.exists_chars_concat {t : Tile} (h : t.WellFormed) :
    ∃ cs c, t.chars = cs ++ [c] ∧ '\n' ∉ cs := by
  rcases List.eq_nil_or_concat t.chars with hnil | ⟨cs, c, hcs⟩
  · exact absurd hnil t.chars_ne_nil
  · rw [List.concat_eq_append] at hcs
    refine ⟨cs, c, hcs, ?_⟩
    by_cases ht : t = .newline
    · subst ht
      cases cs with
      | nil => exact List.not_mem_nil
      | cons x xs => simp [chars] at hcs
    · have hnot := t.newline_notMem_chars h ht
      rw [hcs] at hnot
      exact fun hmem => hnot (List.mem_append_left _ hmem)

/-- The text `as` and a character `c`, in their place behind the text `before`. -/
theorem located_ofText (before rest : List Char) {as : List Char} (c : Char) (has : '\n' ∉ as) :
    (Span.ofText (Mark.origin.after before) (as ++ [c])).Located (before ++ (as ++ [c] ++ rest)) := by
  have hoffset : (Mark.origin.after before).offset = byteSize before := by
    rw [Mark.offset_after]
    exact Nat.zero_add _
  have hlast : (Span.ofText (Mark.origin.after before) (as ++ [c])).last.offset + 1 =
      byteSize (before ++ as ++ [c]) := by
    have hpos := c.utf8Size_pos
    simp only [Span.ofText, hoffset, byteSize_append, byteSize_cons, byteSize_nil]
    omega
  constructor
  · show positionAt? _ (Mark.origin.after before).offset = some (Mark.origin.after before).position
    rw [hoffset, positionAt?_append]
  · refine ⟨byteSize (before ++ as), c, ?_, ?_, ?_⟩
    · show (Mark.origin.after before).offset ≤ _
      rw [hoffset, byteSize_append]
      exact Nat.le_add_right _ _
    · rw [hlast, slice?_eq_some_iff]
      exact ⟨before ++ as, rest, by simp, rfl, rfl⟩
    · have htext : before ++ (as ++ [c] ++ rest) = (before ++ as) ++ ([c] ++ rest) := by simp
      have hcolumn : (as ++ [c]).length - 1 = as.length := by simp
      rw [htext, positionAt?_append, Mark.after_append, position_after has]
      simp only [Span.ofText, hcolumn]

theorem located_of_mem_place {cs : List Char} {p : PlacedTile} (h : p ∈ place .origin (tiles cs)) :
    p.span.Located cs := by
  have hwell := (isTiling_tiles cs).wellFormed _ (tile_mem_of_mem_place h)
  obtain ⟨us, vs, htiles, hspan⟩ := exists_split_of_mem_place h
  obtain ⟨as, c, hchars, has⟩ := Tile.exists_chars_concat hwell
  have htext : cs = us.flatMap Tile.chars ++ (as ++ [c] ++ vs.flatMap Tile.chars) := by
    rw [← hchars, ← List.flatMap_cons, ← List.flatMap_append, ← htiles, flatMap_chars_tiles]
  rw [hspan, hchars, htext]
  exact located_ofText _ _ c has

/-- Bytes order the ends of `a` and `b` in the same way as lines and columns do: their first ends,
their last ends, and the end of `a` against the start of `b`. -/
structure Span.SameOrder (a b : Span) : Prop where
  first : a.first.offset ≤ b.first.offset ↔ a.first.position ≤ b.first.position
  last : a.last.offset ≤ b.last.offset ↔ a.last.position ≤ b.last.position
  apart : a.last.offset < b.first.offset ↔ a.last.position < b.first.position

section SameOrder

variable {a b : Span}

theorem Span.sameOrder_self (h : a.Forward) : a.SameOrder a where
  first := iff_of_true le_rfl le_rfl
  last := iff_of_true le_rfl le_rfl
  apart := iff_of_false (not_lt.2 h.offset) (not_lt.2 h.position)

theorem Span.Before.sameOrder (h : a.Before b) (ha : a.Forward) (hb : b.Forward) :
    a.SameOrder b ∧ b.SameOrder a := by
  have hfirst : a.first.offset < b.first.offset ∧ a.first.position < b.first.position :=
    ⟨ha.offset.trans_lt h.offset, ha.position.trans_lt h.position⟩
  have hlast : a.last.offset < b.last.offset ∧ a.last.position < b.last.position :=
    ⟨h.offset.trans_le hb.offset, h.position.trans_le hb.position⟩
  have hends : a.first.offset < b.last.offset ∧ a.first.position < b.last.position :=
    ⟨hfirst.1.trans_le hb.offset, hfirst.2.trans_le hb.position⟩
  constructor
  · exact ⟨iff_of_true hfirst.1.le hfirst.2.le, iff_of_true hlast.1.le hlast.2.le,
      iff_of_true h.offset h.position⟩
  · exact ⟨iff_of_false hfirst.1.not_ge hfirst.2.not_ge, iff_of_false hlast.1.not_ge hlast.2.not_ge,
      iff_of_false hends.1.not_gt hends.2.not_gt⟩

end SameOrder

theorem sameOrder_of_mem_place {ts : List Tile} (hts : ∀ t ∈ ts, t.WellFormed) {m : Mark}
    {p q : PlacedTile} (hp : p ∈ place m ts) (hq : q ∈ place m ts) : p.span.SameOrder q.span := by
  have hboth : (place m ts).Pairwise fun p q =>
      p.span.SameOrder q.span ∧ q.span.SameOrder p.span :=
    (pairwise_before_place hts m).imp_of_mem fun hp hq hpq =>
      hpq.sameOrder (forward_of_mem_place hp) (forward_of_mem_place hq)
  refine List.Pairwise.forall_of_forall_of_flip (R := fun p q => p.span.SameOrder q.span) ?_
    (hboth.imp And.left) (hboth.imp And.right) hp hq
  exact fun p hp => Span.sameOrder_self (forward_of_mem_place hp)

/-! ## Tokens and errors -/

/-- The spans of tokens and errors. -/
def Lexed.spans (l : Lexed) : List Span := l.tokens.map (·.span) ++ l.errors.map (·.span)

theorem mem_spans_lex {text : String} {s : Span} (h : s ∈ (lex text).spans) :
    ∃ p ∈ place .origin (tiles text.toList), p.span = s := by
  rcases List.mem_append.1 h with h | h
  · obtain ⟨t, ht, rfl⟩ := List.mem_map.1 h
    obtain ⟨p, hp, htoken⟩ := List.mem_filterMap.1 ht
    exact ⟨p, hp, (PlacedTile.token?_eq_some htoken).2.2⟩
  · obtain ⟨d, hd, rfl⟩ := List.mem_map.1 h
    obtain ⟨p, hp, herror⟩ := List.mem_filterMap.1 hd
    exact ⟨p, hp, (PlacedTile.error?_eq_some herror).1.symm⟩

/-- **Tokens and errors stand where they say**, by bytes as well as by lines and columns. -/
theorem located_lex (text : String) :
    (∀ s ∈ (lex text).spans, s.Located text.toList) ∧
      ∀ a ∈ (lex text).spans, ∀ b ∈ (lex text).spans, a.SameOrder b := by
  constructor
  · intro s hs
    obtain ⟨p, hp, rfl⟩ := mem_spans_lex hs
    exact located_of_mem_place hp
  · intro a ha b hb
    obtain ⟨p, hp, rfl⟩ := mem_spans_lex ha
    obtain ⟨q, hq, rfl⟩ := mem_spans_lex hb
    exact sameOrder_of_mem_place (isTiling_tiles text.toList).wellFormed hp hq

end EntitySchema
