import EntitySchema.Proofs.Concatenation
import EntitySchema.Proofs.CursorOffsets

/-!
# The line in front of a cursor

What stands in front of a cursor on its line is found by going forward to the offset of the cursor,
and from there back to the newline in front of it. The pieces between the newlines of the text tell
the same at once.

* `Text.lines_induction`: induction on the lines of a text.
* `Text.lastLineStart` — the byte offset at which the last line of a text starts.
* `pieceBefore?` — what pieces tell of a cursor; `Front` — that it stands in front of the offset of
  the cursor, and a line starts with it; **`exists_front`**: it does.
* `lineSlice?` — the line in front of a cursor, by slices between byte offsets.
* **`lineBefore_exact`**: the offset of a cursor and the line in front of it, for all cursors.
-/

namespace EntitySchema

namespace Text

theorem EndsLine.eq_nil_or_concat {cs : List Char} (h : EndsLine cs) :
    cs = [] ∨ ∃ bs, cs = bs ++ ['\n'] :=
  h.imp id List.getLast?_eq_some_iff.1

theorem EndsLine.append_line {cs : List Char} (h : EndsLine cs) (l : List Char) :
    EndsLine (l ++ '\n' :: cs) := by
  refine .inr ?_
  rcases h.eq_nil_or_concat with rfl | ⟨bs, rfl⟩
  · exact List.getLast?_concat
  · rw [← List.cons_append, ← List.append_assoc]
    exact List.getLast?_concat

/-- Induction on the lines of a text, the first of which is taken off as long as it has a newline. -/
theorem lines_induction {P : List Char → Prop} (last : ∀ l, '\n' ∉ l → P l)
    (line : ∀ l cs, '\n' ∉ l → P cs → P (l ++ '\n' :: cs)) (cs : List Char) : P cs := by
  induction hlength : cs.length using Nat.strong_induction_on generalizing cs with
  | _ length ih =>
    by_cases hcs : '\n' ∈ cs
    · obtain ⟨l, more, rfl, hl⟩ := List.eq_append_cons_of_mem hcs
      refine line l more hl (ih more.length ?_ more rfl)
      rw [← hlength, List.length_append, List.length_cons]
      omega
    · exact last cs hcs

theorem lineBody_append {l rest : List Char} (hl : '\n' ∉ l) (hrest : ∀ c ∈ rest.head?, c = '\n') :
    lineBody (l ++ rest) = l :=
  (span_append (by simpa [List.forall_mem_ne'] using hl) (by simpa using hrest)).1

theorem lines_of_newline_notMem {l : List Char} (hl : '\n' ∉ l) (hne : l ≠ []) :
    lines l = [l] := by
  induction l with
  | nil => exact absurd rfl hne
  | cons c l ih =>
    obtain ⟨hc, hl⟩ := not_or.1 (mt List.mem_cons.2 hl)
    rw [lines, if_neg (Ne.symm hc)]
    cases l with
    | nil => rfl
    | cons d l => rw [ih hl (List.cons_ne_nil d l)]

theorem splitOn_append_newline {l : List Char} (hl : '\n' ∉ l) (cs : List Char) :
    (l ++ '\n' :: cs).splitOn '\n' = l :: cs.splitOn '\n' := by
  have hsplit : (l ++ '\n' :: cs).splitOnP (· == '\n') =
      l.splitOnP (· == '\n') ++ cs.splitOnP (· == '\n') :=
    List.splitOnP_append_cons l cs (by decide)
  have hfirst : l.splitOn '\n' = [l] := List.splitOn_eq_singleton hl
  rw [List.splitOn] at hfirst
  rw [List.splitOn, hsplit, hfirst]
  rfl

theorem lastLine_append {before front : List Char} (h : EndsLine before) (hfront : '\n' ∉ front) :
    lastLine (before ++ front) = front := by
  have hhead : ∀ c ∈ before.reverse.head?, (c != '\n') = false := by
    rcases h.eq_nil_or_concat with rfl | ⟨bs, rfl⟩ <;> simp
  rw [lastLine, List.reverse_append,
    (span_append (by simpa [List.forall_mem_ne'] using hfront) hhead).1, List.reverse_reverse]

/-! ## The start of the last line -/

/-- The byte offset of the last newline of a text. -/
def lastNewline? : List Char → Option Nat
  | [] => none
  | c :: cs =>
    match lastNewline? cs with
    | some n => some (c.utf8Size + n)
    | none => if c = '\n' then some 0 else none

/-- The byte offset at which the last line of a text starts. -/
def lastLineStart (cs : List Char) : Nat := ((lastNewline? cs).map (· + 1)).getD 0

theorem lastNewline?_eq_none {cs : List Char} (h : '\n' ∉ cs) : lastNewline? cs = none := by
  induction cs with
  | nil => rfl
  | cons c cs ih =>
    obtain ⟨hc, hcs⟩ := not_or.1 (mt List.mem_cons.2 h)
    rw [lastNewline?, ih hcs]
    exact if_neg (Ne.symm hc)

theorem lastNewline?_append_newline (bs : List Char) {front : List Char} (h : '\n' ∉ front) :
    lastNewline? (bs ++ '\n' :: front) = some (byteSize bs) := by
  induction bs with
  | nil =>
    rw [List.nil_append, lastNewline?, lastNewline?_eq_none h]
    rfl
  | cons c bs ih =>
    rw [List.cons_append, lastNewline?, ih]
    rfl

theorem lastLineStart_append {before front : List Char} (h : EndsLine before)
    (hfront : '\n' ∉ front) : lastLineStart (before ++ front) = byteSize before := by
  rcases h.eq_nil_or_concat with rfl | ⟨bs, rfl⟩
  · rw [lastLineStart, List.nil_append, lastNewline?_eq_none hfront]
    rfl
  · have hnewline : ('\n' : Char).utf8Size = 1 := by decide
    rw [lastLineStart, List.append_assoc, List.singleton_append,
      lastNewline?_append_newline bs hfront, byteSize_append, byteSize_cons, hnewline]
    rfl

end Text

namespace Editor

/-! ## Cursors and pieces -/

/-- What the pieces of a text between its newlines have in front of a cursor: as many characters of
the piece with the number of its line as it counts, or all of them if the piece is shorter; and the
last piece if there is none of this number. -/
def pieceBefore? (pieces : List (List Char)) (line character : Nat) : Option (List Char) :=
  match pieces[line]? with
  | some piece => some (piece.take (min character piece.length))
  | none => pieces.getLast?

theorem pieceBefore?_succ (p : List Char) {ps : List (List Char)} (hps : ps ≠ [])
    (line character : Nat) :
    pieceBefore? (p :: ps) (line + 1) character = pieceBefore? ps line character := by
  obtain ⟨q, qs, rfl⟩ := List.exists_cons_of_ne_nil hps
  rw [pieceBefore?, List.getElem?_cons_succ, List.getLast?_cons_cons]
  rfl

/-- What stands in front of the cursor `c` in the text `cs`, the first line of which is counted as `n`:
a line starts with `front`, which the pieces tell, and the offset of the cursor is behind it. -/
structure Front (c : Cursor) (n : Nat) (cs before front after : List Char) : Prop where
  text : cs = before ++ (front ++ after)
  endsLine : Text.EndsLine before
  newline : '\n' ∉ front
  offset : offsetInLines c n (Text.lines cs) = Text.byteSize (before ++ front)
  piece : pieceBefore? (cs.splitOn '\n') (c.line.toNat - n) c.character.toNat = some front

section Front

variable {c : Cursor} {n : Nat} {l cs before front after : List Char} (hl : '\n' ∉ l)
include hl

theorem offsetInLines_here {rest : List Char} (hrest : ∀ d ∈ rest.head?, d = '\n') :
    offsetInLines c c.line.toNat (Text.lines (l ++ rest)) =
      Text.byteSize (l.take c.character.toNat) := by
  have hbody := Text.lineBody_append hl hrest
  cases rest with
  | nil =>
    rw [List.append_nil] at hbody ⊢
    by_cases hne : l = []
    · rw [hne, List.take_nil]
      rfl
    · rw [Text.lines_of_newline_notMem hl hne, offsetInLines, if_pos UInt32.ofNat_toNat, hbody]
  | cons d rest =>
    obtain rfl := hrest d rfl
    rw [Text.lines_append_newline hl, offsetInLines, if_pos UInt32.ofNat_toNat,
      Text.lineBody_append hl (by simp)]

theorem front_here {rest : List Char} (hrest : ∀ d ∈ rest.head?, d = '\n') :
    Front c c.line.toNat (l ++ rest) [] (l.take c.character.toNat)
      (l.drop c.character.toNat ++ rest) where
  text := by rw [List.nil_append, ← List.append_assoc, List.take_append_drop]
  endsLine := .inl rfl
  newline := fun hmem => hl (List.mem_of_mem_take hmem)
  offset := offsetInLines_here hl hrest
  piece := by
    obtain ⟨ps, hps⟩ : ∃ ps, (l ++ rest).splitOn '\n' = l :: ps := by
      cases rest with
      | nil => exact ⟨[], by rw [List.append_nil, List.splitOn_eq_singleton hl]⟩
      | cons d rest =>
        obtain rfl := hrest d rfl
        exact ⟨_, Text.splitOn_append_newline hl rest⟩
    rw [hps]
    simp [pieceBefore?]

theorem front_last (hline : n < c.line.toNat) : Front c n l [] l [] where
  text := by simp
  endsLine := .inl rfl
  newline := hl
  offset := by
    by_cases hne : l = []
    · rw [hne]
      rfl
    · rw [Text.lines_of_newline_notMem hl hne, offsetInLines, if_neg (ofNat_ne_of_lt hline)]
      rfl
  piece := by
    obtain ⟨k, hk⟩ : ∃ k, c.line.toNat - n = k + 1 := ⟨c.line.toNat - n - 1, by omega⟩
    rw [List.splitOn_eq_singleton hl, hk]
    simp [pieceBefore?]

theorem Front.line (h : Front c (n + 1) cs before front after) (hline : n < c.line.toNat) :
    Front c n (l ++ '\n' :: cs) (l ++ '\n' :: before) front after where
  text := by simp [h.text]
  endsLine := h.endsLine.append_line l
  newline := h.newline
  offset := by
    rw [offsetInLines_of_line_lt hl _ hline, h.offset, ← Text.byteSize_append]
    simp
  piece := by
    have hnumber : c.line.toNat - n = c.line.toNat - (n + 1) + 1 := by omega
    rw [Text.splitOn_append_newline hl, hnumber, pieceBefore?_succ l (List.splitOn_ne_nil _ _),
      h.piece]

end Front

/-- **The offset of a cursor is behind the text that the pieces tell**, lines counted from `n`. -/
theorem exists_front (c : Cursor) (cs : List Char) :
    ∀ n ≤ c.line.toNat, ∃ before front after, Front c n cs before front after := by
  induction cs using Text.lines_induction with
  | last l hl =>
    intro n hn
    rcases Nat.eq_or_lt_of_le hn with rfl | hlt
    · have hhere : Front c _ (l ++ []) _ _ _ := front_here hl nofun
      rw [List.append_nil] at hhere
      exact ⟨_, _, _, hhere⟩
    · exact ⟨_, _, _, front_last hl hlt⟩
  | line l cs hl ih =>
    intro n hn
    rcases Nat.eq_or_lt_of_le hn with rfl | hlt
    · exact ⟨_, _, _, front_here hl (by simp)⟩
    · obtain ⟨before, front, after, hfront⟩ := ih (n + 1) hlt
      exact ⟨_, _, _, hfront.line hl hlt⟩

/-- The text between the start of the cursor's line and the cursor, as a slice between two byte
offsets; `none` if a slice on the way to it cuts a character, or if its ends are misplaced. -/
def lineSlice? (cs : List Char) (c : Cursor) : Option (List Char) := do
  let stop := min (offsetAt cs c) (Text.byteSize cs)
  let before ← Text.slice? cs 0 stop
  Text.slice? cs (Text.lastLineStart before) stop

section Whole

variable {cs before front after : List Char} {c : Cursor} (h : Front c 0 cs before front after)
include h

theorem Front.offsetAt_eq : offsetAt cs c = Text.byteSize (before ++ front) := h.offset

theorem Front.lineBefore_eq : lineBefore cs c = front := by
  rw [lineBefore, h.offsetAt_eq, h.text, ← List.append_assoc, Text.splitAtByte?_byteSize_append]
  exact Text.lastLine_append h.endsLine h.newline

theorem Front.offsetAt_le : offsetAt cs c ≤ Text.byteSize cs := by
  rw [h.offsetAt_eq, h.text, ← List.append_assoc, Text.byteSize_append (before ++ front)]
  exact Nat.le_add_right _ _

theorem Front.lineSlice?_eq : lineSlice? cs c = some front := by
  have hwhole : Text.slice? cs 0 (Text.byteSize (before ++ front)) = some (before ++ front) :=
    Text.slice?_eq_some_iff.2 ⟨[], after, by simp [h.text], rfl, by simp⟩
  have hslice : Text.slice? cs (Text.byteSize before) (Text.byteSize (before ++ front)) =
      some front :=
    Text.slice?_eq_some_iff.2 ⟨before, after, by simp [h.text], rfl, rfl⟩
  rw [lineSlice?, Nat.min_eq_left h.offsetAt_le, h.offsetAt_eq, hwhole]
  show Text.slice? _ (Text.lastLineStart (before ++ front)) _ = _
  rw [Text.lastLineStart_append h.endsLine h.newline, hslice]

end Whole

/-- **The line in front of a cursor is what the pieces of the text tell**, with no character cut. -/
theorem lineBefore_exact (text : String) (c : Cursor) :
    let pieces := text.toList.splitOn '\n'
    offsetAt text.toList c ≤ text.utf8ByteSize ∧
      Text.IsBoundary text.toList (offsetAt text.toList c) ∧
      lineSlice? text.toList c = some (lineBefore text.toList c) ∧
      pieceBefore? pieces c.line.toNat c.character.toNat = some (lineBefore text.toList c) ∧
      '\n' ∉ lineBefore text.toList c := by
  intro pieces
  obtain ⟨before, front, after, hfront⟩ := exists_front c text.toList 0 (Nat.zero_le _)
  rw [hfront.lineBefore_eq, ← Text.byteSize_toList]
  refine ⟨hfront.offsetAt_le, ?_, hfront.lineSlice?_eq, hfront.piece, hfront.newline⟩
  rw [hfront.offsetAt_eq, hfront.text, ← List.append_assoc]
  exact Text.isBoundary_iff.2 ⟨before ++ front, after, rfl, rfl⟩

/-- A cursor behind the end of its line, and one behind the last line. -/
example : lineBefore "é€\nab\n".toList ⟨0, 7⟩ = ['é', '€'] ∧
    lineBefore "é€\nab\n".toList ⟨2, 0⟩ = [] ∧ lineBefore "é€\nab".toList ⟨9, 0⟩ = ['a', 'b'] := by
  decide +kernel

end Editor

end EntitySchema
