import EntitySchema.Editor.Coordinates
import EntitySchema.Proofs.Order
import EntitySchema.Proofs.Segmentation

/-!
# Cursors in a text

An editor counts the characters of a line in units of its own choice: bytes, units of 16 bits, or
whole characters. Lines are the same for all editors.

* `Fits` — texts whose lines and columns can be counted in 32 bits.
* `Cursor.ofMark` — the cursor at a mark; `Range.ofSpan_ofText`: the range of a text in its place;
  `Fits.position_ofMark`: in a text that fits, no number is cut off.
* `Counting` — the units in which characters are counted; `Counting.split?` — the parts of a text in
  front of a cursor and behind it.
* **`Counting.split?_ofMark`**: a text of narrow characters falls into the same parts in all units.
-/

namespace EntitySchema.Editor

/-- A text with fewer than `2 ^ 32` lines, of fewer than `2 ^ 32` characters each. -/
structure Fits (cs : List Char) : Prop where
  lines : (Text.lines cs).length < 2 ^ 32
  characters : ∀ l ∈ Text.lines cs, (Text.lineBody l).length < 2 ^ 32

/-- The cursor at a mark; numbers that do not fit are taken modulo `2 ^ 32`. -/
def Cursor.ofMark (m : Mark) : Cursor :=
  ⟨.ofNat (m.position.line - 1), .ofNat (m.position.column - 1)⟩

theorem Range.ofSpan_ofText {cs : List Char} (hne : cs ≠ []) (hline : '\n' ∉ cs) (m : Mark) :
    Range.ofSpan (.ofText m cs) = ⟨.ofMark m, .ofMark (m.after cs)⟩ := by
  have hlength := List.length_pos_iff.2 hne
  have hcolumn : m.position.column + (cs.length - 1) = m.position.column + cs.length - 1 := by
    omega
  simp [ofSpan, Span.ofText, Cursor.ofMark, position_after hline, hcolumn]

/-! ## Columns of a text -/

/-- If no line of a text has more than `N` characters, no place in it is behind column `N + 1`. -/
theorem column_after_le {N : Nat} {as : List Char} (bs : List Char) {m : Mark}
    (hm : m.position.column ≤ N + 1)
    (hfirst : ∀ l ∈ (Text.lines (as ++ bs)).head?,
      m.position.column + (Text.lineBody l).length ≤ N + 1)
    (hlater : ∀ l ∈ (Text.lines (as ++ bs)).tail, (Text.lineBody l).length ≤ N) :
    (m.after as).position.column ≤ N + 1 := by
  induction as generalizing m with
  | nil => exact hm
  | cons c as ih =>
    rw [Mark.after_cons]
    rw [List.cons_append, Text.lines] at hfirst hlater
    by_cases hc : c = '\n'
    · rw [if_pos hc, List.tail_cons] at hlater
      refine ih ?_ ?_ ?_
      · simp [Mark.step, hc]
      · intro l hl
        have hl := hlater l (List.mem_of_mem_head? hl)
        simp [Mark.step, hc]
        omega
      · exact fun l hl => hlater l (List.mem_of_mem_tail hl)
    · rw [if_neg hc] at hfirst hlater
      cases hlines : Text.lines (as ++ bs) with
      | nil =>
        simp [hlines, Text.lineBody, hc] at hfirst
        rw [hlines] at ih
        refine ih ?_ (by simp) (by simp)
        simp [Mark.step, hc]
        omega
      | cons l ls =>
        simp [hlines, Text.lineBody, hc] at hfirst
        rw [hlines] at ih hlater
        refine ih ?_ ?_ hlater
        · simp [Mark.step, hc]
          omega
        · intro l' hl'
          cases hl'
          simp [Mark.step, hc, Text.lineBody]
          omega

theorem column_pos_after {m : Mark} (h : 0 < m.position.column) (cs : List Char) :
    0 < (m.after cs).position.column := by
  induction cs generalizing m with
  | nil => exact h
  | cons c cs ih =>
    refine ih ?_
    by_cases hc : c = '\n' <;> simp [Mark.step, hc]

section Fits

variable {as bs : List Char}

theorem Fits.line_lt (h : Fits (as ++ bs)) : (Mark.origin.after as).position.line - 1 < 2 ^ 32 := by
  have hline := line_after .origin as
  have hcount : (as ++ bs).count '\n' = as.count '\n' + bs.count '\n' := List.count_append
  have hlines := length_lines (as ++ bs)
  have hlt := h.lines
  have horigin : Mark.origin.position.line = 1 := rfl
  omega

theorem Fits.column_lt (h : Fits (as ++ bs)) :
    (Mark.origin.after as).position.column - 1 < 2 ^ 32 := by
  have hle : (Mark.origin.after as).position.column ≤ (2 ^ 32 - 1) + 1 := by
    refine column_after_le bs (by decide) ?_ ?_
    · intro l hl
      have hlt := h.characters l (List.mem_of_mem_head? hl)
      have horigin : Mark.origin.position.column = 1 := rfl
      omega
    · intro l hl
      have hlt := h.characters l (List.mem_of_mem_tail hl)
      omega
  omega

theorem Fits.line_ofMark (h : Fits (as ++ bs)) :
    (Cursor.ofMark (Mark.origin.after as)).line.toNat =
      (Mark.origin.after as).position.line - 1 :=
  UInt32.toNat_ofNat_of_lt h.line_lt

theorem Fits.character_ofMark (h : Fits (as ++ bs)) :
    (Cursor.ofMark (Mark.origin.after as)).character.toNat =
      (Mark.origin.after as).position.column - 1 :=
  UInt32.toNat_ofNat_of_lt h.column_lt

theorem Fits.position_ofMark (h : Fits (as ++ bs)) :
    (Cursor.ofMark (Mark.origin.after as)).position = (Mark.origin.after as).position := by
  have hline := line_after .origin as
  have hcolumn := column_pos_after (m := .origin) (by decide) as
  have hfirst : Mark.origin.position.line = 1 := rfl
  rw [Cursor.position, h.line_ofMark, h.character_ofMark, Nat.sub_add_cancel (by omega),
    Nat.sub_add_cancel hcolumn]

end Fits

/-! ## Units -/

/-- The units in which an editor counts the characters of a line. -/
inductive Counting where
  | bytes
  | units16
  | scalars
  deriving DecidableEq, Repr

namespace Counting

/-- The number of units of a character. -/
def width : Counting → Char → Nat
  | bytes, c => c.utf8Size
  | units16, c => if c.toNat < 0x10000 then 1 else 2
  | scalars, _ => 1

/-- The parts of a text in front of the cursor that is `n` units from the start of the line with the
number `line`, and behind it. There are none if the line does not reach that far, or if the cursor
is inside a character. -/
def splitAt? (u : Counting) : Nat → Nat → List Char → Option (List Char × List Char)
  | 0, 0, cs => some ([], cs)
  | 0, n + 1, c :: cs =>
    if c ≠ '\n' ∧ u.width c ≤ n + 1 then
      (u.splitAt? 0 (n + 1 - u.width c) cs).map fun p => (c :: p.1, p.2)
    else none
  | line + 1, n, c :: cs =>
    (u.splitAt? (if c = '\n' then line else line + 1) n cs).map fun p => (c :: p.1, p.2)
  | _, _, [] => none

/-- The parts of a text in front of a cursor and behind it. -/
def split? (u : Counting) (c : Cursor) (cs : List Char) : Option (List Char × List Char) :=
  u.splitAt? c.line.toNat c.character.toNat cs

/-- A character that is one unit wide in all units. -/
def Narrow (c : Char) : Prop := ∀ u : Counting, u.width c = 1

theorem narrow_of_lt {c : Char} (h : c.toNat < 128) : Narrow c := by
  intro u
  cases u with
  | bytes =>
    have hval : c.val ≤ 127 := by
      rw [UInt32.le_iff_toNat_le]
      exact Nat.le_of_lt_succ h
    exact Char.utf8Size_eq_one_iff.2 hval
  | units16 => exact if_pos (by omega)
  | scalars => rfl

theorem column_le_after {m : Mark} {cs : List Char}
    (h : (m.after cs).position.line = m.position.line) :
    m.position.column ≤ (m.after cs).position.column := by
  have hcount : cs.count '\n' = 0 := by
    have hline := line_after m cs
    omega
  rw [position_after (List.count_eq_zero.1 hcount)]
  exact Nat.le_add_right _ _

/-- The place behind `as` is found from any place in front of it. -/
theorem splitAt?_of_position (u : Counting) {as : List Char} (has : ∀ c ∈ as, Narrow c)
    (bs : List Char) {m : Mark} {line n : Nat}
    (hline : (m.after as).position.line = m.position.line + line)
    (hcolumn : (m.after as).position.column = (if line = 0 then m.position.column else 1) + n) :
    u.splitAt? line n (as ++ bs) = some (as, bs) := by
  induction as generalizing m line n with
  | nil =>
    obtain rfl : line = 0 := Nat.left_eq_add.1 hline
    obtain rfl : n = 0 := Nat.left_eq_add.1 hcolumn
    rw [splitAt?]
    rfl
  | cons c as ih =>
    obtain ⟨hc, has⟩ := List.forall_mem_cons.1 has
    rw [Mark.after_cons] at hline hcolumn
    have hcount := line_after (m.step c) as
    by_cases hnewline : c = '\n'
    · have hstep : (m.step c).position.line = m.position.line + 1 ∧
          (m.step c).position.column = 1 := by
        simp [Mark.step, hnewline]
      obtain ⟨line, rfl⟩ : ∃ line', line = line' + 1 := ⟨line - 1, by omega⟩
      have hmore : u.splitAt? line n (as ++ bs) = some (as, bs) := by
        refine ih has (m := m.step c) (by omega) ?_
        rw [hcolumn, hstep.2, ite_self, if_neg (Nat.succ_ne_zero line)]
      rw [List.cons_append, splitAt?, if_pos hnewline, hmore]
      rfl
    · have hstep : (m.step c).position.line = m.position.line ∧
          (m.step c).position.column = m.position.column + 1 := by
        simp [Mark.step, hnewline]
      cases line with
      | zero =>
        have hle : (m.step c).position.column ≤ ((m.step c).after as).position.column :=
          column_le_after (by omega)
        rw [if_pos rfl] at hcolumn
        obtain ⟨n, rfl⟩ : ∃ n', n = n' + 1 := ⟨n - 1, by omega⟩
        have hmore : u.splitAt? 0 n (as ++ bs) = some (as, bs) := by
          refine ih has (m := m.step c) (by omega) ?_
          rw [if_pos rfl]
          omega
        have hfits : c ≠ '\n' ∧ u.width c ≤ n + 1 := ⟨hnewline, by rw [hc u]; omega⟩
        rw [List.cons_append, splitAt?, if_pos hfits, hc u, Nat.add_sub_cancel, hmore]
        rfl
      | succ line =>
        have hmore : u.splitAt? (line + 1) n (as ++ bs) = some (as, bs) := by
          refine ih has (m := m.step c) (by omega) ?_
          rw [hcolumn, if_neg (Nat.succ_ne_zero line), if_neg (Nat.succ_ne_zero line)]
        rw [List.cons_append, splitAt?, if_neg hnewline, hmore]
        rfl

/-- **A text of narrow characters falls into the same parts in all units.** -/
theorem split?_ofMark (u : Counting) {as bs : List Char} (has : ∀ c ∈ as, Narrow c)
    (h : Fits (as ++ bs)) :
    u.split? (.ofMark (Mark.origin.after as)) (as ++ bs) = some (as, bs) := by
  have hline := line_after .origin as
  have hcolumn := column_pos_after (m := .origin) (by decide) as
  have hfirstLine : Mark.origin.position.line = 1 := rfl
  have hfirstColumn : Mark.origin.position.column = 1 := rfl
  rw [split?, h.line_ofMark, h.character_ofMark]
  refine u.splitAt?_of_position has bs (m := .origin) (by omega) ?_
  rw [hfirstColumn, ite_self]
  omega

end Counting

end EntitySchema.Editor
