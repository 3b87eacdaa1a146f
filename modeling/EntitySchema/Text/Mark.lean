import EntitySchema.Text.Utf8

/-!
# Places in a text

* `Position` — a line and a column, ordered by line first.
* `Mark` — a position together with its byte offset.
* `Mark.after` — the mark reached from a mark by reading a text.
-/

namespace EntitySchema

/-- A line and a column, both counted from 1; columns count characters. -/
structure Position where
  line : Nat
  column : Nat
  deriving DecidableEq, Repr

namespace Position

/-- Positions are ordered by line, and by column within a line. -/
instance : LE Position where
  le p q := p.line < q.line ∨ p.line = q.line ∧ p.column ≤ q.column

theorem le_def {p q : Position} :
    p ≤ q ↔ p.line < q.line ∨ p.line = q.line ∧ p.column ≤ q.column := Iff.rfl

instance (p q : Position) : Decidable (p ≤ q) := decidable_of_iff' _ le_def

protected theorem le_refl (p : Position) : p ≤ p := .inr ⟨rfl, Nat.le_refl _⟩

protected theorem le_trans {p q r : Position} (h : p ≤ q) (h' : q ≤ r) : p ≤ r := by
  simp only [le_def] at *; omega

protected theorem le_antisymm {p q : Position} (h : p ≤ q) (h' : q ≤ p) : p = q := by
  cases p; cases q; simp only [le_def, mk.injEq] at *; omega

protected theorem le_total (p q : Position) : p ≤ q ∨ q ≤ p := by
  simp only [le_def]; omega

end Position

/-- A place in a text: the byte offset and the position of a character. -/
structure Mark where
  offset : Nat
  position : Position
  deriving DecidableEq, Repr

namespace Mark

/-- The first place of every text. -/
def origin : Mark := ⟨0, ⟨1, 1⟩⟩

/-- The place behind the character `c` at `m`; a newline ends its line. -/
def step (m : Mark) (c : Char) : Mark where
  offset := m.offset + c.utf8Size
  position :=
    if c = '\n' then ⟨m.position.line + 1, 1⟩ else ⟨m.position.line, m.position.column + 1⟩

/-- The place behind the text `cs` at `m`. -/
def after (m : Mark) (cs : List Char) : Mark := cs.foldl step m

@[simp] theorem after_nil (m : Mark) : m.after [] = m := rfl

@[simp] theorem after_cons (m : Mark) (c : Char) (cs : List Char) :
    m.after (c :: cs) = (m.step c).after cs := rfl

theorem after_append (m : Mark) (as bs : List Char) :
    m.after (as ++ bs) = (m.after as).after bs := by
  simp [after]

@[simp] theorem offset_after (m : Mark) (cs : List Char) :
    (m.after cs).offset = m.offset + Text.byteSize cs := by
  induction cs generalizing m with
  | nil => simp
  | cons c cs ih => simp [ih, step, Nat.add_assoc]

end Mark

end EntitySchema
