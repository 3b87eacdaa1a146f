import EntitySchema.Vocabulary

/-!
# Tiles of a text

Every text falls into tiles: single newlines, spaces and symbols, words, and stray runs of
characters that nothing else accounts for. Words and stray runs are as long as possible.

* `Lead` — the kind of tile that a character opens.
* `Tile` — one tile, with `Tile.chars` the text it covers.
* `tiles` — the tiles of a text.
* **`flatMap_chars_tiles`**: the tiles of a text put together are the text.
-/

namespace EntitySchema

/-- The kind of tile that a character opens. -/
inductive Lead where
  | newline
  | space
  | symbol (s : Symbol)
  | word
  | stray
  deriving DecidableEq, Repr

/-- The kind of tile that `c` opens. -/
def Lead.ofChar (c : Char) : Lead :=
  if c = '\n' then newline
  else if c = ' ' then space
  else if Word.isStart c then word
  else
    match Symbol.ofChar? c with
    | some s => symbol s
    | none => stray

/-- Whether `c` belongs to a stray run. -/
def isStray (c : Char) : Bool := Lead.ofChar c = .stray

/-- A tile of a text. Words and stray runs are given by their first character and the others. -/
inductive Tile where
  | newline
  | space
  | symbol (s : Symbol)
  | word (head : Char) (tail : List Char)
  | stray (head : Char) (tail : List Char)
  deriving DecidableEq, Repr

/-- The text that a tile covers. -/
def Tile.chars : Tile → List Char
  | newline => ['\n']
  | space => [' ']
  | symbol s => [s.char]
  | word c cs => c :: cs
  | stray c cs => c :: cs

/-- The tiles of a text, from left to right, each as long as possible. -/
def tiles : List Char → List Tile
  | [] => []
  | c :: cs =>
    match Lead.ofChar c with
    | .newline => .newline :: tiles cs
    | .space => .space :: tiles cs
    | .symbol s => .symbol s :: tiles cs
    | .word => .word c (cs.takeWhile Word.isPart) :: tiles (cs.dropWhile Word.isPart)
    | .stray => .stray c (cs.takeWhile isStray) :: tiles (cs.dropWhile isStray)
termination_by cs => cs.length
decreasing_by
  all_goals simp only [List.length_cons, Nat.lt_add_one_iff, Nat.le_refl]
  all_goals exact (List.dropWhile_suffix _).length_le

/-! ## Nothing is lost -/

theorem Lead.ofChar_eq_newline {c : Char} (h : Lead.ofChar c = .newline) : c = '\n' := by
  grind [Lead.ofChar]

theorem Lead.ofChar_eq_space {c : Char} (h : Lead.ofChar c = .space) : c = ' ' := by
  grind [Lead.ofChar]

theorem Lead.ofChar_eq_symbol {c : Char} {s : Symbol} (h : Lead.ofChar c = .symbol s) :
    s.char = c :=
  Symbol.char_of_ofChar? (by grind [Lead.ofChar])

/-- **The tiles of a text put together are the text.** -/
theorem flatMap_chars_tiles (cs : List Char) : (tiles cs).flatMap Tile.chars = cs := by
  fun_induction tiles cs with
  | case1 => rfl
  | case2 c cs h ih => simp [Tile.chars, ih, Lead.ofChar_eq_newline h]
  | case3 c cs h ih => simp [Tile.chars, ih, Lead.ofChar_eq_space h]
  | case4 c cs s h ih => simp [Tile.chars, ih, Lead.ofChar_eq_symbol h]
  | case5 c cs h ih => simp [Tile.chars, ih, List.takeWhile_append_dropWhile]
  | case6 c cs h ih => simp [Tile.chars, ih, List.takeWhile_append_dropWhile]

end EntitySchema
