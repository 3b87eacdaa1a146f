/-!
# Lines of a text

* `lines` — a text cut behind each newline.
* `lastLine` — what follows the last newline.
* **`flatten_lines`**: the lines of a text put together are the text.
-/

namespace EntitySchema.Text

/-- The lines of `cs`, each with the newline that ends it; only the last may have none. -/
def lines : List Char → List (List Char)
  | [] => []
  | c :: cs =>
    if c = '\n' then [c] :: lines cs
    else
      match lines cs with
      | [] => [[c]]
      | l :: ls => (c :: l) :: ls

/-- **The lines of a text put together are the text.** -/
theorem flatten_lines (cs : List Char) : (lines cs).flatten = cs := by
  induction cs with
  | nil => rfl
  | cons c cs ih =>
    rw [lines]
    split
    · simp [ih]
    · split
      · next h => simp [h] at ih; simp [ih]
      · next h => simp [h] at ih; simp [ih]

/-- The part of a line in front of its newline. -/
def lineBody (line : List Char) : List Char := line.takeWhile (· != '\n')

/-- The part of `cs` behind its last newline, all of it if there is none. -/
def lastLine (cs : List Char) : List Char := (cs.reverse.takeWhile (· != '\n')).reverse

end EntitySchema.Text
