import EntitySchema.Proofs.CompletedLines

/-!
# The shapes of completed lines

Each context of completion is a regular language of lines. A line is given the context that it is a
word of; no line is a word of two.

* `Shape.word` — the words `[A-Za-z_][A-Za-z_0-9]*`; `Shape.mem_word_iff`: they are what `IsWord` says.
* `CompletionContext.shape` — the lines of a context; `mem_shape_iff`: the words in such a line.
* **`CompletionContext.ofLine?_eq_some_iff`**: a line is given a context exactly if it has its shape.
* `CompletionContext.ofBytes?` — the context of a line, by slices between byte offsets;
  **`ofBytes?_eq`**: all of them lie between characters, and the context is the same.
* **`completion_shapes`**: what contexts lines are given.
-/

namespace EntitySchema

open Computability

namespace Shape

/-- The letters `[A-Za-z_]`. -/
def letter : Language Char :=
  {w | ∃ c : Char, w = [c] ∧ ('A' ≤ c ∧ c ≤ 'Z' ∨ 'a' ≤ c ∧ c ≤ 'z' ∨ c = '_')}

/-- The digits `[0-9]`. -/
def digit : Language Char := {w | ∃ c : Char, w = [c] ∧ '0' ≤ c ∧ c ≤ '9'}

/-- The words `[A-Za-z_][A-Za-z_0-9]*`. -/
def word : Language Char := letter * (letter + digit)∗

/-- The text of a string. -/
def text (s : String) : Language Char := {s.toList}

theorem isStart_iff {c : Char} :
    Word.isStart c ↔ 'A' ≤ c ∧ c ≤ 'Z' ∨ 'a' ≤ c ∧ c ≤ 'z' ∨ c = '_' := by
  have hupper : c.isUpper ↔ 'A' ≤ c ∧ c ≤ 'Z' := decide_eq_true_iff
  have hlower : c.isLower ↔ 'a' ≤ c ∧ c ≤ 'z' :=
    Bool.and_eq_true_iff.trans (and_congr decide_eq_true_iff decide_eq_true_iff)
  have halpha : c.isAlpha ↔ c.isUpper ∨ c.isLower := Bool.or_eq_true_iff
  rw [Word.isStart, Bool.or_eq_true, halpha, hupper, hlower, beq_iff_eq, or_assoc]

theorem isPart_iff {c : Char} : Word.isPart c ↔ Word.isStart c ∨ '0' ≤ c ∧ c ≤ '9' := by
  have hdigit : c.isDigit ↔ '0' ≤ c ∧ c ≤ '9' :=
    Bool.and_eq_true_iff.trans (and_congr decide_eq_true_iff decide_eq_true_iff)
  rw [Word.isPart, Bool.or_eq_true, hdigit]

theorem mem_letter_iff {w : List Char} : w ∈ letter ↔ ∃ c, w = [c] ∧ Word.isStart c := by
  simp only [isStart_iff]
  rfl

theorem mem_letter_add_digit_iff {w : List Char} :
    w ∈ letter + digit ↔ ∃ c, w = [c] ∧ Word.isPart c := by
  rw [Language.mem_add, mem_letter_iff]
  simp only [isPart_iff, and_or_left, exists_or]
  rfl

theorem mem_kstar_iff {l : Language Char} {p : Char → Prop} (hl : ∀ w, w ∈ l ↔ ∃ c, w = [c] ∧ p c)
    {w : List Char} : w ∈ l∗ ↔ ∀ c ∈ w, p c := by
  rw [Language.mem_kstar]
  constructor
  · rintro ⟨words, rfl, hwords⟩ c hc
    obtain ⟨v, hv, hc⟩ := List.mem_flatten.1 hc
    obtain ⟨d, rfl, hd⟩ := (hl v).1 (hwords v hv)
    rwa [List.mem_singleton.1 hc]
  · intro hw
    refine ⟨w.map fun c => [c], ?_, ?_⟩
    · rw [← List.flatMap_def, List.flatMap_singleton']
    · intro v hv
      obtain ⟨c, hc, rfl⟩ := List.mem_map.1 hv
      exact (hl [c]).2 ⟨c, rfl, hw c hc⟩

/-- **The words of the language are the texts that are one word.** -/
@[simp] theorem mem_word_iff {w : String} : w.toList ∈ word ↔ IsWord w := by
  rw [word, Language.mem_mul]
  constructor
  · rintro ⟨a, ha, cs, hcs, hw⟩
    obtain ⟨c, rfl, hc⟩ := mem_letter_iff.1 ha
    exact ⟨c, cs, hw.symm, hc, (mem_kstar_iff fun _ => mem_letter_add_digit_iff).1 hcs⟩
  · rintro ⟨c, cs, hw, hc, hcs⟩
    exact ⟨[c], mem_letter_iff.2 ⟨c, rfl, hc⟩, cs,
      (mem_kstar_iff fun _ => mem_letter_add_digit_iff).2 hcs, hw.symm⟩

@[simp] theorem mem_text_iff {s t : String} : s.toList ∈ text t ↔ s = t :=
  String.toList_inj

@[simp] theorem mem_mul_iff {l m : Language Char} {s : String} :
    s.toList ∈ l * m ↔ ∃ a b : String, a.toList ∈ l ∧ b.toList ∈ m ∧ a ++ b = s := by
  rw [Language.mem_mul]
  constructor
  · rintro ⟨a, ha, b, hb, hs⟩
    refine ⟨String.ofList a, String.ofList b, ?_, ?_, ?_⟩
    · rwa [String.toList_ofList]
    · rwa [String.toList_ofList]
    · rw [← String.toList_inj, String.toList_append, String.toList_ofList, String.toList_ofList, hs]
  · rintro ⟨a, b, ha, hb, rfl⟩
    exact ⟨a.toList, ha, b.toList, hb, String.toList_append.symm⟩

end Shape

/-! ## Lines of a context -/

namespace CompletionContext

open Shape

/-- The lines of a context. -/
def shape : CompletionContext → Language Char
  | attributeType => text "  " * word * text " "
  | relation => text "  " * word * text " " * word * text " "
  | relationTarget => text "  " * word * text " " * word * text " -> "

theorem mem_attributeType_iff {line : String} :
    line.toList ∈ attributeType.shape ↔ ∃ name, IsWord name ∧ "  " ++ name ++ " " = line := by
  simp [shape]

theorem mem_relation_iff {line : String} :
    line.toList ∈ relation.shape ↔
      ∃ name, IsWord name ∧ ∃ type, IsWord type ∧ "  " ++ name ++ " " ++ type ++ " " = line := by
  simp [shape]

theorem mem_relationTarget_iff {line : String} :
    line.toList ∈ relationTarget.shape ↔
      ∃ name, IsWord name ∧ ∃ type, IsWord type ∧ "  " ++ name ++ " " ++ type ++ " -> " = line := by
  simp [shape]

theorem mem_shape_iff {c : CompletionContext} {line : String} :
    line.toList ∈ c.shape ↔ ∃ words, c.Asks words line := by
  constructor
  · intro h
    cases c with
    | attributeType =>
      obtain ⟨name, hname, rfl⟩ := mem_attributeType_iff.1 h
      exact ⟨_, .attributeType hname⟩
    | relation =>
      obtain ⟨name, hname, type, htype, rfl⟩ := mem_relation_iff.1 h
      exact ⟨_, .relation hname htype⟩
    | relationTarget =>
      obtain ⟨name, hname, type, htype, rfl⟩ := mem_relationTarget_iff.1 h
      exact ⟨_, .relationTarget hname htype⟩
  · rintro ⟨words, h⟩
    cases h with
    | attributeType hname => exact mem_attributeType_iff.2 ⟨_, hname, rfl⟩
    | relation hname htype => exact mem_relation_iff.2 ⟨_, hname, _, htype, rfl⟩
    | relationTarget hname htype => exact mem_relationTarget_iff.2 ⟨_, hname, _, htype, rfl⟩

@[simp] theorem stripWord?_word_space {w : String} (h : IsWord w) (rest : List Char) :
    stripWord? (w.toList ++ ' ' :: rest) = some (' ' :: rest) := by
  obtain ⟨c, cs, hw, hstart, hpart⟩ := h
  have hend : ∀ x ∈ (' ' :: rest).head?, Word.isPart x = false := by
    rintro _ ⟨⟩
    decide
  rw [hw, List.cons_append, stripWord?, if_pos hstart, (span_append hpart hend).2]

theorem ofLine?_of_asks {c : CompletionContext} {words : List String} {line : String}
    (h : c.Asks words line) : ofLine? line.toList = some c := by
  cases h with
  | attributeType hname => simp [ofLine?, hname]
  | relation hname htype => simp [ofLine?, hname, htype]
  | relationTarget hname htype => simp [ofLine?, hname, htype]

/-- **A line is given a context exactly if it has the shape of this context.** -/
theorem ofLine?_eq_some_iff {c : CompletionContext} {line : String} :
    ofLine? line.toList = some c ↔ line.toList ∈ c.shape := by
  rw [mem_shape_iff]
  exact ⟨asks_of_ofLine?, fun ⟨_, h⟩ => ofLine?_of_asks h⟩

/-! ## Slices between byte offsets -/

/-- The text from byte `n` on; `none` if that is inside a character. -/
def from? (cs : List Char) (n : Nat) : Option (List Char) :=
  (Text.splitAtByte? cs n).map Prod.snd

/-- The characters of a text with their byte offsets, the first of which is `n`. -/
def charOffsets (n : Nat) : List Char → List (Nat × Char)
  | [] => []
  | c :: cs => (n, c) :: charOffsets (n + c.utf8Size) cs

/-- The byte offset at which the word at the front of a text ends: that of the first character which
is no part of it, or else the end of the text. -/
def wordEnd? : List Char → Option Nat
  | [] => none
  | c :: cs =>
    if Word.isStart c then
      let stop? := (charOffsets c.utf8Size cs).find? fun p => !Word.isPart p.2
      some ((stop?.map Prod.fst).getD (Text.byteSize (c :: cs)))
    else none

/-- What follows the word at the front of a text, if there is one; `none` if it does not start between
characters. -/
def stripWordAt? (cs : List Char) : Option (Option (List Char)) :=
  match wordEnd? cs with
  | none => some none
  | some n => (from? cs n).map some

/-- What follows the text `front` at the front of a text, if it stands there; `none` if it does not
start between characters. -/
def stripAt? (front cs : List Char) : Option (Option (List Char)) :=
  if front <+: cs then (from? cs (Text.byteSize front)).map some else some none

/-- The context of a line, which is cut at byte offsets; `none` if such a cut is inside a
character. -/
def ofBytes? (line : List Char) : Option (Option CompletionContext) := do
  let some rest ← stripAt? [' ', ' '] line | return none
  let some rest ← stripWordAt? rest | return none
  let some rest ← stripAt? [' '] rest | return none
  if rest = [] then
    return some attributeType
  let some rest ← stripWordAt? rest | return none
  if rest = [' '] then
    return some relation
  if rest = [' ', '-', '>', ' '] then
    return some relationTarget
  return none

theorem from?_append (as bs : List Char) : from? (as ++ bs) (Text.byteSize as) = some bs := by
  rw [from?, Text.splitAtByte?_byteSize_append]
  rfl

theorem find?_charOffsets (n : Nat) (cs : List Char) :
    (((charOffsets n cs).find? fun p => !Word.isPart p.2).map Prod.fst).getD
        (n + Text.byteSize cs) = n + Text.byteSize (cs.takeWhile Word.isPart) := by
  induction cs generalizing n with
  | nil => rfl
  | cons c cs ih =>
    by_cases hc : Word.isPart c
    · have hmore := ih (n + c.utf8Size)
      rw [charOffsets, List.find?_cons_of_neg (by simpa using hc), List.takeWhile_cons_of_pos hc,
        Text.byteSize_cons, Text.byteSize_cons, ← Nat.add_assoc, hmore, Nat.add_assoc]
    · rw [charOffsets, List.find?_cons_of_pos (by simpa using hc), List.takeWhile_cons_of_neg hc]
      rfl

theorem stripWordAt?_eq (cs : List Char) : stripWordAt? cs = some (stripWord? cs) := by
  cases cs with
  | nil => rfl
  | cons c cs =>
    by_cases hc : Word.isStart c
    · have hend : wordEnd? (c :: cs) =
          some (Text.byteSize (c :: cs.takeWhile Word.isPart)) := by
        rw [wordEnd?, if_pos hc, Text.byteSize_cons, Text.byteSize_cons]
        exact congrArg some (find?_charOffsets c.utf8Size cs)
      have htext : c :: cs = (c :: cs.takeWhile Word.isPart) ++ cs.dropWhile Word.isPart := by
        rw [List.cons_append, List.takeWhile_append_dropWhile]
      have hslice : from? (c :: cs) (Text.byteSize (c :: cs.takeWhile Word.isPart)) =
          some (cs.dropWhile Word.isPart) := by
        conv_lhs => rw [htext]
        exact from?_append _ _
      rw [stripWordAt?, hend, stripWord?, if_pos hc]
      simp only [hslice]
      rfl
    · rw [stripWordAt?, wordEnd?, if_neg hc, stripWord?, if_neg hc]

theorem stripAt?_append (front cs : List Char) : stripAt? front (front ++ cs) = some (some cs) := by
  rw [stripAt?, if_pos (List.prefix_append front cs), from?_append]
  rfl

theorem stripAt?_eq_none {front cs : List Char} (h : ¬ front <+: cs) :
    stripAt? front cs = some none := if_neg h

theorem ofLine?_eq_none {line : List Char} (h : ¬ [' ', ' '] <+: line) :
    ofLine? line = none := by
  unfold ofLine?
  split
  · exact absurd (List.prefix_append [' ', ' '] _) h
  · rfl

/-- **No slice of a line cuts a character**, and what is recognised is the context. -/
theorem ofBytes?_eq (line : List Char) : ofBytes? line = some (ofLine? line) := by
  by_cases hindent : [' ', ' '] <+: line
  · obtain ⟨behind, rfl⟩ := hindent
    rw [ofBytes?, stripAt?_append, List.cons_append, List.cons_append, List.nil_append, ofLine?]
    simp only [bind, Option.bind, stripWordAt?_eq]
    cases hname : stripWord? behind with
    | none => rfl
    | some rest =>
      by_cases hspace : [' '] <+: rest
      · obtain ⟨rest, rfl⟩ := hspace
        simp only [stripAt?_append]
        cases rest with
        | nil => rfl
        | cons c cs =>
          rw [if_neg (List.cons_ne_nil c cs)]
          cases htype : stripWord? (c :: cs) with
          | none => simp [htype]
          | some last =>
            by_cases hrelation : last = [' ']
            · simp [htype, hrelation]
            · by_cases htarget : last = [' ', '-', '>', ' ']
              · simp [htype, htarget]
              · simp [htype, hrelation, htarget]
      · -- the word goes on with something else than a space
        simp only [stripAt?_eq_none hspace]
        congr 1
        split
        · next h => exact absurd (Option.some.inj h ▸ List.prefix_rfl) hspace
        · next h => exact absurd (Option.some.inj h ▸ List.prefix_append [' '] _) hspace
        · rfl
  · rw [ofBytes?, stripAt?_eq_none hindent, ofLine?_eq_none hindent]
    rfl

end CompletionContext

/-- **A line is given a context exactly by its shape**, and no slice of it cuts a character. -/
theorem completion_shapes (line : String) :
    (∀ c : CompletionContext,
        CompletionContext.ofLine? line.toList = some c ↔ line.toList ∈ c.shape) ∧
      (CompletionContext.ofLine? line.toList = none ↔
        ∀ c : CompletionContext, line.toList ∉ c.shape) ∧
      (∀ c c' : CompletionContext, line.toList ∈ c.shape → line.toList ∈ c'.shape → c = c') ∧
      CompletionContext.ofBytes? line.toList =
        some (CompletionContext.ofLine? line.toList) := by
  refine ⟨fun c => CompletionContext.ofLine?_eq_some_iff, ?_, ?_,
    CompletionContext.ofBytes?_eq line.toList⟩
  · rw [Option.eq_none_iff_forall_ne_some]
    exact forall_congr' fun c => not_congr CompletionContext.ofLine?_eq_some_iff
  · intro c c' hc hc'
    rw [← CompletionContext.ofLine?_eq_some_iff] at hc hc'
    exact Option.some.inj (hc.symm.trans hc')

/-- A word ends in front of a wide letter, and a line with one has no shape. -/
example : CompletionContext.ofLine? "  idé ".toList = none := by decide

end EntitySchema
