import EntitySchema.Schema.Basic
import EntitySchema.Schema.Mismatch

/-!
# Reading schemas

Schemas are read from tokens line by line; the first token of a line tells what it is. Each
function takes the tokens that are left and gives what it read together with the tokens behind it.
A line that does not fit is reported once, and reading goes on behind its newline.

* `Parser.expect`, `Parser.skip`, `Parser.skipLine` — single tokens and rests of lines.
* `Parser.attributeLine`, `Parser.attributes` — one attribute, and all of an entity.
* `Parser.statements` — a whole document.
* `parseTokens`, `parse` — the schema of a list of tokens and of a text, with all errors.
* `Parser.rest_attributeLine_suffix`, **`Parser.rest_attributes_suffix`**: what is left behind
  attributes is a part of what was there before.
-/

namespace EntitySchema

/-- The name that a token spells. -/
def Token.identifier (t : Token) : Identifier := ⟨t.text, t.span⟩

/-- What was read of a line: a value, the mismatch that ended it early, and the tokens behind the
line. -/
structure Line (α : Type) where
  value : α
  mismatch : Option Mismatch
  rest : List Token
  deriving Repr

namespace Parser

/-- Takes a token of kind `k` off the front. -/
def expect (k : TokenKind) (e : Expectation) : List Token → Except Mismatch (Token × List Token)
  | [] => .error ⟨e, []⟩
  | t :: ts => if t.kind = k then .ok (t, ts) else .error ⟨e, t :: ts⟩

/-- Takes an identifier off the front. -/
def expectName (e : Expectation) (ts : List Token) :
    Except Mismatch (Identifier × List Token) := do
  let (t, ts) ← expect .identifier e ts
  return (t.identifier, ts)

/-- Drops a token of kind `k` if one stands at the front. -/
def skip (k : TokenKind) : List Token → List Token
  | [] => []
  | t :: ts => if t.kind = k then ts else t :: ts

/-- Drops all tokens up to the first newline, and the newline. -/
def skipLine : List Token → List Token
  | [] => []
  | t :: ts => if t.kind = .newline then ts else skipLine ts

/-- A reader together with its recovery: behind a mismatch, the rest of the line is skipped. -/
def recover {α : Type} : Except Mismatch (α × List Token) → Line (Option α)
  | .ok (a, rest) => ⟨some a, none, rest⟩
  | .error m => ⟨none, some m, skipLine m.rest⟩

theorem recover_eq_some {α : Type} {r : Except Mismatch (α × List Token)} {a : α}
    {m : Option Mismatch} {rest : List Token} :
    recover r = ⟨some a, m, rest⟩ ↔ r = .ok (a, rest) ∧ m = none := by
  obtain m' | ⟨b, us⟩ := r
  · simp [recover]
  · simp only [recover, Line.mk.injEq, Option.some.injEq, Except.ok.injEq, Prod.mk.injEq]
    rw [eq_comm (a := none), and_assoc, and_comm (a := m = none)]

theorem recover_eq_none {α : Type} {r : Except Mismatch (α × List Token)} {m : Option Mismatch}
    {rest : List Token} :
    recover r = ⟨none, m, rest⟩ ↔ ∃ m', r = .error m' ∧ m = some m' ∧ rest = skipLine m'.rest := by
  obtain m' | ⟨b, us⟩ := r <;> simp [recover, eq_comm]

/-- Ends a line behind the tokens read so far: there has to be its newline. -/
def endLine {α : Type} (value : α) (e : Expectation) (ts : List Token) : Line α :=
  let line := recover (expect .newline e ts)
  ⟨value, line.mismatch, line.rest⟩

/-! ## Attributes -/

/-- Reads an attribute up to its type, behind the first space of its indentation. -/
def attributeHead (ts : List Token) :
    Except Mismatch ((Identifier × Identifier) × List Token) := do
  let (_, ts) ← expect .space .indentation ts
  let (name, ts) ← expectName .attributeName ts
  let (_, ts) ← expect .space .typeSeparator ts
  let (type, ts) ← expectName .attributeType ts
  return ((name, type), ts)

/-- Reads the primary key marker, if there is one, and the space behind it. -/
def primaryKey : List Token → Option Span × List Token
  | [] => (none, [])
  | t :: ts => if t.kind = .primaryKey then (some t.span, skip .space ts) else (none, t :: ts)

/-- Reads a reference behind the dash it starts with. -/
def reference (dash : Token) (ts : List Token) : Except Mismatch (Reference × List Token) := do
  let (head, ts) ← expect .greater .arrowHead ts
  let (_, ts) ← expect .space .targetSeparator ts
  let (entity, ts) ← expectName .targetEntity ts
  let (_, ts) ← expect .openParen .openParen ts
  let (target, ts) ← expectName .targetAttribute ts
  let (close, ts) ← expect .closeParen .closeParen ts
  let arrow := dash.span.merge head.span
  return (⟨arrow, entity, target, arrow.merge close.span⟩, ts)

/-- Reads what may follow the marker of the attribute `a`: a reference, and the end of the line. A
broken reference ends the line. -/
def attributeTail (a : Attribute) : List Token → Line Attribute
  | [] => endLine a .attributeEnd []
  | t :: ts =>
    if t.kind = .dash then
      match recover (reference t ts) with
      | ⟨some r, _, rest⟩ => endLine { a with reference := some r } .attributeEnd rest
      | ⟨none, m, rest⟩ => ⟨a, m, rest⟩
    else endLine a .attributeEnd (t :: ts)

/-- Reads an attribute line behind its first space. It gives an attribute as soon as the type is
known. -/
def attributeLine (ts : List Token) : Line (Option Attribute) :=
  match recover (attributeHead ts) with
  | ⟨none, m, rest⟩ => ⟨none, m, rest⟩
  | ⟨some (name, type), _, rest⟩ =>
    let key := primaryKey (skip .space rest)
    let line := attributeTail ⟨name, type, key.1, none⟩ key.2
    ⟨some line.value, line.mismatch, line.rest⟩

/-! ## What is left is a part of what was there -/

/-- Whether the tokens that a reader leaves, read or refused, end the list `ts`. -/
def Leaves {α : Type} (ts : List Token) : Except Mismatch (α × List Token) → Prop
  | .ok (_, rest) => rest <:+ ts
  | .error m => m.rest <:+ ts

theorem Leaves.bind {α β : Type} {ts : List Token} {r : Except Mismatch (α × List Token)}
    {f : α × List Token → Except Mismatch (β × List Token)} (h : Leaves ts r)
    (hf : ∀ a rest, rest <:+ ts → Leaves ts (f (a, rest))) : Leaves ts (r >>= f) :=
  match r, h with
  | .ok (a, rest), h => hf a rest h
  | .error _, h => h

theorem leaves_expect {k : TokenKind} {e : Expectation} {ts rest : List Token}
    (h : rest <:+ ts) : Leaves ts (expect k e rest) := by
  fun_cases expect k e rest with
  | case1 => exact h
  | case2 t rest => exact (List.suffix_cons t rest).trans h
  | case3 => exact h

theorem leaves_expectName {e : Expectation} {ts rest : List Token} (h : rest <:+ ts) :
    Leaves ts (expectName e rest) :=
  (leaves_expect h).bind fun _ _ h => h

theorem leaves_attributeHead (ts : List Token) : Leaves ts (attributeHead ts) :=
  (leaves_expect List.suffix_rfl).bind fun _ _ h =>
    (leaves_expectName h).bind fun _ _ h =>
      (leaves_expect h).bind fun _ _ h => (leaves_expectName h).bind fun _ _ h => h

theorem leaves_reference (dash : Token) (ts : List Token) : Leaves ts (reference dash ts) :=
  (leaves_expect List.suffix_rfl).bind fun _ _ h =>
    (leaves_expect h).bind fun _ _ h =>
      (leaves_expectName h).bind fun _ _ h =>
        (leaves_expect h).bind fun _ _ h =>
          (leaves_expectName h).bind fun _ _ h => (leaves_expect h).bind fun _ _ h => h

theorem skip_suffix (k : TokenKind) (ts : List Token) : skip k ts <:+ ts := by
  fun_cases skip k ts with
  | case1 => exact List.suffix_rfl
  | case2 t ts => exact List.suffix_cons t ts
  | case3 => exact List.suffix_rfl

theorem skipLine_suffix (ts : List Token) : skipLine ts <:+ ts := by
  fun_induction skipLine ts with
  | case1 => exact List.suffix_rfl
  | case2 t ts => exact List.suffix_cons t ts
  | case3 t ts _ ih => exact ih.trans (List.suffix_cons t ts)

theorem rest_recover_suffix {α : Type} {ts : List Token} {r : Except Mismatch (α × List Token)}
    (h : Leaves ts r) : (recover r).rest <:+ ts := by
  cases r with
  | ok p => exact h
  | error m => exact (skipLine_suffix m.rest).trans h

theorem rest_endLine_suffix {α : Type} (value : α) (e : Expectation) (ts : List Token) :
    (endLine value e ts).rest <:+ ts :=
  rest_recover_suffix (leaves_expect List.suffix_rfl)

theorem rest_primaryKey_suffix (ts : List Token) : (primaryKey ts).2 <:+ ts := by
  fun_cases primaryKey ts with
  | case1 => exact List.suffix_rfl
  | case2 t ts => exact (skip_suffix _ _).trans (List.suffix_cons t ts)
  | case3 => exact List.suffix_rfl

theorem rest_attributeTail_suffix (a : Attribute) (ts : List Token) :
    (attributeTail a ts).rest <:+ ts := by
  fun_cases attributeTail a ts with
  | case1 => exact rest_endLine_suffix _ _ _
  | case2 t ts _ r _ rest heq =>
    have h := rest_recover_suffix (leaves_reference t ts)
    rw [heq] at h
    exact (rest_endLine_suffix _ _ _).trans (h.trans (List.suffix_cons t ts))
  | case3 t ts _ m rest heq =>
    have h := rest_recover_suffix (leaves_reference t ts)
    rw [heq] at h
    exact h.trans (List.suffix_cons t ts)
  | case4 => exact rest_endLine_suffix _ _ _

theorem rest_attributeLine_suffix (ts : List Token) : (attributeLine ts).rest <:+ ts := by
  have h := rest_recover_suffix (leaves_attributeHead ts)
  fun_cases attributeLine ts with
  | case1 m rest heq => rwa [heq] at h
  | case2 name type _ rest heq key line =>
    rw [heq] at h
    exact ((rest_attributeTail_suffix _ _).trans (rest_primaryKey_suffix _)).trans
      ((skip_suffix _ _).trans h)

/-! ## Entities and documents -/

/-- What was read of several lines: the values, the mismatches, and the tokens behind the lines. -/
structure Lines (α : Type) where
  values : List α
  mismatches : List Mismatch
  rest : List Token
  deriving Repr

/-- Reads attribute lines as long as lines start with a space. -/
def attributes : List Token → Lines Attribute
  | [] => ⟨[], [], []⟩
  | t :: ts =>
    if t.kind = .space then
      let line := attributeLine ts
      let more := attributes line.rest
      ⟨line.value.toList ++ more.values, line.mismatch.toList ++ more.mismatches, more.rest⟩
    else ⟨[], [], t :: ts⟩
termination_by ts => ts.length
decreasing_by exact Nat.lt_succ_of_le (rest_attributeLine_suffix ts).length_le

/-- **What is left behind attribute lines is a part of what was there before.** -/
theorem rest_attributes_suffix (ts : List Token) : (attributes ts).rest <:+ ts := by
  fun_induction attributes ts with
  | case1 => exact List.suffix_rfl
  | case2 t ts _ line more ih =>
    exact (ih.trans (rest_attributeLine_suffix ts)).trans (List.suffix_cons t ts)
  | case3 => exact List.suffix_rfl

/-- Reads an entity behind its name: the end of the line, and the attributes. -/
def entityBody (ts : List Token) : Lines Attribute :=
  let line := endLine () .entityEnd ts
  let body := attributes line.rest
  { body with mismatches := line.mismatch.toList ++ body.mismatches }

theorem rest_entityBody_suffix (ts : List Token) : (entityBody ts).rest <:+ ts :=
  (rest_attributes_suffix _).trans (rest_endLine_suffix _ _ _)

/-- Reads a whole document: its statements, and the mismatches in the order they are met. -/
def statements : List Token → List Statement × List Mismatch
  | [] => ([], [])
  | t :: ts =>
    match t.kind with
    | .newline =>
      let more := statements ts
      (.empty t.span :: more.1, more.2)
    | .identifier =>
      let body := entityBody ts
      let more := statements body.rest
      (.entity ⟨t.identifier, body.values⟩ :: more.1, body.mismatches ++ more.2)
    | _ =>
      let more := statements (skipLine ts)
      (more.1, ⟨.statement, t :: ts⟩ :: more.2)
termination_by ts => ts.length
decreasing_by
  · exact Nat.lt_succ_self _
  · exact Nat.lt_succ_of_le (rest_entityBody_suffix ts).length_le
  · exact Nat.lt_succ_of_le (skipLine_suffix ts).length_le

end Parser

/-- A schema, as far as it could be read, and the errors met on the way. -/
structure Parsed where
  schema : Schema
  errors : List Diagnostic
  deriving DecidableEq, Repr

/-- The schema of a list of tokens. Errors at the end of input are reported at the last token. -/
def parseTokens (ts : List Token) : Parsed :=
  let document := Parser.statements ts
  let atEnd := (ts.getLast?.map Token.span).getD ⟨.origin, .origin⟩
  ⟨⟨document.1⟩, document.2.map (Mismatch.diagnostic atEnd)⟩

/-- The schema of a document; the errors of its text come before those of its grammar. -/
def parse (text : String) : Parsed :=
  let lexed := lex text
  let parsed := parseTokens lexed.tokens
  { parsed with errors := lexed.errors ++ parsed.errors }

end EntitySchema
