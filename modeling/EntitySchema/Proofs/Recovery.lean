import EntitySchema.Proofs.Grammar
import Mathlib.Data.List.ModifyLast

/-!
# Recovery line by line

What one line of a document gives does not depend on any other line, except that it matters whether
an entity is open. So a document can be read in one pass over its lines.

* `cutLines` — the tokens cut behind each newline.
* `lineAttribute?`, `lineReference?` — the attribute and the reference on a line, told from the
  kinds of its tokens; `lineFault` — the mismatch that the line meets when it is read alone.
* `Pass`, `Pass.step`, `linePass` — the pass over the lines, with one bit for "an entity is open".
* `Parser.Keeps` — what holds of the tokens that a reader leaves; `Parser.keeps_attributeHead`,
  `Parser.keeps_reference`: what a single token other than a newline leaves true.
* `Parser.rest_attributeLine`: reading an attribute leaves exactly the tokens behind its line;
  `Parser.attributeLine_firstLine`: the tokens behind its line do not matter for it.
* `lineFault_eq_none_iff`: a line has no fault exactly if it is an attribute line of the grammar.
* **`parseTokens_eq_linePass`**: reading a document is the pass over its lines.
-/

namespace EntitySchema

/-- The tokens up to the first newline, with it. -/
def firstLine : List Token → List Token
  | [] => []
  | t :: ts => if t.kind = .newline then [t] else t :: firstLine ts

/-- The tokens cut behind each newline; the last line may have none. -/
def cutLines : List Token → List (List Token)
  | [] => []
  | t :: ts =>
    if t.kind = .newline then [t] :: cutLines ts
    else
      match cutLines ts with
      | [] => [[t]]
      | line :: more => (t :: line) :: more

@[simp] theorem cutLines_nil : cutLines [] = [] := rfl

theorem firstLine_cons_of_ne {t : Token} (h : t.kind ≠ .newline) (ts : List Token) :
    firstLine (t :: ts) = t :: firstLine ts := if_neg h

theorem Parser.skipLine_cons_of_ne {t : Token} (h : t.kind ≠ .newline) (ts : List Token) :
    skipLine (t :: ts) = skipLine ts := if_neg h

theorem cutLines_cons (t : Token) (ts : List Token) :
    cutLines (t :: ts) = firstLine (t :: ts) :: cutLines (Parser.skipLine (t :: ts)) := by
  induction ts generalizing t with
  | nil => by_cases h : t.kind = .newline <;> simp [cutLines, firstLine, Parser.skipLine, h]
  | cons u us ih =>
    by_cases h : t.kind = .newline
    · simp [cutLines, firstLine, Parser.skipLine, h]
    · rw [firstLine_cons_of_ne h, Parser.skipLine_cons_of_ne h, cutLines, if_neg h, ih u]

theorem head?_firstLine (ts : List Token) : (firstLine ts).head? = ts.head? := by
  fun_cases firstLine ts <;> rfl

theorem skipLine_firstLine (ts : List Token) : Parser.skipLine (firstLine ts) = [] := by
  fun_induction firstLine ts with
  | case1 => rfl
  | case2 t ts h => simp [Parser.skipLine, h]
  | case3 t ts h ih => rw [Parser.skipLine_cons_of_ne h, ih]

theorem skipLine_of_mem_cutLines {ts line : List Token} (h : line ∈ cutLines ts) :
    Parser.skipLine line = [] := by
  induction hn : ts.length using Nat.strong_induction_on generalizing ts with
  | _ n ih =>
    cases ts with
    | nil => cases h
    | cons t ts =>
      rw [cutLines_cons] at h
      rcases List.mem_cons.1 h with rfl | h
      · exact skipLine_firstLine _
      · refine ih _ ?_ h rfl
        have hle : (Parser.skipLine (t :: ts)).length ≤ ts.length := by
          rw [Parser.skipLine]
          split
          · exact le_rfl
          · exact (Parser.skipLine_suffix ts).length_le
        rw [← hn, List.length_cons]
        omega

/-- The reference that the tokens start with. -/
def lineReference? : List Token → Option Reference
  | dash :: head :: gap :: entity :: opening :: target :: closing :: _ =>
    if [dash, head, gap, entity, opening, target, closing].map Token.kind =
        [.dash, .greater, .space, .identifier, .openParen, .identifier, .closeParen] then
      some ⟨dash.span.merge head.span, entity.identifier, target.identifier,
        (dash.span.merge head.span).merge closing.span⟩
    else none
  | _ => none

/-- The primary key marker that the tokens start with. -/
def lineKey? (ts : List Token) : Option Token := ts.head?.filter (·.kind = .primaryKey)

/-- The attribute on a line, if it gets as far as the type. The marker may follow behind one space,
and the reference behind the marker and one more space. -/
def lineAttribute? : List Token → Option Attribute
  | s :: s' :: name :: gap :: type :: rest =>
    if [s, s', name, gap, type].map Token.kind =
        [.space, .space, .identifier, .space, .identifier] then
      let rest := Parser.skip .space rest
      let behindKey := if (lineKey? rest).isSome then Parser.skip .space rest.tail else rest
      some ⟨name.identifier, type.identifier, (lineKey? rest).map Token.span,
        lineReference? behindKey⟩
    else none
  | _ => none

/-- The mismatch that an attribute line meets when it is read alone. -/
def lineFault (line : List Token) : Option Mismatch := (Parser.attributeLine line.tail).mismatch

/-! ## The pass -/

/-- What has been read of a document, and whether its last statement is an entity that is still
open. -/
structure Pass where
  statements : List Statement
  inEntity : Bool
  errors : List Diagnostic
  deriving DecidableEq, Repr

/-- Adds an attribute to the entity that a statement declares. -/
def Statement.addAttribute (a : Attribute) : Statement → Statement
  | .empty s => .empty s
  | .entity e => .entity { e with attributes := e.attributes ++ [a] }

namespace Pass

/-- Before the first line. -/
def start : Pass := ⟨[], false, []⟩

/-- A line that nothing can be made of. -/
def refuse (atEnd : Span) (p : Pass) (line : List Token) : Pass where
  statements := p.statements
  inEntity := false
  errors := p.errors ++ [Mismatch.diagnostic atEnd ⟨.statement, line⟩]

/-- Reads one line. Errors at the end of input are reported at `atEnd`. -/
def step (atEnd : Span) (p : Pass) (line : List Token) : Pass :=
  match line with
  | [] => p
  | t :: ts =>
    match t.kind with
    | .newline => ⟨p.statements ++ [.empty t.span], false, p.errors⟩
    | .identifier =>
      let fault := if ts.head?.map Token.kind = some .newline then [] else [⟨.entityEnd, ts⟩]
      ⟨p.statements ++ [.entity ⟨t.identifier, []⟩], true,
        p.errors ++ fault.map (Mismatch.diagnostic atEnd)⟩
    | .space =>
      if p.inEntity then
        ⟨(lineAttribute? line).elim p.statements fun a =>
            p.statements.modifyLast (Statement.addAttribute a),
          true, p.errors ++ (lineFault line).toList.map (Mismatch.diagnostic atEnd)⟩
      else p.refuse atEnd line
    | _ => p.refuse atEnd line

end Pass

/-- The pass over the lines of a document. -/
def linePass (ts : List Token) : Parsed :=
  let atEnd := (ts.getLast?.map Token.span).getD ⟨.origin, .origin⟩
  let p := (cutLines ts).foldl (Pass.step atEnd) .start
  ⟨⟨p.statements⟩, p.errors⟩

namespace Parser

section Keeps

variable {α β : Type} {P : List Token → Prop} {k : TokenKind} {ts : List Token}

/-- Whether `P` holds of the tokens that a reader leaves, which may have stopped at a mismatch. -/
def Keeps (P : List Token → Prop) : Except Mismatch (α × List Token) → Prop
  | .ok (_, rest) => P rest
  | .error m => P m.rest

theorem Keeps.bind {r : Except Mismatch (α × List Token)}
    {f : α × List Token → Except Mismatch (β × List Token)} (h : Keeps P r)
    (hf : ∀ a rest, P rest → Keeps P (f (a, rest))) : Keeps P (r >>= f) := by
  cases r with
  | error m => exact h
  | ok p => exact hf p.1 p.2 h

variable (hP : ∀ t us, t.kind ≠ .newline → P (t :: us) → P us)

include hP

theorem keeps_expect (hk : k ≠ .newline) (e : Expectation) (h : P ts) :
    Keeps P (expect k e ts) := by
  fun_cases expect k e ts with
  | case1 => exact h
  | case2 t ts ht => exact hP t ts (ht ▸ hk) h
  | case3 => exact h

theorem keeps_expectName (e : Expectation) (h : P ts) : Keeps P (expectName e ts) :=
  (keeps_expect hP (by decide) e h).bind fun _ _ h => h

theorem keeps_attributeHead (h : P ts) : Keeps P (attributeHead ts) :=
  (keeps_expect hP (by decide) _ h).bind fun _ _ h =>
    (keeps_expectName hP _ h).bind fun _ _ h =>
      (keeps_expect hP (by decide) _ h).bind fun _ _ h =>
        (keeps_expectName hP _ h).bind fun _ _ h => h

theorem keeps_reference (dash : Token) (h : P ts) : Keeps P (reference dash ts) :=
  (keeps_expect hP (by decide) _ h).bind fun _ _ h =>
    (keeps_expect hP (by decide) _ h).bind fun _ _ h =>
      (keeps_expectName hP _ h).bind fun _ _ h =>
        (keeps_expect hP (by decide) _ h).bind fun _ _ h =>
          (keeps_expectName hP _ h).bind fun _ _ h =>
            (keeps_expect hP (by decide) _ h).bind fun _ _ h => h

theorem keeps_skip (hk : k ≠ .newline) (h : P ts) : P (skip k ts) := by
  fun_cases skip k ts with
  | case1 => exact h
  | case2 t ts ht => exact hP t ts (ht ▸ hk) h
  | case3 => exact h

theorem keeps_primaryKey (h : P ts) : P (primaryKey ts).2 := by
  fun_cases primaryKey ts with
  | case1 => exact h
  | case2 t ts ht => exact keeps_skip hP (by decide) (hP t ts (by rw [ht]; decide) h)
  | case3 => exact h

end Keeps

/-! ## Reading an attribute leaves the tokens behind its line -/

/-- Whether a reader, which may have stopped at a mismatch, is still on the line it started on. -/
def StaysOnLine {α : Type} (ts : List Token) : Except Mismatch (α × List Token) → Prop
  | .ok (_, rest) => skipLine rest = skipLine ts
  | .error m => skipLine m.rest = skipLine ts

section StaysOnLine

variable {α : Type} {ts : List Token}

theorem staysOnLine_of_keeps {r : Except Mismatch (α × List Token)}
    (h : Keeps (fun us => skipLine us = skipLine ts) r) : StaysOnLine ts r := by
  cases r with
  | error m => exact h
  | ok p => exact h

theorem StaysOnLine.rest_recover {r : Except Mismatch (α × List Token)} (h : StaysOnLine ts r)
    (hr : (recover r).value = none) : (recover r).rest = skipLine ts := by
  cases r with
  | ok p => cases hr
  | error m => exact h

theorem skipLine_eq_of_cons (t : Token) (us : List Token) (ht : t.kind ≠ .newline)
    (h : skipLine (t :: us) = skipLine ts) : skipLine us = skipLine ts := by
  rwa [skipLine_cons_of_ne ht] at h

theorem staysOnLine_attributeHead (ts : List Token) : StaysOnLine ts (attributeHead ts) :=
  staysOnLine_of_keeps (keeps_attributeHead skipLine_eq_of_cons rfl)

theorem staysOnLine_reference (dash : Token) (ts : List Token) :
    StaysOnLine ts (reference dash ts) :=
  staysOnLine_of_keeps (keeps_reference skipLine_eq_of_cons dash rfl)

end StaysOnLine

theorem skipLine_skip {k : TokenKind} (hk : k ≠ .newline) (ts : List Token) :
    skipLine (skip k ts) = skipLine ts :=
  keeps_skip (P := fun us => skipLine us = skipLine ts) skipLine_eq_of_cons hk rfl

theorem skipLine_primaryKey (ts : List Token) : skipLine (primaryKey ts).2 = skipLine ts :=
  keeps_primaryKey (P := fun us => skipLine us = skipLine ts) skipLine_eq_of_cons rfl

/-- The end of a line is found in any case. -/
theorem rest_endLine {α : Type} (value : α) (e : Expectation) (ts : List Token) :
    (endLine value e ts).rest = skipLine ts := by
  rw [endLine]
  cases ts with
  | nil => rfl
  | cons t ts =>
    by_cases h : t.kind = .newline
    · simp [expect, recover, skipLine, h]
    · simp [expect, recover, h]

theorem rest_attributeTail (a : Attribute) (ts : List Token) :
    (attributeTail a ts).rest = skipLine ts := by
  fun_cases attributeTail a ts with
  | case1 => exact rest_endLine _ _ _
  | case2 t ts h r _ rest heq =>
    have hstay := staysOnLine_reference t ts
    rw [(recover_eq_some.1 heq).1] at hstay
    rw [rest_endLine, skipLine_cons_of_ne (by rw [h]; decide)]
    exact hstay
  | case3 t ts h m rest heq =>
    have hrest := (staysOnLine_reference t ts).rest_recover (by rw [heq])
    rw [heq] at hrest
    rw [skipLine_cons_of_ne (by rw [h]; decide)]
    exact hrest
  | case4 t ts => exact rest_endLine _ _ _

/-- **Reading an attribute leaves exactly the tokens behind its line.** -/
theorem rest_attributeLine (ts : List Token) : (attributeLine ts).rest = skipLine ts := by
  have hstay := staysOnLine_attributeHead ts
  fun_cases attributeLine ts with
  | case1 m rest heq =>
    have hrest := hstay.rest_recover (by rw [heq])
    rwa [heq] at hrest
  | case2 name type _ rest heq key line =>
    rw [(recover_eq_some.1 heq).1] at hstay
    calc line.rest = skipLine key.2 := rest_attributeTail _ _
      _ = skipLine (skip .space rest) := skipLine_primaryKey _
      _ = skipLine rest := skipLine_skip (by decide) rest
      _ = skipLine ts := hstay

/-! ## The tokens behind its line do not matter for an attribute -/

section Alone

variable {α β : Type}

/-- A mismatch as it is met when its line stands alone. -/
def alone (m : Mismatch) : Mismatch := { m with rest := firstLine m.rest }

theorem diagnostic_alone (atEnd : Span) (m : Mismatch) :
    (alone m).diagnostic atEnd = m.diagnostic atEnd := by
  obtain ⟨e, _ | ⟨t, ts⟩⟩ := m
  · rfl
  · simp only [alone, firstLine]
    split <;> rfl

/-- What a reader gives when its line stands alone. -/
def readAlone : Except Mismatch (α × List Token) → Except Mismatch (α × List Token)
  | .ok (a, rest) => .ok (a, firstLine rest)
  | .error m => .error (alone m)

theorem bind_readAlone {r r' : Except Mismatch (α × List Token)}
    {f : α × List Token → Except Mismatch (β × List Token)} (hr : r' = readAlone r)
    (hf : ∀ a rest, f (a, firstLine rest) = readAlone (f (a, rest))) :
    (r' >>= f) = readAlone (r >>= f) := by
  rw [hr]
  cases r with
  | error m => rfl
  | ok p => exact hf p.1 p.2

theorem expect_firstLine {k : TokenKind} (hk : k ≠ .newline) (e : Expectation)
    (ts : List Token) : expect k e (firstLine ts) = readAlone (expect k e ts) := by
  cases ts with
  | nil => rfl
  | cons t ts =>
    by_cases h : t.kind = .newline
    · simp [firstLine, expect, readAlone, alone, h, hk.symm]
    · rw [firstLine_cons_of_ne h, expect, expect]
      split
      · rfl
      · rw [readAlone, alone, firstLine_cons_of_ne h]

theorem expectName_firstLine (e : Expectation) (ts : List Token) :
    expectName e (firstLine ts) = readAlone (expectName e ts) :=
  bind_readAlone (expect_firstLine (by decide) e ts) fun _ _ => rfl

theorem attributeHead_firstLine (ts : List Token) :
    attributeHead (firstLine ts) = readAlone (attributeHead ts) :=
  bind_readAlone (expect_firstLine (by decide) _ _) fun _ _ =>
    bind_readAlone (expectName_firstLine _ _) fun _ _ =>
      bind_readAlone (expect_firstLine (by decide) _ _) fun _ _ =>
        bind_readAlone (expectName_firstLine _ _) fun _ _ => rfl

theorem reference_firstLine (dash : Token) (ts : List Token) :
    reference dash (firstLine ts) = readAlone (reference dash ts) :=
  bind_readAlone (expect_firstLine (by decide) _ _) fun _ _ =>
    bind_readAlone (expect_firstLine (by decide) _ _) fun _ _ =>
      bind_readAlone (expectName_firstLine _ _) fun _ _ =>
        bind_readAlone (expect_firstLine (by decide) _ _) fun _ _ =>
          bind_readAlone (expectName_firstLine _ _) fun _ _ =>
            bind_readAlone (expect_firstLine (by decide) _ _) fun _ _ => rfl

theorem skip_firstLine {k : TokenKind} (hk : k ≠ .newline) (ts : List Token) :
    skip k (firstLine ts) = firstLine (skip k ts) := by
  cases ts with
  | nil => rfl
  | cons t ts =>
    by_cases h : t.kind = .newline
    · simp [firstLine, skip, h, hk.symm]
    · rw [firstLine_cons_of_ne h, skip, skip]
      split
      · rfl
      · rw [firstLine_cons_of_ne h]

theorem primaryKey_firstLine (ts : List Token) :
    primaryKey (firstLine ts) = ((primaryKey ts).1, firstLine (primaryKey ts).2) := by
  cases ts with
  | nil => rfl
  | cons t ts =>
    by_cases h : t.kind = .newline
    · simp [firstLine, primaryKey, h]
    · rw [firstLine_cons_of_ne h, primaryKey, primaryKey]
      split
      · rw [skip_firstLine (by decide)]
      · rw [firstLine_cons_of_ne h]

theorem mismatch_endLine_firstLine (value : α) (e : Expectation) (ts : List Token) :
    (endLine value e (firstLine ts)).mismatch = (endLine value e ts).mismatch.map alone := by
  cases ts with
  | nil => rfl
  | cons t ts =>
    by_cases h : t.kind = .newline
    · simp [firstLine, endLine, recover, expect, h]
    · simp [endLine, recover, expect, firstLine_cons_of_ne h, h, alone]

theorem attributeTail_firstLine (a : Attribute) (ts : List Token) :
    (attributeTail a (firstLine ts)).value = (attributeTail a ts).value ∧
      (attributeTail a (firstLine ts)).mismatch = (attributeTail a ts).mismatch.map alone := by
  cases ts with
  | nil => exact ⟨rfl, rfl⟩
  | cons t ts =>
    by_cases h : t.kind = .dash
    · rw [firstLine_cons_of_ne (by rw [h]; decide), attributeTail, attributeTail, if_pos h,
        if_pos h, reference_firstLine]
      cases reference t ts with
      | error m => exact ⟨rfl, rfl⟩
      | ok p => exact ⟨rfl, mismatch_endLine_firstLine _ _ p.2⟩
    · have htail : ∀ us : List Token, us.head? = some t →
          attributeTail a us = endLine a .attributeEnd us := by
        intro us hus
        obtain ⟨us, rfl⟩ := List.head?_eq_some_iff.1 hus
        rw [attributeTail, if_neg h]
      rw [htail (t :: ts) rfl, htail _ (head?_firstLine (t :: ts))]
      exact ⟨by simp, mismatch_endLine_firstLine _ _ _⟩

/-- **The tokens behind its line do not matter for an attribute.** -/
theorem attributeLine_firstLine (ts : List Token) :
    (attributeLine (firstLine ts)).value = (attributeLine ts).value ∧
      (attributeLine (firstLine ts)).mismatch = (attributeLine ts).mismatch.map alone := by
  rw [attributeLine, attributeLine, attributeHead_firstLine]
  cases attributeHead ts with
  | error m => exact ⟨rfl, rfl⟩
  | ok p =>
    obtain ⟨⟨name, type⟩, rest⟩ := p
    simp only [readAlone, recover]
    rw [skip_firstLine (by decide), primaryKey_firstLine]
    obtain ⟨hvalue, hmismatch⟩ := attributeTail_firstLine
      ⟨name, type, (primaryKey (skip .space rest)).1, none⟩ (primaryKey (skip .space rest)).2
    exact ⟨congrArg some hvalue, hmismatch⟩

end Alone

/-! ## What is read on an attribute line -/

theorem lineReference?_tokens (r : ReferenceTree) (rest : List Token) :
    lineReference? (r.tokens ++ rest) = some r.toReference := by
  simp [ReferenceTree.tokens, ReferenceTree.tail, lineReference?, ReferenceTree.toReference,
    Leaf.identifier, Token.identifier]

theorem exists_of_lineReference? {ts : List Token} {r : Reference}
    (h : lineReference? ts = some r) :
    ∃ (tree : ReferenceTree) (rest : List Token), ts = tree.tokens ++ rest := by
  fun_cases lineReference? ts with
  | case1 dash head gap entity opening target closing rest hkinds =>
    simp only [List.map_cons, List.map_nil, List.cons.injEq, and_true] at hkinds
    obtain ⟨h₁, h₂, h₃, h₄, h₅, h₆, h₇⟩ := hkinds
    exact ⟨⟨⟨dash, h₁⟩, ⟨head, h₂⟩, ⟨gap, h₃⟩, ⟨entity, h₄⟩, ⟨opening, h₅⟩, ⟨target, h₆⟩,
      ⟨closing, h₇⟩⟩, rest, rfl⟩
  | case2 dash head gap entity opening target closing rest hkinds =>
    rw [lineReference?, if_neg hkinds] at h
    cases h
  | case3 ts hts =>
    rw [lineReference?] at h
    · cases h
    · exact hts

theorem lineReference?_cons {dash : Token} (h : dash.kind = .dash) (ts : List Token) :
    lineReference? (dash :: ts) = (reference dash ts).toOption.map Prod.fst := by
  cases hr : reference dash ts with
  | ok p =>
    obtain ⟨r, rest⟩ := p
    obtain ⟨tree, htree, rfl, rfl⟩ := exists_referenceTree ⟨dash, h⟩ hr
    have hdash : dash = tree.dash.token := by rw [htree]
    rw [hdash]
    exact lineReference?_tokens tree rest
  | error m =>
    cases hline : lineReference? (dash :: ts) with
    | none => rfl
    | some r =>
      obtain ⟨tree, rest, htree⟩ := exists_of_lineReference? hline
      obtain ⟨rfl, rfl⟩ := List.cons.inj htree
      cases (reference_tail tree rest).symm.trans hr

theorem lineReference?_of_head_ne {ts : List Token} (h : ∀ t ∈ ts.head?, t.kind ≠ .dash) :
    lineReference? ts = none := by
  fun_cases lineReference? ts with
  | case1 dash _ _ _ _ _ _ _ hkinds =>
    rw [List.map_cons, List.cons.injEq] at hkinds
    exact absurd hkinds.1 (h dash rfl)
  | case2 => rfl
  | case3 => rfl

theorem value_attributeTail (a : Attribute) (h : a.reference = none) (ts : List Token) :
    (attributeTail a ts).value = { a with reference := lineReference? ts } := by
  have hnone : { a with reference := none } = a := by rw [← h]
  fun_cases attributeTail a ts with
  | case1 => exact (value_endLine _ _ _).trans hnone.symm
  | case2 t ts hdash r _ rest heq =>
    rw [value_endLine, lineReference?_cons hdash, (recover_eq_some.1 heq).1]
    rfl
  | case3 t ts hdash m rest heq =>
    obtain ⟨m', hreference, -⟩ := recover_eq_none.1 heq
    rw [lineReference?_cons hdash, hreference]
    exact hnone.symm
  | case4 t ts hdash =>
    rw [value_endLine, lineReference?_of_head_ne, hnone]
    rintro u hu
    cases hu
    exact hdash

theorem primaryKey_eq (ts : List Token) :
    primaryKey ts = ((lineKey? ts).map Token.span,
      if (lineKey? ts).isSome then skip .space ts.tail else ts) := by
  cases ts with
  | nil => rfl
  | cons t ts => by_cases h : t.kind = .primaryKey <;> simp [primaryKey, lineKey?, Option.filter, h]

theorem exists_of_lineAttribute? {line : List Token} {a : Attribute}
    (h : lineAttribute? line = some a) :
    ∃ (s s' : Leaf .space) (x : Leaf .identifier) (gap : Leaf .space) (y : Leaf .identifier)
      (rest : List Token),
      line = s.token :: s'.token :: x.token :: gap.token :: y.token :: rest := by
  fun_cases lineAttribute? line with
  | case1 s s' name gap type rest hkinds =>
    simp only [List.map_cons, List.map_nil, List.cons.injEq, and_true] at hkinds
    obtain ⟨h₁, h₂, h₃, h₄, h₅⟩ := hkinds
    exact ⟨⟨s, h₁⟩, ⟨s', h₂⟩, ⟨name, h₃⟩, ⟨gap, h₄⟩, ⟨type, h₅⟩, rest, rfl⟩
  | case2 s s' name gap type rest hkinds =>
    rw [lineAttribute?, if_neg hkinds] at h
    cases h
  | case3 line hline =>
    rw [lineAttribute?] at h
    · cases h
    · exact hline

/-- **An attribute is told from the kinds of the tokens on its line.** -/
theorem value_attributeLine {s : Token} (hs : s.kind = .space) (ts : List Token) :
    (attributeLine ts).value = lineAttribute? (s :: ts) := by
  rw [attributeLine]
  cases hhead : attributeHead ts with
  | error m =>
    cases hline : lineAttribute? (s :: ts) with
    | none => rfl
    | some a =>
      obtain ⟨s₁, s₂, x, gap, y, rest, hts⟩ := exists_of_lineAttribute? hline
      obtain ⟨rfl, rfl⟩ := List.cons.inj hts
      rw [attributeHead_tokens] at hhead
      cases hhead
  | ok p =>
    obtain ⟨⟨name, type⟩, rest⟩ := p
    obtain ⟨s', x, gap, y, rfl, rfl, rfl⟩ := attributeHead_eq_ok hhead
    simp only [recover]
    rw [value_attributeTail _ rfl, primaryKey_eq]
    simp [lineAttribute?, hs, Leaf.identifier, Token.identifier]

end Parser

/-- **A line has no fault exactly if it is an attribute line of the grammar.** -/
theorem lineFault_eq_none_iff {s : Token} {ts : List Token} (hs : s.kind = .space)
    (hline : Parser.skipLine (s :: ts) = []) :
    lineFault (s :: ts) = none ↔ (s :: ts).map Token.kind ∈ Grammar.attributeLine := by
  have hrest : (Parser.attributeLine ts).rest = [] := by
    rw [Parser.rest_attributeLine, ← Parser.skipLine_cons_of_ne (by rw [hs]; decide), hline]
  rw [derives_attribute]
  constructor
  · intro h
    obtain ⟨a, ha, hts, -⟩ := Parser.exists_attributeTree ⟨s, hs⟩ h
    rw [List.tail_cons] at hts
    rw [hrest, List.append_nil] at hts
    exact ⟨a, by rw [AttributeTree.tokens, ha, hts]⟩
  · rintro ⟨a, ha⟩
    obtain ⟨-, rfl⟩ := List.cons.inj ha
    have h := Parser.attributeLine_tokens a []
    rw [List.append_nil] at h
    rw [lineFault, List.tail_cons, h]

/-! ## Reading a document is the pass over its lines -/

namespace Parser

section Step

variable (atEnd : Span) (p : Pass) {t : Token} (ts : List Token)

theorem step_newline (h : t.kind = .newline) :
    p.step atEnd (firstLine (t :: ts)) = ⟨p.statements ++ [.empty t.span], false, p.errors⟩ := by
  simp [firstLine, Pass.step, h]

theorem step_identifier (h : t.kind = .identifier) :
    p.step atEnd (firstLine (t :: ts)) =
      ⟨p.statements ++ [.entity ⟨t.identifier, []⟩], true, p.errors ++
        (endLine () .entityEnd ts).mismatch.toList.map (Mismatch.diagnostic atEnd)⟩ := by
  rw [firstLine_cons_of_ne (by rw [h]; decide)]
  simp only [Pass.step, h, head?_firstLine]
  cases ts with
  | nil => rfl
  | cons u us =>
    by_cases hu : u.kind = .newline
    · simp [endLine, recover, expect, hu]
    · simp only [List.head?_cons, Option.map_some, Option.some.injEq, hu, if_false, endLine,
        recover, expect, Option.toList_some, List.map_cons, List.map_nil]
      exact congrArg (fun d => (⟨_, true, p.errors ++ [d]⟩ : Pass))
        (diagnostic_alone atEnd ⟨.entityEnd, u :: us⟩)

theorem step_space (h : t.kind = .space) (hp : p.inEntity = true) :
    p.step atEnd (firstLine (t :: ts)) =
      ⟨(attributeLine ts).value.elim p.statements fun a =>
          p.statements.modifyLast (Statement.addAttribute a),
        true, p.errors ++ (attributeLine ts).mismatch.toList.map (Mismatch.diagnostic atEnd)⟩ := by
  obtain ⟨hvalue, hmismatch⟩ := attributeLine_firstLine ts
  rw [firstLine_cons_of_ne (by rw [h]; decide)]
  simp only [Pass.step, h, hp, if_true, lineFault, List.tail_cons]
  rw [← value_attributeLine h, hvalue, hmismatch]
  cases (attributeLine ts).mismatch with
  | none => rfl
  | some m => simp [diagnostic_alone]

theorem step_other (hn : t.kind ≠ .newline) (hi : t.kind ≠ .identifier)
    (hs : t.kind = .space → p.inEntity = false) :
    p.step atEnd (firstLine (t :: ts)) =
      ⟨p.statements, false, p.errors ++ [Mismatch.diagnostic atEnd ⟨.statement, t :: ts⟩]⟩ := by
  have hrefuse : p.refuse atEnd (firstLine (t :: ts)) =
      ⟨p.statements, false, p.errors ++ [Mismatch.diagnostic atEnd ⟨.statement, t :: ts⟩]⟩ := by
    rw [Pass.refuse, ← diagnostic_alone atEnd ⟨.statement, t :: ts⟩]
    rfl
  rw [← hrefuse, firstLine_cons_of_ne hn, Pass.step]
  split
  · contradiction
  · contradiction
  · rw [if_neg]
    rw [hs ‹_›]
    decide
  · rfl

end Step

/-- The lines of attributes, with the entity they belong to open. -/
theorem foldl_attributes (atEnd : Span) (before : List Statement) (e : Entity)
    (errors : List Diagnostic) (ts : List Token) :
    (cutLines ts).foldl (Pass.step atEnd) ⟨before ++ [.entity e], true, errors⟩ =
      (cutLines (attributes ts).rest).foldl (Pass.step atEnd)
        ⟨before ++ [.entity { e with attributes := e.attributes ++ (attributes ts).values }], true,
          errors ++ (attributes ts).mismatches.map (Mismatch.diagnostic atEnd)⟩ := by
  fun_induction attributes ts generalizing e errors with
  | case1 => simp
  | case2 t ts hspace line more ih =>
    rw [cutLines_cons, List.foldl_cons, step_space _ _ _ hspace rfl,
      skipLine_cons_of_ne (by rw [hspace]; decide), ← rest_attributeLine]
    simp only
    cases hvalue : line.value with
    | none =>
      rw [Option.elim_none, ih]
      simp [line, more]
    | some a =>
      rw [Option.elim_some, List.modifyLast_concat, Statement.addAttribute, ih]
      simp [line, more]
  | case3 t ts => simp

theorem head_attributes_rest (ts : List Token) :
    ∀ t ∈ (attributes ts).rest.head?, t.kind ≠ .space := by
  fun_induction attributes ts with
  | case1 => simp
  | case2 t ts _ line more ih => exact ih
  | case3 t ts h => simpa using h

/-- All lines, with no entity open or none that the first of them could belong to. -/
theorem foldl_statements (atEnd : Span) (p : Pass) (ts : List Token)
    (hp : ∀ t ∈ ts.head?, t.kind = .space → p.inEntity = false) :
    ((cutLines ts).foldl (Pass.step atEnd) p).statements = p.statements ++ (statements ts).1 ∧
      ((cutLines ts).foldl (Pass.step atEnd) p).errors =
        p.errors ++ (statements ts).2.map (Mismatch.diagnostic atEnd) := by
  fun_induction statements ts generalizing p with
  | case1 => simp
  | case2 t ts hkind more ih =>
    rw [cutLines_cons, List.foldl_cons, step_newline _ _ _ hkind, skipLine, if_pos hkind]
    obtain ⟨hstatements, herrors⟩ := ih ⟨_, false, _⟩ fun _ _ _ => rfl
    rw [hstatements, herrors]
    simp [more]
  | case3 t ts hkind body more ih =>
    rw [cutLines_cons, List.foldl_cons, step_identifier _ _ _ hkind,
      skipLine_cons_of_ne (by rw [hkind]; decide), ← rest_endLine () .entityEnd, foldl_attributes]
    -- the entity stays open, but the next line is no attribute of it
    have hbody : ∀ u ∈ body.rest.head?, u.kind = .space → true = false :=
      fun u hu hs => absurd hs (head_attributes_rest _ u hu)
    obtain ⟨hstatements, herrors⟩ := ih ⟨_, true, _⟩ hbody
    simp only [body, entityBody] at hstatements herrors
    rw [hstatements, herrors]
    simp [body, more, entityBody, Token.identifier]
  | case4 t ts more hn hi ih =>
    rw [cutLines_cons, List.foldl_cons, step_other _ _ _ hn hi (hp t rfl), skipLine_cons_of_ne hn]
    obtain ⟨hstatements, herrors⟩ := ih ⟨_, false, _⟩ fun _ _ _ => rfl
    rw [hstatements, herrors]
    simp [more]

end Parser

namespace Pass

theorem length_errors_step (atEnd : Span) (p : Pass) (line : List Token) :
    (p.step atEnd line).errors.length ≤ p.errors.length + 1 := by
  have hfault : ∀ m : Option Mismatch,
      (p.errors ++ m.toList.map (Mismatch.diagnostic atEnd)).length ≤ p.errors.length + 1 := by
    intro m
    cases m <;> simp
  fun_cases step atEnd p line with
  | case1 => exact Nat.le_succ _
  | case2 => exact Nat.le_succ _
  | case3 t ts _ fault =>
    have hle : fault.length ≤ 1 := by
      simp only [fault]
      split <;> simp
    simpa using hle
  | case4 => exact hfault _
  | case5 => simp [refuse]
  | case6 => simp [refuse]

theorem length_errors_foldl (atEnd : Span) (p : Pass) (lines : List (List Token)) :
    (lines.foldl (step atEnd) p).errors.length ≤ p.errors.length + lines.length := by
  induction lines generalizing p with
  | nil => exact le_rfl
  | cons line lines ih =>
    have hstep := length_errors_step atEnd p line
    have hmore := ih (p.step atEnd line)
    rw [List.foldl_cons, List.length_cons]
    omega

end Pass

theorem parseTokens_eq_pass (ts : List Token) : parseTokens ts = linePass ts := by
  obtain ⟨hstatements, herrors⟩ :=
    Parser.foldl_statements ((ts.getLast?.map Token.span).getD ⟨.origin, .origin⟩) .start ts
      fun _ _ _ => rfl
  rw [parseTokens, linePass]
  simp only [hstatements, herrors]
  rfl

/-- **Reading a document is the pass over its lines**, each of which gives at most one error. -/
theorem parseTokens_eq_linePass (ts : List Token) :
    parseTokens ts = linePass ts ∧
      (∀ s rest, s :: rest ∈ cutLines ts → s.kind = .space →
        (lineFault (s :: rest) = none ↔ (s :: rest).map Token.kind ∈ Grammar.attributeLine)) ∧
      (parseTokens ts).errors.length ≤ (cutLines ts).length := by
  refine ⟨parseTokens_eq_pass ts, ?_, ?_⟩
  · intro s rest hline hs
    exact lineFault_eq_none_iff hs (skipLine_of_mem_cutLines hline)
  · rw [parseTokens_eq_pass]
    exact (Pass.length_errors_foldl _ .start _).trans_eq (Nat.zero_add _)

end EntitySchema
