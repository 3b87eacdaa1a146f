import EntitySchema.Proofs.Order
import EntitySchema.Proofs.Recovery
import EntitySchema.Proofs.Shape

/-!
# Documents further down

A document that starts at a later line is read as if it started at the first one, but for the places
of all that is read.

* `Shift` — the bytes and lines that come before a document; `Shift.past` — those of a text.
* `Mark.shift`, `Span.shift`, `Token.shift`, `Statement.shift`, `Diagnostic.shift` — the same thing
  further down; `merge_shift`, `Attribute.span_shift`, `Statement.span_shift`: the spans of parts are
  shifted along with what they are put together from.
* `place_shift`: tiles further down.
* `Pass.Shifted` — passes that differ by a shift; `Pass.Shifted.step`, `Pass.Shifted.foldl`: one line
  and all lines keep them so.
* **`parseTokens_shift`**: tokens further down are read to statements and errors further down.
-/

namespace EntitySchema

/-- What comes before a document. -/
structure Shift where
  bytes : Nat
  lines : Nat
  deriving DecidableEq, Repr

/-- The shift of a document that follows the text `cs`. -/
def Shift.past (cs : List Char) : Shift := ⟨Text.byteSize cs, cs.count '\n'⟩

/-! ## Places further down -/

/-- A mark further down; the column stays as it is. -/
def Mark.shift (k : Shift) (m : Mark) : Mark where
  offset := m.offset + k.bytes
  position := ⟨m.position.line + k.lines, m.position.column⟩

def Span.shift (k : Shift) (s : Span) : Span := ⟨s.first.shift k, s.last.shift k⟩

variable (k : Shift)

theorem Mark.step_shift (m : Mark) (c : Char) : (m.shift k).step c = (m.step c).shift k := by
  by_cases hc : c = '\n'
  · simp [step, shift, hc]
    omega
  · simp [step, shift, hc]
    omega

theorem Mark.after_shift (m : Mark) (cs : List Char) :
    (m.shift k).after cs = (m.after cs).shift k := by
  induction cs generalizing m with
  | nil => rfl
  | cons c cs ih => rw [after_cons, step_shift, ih, after_cons]

namespace Span

theorem ofText_shift (m : Mark) (cs : List Char) :
    ofText (m.shift k) cs = (ofText m cs).shift k := by
  simp [ofText, shift, Mark.shift]
  omega

theorem earlier_shift (a b : Mark) : earlier (a.shift k) (b.shift k) = (earlier a b).shift k := by
  by_cases h : b.offset < a.offset <;> simp [earlier, Mark.shift, h]

theorem later_shift (a b : Mark) : later (a.shift k) (b.shift k) = (later a b).shift k := by
  by_cases h : a.offset < b.offset <;> simp [later, Mark.shift, h]

theorem merge_shift (a : Span) (b : Option Span) :
    (a.shift k).merge (b.map (shift k)) = (a.merge b).shift k := by
  cases b with
  | none => rfl
  | some b =>
    rw [Option.map_some, merge_some, merge_some]
    simp only [shift, earlier_shift, later_shift]

end Span

def Token.shift (t : Token) : Token := { t with span := t.span.shift k }

def Identifier.shift (i : Identifier) : Identifier := { i with span := i.span.shift k }

def Reference.shift (r : Reference) : Reference where
  arrow := r.arrow.shift k
  targetEntity := r.targetEntity.shift k
  targetAttribute := r.targetAttribute.shift k
  span := r.span.shift k

def Attribute.shift (a : Attribute) : Attribute where
  name := a.name.shift k
  type := a.type.shift k
  primaryKey := a.primaryKey.map (Span.shift k)
  reference := a.reference.map (Reference.shift k)

def Entity.shift (e : Entity) : Entity := ⟨e.name.shift k, e.attributes.map (Attribute.shift k)⟩

/-- A statement with all its parts further down. -/
def Statement.shift : Statement → Statement
  | empty s => .empty (s.shift k)
  | entity e => .entity (e.shift k)

/-- A diagnostic further down; its code and its messages stay as they are. -/
def Diagnostic.shift (d : Diagnostic) : Diagnostic :=
  { d with
    span := d.span.shift k
    labels := d.labels.map fun l => { l with span := l.span.shift k } }

@[simp] theorem Token.kind_shift (t : Token) : (t.shift k).kind = t.kind := rfl

@[simp] theorem Token.span_shift (t : Token) : (t.shift k).span = t.span.shift k := rfl

@[simp] theorem Token.identifier_shift (t : Token) :
    (t.shift k).identifier = t.identifier.shift k := rfl

theorem Attribute.span_shift (a : Attribute) : (a.shift k).span = a.span.shift k := by
  have hreference : (a.shift k).reference.map (·.span) =
      (a.reference.map (·.span)).map (Span.shift k) := by
    rw [shift, Option.map_map, Option.map_map]
    rfl
  have htype : (a.shift k).name.span.merge (a.shift k).type.span =
      (a.name.span.merge a.type.span).shift k := Span.merge_shift k a.name.span (some a.type.span)
  have hkey : (a.shift k).primaryKey = a.primaryKey.map (Span.shift k) := rfl
  rw [span, hreference, htype, hkey, Span.merge_shift, Span.merge_shift, span]

theorem Statement.span_shift (s : Statement) : (s.shift k).span = s.span.shift k := by
  cases s with
  | empty s => rfl
  | entity e =>
    have hlast : (e.shift k).attributes.getLast?.map Attribute.span =
        (e.attributes.getLast?.map Attribute.span).map (Span.shift k) := by
      rw [Entity.shift, List.getLast?_map, Option.map_map, Option.map_map]
      exact congrArg (Option.map · _) (funext fun a => a.span_shift k)
    show (e.name.span.shift k).merge _ = _
    rw [hlast, Span.merge_shift]
    rfl

def PlacedTile.shift (p : PlacedTile) : PlacedTile := { p with span := p.span.shift k }

theorem place_shift (m : Mark) (ts : List Tile) :
    place (m.shift k) ts = (place m ts).map (PlacedTile.shift k) := by
  induction ts generalizing m with
  | nil => rfl
  | cons t ts ih =>
    rw [place, place, List.map_cons, Span.ofText_shift, Mark.after_shift, ih]
    rfl

theorem PlacedTile.token?_shift (p : PlacedTile) :
    (p.shift k).token? = p.token?.map (Token.shift k) := by
  rw [token?, token?, Option.map_map]
  rfl

theorem PlacedTile.error?_shift (p : PlacedTile) :
    (p.shift k).error? = p.error?.map (Diagnostic.shift k) := by
  obtain ⟨tile, span⟩ := p
  cases tile <;> rfl

/-! ## Lines further down -/

theorem Parser.skip_shift (kind : TokenKind) (ts : List Token) :
    skip kind (ts.map (Token.shift k)) = (skip kind ts).map (Token.shift k) := by
  cases ts with
  | nil => rfl
  | cons t ts => by_cases h : t.kind = kind <;> simp [skip, h]

theorem lineKey?_shift (ts : List Token) :
    lineKey? (ts.map (Token.shift k)) = (lineKey? ts).map (Token.shift k) := by
  cases ts with
  | nil => rfl
  | cons t ts => by_cases h : t.kind = .primaryKey <;> simp [lineKey?, Option.filter, h]

theorem lineReference?_shift (ts : List Token) :
    lineReference? (ts.map (Token.shift k)) = (lineReference? ts).map (Reference.shift k) := by
  have hmerge : ∀ a b : Span, (a.shift k).merge (b.shift k) = (a.merge b).shift k :=
    fun a b => Span.merge_shift k a (some b)
  match ts with
  | [] | [_] | [_, _] | [_, _, _] | [_, _, _, _] | [_, _, _, _, _] | [_, _, _, _, _, _] => rfl
  | dash :: head :: gap :: entity :: opening :: target :: closing :: rest =>
    simp only [List.map_cons, lineReference?, Token.kind_shift, Token.span_shift,
      Token.identifier_shift, hmerge]
    split
    · rfl
    · rfl

theorem lineAttribute?_shift (ts : List Token) :
    lineAttribute? (ts.map (Token.shift k)) = (lineAttribute? ts).map (Attribute.shift k) := by
  match ts with
  | [] | [_] | [_, _] | [_, _, _] | [_, _, _, _] => rfl
  | s :: s' :: name :: gap :: type :: rest =>
    simp only [List.map_cons, lineAttribute?, Token.kind_shift, Token.identifier_shift,
      Parser.skip_shift, lineKey?_shift, Option.isSome_map]
    split
    · rw [← List.map_tail, Parser.skip_shift, ← apply_ite (List.map (Token.shift k)),
        lineReference?_shift, Option.map_map]
      simp [Attribute.shift, Function.comp_def]
    · rfl

theorem cutLines_shift (ts : List Token) :
    cutLines (ts.map (Token.shift k)) = (cutLines ts).map (List.map (Token.shift k)) := by
  induction ts with
  | nil => rfl
  | cons t ts ih =>
    by_cases ht : t.kind = .newline
    · simp [cutLines, ht, ih]
    · rw [List.map_cons, cutLines, if_neg (by simpa using ht), cutLines, if_neg ht, ih]
      cases cutLines ts with
      | nil => rfl
      | cons line more => rfl

theorem Statement.addAttribute_shift (a : Attribute) (s : Statement) :
    (s.shift k).addAttribute (a.shift k) = (s.addAttribute a).shift k := by
  cases s with
  | empty s => rfl
  | entity e => simp [addAttribute, shift, Entity.shift]

theorem modifyLast_shift (a : Attribute) (ss : List Statement) :
    (ss.map (Statement.shift k)).modifyLast (Statement.addAttribute (a.shift k)) =
      (ss.modifyLast (Statement.addAttribute a)).map (Statement.shift k) := by
  rcases List.eq_nil_or_concat ss with rfl | ⟨ss, s, rfl⟩
  · rfl
  · rw [List.concat_eq_append, List.map_append, List.map_singleton, List.modifyLast_concat,
      List.modifyLast_concat, List.map_append, List.map_singleton, Statement.addAttribute_shift]

namespace Pass

/-- What the pass `p'` has read is what the pass `p` has read, further down. -/
structure Shifted (p p' : Pass) : Prop where
  statements : p'.statements = p.statements.map (Statement.shift k)
  inEntity : p'.inEntity = p.inEntity

variable {k} {p p' : Pass}

/-- A line further down is read to the same, further down. -/
theorem Shifted.step (h : Shifted k p p') (atEnd atEnd' : Span) (line : List Token) :
    Shifted k (p.step atEnd line) (p'.step atEnd' (line.map (Token.shift k))) := by
  obtain ⟨hstatements, hinEntity⟩ := h
  cases line with
  | nil => exact ⟨hstatements, hinEntity⟩
  | cons t ts =>
    have hattribute := lineAttribute?_shift k (t :: ts)
    rw [List.map_cons] at hattribute ⊢
    simp only [Pass.step, Token.kind_shift, hinEntity, hattribute]
    cases t.kind with
    | newline => exact ⟨by simp [hstatements, Statement.shift], rfl⟩
    | identifier => exact ⟨by simp [hstatements, Statement.shift, Entity.shift], rfl⟩
    | space =>
      cases p.inEntity with
      | false => exact ⟨hstatements, rfl⟩
      | true =>
        refine ⟨?_, rfl⟩
        cases lineAttribute? (t :: ts) with
        | none => exact hstatements
        | some a => exact (congrArg _ hstatements).trans (modifyLast_shift k a p.statements)
    | _ => exact ⟨hstatements, rfl⟩

theorem Shifted.foldl (h : Shifted k p p') (atEnd atEnd' : Span) (lines : List (List Token)) :
    Shifted k (lines.foldl (Pass.step atEnd) p)
      ((lines.map (List.map (Token.shift k))).foldl (Pass.step atEnd') p') := by
  induction lines generalizing p p' with
  | nil => exact h
  | cons line lines ih => exact ih (h.step atEnd atEnd' line)

end Pass

/-! ## Documents further down -/

theorem Parser.statements_shift (ts : List Token) :
    (statements (ts.map (Token.shift k))).1 = (statements ts).1.map (Statement.shift k) := by
  have hread : ∀ us : List Token, (statements us).1 =
      ((cutLines us).foldl (Pass.step ⟨.origin, .origin⟩) .start).statements :=
    fun us => (foldl_statements _ .start us fun _ _ _ => rfl).1.symm
  have hstart : Pass.Shifted k .start .start := ⟨rfl, rfl⟩
  rw [hread, hread, cutLines_shift]
  exact (hstart.foldl _ _ (cutLines ts)).statements

theorem Parser.diagnostic_shift {m m' : Mismatch}
    (h : MismatchRel (fun t t' => t' = t.shift k) m m') (atEnd : Span) :
    m'.diagnostic (atEnd.shift k) = (m.diagnostic atEnd).shift k := by
  obtain ⟨e, rest⟩ := m
  obtain ⟨e', rest'⟩ := m'
  obtain ⟨rfl, hrest⟩ := h
  cases hrest with
  | nil => rfl
  | cons ht _ =>
    subst ht
    rfl

/-- **Tokens further down are read to statements and errors further down.** -/
theorem parseTokens_shift (ts : List Token) :
    (parseTokens (ts.map (Token.shift k))).schema.statements =
        (parseTokens ts).schema.statements.map (Statement.shift k) ∧
      (parseTokens (ts.map (Token.shift k))).errors =
        (parseTokens ts).errors.map (Diagnostic.shift k) := by
  refine ⟨Parser.statements_shift k ts, ?_⟩
  have htokens : List.Forall₂ (fun t t' => t' = Token.shift k t) ts (ts.map (Token.shift k)) := by
    rw [List.forall₂_map_right_iff, List.forall₂_same]
    exact fun t _ => rfl
  have hmismatches := (Parser.related_statements (fun t t' h => by rw [h]; rfl) htokens).2
  cases ts with
  | nil => simp [parseTokens, Parser.statements]
  | cons t ts =>
    have hend : ((List.map (Token.shift k) (t :: ts)).getLast?.map Token.span).getD
        ⟨.origin, .origin⟩ =
          (((t :: ts).getLast?.map Token.span).getD ⟨.origin, .origin⟩).shift k := by
      rw [List.getLast?_map, List.getLast?_cons]
      rfl
    unfold parseTokens
    simp only [hend, List.map_map]
    refine (map_eq_map_of_forall₂ (hmismatches.imp fun m m' h => ?_)).symm
    exact (Parser.diagnostic_shift k h _).symm

end EntitySchema
