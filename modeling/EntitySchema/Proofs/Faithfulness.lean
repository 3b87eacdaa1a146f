import EntitySchema.Proofs.Names
import EntitySchema.Proofs.Nesting
import EntitySchema.Proofs.Segmentation

/-!
# Schemas are faithful to their texts

Every name and every mark of a schema can be found in the text at the place it carries. Without
errors nothing of the text is lost: all identifiers are names, and all keywords are marks.

* `Span.covered?` — the part of a text that a span covers; `slice?_append`: parts that meet.
* `Schema.markers` — the places of all primary key markers, in source order.
* `exists_keyword_of_mem_markers`: a marker is the place of a keyword.
* `DocumentTree.keywords_tokens`: the keywords of a derivation are the markers of its schema.
* `offset_of_infix`: without errors, tokens that follow one another leave no gap.
* `covered?_arrow`: the arrow of a reference.
* **`parse_faithful`**: what the schema of a text has to do with the text.
-/

namespace EntitySchema

open Text

/-- The part of the text `cs` that a span covers. -/
def Span.covered? (s : Span) (cs : List Char) : Option (List Char) :=
  slice? cs s.first.offset (s.last.offset + 1)

theorem slice?_append {cs as bs : List Char} {i j k : Nat} (h : slice? cs i j = some as)
    (h' : slice? cs j k = some bs) : slice? cs i k = some (as ++ bs) := by
  obtain ⟨before, rest, htext, hi, hj⟩ := slice?_eq_some_iff.1 h
  obtain ⟨before', rest', htext', hj', hk⟩ := slice?_eq_some_iff.1 h'
  rw [htext, List.append_assoc before' bs rest'] at htext'
  obtain ⟨rfl, rfl⟩ := append_inj_byteSize htext' (hj.trans hj'.symm)
  refine slice?_eq_some_iff.2 ⟨before, rest', ?_, hi, ?_⟩
  · simp only [htext, List.append_assoc]
  · rw [← hk, List.append_assoc]

theorem covered?_token {text : String} {t : Token} (h : t ∈ (lex text).tokens) :
    t.span.covered? text.toList = some t.text.toList :=
  slice?_token h

theorem covered?_of_kind {text : String} {t : Token} (h : t ∈ (lex text).tokens)
    (hk : t.kind ≠ .identifier) : t.span.covered? text.toList = some t.kind.spelling.toList := by
  rw [covered?_token h, Token.text_of_spelled (spelled_of_mem_lex h) hk]

/-! ## Names -/

theorem names_sublist (text : String) :
    ((parse text).schema.shape.names.map Identifier.token).Sublist (lex text).tokens :=
  (uses_lex text).sublist

theorem token_mem_of_mem_names {text : String} {i : Identifier}
    (h : i ∈ (parse text).schema.shape.names) : i.token ∈ (lex text).tokens :=
  (names_sublist text).subset (List.mem_map_of_mem h)

theorem pairwise_before_names (text : String) :
    (parse text).schema.shape.names.Pairwise fun i j => i.span.Before j.span := by
  have h := (inOrder_lex text).before.sublist (names_sublist text)
  rwa [List.pairwise_map] at h

/-! ## Markers -/

/-- The places of the primary key markers of a statement. -/
def Statement.markers : Statement → List Span
  | empty _ => []
  | entity e => e.attributes.filterMap (·.primaryKey)

/-- The places of all primary key markers of a schema, in source order. -/
def Schema.markers (s : Schema) : List Span := s.statements.flatMap Statement.markers

theorem StatementLeaves.exists_keyword {l : StatementLeaves} {m : Span}
    (h : m ∈ l.toStatement.markers) : ∃ t ∈ l.tokens, t.kind = .primaryKey ∧ t.span = m := by
  cases l with
  | empty n => cases h
  | entity x as =>
    obtain ⟨_, hmem, hm⟩ := List.mem_filterMap.1 h
    obtain ⟨a, ha, rfl⟩ := List.mem_map.1 hmem
    obtain ⟨k, hk, rfl⟩ := Option.map_eq_some_iff.1 hm
    refine ⟨k.token, List.mem_cons_of_mem _ (List.mem_flatMap.2 ⟨a, ha, ?_⟩), k.kind_token, rfl⟩
    simp [AttributeLeaves.tokens, AttributeLeaves.tail, hk]

/-- **A marker is the place of a keyword**, also if there are errors. -/
theorem exists_keyword_of_mem_markers {text : String} {m : Span}
    (h : m ∈ (parse text).schema.markers) :
    ∃ t ∈ (lex text).tokens, t.kind = .primaryKey ∧ t.span = m := by
  obtain ⟨ls, hsub, hstatements⟩ := Parser.exists_statementLeaves (lex text).tokens
  have hschema : (parse text).schema.statements = ls.map StatementLeaves.toStatement := hstatements
  rw [Schema.markers, hschema, List.flatMap_map] at h
  obtain ⟨l, hl, hm⟩ := List.mem_flatMap.1 h
  obtain ⟨t, ht, hkind, hspan⟩ := StatementLeaves.exists_keyword hm
  exact ⟨t, hsub.subset (List.mem_flatMap.2 ⟨l, hl, ht⟩), hkind, hspan⟩

theorem AttributeTree.keywords_tokens (a : AttributeTree) :
    (ofKind .primaryKey a.tokens).map (·.span) = a.toAttribute.primaryKey.toList := by
  have hkey : (ofKind .primaryKey ((a.key.map KeyTree.tokens).getD [])).map (·.span) =
      a.toAttribute.primaryKey.toList := by
    rw [toAttribute]
    cases a.key with
    | none => rfl
    | some k => simp [KeyTree.tokens]
  have hreference : ofKind .primaryKey ((a.reference.map ReferenceTree.tokens).getD []) = [] := by
    cases a.reference with
    | none => rfl
    | some r => simp [ReferenceTree.tokens, ReferenceTree.tail]
  simp [tokens, body, tail, hkey, hreference]

theorem StatementTree.keywords_tokens (s : StatementTree) :
    (ofKind .primaryKey s.tokens).map (·.span) = s.toStatement.markers := by
  cases s with
  | empty n => simp [tokens, toStatement, Statement.markers]
  | entity x n as =>
    rw [tokens, ofKind_cons_other (by decide), ofKind_cons_other (by decide), ofKind_flatMap,
      List.map_flatMap, toStatement, Statement.markers, List.filterMap_map,
      List.filterMap_eq_flatMap_toList]
    simp only [AttributeTree.keywords_tokens]
    rfl

/-- **The keywords of a derivation are the markers of its schema.** -/
theorem DocumentTree.keywords_tokens (d : DocumentTree) :
    (ofKind .primaryKey d.tokens).map (·.span) = d.toSchema.markers := by
  rw [tokens, ofKind_flatMap, List.map_flatMap, toSchema, Schema.markers, List.flatMap_map]
  simp only [StatementTree.keywords_tokens]

/-! ## Arrows -/

theorem Abut.stop_eq_start {start stop : Nat} {ss us : List Stretch} {s s' : Stretch}
    (h : Abut start stop (ss ++ s :: s' :: us)) : s.stop = s'.start := by
  induction ss generalizing start with
  | nil => exact h.2.2.1.symm
  | cons _ ss ih => exact ih h.2.2

theorem offset_of_infix {text : String} {t u : Token} (h : (lex text).errors = [])
    (htu : [t, u] <:+: (lex text).tokens) : t.span.last.offset + 1 = u.span.first.offset := by
  have hstretches : (lex text).stretches =
      (lex text).tokens.map fun t => t.span.stretch (some t.kind) := by
    rw [Lexed.stretches, h, List.map_nil, List.merge_right]
  have hsegmentation : IsSegmentation text.toList (lex text).stretches := isSegmentation_iff.2 rfl
  have habut := hsegmentation.abut
  obtain ⟨ts, us, htokens⟩ := htu
  rw [hstretches, ← htokens, List.map_append, List.map_append, List.append_assoc] at habut
  exact habut.stop_eq_start

theorem infix_flatMap {α : Type} {xs : List α} {x : α} (f : α → List Token) (h : x ∈ xs) :
    f x <:+: xs.flatMap f :=
  List.infix_of_mem_flatten (List.mem_map_of_mem h)

theorem DocumentTree.exists_referenceTree {d : DocumentTree} {r : Reference}
    (h : r ∈ d.toSchema.references) :
    ∃ tree : ReferenceTree, tree.toReference = r ∧ tree.tokens <:+: d.tokens := by
  obtain ⟨e, he, hr⟩ := List.mem_flatMap.1 h
  obtain ⟨a, ha, hr⟩ := List.mem_filterMap.1 hr
  obtain ⟨s, hs, hentity⟩ := List.mem_filterMap.1 he
  obtain ⟨s, hmem, rfl⟩ := List.mem_map.1 hs
  cases s with
  | empty n => cases hentity
  | entity x n as =>
    cases hentity
    obtain ⟨a, hmem', rfl⟩ := List.mem_map.1 ha
    obtain ⟨tree, htree, rfl⟩ := Option.map_eq_some_iff.1 hr
    have hline : tree.tokens <:+: a.tokens := by
      have htail : a.tail = optionalToken a.gap' ++ ((a.key.map KeyTree.tokens).getD []) ++
          tree.tokens ++ [a.newline.token] := by
        rw [AttributeTree.tail, htree]
        simp
      have hinfix : tree.tokens <:+: a.tail := ⟨_, _, htail.symm⟩
      exact hinfix.trans (List.suffix_append
        [a.indent.token, a.indent'.token, a.name.token, a.gap.token, a.type.token] a.tail).isInfix
    have hstatement : a.tokens <:+: (StatementTree.entity x n as).tokens :=
      (infix_flatMap AttributeTree.tokens hmem').trans
        (List.suffix_append [x.token, n.token] _).isInfix
    exact ⟨tree, rfl, (hline.trans hstatement).trans (infix_flatMap StatementTree.tokens hmem)⟩

/-- **The arrow of a reference, in a text without errors.** -/
theorem covered?_arrow {text : String} {r : Reference} (h : (parse text).errors = [])
    (hr : r ∈ (parse text).schema.references) :
    r.arrow.covered? text.toList = some ['-', '>'] := by
  obtain ⟨d, hd, hschema⟩ := exists_derivation h
  rw [hschema] at hr
  obtain ⟨tree, rfl, hinfix⟩ := d.exists_referenceTree hr
  rw [hd] at hinfix
  have hpair : [tree.dash.token, tree.head.token] <:+: (lex text).tokens :=
    (List.prefix_append _ tree.tail.tail).isInfix.trans hinfix
  have hdash : tree.dash.token ∈ (lex text).tokens := hpair.subset (by simp)
  have hhead : tree.head.token ∈ (lex text).tokens := hpair.subset (by simp)
  have horder := (inOrder_lex text).sublist hpair.sublist
  have harrow : tree.toReference.arrow = ⟨tree.dash.token.span.first, tree.head.token.span.last⟩ :=
    Span.merge_of_before (horder.forward _ (by simp))
      ((List.pairwise_cons.1 horder.before).1 _ (by simp)) (horder.forward _ (by simp))
  have hmeet := offset_of_infix (List.append_eq_nil_iff.1 h).1 hpair
  have hfirst := covered?_of_kind hdash (by simp)
  have hlast := covered?_of_kind hhead (by simp)
  rw [Span.covered?, hmeet, tree.dash.kind_token] at hfirst
  rw [Span.covered?, tree.head.kind_token] at hlast
  rw [harrow]
  exact slice?_append hfirst hlast

/-- **A schema is faithful to its text**, in its names, its markers and its arrows. -/
theorem parse_faithful (text : String) :
    (∀ i ∈ (parse text).schema.shape.names,
        i.span.covered? text.toList = some i.name.toList ∧ isIdentifier i.name) ∧
      (parse text).schema.shape.names.Pairwise (fun i j => i.span.Before j.span) ∧
      ((parse text).schema.shape.names.map Identifier.token).Sublist (lex text).tokens ∧
      (∀ m ∈ (parse text).schema.markers,
        m.covered? text.toList = some primaryKeyWord.toList) ∧
      ((parse text).errors = [] →
        (lex text).tokens.filter (·.kind = .identifier) =
            (parse text).schema.shape.names.map Identifier.token ∧
          ((lex text).tokens.filter (·.kind = .primaryKey)).map (·.span) =
            (parse text).schema.markers ∧
          ∀ r ∈ (parse text).schema.references,
            r.arrow.covered? text.toList = some ['-', '>']) := by
  refine ⟨?_, pairwise_before_names text, names_sublist text, ?_, ?_⟩
  · intro i hi
    have hmem := token_mem_of_mem_names hi
    exact ⟨covered?_token hmem, Token.isIdentifier_of_spelled (spelled_of_mem_lex hmem) rfl⟩
  · intro m hm
    obtain ⟨t, ht, hkind, rfl⟩ := exists_keyword_of_mem_markers hm
    rw [covered?_of_kind ht (by rw [hkind]; decide), hkind]
    rfl
  · intro h
    refine ⟨identifiers_lex h, ?_, fun r hr => covered?_arrow h hr⟩
    obtain ⟨d, hd, hschema⟩ := exists_derivation h
    rw [hschema, ← hd]
    exact d.keywords_tokens

end EntitySchema
