import EntitySchema.Proofs.Shape
import Mathlib.Data.List.Nodup

/-!
# Where names are read from

Every token of a document serves at most once: it becomes a name of the schema, or it is the token
in front of which a mismatch is reported, or nothing is made of it.

* `Parser.faults` — the tokens in front of which mismatches are reported.
* `Parser.Uses` — a reader that makes names of some tokens and faults of others; `Uses.trans`: one
  reader behind another.
* `Parser.uses_attributeLine`, `Parser.uses_attributes`: what lines of attributes use.
* **`Parser.uses_statements`**: what a document uses.
* `ofKind` — the tokens of one kind; `DocumentTree.identifiers_tokens`: the identifiers of a
  derivation are the names of its schema.
* `exists_derivation`: a text without errors has a derivation.
* **`identifiers_lex`**: in a text without errors, every identifier becomes a name.
-/

namespace EntitySchema

variable {ν μ : Type}

theorem AttributeShape.names_map (f : ν → μ) (a : AttributeShape ν) :
    (a.map f).names = a.names.map f := by
  obtain ⟨name, type, key, _ | r⟩ := a <;> rfl

theorem StatementShape.names_map (f : ν → μ) (s : StatementShape ν) :
    (s.map f).names = s.names.map f := by
  cases s with
  | empty => rfl
  | entity n as =>
    rw [map, names, names, List.map_cons, List.flatMap_map, List.map_flatMap]
    simp only [AttributeShape.names_map]

theorem SchemaShape.names_map (f : ν → μ) (s : SchemaShape ν) :
    (s.map f).names = s.names.map f := by
  rw [map, names, names, List.flatMap_map, List.map_flatMap]
  simp only [StatementShape.names_map]

theorem names_shape_entity (e : Entity) (ss : List Statement) :
    (Schema.shape ⟨.entity e :: ss⟩).names =
      e.name :: e.attributes.flatMap (·.shape.names) ++ (Schema.shape ⟨ss⟩).names := by
  simp [Schema.shape, SchemaShape.names, Statement.shape, StatementShape.names, List.flatMap_map]

theorem token_identifier_of_kind {t : Token} (h : t.kind = .identifier) :
    t.identifier.token = t := by
  obtain ⟨kind, text, span⟩ := t
  subst h
  rfl

theorem Leaf.token_identifier (x : Leaf .identifier) : x.identifier.token = x.token :=
  token_identifier_of_kind x.kind_token

namespace Parser

/-! ## Tokens in use -/

variable {ts us rest rest' names names' heads heads' : List Token}

/-- The tokens that the identifiers were read from. -/
def written (is : List Identifier) : List Token := is.map Identifier.token

/-- The tokens in front of which mismatches are reported. -/
def faults (ms : List Mismatch) : List Token := ms.filterMap (·.rest.head?)

/-- Of the tokens `ts`, some have become `names` and others `heads`, and `rest` is left. -/
def Uses (ts names heads rest : List Token) : Prop :=
  ∃ used, (used ++ rest).Sublist ts ∧ names.Sublist used ∧ (names ++ heads).Perm used

theorem uses_names (h : (names ++ rest).Sublist ts) : Uses ts names [] rest :=
  ⟨names, h, .refl _, .of_eq (List.append_nil _)⟩

theorem Uses.mono (h : Uses us names heads rest) (hsub : us.Sublist ts) :
    Uses ts names heads rest := by
  obtain ⟨used, hused, hnames, hperm⟩ := h
  exact ⟨used, hused.trans hsub, hnames, hperm⟩

theorem Uses.trans (h : Uses ts names heads rest) (h' : Uses rest names' heads' rest') :
    Uses ts (names ++ names') (heads ++ heads') rest' := by
  obtain ⟨used, hused, hnames, hperm⟩ := h
  obtain ⟨used', hused', hnames', hperm'⟩ := h'
  refine ⟨used ++ used', ?_, hnames.append hnames', ?_⟩
  · rw [List.append_assoc]
    exact ((List.Sublist.refl used).append hused').trans hused
  · have hswap : (names ++ names' ++ (heads ++ heads')).Perm
        (names ++ heads ++ (names' ++ heads')) := by
      rw [List.append_assoc, List.append_assoc]
      exact (List.perm_append_comm_assoc names' heads heads').append_left names
    exact hswap.trans (hperm.append hperm')

theorem Uses.sublist (h : Uses ts names heads rest) : names.Sublist ts := by
  obtain ⟨used, hused, hnames, -⟩ := h
  exact (hnames.trans (List.sublist_append_left used rest)).trans hused

theorem Uses.heads_subset (h : Uses ts names heads rest) : heads ⊆ ts := by
  obtain ⟨used, hused, -, hperm⟩ := h
  intro t ht
  have hmem : t ∈ used := hperm.subset (List.mem_append_right names ht)
  exact hused.subset (List.mem_append_left rest hmem)

theorem Uses.disjoint (h : Uses ts names heads rest) (hnodup : ts.Nodup) :
    names.Disjoint heads := by
  obtain ⟨used, hused, -, hperm⟩ := h
  have hnodup' : used.Nodup := (hnodup.sublist hused).of_append_left
  exact List.disjoint_of_nodup_append (hperm.nodup_iff.2 hnodup')

theorem uses_fault (m : Mismatch) : Uses m.rest [] (faults [m]) (skipLine m.rest) := by
  refine ⟨faults [m], ?_, List.nil_sublist _, .refl _⟩
  obtain ⟨e, _ | ⟨t, ts⟩⟩ := m
  · exact .slnil
  · refine List.Sublist.cons_cons t ?_
    rw [skipLine]
    split
    · exact .refl _
    · exact (skipLine_suffix ts).sublist

theorem uses_recover {α : Type} {r : Except Mismatch (α × List Token)} (h : Leaves ts r) :
    Uses ts [] (faults (recover r).mismatch.toList) (recover r).rest := by
  cases r with
  | ok p => exact uses_names (List.IsSuffix.sublist h)
  | error m => exact (uses_fault m).mono (List.IsSuffix.sublist h)

theorem uses_endLine {α : Type} (v : α) (e : Expectation) (ts : List Token) :
    Uses ts [] (faults (endLine v e ts).mismatch.toList) (endLine v e ts).rest :=
  uses_recover (leaves_expect List.suffix_rfl)

theorem names_tail_sublist (r : ReferenceTree) :
    (written r.toReference.shape.names).Sublist r.tail := by
  show [r.entity.identifier.token, r.target.identifier.token].Sublist r.tail
  rw [r.entity.token_identifier, r.target.token_identifier]
  exact .cons _ (.cons _ (.cons_cons _ (.cons _ (.cons_cons _ (.cons _ .slnil)))))

/-- The names in a reference that may be missing. -/
def referenceNames (r : Option Reference) : List Identifier :=
  (r.map (·.shape.names)).getD []

theorem uses_attributeTail {a : Attribute} (ha : a.reference = none) (ts : List Token) :
    ∃ r : Option Reference, (attributeTail a ts).value = { a with reference := r } ∧
      Uses ts (written (referenceNames r)) (faults (attributeTail a ts).mismatch.toList)
        (attributeTail a ts).rest := by
  have hnone : a = { a with reference := none } := by rw [← ha]
  fun_cases attributeTail a ts with
  | case1 => exact ⟨none, (value_endLine _ _ _).trans hnone, uses_endLine _ _ _⟩
  | case2 t ts hdash r _ rest heq =>
    refine ⟨some r, value_endLine _ _ _, ?_⟩
    obtain ⟨hreference, -⟩ := recover_eq_some.1 heq
    obtain ⟨tree, -, rfl, rfl⟩ := exists_referenceTree ⟨t, hdash⟩ hreference
    have hnames : Uses (t :: (tree.tail ++ rest)) (written tree.toReference.shape.names) [] rest :=
      uses_names (((names_tail_sublist tree).append_right rest).cons t)
    have h := hnames.trans (uses_endLine { a with reference := some tree.toReference }
      .attributeEnd rest)
    rw [List.append_nil, List.nil_append] at h
    exact h
  | case3 t ts hdash m rest heq =>
    have h := uses_recover (leaves_reference t ts)
    rw [heq] at h
    exact ⟨none, hnone, h.mono (List.sublist_cons_self t ts)⟩
  | case4 t ts hdash => exact ⟨none, (value_endLine _ _ _).trans hnone, uses_endLine _ _ _⟩

theorem uses_attributeLine (ts : List Token) :
    Uses ts (written ((attributeLine ts).value.toList.flatMap (·.shape.names)))
      (faults (attributeLine ts).mismatch.toList) (attributeLine ts).rest := by
  fun_cases attributeLine ts with
  | case1 m rest heq =>
    have h := uses_recover (leaves_attributeHead ts)
    rwa [heq] at h
  | case2 name type _ rest heq key line =>
    obtain ⟨hhead, -⟩ := recover_eq_some.1 heq
    obtain ⟨s, x, gap, y, rfl, rfl, rfl⟩ := attributeHead_eq_ok hhead
    obtain ⟨r, hvalue, htail⟩ :=
      uses_attributeTail (a := ⟨x.identifier, y.identifier, key.1, none⟩) rfl key.2
    have hbehind : key.2.Sublist rest :=
      ((rest_primaryKey_suffix _).trans (skip_suffix _ _)).sublist
    have hhead : Uses (s.token :: x.token :: gap.token :: y.token :: rest)
        (written [x.identifier, y.identifier]) [] rest := by
      refine uses_names ?_
      show (x.identifier.token :: y.identifier.token :: rest).Sublist _
      rw [x.token_identifier, y.token_identifier]
      exact .cons _ (.cons_cons _ (.cons _ (.refl _)))
    have h := hhead.trans (htail.mono hbehind)
    rw [Option.toList_some, List.flatMap_singleton]
    show Uses _ (written line.value.shape.names) _ _
    rw [show line.value = _ from hvalue]
    cases r with
    | none => exact h
    | some r => exact h

theorem uses_attributes (ts : List Token) :
    Uses ts (written ((attributes ts).values.flatMap (·.shape.names)))
      (faults (attributes ts).mismatches) (attributes ts).rest := by
  fun_induction attributes ts with
  | case1 => exact uses_names (.refl _)
  | case2 t ts hspace line more ih =>
    have h := ((uses_attributeLine ts).mono (List.sublist_cons_self t ts)).trans ih
    rw [faults, List.filterMap_append, List.flatMap_append, written, List.map_append]
    exact h
  | case3 t ts => exact uses_names (.refl _)

theorem uses_entityBody (ts : List Token) :
    Uses ts (written ((entityBody ts).values.flatMap (·.shape.names)))
      (faults (entityBody ts).mismatches) (entityBody ts).rest := by
  have h := (uses_endLine () .entityEnd ts).trans (uses_attributes _)
  rw [List.nil_append] at h
  rw [entityBody, faults, List.filterMap_append]
  exact h

/-- **What a document uses.** -/
theorem uses_statements (ts : List Token) :
    Uses ts (written (Schema.shape ⟨(statements ts).1⟩).names) (faults (statements ts).2) [] := by
  fun_induction statements ts with
  | case1 => exact uses_names (.refl _)
  | case2 t ts hkind more ih => exact ih.mono (List.sublist_cons_self t ts)
  | case3 t ts hkind body more ih =>
    have hname : Uses (t :: ts) (written [t.identifier]) [] ts := by
      rw [written, List.map_singleton, token_identifier_of_kind hkind]
      exact uses_names (.refl _)
    have h := (hname.trans (uses_entityBody ts)).trans ih
    rw [faults, List.filterMap_append, names_shape_entity, written, List.map_append]
    exact h
  | case4 t ts more hnewline hname ih =>
    have h := uses_fault ⟨.statement, t :: ts⟩
    rw [skipLine, if_neg hnewline] at h
    exact h.trans ih

end Parser

theorem uses_lex (text : String) :
    Parser.Uses (lex text).tokens (Parser.written (parse text).schema.shape.names)
      (Parser.faults (Parser.statements (lex text).tokens).2) [] :=
  Parser.uses_statements (lex text).tokens

section OfKind

variable {k l : TokenKind}

/-- The tokens of kind `k` among some tokens. -/
def ofKind (k : TokenKind) (ts : List Token) : List Token := ts.filter (·.kind = k)

theorem mem_ofKind {ts : List Token} {t : Token} : t ∈ ofKind k ts ↔ t ∈ ts ∧ t.kind = k := by
  rw [ofKind, List.mem_filter, decide_eq_true_eq]

@[simp] theorem ofKind_nil : ofKind k [] = [] := rfl

@[simp] theorem ofKind_append (ts us : List Token) :
    ofKind k (ts ++ us) = ofKind k ts ++ ofKind k us :=
  List.filter_append ..

theorem ofKind_flatMap {α : Type} (xs : List α) (f : α → List Token) :
    ofKind k (xs.flatMap f) = xs.flatMap fun x => ofKind k (f x) := List.filter_flatMap ..

@[simp] theorem ofKind_cons_self (x : Leaf k) (ts : List Token) :
    ofKind k (x.token :: ts) = x.token :: ofKind k ts :=
  List.filter_cons_of_pos (by simp)

@[simp] theorem ofKind_cons_other (h : l ≠ k) (x : Leaf l) (ts : List Token) :
    ofKind k (x.token :: ts) = ofKind k ts :=
  List.filter_cons_of_neg (by simpa using h)

@[simp] theorem ofKind_optionalToken (h : l ≠ k) (x : Option (Leaf l)) :
    ofKind k (optionalToken x) = [] := by
  cases x with
  | none => rfl
  | some x => exact ofKind_cons_other h x []

end OfKind

/-! ## Identifiers are names -/

theorem ofKind_cons_name (x : Leaf .identifier) (ts : List Token) :
    ofKind .identifier (x.token :: ts) = x.identifier.token :: ofKind .identifier ts := by
  rw [x.token_identifier, ofKind_cons_self]

theorem KeyTree.identifiers_tokens (k : KeyTree) : ofKind .identifier k.tokens = [] := by
  rw [tokens, ofKind_cons_other (by decide), ofKind_optionalToken (by decide)]

theorem ReferenceTree.identifiers_tokens (r : ReferenceTree) :
    ofKind .identifier r.tokens = Parser.written r.toReference.shape.names := by
  simp [tokens, tail, toReference, Reference.shape, ReferenceShape.names, Parser.written,
    Leaf.token_identifier]

theorem AttributeTree.identifiers_tokens (a : AttributeTree) :
    ofKind .identifier a.tokens = Parser.written a.toAttribute.shape.names := by
  have hgap : ofKind .identifier (optionalToken a.gap') = [] := ofKind_optionalToken (by decide) _
  have hkey : ofKind .identifier ((a.key.map KeyTree.tokens).getD []) = [] := by
    cases a.key with
    | none => rfl
    | some k => exact k.identifiers_tokens
  have hreference : ofKind .identifier ((a.reference.map ReferenceTree.tokens).getD []) =
      Parser.written ((a.toAttribute.shape.reference.map ReferenceShape.names).getD []) := by
    rw [toAttribute, Attribute.shape]
    cases a.reference with
    | none => rfl
    | some r => exact r.identifiers_tokens
  have htail : ofKind .identifier a.tail =
      Parser.written ((a.toAttribute.shape.reference.map ReferenceShape.names).getD []) := by
    simp [tail, hgap, hkey, hreference]
  rw [tokens, body, ofKind_cons_other (by decide), ofKind_cons_other (by decide),
    ofKind_cons_name, ofKind_cons_other (by decide), ofKind_cons_name, htail]
  rfl

theorem StatementTree.identifiers_tokens (s : StatementTree) :
    ofKind .identifier s.tokens = Parser.written s.toStatement.shape.names := by
  cases s with
  | empty n => exact ofKind_cons_other (by decide) n []
  | entity x n as =>
    rw [tokens, ofKind_cons_name, ofKind_cons_other (by decide), ofKind_flatMap,
      toStatement, Statement.shape, StatementShape.names, List.flatMap_map, List.flatMap_map,
      Parser.written, List.map_cons, List.map_flatMap]
    simp only [AttributeTree.identifiers_tokens]
    rfl

/-- **The identifiers of a derivation are the names of its schema.** -/
theorem DocumentTree.identifiers_tokens (d : DocumentTree) :
    ofKind .identifier d.tokens = Parser.written d.toSchema.shape.names := by
  rw [tokens, ofKind_flatMap, toSchema, Schema.shape, SchemaShape.names, List.map_map,
    List.flatMap_map, Parser.written, List.map_flatMap]
  simp only [StatementTree.identifiers_tokens]
  rfl

/-- A text without errors has a derivation. -/
theorem exists_derivation {text : String} (h : (parse text).errors = []) :
    ∃ d : DocumentTree, d.tokens = (lex text).tokens ∧ (parse text).schema = d.toSchema := by
  obtain ⟨d, hd⟩ := errors_parseTokens_eq_nil.1 (List.append_eq_nil_iff.1 h).2
  refine ⟨d, hd, ?_⟩
  rw [parse, ← hd, parseTokens_documentTree]

/-- **Without errors, every identifier of a text becomes a name.** -/
theorem identifiers_lex {text : String} (h : (parse text).errors = []) :
    ofKind .identifier (lex text).tokens = Parser.written (parse text).schema.shape.names := by
  obtain ⟨d, hd, hschema⟩ := exists_derivation h
  rw [hschema, ← hd, d.identifiers_tokens]

end EntitySchema
