import EntitySchema.Proofs.Grammar

/-!
# What a schema is read from

With mismatches or without, every part of a schema is read from tokens of its document, and the
tokens of later parts stand behind those of earlier ones.

* `AttributeLeaves`, `StatementLeaves` — the tokens that parts of a schema are read from, without
  the white space between them.
* `Parser.exists_attributeLeaves`, `Parser.exists_attributesLeaves`: what attributes are read from.
* **`Parser.exists_statementLeaves`**: what a document is read from.
-/

namespace EntitySchema

/-- The tokens that an attribute is read from. -/
structure AttributeLeaves where
  name : Leaf .identifier
  type : Leaf .identifier
  key : Option (Leaf .primaryKey)
  reference : Option ReferenceTree

namespace AttributeLeaves

/-- The tokens behind the type. -/
def tail (a : AttributeLeaves) : List Token :=
  optionalToken a.key ++ (a.reference.map ReferenceTree.tokens).getD []

def tokens (a : AttributeLeaves) : List Token := a.name.token :: a.type.token :: a.tail

def toAttribute (a : AttributeLeaves) : Attribute where
  name := a.name.identifier
  type := a.type.identifier
  primaryKey := a.key.map (·.token.span)
  reference := a.reference.map ReferenceTree.toReference

end AttributeLeaves

/-- The tokens that a statement is read from. -/
inductive StatementLeaves where
  | empty (newline : Leaf .newline)
  | entity (name : Leaf .identifier) (attributes : List AttributeLeaves)

namespace StatementLeaves

def tokens : StatementLeaves → List Token
  | empty n => [n.token]
  | entity x as => x.token :: as.flatMap AttributeLeaves.tokens

def toStatement : StatementLeaves → Statement
  | empty n => .empty n.token.span
  | entity x as => .entity ⟨x.identifier, as.map AttributeLeaves.toAttribute⟩

end StatementLeaves

namespace Parser

/-! ## Lines -/

theorem append_leaves {ts rest rest' ls ls' : List Token} (h : (ls ++ rest).Sublist ts)
    (h' : (ls' ++ rest').Sublist rest) : ((ls ++ ls') ++ rest').Sublist ts := by
  rw [List.append_assoc]
  exact (h'.append_left ls).trans h

theorem exists_keyLeaf (ts : List Token) :
    ∃ key : Option (Leaf .primaryKey), (optionalToken key ++ (primaryKey ts).2).Sublist ts ∧
      (primaryKey ts).1 = key.map (·.token.span) := by
  obtain ⟨key, hts, hspan⟩ := exists_keyTree ts
  refine ⟨key.map KeyTree.key, ?_, ?_⟩
  · have hkey : (optionalToken (key.map KeyTree.key)).Sublist
        ((key.map KeyTree.tokens).getD []) := by
      cases key with
      | none => exact .slnil
      | some k => exact List.cons_sublist_cons.2 (List.nil_sublist _)
    have h := hkey.append_right (primaryKey ts).2
    rwa [← hts] at h
  · rw [hspan, Option.map_map]
    rfl

theorem exists_referenceLeaves {a : Attribute} (ha : a.reference = none) (ts : List Token) :
    ∃ r : Option ReferenceTree,
      ((r.map ReferenceTree.tokens).getD [] ++ (attributeTail a ts).rest).Sublist ts ∧
        (attributeTail a ts).value = { a with reference := r.map ReferenceTree.toReference } := by
  have hnone : a = { a with reference := none } := by rw [← ha]
  have hrest := (rest_attributeTail_suffix a ts).sublist
  fun_cases attributeTail a ts with
  | case1 =>
    rw [attributeTail] at hrest
    exact ⟨none, hrest, (value_endLine _ _ _).trans hnone⟩
  | case2 t ts hdash r _ rest heq =>
    obtain ⟨hreference, -⟩ := recover_eq_some.1 heq
    obtain ⟨tree, htree, rfl, rfl⟩ := exists_referenceTree ⟨t, hdash⟩ hreference
    refine ⟨some tree, ?_, value_endLine _ _ _⟩
    have ht : t = tree.dash.token := by rw [htree]
    rw [ht]
    exact (rest_endLine_suffix _ _ rest).sublist.append_left tree.tokens
  | case3 t ts hdash m rest heq =>
    rw [attributeTail, if_pos hdash, heq] at hrest
    exact ⟨none, hrest, hnone⟩
  | case4 t ts hdash =>
    rw [attributeTail, if_neg hdash] at hrest
    exact ⟨none, hrest, (value_endLine _ _ _).trans hnone⟩

/-- **What an attribute line is read from.** A line that gets no further than its type has none. -/
theorem exists_attributeLeaves (ts : List Token) :
    ∃ as : List AttributeLeaves,
      (as.flatMap AttributeLeaves.tokens ++ (attributeLine ts).rest).Sublist ts ∧
        (attributeLine ts).value.toList = as.map AttributeLeaves.toAttribute := by
  have hrest := (rest_attributeLine_suffix ts).sublist
  fun_cases attributeLine ts with
  | case1 m rest heq =>
    rw [attributeLine, heq] at hrest
    exact ⟨[], hrest, rfl⟩
  | case2 name type _ rest heq key line =>
    obtain ⟨hhead, -⟩ := recover_eq_some.1 heq
    obtain ⟨s, x, gap, y, rfl, rfl, rfl⟩ := attributeHead_eq_ok hhead
    obtain ⟨key', hkey, hspan⟩ := exists_keyLeaf (skip .space rest)
    obtain ⟨r, hr, hvalue⟩ :=
      exists_referenceLeaves (a := ⟨x.identifier, y.identifier, key.1, none⟩) rfl key.2
    have hhead : ([x.token, y.token] ++ skip .space rest).Sublist
        (s.token :: x.token :: gap.token :: y.token :: rest) :=
      .cons _ (.cons_cons _ (.cons _ (.cons_cons _ (skip_suffix _ _).sublist)))
    refine ⟨[⟨x, y, key', r⟩], ?_, ?_⟩
    · rw [List.flatMap_singleton]
      exact append_leaves hhead (append_leaves hkey hr)
    · show [line.value] = _
      rw [show line.value = _ from hvalue, show key.1 = _ from hspan]
      rfl

/-! ## Entities and documents -/

theorem exists_attributesLeaves (ts : List Token) :
    ∃ as : List AttributeLeaves,
      (as.flatMap AttributeLeaves.tokens ++ (attributes ts).rest).Sublist ts ∧
        (attributes ts).values = as.map AttributeLeaves.toAttribute := by
  fun_induction attributes ts with
  | case1 => exact ⟨[], .refl _, rfl⟩
  | case2 t ts hspace line more ih =>
    obtain ⟨as, has, hvalue⟩ := exists_attributeLeaves ts
    obtain ⟨bs, hbs, hvalues⟩ := ih
    refine ⟨as ++ bs, ?_, ?_⟩
    · rw [List.flatMap_append]
      exact (append_leaves has hbs).cons t
    · rw [hvalue, hvalues, List.map_append]
  | case3 t ts => exact ⟨[], .refl _, rfl⟩

theorem exists_entityLeaves (ts : List Token) :
    ∃ as : List AttributeLeaves,
      (as.flatMap AttributeLeaves.tokens ++ (entityBody ts).rest).Sublist ts ∧
        (entityBody ts).values = as.map AttributeLeaves.toAttribute := by
  obtain ⟨as, has, hvalues⟩ := exists_attributesLeaves (endLine () .entityEnd ts).rest
  exact ⟨as, has.trans (rest_endLine_suffix _ _ ts).sublist, hvalues⟩

theorem exists_statementLeaves (ts : List Token) :
    ∃ ls : List StatementLeaves, (ls.flatMap StatementLeaves.tokens).Sublist ts ∧
      (statements ts).1 = ls.map StatementLeaves.toStatement := by
  fun_induction statements ts with
  | case1 => exact ⟨[], .slnil, rfl⟩
  | case2 t ts hkind more ih =>
    obtain ⟨ls, hls, hmore⟩ := ih
    exact ⟨.empty ⟨t, hkind⟩ :: ls, hls.cons_cons t, congrArg _ hmore⟩
  | case3 t ts hkind body more ih =>
    obtain ⟨as, has, hvalues⟩ := exists_entityLeaves ts
    obtain ⟨ls, hls, hmore⟩ := ih
    refine ⟨.entity ⟨t, hkind⟩ as :: ls, ?_, ?_⟩
    · rw [List.flatMap_cons]
      exact ((hls.append_left _).trans has).cons_cons t
    · show Statement.entity ⟨_, body.values⟩ :: more.1 = _
      rw [show more.1 = _ from hmore, show body.values = _ from hvalues]
      rfl
  | case4 t ts more _ _ ih =>
    obtain ⟨ls, hls, hmore⟩ := ih
    exact ⟨ls, (hls.trans (skipLine_suffix ts).sublist).cons t, hmore⟩

end Parser

end EntitySchema
