import EntitySchema.Proofs.Leaves
import EntitySchema.Proofs.Order
import EntitySchema.Schema.Rename
import Mathlib.Data.List.Flatten

/-!
# Nesting of the parts of a schema

The parts of a schema that is read from a text stand one behind the other, and each of them covers
the names inside it.

* `Span.Covers` — a span from the first of some tokens to the last; `Covers.before`,
  `Covers.encloses`, `Covers.merge`: such spans in order, around their tokens, and put together.
* `AttributeLeaves.covers`, `StatementLeaves.covers`: the span of a part covers its tokens.
* `Entity.Nested`, `Schema.Nested` — parts in order, around the names inside them.
* **`nested_parse`**: the schema of every text is nested.
-/

namespace EntitySchema

/-! ## Spans that cover tokens -/

section Covers

variable {a b s : Span} {t : Token} {ts us : List Token}

/-- Span `s` reaches from the first of the tokens `ts` to the last. -/
structure Span.Covers (s : Span) (ts : List Token) : Prop where
  first : ∃ t ∈ ts.head?, t.span.first = s.first
  last : ∃ t ∈ ts.getLast?, t.span.last = s.last

theorem covers_singleton (t : Token) : t.span.Covers [t] := ⟨⟨t, rfl, rfl⟩, ⟨t, rfl, rfl⟩⟩

theorem InOrder.before_of_append (h : InOrder (ts ++ us)) :
    ∀ t ∈ ts, ∀ u ∈ us, t.span.Before u.span :=
  (List.pairwise_append.1 h.before).2.2

theorem Span.Covers.before (ha : a.Covers ts) (hb : b.Covers us) (h : InOrder (ts ++ us)) :
    a.Before b := by
  obtain ⟨t, ht, hlast⟩ := ha.last
  obtain ⟨u, hu, hfirst⟩ := hb.first
  have hbefore := h.before_of_append t (List.mem_of_mem_getLast? ht) u (List.mem_of_mem_head? hu)
  exact ⟨hlast ▸ hfirst ▸ hbefore.offset, hlast ▸ hfirst ▸ hbefore.position⟩

theorem Span.Covers.encloses (h : s.Covers ts) (hts : InOrder ts) (ht : t ∈ ts) :
    s.encloses t.span := by
  have hfirst : s.first.offset ≤ t.span.first.offset ∧
      s.first.position ≤ t.span.first.position := by
    obtain ⟨x, hx, hs⟩ := h.first
    obtain ⟨xs, rfl⟩ := List.head?_eq_some_iff.1 hx
    rw [← hs]
    rcases List.mem_cons.1 ht with rfl | ht
    · exact ⟨le_rfl, le_rfl⟩
    · have hx := hts.forward x List.mem_cons_self
      have hbefore := (List.pairwise_cons.1 hts.before).1 t ht
      exact ⟨hx.offset.trans hbefore.offset.le, hx.position.trans hbefore.position.le⟩
  have hlast : t.span.last.offset ≤ s.last.offset ∧
      t.span.last.position ≤ s.last.position := by
    obtain ⟨y, hy, hs⟩ := h.last
    obtain ⟨ys, rfl⟩ := List.getLast?_eq_some_iff.1 hy
    rw [← hs]
    rcases List.mem_append.1 ht with ht | ht
    · have hy := hts.forward y (List.mem_append_right ys List.mem_cons_self)
      have hbefore := hts.before_of_append t ht y List.mem_cons_self
      exact ⟨hbefore.offset.le.trans hy.offset, hbefore.position.le.trans hy.position⟩
    · rw [List.mem_singleton.1 ht]
      exact ⟨le_rfl, le_rfl⟩
  exact Span.encloses_iff.2 ⟨hfirst.1, hlast.1, hfirst.2, hlast.2⟩

theorem Span.Covers.forward (h : s.Covers ts) (hts : InOrder ts) : s.Forward := by
  obtain ⟨t, ht, -⟩ := h.first
  have hmem : t ∈ ts := List.mem_of_mem_head? ht
  exact Span.forward_of_encloses (h.encloses hts hmem) (hts.forward t hmem)

/-- A span that is widened covers all tokens up to those that the other span covers. -/
theorem Span.Covers.merge (ha : a.Covers ts) (mid : List Token) (hb : b.Covers us)
    (h : InOrder (ts ++ (mid ++ us))) : (a.merge b).Covers (ts ++ (mid ++ us)) := by
  have hts : InOrder ts := h.sublist (List.sublist_append_left ts _)
  have hus : InOrder us := h.sublist ((List.sublist_append_right mid us).trans
    (List.sublist_append_right ts _))
  have htsus : InOrder (ts ++ us) := h.sublist ((List.sublist_append_right mid us).append_left ts)
  rw [Span.merge_of_before (ha.forward hts) (ha.before hb htsus) (hb.forward hus)]
  obtain ⟨t, ht, hfirst⟩ := ha.first
  obtain ⟨u, hu, hlast⟩ := hb.last
  rw [Option.mem_def] at ht hu
  refine ⟨⟨t, ?_, hfirst⟩, ⟨u, ?_, hlast⟩⟩
  · rw [Option.mem_def, List.head?_append, ht, Option.some_or]
  · rw [Option.mem_def, List.getLast?_append, List.getLast?_append, hu, Option.some_or,
      Option.some_or]

theorem Span.Covers.merge_option {α : Type} {o : Option α} {span : α → Span}
    {tokens : α → List Token} (ha : a.Covers ts) (h : InOrder (ts ++ (o.map tokens).getD []))
    (ho : ∀ x ∈ o, InOrder (tokens x) → (span x).Covers (tokens x)) :
    (a.merge (o.map span)).Covers (ts ++ (o.map tokens).getD []) := by
  cases o with
  | none =>
    show a.Covers (ts ++ [])
    rwa [List.append_nil]
  | some x =>
    have hx := ho x rfl (h.sublist (List.sublist_append_right ts _))
    exact ha.merge [] hx h

theorem InOrder.of_mem {α : Type} {tokens : α → List Token} {xs : List α}
    (h : InOrder (xs.flatMap tokens)) {x : α} (hx : x ∈ xs) : InOrder (tokens x) := by
  have hsub := (List.singleton_sublist.2 hx).flatMap tokens
  rw [List.flatMap_singleton] at hsub
  exact h.sublist hsub

theorem pairwise_before_of_covers {α : Type} {span : α → Span} {tokens : α → List Token}
    {xs : List α} (h : InOrder (xs.flatMap tokens))
    (hc : ∀ x, InOrder (tokens x) → (span x).Covers (tokens x)) :
    xs.Pairwise fun x y => (span x).Before (span y) := by
  refine (List.pairwise_flatMap.1 h.before).2.imp_of_mem ?_
  intro x y hx hy hxy
  have hx := h.of_mem hx
  have hy := h.of_mem hy
  refine (hc x hx).before (hc y hy) ⟨?_, ?_⟩
  · rw [List.forall_mem_append]
    exact ⟨hx.forward, hy.forward⟩
  · exact List.pairwise_append.2 ⟨hx.before, hy.before, hxy⟩

end Covers

/-! ## Parts cover their tokens -/

theorem ReferenceTree.covers {r : ReferenceTree} (h : InOrder r.tokens) :
    r.toReference.span.Covers r.tokens := by
  have harrow : InOrder [r.dash.token, r.head.token] :=
    h.sublist (List.sublist_append_left [r.dash.token, r.head.token] r.tail.tail)
  exact ((covers_singleton r.dash.token).merge [] (covers_singleton r.head.token) harrow).merge
    [r.gap.token, r.entity.token, r.opening.token, r.target.token]
      (covers_singleton r.closing.token) h

theorem AttributeLeaves.covers {a : AttributeLeaves} (h : InOrder a.tokens) :
    a.toAttribute.span.Covers a.tokens := by
  have hkey : optionalToken a.key = (a.key.map fun k => [k.token]).getD [] := by
    cases a.key <;> rfl
  have htokens : a.tokens = ([a.name.token, a.type.token] ++
      (a.key.map fun k => [k.token]).getD []) ++ (a.reference.map ReferenceTree.tokens).getD [] := by
    rw [tokens, tail, hkey, List.append_assoc]
    rfl
  rw [htokens] at h ⊢
  have hhead := h.sublist (List.sublist_append_left _ _)
  have hname := (covers_singleton a.name.token).merge [] (covers_singleton a.type.token)
    (hhead.sublist (List.sublist_append_left _ _))
  have hmarked := hname.merge_option hhead fun k _ _ => covers_singleton k.token
  have hspan : a.toAttribute.span = ((a.name.token.span.merge a.type.token.span).merge
      (a.key.map (·.token.span))).merge (a.reference.map (·.toReference.span)) := by
    rw [Attribute.span, toAttribute, Option.map_map]
    rfl
  rw [hspan]
  exact hmarked.merge_option h fun r _ => r.covers

theorem StatementLeaves.covers {l : StatementLeaves} (h : InOrder l.tokens) :
    l.toStatement.span.Covers l.tokens := by
  cases l with
  | empty n => exact covers_singleton n.token
  | entity x as =>
    -- the span of an entity is told by its last attribute
    rcases List.eq_nil_or_concat as with rfl | ⟨bs, b, rfl⟩
    · exact covers_singleton x.token
    · rw [List.concat_eq_append] at h ⊢
      have htokens : (entity x (bs ++ [b])).tokens =
          [x.token] ++ (bs.flatMap AttributeLeaves.tokens ++ b.tokens) := by
        rw [tokens, List.flatMap_append, List.flatMap_singleton]
        rfl
      have hspan : (entity x (bs ++ [b])).toStatement.span =
          x.token.span.merge b.toAttribute.span := by
        rw [toStatement, Statement.span, Entity.span, List.map_append, List.map_singleton,
          List.getLast?_concat]
        rfl
      rw [htokens] at h ⊢
      rw [hspan]
      have hb : InOrder b.tokens := h.sublist ((List.sublist_append_right _ _).trans
        (List.sublist_append_right _ _))
      exact (covers_singleton x.token).merge _ (AttributeLeaves.covers hb) h

theorem AttributeLeaves.occurrences_sublist (a : AttributeLeaves) (owner : String) :
    ((a.toAttribute.occurrences owner).map Occurrence.span).Sublist (a.tokens.map Token.span) := by
  refine .cons_cons _ (.cons_cons _ ?_)
  cases hr : a.reference with
  | none =>
    rw [toAttribute, hr]
    exact List.nil_sublist _
  | some r =>
    rw [toAttribute, tail, hr, List.map_append]
    refine List.sublist_append_of_sublist_right ?_
    exact .cons _ (.cons _ (.cons _ (.cons_cons _ (.cons _ (.cons_cons _ (.cons _ .slnil))))))

theorem StatementLeaves.occurrences_sublist (x : Leaf .identifier) (as : List AttributeLeaves) :
    ((Entity.mk x.identifier (as.map AttributeLeaves.toAttribute)).occurrences.map
      Occurrence.span).Sublist ((entity x as).tokens.map Token.span) := by
  refine .cons_cons _ ?_
  rw [List.flatMap_map, List.map_flatMap, List.map_flatMap]
  exact List.Sublist.flatMap_right as fun a _ => a.occurrences_sublist x.identifier.name

theorem encloses_of_sublist {s : Span} {ts : List Token} {os : List Occurrence} (h : InOrder ts)
    (hs : s.Covers ts) (hsub : (os.map Occurrence.span).Sublist (ts.map Token.span)) :
    ∀ o ∈ os, s.encloses o.span := by
  intro o ho
  obtain ⟨t, ht, hspan⟩ := List.mem_map.1 (hsub.subset (List.mem_map_of_mem ho))
  rw [← hspan]
  exact hs.encloses h ht

theorem pairwise_of_sublist {ts : List Token} {os : List Occurrence} (h : InOrder ts)
    (hsub : (os.map Occurrence.span).Sublist (ts.map Token.span)) :
    os.Pairwise fun o o' => o.span.Before o'.span := by
  rw [← List.pairwise_map (f := Occurrence.span) (R := Span.Before)]
  exact (List.pairwise_map.2 h.before).sublist hsub

/-! ## Nested schemas -/

/-- Attributes in order, and names in order inside what they belong to. -/
structure Entity.Nested (e : Entity) : Prop where
  attributes : e.attributes.Pairwise fun a b => a.span.Before b.span
  names : e.occurrences.Pairwise fun o o' => o.span.Before o'.span
  encloses : ∀ o ∈ e.occurrences, e.span.encloses o.span
  attribute_encloses : ∀ a ∈ e.attributes, ∀ o ∈ a.occurrences e.name.name, a.span.encloses o.span

/-- Entities in order, each of them nested. -/
structure Schema.Nested (s : Schema) : Prop where
  entities : s.entities.Pairwise fun e f => e.span.Before f.span
  entity : ∀ e ∈ s.entities, e.Nested

theorem StatementLeaves.nested {x : Leaf .identifier} {as : List AttributeLeaves}
    (h : InOrder (entity x as).tokens) :
    (Entity.mk x.identifier (as.map AttributeLeaves.toAttribute)).Nested where
  attributes := by
    rw [List.pairwise_map]
    exact pairwise_before_of_covers (h.sublist (List.sublist_cons_self _ _))
      fun a ha => AttributeLeaves.covers ha
  names := pairwise_of_sublist h (occurrences_sublist x as)
  encloses := encloses_of_sublist h (covers h) (occurrences_sublist x as)
  attribute_encloses := by
    intro a' ha'
    obtain ⟨a, ha, rfl⟩ := List.mem_map.1 ha'
    have hattributes : InOrder (as.flatMap AttributeLeaves.tokens) :=
      h.sublist (List.sublist_cons_self _ _)
    have htokens : InOrder a.tokens := hattributes.of_mem ha
    exact encloses_of_sublist htokens (AttributeLeaves.covers htokens) (a.occurrences_sublist _)

/-- **The schema of every text is nested.** -/
theorem nested_parse (text : String) : (parse text).schema.Nested := by
  obtain ⟨ls, hsub, hstatements⟩ := Parser.exists_statementLeaves (lex text).tokens
  have h : InOrder (ls.flatMap StatementLeaves.tokens) := (inOrder_lex text).sublist hsub
  have hentities : (parse text).schema.entities =
      (ls.map StatementLeaves.toStatement).filterMap Statement.entity? :=
    congrArg (List.filterMap Statement.entity?) hstatements
  constructor
  · rw [hentities, List.pairwise_filterMap, List.pairwise_map]
    refine (pairwise_before_of_covers h fun l => StatementLeaves.covers).imp ?_
    intro l l' hbefore e he e' he'
    cases l with
    | empty n => cases he
    | entity x as =>
      cases l' with
      | empty n => cases he'
      | entity x' as' =>
        cases he
        cases he'
        exact hbefore
  · intro e he
    rw [hentities] at he
    obtain ⟨st, hst, he⟩ := List.mem_filterMap.1 he
    obtain ⟨l, hl, rfl⟩ := List.mem_map.1 hst
    have htokens : InOrder l.tokens := h.of_mem hl
    cases l with
    | empty n => cases he
    | entity x as =>
      cases he
      exact StatementLeaves.nested htokens

end EntitySchema
