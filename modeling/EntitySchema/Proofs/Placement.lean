import EntitySchema.Proofs.Nesting
import EntitySchema.Proofs.Recovery
import EntitySchema.Proofs.Segmentation

/-!
# The places of all parts

Every part of a schema lies inside the part it belongs to, and parts side by side are in order. An
attribute does not go beyond its line, whatever stray text stands in it.

* `Span.Holds` — a span around other spans, which are in order.
* `Block` — a span with the tokens it covers; `holds_of_blocks`: what covers blocks of tokens in
  order holds their spans.
* `ReferenceTree.holds`, `AttributeLeaves.holds`, `StatementLeaves.holds`: a part holds the parts it
  is made of.
* `Numbered` — tokens on lines that are numbered by the newlines; `numbered_lex`: those of a text.
* `line_of_mem_attributes`: an attribute is on one line.
* `holds_of_mem_entities`: the parts of a document hold the parts they are made of.
* **`placed_parse`**: the places of all parts of a document.
-/

namespace EntitySchema

/-- Span `s` lies around the spans `parts`, which stand one behind the other. -/
structure Span.Holds (s : Span) (parts : List Span) : Prop where
  encloses : ∀ p ∈ parts, s.encloses p
  forward : ∀ p ∈ parts, p.Forward
  before : parts.Pairwise Span.Before

/-- A span and the tokens that it covers. -/
structure Block where
  span : Span
  tokens : List Token
  covers : span.Covers tokens

theorem Span.Covers.encloses_covers {s p : Span} {ts us : List Token} (hs : s.Covers ts)
    (hts : InOrder ts) (hp : p.Covers us) (hus : us ⊆ ts) : s.encloses p := by
  obtain ⟨t, ht, hfirst⟩ := hp.first
  obtain ⟨u, hu, hlast⟩ := hp.last
  have hst := Span.encloses_iff.1 (hs.encloses hts (hus (List.mem_of_mem_head? ht)))
  have hsu := Span.encloses_iff.1 (hs.encloses hts (hus (List.mem_of_mem_getLast? hu)))
  rw [Span.encloses_iff, ← hfirst, ← hlast]
  exact ⟨hst.1, hsu.2.1, hst.2.2.1, hsu.2.2.2⟩

/-- **What covers blocks of tokens in order holds their spans.** -/
theorem holds_of_blocks {s : Span} {ts : List Token} {bs : List Block} (hs : s.Covers ts)
    (hts : InOrder ts) (hsub : (bs.flatMap Block.tokens).Sublist ts) :
    s.Holds (bs.map Block.span) := by
  have hbs : InOrder (bs.flatMap Block.tokens) := hts.sublist hsub
  refine ⟨?_, ?_, List.pairwise_map.2 (pairwise_before_of_covers hbs fun b _ => b.covers)⟩
  · intro p hp
    obtain ⟨b, hb, rfl⟩ := List.mem_map.1 hp
    refine hs.encloses_covers hts b.covers fun t ht => hsub.subset ?_
    exact List.mem_flatMap.2 ⟨b, hb, ht⟩
  · intro p hp
    obtain ⟨b, hb, rfl⟩ := List.mem_map.1 hp
    exact b.covers.forward (hbs.of_mem hb)

/-! ## Parts hold their parts -/

/-- One token as a block. -/
def Token.block (t : Token) : Block := ⟨t.span, [t], covers_singleton t⟩

/-- The parts of a reference. -/
def Reference.parts (r : Reference) : List Span :=
  [r.arrow, r.targetEntity.span, r.targetAttribute.span]

/-- The parts of an attribute. -/
def Attribute.parts (a : Attribute) : List Span :=
  [a.name.span, a.type.span] ++ a.primaryKey.toList ++ a.reference.toList.map (·.span)

/-- The parts of an entity. -/
def Entity.parts (e : Entity) : List Span := e.name.span :: e.attributes.map Attribute.span

theorem ReferenceTree.holds {r : ReferenceTree} (h : InOrder r.tokens) :
    r.toReference.span.Holds r.toReference.parts := by
  have harrow : InOrder [r.dash.token, r.head.token] :=
    h.sublist (List.sublist_append_left [r.dash.token, r.head.token] r.tail.tail)
  let arrow : Block := ⟨r.dash.token.span.merge r.head.token.span, [r.dash.token, r.head.token],
    (covers_singleton r.dash.token).merge [] (covers_singleton r.head.token) harrow⟩
  have hparts : r.toReference.parts =
      [arrow, r.entity.token.block, r.target.token.block].map Block.span := rfl
  rw [hparts]
  refine holds_of_blocks (covers h) h ?_
  exact .cons_cons _ (.cons_cons _ (.cons _ (.cons_cons _ (.cons _ (.cons_cons _ (.cons _
    .slnil))))))

theorem exists_blocks {α : Type} (xs : List α) {span : α → Span} {tokens : α → List Token}
    (h : ∀ x ∈ xs, (span x).Covers (tokens x)) :
    ∃ bs : List Block, bs.map Block.span = xs.map span ∧
      bs.flatMap Block.tokens = xs.flatMap tokens := by
  induction xs with
  | nil => exact ⟨[], rfl, rfl⟩
  | cons x xs ih =>
    obtain ⟨hx, hxs⟩ := List.forall_mem_cons.1 h
    obtain ⟨bs, hspans, htokens⟩ := ih hxs
    refine ⟨⟨span x, tokens x, hx⟩ :: bs, ?_, ?_⟩
    · rw [List.map_cons, hspans, List.map_cons]
    · rw [List.flatMap_cons, htokens, List.flatMap_cons]

theorem AttributeLeaves.holds {a : AttributeLeaves} (h : InOrder a.tokens) :
    a.toAttribute.span.Holds a.toAttribute.parts := by
  have htail : a.tail = a.key.toList.flatMap (fun k => [k.token]) ++
      a.reference.toList.flatMap ReferenceTree.tokens := by
    rw [tail]
    cases a.key <;> cases a.reference <;> simp
  have hreferences : InOrder (a.reference.toList.flatMap ReferenceTree.tokens) := by
    refine h.sublist ?_
    rw [tokens, htail]
    exact .cons _ (.cons _ (List.sublist_append_right _ _))
  obtain ⟨ks, hks, hkstokens⟩ := exists_blocks a.key.toList
    fun k _ => covers_singleton k.token
  obtain ⟨rs, hrs, hrstokens⟩ := exists_blocks a.reference.toList
    fun r hr => r.covers (hreferences.of_mem hr)
  have hparts : a.toAttribute.parts =
      ([a.name.token.block, a.type.token.block] ++ ks ++ rs).map Block.span := by
    rw [List.map_append, List.map_append, hks, hrs, Attribute.parts, toAttribute,
      Option.toList_map, Option.toList_map, List.map_map]
    rfl
  rw [hparts]
  refine holds_of_blocks (covers h) h ?_
  rw [List.flatMap_append, List.flatMap_append, hkstokens, hrstokens, List.append_assoc, ← htail]
  exact .refl _

theorem StatementLeaves.holds {x : Leaf .identifier} {as : List AttributeLeaves}
    (h : InOrder (entity x as).tokens) :
    (Entity.mk x.identifier (as.map AttributeLeaves.toAttribute)).span.Holds
      (Entity.mk x.identifier (as.map AttributeLeaves.toAttribute)).parts := by
  have has : InOrder (as.flatMap AttributeLeaves.tokens) :=
    h.sublist (List.sublist_cons_self _ _)
  obtain ⟨bs, hspans, htokens⟩ := exists_blocks as
    fun a ha => AttributeLeaves.covers (has.of_mem ha)
  have hparts : (Entity.mk x.identifier (as.map AttributeLeaves.toAttribute)).parts =
      (x.token.block :: bs).map Block.span := by
    rw [List.map_cons, hspans, Entity.parts, List.map_map]
    rfl
  rw [hparts]
  refine holds_of_blocks (covers h) h ?_
  rw [List.flatMap_cons, htokens]
  exact .refl _

/-! ## Lines -/

/-- The tokens stand on lines that are numbered from `n` on, one for each newline. -/
def Numbered (n : Nat) : List Token → Prop
  | [] => True
  | t :: ts =>
    t.span.first.position.line = n ∧ t.span.last.position.line = n ∧
      Numbered (if t.kind = .newline then n + 1 else n) ts

theorem Numbered.suffix {n : Nat} {ts us : List Token} (h : Numbered n ts) (hsuffix : us <:+ ts) :
    ∃ n', Numbered n' us := by
  induction ts generalizing n with
  | nil =>
    rw [List.suffix_nil.1 hsuffix]
    exact ⟨n, trivial⟩
  | cons t ts ih =>
    rcases List.suffix_cons_iff.1 hsuffix with rfl | hsuffix
    · exact ⟨n, h⟩
    · exact ih h.2.2 hsuffix

theorem firstLine_sublist (ts : List Token) : (firstLine ts).Sublist ts := by
  fun_induction firstLine ts with
  | case1 => exact .refl _
  | case2 t ts => exact .cons_cons t (List.nil_sublist ts)
  | case3 t ts _ ih => exact .cons_cons t ih

theorem Numbered.firstLine {n : Nat} {ts : List Token} (h : Numbered n ts) :
    ∀ t ∈ firstLine ts, t.span.first.position.line = n ∧ t.span.last.position.line = n := by
  induction ts with
  | nil => exact nofun
  | cons t ts ih =>
    obtain ⟨hfirst, hlast, hmore⟩ := h
    by_cases ht : t.kind = .newline
    · simp [EntitySchema.firstLine, ht, hfirst, hlast]
    · rw [if_neg ht] at hmore
      rw [firstLine_cons_of_ne ht, List.forall_mem_cons]
      exact ⟨⟨hfirst, hlast⟩, ih hmore⟩

/-- Tokens in their places are numbered by their lines, with stray runs between them or not. -/
theorem numbered_place {ts : List Tile} (h : ∀ t ∈ ts, t.WellFormed) (m : Mark) :
    Numbered m.position.line ((place m ts).filterMap PlacedTile.token?) := by
  induction ts generalizing m with
  | nil => trivial
  | cons t ts ih =>
    obtain ⟨ht, hts⟩ := List.forall_mem_cons.1 h
    have hmore := ih hts (m.after t.chars)
    rw [line_after, count_newline_chars ht] at hmore
    rw [place]
    cases hkind : t.kind? with
    | none =>
      rw [hkind, if_neg (by simp), Nat.add_zero] at hmore
      rw [List.filterMap_cons_none (by rw [PlacedTile.token?, hkind, Option.map_none])]
      exact hmore
    | some k =>
      have htoken : PlacedTile.token? ⟨t, Span.ofText m t.chars⟩ =
          some ⟨k, t.text, Span.ofText m t.chars⟩ := by
        rw [PlacedTile.token?, hkind, Option.map_some]
      rw [List.filterMap_cons_some htoken]
      refine ⟨rfl, rfl, ?_⟩
      rw [hkind] at hmore
      by_cases hk : k = .newline
      · rw [if_pos (congrArg some hk)] at hmore
        rw [if_pos hk]
        exact hmore
      · rw [if_neg (by simpa using hk)] at hmore
        rw [if_neg hk]
        exact hmore

theorem numbered_lex (text : String) : Numbered 1 (lex text).tokens :=
  numbered_place (isTiling_tiles text.toList).wellFormed .origin

namespace Parser

variable {ts : List Token} {a : Attribute}

theorem exists_line_of_mem_attributes (h : a ∈ (attributes ts).values) :
    ∃ us, us <:+ ts ∧ (attributeLine us).value = some a := by
  fun_induction attributes ts with
  | case1 => cases h
  | case2 t ts hspace line more ih =>
    rcases List.mem_append.1 h with h | h
    · exact ⟨ts, List.suffix_cons t ts, Option.mem_toList.1 h⟩
    · obtain ⟨us, hus, hvalue⟩ := ih h
      exact ⟨us, (hus.trans (rest_attributeLine_suffix ts)).trans (List.suffix_cons t ts), hvalue⟩
  | case3 t ts => cases h

theorem exists_line_of_mem_statements {e : Entity} (he : .entity e ∈ (statements ts).1)
    (ha : a ∈ e.attributes) : ∃ us, us <:+ ts ∧ (attributeLine us).value = some a := by
  fun_induction statements ts with
  | case1 => cases he
  | case2 t ts hkind more ih =>
    rcases List.mem_cons.1 he with he | he
    · cases he
    · obtain ⟨us, hus, hvalue⟩ := ih he
      exact ⟨us, hus.trans (List.suffix_cons t ts), hvalue⟩
  | case3 t ts hkind body more ih =>
    rcases List.mem_cons.1 he with he | he
    · cases he
      obtain ⟨us, hus, hvalue⟩ := exists_line_of_mem_attributes ha
      exact ⟨us, (hus.trans (rest_endLine_suffix _ _ ts)).trans (List.suffix_cons t ts), hvalue⟩
    · obtain ⟨us, hus, hvalue⟩ := ih he
      exact ⟨us, (hus.trans (rest_entityBody_suffix ts)).trans (List.suffix_cons t ts), hvalue⟩
  | case4 t ts more hnewline hname ih =>
    obtain ⟨us, hus, hvalue⟩ := ih he
    exact ⟨us, (hus.trans (skipLine_suffix ts)).trans (List.suffix_cons t ts), hvalue⟩

theorem exists_leaves_of_value {us : List Token} (h : (attributeLine us).value = some a) :
    ∃ l : AttributeLeaves, l.tokens.Sublist (firstLine us) ∧ a = l.toAttribute := by
  obtain ⟨as, hsub, hvalue⟩ := exists_attributeLeaves (firstLine us)
  rw [(attributeLine_firstLine us).1, h] at hvalue
  obtain ⟨l, rfl, rfl⟩ := List.map_eq_singleton_iff.1 hvalue.symm
  rw [List.flatMap_singleton] at hsub
  exact ⟨l, (List.sublist_append_left _ _).trans hsub, rfl⟩

end Parser

/-- **An attribute is on one line.** -/
theorem line_of_mem_attributes {text : String} {e : Entity} {a : Attribute}
    (he : .entity e ∈ (parse text).schema.statements) (ha : a ∈ e.attributes) :
    a.span.first.position.line = a.span.last.position.line := by
  obtain ⟨us, hus, hvalue⟩ := Parser.exists_line_of_mem_statements he ha
  obtain ⟨l, hl, rfl⟩ := Parser.exists_leaves_of_value hvalue
  obtain ⟨n, hn⟩ := (numbered_lex text).suffix hus
  have hcovers := AttributeLeaves.covers ((inOrder_lex text).sublist
    ((hl.trans (firstLine_sublist us)).trans hus.sublist))
  obtain ⟨t, ht, hfirst⟩ := hcovers.first
  obtain ⟨u, hu, hlast⟩ := hcovers.last
  rw [← hfirst, ← hlast, (hn.firstLine t (hl.subset (List.mem_of_mem_head? ht))).1,
    (hn.firstLine u (hl.subset (List.mem_of_mem_getLast? hu))).2]

theorem offset_last_lt_byteSize {text : String} {t : Token} (h : t ∈ (lex text).tokens) :
    t.span.last.offset < Text.byteSize text.toList := by
  obtain ⟨as, bs, htext, -, hstop⟩ := Text.slice?_eq_some_iff.1 (slice?_token h)
  rw [htext, Text.byteSize_append, hstop]
  omega

theorem StatementLeaves.holds_parts {x : Leaf .identifier} {as : List AttributeLeaves} {e : Entity}
    (h : InOrder (entity x as).tokens) (he : (entity x as).toStatement = .entity e) :
    e.span.Holds e.parts ∧ ∀ a ∈ e.attributes, a.span.Holds a.parts ∧
      ∀ r ∈ a.reference, r.span.Holds r.parts := by
  cases he
  refine ⟨StatementLeaves.holds h, ?_⟩
  intro a ha
  obtain ⟨l, hl, rfl⟩ := List.mem_map.1 ha
  have has : InOrder (as.flatMap AttributeLeaves.tokens) :=
    h.sublist (List.sublist_cons_self _ _)
  have htokens : InOrder l.tokens := has.of_mem hl
  refine ⟨AttributeLeaves.holds htokens, ?_⟩
  intro r hr
  obtain ⟨tree, htree, rfl⟩ := Option.map_eq_some_iff.1 hr
  refine tree.holds (htokens.sublist ?_)
  rw [AttributeLeaves.tokens, AttributeLeaves.tail, htree]
  exact .cons _ (.cons _ (List.sublist_append_right _ _))

theorem holds_of_mem_entities {text : String} {e : Entity} (he : e ∈ (parse text).schema.entities) :
    e.span.Holds e.parts ∧ ∀ a ∈ e.attributes, a.span.Holds a.parts ∧
      ∀ r ∈ a.reference, r.span.Holds r.parts := by
  obtain ⟨ls, hsub, hstatements⟩ := Parser.exists_statementLeaves (lex text).tokens
  have hls : InOrder (ls.flatMap StatementLeaves.tokens) := (inOrder_lex text).sublist hsub
  have hschema : (parse text).schema.statements = ls.map StatementLeaves.toStatement := hstatements
  rw [Schema.entities, hschema] at he
  obtain ⟨statement, hmem, hentity⟩ := List.mem_filterMap.1 he
  obtain ⟨l, hl, rfl⟩ := List.mem_map.1 hmem
  cases l with
  | empty n => cases hentity
  | entity x as =>
    exact StatementLeaves.holds_parts (hls.of_mem hl) (congrArg _ (Option.some.inj hentity))

/-- **All parts of a document are in their places**: in order, and inside what holds them. -/
theorem placed_parse (text : String) :
    (∀ s ∈ (parse text).schema.statements,
        s.span.Forward ∧ s.span.last.offset < Text.byteSize text.toList) ∧
      (parse text).schema.statements.Pairwise (fun s s' => s.span.Before s'.span) ∧
      ∀ e, .entity e ∈ (parse text).schema.statements →
        e.span.Holds (e.name.span :: e.attributes.map Attribute.span) ∧
        ∀ a ∈ e.attributes,
          a.span.first.position.line = a.span.last.position.line ∧
          a.span.Holds ([a.name.span, a.type.span] ++ a.primaryKey.toList ++
            a.reference.toList.map (·.span)) ∧
          ∀ r ∈ a.reference,
            r.span.Holds [r.arrow, r.targetEntity.span, r.targetAttribute.span] := by
  obtain ⟨ls, hsub, hstatements⟩ := Parser.exists_statementLeaves (lex text).tokens
  have hls : InOrder (ls.flatMap StatementLeaves.tokens) := (inOrder_lex text).sublist hsub
  have hschema : (parse text).schema.statements = ls.map StatementLeaves.toStatement := hstatements
  refine ⟨?_, ?_, ?_⟩
  · intro s hs
    rw [hschema] at hs
    obtain ⟨l, hl, rfl⟩ := List.mem_map.1 hs
    have hcovers := StatementLeaves.covers (hls.of_mem hl)
    obtain ⟨t, ht, hlast⟩ := hcovers.last
    have hmem : t ∈ (lex text).tokens :=
      hsub.subset (List.mem_flatMap.2 ⟨l, hl, List.mem_of_mem_getLast? ht⟩)
    refine ⟨hcovers.forward (hls.of_mem hl), ?_⟩
    rw [← hlast]
    exact offset_last_lt_byteSize hmem
  · rw [hschema, List.pairwise_map]
    exact pairwise_before_of_covers hls fun l => StatementLeaves.covers
  · intro e he
    have hline : ∀ a ∈ e.attributes, a.span.first.position.line = a.span.last.position.line :=
      fun a ha => line_of_mem_attributes he ha
    rw [hschema] at he
    obtain ⟨l, hl, hle⟩ := List.mem_map.1 he
    cases l with
    | empty n => cases hle
    | entity x as =>
      obtain ⟨hentity, hattributes⟩ := StatementLeaves.holds_parts (hls.of_mem hl) hle
      refine ⟨hentity, ?_⟩
      intro a ha
      exact ⟨hline a ha, hattributes a ha⟩

end EntitySchema
