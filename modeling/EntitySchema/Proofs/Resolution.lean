import EntitySchema.Proofs.Nesting
import EntitySchema.Proofs.Renaming

/-!
# The name at a position

The name at a position is sought by going down through entities and attributes, and the places of an
item by going through all names of a schema. Both tell the same names apart.

* `Entity.occurrenceAt?_eq_some_iff`, `Schema.occurrenceAt?_eq_some_iff`: in a nested schema, going
  down finds what is there.
* `occurrenceAt_eq_ok_iff`, `occurrenceAt_of_identifier`: the name at a position of a text without
  errors.
* `mem_placesOf_iff_resolved`: the places of an item are the identifiers that are resolved to it.
* **`occurrenceAt_iff_renameEdits`**: identifiers are resolved, and edited together with all those
  that are resolved to the same item.
-/

namespace EntitySchema

variable {p : Position} {o : Occurrence}

/-! ## Going down finds what is there -/

theorem Entity.occurrenceAt?_eq_some_iff {e : Entity} (h : e.Nested) :
    e.occurrenceAt? p = some o ↔ o ∈ e.occurrences ∧ o.span.contains p := by
  obtain ⟨hname, hattributes⟩ := List.pairwise_cons.1 h.names
  by_cases hp : e.name.span.contains p
  · rw [occurrenceAt?, if_pos hp, Option.some.injEq]
    constructor
    · rintro rfl
      exact ⟨List.mem_cons_self, hp⟩
    · rintro ⟨ho, hop⟩
      rcases List.mem_cons.1 ho with rfl | ho
      · rfl
      · exact absurd hop ((hname o ho).not_contains hp)
  · rw [occurrenceAt?, if_neg hp]
    constructor
    · intro hsome
      obtain ⟨a, ha, ho⟩ := Option.bind_eq_some_iff.1 hsome
      have hmem : o ∈ e.attributes.flatMap (Attribute.occurrences e.name.name) :=
        List.mem_flatMap.2 ⟨a, List.mem_of_find?_eq_some ha, List.mem_of_find?_eq_some ho⟩
      have hop := List.find?_some ho
      exact ⟨List.mem_cons_of_mem _ hmem, hop⟩
    · rintro ⟨ho, hop⟩
      rcases List.mem_cons.1 ho with rfl | ho
      · exact absurd hop hp
      · obtain ⟨a, ha, ho⟩ := List.mem_flatMap.1 ho
        have hap := Span.contains_of_encloses (h.attribute_encloses a ha o ho) hop
        have hnames := (List.pairwise_flatMap.1 hattributes).1 a ha
        exact Option.bind_eq_some_iff.2 ⟨a, (Span.find?_contains h.attributes).2 ⟨ha, hap⟩,
          (Span.find?_contains hnames).2 ⟨ho, hop⟩⟩

/-- **In a nested schema, going down finds what is there.** -/
theorem Schema.occurrenceAt?_eq_some_iff {s : Schema} (h : s.Nested) :
    s.occurrenceAt? p = some o ↔ o ∈ s.occurrences ∧ o.span.contains p := by
  rw [occurrenceAt?]
  constructor
  · intro hsome
    obtain ⟨e, he, ho⟩ := Option.bind_eq_some_iff.1 hsome
    have he := List.mem_of_find?_eq_some he
    obtain ⟨ho, hop⟩ := (Entity.occurrenceAt?_eq_some_iff (h.entity e he)).1 ho
    exact ⟨List.mem_flatMap.2 ⟨e, he, ho⟩, hop⟩
  · rintro ⟨ho, hop⟩
    obtain ⟨e, he, ho⟩ := List.mem_flatMap.1 ho
    have hep := Span.contains_of_encloses ((h.entity e he).encloses o ho) hop
    exact Option.bind_eq_some_iff.2 ⟨e, (Span.find?_contains h.entities).2 ⟨he, hep⟩,
      (Entity.occurrenceAt?_eq_some_iff (h.entity e he)).2 ⟨ho, hop⟩⟩

section Text

variable {text : String}

theorem map_span_identifiers (h : (parse text).errors = []) :
    (ofKind .identifier (lex text).tokens).map Token.span =
      (parse text).schema.occurrences.map Occurrence.span := by
  rw [identifiers_lex h, ← map_identifier_occurrences, Parser.written, List.map_map, List.map_map]
  rfl

theorem occurrenceAt_eq_ok_iff (h : (parse text).errors = []) :
    (parse text).occurrenceAt p = .ok o ↔
      o ∈ (parse text).schema.occurrences ∧ o.span.contains p := by
  rw [← Schema.occurrenceAt?_eq_some_iff (nested_parse text), Parsed.occurrenceAt, h]
  cases (parse text).schema.occurrenceAt? p <;> simp

theorem exists_identifier_iff (h : (parse text).errors = []) {s : Span} :
    (∃ t ∈ (lex text).tokens, t.kind = .identifier ∧ t.span = s) ↔
      ∃ o ∈ (parse text).schema.occurrences, o.span = s := by
  rw [← List.mem_map, ← map_span_identifiers h, List.mem_map]
  simp only [mem_ofKind, and_assoc]

theorem occurrenceAt_of_identifier (h : (parse text).errors = []) {t : Token}
    (ht : t ∈ (lex text).tokens) (hkind : t.kind = .identifier) (hp : t.span.contains p) :
    (parse text).occurrenceAt p = .ok o ↔
      o ∈ (parse text).schema.occurrences ∧ o.span = t.span := by
  obtain ⟨o', ho', hspan⟩ := (exists_identifier_iff h).1 ⟨t, ht, hkind, rfl⟩
  have hok : (parse text).occurrenceAt p = .ok o' :=
    (occurrenceAt_eq_ok_iff h).2 ⟨ho', hspan ▸ hp⟩
  constructor
  · intro ho
    rw [ho] at hok
    cases hok
    exact ⟨ho', hspan⟩
  · rintro ⟨ho, hspan'⟩
    rw [occurrenceAt_eq_ok_iff h, hspan']
    exact ⟨ho, hp⟩

theorem exists_occurrenceAt_iff (h : (parse text).errors = []) :
    (∃ o, (parse text).occurrenceAt p = .ok o) ↔
      ∃ t ∈ (lex text).tokens, t.kind = .identifier ∧ t.span.contains p := by
  constructor
  · rintro ⟨o, hok⟩
    obtain ⟨ho, hop⟩ := (occurrenceAt_eq_ok_iff h).1 hok
    obtain ⟨t, ht, hkind, hspan⟩ := (exists_identifier_iff h).2 ⟨o, ho, rfl⟩
    exact ⟨t, ht, hkind, hspan ▸ hop⟩
  · rintro ⟨t, ht, hkind, hp⟩
    obtain ⟨o, ho⟩ := (exists_identifier_iff h).1 ⟨t, ht, hkind, rfl⟩
    exact ⟨o, (occurrenceAt_of_identifier h ht hkind hp).2 ho⟩

/-! ## The places of an item -/

theorem map_span_renameEdits (s : Schema) (item : Item) (newName : String) :
    (s.renameEdits item newName).map Edit.span = s.placesOf item := by
  rw [renameEdits_eq, List.map_map]
  exact List.map_id _

theorem pairwise_placesOf (text : String) (item : Item) :
    ((parse text).schema.placesOf item).Pairwise Span.Before := by
  have hnames : ((parse text).schema.shape.names.map Identifier.span).Pairwise Span.Before :=
    (List.pairwise_map.2 (inOrder_lex text).before).sublist (map_span_names_sublist text)
  exact hnames.sublist (placesOf_sublist _ item)

theorem count_placesOf (ho : o ∈ (parse text).schema.occurrences) :
    ((parse text).schema.placesOf o.item).count o.span = 1 := by
  have hnodup := nodup_span_names text
  exact List.count_eq_one_of_mem (hnodup.sublist (placesOf_sublist _ o.item))
    ((mem_placesOf_iff hnodup o.item o ho).2 rfl)

/-- **The places of an item are the identifiers that are resolved to it.** -/
theorem mem_placesOf_iff_resolved (h : (parse text).errors = []) {item : Item} {s : Span} :
    s ∈ (parse text).schema.placesOf item ↔
      ∃ t ∈ (lex text).tokens, t.kind = .identifier ∧ t.span = s ∧
        ∀ q, t.span.contains q → ∃ o, (parse text).occurrenceAt q = .ok o ∧ o.item = item := by
  have hmem := mem_placesOf_iff (nodup_span_names text) item
  constructor
  · intro hs
    obtain ⟨o, ho, rfl⟩ := List.mem_map.1 hs
    have ho := (List.mem_filter.1 ho).1
    obtain ⟨t, ht, hkind, hspan⟩ := (exists_identifier_iff h).2 ⟨o, ho, rfl⟩
    refine ⟨t, ht, hkind, hspan, ?_⟩
    intro q hq
    exact ⟨o, (occurrenceAt_of_identifier h ht hkind hq).2 ⟨ho, hspan.symm⟩, (hmem o ho).1 hs⟩
  · rintro ⟨t, ht, hkind, rfl, hresolved⟩
    have hfirst := Span.contains_first ((inOrder_lex text).forward t ht)
    obtain ⟨o, hok, hitem⟩ := hresolved _ hfirst
    obtain ⟨ho, hspan⟩ := (occurrenceAt_of_identifier h ht hkind hfirst).1 hok
    rw [← hspan]
    exact (hmem o ho).2 hitem

end Text

/-- **Identifiers are resolved, and edited with all that are resolved to the same item.** -/
theorem occurrenceAt_iff_renameEdits (text : String) (h : (parse text).errors = [])
    (p : Position) :
    ((∃ o, (parse text).occurrenceAt p = .ok o) ↔
        ∃ t ∈ (lex text).tokens, t.kind = .identifier ∧ t.span.contains p) ∧
      ∀ o, (parse text).occurrenceAt p = .ok o →
        (∀ t ∈ (lex text).tokens, t.kind = .identifier → t.span.contains p → o.span = t.span) ∧
        ∀ newName : String,
          let spans := ((parse text).schema.renameEdits o.item newName).map Edit.span
          spans.Pairwise Span.Before ∧
          (∀ s, s ∈ spans ↔ ∃ t ∈ (lex text).tokens, t.kind = .identifier ∧ t.span = s ∧
            ∀ q, t.span.contains q →
              ∃ o', (parse text).occurrenceAt q = .ok o' ∧ o'.item = o.item) ∧
          spans.count o.span = 1 ∧
          ∀ s ∈ spans, ∀ q, s.contains q → ∃ o', (parse text).occurrenceAt q = .ok o' ∧
            (parse text).schema.renameEdits o'.item newName =
              (parse text).schema.renameEdits o.item newName := by
  refine ⟨exists_occurrenceAt_iff h, ?_⟩
  intro o hok
  have ho := ((occurrenceAt_eq_ok_iff h).1 hok).1
  refine ⟨fun t ht hkind hp => ((occurrenceAt_of_identifier h ht hkind hp).1 hok).2, ?_⟩
  intro newName spans
  have hspans : spans = (parse text).schema.placesOf o.item := map_span_renameEdits _ _ newName
  rw [hspans]
  refine ⟨pairwise_placesOf text o.item, fun s => mem_placesOf_iff_resolved h, count_placesOf ho, ?_⟩
  intro s hs q hq
  obtain ⟨t, -, -, rfl, hresolved⟩ := (mem_placesOf_iff_resolved h).1 hs
  obtain ⟨o', hok', hitem⟩ := hresolved q hq
  exact ⟨o', hok', by rw [hitem]⟩

/-- The name in a reference, in a document that declares `users` twice and never declares `dogs`. -/
theorem occurrenceAt_iff_renameEdits_users :
    let text := "users\n  boss int -> users(id)\nusers\n  pet int -> dogs(id)\n"
    let o : Occurrence := ⟨.entity "users", ⟨⟨20, ⟨2, 15⟩⟩, ⟨24, ⟨2, 19⟩⟩⟩⟩
    (parse text).errors = [] ∧ (parse text).occurrenceAt ⟨2, 17⟩ = .ok o ∧
      (∀ t ∈ (lex text).tokens, t.kind = .identifier → t.span.contains ⟨2, 17⟩ → o.span = t.span) ∧
      let spans := ((parse text).schema.renameEdits o.item "people").map Edit.span
      spans.Pairwise Span.Before ∧
      (∀ s, s ∈ spans ↔ ∃ t ∈ (lex text).tokens, t.kind = .identifier ∧ t.span = s ∧
        ∀ q, t.span.contains q →
          ∃ o', (parse text).occurrenceAt q = .ok o' ∧ o'.item = o.item) ∧
      spans.count o.span = 1 ∧
      ∀ s ∈ spans, ∀ q, s.contains q → ∃ o', (parse text).occurrenceAt q = .ok o' ∧
        (parse text).schema.renameEdits o'.item "people" =
          (parse text).schema.renameEdits o.item "people" := by
  intro text o
  have herrors : (parse text).errors = [] := by decide +kernel
  have hok : (parse text).occurrenceAt ⟨2, 17⟩ = .ok o := by decide +kernel
  obtain ⟨hspan, hedits⟩ := (occurrenceAt_iff_renameEdits text herrors ⟨2, 17⟩).2 o hok
  exact ⟨herrors, hok, hspan, hedits "people"⟩

end EntitySchema
