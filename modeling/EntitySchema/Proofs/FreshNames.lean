import EntitySchema.Proofs.Counterparts
import EntitySchema.Proofs.Renaming

/-!
# Renaming to a fresh name

A name is fresh for an item if nothing has it that could be confused with the item. Then the renamed
document has the warnings of the old one, and its references lead where they led.

* `Schema.Fresh` — names that are fresh for an item.
* `forall₂_and_getElem?`: related lists are related index by index.
* `counterparts`: what the edits of a renaming leave are counterparts of what was there.
* **`warnings_renamed`**: renaming to a fresh name keeps all warnings and the targets of all
  references.
-/

namespace EntitySchema

/-- Whether nothing in the scope of an item is called `newName`. Types have no scope, since they are
not declared. -/
def Schema.Fresh (s : Schema) (newName : String) : Item → Prop
  | .entity _ =>
    (∀ e ∈ s.entities, e.name.name ≠ newName) ∧ ∀ r ∈ s.references, r.targetEntity.name ≠ newName
  | .attributeOf owner _ =>
    (∀ e ∈ s.entities, e.name.name = owner → ∀ a ∈ e.attributes, a.name.name ≠ newName) ∧
      ∀ r ∈ s.references, r.targetEntity.name = owner → r.targetAttribute.name ≠ newName
  | .type _ => True

instance (s : Schema) (newName : String) : (item : Item) → Decidable (s.Fresh newName item)
  | .entity _ => inferInstanceAs (Decidable (_ ∧ _))
  | .attributeOf _ _ => inferInstanceAs (Decidable (_ ∧ _))
  | .type _ => inferInstanceAs (Decidable True)

theorem forall₂_and_getElem? {α β : Type} {R : α → β → Prop} {as : List α} {bs : List β}
    (h : List.Forall₂ R as bs) :
    List.Forall₂ (fun a b => R a b ∧ ∃ k : Nat, as[k]? = some a ∧ bs[k]? = some b) as bs := by
  rw [List.forall₂_iff_get]
  refine ⟨h.length_eq, fun k hk hk' => ⟨h.get hk hk', k, ?_, ?_⟩⟩
  · exact List.getElem?_eq_getElem hk
  · exact List.getElem?_eq_getElem hk'

theorem rel_entities {R : Identifier → Identifier → Prop} {s s' : Schema}
    (h : SchemaShape.Rel R s.shape s'.shape) :
    List.Forall₂
      (fun e e' => StatementShape.Rel R (Statement.entity e).shape (Statement.entity e').shape)
      s.entities s'.entities := by
  rw [SchemaShape.Rel, Schema.shape, Schema.shape, List.forall₂_map_left_iff,
    List.forall₂_map_right_iff] at h
  refine List.rel_filterMap ?_ h
  intro st st' hst
  cases st with
  | empty span =>
    cases st' with
    | empty span' => exact .none
    | entity e' => cases hst
  | entity e =>
    cases st' with
    | empty span' => cases hst
    | entity e' => exact .some hst

/-! ## What the edits of a renaming leave -/

section Renamed

variable {s s' : Schema} {newName : String} {item : Item} {C : Span → Span → Prop}

/-- Identifiers of which the second has the new name where the item is named. -/
def RenamedTo (s : Schema) (newName : String) (item : Item) : Identifier → Identifier → Prop :=
  Parser.NameRel (Token.Reworded (s.placesOf item) newName)

theorem RenamedTo.counterpart {i i' : Identifier} (h : RenamedTo s newName item i i')
    (hnodup : (s.shape.names.map Identifier.span).Nodup) {scope : String → Item}
    (ho : ⟨scope i.name, i.span⟩ ∈ s.occurrences) (hC : C i.span i'.span)
    (hfresh : (∃ n, scope n = item) → i.name ≠ newName) :
    i.Counterpart C newName item scope i' where
  corresponds := hC
  name := by
    have htext : i'.name = if i.span ∈ s.placesOf item then newName else i.name := h.text
    simpa only [mem_placesOf_iff hnodup item _ ho] using htext
  fresh := hfresh

variable (hnodup : (s.shape.names.map Identifier.span).Nodup) (hfresh : s.Fresh newName item)
  {e e' : Entity} (he : e ∈ s.entities)

include hnodup hfresh he

theorem Reference.counterpart_of_rel {a : Attribute} (ha : a ∈ e.attributes) {r r' : Reference}
    (hr : a.reference = some r) (hshape : r.shape.Rel (RenamedTo s newName item) r'.shape)
    (hentity : C r.targetEntity.span r'.targetEntity.span)
    (hattribute : C r.targetAttribute.span r'.targetAttribute.span) :
    r.Counterpart C newName item r' := by
  have hmem : r ∈ s.references :=
    List.mem_flatMap.2 ⟨e, he, List.mem_filterMap.2 ⟨a, ha, hr⟩⟩
  have hoccurs : ∀ o ∈ r.occurrences, o ∈ s.occurrences := by
    intro o ho
    refine List.mem_flatMap.2 ⟨e, he, List.mem_cons_of_mem _ (List.mem_flatMap.2 ⟨a, ha, ?_⟩)⟩
    rw [Attribute.occurrences, hr]
    exact List.mem_cons_of_mem _ (List.mem_cons_of_mem _ ho)
  constructor
  · refine hshape.1.counterpart hnodup (hoccurs _ List.mem_cons_self) hentity ?_
    rintro ⟨n, rfl⟩
    exact hfresh.2 r hmem
  · refine hshape.2.counterpart hnodup (hoccurs _ (List.mem_cons_of_mem _ List.mem_cons_self))
      hattribute ?_
    rintro ⟨n, rfl⟩
    exact hfresh.2 r hmem rfl

theorem Attribute.counterpart_of_rel {a a' : Attribute} (ha : a ∈ e.attributes)
    (hshape : a.shape.Rel (RenamedTo s newName item) a'.shape)
    (hC : ∀ p p', a.Corresponds a' p p' → C p p') :
    a.Counterpart C newName item e.name.name a' := by
  constructor
  · refine hshape.name.counterpart hnodup ?_ (hC _ _ .name) ?_
    · exact List.mem_flatMap.2 ⟨e, he, List.mem_cons_of_mem _
        (List.mem_flatMap.2 ⟨a, ha, List.mem_cons_self⟩)⟩
    · rintro ⟨n, rfl⟩
      exact hfresh.1 e he rfl a ha
  · have hreference : Option.Rel (ReferenceShape.Rel (RenamedTo s newName item))
        (a.reference.map Reference.shape) (a'.reference.map Reference.shape) := hshape.reference
    rcases hr : a.reference with _ | r <;> rcases hr' : a'.reference with _ | r' <;>
      rw [hr, hr'] at hreference
    · exact .none
    · cases hreference
    · cases hreference
    · cases hreference with
      | some hrr' =>
        exact .some (r.counterpart_of_rel hnodup hfresh he ha hr hrr'
          (hC _ _ (.targetEntity hr hr')) (hC _ _ (.targetAttribute hr hr')))

theorem Entity.counterpart_of_rel
    (hshape : StatementShape.Rel (RenamedTo s newName item) (Statement.entity e).shape
      (Statement.entity e').shape)
    (hC : ∀ p p', e.Corresponds e' p p' → C p p') : e.Counterpart C newName item e' := by
  rw [Statement.shape, Statement.shape] at hshape
  cases hshape with
  | entity hname hattributes =>
    rw [List.forall₂_map_left_iff, List.forall₂_map_right_iff] at hattributes
    constructor
    · refine hname.counterpart hnodup (List.mem_flatMap.2 ⟨e, he, List.mem_cons_self⟩)
        (hC _ _ .name) ?_
      rintro ⟨n, rfl⟩
      exact hfresh.1 e he
    · refine (forall₂_and_getElem? hattributes).imp ?_
      rintro a a' ⟨ha, k, hk, hk'⟩
      exact a.counterpart_of_rel hnodup hfresh he (List.mem_of_getElem? hk) ha
        fun p p' hp => hC p p' (.within hk hk' hp)

omit he in
theorem counterparts (h : SchemaShape.Rel (RenamedTo s newName item) s.shape s'.shape) :
    List.Forall₂ (Entity.Counterpart (s.Corresponds s') newName item) s.entities s'.entities := by
  refine (forall₂_and_getElem? (rel_entities h)).imp ?_
  rintro e e' ⟨hshape, k, hk, hk'⟩
  exact e.counterpart_of_rel hnodup hfresh (List.mem_of_getElem? hk) hshape
    fun p p' hp => .within hk hk' hp

end Renamed

/-- **Renaming to a fresh name keeps all warnings, and what references lead to.** -/
theorem warnings_renamed (text : String) (item : Item) (newName : String)
    (h : isIdentifier newName) (hfresh : (parse text).schema.Fresh newName item) :
    ∃ result : String,
      Edit.applyAll? text ((parse text).schema.renameEdits item newName) = some result ∧
        let s := (parse text).schema
        let s' := (parse result).schema
        s'.plain = s.plain.rename newName item ∧
        List.Forall₂ (Diagnostic.Counterpart (s.Corresponds s'))
          (s.warnings.map Warning.diagnostic) (s'.warnings.map Warning.diagnostic) ∧
        List.Forall₂
          (fun r r' => s.Corresponds s' r.targetEntity.span r'.targetEntity.span ∧
            s.Corresponds s' r.targetAttribute.span r'.targetAttribute.span ∧
            Option.Rel (fun t t' => s.Corresponds s' t.1.name.span t'.1.name.span ∧
              s.Corresponds s' t.2.name.span t'.2.name.span) (s.target? r) (s'.target? r'))
          s.references s'.references := by
  obtain ⟨result, hreplaces, htokens, -⟩ := exists_renamed text item h
  have happly := Edit.applyAll?_of_rewrites hreplaces
  rw [String.ofList_toList] at happly
  have hshape := (Parser.related_statements (fun _ _ h => h.kind) htokens).1
  have hparts := counterparts (nodup_span_names text) hfresh hshape
  refine ⟨result, happly, plain_of_reworded htokens, ?_, ?_⟩
  · rw [List.forall₂_map_left_iff, List.forall₂_map_right_iff]
    exact warnings_counterpart hparts
  · refine (references_counterpart hparts).imp ?_
    intro r r' hr
    exact ⟨hr.targetEntity.corresponds, hr.targetAttribute.corresponds,
      target?_counterpart hparts hr⟩

/-- The attribute `id` gets another name in a document with warnings of all kinds. -/
theorem warnings_renamed_id :
    let text := "users\n  id int\n  id int\n  boss int -> users(id)\n  pet int -> dogs(id)\n" ++
      "  pal int -> users(pet_id)\nusers\n  id int\n"
    let s := (parse text).schema
    s.warnings.map Warning.code = ["W2001", "W2002", "W2003", "W2004"] ∧
      isIdentifier "key" ∧ s.Fresh "key" (.attributeOf "users" "id") ∧
      ∃ result : String,
        Edit.applyAll? text (s.renameEdits (.attributeOf "users" "id") "key") = some result ∧
          let s' := (parse result).schema
          s'.plain = s.plain.rename "key" (.attributeOf "users" "id") ∧
          List.Forall₂ (Diagnostic.Counterpart (s.Corresponds s'))
            (s.warnings.map Warning.diagnostic) (s'.warnings.map Warning.diagnostic) ∧
          List.Forall₂
            (fun r r' => s.Corresponds s' r.targetEntity.span r'.targetEntity.span ∧
              s.Corresponds s' r.targetAttribute.span r'.targetAttribute.span ∧
              Option.Rel (fun t t' => s.Corresponds s' t.1.name.span t'.1.name.span ∧
                s.Corresponds s' t.2.name.span t'.2.name.span) (s.target? r) (s'.target? r'))
            s.references s'.references := by
  intro text s
  have hfresh : s.Fresh "key" (.attributeOf "users" "id") := by decide +kernel
  exact ⟨by decide +kernel, by decide, hfresh,
    warnings_renamed text (.attributeOf "users" "id") "key" (by decide) hfresh⟩

end EntitySchema
