import EntitySchema.Schema.Rename
import EntitySchema.Schema.Warning
import Mathlib.Data.List.Forall2
import Mathlib.Data.Option.Basic

/-!
# Counterparts

Two schemas may have the same parts under other names. If names of one scope are equal in one of
them exactly if they are in the other, both are looked up and warned about in the same way.

* `Schema.Corresponds` — the spans of names at the same place of two schemas.
* `Entity.Counterpart` — an entity, and what it becomes if the item `item` is named `newName`, which
  is no name in the scope of the item.
* `Identifier.Counterpart.name_eq_iff`: names of one scope stay equal, and stay different.
* `find?_counterpart`, `repeatsAfter_counterpart`: so they are found, and repeated, where they were.
* `target?_counterpart`: references lead to the same declarations.
* **`warnings_counterpart`**: the warnings are the same, up to their places.
-/

namespace EntitySchema

/-- The spans of names at the same place of two attributes. -/
inductive Attribute.Corresponds (a a' : Attribute) : Span → Span → Prop
  | name : Corresponds a a' a.name.span a'.name.span
  | type : Corresponds a a' a.type.span a'.type.span
  | targetEntity {r r' : Reference} : a.reference = some r → a'.reference = some r' →
      Corresponds a a' r.targetEntity.span r'.targetEntity.span
  | targetAttribute {r r' : Reference} : a.reference = some r → a'.reference = some r' →
      Corresponds a a' r.targetAttribute.span r'.targetAttribute.span

/-- The spans of names at the same place of two entities. -/
inductive Entity.Corresponds (e e' : Entity) : Span → Span → Prop
  | name : Corresponds e e' e.name.span e'.name.span
  | within {k : Nat} {a a' : Attribute} {p p' : Span} : e.attributes[k]? = some a →
      e'.attributes[k]? = some a' → a.Corresponds a' p p' → Corresponds e e' p p'

/-- The spans of names at the same place of two schemas. -/
inductive Schema.Corresponds (s s' : Schema) : Span → Span → Prop
  | within {k : Nat} {e e' : Entity} {p p' : Span} : s.entities[k]? = some e →
      s'.entities[k]? = some e' → e.Corresponds e' p p' → Corresponds s s' p p'

section Counterpart

variable (C : Span → Span → Prop) (newName : String) (item : Item)

/-- An identifier that names `scope i.name`, and what becomes of it. -/
structure Identifier.Counterpart (scope : String → Item) (i i' : Identifier) : Prop where
  corresponds : C i.span i'.span
  name : i'.name = if scope i.name = item then newName else i.name
  fresh : (∃ n, scope n = item) → i.name ≠ newName

structure Reference.Counterpart (r r' : Reference) : Prop where
  targetEntity : r.targetEntity.Counterpart C newName item .entity r'.targetEntity
  targetAttribute : r.targetAttribute.Counterpart C newName item (.attributeOf r.targetEntity.name)
    r'.targetAttribute

structure Attribute.Counterpart (owner : String) (a a' : Attribute) : Prop where
  name : a.name.Counterpart C newName item (.attributeOf owner) a'.name
  reference : Option.Rel (Reference.Counterpart C newName item) a.reference a'.reference

/-- An entity, and what becomes of it. -/
structure Entity.Counterpart (e e' : Entity) : Prop where
  name : e.name.Counterpart C newName item .entity e'.name
  attributes : List.Forall₂ (Attribute.Counterpart C newName item e.name.name) e.attributes
    e'.attributes

/-- A diagnostic, and what becomes of it. -/
structure Diagnostic.Counterpart (d d' : Diagnostic) : Prop where
  code : d.code = d'.code
  span : C d.span d'.span
  labels : List.Forall₂ (fun l l' => C l.span l'.span) d.labels d'.labels

end Counterpart

/-! ## Names of one scope -/

section Lookup

variable {C : Span → Span → Prop} {newName : String} {item : Item}

/-- **Names of one scope stay equal, and stay different.** -/
theorem Identifier.Counterpart.name_eq_iff {scope : String → Item} (hscope : scope.Injective)
    {i i' j j' : Identifier} (hi : i.Counterpart C newName item scope i')
    (hj : j.Counterpart C newName item scope j') : i'.name = j'.name ↔ i.name = j.name := by
  rw [hi.name, hj.name]
  -- if only one of them is the item, the other one does not have the new name already
  by_cases hin : scope i.name = item <;> by_cases hjn : scope j.name = item
  · simp [hjn, hscope (hin.trans hjn.symm)]
  · have hne : i.name ≠ j.name := fun h => hjn (h ▸ hin)
    simp [hin, hjn, hne, (hj.fresh ⟨_, hin⟩).symm]
  · have hne : i.name ≠ j.name := fun h => hin (h ▸ hjn)
    simp [hin, hjn, hne, hi.fresh ⟨_, hjn⟩]
  · simp [hin, hjn]

theorem injective_attributeOf (owner : String) : (Item.attributeOf owner).Injective :=
  fun _ _ h => (Item.attributeOf.inj h).2

theorem injective_entity : Item.entity.Injective := fun _ _ h => Item.entity.inj h

section Named

variable {α : Type} {R : α → α → Prop} {name : α → Identifier} {scope : String → Item}
  {xs xs' : List α}

theorem find?_counterpart (hscope : scope.Injective)
    (hR : ∀ x x', R x x' → (name x).Counterpart C newName item scope (name x'))
    (h : List.Forall₂ R xs xs') {i i' : Identifier}
    (hi : i.Counterpart C newName item scope i') :
    Option.Rel R (xs.find? fun x => (name x).name == i.name)
      (xs'.find? fun x => (name x).name == i'.name) := by
  induction h with
  | nil => exact .none
  | @cons x x' xs xs' hx _ ih =>
    have hname := (hR x x' hx).name_eq_iff hscope hi
    by_cases heq : (name x).name = i.name
    · simp only [List.find?_cons, beq_iff_eq.2 heq, beq_iff_eq.2 (hname.2 heq)]
      exact .some hx
    · simp only [List.find?_cons, beq_eq_false_iff_ne.2 heq,
        beq_eq_false_iff_ne.2 fun h => heq (hname.1 h)]
      exact ih

theorem repeatsAfter_counterpart (hscope : scope.Injective)
    (hR : ∀ x x', R x x' → (name x).Counterpart C newName item scope (name x'))
    (h : List.Forall₂ R xs xs') {seen seen' : List Identifier}
    (hseen : List.Forall₂ (Identifier.Counterpart C newName item scope) seen seen') :
    List.Forall₂ (fun r r' => C r.first.span r'.first.span ∧ C r.again.span r'.again.span)
      (repeatsAfter seen (xs.map name)) (repeatsAfter seen' (xs'.map name)) := by
  induction h generalizing seen seen' with
  | nil => exact .nil
  | @cons x x' xs xs' hx _ ih =>
    have hi := hR x x' hx
    have hfound : Option.Rel (Identifier.Counterpart C newName item scope)
        (seen.find? (·.name == (name x).name)) (seen'.find? (·.name == (name x').name)) :=
      find?_counterpart hscope (fun _ _ hj => hj) hseen hi
    rw [List.map_cons, List.map_cons, repeatsAfter, repeatsAfter]
    generalize seen.find? _ = first, seen'.find? _ = first' at hfound ⊢
    cases hfound with
    | none => exact ih (.cons hi hseen)
    | some hfirst => exact .cons ⟨hfirst.corresponds, hi.corresponds⟩ (ih hseen)

end Named

variable {s s' : Schema}

theorem entity?_counterpart
    (h : List.Forall₂ (Entity.Counterpart C newName item) s.entities s'.entities)
    {i i' : Identifier} (hi : i.Counterpart C newName item .entity i') :
    Option.Rel (Entity.Counterpart C newName item) (s.entity? i.name) (s'.entity? i'.name) :=
  find?_counterpart injective_entity (fun _ _ he => he.name) h hi

theorem Entity.Counterpart.attribute? {e e' : Entity} (h : e.Counterpart C newName item e')
    {i i' : Identifier} (hi : i.Counterpart C newName item (.attributeOf e.name.name) i') :
    Option.Rel (Attribute.Counterpart C newName item e.name.name) (e.attribute? i.name)
      (e'.attribute? i'.name) :=
  find?_counterpart (injective_attributeOf _) (fun _ _ ha => ha.name) h.attributes hi

/-! ## References -/

theorem references_counterpart
    (h : List.Forall₂ (Entity.Counterpart C newName item) s.entities s'.entities) :
    List.Forall₂ (Reference.Counterpart C newName item) s.references s'.references := by
  refine List.rel_flatMap h ?_
  intro e e' he
  refine List.rel_filterMap ?_ he.attributes
  exact fun _ _ ha => ha.reference

/-- The declarations that a reference leads to. -/
def Schema.target? (s : Schema) (r : Reference) : Option (Entity × Attribute) := do
  let e ← s.entity? r.targetEntity.name
  let a ← e.attribute? r.targetAttribute.name
  return (e, a)

/-- A reference and its counterpart name entities that are counterparts, and attributes of these. -/
theorem entity?_reference
    (h : List.Forall₂ (Entity.Counterpart C newName item) s.entities s'.entities)
    {r r' : Reference} (hr : r.Counterpart C newName item r') :
    Option.Rel (fun e e' => e.Counterpart C newName item e' ∧
        Option.Rel (Attribute.Counterpart C newName item e.name.name)
          (e.attribute? r.targetAttribute.name) (e'.attribute? r'.targetAttribute.name))
      (s.entity? r.targetEntity.name) (s'.entity? r'.targetEntity.name) := by
  have hentity := entity?_counterpart h hr.targetEntity
  have hname : ∀ e, s.entity? r.targetEntity.name = some e →
      e.name.name = r.targetEntity.name := by
    intro e he
    simpa using List.find?_some he
  generalize s.entity? r.targetEntity.name = found, s'.entity? r'.targetEntity.name = found'
    at hentity hname ⊢
  cases hentity with
  | none => exact .none
  | @some e e' he =>
    refine .some ⟨he, he.attribute? ?_⟩
    rw [hname e rfl]
    exact hr.targetAttribute

/-- **References lead to the same declarations.** -/
theorem target?_counterpart
    (h : List.Forall₂ (Entity.Counterpart C newName item) s.entities s'.entities)
    {r r' : Reference} (hr : r.Counterpart C newName item r') :
    Option.Rel (fun t t' => C t.1.name.span t'.1.name.span ∧ C t.2.name.span t'.2.name.span)
      (s.target? r) (s'.target? r') := by
  have hentity := entity?_reference h hr
  rw [Schema.target?, Schema.target?]
  generalize s.entity? r.targetEntity.name = found, s'.entity? r'.targetEntity.name = found'
    at hentity ⊢
  cases hentity with
  | none => exact .none
  | @some e e' hee' =>
    obtain ⟨he, hattribute⟩ := hee'
    simp only [Option.bind_eq_bind, Option.bind_some]
    generalize e.attribute? _ = declared, e'.attribute? _ = declared' at hattribute ⊢
    cases hattribute with
    | none => exact .none
    | some ha => exact .some ⟨he.name.corresponds, ha.name.corresponds⟩

/-! ## Warnings -/

theorem dangling?_counterpart
    (h : List.Forall₂ (Entity.Counterpart C newName item) s.entities s'.entities)
    {r r' : Reference} (hr : r.Counterpart C newName item r') :
    Option.Rel (fun w w' : Warning => w.diagnostic.Counterpart C w'.diagnostic) (s.dangling? r)
      (s'.dangling? r') := by
  have hentity := entity?_reference h hr
  rw [Schema.dangling?, Schema.dangling?]
  generalize s.entity? r.targetEntity.name = found, s'.entity? r'.targetEntity.name = found'
    at hentity ⊢
  cases hentity with
  | none => exact .some ⟨rfl, hr.targetEntity.corresponds, .nil⟩
  | @some e e' hee' =>
    obtain ⟨he, hattribute⟩ := hee'
    simp only
    generalize e.attribute? _ = declared, e'.attribute? _ = declared' at hattribute ⊢
    cases hattribute with
    | none =>
      exact .some ⟨rfl, hr.targetAttribute.corresponds, .cons he.name.corresponds .nil⟩
    | some _ => exact .none

/-- **The warnings about counterparts are the same, up to their places.** -/
theorem warnings_counterpart
    (h : List.Forall₂ (Entity.Counterpart C newName item) s.entities s'.entities) :
    List.Forall₂ (fun w w' => w.diagnostic.Counterpart C w'.diagnostic) s.warnings s'.warnings := by
  refine List.rel_append (List.rel_append ?_ ?_) ?_
  · have hrepeats :=
      repeatsAfter_counterpart injective_entity (fun _ _ he => he.name) h .nil
    rw [List.forall₂_map_left_iff, List.forall₂_map_right_iff]
    exact hrepeats.imp fun r r' hr => ⟨rfl, hr.2, .cons hr.1 .nil⟩
  · refine List.rel_flatMap h ?_
    intro e e' he
    have hrepeats := repeatsAfter_counterpart (injective_attributeOf e.name.name)
      (fun _ _ ha => ha.name) he.attributes .nil
    rw [List.forall₂_map_left_iff, List.forall₂_map_right_iff]
    exact hrepeats.imp fun r r' hr => ⟨rfl, hr.2, .cons hr.1 .nil⟩
  · refine List.rel_filterMap ?_ (references_counterpart h)
    exact fun _ _ hr => dangling?_counterpart h hr

end Lookup

end EntitySchema
