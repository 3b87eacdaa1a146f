import EntitySchema.Schema.Basic

/-!
# Outlines

* `OutlineNode` — a named part of a document.
* `OutlineEntry` — an entity with its attributes.
* `Schema.outline` — the outline of a schema, in source order.
-/

namespace EntitySchema

/-- A named part of a document. -/
structure OutlineNode where
  name : String
  /-- The text of the part. -/
  span : Span
  /-- The place of the name. -/
  selection : Span
  deriving DecidableEq, Repr

/-- An entity in an outline. -/
structure OutlineEntry where
  node : OutlineNode
  children : List OutlineNode
  deriving DecidableEq, Repr

/-- An attribute in an outline. -/
def Attribute.outline (a : Attribute) : OutlineNode := ⟨a.name.name, a.span, a.name.span⟩

/-- An entity in an outline, with one child for each attribute. -/
def Entity.outline (e : Entity) : OutlineEntry :=
  ⟨⟨e.name.name, e.span, e.name.span⟩, e.attributes.map Attribute.outline⟩

/-- The outline of a schema: one entry for each entity. -/
def Schema.outline (s : Schema) : List OutlineEntry := s.entities.map Entity.outline

end EntitySchema
