import EntitySchema.Text.Span

/-!
# Schemas

A schema document lists entities with their attributes. An attribute has a type, may be marked as
primary key, and may refer to an attribute of an entity.

* `Identifier`, `Reference`, `Attribute`, `Entity`, `Statement`, `Schema` — the parts of a schema,
  each with the place where it stands in its document.
* `Attribute.span`, `Entity.span`, `Statement.span` — the text that a part covers.
* `Schema.entities`, `Schema.references` — the parts of one kind, in source order.
* `Entity.attribute?`, `Schema.entity?` — the first part of a name.
-/

namespace EntitySchema

/-- A name and the place where it is written. -/
structure Identifier where
  name : String
  span : Span
  deriving DecidableEq, Repr

/-- A reference `-> entity(attribute)` to an attribute of an entity. -/
structure Reference where
  /-- The place of the arrow. -/
  arrow : Span
  targetEntity : Identifier
  targetAttribute : Identifier
  /-- The place of the whole reference, from the arrow to the closing parenthesis. -/
  span : Span
  deriving DecidableEq, Repr

/-- An attribute of an entity. -/
structure Attribute where
  name : Identifier
  type : Identifier
  /-- The place of the primary key marker, if there is one. -/
  primaryKey : Option Span
  reference : Option Reference
  deriving DecidableEq, Repr

namespace Attribute

/-- The text from the name of an attribute to its last part. -/
def span (a : Attribute) : Span :=
  ((a.name.span.merge a.type.span).merge a.primaryKey).merge (a.reference.map (·.span))

/-- Whether an attribute is marked as primary key. -/
def isPrimaryKey (a : Attribute) : Bool := a.primaryKey.isSome

end Attribute

/-- An entity with its attributes. -/
structure Entity where
  name : Identifier
  attributes : List Attribute
  deriving DecidableEq, Repr

namespace Entity

/-- The text from the name of an entity to the end of its last attribute. -/
def span (e : Entity) : Span := e.name.span.merge (e.attributes.getLast?.map Attribute.span)

/-- The first attribute of a name. -/
def attribute? (e : Entity) (name : String) : Option Attribute :=
  e.attributes.find? (·.name.name == name)

/-- The references of an entity's attributes. -/
def references (e : Entity) : List Reference := e.attributes.filterMap (·.reference)

end Entity

/-- A statement of a schema document. -/
inductive Statement where
  /-- An empty line; the span is that of its newline. -/
  | empty (span : Span)
  | entity (e : Entity)
  deriving DecidableEq, Repr

namespace Statement

/-- The text that a statement covers. -/
def span : Statement → Span
  | empty s => s
  | entity e => e.span

/-- The entity that a statement declares. -/
def entity? : Statement → Option Entity
  | empty _ => none
  | entity e => some e

end Statement

/-- The statements of a schema document. -/
structure Schema where
  statements : List Statement
  deriving DecidableEq, Repr

namespace Schema

/-- The entities of a schema. -/
def entities (s : Schema) : List Entity := s.statements.filterMap Statement.entity?

/-- The first entity of a name. -/
def entity? (s : Schema) (name : String) : Option Entity :=
  s.entities.find? (·.name.name == name)

/-- The references of all attributes of a schema. -/
def references (s : Schema) : List Reference := s.entities.flatMap Entity.references

end Schema

end EntitySchema
