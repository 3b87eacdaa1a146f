import EntitySchema.Schema.Parser
import EntitySchema.Text.Edit

/-!
# Renaming

* `Item` — what a name in a schema denotes.
* `Occurrence` — a place where an item is named.
* `Schema.occurrences` — all of them, in source order.
* `Schema.occurrenceAt?` — the one at a position.
* `Parsed.occurrenceAt` — the same in a document, which must have no errors.
* `Schema.renameEdits` — the edits that give an item a new name.
-/

namespace EntitySchema

/-- What a name in a schema denotes. -/
inductive Item where
  | entity (name : String)
  | attributeOf (entity name : String)
  | type (name : String)
  deriving DecidableEq, Repr

/-- A place where an item is named. -/
structure Occurrence where
  item : Item
  span : Span
  deriving DecidableEq, Repr

/-- The entity and the attribute that a reference names. -/
def Reference.occurrences (r : Reference) : List Occurrence :=
  [⟨.entity r.targetEntity.name, r.targetEntity.span⟩,
    ⟨.attributeOf r.targetEntity.name r.targetAttribute.name, r.targetAttribute.span⟩]

/-- The names on the line of an attribute of the entity `owner`. -/
def Attribute.occurrences (owner : String) (a : Attribute) : List Occurrence :=
  ⟨.attributeOf owner a.name.name, a.name.span⟩ :: ⟨.type a.type.name, a.type.span⟩ ::
    (a.reference.map Reference.occurrences).getD []

namespace Entity

/-- The name of an entity itself. -/
def declaration (e : Entity) : Occurrence := ⟨.entity e.name.name, e.name.span⟩

/-- The names in the text of an entity. -/
def occurrences (e : Entity) : List Occurrence :=
  e.declaration :: e.attributes.flatMap (Attribute.occurrences e.name.name)

/-- The name at a position in the text of an entity. It is sought in the first attribute whose text
the position belongs to. -/
def occurrenceAt? (e : Entity) (p : Position) : Option Occurrence :=
  if e.name.span.contains p then some e.declaration
  else do
    let a ← e.attributes.find? (·.span.contains p)
    (a.occurrences e.name.name).find? (·.span.contains p)

end Entity

namespace Schema

/-- The names in a schema. -/
def occurrences (s : Schema) : List Occurrence := s.entities.flatMap Entity.occurrences

/-- The name at a position. It is sought in the first entity whose text the position belongs to. -/
def occurrenceAt? (s : Schema) (p : Position) : Option Occurrence := do
  let e ← s.entities.find? (·.span.contains p)
  e.occurrenceAt? p

/-- The edits that put `newName` in all places where `item` is named, in source order. -/
def renameEdits (s : Schema) (item : Item) (newName : String) : List Edit :=
  (s.occurrences.filter (·.item = item)).map (⟨·.span, newName⟩)

end Schema

/-- Why a name cannot be changed. -/
inductive Refusal where
  | documentHasErrors (count : Nat)
  | unsupportedPosition
  | invalidName (name : String)
  deriving DecidableEq, Repr

/-- The text of a refusal. -/
def Refusal.message : Refusal → String
  | documentHasErrors count =>
    "cannot rename while the document has " ++ toString count ++ " syntax error(s)"
  | unsupportedPosition => "the cursor is not on an entity, attribute or type name"
  | invalidName name => "'" ++ name ++ "' is not a valid entity, attribute or type name"

/-- The name at a position of a document without errors. -/
def Parsed.occurrenceAt (d : Parsed) (p : Position) : Except Refusal Occurrence :=
  if d.errors.isEmpty then
    match d.schema.occurrenceAt? p with
    | some o => .ok o
    | none => .error .unsupportedPosition
  else .error (.documentHasErrors d.errors.length)

end EntitySchema
