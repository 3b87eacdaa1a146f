import EntitySchema.Json.Forms
import EntitySchema.Schema.Outline
import EntitySchema.Schema.Parser
import EntitySchema.Schema.Rename

/-!
# JSON forms of schemas, outlines and renamings

The order of the fields is the order in which they are printed.
-/

namespace EntitySchema

/-- An identifier as an object. -/
def Identifier.toJson (i : Identifier) : Json :=
  .object [("name", .string i.name), ("span", i.span.toJson)]

/-- A keyword or an arrow as an object: only its place matters. -/
def Span.markerJson (s : Span) : Json := .object [("span", s.toJson)]

/-- A reference as an object. -/
def Reference.toJson (r : Reference) : Json :=
  .object
    [("keyword", r.arrow.markerJson), ("entity", r.targetEntity.toJson),
      ("attribute", r.targetAttribute.toJson), ("span", r.span.toJson)]

/-- An attribute as an object. -/
def Attribute.toJson (a : Attribute) : Json :=
  .object
    [("name", a.name.toJson), ("ty", a.type.toJson),
      ("primary_key", .option Span.markerJson a.primaryKey),
      ("reference", .option Reference.toJson a.reference), ("span", a.span.toJson)]

/-- A statement as an object that names its kind first. -/
def Statement.toJson : Statement → Json
  | empty span => .object [("kind", .string "Empty"), ("span", span.toJson)]
  | entity e =>
    .object
      [("kind", .string "Entity"), ("name", e.name.toJson),
        ("attributes", .list Attribute.toJson e.attributes), ("span", e.span.toJson)]

/-- A schema as an object. -/
def Schema.toJson (s : Schema) : Json :=
  .object [("statements", .list Statement.toJson s.statements)]

/-- A parsed document as an object. -/
def Parsed.toJson (p : Parsed) : Json :=
  .object [("schema", p.schema.toJson), ("errors", .list Diagnostic.toJson p.errors)]

/-- A node of an outline as an object. -/
def OutlineNode.toJson (kind : String) (children : Json) (n : OutlineNode) : Json :=
  .object
    [("name", .string n.name), ("kind", .string kind), ("span", n.span.toJson),
      ("selection_span", n.selection.toJson), ("children", children)]

/-- An entry of an outline as an object. -/
def OutlineEntry.toJson (e : OutlineEntry) : Json :=
  e.node.toJson "entity" (.list (OutlineNode.toJson "field" (.array [])) e.children)

/-- An item as an object that names its kind first. -/
def Item.toJson : Item → Json
  | entity name => .object [("kind", .string "Entity"), ("entity", .string name)]
  | attributeOf owner name =>
    .object
      [("kind", .string "Attribute"), ("entity", .string owner), ("attribute", .string name)]
  | type name => .object [("kind", .string "Type"), ("ty", .string name)]

/-- An occurrence as an object. -/
def Occurrence.toJson (o : Occurrence) : Json :=
  .object [("item", o.item.toJson), ("span", o.span.toJson)]

/-- An edit as an object. -/
def Edit.toJson (e : Edit) : Json :=
  .object [("span", e.span.toJson), ("replacement", .string e.replacement)]

end EntitySchema
