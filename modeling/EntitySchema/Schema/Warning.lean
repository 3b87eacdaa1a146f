import EntitySchema.Diagnostic
import EntitySchema.Schema.Parser

/-!
# Warnings about schemas

* `Warning` — a name that is declared twice, or a reference that points nowhere.
* `repeats` — the identifiers whose name came before, each with the first one of that name.
* `Schema.warnings` — the warnings about a schema: entities declared twice, attributes declared
  twice within an entity, then dangling references, each in source order.
* `Parsed.diagnostics` — the errors of a document and the warnings about its schema.
-/

namespace EntitySchema

/-- An identifier together with an earlier one of the same name. -/
structure Repeat where
  first : Identifier
  again : Identifier
  deriving DecidableEq, Repr

/-- Pairs each identifier whose name came before with the first one of that name; `seen` holds the
first identifiers of the names that came before. -/
def repeatsAfter (seen : List Identifier) : List Identifier → List Repeat
  | [] => []
  | i :: is =>
    match seen.find? (·.name == i.name) with
    | some first => ⟨first, i⟩ :: repeatsAfter seen is
    | none => repeatsAfter (i :: seen) is

/-- Pairs each identifier whose name came before with the first one of that name. -/
def repeats (is : List Identifier) : List Repeat := repeatsAfter [] is

/-- A warning about a schema. -/
inductive Warning where
  | repeatedEntity (r : Repeat)
  | repeatedAttribute (r : Repeat)
  /-- No entity has the name that the reference gives. -/
  | missingEntity (r : Reference)
  /-- The entity that the reference names has no attribute of the name it gives. -/
  | missingAttribute (r : Reference) (target : Entity)
  deriving DecidableEq, Repr

namespace Warning

/-- The code of a warning. -/
def code : Warning → String
  | repeatedEntity _ => "W2001"
  | repeatedAttribute _ => "W2002"
  | missingEntity _ => "W2003"
  | missingAttribute _ _ => "W2004"

/-- The line on which an identifier stands. -/
def lineOf (i : Identifier) : String := toString i.span.first.position.line

/-- The text of a warning. -/
def message : Warning → String
  | repeatedEntity r | repeatedAttribute r =>
    "'" ++ r.again.name ++ "' already defined at line " ++ lineOf r.first
  | missingEntity r => "'" ++ r.targetEntity.name ++ "' does not exist"
  | missingAttribute r target =>
    "'" ++ r.targetAttribute.name ++ "' not found in '" ++ r.targetEntity.name ++ "' (line " ++
      lineOf target.name ++ ")"

/-- The place that a warning is about. -/
def span : Warning → Span
  | repeatedEntity r | repeatedAttribute r => r.again.span
  | missingEntity r => r.targetEntity.span
  | missingAttribute r _ => r.targetAttribute.span

/-- The other places that a warning points to. -/
def labels : Warning → List Label
  | repeatedEntity r | repeatedAttribute r => [⟨"first defined here", r.first.span⟩]
  | missingEntity _ => []
  | missingAttribute _ target => [⟨"'" ++ target.name.name ++ "' defined here", target.name.span⟩]

/-- A warning as a diagnostic. -/
def diagnostic (w : Warning) : Diagnostic := ⟨w.code, .warning, w.message, w.span, w.labels⟩

end Warning

namespace Schema

/-- The warning about a reference, if it points nowhere. Only the first entity of a name counts. -/
def dangling? (s : Schema) (r : Reference) : Option Warning :=
  match s.entity? r.targetEntity.name with
  | none => some (.missingEntity r)
  | some target =>
    match target.attribute? r.targetAttribute.name with
    | none => some (.missingAttribute r target)
    | some _ => none

/-- The warnings about a schema. -/
def warnings (s : Schema) : List Warning :=
  (repeats (s.entities.map (·.name))).map .repeatedEntity ++
    s.entities.flatMap (fun e => (repeats (e.attributes.map (·.name))).map .repeatedAttribute) ++
    s.references.filterMap s.dangling?

end Schema

/-- The errors of a document, then the warnings about its schema. -/
def Parsed.diagnostics (p : Parsed) : List Diagnostic :=
  p.errors ++ p.schema.warnings.map Warning.diagnostic

end EntitySchema
