import EntitySchema.Schema.Basic
import EntitySchema.Vocabulary

/-!
# Completion

* `CompletionContext` — what the text of a line in front of the cursor asks for.
* `CompletionContext.ofLine?` — the context of a line, by its shape alone.
* `Schema.primaryKeys` — the attributes that a reference may aim at.
* `Schema.suggestions` — the suggestions in a context.
-/

namespace EntitySchema

/-- What the text in front of the cursor asks for. -/
inductive CompletionContext where
  /-- Two spaces, a word and a space: the type of an attribute. -/
  | attributeType
  /-- The same with another word and a space: a reference. -/
  | relation
  /-- The same with an arrow between spaces instead of the last space: the aim of a reference. -/
  | relationTarget
  deriving DecidableEq, Repr

namespace CompletionContext

/-- What follows the word at the front of a text. -/
def stripWord? : List Char → Option (List Char)
  | [] => none
  | c :: cs => if Word.isStart c then some (cs.dropWhile Word.isPart) else none

/-- The context of the text in front of the cursor. -/
def ofLine? : List Char → Option CompletionContext
  | ' ' :: ' ' :: cs =>
    match stripWord? cs with
    | some [' '] => some attributeType
    | some (' ' :: cs) =>
      match stripWord? cs with
      | some [' '] => some relation
      | some [' ', '-', '>', ' '] => some relationTarget
      | _ => none
    | _ => none
  | _ => none

end CompletionContext

/-- A suggestion is a type or a reference. -/
inductive SuggestionKind where
  | type
  | relation
  deriving DecidableEq, Repr

/-- A text that may be put in at the cursor. -/
structure Suggestion where
  kind : SuggestionKind
  text : String
  deriving DecidableEq, Repr

namespace Schema

/-- The attributes marked as primary key, each behind the name of its entity. -/
def primaryKeys (s : Schema) : List (String × String) :=
  s.entities.flatMap fun e =>
    (e.attributes.filter Attribute.isPrimaryKey).map fun a => (e.name.name, a.name.name)

/-- The suggestions in a context. -/
def suggestions (s : Schema) : CompletionContext → List Suggestion
  | .attributeType => attributeTypes.map (⟨.type, ·⟩)
  | .relation =>
    s.primaryKeys.map fun (entity, name) => ⟨.relation, "-> " ++ entity ++ "(" ++ name ++ ")"⟩
  | .relationTarget =>
    s.primaryKeys.map fun (entity, name) => ⟨.relation, entity ++ "(" ++ name ++ ")"⟩

end Schema

end EntitySchema
