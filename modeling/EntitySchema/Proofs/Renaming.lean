import EntitySchema.Schema.Rename
import EntitySchema.Proofs.Names
import EntitySchema.Proofs.Rewording

/-!
# Renaming commutes with reading

* `SchemaShape.rename` — a schema without places in which an item has a new name.
* `map_identifier_occurrences`: the occurrences of a schema are its names, in source order.
* `map_shape_eq_rename`: a new name in the places of an item is a schema with this item renamed.
* `exists_renamed`: the edits of a renaming leave a text with the same tokens, but for the name.
* `errors_of_reworded`, `plain_of_reworded`: it has the same errors, and the renamed schema.
* **`renameEdits_commute`**: editing and reading is reading and renaming.
-/

namespace EntitySchema

/-- The name that an item goes by. -/
def Item.name : Item → String
  | entity e => e
  | attributeOf _ a => a
  | type t => t

/-- A reference after its target was renamed. -/
def ReferenceShape.rename (newName : String) (r : ReferenceShape String) :
    Item → ReferenceShape String
  | .entity e => { r with targetEntity := if r.targetEntity = e then newName else r.targetEntity }
  | .attributeOf e a =>
    { r with
      targetAttribute :=
        if r.targetEntity = e ∧ r.targetAttribute = a then newName else r.targetAttribute }
  | .type _ => r

/-- An attribute of the entity `owner` after an item was renamed. -/
def AttributeShape.rename (newName owner : String) (item : Item) (a : AttributeShape String) :
    AttributeShape String :=
  let a' := { a with reference := a.reference.map (·.rename newName item) }
  match item with
  | .entity _ => a'
  | .attributeOf e x => { a' with name := if owner = e ∧ a.name = x then newName else a.name }
  | .type t => { a' with type := if a.type = t then newName else a.type }

/-- The name of an entity after an item was renamed. -/
def Item.renameEntity (newName name : String) : Item → String
  | entity e => if name = e then newName else name
  | _ => name

/-- A statement after an item was renamed. -/
def StatementShape.rename (newName : String) (item : Item) :
    StatementShape String → StatementShape String
  | empty => empty
  | entity n as => entity (item.renameEntity newName n) (as.map (·.rename newName n item))

/-- A schema after an item was renamed. -/
def SchemaShape.rename (newName : String) (item : Item) (s : SchemaShape String) :
    SchemaShape String :=
  List.map (·.rename newName item) s

/-! ## Occurrences and names -/

/-- The name at an occurrence. -/
def Occurrence.identifier (o : Occurrence) : Identifier := ⟨o.item.name, o.span⟩

theorem Attribute.map_identifier_occurrences (owner : String) (a : Attribute) :
    (a.occurrences owner).map Occurrence.identifier = a.shape.names := by
  obtain ⟨name, type, key, _ | r⟩ := a <;> rfl

theorem Entity.map_identifier_occurrences (e : Entity) :
    e.occurrences.map Occurrence.identifier = (Statement.entity e).shape.names := by
  rw [Entity.occurrences, List.map_cons, List.map_flatMap]
  simp only [Attribute.map_identifier_occurrences]
  rw [Statement.shape, StatementShape.names, List.flatMap_map]
  rfl

theorem occurrences_entity (e : Entity) (ss : List Statement) :
    Schema.occurrences ⟨.entity e :: ss⟩ = e.occurrences ++ Schema.occurrences ⟨ss⟩ :=
  List.flatMap_cons

theorem map_identifier_occurrences (s : Schema) :
    s.occurrences.map Occurrence.identifier = s.shape.names := by
  obtain ⟨ss⟩ := s
  induction ss with
  | nil => rfl
  | cons s ss ih =>
    cases s with
    | empty span => exact ih
    | entity e =>
      rw [occurrences_entity, List.map_append, ih, e.map_identifier_occurrences]
      rfl

/-- The places where an item is named. -/
def Schema.placesOf (s : Schema) (item : Item) : List Span :=
  (s.occurrences.filter (·.item = item)).map Occurrence.span

theorem renameEdits_eq (s : Schema) (item : Item) (newName : String) :
    s.renameEdits item newName = (s.placesOf item).map (⟨·, newName⟩) := by
  rw [Schema.renameEdits, Schema.placesOf, List.map_map]
  rfl

theorem placesOf_sublist (s : Schema) (item : Item) :
    (s.placesOf item).Sublist (s.shape.names.map Identifier.span) := by
  rw [← map_identifier_occurrences, List.map_map]
  exact List.filter_sublist.map _

theorem exists_of_mem_placesOf {s : Schema} {item : Item} {span : Span}
    (h : span ∈ s.placesOf item) : (⟨item.name, span⟩ : Identifier) ∈ s.shape.names := by
  obtain ⟨o, ho, rfl⟩ := List.mem_map.1 h
  obtain ⟨hmem, hitem⟩ := List.mem_filter.1 ho
  rw [← map_identifier_occurrences, ← of_decide_eq_true hitem]
  exact List.mem_map_of_mem hmem

theorem mem_placesOf_iff {s : Schema} (h : (s.shape.names.map Identifier.span).Nodup)
    (item : Item) :
    ∀ o ∈ s.occurrences, (o.span ∈ s.placesOf item ↔ o.item = item) := by
  intro o ho
  rw [← map_identifier_occurrences, List.map_map] at h
  constructor
  · intro hspan
    obtain ⟨o', ho', hspan'⟩ := List.mem_map.1 hspan
    obtain ⟨hmem, hitem⟩ := List.mem_filter.1 ho'
    have heq : o' = o := List.inj_on_of_nodup_map h hmem ho hspan'
    rw [← heq]
    exact of_decide_eq_true hitem
  · intro hitem
    exact List.mem_map_of_mem (List.mem_filter.2 ⟨ho, decide_eq_true hitem⟩)

/-! ## A new name in the places of an item -/

section Naming

variable {spans : List Span} {item : Item} (newName : String)

/-- The name of an identifier after `newName` was put in the places `spans`. -/
def Identifier.reworded (spans : List Span) (newName : String) (i : Identifier) : String :=
  if i.span ∈ spans then newName else i.name

theorem Reference.map_shape_eq_rename {r : Reference}
    (h : ∀ o ∈ r.occurrences, (o.span ∈ spans ↔ o.item = item)) :
    r.shape.map (Identifier.reworded spans newName) =
      (r.shape.map Identifier.name).rename newName item := by
  simp only [Reference.occurrences, List.mem_cons, List.not_mem_nil, or_false, forall_eq_or_imp,
    forall_eq] at h
  obtain ⟨hentity, hattribute⟩ := h
  simp only [Reference.shape, ReferenceShape.map, Identifier.reworded, hentity, hattribute]
  cases item <;> simp [ReferenceShape.rename]

theorem Attribute.map_shape_eq_rename {owner : String} {a : Attribute}
    (h : ∀ o ∈ a.occurrences owner, (o.span ∈ spans ↔ o.item = item)) :
    a.shape.map (Identifier.reworded spans newName) =
      (a.shape.map Identifier.name).rename newName owner item := by
  rw [Attribute.occurrences, List.forall_mem_cons, List.forall_mem_cons] at h
  obtain ⟨hname, htype, hmore⟩ := h
  have hreference : (a.reference.map Reference.shape).map
      (ReferenceShape.map (Identifier.reworded spans newName)) =
        ((a.reference.map Reference.shape).map (ReferenceShape.map Identifier.name)).map
          (·.rename newName item) := by
    cases hr : a.reference with
    | none => rfl
    | some r =>
      rw [hr] at hmore
      exact congrArg some (r.map_shape_eq_rename newName hmore)
  rw [Attribute.shape, AttributeShape.map, hreference]
  simp only [Identifier.reworded, hname, htype]
  cases item <;> simp [AttributeShape.rename, AttributeShape.map]

theorem Entity.map_shape_eq_rename {e : Entity}
    (h : ∀ o ∈ e.occurrences, (o.span ∈ spans ↔ o.item = item)) :
    (Statement.entity e).shape.map (Identifier.reworded spans newName) =
      ((Statement.entity e).shape.map Identifier.name).rename newName item := by
  rw [Entity.occurrences, List.forall_mem_cons] at h
  obtain ⟨hname, hattributes⟩ := h
  have hentity : e.name.reworded spans newName = item.renameEntity newName e.name.name := by
    rw [Identifier.reworded]
    simp only [Entity.declaration] at hname
    simp only [hname]
    cases item <;> simp [Item.renameEntity]
  rw [Statement.shape, StatementShape.map, StatementShape.map, StatementShape.rename, hentity]
  simp only [List.map_map]
  refine congrArg _ (List.map_congr_left fun a ha => ?_)
  exact a.map_shape_eq_rename newName fun o ho => hattributes o (List.mem_flatMap.2 ⟨a, ha, ho⟩)

/-- **A new name in the places of an item is a schema with this item renamed.** -/
theorem map_shape_eq_rename {s : Schema}
    (h : ∀ o ∈ s.occurrences, (o.span ∈ spans ↔ o.item = item)) :
    s.shape.map (Identifier.reworded spans newName) = s.plain.rename newName item := by
  rw [Schema.plain, SchemaShape.map, SchemaShape.map, SchemaShape.rename, List.map_map,
    Schema.shape, List.map_map, List.map_map]
  refine List.map_congr_left fun st hst => ?_
  cases st with
  | empty span => rfl
  | entity e =>
    have he : e ∈ s.entities := List.mem_filterMap.2 ⟨.entity e, hst, rfl⟩
    exact e.map_shape_eq_rename newName fun o ho => h o (List.mem_flatMap.2 ⟨e, he, ho⟩)

end Naming

section Text

variable {text result : String} {item : Item} {newName : String}

theorem map_span_names_sublist (text : String) :
    ((parse text).schema.shape.names.map Identifier.span).Sublist
      ((lex text).tokens.map Token.span) := by
  have h := (uses_lex text).sublist.map Token.span
  rw [Parser.written, List.map_map] at h
  exact h

theorem nodup_span_names (text : String) :
    ((parse text).schema.shape.names.map Identifier.span).Nodup :=
  (nodup_span_tokens text).sublist (map_span_names_sublist text)

theorem eq_token_of_mem_placesOf {t : Token} (ht : t ∈ (lex text).tokens)
    (h : t.span ∈ (parse text).schema.placesOf item) :
    t ∈ Parser.written (parse text).schema.shape.names ∧ t = ⟨.identifier, item.name, t.span⟩ := by
  have hmem := exists_of_mem_placesOf h
  have hwritten := List.mem_map_of_mem (f := Identifier.token) hmem
  have hlexed := (uses_lex text).sublist.subset hwritten
  have heq : t = Identifier.token ⟨item.name, t.span⟩ :=
    List.inj_on_of_nodup_map (nodup_span_tokens text) ht hlexed rfl
  refine ⟨?_, heq⟩
  rw [heq]
  exact hwritten

theorem named_of_mem_placesOf {t : Token} (ht : t ∈ (lex text).tokens)
    (h : t.span ∈ (parse text).schema.placesOf item) :
    t.kind = .identifier ∧ t.text = item.name := by
  rw [(eq_token_of_mem_placesOf ht h).2]
  exact ⟨rfl, rfl⟩

theorem placesOf_sublist_tokens (text : String) (item : Item) :
    ((parse text).schema.placesOf item).Sublist ((lex text).tokens.map Token.span) :=
  (placesOf_sublist _ _).trans (map_span_names_sublist text)

/-- **The edits of a renaming leave a text with the same tokens, but for the name.** -/
theorem exists_renamed (text : String) (item : Item) (h : isIdentifier newName) :
    ∃ result : String,
      Edit.Replaces item.name.toList 0 text.toList
          ((parse text).schema.renameEdits item newName) result.toList ∧
        List.Forall₂ (Token.Reworded ((parse text).schema.placesOf item) newName)
          (lex text).tokens (lex result).tokens ∧
        List.Forall₂ (fun d d' => d.unplaced = d'.unplaced) (lex text).errors
          (lex result).errors := by
  rw [renameEdits_eq]
  exact exists_reworded h (placesOf_sublist_tokens text item) fun _ => named_of_mem_placesOf

/-! ## What is read of the new text -/

theorem found_of_reworded {spans : List Span} {m m' : Mismatch}
    (h : Parser.MismatchRel (Token.Reworded spans newName) m m')
    (hm : ∀ t ∈ Parser.faults [m], t.span ∉ spans) : m.found = m'.found := by
  obtain ⟨e, rest⟩ := m
  obtain ⟨e', rest'⟩ := m'
  obtain ⟨-, hrest⟩ := h
  cases hrest with
  | nil => rfl
  | @cons t t' _ _ ht _ =>
    have htext := ht.text
    rw [if_neg (hm t List.mem_cons_self)] at htext
    show t.describe = t'.describe
    rw [Token.describe, Token.describe, ht.kind, htext]

theorem unplaced_of_reworded {spans : List Span} {ms ms' : List Mismatch}
    (h : List.Forall₂ (Parser.MismatchRel (Token.Reworded spans newName)) ms ms')
    (hms : ∀ t ∈ Parser.faults ms, t.span ∉ spans) (s s' : Span) :
    List.Forall₂ (fun d d' => d.unplaced = d'.unplaced) (ms.map (Mismatch.diagnostic s))
      (ms'.map (Mismatch.diagnostic s')) := by
  rw [List.forall₂_map_left_iff, List.forall₂_map_right_iff]
  induction h with
  | nil => exact .nil
  | @cons m m' ms ms' hm _ ih =>
    have hfaults : Parser.faults (m :: ms) = Parser.faults [m] ++ Parser.faults ms :=
      List.filterMap_append (l := [m])
    rw [hfaults, List.forall_mem_append] at hms
    refine .cons ?_ (ih hms.2)
    rw [Mismatch.diagnostic, Mismatch.diagnostic, hm.expected, found_of_reworded hm hms.1]
    rfl

theorem errors_of_reworded
    (htokens : List.Forall₂ (Token.Reworded ((parse text).schema.placesOf item) newName)
      (lex text).tokens (lex result).tokens)
    (hlex : List.Forall₂ (fun d d' => d.unplaced = d'.unplaced) (lex text).errors
      (lex result).errors) :
    (parse text).errors.map Diagnostic.unplaced =
      (parse result).errors.map Diagnostic.unplaced := by
  -- messages quote the token in front of a mismatch, which is never one that gets the new name
  have hfaults : ∀ t ∈ Parser.faults (Parser.statements (lex text).tokens).2,
      t.span ∉ (parse text).schema.placesOf item := by
    intro t ht hspan
    have hmem := (uses_lex text).heads_subset ht
    have hnodup : (lex text).tokens.Nodup := List.Nodup.of_map _ (nodup_span_tokens text)
    exact (uses_lex text).disjoint hnodup (eq_token_of_mem_placesOf hmem hspan).1 ht
  have hmismatches := (Parser.related_statements (fun _ _ h => h.kind) htokens).2
  exact map_eq_map_of_forall₂ (List.rel_append hlex (unplaced_of_reworded hmismatches hfaults _ _))

theorem plain_of_reworded
    (htokens : List.Forall₂ (Token.Reworded ((parse text).schema.placesOf item) newName)
      (lex text).tokens (lex result).tokens) :
    (parse result).schema.plain = (parse text).schema.plain.rename newName item := by
  have hshape := (Parser.related_statements (fun _ _ h => h.kind) htokens).1
  have hnames := hshape.map_eq (f := Identifier.reworded _ newName) (g := Identifier.name)
    fun i i' hi => hi.text.symm
  rw [← map_shape_eq_rename newName (mem_placesOf_iff (nodup_span_names text) item)]
  exact hnames.symm

end Text

/-- **Renaming in a text and reading it is reading the text and renaming in its schema.** -/
theorem renameEdits_commute (text : String) (item : Item) (newName : String)
    (h : isIdentifier newName) :
    ∃ result : String,
      Edit.applyAll? text ((parse text).schema.renameEdits item newName) = some result ∧
        Edit.Replaces item.name.toList 0 text.toList
          ((parse text).schema.renameEdits item newName) result.toList ∧
        (parse result).errors.map Diagnostic.unplaced =
          (parse text).errors.map Diagnostic.unplaced ∧
        (parse result).schema.plain = (parse text).schema.plain.rename newName item := by
  obtain ⟨result, hreplaces, htokens, hlex⟩ := exists_renamed text item h
  have happly := Edit.applyAll?_of_rewrites hreplaces
  rw [String.ofList_toList] at happly
  exact ⟨result, happly, hreplaces, (errors_of_reworded htokens hlex).symm,
    plain_of_reworded htokens⟩

/-- The name of the entity stands also in front of a mismatch, where it stays. -/
theorem renameEdits_commute_users :
    isIdentifier "people" ∧
      ∃ result : String,
        Edit.applyAll? "users\n  boss int -> users(id)\nusers%users\n"
            ((parse "users\n  boss int -> users(id)\nusers%users\n").schema.renameEdits
              (.entity "users") "people") = some result ∧
          Edit.Replaces (Item.name (.entity "users")).toList 0
            "users\n  boss int -> users(id)\nusers%users\n".toList
            ((parse "users\n  boss int -> users(id)\nusers%users\n").schema.renameEdits
              (.entity "users") "people") result.toList ∧
          (parse result).errors.map Diagnostic.unplaced =
            (parse "users\n  boss int -> users(id)\nusers%users\n").errors.map
              Diagnostic.unplaced ∧
          (parse result).schema.plain =
            (parse "users\n  boss int -> users(id)\nusers%users\n").schema.plain.rename
              "people" (.entity "users") :=
  ⟨by decide, renameEdits_commute _ _ _ (by decide)⟩

end EntitySchema
