import EntitySchema.Proofs.Pieces

/-!
# Laws of renaming

A new name is unused if nothing in the scope of the item has it. Then different items stay
different, and renamings can be taken back and taken in any order.

* `Schema.Unused` — names that are unused in the scope of an item.
* `names_iff`: what a schema names; `unused_iff`: it names no item of an unused name.
* `rekey_inj`: renaming to an unused name keeps items apart.
* `Piece.text_undone`, `Piece.text_comm`: the laws for one piece of a document.
* **`renameEdits_undone`**: renaming back gives the old document.
* **`renameEdits_comm`**: renamings of different items can be done in either order.
-/

namespace EntitySchema

/-- Whether nothing in the scope of an item is called `newName`. All types are in one scope. -/
def Schema.Unused (s : Schema) (newName : String) : Item → Prop
  | .entity e => s.Fresh newName (.entity e)
  | .attributeOf e a => s.Fresh newName (.attributeOf e a)
  | .type _ => ∀ e ∈ s.entities, ∀ a ∈ e.attributes, a.type.name ≠ newName

instance (s : Schema) (newName : String) : (item : Item) → Decidable (s.Unused newName item)
  | .entity e => inferInstanceAs (Decidable (s.Fresh newName (.entity e)))
  | .attributeOf e a => inferInstanceAs (Decidable (s.Fresh newName (.attributeOf e a)))
  | .type _ => inferInstanceAs (Decidable (∀ e ∈ s.entities, ∀ a ∈ e.attributes, _))

/-! ## What a schema names -/

section Names

variable {s : Schema} {item : Item} {newName : String}

theorem exists_occurrence_attribute {owner : String} {a : Attribute} :
    (∃ o ∈ a.occurrences owner, o.item = item) ↔
      .attributeOf owner a.name.name = item ∨ .type a.type.name = item ∨
        ∃ r, a.reference = some r ∧ (.entity r.targetEntity.name = item ∨
          .attributeOf r.targetEntity.name r.targetAttribute.name = item) := by
  obtain ⟨name, type, key, _ | r⟩ := a <;> simp [Attribute.occurrences, Reference.occurrences]

theorem exists_mem_flatMap {α β : Type} {xs : List α} {f : α → List β} {p : β → Prop} :
    (∃ b ∈ xs.flatMap f, p b) ↔ ∃ a ∈ xs, ∃ b ∈ f a, p b := by
  simp only [List.mem_flatMap]
  constructor
  · rintro ⟨b, ⟨a, ha, hb⟩, h⟩
    exact ⟨a, ha, b, hb, h⟩
  · rintro ⟨a, ha, b, hb, h⟩
    exact ⟨b, ⟨a, ha, hb⟩, h⟩

theorem exists_occurrence_entity {e : Entity} :
    (∃ o ∈ e.occurrences, o.item = item) ↔
      .entity e.name.name = item ∨ ∃ a ∈ e.attributes, ∃ o ∈ a.occurrences e.name.name,
        o.item = item := by
  rw [Entity.occurrences, List.exists_mem_cons_iff, exists_mem_flatMap]
  rfl

/-- **What a schema names**: its entities, attributes and types, and the targets of references. -/
theorem names_iff :
    s.Names item ↔
      (∃ e ∈ s.entities, .entity e.name.name = item) ∨
        (∃ e ∈ s.entities, ∃ a ∈ e.attributes,
          .attributeOf e.name.name a.name.name = item ∨ .type a.type.name = item) ∨
        ∃ r ∈ s.references, .entity r.targetEntity.name = item ∨
          .attributeOf r.targetEntity.name r.targetAttribute.name = item := by
  rw [Schema.Names, Schema.occurrences, exists_mem_flatMap]
  simp only [exists_occurrence_entity, exists_occurrence_attribute, Schema.references,
    Entity.references, List.mem_flatMap, List.mem_filterMap]
  constructor
  · rintro ⟨e, he, h | ⟨a, ha, h | h | ⟨r, hr, h⟩⟩⟩
    · exact .inl ⟨e, he, h⟩
    · exact .inr (.inl ⟨e, he, a, ha, .inl h⟩)
    · exact .inr (.inl ⟨e, he, a, ha, .inr h⟩)
    · exact .inr (.inr ⟨r, ⟨e, he, a, ha, hr⟩, h⟩)
  · rintro (⟨e, he, h⟩ | ⟨e, he, a, ha, h | h⟩ | ⟨r, ⟨e, he, a, ha, hr⟩, h⟩)
    · exact ⟨e, he, .inl h⟩
    · exact ⟨e, he, .inr ⟨a, ha, .inl h⟩⟩
    · exact ⟨e, he, .inr ⟨a, ha, .inr (.inl h)⟩⟩
    · exact ⟨e, he, .inr ⟨a, ha, .inr (.inr ⟨r, hr, h⟩)⟩⟩

theorem names_entity_iff {name : String} :
    s.Names (.entity name) ↔ (∃ e ∈ s.entities, e.name.name = name) ∨
      ∃ r ∈ s.references, r.targetEntity.name = name := by
  simp [names_iff]

theorem names_attributeOf_iff {owner name : String} :
    s.Names (.attributeOf owner name) ↔
      (∃ e ∈ s.entities, e.name.name = owner ∧ ∃ a ∈ e.attributes, a.name.name = name) ∨
        ∃ r ∈ s.references, r.targetEntity.name = owner ∧ r.targetAttribute.name = name := by
  simp [names_iff, and_left_comm]

theorem names_type_iff {name : String} :
    s.Names (.type name) ↔ ∃ e ∈ s.entities, ∃ a ∈ e.attributes, a.type.name = name := by
  simp [names_iff]

theorem Schema.Names.entity {owner name : String} (h : s.Names (.attributeOf owner name)) :
    s.Names (.entity owner) := by
  rw [names_entity_iff]
  rcases names_attributeOf_iff.1 h with ⟨e, he, howner, -⟩ | ⟨r, hr, howner, -⟩
  · exact .inl ⟨e, he, howner⟩
  · exact .inr ⟨r, hr, howner⟩

/-- **A name is unused if the schema does not name the item that would have it.** -/
theorem unused_iff : s.Unused newName item ↔ ¬ s.Names (item.withName newName) := by
  cases item with
  | entity e => simp [Schema.Unused, Schema.Fresh, Item.withName, names_entity_iff]
  | attributeOf e a => simp [Schema.Unused, Schema.Fresh, Item.withName, names_attributeOf_iff]
  | type t => simp [Schema.Unused, Item.withName, names_type_iff]

end Names

/-! ## Items stay apart -/

section Apart

variable {s : Schema} {item : Item} {newName : String} (hunused : s.Unused newName item)

include hunused

theorem eq_of_replace_eq {scope : String → Item} (hname : ∀ n, (scope n).name = n)
    (hscope : ∀ n m, (scope n).withName m = scope m) {a b : String} (ha : s.Names (scope a))
    (hb : s.Names (scope b))
    (h : (if scope a = item then newName else a) = if scope b = item then newName else b) :
    a = b := by
  have hnot := unused_iff.1 hunused
  by_cases hai : scope a = item <;> by_cases hbi : scope b = item
  · rw [← hname a, ← hname b, hai, hbi]
  · rw [if_pos hai, if_neg hbi] at h
    rw [← h, ← hscope a, hai] at hb
    exact absurd hb hnot
  · rw [if_neg hai, if_pos hbi] at h
    rw [h, ← hscope b, hbi] at ha
    exact absurd ha hnot
  · rwa [if_neg hai, if_neg hbi] at h

theorem renameEntity_inj {a b : String} (ha : s.Names (.entity a)) (hb : s.Names (.entity b))
    (h : item.renameEntity newName a = item.renameEntity newName b) : a = b := by
  have heq : ∀ e, item.renameEntity newName e = if .entity e = item then newName else e := by
    intro e
    cases item <;> simp [Item.renameEntity]
  rw [heq, heq] at h
  exact eq_of_replace_eq hunused (fun _ => rfl) (fun _ _ => rfl) ha hb h

/-- **Renaming to an unused name keeps items apart.** -/
theorem rekey_inj {x y : Item} (hx : s.Names x) (hy : s.Names y)
    (h : item.rekey newName x = item.rekey newName y) : x = y := by
  cases x with
  | entity a =>
    cases y with
    | entity b => rw [renameEntity_inj hunused hx hy (Item.entity.inj h)]
    | _ => cases h
  | attributeOf e a =>
    cases y with
    | attributeOf e' b =>
      obtain ⟨howner, hname⟩ := Item.attributeOf.inj h
      obtain rfl := renameEntity_inj hunused hx.entity hy.entity howner
      rw [eq_of_replace_eq hunused (fun _ => rfl) (fun _ _ => rfl) hx hy hname]
    | _ => cases h
  | type a =>
    cases y with
    | type b =>
      rw [eq_of_replace_eq hunused (fun _ => rfl) (fun _ _ => rfl) hx hy (Item.type.inj h)]
    | _ => cases h

end Apart

/-! ## Pieces -/

section Pieces

variable {text newName : String} {item : Item} {p : Piece}

theorem Piece.text_undone (hunused : (parse text).schema.Unused newName item)
    (hnames : (parse text).schema.Names item) (hp : p ∈ pieces text) :
    ((p.rename newName item).rename item.name (item.withName newName)).text = p.text := by
  obtain ⟨ptext, _ | x⟩ := p
  · rfl
  · obtain ⟨htext, hx⟩ := text_of_mem_pieces hp rfl
    simp only [Piece.rename, Option.map_some, Option.some.injEq, ← Item.rekey_self]
    by_cases heq : x = item
    · rw [heq] at htext ⊢
      rw [if_pos rfl]
      exact htext.symm
    · rw [if_neg heq, if_neg fun h => heq (rekey_inj hunused hx hnames h)]

theorem Piece.text_comm {i j : Item} {n m : String} (hij : i ≠ j)
    (hi : (parse text).schema.Names i) (hj : (parse text).schema.Names j)
    (hn : (parse text).schema.Unused n i) (hm : (parse text).schema.Unused m j)
    (hp : p ∈ pieces text) :
    ((p.rename n i).rename m (i.rekey n j)).text =
      ((p.rename m j).rename n (j.rekey m i)).text := by
  obtain ⟨ptext, _ | x⟩ := p
  · rfl
  · have hx := (text_of_mem_pieces hp rfl).2
    have hij' : i.rekey n x = i.rekey n j ↔ x = j :=
      ⟨rekey_inj hn hx hj, fun h => h ▸ rfl⟩
    have hji' : j.rekey m x = j.rekey m i ↔ x = i :=
      ⟨rekey_inj hm hx hi, fun h => h ▸ rfl⟩
    simp only [Piece.rename, Option.map_some, Option.some.injEq, hij', hji']
    by_cases hxi : x = i
    · have hxj : x ≠ j := fun h => hij (hxi.symm.trans h)
      rw [if_pos hxi, if_neg hxj, if_pos hxi]
    · rw [if_neg hxi, if_neg hxi]

theorem renameEdits_eq_nil {s : Schema} (h : ¬ s.Names item) : s.renameEdits item newName = [] := by
  have hfilter : s.occurrences.filter (·.item = item) = [] := by
    refine List.filter_eq_nil_iff.2 fun o ho hitem => h ⟨o, ho, of_decide_eq_true hitem⟩
  rw [Schema.renameEdits, hfilter]
  rfl

theorem applyAll?_nil (text : String) : Edit.applyAll? text [] = some text := by
  have hreplaces : Edit.Replaces [] 0 text.toList [] text.toList := .nil
  have happly := Edit.applyAll?_of_rewrites hreplaces
  rwa [String.ofList_toList] at happly

theorem isIdentifier_of_names (h : (parse text).schema.Names item) : isIdentifier item.name := by
  obtain ⟨o, ho, rfl⟩ := h
  have hmem : o.identifier ∈ (parse text).schema.shape.names := by
    rw [← map_identifier_occurrences]
    exact List.mem_map_of_mem ho
  have htoken := (uses_lex text).sublist.subset (List.mem_map_of_mem (f := Identifier.token) hmem)
  exact Token.isIdentifier_of_spelled (spelled_of_mem_lex htoken) rfl

end Pieces

/-- **Renaming to an unused name is undone by renaming back.** -/
theorem renameEdits_undone (text : String) (item : Item) (newName : String)
    (h : isIdentifier newName) (hunused : (parse text).schema.Unused newName item) :
    ∃ result : String,
      Edit.applyAll? text ((parse text).schema.renameEdits item newName) = some result ∧
        (parse result).schema.plain = (parse text).schema.plain.rename newName item ∧
        Edit.applyAll? result
          ((parse result).schema.renameEdits (item.withName newName) item.name) = some text := by
  obtain ⟨result, happly, hplain, hpieces⟩ := exists_pieces_renamed text item h
  refine ⟨result, happly, hplain, ?_⟩
  by_cases hnames : (parse text).schema.Names item
  · obtain ⟨back, hback, -, hpieces'⟩ := exists_pieces_renamed result (item.withName newName)
      (isIdentifier_of_names hnames)
    have heq : back = text := by
      apply eq_of_map_text_pieces
      rw [hpieces', hpieces, List.map_map, List.map_map]
      exact List.map_congr_left fun p hp => Piece.text_undone hunused hnames hp
    rw [hback, heq]
  · -- nothing was renamed, and nothing has the new name
    rw [renameEdits_eq_nil hnames, applyAll?_nil] at happly
    obtain rfl := Option.some.inj happly
    rw [renameEdits_eq_nil (unused_iff.1 hunused), applyAll?_nil]

/-- An attribute gets a longer name, and its old name back, in front of a stray character. -/
theorem renameEdits_undone_id :
    let text := "users
  id id
  boss int -> users(id) é
posts
  id int -> users(id)
id
"
    isIdentifier "user_id" ∧
      (parse text).schema.Unused "user_id" (.attributeOf "users" "id") ∧
      ∃ result : String,
        Edit.applyAll? text
            ((parse text).schema.renameEdits (.attributeOf "users" "id") "user_id") = some result ∧
          (parse result).schema.plain =
            (parse text).schema.plain.rename "user_id" (.attributeOf "users" "id") ∧
          Edit.applyAll? result ((parse result).schema.renameEdits
            (.attributeOf "users" "user_id") "id") = some text := by
  intro text
  have hunused : (parse text).schema.Unused "user_id" (.attributeOf "users" "id") := by
    decide +kernel
  exact ⟨by decide, hunused, renameEdits_undone text (.attributeOf "users" "id") "user_id"
    (by decide) hunused⟩

/-- **Renamings of different items to unused names can be done in either order**, if the item that
comes second is taken under the name that the first renaming leaves it. -/
theorem renameEdits_comm (text : String) (i j : Item) (n m : String) (hij : i ≠ j)
    (hi : (parse text).schema.Names i) (hj : (parse text).schema.Names j)
    (hn : isIdentifier n) (hm : isIdentifier m) (hni : (parse text).schema.Unused n i)
    (hmj : (parse text).schema.Unused m j) :
    ∃ a b result : String,
      Edit.applyAll? text ((parse text).schema.renameEdits i n) = some a ∧
        Edit.applyAll? a ((parse a).schema.renameEdits (i.rekey n j) m) = some result ∧
        Edit.applyAll? text ((parse text).schema.renameEdits j m) = some b ∧
        Edit.applyAll? b ((parse b).schema.renameEdits (j.rekey m i) n) = some result ∧
        (parse result).schema.plain =
          ((parse text).schema.plain.rename n i).rename m (i.rekey n j) ∧
        (parse result).schema.plain =
          ((parse text).schema.plain.rename m j).rename n (j.rekey m i) := by
  obtain ⟨a, ha, hplain, hpieces⟩ := exists_pieces_renamed text i hn
  obtain ⟨result, hresult, hplain', hpieces'⟩ := exists_pieces_renamed a (i.rekey n j) hm
  obtain ⟨b, hb, hbplain, hbpieces⟩ := exists_pieces_renamed text j hm
  obtain ⟨result', hresult', hbplain', hbpieces'⟩ := exists_pieces_renamed b (j.rekey m i) hn
  have heq : result' = result := by
    apply eq_of_map_text_pieces
    rw [hpieces', hpieces, hbpieces', hbpieces]
    simp only [List.map_map]
    exact List.map_congr_left fun p hp => (Piece.text_comm hij hi hj hni hmj hp).symm
  subst heq
  exact ⟨a, b, result', ha, hresult, hb, hresult', hplain ▸ hplain', hbplain ▸ hbplain'⟩

/-- An entity and its attribute get new names, with the reference to both. -/
theorem renameEdits_comm_users :
    let text := "users
  id int
  boss int -> users(id)
users
  id id
  %
"
    let s := (parse text).schema
    s.Names (.entity "users") ∧ s.Names (.attributeOf "users" "id") ∧
      isIdentifier "people" ∧ isIdentifier "key" ∧
      s.Unused "people" (.entity "users") ∧ s.Unused "key" (.attributeOf "users" "id") ∧
      ∃ a b result : String,
        Edit.applyAll? text (s.renameEdits (.entity "users") "people") = some a ∧
          Edit.applyAll? a
            ((parse a).schema.renameEdits (.attributeOf "people" "id") "key") = some result ∧
          Edit.applyAll? text (s.renameEdits (.attributeOf "users" "id") "key") = some b ∧
          Edit.applyAll? b ((parse b).schema.renameEdits (.entity "users") "people") =
            some result ∧
          (parse result).schema.plain =
            (s.plain.rename "people" (.entity "users")).rename "key" (.attributeOf "people" "id") ∧
          (parse result).schema.plain =
            (s.plain.rename "key" (.attributeOf "users" "id")).rename "people"
              (.entity "users") := by
  intro text s
  have hi : s.Names (.entity "users") := by decide +kernel
  have hj : s.Names (.attributeOf "users" "id") := by decide +kernel
  have hni : s.Unused "people" (.entity "users") := by decide +kernel
  have hmj : s.Unused "key" (.attributeOf "users" "id") := by decide +kernel
  exact ⟨hi, hj, by decide, by decide, hni, hmj,
    renameEdits_comm text (.entity "users") (.attributeOf "users" "id") "people" "key" (by decide)
      hi hj (by decide) (by decide) hni hmj⟩

end EntitySchema
