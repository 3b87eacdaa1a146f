import EntitySchema.Proofs.FreshNames

/-!
# Documents in pieces

A document falls into pieces, some of which name an item. Renaming an item acts on every piece for
itself: the places of all names move, but which piece names which item can be told from the pieces
of the old document alone.

* `Item.rekey` — what an item is called after one was renamed.
* `SchemaShape.items` — the items that a schema names, in source order; `items_rename`: those of a
  renamed schema.
* `pieces` — a document in pieces, each with the item it names.
* `eq_of_map_text_pieces`: the document is what their texts make up; `text_of_mem_pieces`: a piece
  that names an item is its name.
* `SameIndex` — things with the same number in two lists; `itemAt?_of_forall₂`: what is named in the
  place of the same number after a renaming.
* **`exists_pieces_renamed`**: the pieces of a document after a renaming.
-/

namespace EntitySchema

/-- The item of the name `newName` in the scope of an item. -/
def Item.withName (newName : String) : Item → Item
  | entity _ => entity newName
  | attributeOf owner _ => attributeOf owner newName
  | type _ => type newName

/-- What an item is called after `item` was renamed. An attribute goes with its entity. -/
def Item.rekey (newName : String) (item : Item) : Item → Item
  | entity e => entity (item.renameEntity newName e)
  | attributeOf e a =>
    attributeOf (item.renameEntity newName e) (if attributeOf e a = item then newName else a)
  | type t => type (if type t = item then newName else t)

theorem Item.rekey_self (newName : String) (item : Item) :
    item.rekey newName item = item.withName newName := by
  cases item <;> simp [rekey, withName, renameEntity]

/-! ## The items that a schema names -/

/-- The items that a reference names. -/
def ReferenceShape.items (r : ReferenceShape String) : List Item :=
  [.entity r.targetEntity, .attributeOf r.targetEntity r.targetAttribute]

/-- The items that an attribute of the entity `owner` names. -/
def AttributeShape.items (owner : String) (a : AttributeShape String) : List Item :=
  .attributeOf owner a.name :: .type a.type :: (a.reference.map ReferenceShape.items).getD []

/-- The items that a statement names. -/
def StatementShape.items : StatementShape String → List Item
  | empty => []
  | entity n as => .entity n :: as.flatMap (·.items n)

/-- The items that a schema names, in source order. -/
def SchemaShape.items (s : SchemaShape String) : List Item := s.flatMap StatementShape.items

theorem Attribute.map_item_occurrences (owner : String) (a : Attribute) :
    (a.occurrences owner).map Occurrence.item = (a.shape.map Identifier.name).items owner := by
  obtain ⟨name, type, key, _ | r⟩ := a <;> rfl

theorem Entity.map_item_occurrences (e : Entity) :
    e.occurrences.map Occurrence.item =
      ((Statement.entity e).shape.map Identifier.name).items := by
  simp only [Entity.occurrences, List.map_cons, List.map_flatMap, Attribute.map_item_occurrences,
    Statement.shape, StatementShape.map, StatementShape.items, List.flatMap_map]
  rfl

theorem map_item_occurrences (s : Schema) :
    s.occurrences.map Occurrence.item = s.plain.items := by
  obtain ⟨ss⟩ := s
  induction ss with
  | nil => rfl
  | cons s ss ih =>
    cases s with
    | empty span => exact ih
    | entity e =>
      rw [occurrences_entity, List.map_append, ih, e.map_item_occurrences]
      rfl

section Rename

variable (newName : String) (item : Item)

theorem ReferenceShape.items_rename (r : ReferenceShape String) :
    (r.rename newName item).items = r.items.map (item.rekey newName) := by
  cases item <;> simp [rename, items, Item.rekey, Item.renameEntity]

theorem AttributeShape.items_rename (owner : String) (a : AttributeShape String) :
    (a.rename newName owner item).items (item.renameEntity newName owner) =
      (a.items owner).map (item.rekey newName) := by
  have hreference : ((a.reference.map (·.rename newName item)).map ReferenceShape.items).getD [] =
      ((a.reference.map ReferenceShape.items).getD []).map (item.rekey newName) := by
    cases a.reference with
    | none => rfl
    | some r => exact r.items_rename newName item
  have hitems : (a.items owner).map (item.rekey newName) =
      item.rekey newName (.attributeOf owner a.name) :: item.rekey newName (.type a.type) ::
        ((a.reference.map (·.rename newName item)).map ReferenceShape.items).getD [] := by
    rw [hreference]
    rfl
  rw [hitems]
  cases item <;> simp [rename, items, Item.rekey, eq_comm]

theorem StatementShape.items_rename (s : StatementShape String) :
    (s.rename newName item).items = s.items.map (item.rekey newName) := by
  cases s with
  | empty => rfl
  | entity n as =>
    rw [rename, items, items, List.map_cons, List.map_flatMap, List.flatMap_map]
    simp only [AttributeShape.items_rename]
    rfl

/-- **The items of a renamed schema are those of the schema under their new names.** -/
theorem items_rename (s : SchemaShape String) :
    (s.rename newName item).items = s.items.map (item.rekey newName) := by
  rw [SchemaShape.rename, SchemaShape.items, SchemaShape.items, List.flatMap_map, List.map_flatMap]
  simp only [StatementShape.items_rename]

end Rename

/-! ## Pieces -/

/-- The item that is named at a place. -/
def Schema.itemAt? (s : Schema) (span : Span) : Option Item :=
  (s.occurrences.find? (·.span = span)).map Occurrence.item

/-- Whether a schema names an item, as a declaration, a type or the target of a reference. -/
def Schema.Names (s : Schema) (item : Item) : Prop := ∃ o ∈ s.occurrences, o.item = item

instance (s : Schema) (item : Item) : Decidable (s.Names item) :=
  inferInstanceAs (Decidable (∃ o ∈ s.occurrences, o.item = item))

/-- A piece of a document, and the item that it names. -/
structure Piece where
  text : String
  item? : Option Item
  deriving DecidableEq, Repr

/-- A document in pieces. -/
def pieces (text : String) : List Piece :=
  (place .origin (tiles text.toList)).map fun p =>
    ⟨p.tile.text, (parse text).schema.itemAt? p.span⟩

/-- A piece after an item was renamed. -/
def Piece.rename (newName : String) (item : Item) (p : Piece) : Piece :=
  ⟨if p.item? = some item then newName else p.text, p.item?.map (item.rekey newName)⟩

theorem flatMap_text_pieces (text : String) :
    ((pieces text).map Piece.text).flatMap String.toList = text.toList := by
  have htiles := flatMap_chars_tiles text.toList
  rw [← map_tile_place .origin (tiles text.toList), List.flatMap_map] at htiles
  refine Eq.trans ?_ htiles
  simp [pieces, List.flatMap_map, Tile.text]

/-- **A document is what the texts of its pieces make up.** -/
theorem eq_of_map_text_pieces {a b : String}
    (h : (pieces a).map Piece.text = (pieces b).map Piece.text) : a = b := by
  rw [← String.toList_inj, ← flatMap_text_pieces a, h, flatMap_text_pieces]

theorem itemAt?_eq_some_iff {s : Schema} (h : (s.shape.names.map Identifier.span).Nodup)
    {span : Span} {item : Item} : s.itemAt? span = some item ↔ span ∈ s.placesOf item := by
  rw [Schema.itemAt?, Option.map_eq_some_iff]
  constructor
  · rintro ⟨o, ho, rfl⟩
    have hspan : o.span = span := by simpa using List.find?_some ho
    rw [← hspan]
    exact (mem_placesOf_iff h o.item o (List.mem_of_find?_eq_some ho)).2 rfl
  · intro hmem
    obtain ⟨o, ho, rfl⟩ := List.mem_map.1 hmem
    obtain ⟨o', ho'⟩ : ∃ o', s.occurrences.find? (·.span = o.span) = some o' := by
      refine Option.isSome_iff_exists.1 (List.find?_isSome.2 ⟨o, (List.mem_filter.1 ho).1, ?_⟩)
      exact decide_eq_true rfl
    refine ⟨o', ho', ?_⟩
    have hspan : o'.span = o.span := by simpa using List.find?_some ho'
    exact (mem_placesOf_iff h item o' (List.mem_of_find?_eq_some ho')).1 (hspan ▸ hmem)

theorem text_of_mem_pieces {text : String} {p : Piece} {x : Item} (h : p ∈ pieces text)
    (hx : p.item? = some x) : p.text = x.name ∧ (parse text).schema.Names x := by
  obtain ⟨q, hq, rfl⟩ := List.mem_map.1 h
  have hspan : q.span ∈ (parse text).schema.placesOf x :=
    (itemAt?_eq_some_iff (nodup_span_names text)).1 hx
  constructor
  · have hstands := stands_of_tokens (placesOf_sublist_tokens text x)
      fun _ => named_of_mem_placesOf
    exact (hstands q hq hspan).text
  · obtain ⟨o, ho, -⟩ := List.mem_map.1 hspan
    obtain ⟨hmem, hitem⟩ := List.mem_filter.1 ho
    exact ⟨o, hmem, of_decide_eq_true hitem⟩

section SameIndex

variable {α β : Type}

/-- Things with the same number in two lists. -/
def SameIndex (as : List α) (bs : List β) (a : α) (b : β) : Prop :=
  ∃ k : Nat, as[k]? = some a ∧ bs[k]? = some b

theorem eq_iff_of_getElem? {as : List α} {k l : Nat} {a c : α} (has : as.Nodup)
    (ha : as[k]? = some a) (hc : as[l]? = some c) : a = c ↔ k = l := by
  have hk : k < as.length := (List.getElem?_eq_some_iff.1 ha).1
  rw [← List.getElem?_inj hk has, ha, hc, Option.some.injEq]

/-- In lists without repetition, what is equal on one side is equal on the other. -/
theorem SameIndex.eq_iff {as : List α} {bs : List β} {a c : α} {b d : β} (has : as.Nodup)
    (hbs : bs.Nodup) (h : SameIndex as bs a b) (h' : SameIndex as bs c d) : a = c ↔ b = d := by
  obtain ⟨k, ha, hb⟩ := h
  obtain ⟨l, hc, hd⟩ := h'
  rw [eq_iff_of_getElem? has ha hc, eq_iff_of_getElem? hbs hb hd]

end SameIndex

section Rel

variable {ν μ : Type} {R : ν → μ → Prop}

theorem AttributeShape.Rel.names {a : AttributeShape ν} {a' : AttributeShape μ} (h : Rel R a a') :
    List.Forall₂ R a.names a'.names := by
  obtain ⟨name, type, key, reference⟩ := a
  obtain ⟨name', type', key', reference'⟩ := a'
  refine .cons h.name (.cons h.type ?_)
  cases h.reference with
  | none => exact .nil
  | some hr => exact .cons hr.1 (.cons hr.2 .nil)

theorem StatementShape.Rel.names {s : StatementShape ν} {s' : StatementShape μ} (h : Rel R s s') :
    List.Forall₂ R s.names s'.names := by
  cases h with
  | empty => exact .nil
  | entity hn has => exact .cons hn (List.rel_flatMap has fun _ _ ha => ha.names)

theorem SchemaShape.Rel.names {s : SchemaShape ν} {s' : SchemaShape μ} (h : Rel R s s') :
    List.Forall₂ R s.names s'.names :=
  List.rel_flatMap h fun _ _ hs => hs.names

end Rel

section Renamed

variable {s s' : Schema} {f : Item → Item} {C : Span → Span → Prop}

theorem itemAt?_of_forall₂ (hC : ∀ a b c d, C a b → C c d → (a = c ↔ b = d))
    (h : List.Forall₂ (fun o o' => f o.item = o'.item ∧ C o.span o'.span) s.occurrences
      s'.occurrences) {a b : Span} (hab : C a b) : s'.itemAt? b = (s.itemAt? a).map f := by
  rw [Schema.itemAt?, Schema.itemAt?]
  generalize s.occurrences = os, s'.occurrences = os' at h ⊢
  induction h with
  | nil => rfl
  | @cons o o' os os' ho _ ih =>
    have hspan := hC _ _ _ _ ho.2 hab
    by_cases heq : o.span = a
    · have heq' : o'.span = b := hspan.1 heq
      simp only [List.find?_cons, heq, heq', decide_true, Option.map_some, ho.1]
    · have heq' : o'.span ≠ b := fun h => heq (hspan.2 h)
      simp only [List.find?_cons, heq, heq', decide_false, ih]

end Renamed

/-! ## Pieces after a renaming -/

/-- The places of the pieces of a document. -/
def piecePlaces (text : String) : List Span :=
  (place .origin (tiles text.toList)).map PlacedTile.span

theorem nodup_piecePlaces (text : String) : (piecePlaces text).Nodup := nodup_span_place _ _

section Reworded

variable {spans : List Span} {w : Tile} {old newName : String} {s : Span}

theorem reworded_token?_span {C : Span → Span → Prop} {p p' : PlacedTile}
    (hw : w.Spells ⟨.identifier, newName, s⟩) (h : p.Reworded spans w old p')
    (hC : C p.span p'.span) :
    Option.Rel (fun t t' => Token.Reworded spans newName t t' ∧ C t.span t'.span) p.token?
      p'.token? := by
  have hrel := reworded_token? hw h
  rw [PlacedTile.token?, PlacedTile.token?] at hrel ⊢
  generalize p.tile.kind? = k, p'.tile.kind? = k' at hrel ⊢
  cases k <;> cases k' <;> cases hrel
  · exact .none
  · exact .some ⟨‹_›, hC⟩

variable {text result : String}

theorem reworded_sameIndex
    (h : List.Forall₂ (PlacedTile.Reworded spans w old) (place .origin (tiles text.toList))
      (place .origin (tiles result.toList))) :
    List.Forall₂ (fun p p' => PlacedTile.Reworded spans w old p p' ∧
        SameIndex (piecePlaces text) (piecePlaces result) p.span p'.span)
      (place .origin (tiles text.toList)) (place .origin (tiles result.toList)) := by
  refine (forall₂_and_getElem? h).imp ?_
  rintro p p' ⟨hp, k, hk, hk'⟩
  refine ⟨hp, k, ?_, ?_⟩
  · rw [piecePlaces, List.getElem?_map, hk, Option.map_some]
  · rw [piecePlaces, List.getElem?_map, hk', Option.map_some]

/-- **The names of a renamed document**, with their items and places. -/
theorem occurrences_of_reworded {item : Item} (hw : w.Spells ⟨.identifier, newName, s⟩)
    (h : List.Forall₂ (PlacedTile.Reworded ((parse text).schema.placesOf item) w old)
      (place .origin (tiles text.toList)) (place .origin (tiles result.toList))) :
    (parse result).schema.plain = (parse text).schema.plain.rename newName item ∧
      List.Forall₂ (fun o o' => item.rekey newName o.item = o'.item ∧
          SameIndex (piecePlaces text) (piecePlaces result) o.span o'.span)
        (parse text).schema.occurrences (parse result).schema.occurrences := by
  have htokens : List.Forall₂
      (fun t t' => Token.Reworded ((parse text).schema.placesOf item) newName t t' ∧
        SameIndex (piecePlaces text) (piecePlaces result) t.span t'.span)
      (lex text).tokens (lex result).tokens := by
    refine List.rel_filterMap ?_ (reworded_sameIndex h)
    exact fun p p' hp => reworded_token?_span hw hp.1 hp.2
  have hplain := plain_of_reworded (htokens.imp fun _ _ ht => ht.1)
  refine ⟨hplain, ?_⟩
  -- items can be read off the schema without places, and places off the names one by one
  have hitems : List.Forall₂ (fun o o' => item.rekey newName o.item = o'.item)
      (parse text).schema.occurrences (parse result).schema.occurrences := by
    have heq := map_item_occurrences (parse result).schema
    rw [hplain, items_rename, ← map_item_occurrences, List.map_map, eq_comm,
      ← List.forall₂_eq_eq_eq, List.forall₂_map_left_iff, List.forall₂_map_right_iff] at heq
    exact heq
  have hnames := (Parser.related_statements (fun _ _ ht => ht.1.kind) htokens).1.names
  have hspans : List.Forall₂
      (fun o o' => SameIndex (piecePlaces text) (piecePlaces result) o.span o'.span)
      (parse text).schema.occurrences (parse result).schema.occurrences := by
    have hidentifiers : List.Forall₂ _ (parse text).schema.shape.names
      (parse result).schema.shape.names := hnames
    rw [← map_identifier_occurrences, ← map_identifier_occurrences, List.forall₂_map_left_iff,
      List.forall₂_map_right_iff] at hidentifiers
    exact hidentifiers.imp fun o o' ho => ho.2
  exact hitems.mp (fun _ _ hitem hspan => ⟨hitem, hspan⟩) hspans

end Reworded

/-- **The pieces of a document after a renaming.** -/
theorem exists_pieces_renamed (text : String) (item : Item) {newName : String}
    (h : isIdentifier newName) :
    ∃ result : String,
      Edit.applyAll? text ((parse text).schema.renameEdits item newName) = some result ∧
        (parse result).schema.plain = (parse text).schema.plain.rename newName item ∧
        pieces result = (pieces text).map (Piece.rename newName item) := by
  obtain ⟨w, result, hw, hreplaces, hplaced⟩ := exists_reworded_tiles h
    (placesOf_sublist_tokens text item) fun _ => named_of_mem_placesOf
  have happly := Edit.applyAll?_of_rewrites hreplaces
  rw [String.ofList_toList, ← renameEdits_eq] at happly
  obtain ⟨hplain, hoccurrences⟩ := occurrences_of_reworded hw hplaced
  refine ⟨result, happly, hplain, ?_⟩
  rw [pieces, pieces, List.map_map, eq_comm]
  refine map_eq_map_of_forall₂ ((reworded_sameIndex hplaced).imp ?_)
  rintro p p' ⟨⟨-, htile⟩, hindex⟩
  have hitem : (parse result).schema.itemAt? p'.span =
      ((parse text).schema.itemAt? p.span).map (item.rekey newName) := by
    refine itemAt?_of_forall₂ ?_ hoccurrences hindex
    exact fun _ _ _ _ hab hcd => hab.eq_iff (nodup_piecePlaces text) (nodup_piecePlaces result) hcd
  have htext : p'.tile.text =
      if (parse text).schema.itemAt? p.span = some item then newName else p.tile.text := by
    simp only [htile, itemAt?_eq_some_iff (nodup_span_names text)]
    split
    · exact hw.text
    · rfl
  rw [hitem, htext]
  rfl

end EntitySchema
