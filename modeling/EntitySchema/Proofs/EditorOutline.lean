import EntitySchema.Proofs.CursorOffsets
import EntitySchema.Proofs.EditorRenaming

/-!
# The outline in an editor

An editor shows the entities of a document with their attributes, by ranges of the text. What a part
of a document holds is shown inside it, and what stands one behind the other is shown so, also where
lines are broken or stray text is in between.

* `placeOf_of_mem_spans`: the range of a part is the place of the part.
* `Range.Nonempty`, `Range.Encloses` — ranges with something in them, and ranges inside ranges;
  `Range.PlaceOf.nonempty`, `Range.PlaceOf.encloses`: they are so if their spans are.
* `OutlineEntry.Shows` — an entry that shows an entity with its attributes.
* `OutlineEntry.WellFormed` — an entry with its parts inside one another and in order.
* **`outlineOf_wellFormed`**: the outline of a document shows its entities, and is well formed.
-/

namespace EntitySchema.Editor

/-! ## Ranges of parts -/

theorem placeOf_of_mem_spans {text : String} (hfits : Fits text.toList) {s : Span}
    (hs : s ∈ (parse text).schema.spans) : (Range.ofSpan s).PlaceOf s := by
  obtain ⟨us, hus, hcovers, hkind⟩ := onTokens_of_mem_spans hs
  obtain ⟨t, ht, hfirst⟩ := hcovers.first
  obtain ⟨u, hu, hlast⟩ := hcovers.last
  have ht : t ∈ us := List.mem_of_mem_head? ht
  have hu : u ∈ us := List.mem_of_mem_getLast? hu
  have hstart := ((wordAt_of_mem_lex (hus ht) (hkind t ht)).placeOf hfits).start
  have hstop := ((wordAt_of_mem_lex (hus hu) (hkind u hu)).placeOf hfits).stop
  constructor
  · rw [← hfirst, ← hstart, Range.ofSpan, Range.ofSpan, hfirst]
  · rw [← hlast, ← hstop, Range.ofSpan, Range.ofSpan, hlast]

/-- Range `r` has something in it. -/
def Range.Nonempty (r : Range) : Prop := r.start.position < r.stop.position

/-- Range `q` lies inside range `r`. -/
structure Range.Encloses (r q : Range) : Prop where
  start : r.start.position ≤ q.start.position
  stop : q.stop.position ≤ r.stop.position

section PlaceOf

variable {q r : Range} {s t : Span}

theorem Range.PlaceOf.nonempty (h : r.PlaceOf s) (hs : s.Forward) : r.Nonempty := by
  have hposition := hs.position
  rw [Position.le_def] at hposition
  rw [Range.Nonempty, h.start, h.stop, Position.lt_def]
  show s.first.position.line < s.last.position.line ∨
    s.first.position.line = s.last.position.line ∧ _ < s.last.position.column + 1
  omega

theorem Range.PlaceOf.encloses (hr : r.PlaceOf s) (hq : q.PlaceOf t) (h : s.encloses t) :
    r.Encloses q := by
  obtain ⟨-, -, hfirst, hlast⟩ := Span.encloses_iff.1 h
  constructor
  · rw [hr.start, hq.start]
    exact hfirst
  · rw [Position.le_def] at hlast
    rw [hr.stop, hq.stop, Position.le_def]
    show t.last.position.line < s.last.position.line ∨
      t.last.position.line = s.last.position.line ∧ _ + 1 ≤ s.last.position.column + 1
    omega

end PlaceOf

/-! ## Entries -/

/-- The editor's form of an entry. -/
def OutlineEntry.ofEntity (e : Entity) : OutlineEntry :=
  ⟨.ofNode e.outline.node, e.outline.children.map .ofNode⟩

theorem outlineOf_eq (text : String) :
    outlineOf text = (parse text).schema.entities.map OutlineEntry.ofEntity := by
  rw [outlineOf, Schema.outline, List.map_map]
  rfl

/-- Node `n` shows a part of the name `i` in the place `s`. -/
structure OutlineNode.Shows (n : OutlineNode) (i : Identifier) (s : Span) : Prop where
  name : n.name = i.name
  range : n.range.PlaceOf s
  selection : n.selection.PlaceOf i.span

/-- Entry `o` shows the entity `e`, with one child for each of its attributes. -/
structure OutlineEntry.Shows (o : OutlineEntry) (e : Entity) : Prop where
  node : o.node.Shows e.name e.span
  children : List.Forall₂ (fun n a => n.Shows a.name a.span) o.children e.attributes

/-- The name that node `n` selects has something in it and is inside the node. -/
structure OutlineNode.WellFormed (n : OutlineNode) : Prop where
  nonempty : n.selection.Nonempty
  encloses : n.range.Encloses n.selection

/-- The children of entry `o` are inside it, and in order. -/
structure OutlineEntry.WellFormed (o : OutlineEntry) : Prop where
  node : o.node.WellFormed
  child : ∀ n ∈ o.children, n.WellFormed
  encloses : ∀ n ∈ o.children, o.node.range.Encloses n.range
  before : o.children.Pairwise fun m n => m.range.Before n.range

theorem OutlineNode.Shows.wellFormed {n : OutlineNode} {i : Identifier} {s : Span}
    (h : n.Shows i s) (hi : i.span.Forward) (hs : s.encloses i.span) : n.WellFormed :=
  ⟨h.selection.nonempty hi, h.range.encloses h.selection hs⟩

section Entity

variable {e : Entity} (hplace : ∀ s ∈ e.spans, (Range.ofSpan s).PlaceOf s)
include hplace

theorem placeOf_attribute {a : Attribute} (ha : a ∈ e.attributes) :
    (Range.ofSpan a.span).PlaceOf a.span ∧ (Range.ofSpan a.name.span).PlaceOf a.name.span := by
  have hspans : ∀ s ∈ a.spans, (Range.ofSpan s).PlaceOf s := by
    intro s hs
    exact hplace s (List.mem_append_right _ (List.mem_flatMap.2 ⟨a, ha, hs⟩))
  exact ⟨hspans _ (by simp [Attribute.spans]), hspans _ (by simp [Attribute.spans])⟩

theorem shows_ofEntity : (OutlineEntry.ofEntity e).Shows e where
  node := ⟨rfl, hplace e.span (by simp [Entity.spans]), hplace e.name.span (by simp [Entity.spans])⟩
  children := by
    rw [OutlineEntry.ofEntity, Entity.outline, List.map_map, List.forall₂_map_left_iff,
      List.forall₂_same]
    intro a ha
    obtain ⟨hrange, hselection⟩ := placeOf_attribute hplace ha
    exact ⟨rfl, hrange, hselection⟩

theorem wellFormed_ofEntity (he : e.span.Holds e.parts)
    (hattributes : ∀ a ∈ e.attributes, a.span.Holds a.parts) :
    (OutlineEntry.ofEntity e).WellFormed := by
  have hshows := shows_ofEntity hplace
  have hname : e.name.span ∈ e.parts := List.mem_cons_self
  have hmem : ∀ a ∈ e.attributes, a.span ∈ e.parts :=
    fun a ha => List.mem_cons_of_mem _ (List.mem_map_of_mem ha)
  have hchildren : (OutlineEntry.ofEntity e).children =
      e.attributes.map fun a => .ofNode a.outline := by
    rw [OutlineEntry.ofEntity, Entity.outline, List.map_map]
    rfl
  constructor
  · exact hshows.node.wellFormed (he.forward _ hname) (he.encloses _ hname)
  · rw [hchildren, List.forall_mem_map]
    intro a ha
    obtain ⟨hrange, hselection⟩ := placeOf_attribute hplace ha
    have hpart : a.name.span ∈ a.parts := List.mem_cons_self
    exact OutlineNode.Shows.wellFormed (i := a.name) ⟨rfl, hrange, hselection⟩
      ((hattributes a ha).forward _ hpart) ((hattributes a ha).encloses _ hpart)
  · rw [hchildren, List.forall_mem_map]
    intro a ha
    exact hshows.node.range.encloses (placeOf_attribute hplace ha).1 (he.encloses _ (hmem a ha))
  · have hbefore : e.attributes.Pairwise fun a b => a.span.Before b.span :=
      List.pairwise_map.1 (List.pairwise_cons.1 he.before).2
    rw [hchildren, List.pairwise_map]
    refine hbefore.imp_of_mem ?_
    intro a b ha hb hab
    exact (placeOf_attribute hplace ha).1.before (placeOf_attribute hplace hb).1
      (he.forward _ (hmem a ha)) hab

end Entity

/-- **The outline of a document shows its entities, and is well formed.** -/
theorem outlineOf_wellFormed (text : String) (hfits : Fits text.toList) :
    List.Forall₂ OutlineEntry.Shows (outlineOf text) (parse text).schema.entities ∧
      (∀ o ∈ outlineOf text, o.WellFormed) ∧
      (outlineOf text).Pairwise fun o o' => o.node.range.Before o'.node.range := by
  have hplace : ∀ e ∈ (parse text).schema.entities, ∀ s ∈ e.spans, (Range.ofSpan s).PlaceOf s :=
    fun e he s hs => placeOf_of_mem_spans hfits (List.mem_flatMap.2 ⟨e, he, hs⟩)
  rw [outlineOf_eq]
  refine ⟨?_, ?_, ?_⟩
  · rw [List.forall₂_map_left_iff, List.forall₂_same]
    exact fun e he => shows_ofEntity (hplace e he)
  · rw [List.forall_mem_map]
    intro e he
    obtain ⟨hentity, hattributes⟩ := holds_of_mem_entities he
    exact wellFormed_ofEntity (hplace e he) hentity fun a ha => (hattributes a ha).1
  · rw [List.pairwise_map]
    refine (nested_parse text).entities.imp_of_mem ?_
    intro e e' he he' hbefore
    have hentity := (holds_of_mem_entities he).1
    have hname : e.name.span ∈ e.parts := List.mem_cons_self
    have hforward : e.span.Forward :=
      Span.forward_of_encloses (hentity.encloses _ hname) (hentity.forward _ hname)
    exact (shows_ofEntity (hplace e he)).node.range.before
      (shows_ofEntity (hplace e' he')).node.range hforward hbefore

/-- Two entities in a text with stray runs, a line that is left out and no newline at its end. -/
theorem outlineOf_wellFormed_users :
    let text := "é€\nusers %\n  boss id €pk -> users(id)\n   broken\n  name text\norgs"
    Fits text.toList ∧
      (outlineOf text).map (fun o => (o.node.range, o.children.map OutlineNode.range)) =
        [(⟨⟨1, 0⟩, ⟨4, 11⟩⟩, [⟨⟨2, 2⟩, ⟨2, 26⟩⟩, ⟨⟨4, 2⟩, ⟨4, 11⟩⟩]), (⟨⟨5, 0⟩, ⟨5, 4⟩⟩, [])] ∧
      List.Forall₂ OutlineEntry.Shows (outlineOf text) (parse text).schema.entities ∧
      (∀ o ∈ outlineOf text, o.WellFormed) ∧
      (outlineOf text).Pairwise fun o o' => o.node.range.Before o'.node.range := by
  intro text
  have hfits : Fits text.toList := ⟨by decide +kernel, by decide +kernel⟩
  exact ⟨hfits, by decide +kernel, outlineOf_wellFormed text hfits⟩

end EntitySchema.Editor
