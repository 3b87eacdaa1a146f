import EntitySchema.Completion
import EntitySchema.Proofs.DanglingReferences
import EntitySchema.Proofs.FreshNames
import EntitySchema.Proofs.Placement

/-!
# Suggested relations

Suggestions are collected from all entities, while a reference leads to the first entity of the name
it gives. Where the entities have distinct names, a reference that is suggested leads to the primary
key it was made from, and nothing is to be said about it.

* `Schema.Adds` — a schema with one entity more.
* `repeats_insert`: a name that is new repeats nothing, and nothing repeats it.
* **`reports_of_adds`**: an entity of a fresh name that is faultless in itself adds no reports.
* `Schema.Keys` — the attributes with a marker, in source order; `keys_parse`: all of them are
  collected.
* `Schema.Accepts` — a key that a new entity may refer to; `accepts_of_mem_keys`: every key is one.
* **`suggested_relations_accepted`**: there is one suggestion for each key, and all keys are accepted.
-/

namespace EntitySchema

section Repeats

variable {seen seen' : List Identifier} {i : Identifier}

/-- Only the first identifiers of the names that come count. -/
theorem repeatsAfter_congr {is : List Identifier}
    (h : ∀ i ∈ is, firstOf seen i.name = firstOf seen' i.name) :
    repeatsAfter seen is = repeatsAfter seen' is := by
  induction is generalizing seen seen' with
  | nil => rfl
  | cons i is ih =>
    obtain ⟨hi, his⟩ := List.forall_mem_cons.1 h
    cases hfirst : firstOf seen i.name with
    | some first =>
      rw [repeatsAfter_again is hfirst, repeatsAfter_again is (hi ▸ hfirst), ih his]
    | none =>
      rw [repeatsAfter_new is hfirst, repeatsAfter_new is (hi ▸ hfirst)]
      refine ih fun j hj => ?_
      rw [firstOf_cons, firstOf_cons, his j hj]

theorem firstOf_eq_none_iff {is : List Identifier} {name : String} :
    firstOf is name = none ↔ ∀ i ∈ is, i.name ≠ name := by
  simp [firstOf]

theorem repeatsAfter_insert {before after : List Identifier}
    (hseen : ∀ j ∈ seen, j.name ≠ i.name) (hbefore : ∀ j ∈ before, j.name ≠ i.name)
    (hafter : ∀ j ∈ after, j.name ≠ i.name) :
    repeatsAfter seen (before ++ i :: after) = repeatsAfter seen (before ++ after) := by
  induction before generalizing seen with
  | nil =>
    rw [List.nil_append, List.nil_append, repeatsAfter_new after (firstOf_eq_none_iff.2 hseen)]
    refine repeatsAfter_congr fun j hj => ?_
    rw [firstOf_cons, if_neg (hafter j hj).symm]
  | cons j before ih =>
    obtain ⟨hj, hbefore⟩ := List.forall_mem_cons.1 hbefore
    rw [List.cons_append, List.cons_append]
    cases hfirst : firstOf seen j.name with
    | some first => rw [repeatsAfter_again _ hfirst, repeatsAfter_again _ hfirst, ih hseen hbefore]
    | none =>
      rw [repeatsAfter_new _ hfirst, repeatsAfter_new _ hfirst]
      exact ih (List.forall_mem_cons.2 ⟨hj, hseen⟩) hbefore

theorem repeats_insert {before after : List Identifier}
    (h : ∀ j ∈ before ++ after, j.name ≠ i.name) :
    repeats (before ++ i :: after) = repeats (before ++ after) := by
  obtain ⟨hbefore, hafter⟩ := List.forall_mem_append.1 h
  exact repeatsAfter_insert (fun _ => nofun) hbefore hafter

end Repeats

/-! ## New entities -/

/-- Schema `s'` has the statements of schema `s`, and among them one for the entity `e`. -/
def Schema.Adds (s : Schema) (e : Entity) (s' : Schema) : Prop :=
  ∃ before after, s.statements = before ++ after ∧ s'.statements = before ++ .entity e :: after

section Adds

variable {s s' : Schema} {e : Entity}

theorem Schema.Adds.entities (h : s.Adds e s') :
    ∃ before after, s.entities = before ++ after ∧ s'.entities = before ++ e :: after := by
  obtain ⟨before, after, hs, hs'⟩ := h
  refine ⟨before.filterMap Statement.entity?, after.filterMap Statement.entity?, ?_, ?_⟩
  · rw [Schema.entities, hs, List.filterMap_append]
  · rw [Schema.entities, hs', List.filterMap_append]
    rfl

theorem dangling?_of_adds (h : s.Adds e s') {r : Reference}
    (hname : e.name.name ≠ r.targetEntity.name) : s'.dangling? r = s.dangling? r := by
  obtain ⟨before, after, hs, hs'⟩ := h.entities
  have hentity : s'.entity? r.targetEntity.name = s.entity? r.targetEntity.name := by
    rw [Schema.entity?, Schema.entity?, hs, hs', List.find?_append, List.find?_append,
      List.find?_cons_of_neg]
    simpa using hname
  rw [Schema.dangling?, Schema.dangling?, hentity]

section Fresh

variable (h : s.Adds e s') (hfresh : s.Fresh e.name.name (.entity e.name.name))
  (hreferences : ∀ r ∈ e.references, s.dangling? r = none)
include h hfresh

theorem repeats_entityNames_of_adds : repeats s'.entityNames = repeats s.entityNames := by
  obtain ⟨before, after, hs, hs'⟩ := h.entities
  have hnames : ∀ i ∈ (before ++ after).map Entity.name, i.name ≠ e.name.name := by
    rw [← hs, List.forall_mem_map]
    exact hfresh.1
  rw [List.map_append] at hnames
  rw [Schema.entityNames, Schema.entityNames, hs, hs', List.map_append, List.map_append,
    List.map_cons, repeats_insert hnames]

include hreferences

theorem danglingReports_of_adds : s'.danglingReports = s.danglingReports := by
  have hold : ∀ r ∈ s.references, s'.dangling? r = s.dangling? r :=
    fun r hr => dangling?_of_adds h (hfresh.2 r hr).symm
  have hnew : ∀ r ∈ e.references, s'.dangling? r = none := by
    intro r hr
    -- an entity that is looked up in the old schema does not have the fresh name
    obtain ⟨target, htarget, -⟩ := dangling?_eq_none_iff.1 (hreferences r hr)
    have hname : e.name.name ≠ r.targetEntity.name := htarget.1 ▸ (hfresh.1 target htarget.mem).symm
    rw [dangling?_of_adds h hname, hreferences r hr]
  have hnone : e.references.filterMap (fun r => (s'.dangling? r).map Warning.diagnostic) = [] := by
    rw [List.filterMap_eq_nil_iff]
    intro r hr
    rw [hnew r hr, Option.map_none]
  obtain ⟨before, after, hs, hs'⟩ := h.entities
  have hsplit : s'.danglingReports =
      s.references.filterMap fun r => (s'.dangling? r).map Warning.diagnostic := by
    rw [Schema.danglingReports, Schema.references, Schema.references, hs, hs', List.flatMap_append,
      List.flatMap_append, List.flatMap_cons, List.filterMap_append, List.filterMap_append,
      List.filterMap_append, hnone, List.nil_append]
  rw [hsplit, Schema.danglingReports]
  refine List.filterMap_congr fun r hr => ?_
  rw [hold r hr]

/-- **An entity of a fresh name that is faultless in itself adds no reports.** -/
theorem reports_of_adds (hattributes : (e.attributes.map (·.name.name)).Nodup) :
    s'.reports = s.reports := by
  have hnone : repeats e.attributeNames = [] := by
    rw [repeats_eq_nil_iff, Entity.attributeNames, List.map_map]
    exact hattributes
  obtain ⟨before, after, hs, hs'⟩ := h.entities
  rw [reports_eq, reports_eq, repeats_entityNames_of_adds h hfresh,
    danglingReports_of_adds h hfresh hreferences, hs, hs', List.flatMap_append, List.flatMap_append,
    List.flatMap_cons, hnone, List.nil_append]

end Fresh

end Adds

/-! ## Keys -/

/-- The attributes of schema `s` that have a marker, each with its entity, in source order. -/
structure Schema.Keys (s : Schema) (keys : List (Entity × Attribute)) : Prop where
  mem : ∀ key, key ∈ keys ↔
    key.1 ∈ s.entities ∧ key.2 ∈ key.1.attributes ∧ ∃ marker, key.2.primaryKey = some marker
  before : keys.Pairwise fun k l => k.2.span.Before l.2.span

/-- The suggestion `g` is that of a reference to `key` in a context. -/
structure CompletionContext.Suggests (c : CompletionContext) (key : Entity × Attribute)
    (g : Suggestion) : Prop where
  kind : g.kind = .relation
  text : g.text = (if c = .relation then "-> " else "") ++ key.1.name.name ++ "(" ++
    key.2.name.name ++ ")"

/-- The entity `e` has a single attribute, which refers to `key`. -/
def Entity.RefersTo (e : Entity) (key : Entity × Attribute) : Prop :=
  ∃ a r, e.attributes = [a] ∧ a.reference = some r ∧
    r.targetEntity.name = key.1.name.name ∧ r.targetAttribute.name = key.2.name.name

/-- Wherever an entity of a fresh name with a single attribute that refers to `key` is added, the
reports about schema `s` stay as they are. -/
def Schema.Accepts (s : Schema) (key : Entity × Attribute) : Prop :=
  ∀ e s', s.Adds e s' → s.Fresh e.name.name (.entity e.name.name) → e.RefersTo key →
    s'.reports = s.reports

/-- The attributes with a marker, as they are collected. -/
def Schema.keys (s : Schema) : List (Entity × Attribute) :=
  s.entities.flatMap fun e => (e.attributes.filter Attribute.isPrimaryKey).map fun a => (e, a)

section Keys

variable {s : Schema} {key : Entity × Attribute}

theorem primaryKeys_eq (s : Schema) :
    s.primaryKeys = s.keys.map fun key => (key.1.name.name, key.2.name.name) := by
  rw [Schema.primaryKeys, Schema.keys, List.map_flatMap]
  simp only [List.map_map]
  rfl

theorem mem_keys_iff : key ∈ s.keys ↔
    key.1 ∈ s.entities ∧ key.2 ∈ key.1.attributes ∧ ∃ marker, key.2.primaryKey = some marker := by
  rw [Schema.keys, List.mem_flatMap, ← Option.isSome_iff_exists]
  constructor
  · rintro ⟨e, he, hkey⟩
    obtain ⟨a, ha, rfl⟩ := List.mem_map.1 hkey
    exact ⟨he, List.mem_filter.1 ha⟩
  · rintro ⟨he, ha⟩
    exact ⟨key.1, he, List.mem_map.2 ⟨key.2, List.mem_filter.2 ha, rfl⟩⟩

/-- **All attributes with a marker are collected, in source order.** -/
theorem keys_parse (text : String) : (parse text).schema.Keys (parse text).schema.keys where
  mem := fun _ => mem_keys_iff
  before := by
    rw [Schema.keys, List.pairwise_flatMap]
    constructor
    · intro e he
      rw [List.pairwise_map]
      exact ((nested_parse text).entity e he).attributes.filter _
    · refine (nested_parse text).entities.imp_of_mem ?_
      intro e e' he he' hbefore k hk l hl
      obtain ⟨a, ha, rfl⟩ := List.mem_map.1 hk
      obtain ⟨b, hb, rfl⟩ := List.mem_map.1 hl
      have hencloses : ∀ e ∈ (parse text).schema.entities, ∀ a ∈ e.attributes,
          e.span.encloses a.span := fun e he a ha =>
        (holds_of_mem_entities he).1.encloses _ (List.mem_cons_of_mem _ (List.mem_map_of_mem ha))
      exact hbefore.of_encloses (hencloses e he a (List.mem_of_mem_filter ha))
        (hencloses e' he' b (List.mem_of_mem_filter hb))

theorem suggests_keys (s : Schema) {c : CompletionContext} (hc : c ≠ .attributeType) :
    List.Forall₂ c.Suggests s.keys (s.suggestions c) := by
  cases c with
  | attributeType => exact absurd rfl hc
  | relation =>
    rw [Schema.suggestions, primaryKeys_eq, List.map_map, List.forall₂_map_right_iff,
      List.forall₂_same]
    exact fun key _ => ⟨rfl, rfl⟩
  | relationTarget =>
    rw [Schema.suggestions, primaryKeys_eq, List.map_map, List.forall₂_map_right_iff,
      List.forall₂_same]
    exact fun key _ => ⟨rfl, by simp⟩

/-- **A reference to a key does not dangle**, whichever attribute of that name it is. -/
theorem dangling?_of_mem_keys (hnodup : (s.entities.map (·.name.name)).Nodup) (hkey : key ∈ s.keys)
    {r : Reference} (hentity : r.targetEntity.name = key.1.name.name)
    (hattribute : r.targetAttribute.name = key.2.name.name) : s.dangling? r = none := by
  obtain ⟨he, ha, -⟩ := mem_keys_iff.1 hkey
  have hfirst : s.FirstNamed r.targetEntity.name key.1 := hentity ▸ firstNamed_of_nodup hnodup he
  exact dangling?_eq_none_iff.2 ⟨key.1, hfirst, key.2, ha, hattribute.symm⟩

theorem accepts_of_mem_keys (hnodup : (s.entities.map (·.name.name)).Nodup) (hkey : key ∈ s.keys) :
    s.Accepts key := by
  rintro e s' hadds hfresh ⟨a, r, hattributes, hreference, hentity, hattribute⟩
  refine reports_of_adds hadds hfresh ?_ ?_
  · have hreferences : e.references = [r] := by
      rw [Entity.references, hattributes]
      simp [hreference]
    rw [hreferences, List.forall_mem_singleton]
    exact dangling?_of_mem_keys hnodup hkey hentity hattribute
  · rw [hattributes]
    exact List.nodup_singleton _

end Keys

/-- **Suggested references never dangle**, in a document whose entities have distinct names. -/
theorem suggested_relations_accepted {text line : String} {c : CompletionContext}
    (hc : CompletionContext.ofLine? line.toList = some c) (hrelation : c ≠ .attributeType)
    (hnodup : ((parse text).schema.entities.map (·.name.name)).Nodup) :
    ∃ (keys : List (Entity × Attribute)) (suggestions : List Suggestion),
      (parse text).schema.Keys keys ∧
      (CompletionContext.ofLine? line.toList).map (parse text).schema.suggestions =
        some suggestions ∧
      List.Forall₂ c.Suggests keys suggestions ∧
      ∀ key ∈ keys, (parse text).schema.Accepts key := by
  refine ⟨_, _, keys_parse text, ?_, suggests_keys _ hrelation,
    fun key hkey => accepts_of_mem_keys hnodup hkey⟩
  rw [hc, Option.map_some]

/-- A broken document, and an entity in front of it that refers to a key with a reference itself. -/
theorem suggested_relations_accepted_orgs :
    let text := "users\n  id int pk\n  id int pk\n   broken\norgs\n  boss int %pk -> pets(tag)\n"
    let s := (parse text).schema
    let span : Span := ⟨⟨0, ⟨1, 1⟩⟩, ⟨0, ⟨1, 1⟩⟩⟩
    let posts : Entity := ⟨⟨"posts", span⟩, [⟨⟨"org", span⟩, ⟨"int", span⟩, none,
      some ⟨span, ⟨"orgs", span⟩, ⟨"boss", span⟩, span⟩⟩]⟩
    CompletionContext.ofLine? "  owner int ".toList = some .relation ∧
      (s.entities.map (·.name.name)).Nodup ∧
      s.reports.map Diagnostic.code = ["W2002", "W2003"] ∧
      s.suggestions .relation =
        [⟨.relation, "-> users(id)"⟩, ⟨.relation, "-> users(id)"⟩, ⟨.relation, "-> orgs(boss)"⟩] ∧
      (∃ (keys : List (Entity × Attribute)) (suggestions : List Suggestion),
        s.Keys keys ∧
        (CompletionContext.ofLine? "  owner int ".toList).map s.suggestions = some suggestions ∧
        List.Forall₂ CompletionContext.relation.Suggests keys suggestions ∧
        ∀ key ∈ keys, s.Accepts key) ∧
      (Schema.mk (.entity posts :: s.statements)).reports = s.reports := by
  intro text s span posts
  have hline : CompletionContext.ofLine? "  owner int ".toList = some .relation := by decide
  have hnodup : (s.entities.map (·.name.name)).Nodup := by decide +kernel
  have haccepted := suggested_relations_accepted hline (by decide) hnodup
  refine ⟨hline, hnodup, by decide +kernel, by decide +kernel, haccepted, ?_⟩
  obtain ⟨keys, suggestions, hkeys, -, -, haccepts⟩ := haccepted
  have hboss : ∃ e ∈ s.entities, ∃ a ∈ e.attributes,
      a.primaryKey.isSome ∧ e.name.name = "orgs" ∧ a.name.name = "boss" := by decide +kernel
  obtain ⟨e, he, a, ha, hmarker, hentity, hattribute⟩ := hboss
  have hkey : (e, a) ∈ keys := (hkeys.mem _).2 ⟨he, ha, Option.isSome_iff_exists.1 hmarker⟩
  have hfresh : s.Fresh "posts" (.entity "posts") := by decide +kernel
  exact haccepts (e, a) hkey posts _ ⟨[], _, rfl, rfl⟩ hfresh
    ⟨_, _, rfl, rfl, hentity.symm, hattribute.symm⟩

/-- A second entity of a name has a suggestion that leads to the first one. -/
example :
    let s := (parse "users\nusers\n  id int pk\n").schema
    let s' := (parse "users\nusers\n  id int pk\nposts\n  user int -> users(id)\n").schema
    s.suggestions .relationTarget = [⟨.relation, "users(id)"⟩] ∧
      s.reports.map Diagnostic.code = ["W2001"] ∧
      s'.reports.map Diagnostic.code = ["W2001", "W2004"] := by
  decide +kernel

end EntitySchema
