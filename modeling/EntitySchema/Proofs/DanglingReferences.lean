import EntitySchema.Proofs.Repetition
import Mathlib.Data.List.ReduceOption

/-!
# References that point nowhere

A reference leads to the first entity of the name it gives, wherever that is declared.

* `Schema.FirstNamed` — the first entity of a name; `firstNamed_iff`: that is the one looked up.
* `Schema.Verdict` — what is to be said about a reference; `verdict_dangling?`: it is said.
* `danglingReports_eq_nil_iff`: when there is nothing to be said.
* **`dangling_references_warned`**: what is warned about references, and which schemas have no
  warning at all.
-/

namespace EntitySchema

/-- The report about a reference to an entity that is not declared. -/
def Reference.missingEntity (r : Reference) : Diagnostic where
  code := "W2003"
  severity := .warning
  message := "'" ++ r.targetEntity.name ++ "' does not exist"
  span := r.targetEntity.span
  labels := []

/-- The report about a reference to an attribute that `target` does not have. -/
def Reference.missingAttribute (r : Reference) (target : Entity) : Diagnostic where
  code := "W2004"
  severity := .warning
  message := "'" ++ r.targetAttribute.name ++ "' not found in '" ++ r.targetEntity.name ++
    "' (line " ++ toString target.name.span.first.position.line ++ ")"
  span := r.targetAttribute.span
  labels := [⟨"'" ++ target.name.name ++ "' defined here", target.name.span⟩]

namespace Schema

/-- The first entity of a name. -/
def FirstNamed (s : Schema) (name : String) (e : Entity) : Prop :=
  e.name.name = name ∧
    ∃ before after, s.entities = before ++ e :: after ∧ ∀ e' ∈ before, e'.name.name ≠ name

/-- What is to be said about a reference: that no entity has the name it gives, that the first
entity of this name has no attribute of the name it gives, or nothing. -/
structure Verdict (s : Schema) (r : Reference) (said : Option Diagnostic) : Prop where
  missingEntity : said = some r.missingEntity ↔
    ∀ e ∈ s.entities, e.name.name ≠ r.targetEntity.name
  missingAttribute : ∀ e, s.FirstNamed r.targetEntity.name e →
    (said = some (r.missingAttribute e) ↔
      ∀ a ∈ e.attributes, a.name.name ≠ r.targetAttribute.name)
  nothing : said = none ↔
    ∃ e, s.FirstNamed r.targetEntity.name e ∧
      ∃ a ∈ e.attributes, a.name.name = r.targetAttribute.name

end Schema

section Lookup

variable {s : Schema} {e : Entity} {name : String}

theorem firstNamed_iff : s.FirstNamed name e ↔ s.entity? name = some e := by
  unfold Schema.FirstNamed Schema.entity?
  simp [List.find?_eq_some_iff_append]

theorem entity?_eq_none_iff : s.entity? name = none ↔ ∀ e ∈ s.entities, e.name.name ≠ name := by
  simp [Schema.entity?]

theorem attribute?_eq_none_iff :
    e.attribute? name = none ↔ ∀ a ∈ e.attributes, a.name.name ≠ name := by
  simp [Entity.attribute?]

theorem Schema.FirstNamed.unique {e' : Entity} (h : s.FirstNamed name e)
    (h' : s.FirstNamed name e') : e = e' := by
  rw [firstNamed_iff] at h h'
  exact Option.some.inj (h.symm.trans h')

theorem Schema.FirstNamed.mem (h : s.FirstNamed name e) : e ∈ s.entities := by
  obtain ⟨-, before, after, hentities, -⟩ := h
  rw [hentities]
  simp

end Lookup

/-! ## What is said about a reference -/

section Verdict

variable {s : Schema} {r : Reference} {target : Entity}

theorem Reference.missingEntity_ne (r : Reference) (e : Entity) :
    r.missingEntity ≠ r.missingAttribute e := by
  intro h
  have hcode : "W2003" = "W2004" := congrArg Diagnostic.code h
  exact absurd hcode (by decide)

theorem verdict_missingEntity (h : ∀ e ∈ s.entities, e.name.name ≠ r.targetEntity.name) :
    s.Verdict r (some r.missingEntity) where
  missingEntity := iff_of_true rfl h
  missingAttribute := fun e he => absurd he.1 (h e he.mem)
  nothing := iff_of_false nofun fun ⟨e, he, _⟩ => h e he.mem he.1

theorem verdict_missingAttribute (h : s.FirstNamed r.targetEntity.name target)
    (hnone : ∀ a ∈ target.attributes, a.name.name ≠ r.targetAttribute.name) :
    s.Verdict r (some (r.missingAttribute target)) where
  missingEntity := by
    refine iff_of_false ?_ fun hall => hall target h.mem h.1
    intro heq
    exact r.missingEntity_ne target (Option.some.inj heq).symm
  missingAttribute := by
    intro e he
    obtain rfl := h.unique he
    exact iff_of_true rfl hnone
  nothing := by
    refine iff_of_false nofun ?_
    rintro ⟨e, he, a, ha, hname⟩
    obtain rfl := h.unique he
    exact hnone a ha hname

theorem verdict_nothing (h : s.FirstNamed r.targetEntity.name target)
    (hsome : ∃ a ∈ target.attributes, a.name.name = r.targetAttribute.name) :
    s.Verdict r none where
  missingEntity := iff_of_false nofun fun hall => hall target h.mem h.1
  missingAttribute := by
    intro e he
    obtain rfl := h.unique he
    obtain ⟨a, ha, hname⟩ := hsome
    exact iff_of_false nofun fun hnone => hnone a ha hname
  nothing := iff_of_true rfl ⟨target, h, hsome⟩

theorem verdict_dangling? (s : Schema) (r : Reference) :
    s.Verdict r ((s.dangling? r).map Warning.diagnostic) := by
  unfold Schema.dangling?
  cases hentity : s.entity? r.targetEntity.name with
  | none => exact verdict_missingEntity (entity?_eq_none_iff.1 hentity)
  | some target =>
    have hfirst := firstNamed_iff.2 hentity
    cases hattribute : target.attribute? r.targetAttribute.name with
    | none =>
      simp only [hattribute]
      exact verdict_missingAttribute hfirst (attribute?_eq_none_iff.1 hattribute)
    | some a =>
      simp only [hattribute]
      have hname : a.name.name = r.targetAttribute.name := by
        simpa using List.find?_some hattribute
      exact verdict_nothing hfirst ⟨a, List.mem_of_find?_eq_some hattribute, hname⟩

theorem dangling?_eq_none_iff :
    s.dangling? r = none ↔ ∃ e, s.FirstNamed r.targetEntity.name e ∧
      ∃ a ∈ e.attributes, a.name.name = r.targetAttribute.name :=
  Option.map_eq_none_iff.symm.trans (verdict_dangling? s r).nothing

end Verdict

/-! ## Schemas without warnings -/

section Clean

variable {s : Schema}

theorem firstNamed_of_nodup (h : (s.entities.map (·.name.name)).Nodup) {e : Entity}
    (he : e ∈ s.entities) : s.FirstNamed e.name.name e := by
  obtain ⟨before, after, hentities⟩ := List.append_of_mem he
  refine ⟨rfl, before, after, hentities, ?_⟩
  rw [hentities, List.map_append, List.map_cons] at h
  intro e' he' hname
  have hdisjoint := List.disjoint_of_nodup_append h
  exact hdisjoint (List.mem_map_of_mem he') (by simp [hname])

theorem danglingReports_eq_nil_iff :
    s.danglingReports = [] ↔ ∀ r ∈ s.references, ∃ e, s.FirstNamed r.targetEntity.name e ∧
      ∃ a ∈ e.attributes, a.name.name = r.targetAttribute.name := by
  rw [Schema.danglingReports, List.filterMap_eq_nil_iff]
  exact forall₂_congr fun r _ => (verdict_dangling? s r).nothing

theorem reports_eq_nil_iff :
    s.reports = [] ↔ (s.entities.map (·.name.name)).Nodup ∧
      (∀ e ∈ s.entities, (e.attributes.map (·.name.name)).Nodup) ∧
      ∀ r ∈ s.references, ∃ e, s.FirstNamed r.targetEntity.name e ∧
        ∃ a ∈ e.attributes, a.name.name = r.targetAttribute.name := by
  rw [reports_eq, List.append_eq_nil_iff, List.append_eq_nil_iff, List.map_eq_nil_iff,
    List.map_eq_nil_iff, List.flatMap_eq_nil_iff, danglingReports_eq_nil_iff, and_assoc]
  simp only [repeats_eq_nil_iff, Schema.entityNames, Entity.attributeNames, List.map_map]
  rfl

end Clean

/-- **References are warned about exactly where they lead nowhere**, in source order. -/
theorem dangling_references_warned (s : Schema) :
    (∃ said : List (Option Diagnostic),
        List.Forall₂ s.Verdict s.references said ∧
        s.reports.filter (fun d => d.code = "W2003" ∨ d.code = "W2004") = said.reduceOption) ∧
      (s.reports = [] ↔
        (s.entities.map (·.name.name)).Nodup ∧
        (∀ e ∈ s.entities, (e.attributes.map (·.name.name)).Nodup) ∧
        ∀ r ∈ s.references, ∃ e ∈ s.entities, e.name.name = r.targetEntity.name ∧
          ∃ a ∈ e.attributes, a.name.name = r.targetAttribute.name) := by
  refine ⟨⟨s.references.map fun r => (s.dangling? r).map Warning.diagnostic, ?_, ?_⟩, ?_⟩
  · rw [List.forall₂_map_right_iff, List.forall₂_same]
    exact fun r _ => verdict_dangling? s r
  · rw [filter_dangling, Schema.danglingReports, List.reduceOption, List.filterMap_map]
    rfl
  · rw [reports_eq_nil_iff]
    refine and_congr_right fun hnodup => and_congr_right fun _ => forall₂_congr fun r _ => ?_
    constructor
    · rintro ⟨e, he, hattribute⟩
      exact ⟨e, he.mem, he.1, hattribute⟩
    · rintro ⟨e, he, hname, hattribute⟩
      exact ⟨e, hname ▸ firstNamed_of_nodup hnodup he, hattribute⟩

end EntitySchema
