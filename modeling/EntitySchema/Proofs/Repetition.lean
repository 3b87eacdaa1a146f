import EntitySchema.Schema.Warning
import Mathlib.Data.List.Forall2
import Mathlib.Data.List.Nodup

/-!
# Names that are declared twice

* `repeatedPlaces` — the numbers of the names in a list that came before.
* `IsRepeat` — the identifier of a number, with the first one of its name; `RepeatsOf` — all such
  pairs, in order.
* `Seen` — the invariant of the search for repeats; `repeatsAfter_spec`: it finds all of them.
* `countP_repeats`: of identifiers that share a name, all but one are repeats.
* `repeats_eq_nil_iff`: names without a repeat are distinct.
* `filter_repeatedEntity`, `filter_repeatedAttribute`, `filter_dangling`: the warnings of each kind.
* **`repeated_names_warned`**: what is warned about names that are declared twice.
-/

namespace EntitySchema

/-- Whether the `k`-th name came before. -/
def CameBefore (names : List String) (k : Nat) : Prop := ∃ j < k, names[j]? = names[k]?

instance (names : List String) (k : Nat) : Decidable (CameBefore names k) :=
  inferInstanceAs (Decidable (∃ j < k, names[j]? = names[k]?))

/-- The numbers of the names that came before. -/
def repeatedPlaces (names : List String) : List Nat :=
  (List.range names.length).filter (CameBefore names ·)

/-- The `k`-th identifier, whose name came before, and the first identifier of that name. -/
structure IsRepeat (is : List Identifier) (k : Nat) (r : Repeat) : Prop where
  again : is[k]? = some r.again
  name : r.first.name = r.again.name
  first : ∃ j < k, is[j]? = some r.first ∧ ∀ l < j, ∀ i, is[l]? = some i → i.name ≠ r.again.name

/-- All repeats among some identifiers, in order. -/
def RepeatsOf (is : List Identifier) (rs : List Repeat) : Prop :=
  List.Forall₂ (IsRepeat is) (repeatedPlaces (is.map Identifier.name)) rs

/-! ## The search for repeats -/

/-- The first identifier of a name. -/
def firstOf (is : List Identifier) (name : String) : Option Identifier := is.find? (·.name == name)

theorem firstOf_cons (i : Identifier) (is : List Identifier) (name : String) :
    firstOf (i :: is) name = if i.name = name then some i else firstOf is name := by
  unfold firstOf
  by_cases h : i.name = name <;> simp [h]

theorem firstOf_concat (is : List Identifier) (i : Identifier) (name : String) :
    firstOf (is ++ [i]) name = (firstOf is name).or (if i.name = name then some i else none) := by
  unfold firstOf
  rw [List.find?_append]
  by_cases h : i.name = name <;> simp [h]

/-- The invariant of the search: `seen` holds the first identifier of every name in `before`. -/
def Seen (seen before : List Identifier) : Prop := ∀ name, firstOf seen name = firstOf before name

section Search

variable {seen before : List Identifier} {i first : Identifier}

theorem Seen.again (h : Seen seen before) (hfirst : firstOf seen i.name = some first) :
    Seen seen (before ++ [i]) := by
  intro name
  rw [firstOf_concat, ← h name]
  by_cases hname : i.name = name
  · rw [← hname, hfirst, Option.some_or]
  · rw [if_neg hname, Option.or_none]

theorem Seen.new (h : Seen seen before) (hnone : firstOf seen i.name = none) :
    Seen (i :: seen) (before ++ [i]) := by
  intro name
  rw [firstOf_concat, firstOf_cons, ← h name]
  by_cases hname : i.name = name
  · rw [if_pos hname, if_pos hname, ← hname, hnone, Option.none_or]
  · rw [if_neg hname, if_neg hname, Option.or_none]

theorem repeatsAfter_again (is : List Identifier) (hfirst : firstOf seen i.name = some first) :
    repeatsAfter seen (i :: is) = ⟨first, i⟩ :: repeatsAfter seen is := by
  unfold firstOf at hfirst
  rw [repeatsAfter, hfirst]

theorem repeatsAfter_new (is : List Identifier) (hnone : firstOf seen i.name = none) :
    repeatsAfter seen (i :: is) = repeatsAfter (i :: seen) is := by
  unfold firstOf at hnone
  rw [repeatsAfter, hnone]

theorem isRepeat_of_firstOf (h : firstOf before i.name = some first) (rest : List Identifier) :
    IsRepeat (before ++ i :: rest) before.length ⟨first, i⟩ := by
  obtain ⟨hname, j, hj, rfl, hmin⟩ := List.find?_eq_some_iff_getElem.1 h
  have hin : ∀ l ≤ j, (before ++ i :: rest)[l]? = before[l]? := by
    intro l hl
    exact List.getElem?_append_left (by omega)
  constructor
  · simp
  · simpa using hname
  · refine ⟨j, hj, ?_, ?_⟩
    · rw [hin j (Nat.le_refl j)]
      exact List.getElem?_eq_getElem hj
    · intro l hl x hx
      rw [hin l (by omega), List.getElem?_eq_getElem (by omega)] at hx
      obtain rfl := Option.some.inj hx
      simpa using hmin l hl

theorem cameBefore_iff (before rest : List Identifier) (i : Identifier) :
    CameBefore ((before ++ i :: rest).map Identifier.name) before.length ↔
      ∃ first, firstOf before i.name = some first := by
  have hk : ((before ++ i :: rest).map Identifier.name)[before.length]? = some i.name := by
    simp
  unfold CameBefore
  rw [hk, ← Option.isSome_iff_exists, firstOf, List.find?_isSome]
  constructor
  · rintro ⟨j, hj, hname⟩
    rw [List.map_append, List.getElem?_append_left (by simpa using hj), List.getElem?_map,
      List.getElem?_eq_getElem hj, Option.map_some, Option.some.injEq] at hname
    exact ⟨before[j], List.getElem_mem hj, by simpa using hname⟩
  · rintro ⟨x, hx, hname⟩
    obtain ⟨j, hj, rfl⟩ := List.getElem_of_mem hx
    refine ⟨j, hj, ?_⟩
    rw [List.map_append, List.getElem?_append_left (by simpa using hj), List.getElem?_map,
      List.getElem?_eq_getElem hj, Option.map_some, Option.some.injEq]
    simpa using hname

/-- **The search finds all repeats.** -/
theorem repeatsAfter_spec (h : Seen seen before) (rest : List Identifier) :
    List.Forall₂ (IsRepeat (before ++ rest))
      ((List.range' before.length rest.length).filter
        (CameBefore ((before ++ rest).map Identifier.name) ·))
      (repeatsAfter seen rest) := by
  -- the identifiers move from `rest` to the end of `before`, so that their numbers stay
  induction rest generalizing seen before with
  | nil => exact .nil
  | cons i rest ih =>
    have hmove : before ++ [i] ++ rest = before ++ i :: rest := by simp
    have hlength : (before ++ [i]).length = before.length + 1 := by simp
    rw [List.length_cons, List.range'_succ]
    cases hfirst : firstOf seen i.name with
    | some first =>
      have hmore := ih (h.again hfirst)
      rw [hmove, hlength] at hmore
      have hbefore : firstOf before i.name = some first := (h i.name).symm.trans hfirst
      have hcame := (cameBefore_iff before rest i).2 ⟨first, hbefore⟩
      rw [repeatsAfter_again rest hfirst, List.filter_cons_of_pos (by simpa using hcame)]
      exact .cons (isRepeat_of_firstOf hbefore rest) hmore
    | none =>
      have hmore := ih (h.new hfirst)
      rw [hmove, hlength] at hmore
      have hbefore : firstOf before i.name = none := (h i.name).symm.trans hfirst
      have hcame : ¬ CameBefore ((before ++ i :: rest).map Identifier.name) before.length := by
        rw [cameBefore_iff, hbefore]
        exact nofun
      rw [repeatsAfter_new rest hfirst, List.filter_cons_of_neg (by simpa using hcame)]
      exact hmore

end Search

theorem repeats_spec (is : List Identifier) : RepeatsOf is (repeats is) := by
  have h : Seen [] [] := fun _ => rfl
  have hspec := repeatsAfter_spec h is
  rw [List.nil_append, List.length_nil, ← List.range_eq_range'] at hspec
  rw [RepeatsOf, repeatedPlaces, List.length_map]
  exact hspec

theorem countP_repeatsAfter (name : String) (seen is : List Identifier) :
    (repeatsAfter seen is).countP (·.again.name = name) =
      is.countP (·.name = name) - if (firstOf seen name).isSome then 0 else 1 := by
  induction is generalizing seen with
  | nil => simp [repeatsAfter]
  | cons i is ih =>
    cases hfirst : firstOf seen i.name with
    | some first =>
      rw [repeatsAfter_again is hfirst, List.countP_cons, List.countP_cons, ih]
      by_cases hname : i.name = name
      · rw [← hname, hfirst]
        simp
      · simp [hname]
    | none =>
      rw [repeatsAfter_new is hfirst, List.countP_cons, ih, firstOf_cons]
      by_cases hname : i.name = name
      · rw [← hname, hfirst]
        simp
      · simp [hname]

/-- **Of identifiers that share a name, all but one are repeats.** -/
theorem countP_repeats (name : String) (is : List Identifier) :
    (repeats is).countP (·.again.name = name) = is.countP (·.name = name) - 1 :=
  countP_repeatsAfter name [] is

/-- **Names without a repeat are distinct.** -/
theorem repeats_eq_nil_iff (is : List Identifier) :
    repeats is = [] ↔ (is.map Identifier.name).Nodup := by
  have hspec := repeats_spec is
  rw [List.nodup_iff_getElem?_ne_getElem?]
  constructor
  · intro hnil
    rw [hnil, RepeatsOf, List.forall₂_nil_right_iff, repeatedPlaces,
      List.filter_eq_nil_iff] at hspec
    intro j k hjk hk heq
    exact hspec k (List.mem_range.2 hk) (decide_eq_true ⟨j, hjk, heq⟩)
  · intro hne
    have hnil : repeatedPlaces (is.map Identifier.name) = [] := by
      rw [repeatedPlaces, List.filter_eq_nil_iff]
      intro k hk hcame
      obtain ⟨j, hjk, heq⟩ := of_decide_eq_true hcame
      exact hne j k hjk (List.mem_range.1 hk) heq
    rwa [RepeatsOf, hnil, List.forall₂_nil_left_iff] at hspec

/-! ## Warnings by their kinds -/

/-- The report about a name that came before, which cites the first one. -/
def Repeat.report (code : String) (r : Repeat) : Diagnostic where
  code := code
  severity := .warning
  message := "'" ++ r.again.name ++ "' already defined at line " ++
    toString r.first.span.first.position.line
  span := r.again.span
  labels := [⟨"first defined here", r.first.span⟩]

namespace Schema

variable (s : Schema)

/-- The names of the entities of a schema. -/
def entityNames : List Identifier := s.entities.map Entity.name

/-- The reports about a schema. -/
def reports : List Diagnostic := s.warnings.map Warning.diagnostic

/-- The reports about references that point nowhere. -/
def danglingReports : List Diagnostic :=
  s.references.filterMap fun r => (s.dangling? r).map Warning.diagnostic

end Schema

/-- The names of the attributes of an entity. -/
def Entity.attributeNames (e : Entity) : List Identifier := e.attributes.map Attribute.name

section Reports

variable (s : Schema)

theorem reports_eq :
    s.reports = (repeats s.entityNames).map (Repeat.report "W2001") ++
      (s.entities.flatMap (repeats ·.attributeNames)).map (Repeat.report "W2002") ++
      s.danglingReports := by
  simp only [Schema.reports, Schema.warnings, List.map_append, List.map_map, List.map_flatMap,
    List.map_filterMap]
  rfl

theorem code_of_mem_danglingReports {d : Diagnostic} (h : d ∈ s.danglingReports) :
    d.code = "W2003" ∨ d.code = "W2004" := by
  obtain ⟨r, -, hr⟩ := List.mem_filterMap.1 h
  obtain ⟨w, hw, rfl⟩ := Option.map_eq_some_iff.1 hr
  unfold Schema.dangling? at hw
  split at hw
  · obtain rfl := Option.some.inj hw
    exact .inl rfl
  · split at hw
    · obtain rfl := Option.some.inj hw
      exact .inr rfl
    · cases hw

/-- Diagnostics of the same code, or of codes that are not told apart, are all kept or all left. -/
theorem filter_code {ds : List Diagnostic} (p : String → Bool) {b : Bool}
    (h : ∀ d ∈ ds, p d.code = b) : ds.filter (fun d => p d.code) = if b then ds else [] := by
  cases b with
  | true => exact List.filter_eq_self.2 h
  | false => exact List.filter_eq_nil_iff.2 fun d hd => by simp [h d hd]

theorem filter_reports (p : String → Bool) (h : p "W2003" = p "W2004") :
    s.reports.filter (fun d => p d.code) =
      (if p "W2001" then (repeats s.entityNames).map (Repeat.report "W2001") else []) ++
      (if p "W2002" then
        (s.entities.flatMap (repeats ·.attributeNames)).map (Repeat.report "W2002") else []) ++
      if p "W2003" then s.danglingReports else [] := by
  have hreport : ∀ (code : String) (rs : List Repeat), ∀ d ∈ rs.map (Repeat.report code),
      p d.code = p code := by
    intro code rs d hd
    obtain ⟨r, -, rfl⟩ := List.mem_map.1 hd
    rfl
  have hdangling : ∀ d ∈ s.danglingReports, p d.code = p "W2003" := by
    intro d hd
    rcases code_of_mem_danglingReports s hd with hcode | hcode
    · rw [hcode]
    · rw [hcode, h]
  rw [reports_eq, List.filter_append, List.filter_append, filter_code p (hreport _ _),
    filter_code p (hreport _ _), filter_code p hdangling]

theorem filter_repeatedEntity :
    s.reports.filter (·.code = "W2001") =
      (repeats s.entityNames).map (Repeat.report "W2001") := by
  rw [filter_reports s (· = "W2001") (by decide)]
  simp

theorem filter_repeatedAttribute :
    s.reports.filter (·.code = "W2002") =
      (s.entities.flatMap (repeats ·.attributeNames)).map (Repeat.report "W2002") := by
  rw [filter_reports s (· = "W2002") (by decide)]
  simp

theorem filter_dangling :
    s.reports.filter (fun d => d.code = "W2003" ∨ d.code = "W2004") = s.danglingReports := by
  rw [filter_reports s (fun code => code = "W2003" ∨ code = "W2004") (by decide)]
  simp

end Reports

/-- **Every repeat of a name is reported**, with the first declaration of the name. -/
theorem repeated_names_warned (s : Schema) :
    (∃ rs : List Repeat,
        s.reports.filter (·.code = "W2001") = rs.map (Repeat.report "W2001") ∧
        RepeatsOf s.entityNames rs ∧
        ∀ name : String, rs.countP (·.again.name = name) =
          s.entities.countP (·.name.name = name) - 1) ∧
      (∃ rss : List (List Repeat),
        s.reports.filter (·.code = "W2002") = rss.flatten.map (Repeat.report "W2002") ∧
        List.Forall₂ (fun e rs => RepeatsOf e.attributeNames rs) s.entities rss) ∧
      s.reports = s.reports.filter (·.code = "W2001") ++ s.reports.filter (·.code = "W2002") ++
        s.reports.filter fun d => d.code = "W2003" ∨ d.code = "W2004" := by
  rw [filter_repeatedEntity, filter_repeatedAttribute, filter_dangling]
  refine ⟨⟨repeats s.entityNames, rfl, repeats_spec _, ?_⟩,
    ⟨s.entities.map (repeats ·.attributeNames), ?_, ?_⟩, reports_eq s⟩
  · intro name
    rw [countP_repeats, Schema.entityNames, List.countP_map]
    rfl
  · rw [List.flatMap_def]
  · rw [List.forall₂_map_right_iff, List.forall₂_same]
    exact fun e _ => repeats_spec e.attributeNames

end EntitySchema
