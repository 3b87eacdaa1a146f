import EntitySchema.Proofs.Grammar
import Mathlib.Data.List.Forall2

/-!
# Shapes of schemas

The shape of a schema is what is left of it without the places of its parts. Shapes are taken over
any type of names, so that a name can be a text, or a text with its place.

* `ReferenceShape`, `AttributeShape`, `StatementShape`, `SchemaShape` — shapes, with `map` for other
  names and `names` for the names in source order.
* `Schema.shape` — the shape of a schema over its identifiers; `Schema.plain` — the same over texts.
* `SchemaShape.Rel` — shapes that differ in their names only, these being related one by one.
* **`Parser.related_statements`**: tokens that are related one by one and agree in their kinds are
  read to schemas that are related in the same way, with the same mismatches.
-/

namespace EntitySchema

variable {ν μ κ : Type}

/-- The names in a reference. -/
structure ReferenceShape (ν : Type) where
  targetEntity : ν
  targetAttribute : ν
  deriving DecidableEq, Repr

/-- An attribute without places. -/
structure AttributeShape (ν : Type) where
  name : ν
  type : ν
  isPrimaryKey : Bool
  reference : Option (ReferenceShape ν)
  deriving DecidableEq, Repr

/-- A statement without places. -/
inductive StatementShape (ν : Type) where
  | empty
  | entity (name : ν) (attributes : List (AttributeShape ν))
  deriving DecidableEq, Repr

/-- A schema without places. -/
abbrev SchemaShape (ν : Type) := List (StatementShape ν)

def ReferenceShape.map (f : ν → μ) (r : ReferenceShape ν) : ReferenceShape μ :=
  ⟨f r.targetEntity, f r.targetAttribute⟩

def AttributeShape.map (f : ν → μ) (a : AttributeShape ν) : AttributeShape μ :=
  ⟨f a.name, f a.type, a.isPrimaryKey, a.reference.map (.map f)⟩

def StatementShape.map (f : ν → μ) : StatementShape ν → StatementShape μ
  | empty => empty
  | entity n as => entity (f n) (as.map (.map f))

/-- A schema with other names. -/
def SchemaShape.map (f : ν → μ) (s : SchemaShape ν) : SchemaShape μ := List.map (.map f) s

def ReferenceShape.names (r : ReferenceShape ν) : List ν := [r.targetEntity, r.targetAttribute]

def AttributeShape.names (a : AttributeShape ν) : List ν :=
  a.name :: a.type :: (a.reference.map ReferenceShape.names).getD []

def StatementShape.names : StatementShape ν → List ν
  | empty => []
  | entity n as => n :: as.flatMap AttributeShape.names

/-- The names in a schema, in source order. -/
def SchemaShape.names (s : SchemaShape ν) : List ν := s.flatMap StatementShape.names

def Reference.shape (r : Reference) : ReferenceShape Identifier :=
  ⟨r.targetEntity, r.targetAttribute⟩

def Attribute.shape (a : Attribute) : AttributeShape Identifier :=
  ⟨a.name, a.type, a.primaryKey.isSome, a.reference.map Reference.shape⟩

def Statement.shape : Statement → StatementShape Identifier
  | empty _ => .empty
  | entity e => .entity e.name (e.attributes.map Attribute.shape)

/-- The shape of a schema. -/
def Schema.shape (s : Schema) : SchemaShape Identifier := s.statements.map Statement.shape

/-- A schema with the places of all its parts forgotten. -/
def Schema.plain (s : Schema) : SchemaShape String := s.shape.map Identifier.name

/-! ## Related shapes -/

section Rel

def ReferenceShape.Rel (R : ν → μ → Prop) (r : ReferenceShape ν) (r' : ReferenceShape μ) : Prop :=
  R r.targetEntity r'.targetEntity ∧ R r.targetAttribute r'.targetAttribute

structure AttributeShape.Rel (R : ν → μ → Prop) (a : AttributeShape ν) (a' : AttributeShape μ) :
    Prop where
  name : R a.name a'.name
  type : R a.type a'.type
  isPrimaryKey : a.isPrimaryKey = a'.isPrimaryKey
  reference : Option.Rel (ReferenceShape.Rel R) a.reference a'.reference

inductive StatementShape.Rel (R : ν → μ → Prop) : StatementShape ν → StatementShape μ → Prop
  | empty : Rel R .empty .empty
  | entity {n n' as as'} : R n n' → List.Forall₂ (AttributeShape.Rel R) as as' →
      Rel R (.entity n as) (.entity n' as')

/-- Schemas that differ in their names only, these being related. -/
def SchemaShape.Rel (R : ν → μ → Prop) : SchemaShape ν → SchemaShape μ → Prop :=
  List.Forall₂ (StatementShape.Rel R)

variable {R : ν → μ → Prop} {f : ν → κ} {g : μ → κ} (hR : ∀ a b, R a b → f a = g b)

include hR

theorem ReferenceShape.Rel.map_eq {r : ReferenceShape ν} {r' : ReferenceShape μ}
    (h : Rel R r r') : r.map f = r'.map g := by
  rw [map, map, hR _ _ h.1, hR _ _ h.2]

theorem ReferenceShape.map_eq_of_rel {r : Option (ReferenceShape ν)}
    {r' : Option (ReferenceShape μ)} (h : Option.Rel (Rel R) r r') :
    r.map (map f) = r'.map (map g) := by
  cases h with
  | none => rfl
  | some hr => exact congrArg some (hr.map_eq hR)

theorem AttributeShape.Rel.map_eq {a : AttributeShape ν} {a' : AttributeShape μ}
    (h : Rel R a a') : a.map f = a'.map g := by
  rw [map, map, hR _ _ h.name, hR _ _ h.type, h.isPrimaryKey,
    ReferenceShape.map_eq_of_rel hR h.reference]

omit hR in
theorem map_eq_map_of_forall₂ {α β : Type} {F : α → κ} {G : β → κ} {as : List α} {bs : List β}
    (h : List.Forall₂ (fun a b => F a = G b) as bs) : as.map F = bs.map G := by
  rwa [← List.forall₂_eq_eq_eq, List.forall₂_map_left_iff, List.forall₂_map_right_iff]

theorem StatementShape.Rel.map_eq {s : StatementShape ν} {s' : StatementShape μ}
    (h : Rel R s s') : s.map f = s'.map g := by
  cases h with
  | empty => rfl
  | entity hn has =>
    rw [map, map, hR _ _ hn, map_eq_map_of_forall₂ (has.imp fun _ _ ha => ha.map_eq hR)]

theorem SchemaShape.Rel.map_eq {s : SchemaShape ν} {s' : SchemaShape μ}
    (h : Rel R s s') : s.map f = s'.map g :=
  map_eq_map_of_forall₂ (List.Forall₂.imp (fun _ _ hs => hs.map_eq hR) h)

end Rel

/-! ## Related tokens are read to related schemas -/

/-- The token that an identifier was read from. -/
def Identifier.token (i : Identifier) : Token := ⟨.identifier, i.name, i.span⟩

namespace Parser

variable {α α' β β' : Type} (R : Token → Token → Prop)

/-- Mismatches of the same kind in front of related tokens. -/
structure MismatchRel (m m' : Mismatch) : Prop where
  expected : m.expected = m'.expected
  rest : List.Forall₂ R m.rest m'.rest

/-- What is read of two lists of tokens is related. -/
inductive ReadRel (V : α → β → Prop) :
    Except Mismatch (α × List Token) → Except Mismatch (β × List Token) → Prop
  | ok {a b rest rest'} : V a b → List.Forall₂ R rest rest' →
      ReadRel V (.ok (a, rest)) (.ok (b, rest'))
  | error {m m'} : MismatchRel R m m' → ReadRel V (.error m) (.error m')

/-- Lines that give related values and mismatches. -/
structure LineRel (V : α → β → Prop) (l : Line α) (l' : Line β) : Prop where
  value : V l.value l'.value
  mismatch : Option.Rel (MismatchRel R) l.mismatch l'.mismatch
  rest : List.Forall₂ R l.rest l'.rest

/-- Identifiers read from related tokens. -/
def NameRel (i i' : Identifier) : Prop := R i.token i'.token

/-- Attributes read from related tokens. -/
def AttributeRel (a a' : Attribute) : Prop := a.shape.Rel (NameRel R) a'.shape

variable {R} {V : α → β → Prop} {W : α' → β' → Prop} {k : TokenKind} {ts ts' : List Token}

theorem ReadRel.bind {r : Except Mismatch (α × List Token)} {r' : Except Mismatch (β × List Token)}
    {f : α × List Token → Except Mismatch (α' × List Token)}
    {f' : β × List Token → Except Mismatch (β' × List Token)} (h : ReadRel R V r r')
    (hf : ∀ a b rest rest', V a b → List.Forall₂ R rest rest' →
      ReadRel R W (f (a, rest)) (f' (b, rest'))) : ReadRel R W (r >>= f) (r' >>= f') := by
  cases h with
  | ok hv hrest => exact hf _ _ _ _ hv hrest
  | error hm => exact .error hm

variable (hR : ∀ t t', R t t' → t.kind = t'.kind)

include hR

theorem related_expect (e : Expectation) (h : List.Forall₂ R ts ts') :
    ReadRel R (fun t t' => R t t' ∧ t.kind = k ∧ t'.kind = k) (expect k e ts) (expect k e ts') := by
  cases h with
  | nil => exact .error ⟨rfl, .nil⟩
  | @cons t t' ts ts' ht hts =>
    have hkind := hR t t' ht
    by_cases hk : t.kind = k
    · have hk' : t'.kind = k := hkind ▸ hk
      rw [expect, if_pos hk, expect, if_pos hk']
      exact .ok ⟨ht, hk, hk'⟩ hts
    · have hk' : ¬ t'.kind = k := hkind ▸ hk
      rw [expect, if_neg hk, expect, if_neg hk']
      exact .error ⟨rfl, .cons ht hts⟩

theorem related_expectName (e : Expectation) (h : List.Forall₂ R ts ts') :
    ReadRel R (NameRel R) (expectName e ts) (expectName e ts') := by
  refine (related_expect hR e h).bind ?_
  rintro ⟨_, text, span⟩ ⟨_, text', span'⟩ rest rest' ⟨ht, rfl, rfl⟩ hrest
  exact .ok ht hrest

theorem related_skip (k : TokenKind) (h : List.Forall₂ R ts ts') :
    List.Forall₂ R (skip k ts) (skip k ts') := by
  cases h with
  | nil => exact .nil
  | @cons t t' ts ts' ht hts =>
    rw [skip, skip, ← hR t t' ht]
    split
    · exact hts
    · exact .cons ht hts

theorem related_skipLine (h : List.Forall₂ R ts ts') :
    List.Forall₂ R (skipLine ts) (skipLine ts') := by
  induction h with
  | nil => exact .nil
  | @cons t t' ts ts' ht hts ih =>
    rw [skipLine, skipLine, ← hR t t' ht]
    split
    · exact hts
    · exact ih

theorem related_recover {r : Except Mismatch (α × List Token)}
    {r' : Except Mismatch (β × List Token)} (h : ReadRel R V r r') :
    LineRel R (Option.Rel V) (recover r) (recover r') := by
  cases h with
  | ok hv hrest => exact ⟨.some hv, .none, hrest⟩
  | error hm => exact ⟨.none, .some hm, related_skipLine hR hm.rest⟩

theorem related_endLine {v : α} {v' : β} (hv : V v v') (e : Expectation)
    (h : List.Forall₂ R ts ts') : LineRel R V (endLine v e ts) (endLine v' e ts') := by
  have hline := related_recover hR (related_expect hR (k := .newline) e h)
  exact ⟨hv, hline.mismatch, hline.rest⟩

theorem related_attributeHead (h : List.Forall₂ R ts ts') :
    ReadRel R (fun p p' => NameRel R p.1 p'.1 ∧ NameRel R p.2 p'.2) (attributeHead ts)
      (attributeHead ts') :=
  (related_expect hR _ h).bind fun _ _ _ _ _ h =>
    (related_expectName hR _ h).bind fun _ _ _ _ hname h =>
      (related_expect hR _ h).bind fun _ _ _ _ _ h =>
        (related_expectName hR _ h).bind fun _ _ _ _ htype h => .ok ⟨hname, htype⟩ h

theorem related_reference (dash dash' : Token) (h : List.Forall₂ R ts ts') :
    ReadRel R (fun r r' => r.shape.Rel (NameRel R) r'.shape) (reference dash ts)
      (reference dash' ts') :=
  (related_expect hR _ h).bind fun _ _ _ _ _ h =>
    (related_expect hR _ h).bind fun _ _ _ _ _ h =>
      (related_expectName hR _ h).bind fun _ _ _ _ hentity h =>
        (related_expect hR _ h).bind fun _ _ _ _ _ h =>
          (related_expectName hR _ h).bind fun _ _ _ _ htarget h =>
            (related_expect hR _ h).bind fun _ _ _ _ _ h => .ok ⟨hentity, htarget⟩ h

theorem related_primaryKey (h : List.Forall₂ R ts ts') :
    (primaryKey ts).1.isSome = (primaryKey ts').1.isSome ∧
      List.Forall₂ R (primaryKey ts).2 (primaryKey ts').2 := by
  cases h with
  | nil => exact ⟨rfl, .nil⟩
  | @cons t t' ts ts' ht hts =>
    rw [primaryKey, primaryKey, ← hR t t' ht]
    split
    · exact ⟨rfl, related_skip hR _ hts⟩
    · exact ⟨rfl, .cons ht hts⟩

theorem related_attributeTail {a a' : Attribute} (ha : AttributeRel R a a')
    (h : List.Forall₂ R ts ts') :
    LineRel R (AttributeRel R) (attributeTail a ts) (attributeTail a' ts') := by
  cases h with
  | nil => exact related_endLine hR ha _ .nil
  | @cons t t' ts ts' ht hts =>
    rw [attributeTail, attributeTail, ← hR t t' ht]
    split
    · have hread := related_reference hR t t' hts
      generalize reference t ts = r at hread ⊢
      generalize reference t' ts' = r' at hread ⊢
      cases hread with
      | ok hr hrest =>
        have ha' : AttributeRel R { a with reference := some _ } { a' with reference := some _ } :=
          ⟨ha.name, ha.type, ha.isPrimaryKey, .some hr⟩
        exact related_endLine hR ha' _ hrest
      | error hm => exact ⟨ha, .some hm, related_skipLine hR hm.rest⟩
    · exact related_endLine hR ha _ (.cons ht hts)

theorem related_attributeLine (h : List.Forall₂ R ts ts') :
    LineRel R (Option.Rel (AttributeRel R)) (attributeLine ts) (attributeLine ts') := by
  have hread := related_attributeHead hR h
  rw [attributeLine, attributeLine]
  generalize attributeHead ts = r at hread ⊢
  generalize attributeHead ts' = r' at hread ⊢
  cases hread with
  | error hm => exact ⟨.none, .some hm, related_skipLine hR hm.rest⟩
  | ok hnames hrest =>
    obtain ⟨hkey, hbehind⟩ := related_primaryKey hR (related_skip hR .space hrest)
    have ha : AttributeRel R ⟨_, _, _, none⟩ ⟨_, _, _, none⟩ :=
      ⟨hnames.1, hnames.2, hkey, .none⟩
    have hline := related_attributeTail hR ha hbehind
    exact ⟨.some hline.value, hline.mismatch, hline.rest⟩

/-- Lists of lines that give related attributes and mismatches. -/
structure LinesRel (R : Token → Token → Prop) (l l' : Lines Attribute) : Prop where
  values : List.Forall₂ (AttributeRel R) l.values l'.values
  mismatches : List.Forall₂ (MismatchRel R) l.mismatches l'.mismatches
  rest : List.Forall₂ R l.rest l'.rest

omit hR in
theorem forall₂_toList {U : α → β → Prop} {o : Option α} {o' : Option β}
    (h : Option.Rel U o o') : List.Forall₂ U o.toList o'.toList := by
  cases h with
  | none => exact .nil
  | some h => exact .cons h .nil

theorem related_attributes (h : List.Forall₂ R ts ts') :
    LinesRel R (attributes ts) (attributes ts') := by
  induction hn : ts.length using Nat.strong_induction_on generalizing ts ts' with
  | _ n ih =>
    cases h with
    | nil =>
      rw [attributes]
      exact ⟨.nil, .nil, .nil⟩
    | @cons t t' ts ts' ht hts =>
      rw [attributes, attributes, ← hR t t' ht]
      split
      · have hline := related_attributeLine hR hts
        have hlt : (attributeLine ts).rest.length < n := by
          rw [← hn]
          exact Nat.lt_succ_of_le (rest_attributeLine_suffix ts).length_le
        have hmore := ih _ hlt hline.rest rfl
        exact ⟨List.rel_append (forall₂_toList hline.value) hmore.values,
          List.rel_append (forall₂_toList hline.mismatch) hmore.mismatches, hmore.rest⟩
      · exact ⟨.nil, .nil, .cons ht hts⟩

theorem related_entityBody (h : List.Forall₂ R ts ts') :
    LinesRel R (entityBody ts) (entityBody ts') := by
  have hline : LineRel R (fun _ _ => True) (endLine () .entityEnd ts) (endLine () .entityEnd ts') :=
    related_endLine hR trivial .entityEnd h
  have hbody := related_attributes hR hline.rest
  exact ⟨hbody.values, List.rel_append (forall₂_toList hline.mismatch) hbody.mismatches,
    hbody.rest⟩

/-- **Tokens that are related one by one and agree in their kinds are read to schemas that are
related in the same way, with the same mismatches.** -/
theorem related_statements (h : List.Forall₂ R ts ts') :
    SchemaShape.Rel (NameRel R) (Schema.shape ⟨(statements ts).1⟩)
        (Schema.shape ⟨(statements ts').1⟩) ∧
      List.Forall₂ (MismatchRel R) (statements ts).2 (statements ts').2 := by
  induction hn : ts.length using Nat.strong_induction_on generalizing ts ts' with
  | _ n ih =>
    cases h with
    | nil =>
      rw [statements]
      exact ⟨.nil, .nil⟩
    | @cons t t' ts ts' ht hts =>
      rw [List.length_cons] at hn
      have hkind := hR t t' ht
      rw [statements, statements, ← hkind]
      split
      · obtain ⟨hstatements, hmismatches⟩ := ih _ (by omega) hts rfl
        exact ⟨.cons .empty hstatements, hmismatches⟩
      · rename_i hname
        have hbody := related_entityBody hR hts
        have hlt := (rest_entityBody_suffix ts).length_le
        obtain ⟨hstatements, hmismatches⟩ := ih _ (by omega) hbody.rest rfl
        refine ⟨.cons (.entity ?_ ?_) hstatements, List.rel_append hbody.mismatches hmismatches⟩
        · obtain ⟨kind, text, span⟩ := t
          obtain ⟨kind', text', span'⟩ := t'
          subst hname
          subst hkind
          exact ht
        · rw [List.forall₂_map_left_iff, List.forall₂_map_right_iff]
          exact hbody.values
      · have hlt := (skipLine_suffix ts).length_le
        obtain ⟨hstatements, hmismatches⟩ := ih _ (by omega) (related_skipLine hR hts) rfl
        exact ⟨hstatements, .cons ⟨rfl, .cons ht hts⟩ hmismatches⟩

end Parser

end EntitySchema
