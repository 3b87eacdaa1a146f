import EntitySchema.CommandLine
import EntitySchema.Proofs.Names
import EntitySchema.Proofs.Spelling

/-!
# Schemas as texts

A schema without places can be written as a text, up to some spaces that may stand or be left out.
Reading undoes this, and only what can be written is read without an error.

* `AttributeShape.render` — the line of an attribute, for a choice of the spaces.
* `RendersLines`, `Renders` — texts that write a list of attributes, and a schema.
* `rendersLines_of_trees`, `renders_of_tree`: derivations of tokens that may stand side by side write
  the schema they spell.
* `exists_trees_of_rendersLines`, `exists_tree_of_renders`: every text that writes a schema comes from
  such a derivation.
* `renders_of_errors_eq_nil`, `parse_of_renders`: reading and writing undo each other.
* **`parse_renders_iff`**: a text is read without an error, to a given schema, exactly if it writes
  this schema.
-/

namespace EntitySchema

/-- The text of a reference. -/
def ReferenceShape.render (r : ReferenceShape String) : String :=
  "-> " ++ r.targetEntity ++ "(" ++ r.targetAttribute ++ ")"

/-- The line of an attribute. The space behind the type has to stand if the primary key marker
follows; `behindType` and `behindKey` choose where spaces may be left out. -/
def AttributeShape.render (behindType behindKey : Bool) (a : AttributeShape String) : String :=
  "  " ++ a.name ++ " " ++ a.type ++ (if a.isPrimaryKey || behindType then " " else "") ++
    (if a.isPrimaryKey then primaryKeyWord ++ (if behindKey then " " else "") else "") ++
    (a.reference.map ReferenceShape.render).getD "" ++ "\n"

/-- The texts that write attributes, line by line. -/
inductive RendersLines : List (AttributeShape String) → String → Prop
  | nil : RendersLines [] ""
  | cons {a : AttributeShape String} {as : List (AttributeShape String)} {text : String}
      (behindType behindKey : Bool) (more : RendersLines as text) :
      RendersLines (a :: as) (a.render behindType behindKey ++ text)

/-- The texts that write a schema. -/
inductive Renders : SchemaShape String → String → Prop
  | nil : Renders [] ""
  | empty {s : SchemaShape String} {text : String} (more : Renders s text) :
      Renders (.empty :: s) ("\n" ++ text)
  | entity {name : String} {as : List (AttributeShape String)} {lines : String}
      {s : SchemaShape String} {text : String} (attributes : RendersLines as lines)
      (more : Renders s text) : Renders (.entity name as :: s) (name ++ "\n" ++ lines ++ text)

/-- Tokens that can be written down and lexed again, and end a line. -/
structure Legible (ts : List Token) : Prop where
  spelled : ∀ t ∈ ts, t.Spelled
  apart : ts.IsChain Token.Apart
  ended : ∀ t ∈ ts.getLast?, t.kind = .newline

theorem legible_nil : Legible [] := ⟨by simp, .nil, by simp⟩

theorem apart_of_left {a b : Token} (h : a.kind.isWord = false) : a.Apart b := by
  rintro ⟨ha, -⟩
  rw [h] at ha
  cases ha

theorem apart_of_right {a b : Token} (h : b.kind.isWord = false) : a.Apart b := by
  rintro ⟨-, hb⟩
  rw [h] at hb
  cases hb

theorem Legible.append {ts us : List Token} (ht : Legible ts) (hu : Legible us) :
    Legible (ts ++ us) := by
  refine ⟨?_, ?_, ?_⟩
  · intro t h
    rcases List.mem_append.1 h with h | h
    · exact ht.spelled t h
    · exact hu.spelled t h
  · refine List.isChain_append.2 ⟨ht.apart, hu.apart, fun t hlast u _ => apart_of_left ?_⟩
    rw [ht.ended t hlast]
    rfl
  · intro t hlast
    rw [List.getLast?_append] at hlast
    rcases Option.or_eq_some_iff.1 hlast with h | ⟨-, h⟩
    · exact hu.ended t h
    · exact ht.ended t h

theorem Leaf.text_eq {k : TokenKind} (x : Leaf k) (hk : k ≠ .identifier) (h : x.token.Spelled) :
    x.token.text = k.spelling := by
  rw [Token.text_of_spelled h (by rwa [x.kind_token]), x.kind_token]

/-- The names and marks of an attribute, without places. -/
def Attribute.plain (a : Attribute) : AttributeShape String := a.shape.map Identifier.name

theorem ReferenceTree.spell_tokens (r : ReferenceTree) (h : ∀ t ∈ r.tokens, t.Spelled) :
    spell r.tokens = (r.toReference.shape.map Identifier.name).render := by
  simp only [ReferenceTree.tokens, ReferenceTree.tail, List.mem_cons, List.not_mem_nil, or_false,
    forall_eq_or_imp, forall_eq] at h
  obtain ⟨hdash, hhead, hgap, -, hopening, -, hclosing⟩ := h
  simp only [ReferenceTree.tokens, ReferenceTree.tail, spell_cons, spell_nil,
    r.dash.text_eq (by decide) hdash, r.head.text_eq (by decide) hhead,
    r.gap.text_eq (by decide) hgap, r.opening.text_eq (by decide) hopening,
    r.closing.text_eq (by decide) hclosing]
  show "-" ++ (">" ++ (" " ++ (r.entity.token.text ++
      ("(" ++ (r.target.token.text ++ (")" ++ "")))))) =
    "-> " ++ r.entity.token.text ++ "(" ++ r.target.token.text ++ ")"
  simp [← String.append_assoc]

theorem spell_optionalToken (x : Option (Leaf .space)) (h : ∀ t ∈ optionalToken x, t.Spelled) :
    spell (optionalToken x) = if x.isSome then " " else "" := by
  cases x with
  | none => rfl
  | some x =>
    have hx := x.text_eq (by decide) (h x.token (by simp))
    rw [optionalToken_some, spell_cons, hx]
    rfl

theorem KeyTree.spell_tokens (k : KeyTree) (h : ∀ t ∈ k.tokens, t.Spelled) :
    spell k.tokens = primaryKeyWord ++ if k.gap.isSome then " " else "" := by
  have hkey := k.key.text_eq (by decide) (h k.key.token List.mem_cons_self)
  rw [KeyTree.tokens, spell_cons, hkey,
    spell_optionalToken k.gap fun t ht => h t (List.mem_cons_of_mem _ ht)]
  rfl

namespace AttributeTree

/-- Whether the marker of an attribute does not touch its type. -/
def Spaced (a : AttributeTree) : Prop := a.key.isSome → a.gap'.isSome

/-- Whether a space stands behind the marker. -/
def spaceBehindKey (a : AttributeTree) : Bool := a.key.any (·.gap.isSome)

theorem spell_tail (a : AttributeTree) (h : ∀ t ∈ a.tail, t.Spelled) (hspaced : a.Spaced) :
    spell a.tail = (if a.key.isSome || a.gap'.isSome then " " else "") ++
      ((if a.key.isSome then primaryKeyWord ++ (if a.spaceBehindKey then " " else "") else "") ++
        (((a.toAttribute.plain.reference.map ReferenceShape.render).getD "") ++ "\n")) := by
  have hgap := spell_optionalToken a.gap' fun t ht => h t (by simp [tail, ht])
  have hnewline := a.newline.text_eq (by decide) (h a.newline.token (by simp [tail]))
  have hkey : spell ((a.key.map KeyTree.tokens).getD []) =
      if a.key.isSome then primaryKeyWord ++ (if a.spaceBehindKey then " " else "") else "" := by
    rw [spaceBehindKey]
    cases hk : a.key with
    | none => rfl
    | some k => exact k.spell_tokens fun t ht => h t (by simp [tail, hk, ht])
  have hreference : spell ((a.reference.map ReferenceTree.tokens).getD []) =
      (a.toAttribute.plain.reference.map ReferenceShape.render).getD "" := by
    rw [toAttribute, Attribute.plain, Attribute.shape, AttributeShape.map]
    cases hr : a.reference with
    | none => rfl
    | some r => exact r.spell_tokens fun t ht => h t (by simp [tail, hr, ht])
  have hspace : (a.key.isSome || a.gap'.isSome) = a.gap'.isSome := by
    cases hk : a.key.isSome with
    | false => rfl
    | true => rw [hspaced hk, Bool.or_true]
  rw [tail, spell_append, spell_append, spell_append, spell_cons, spell_nil, hgap, hkey,
    hreference, hnewline, hspace]
  rfl

theorem spell_tokens (a : AttributeTree) (h : ∀ t ∈ a.tokens, t.Spelled) (hspaced : a.Spaced) :
    spell a.tokens = a.toAttribute.plain.render a.gap'.isSome a.spaceBehindKey := by
  have hindent := a.indent.text_eq (by decide) (h _ (by simp [tokens]))
  have hindent' := a.indent'.text_eq (by decide) (h _ (by simp [tokens, body]))
  have hgap := a.gap.text_eq (by decide) (h _ (by simp [tokens, body]))
  have htail := a.spell_tail (fun t ht => h t (by simp [tokens, body, ht])) hspaced
  rw [tokens, body, spell_cons, spell_cons, spell_cons, spell_cons, spell_cons, htail, hindent,
    hindent', hgap]
  have hkey : a.toAttribute.plain.isPrimaryKey = a.key.isSome := Option.isSome_map
  rw [AttributeShape.render, hkey]
  show " " ++ (" " ++ (a.name.token.text ++ (" " ++ (a.type.token.text ++ _)))) =
    "  " ++ a.name.token.text ++ " " ++ a.type.token.text ++ _ ++ _ ++ _ ++ _
  have hspaces : " " ++ " " = "  " := rfl
  rw [← hspaces]
  simp only [String.append_assoc]

/-- Words that may stand side by side leave room for the marker. -/
theorem spaced_of_isChain (a : AttributeTree) (h : a.tokens.IsChain Token.Apart) : a.Spaced := by
  intro hkey
  obtain ⟨k, hk⟩ := Option.isSome_iff_exists.1 hkey
  by_contra hgap
  rw [Option.not_isSome_iff_eq_none] at hgap
  simp only [tokens, body, tail, hk, hgap, optionalToken_none, List.nil_append, Option.map_some,
    Option.getD_some, KeyTree.tokens, List.cons_append, List.isChain_cons_cons] at h
  obtain ⟨-, -, -, -, htouch, -⟩ := h
  exact htouch ⟨by rw [a.type.kind_token]; rfl, by rw [k.key.kind_token]; rfl⟩

theorem isChain_tokens (a : AttributeTree) (h : a.Spaced) : a.tokens.IsChain Token.Apart := by
  obtain ⟨_, _, _, _, _, gap', key, reference, _⟩ := a
  have hkey : key = none ∨ gap'.isSome := by
    cases key with
    | none => exact .inl rfl
    | some k => exact .inr (h rfl)
  rcases gap' with _ | gap' <;> rcases key with _ | ⟨_, _ | _⟩ <;> rcases reference with _ | r <;>
    simp_all [tokens, body, tail, KeyTree.tokens, ReferenceTree.tokens, ReferenceTree.tail,
      Token.Apart, TokenKind.isWord]

theorem getLast?_tokens (a : AttributeTree) : a.tokens.getLast? = some a.newline.token := by
  have h : a.tokens = ([a.indent.token, a.indent'.token, a.name.token, a.gap.token, a.type.token] ++
      (optionalToken a.gap' ++ ((a.key.map KeyTree.tokens).getD [] ++
        (a.reference.map ReferenceTree.tokens).getD []))) ++ [a.newline.token] := by
    simp [tokens, body, tail]
  rw [h, List.getLast?_concat]

end AttributeTree

/-! ## Derivations write the schemas they spell -/

theorem rendersLines_of_trees {as : List AttributeTree}
    (h : ∀ t ∈ as.flatMap AttributeTree.tokens, t.Spelled)
    (hapart : (as.flatMap AttributeTree.tokens).IsChain Token.Apart) :
    RendersLines (as.map (·.toAttribute.plain)) (spell (as.flatMap AttributeTree.tokens)) := by
  induction as with
  | nil => exact .nil
  | cons a as ih =>
    rw [List.flatMap_cons] at h hapart ⊢
    have hspaced := a.spaced_of_isChain hapart.left_of_append
    have hline := a.spell_tokens (fun t ht => h t (List.mem_append_left _ ht)) hspaced
    rw [spell_append, hline]
    exact .cons _ _ (ih (fun t ht => h t (List.mem_append_right _ ht)) hapart.right_of_append)

theorem plain_entity (x : Leaf .identifier) (n : Leaf .newline) (as : List AttributeTree)
    (d : DocumentTree) : (DocumentTree.toSchema (.entity x n as :: d)).plain =
      .entity x.token.text (as.map (·.toAttribute.plain)) :: d.toSchema.plain := by
  have has : ((as.map AttributeTree.toAttribute).map Attribute.shape).map
      (AttributeShape.map Identifier.name) = as.map (·.toAttribute.plain) := by
    rw [List.map_map, List.map_map]
    rfl
  rw [← has]
  rfl

/-- **A derivation whose words may stand side by side writes the schema it spells.** -/
theorem renders_of_tree (d : DocumentTree) (h : ∀ t ∈ d.tokens, t.Spelled)
    (hapart : d.tokens.IsChain Token.Apart) : Renders d.toSchema.plain (spell d.tokens) := by
  induction d with
  | nil => exact .nil
  | cons s d ih =>
    rw [DocumentTree.tokens, List.flatMap_cons] at h hapart ⊢
    have hmore := ih (fun t ht => h t (List.mem_append_right _ ht)) hapart.right_of_append
    rw [spell_append]
    cases s with
    | empty n =>
      have hn := n.text_eq (by decide) (h n.token (by simp [StatementTree.tokens]))
      rw [StatementTree.tokens, spell_cons, spell_nil, String.append_empty, hn]
      exact .empty hmore
    | entity x n as =>
      have hn := n.text_eq (by decide) (h n.token (by simp [StatementTree.tokens]))
      rw [StatementTree.tokens, List.cons_append, List.cons_append, List.isChain_cons,
        List.isChain_cons] at hapart
      have has := rendersLines_of_trees
        (fun t ht => h t (List.mem_append_left _ (List.mem_cons_of_mem _ (List.mem_cons_of_mem _ ht))))
        hapart.2.2.left_of_append
      rw [plain_entity, StatementTree.tokens, spell_cons, spell_cons, hn, ← String.append_assoc]
      exact .entity has hmore

/-! ## Texts that write a schema have derivations -/

/-- A place that nothing depends on. -/
def nowhere : Span := ⟨.origin, .origin⟩

/-- A name at a leaf. -/
def Leaf.ofName (name : String) : Leaf .identifier := ⟨⟨.identifier, name, nowhere⟩, rfl⟩

/-- A token other than a name at a leaf. -/
def Leaf.ofKind (k : TokenKind) : Leaf k := ⟨⟨k, k.spelling, nowhere⟩, rfl⟩

theorem Leaf.spelled_ofName {name : String} (h : isIdentifier name) :
    (Leaf.ofName name).token.Spelled := by
  obtain ⟨c, cs, -, hspells⟩ := spells_identifier h nowhere
  exact ⟨.word c cs, hspells⟩

theorem Leaf.spelled_ofKind {k : TokenKind} (h : k ≠ .identifier) :
    (Leaf.ofKind k).token.Spelled := by
  cases k with
  | identifier => exact absurd rfl h
  | primaryKey =>
    have hwell : (Tile.word 'p' ['k']).WellFormed :=
      ⟨by decide, List.forall_mem_singleton.2 (by decide)⟩
    exact ⟨.word 'p' ['k'], hwell, rfl, rfl⟩
  | openParen => exact ⟨.symbol .openParen, trivial, rfl, rfl⟩
  | closeParen => exact ⟨.symbol .closeParen, trivial, rfl, rfl⟩
  | dash => exact ⟨.symbol .dash, trivial, rfl, rfl⟩
  | greater => exact ⟨.symbol .greater, trivial, rfl, rfl⟩
  | newline => exact ⟨.newline, trivial, rfl, rfl⟩
  | space => exact ⟨.space, trivial, rfl, rfl⟩

/-- A leaf that is there if `present` holds. -/
def Leaf.optional (k : TokenKind) (present : Bool) : Option (Leaf k) :=
  if present then some (.ofKind k) else none

/-- The derivation of a reference. -/
def ReferenceShape.tree (r : ReferenceShape String) : ReferenceTree where
  dash := .ofKind _
  head := .ofKind _
  gap := .ofKind _
  entity := .ofName r.targetEntity
  opening := .ofKind _
  target := .ofName r.targetAttribute
  closing := .ofKind _

/-- The derivation of an attribute line, for a choice of the spaces. -/
def AttributeShape.tree (behindType behindKey : Bool) (a : AttributeShape String) :
    AttributeTree where
  indent := .ofKind _
  indent' := .ofKind _
  name := .ofName a.name
  gap := .ofKind _
  type := .ofName a.type
  gap' := Leaf.optional _ (a.isPrimaryKey || behindType)
  key := if a.isPrimaryKey then some ⟨.ofKind _, Leaf.optional _ behindKey⟩ else none
  reference := a.reference.map ReferenceShape.tree
  newline := .ofKind _

theorem AttributeShape.plain_tree (behindType behindKey : Bool) (a : AttributeShape String) :
    (a.tree behindType behindKey).toAttribute.plain = a := by
  obtain ⟨name, type, _ | _, _ | r⟩ := a <;> rfl

theorem AttributeShape.render_tree (behindType behindKey : Bool) (a : AttributeShape String) :
    a.render (a.tree behindType behindKey).gap'.isSome
      (a.tree behindType behindKey).spaceBehindKey = a.render behindType behindKey := by
  obtain ⟨name, type, _ | _, reference⟩ := a <;> cases behindType <;> cases behindKey <;> rfl

theorem AttributeShape.spaced_tree (behindType behindKey : Bool) (a : AttributeShape String) :
    (a.tree behindType behindKey).Spaced := by
  obtain ⟨name, type, _ | _, reference⟩ := a
  · exact nofun
  · exact fun _ => rfl

theorem spelled_optional {k : TokenKind} (h : k ≠ .identifier) {present : Bool} {t : Token}
    (ht : t ∈ optionalToken (Leaf.optional k present)) : t.Spelled := by
  cases present with
  | false => cases ht
  | true =>
    rw [List.mem_singleton.1 ht]
    exact Leaf.spelled_ofKind h

theorem ReferenceShape.spelled_tree {r : ReferenceShape String}
    (h : ∀ n ∈ r.names, isIdentifier n) : ∀ t ∈ r.tree.tokens, t.Spelled := by
  have hentity := Leaf.spelled_ofName (h r.targetEntity (by simp [names]))
  have htarget := Leaf.spelled_ofName (h r.targetAttribute (by simp [names]))
  simp [ReferenceTree.tokens, ReferenceTree.tail, tree, hentity, htarget, Leaf.spelled_ofKind]

theorem AttributeShape.spelled_tree (behindType behindKey : Bool) {a : AttributeShape String}
    (h : ∀ n ∈ a.names, isIdentifier n) :
    ∀ t ∈ (a.tree behindType behindKey).tokens, t.Spelled := by
  have hname := Leaf.spelled_ofName (h a.name (by simp [names]))
  have htype := Leaf.spelled_ofName (h a.type (by simp [names]))
  have hreference : ∀ t ∈ ((a.reference.map ReferenceShape.tree).map ReferenceTree.tokens).getD [],
      t.Spelled := by
    cases hr : a.reference with
    | none => simp
    | some r => exact r.spelled_tree fun n hn => h n (by simp [names, hr, hn])
  have hkey : ∀ t ∈ ((a.tree behindType behindKey).key.map KeyTree.tokens).getD [],
      t.Spelled := by
    rw [tree]
    cases a.isPrimaryKey with
    | false => simp
    | true =>
      intro t ht
      rcases List.mem_cons.1 ht with rfl | ht
      · exact Leaf.spelled_ofKind (by decide)
      · exact spelled_optional (by decide) ht
  intro t ht
  simp only [AttributeTree.tokens, AttributeTree.body, AttributeTree.tail, List.mem_cons,
    List.mem_append, List.not_mem_nil, or_false] at ht
  rcases ht with rfl | rfl | rfl | rfl | rfl | ht | ht | ht | rfl
  · exact Leaf.spelled_ofKind (by decide)
  · exact Leaf.spelled_ofKind (by decide)
  · exact hname
  · exact Leaf.spelled_ofKind (by decide)
  · exact htype
  · exact spelled_optional (by decide) ht
  · exact hkey t ht
  · exact hreference t ht
  · exact Leaf.spelled_ofKind (by decide)

theorem AttributeShape.legible_tree (behindType behindKey : Bool) {a : AttributeShape String}
    (h : ∀ n ∈ a.names, isIdentifier n) : Legible (a.tree behindType behindKey).tokens := by
  refine ⟨a.spelled_tree behindType behindKey h,
    (a.tree behindType behindKey).isChain_tokens (a.spaced_tree behindType behindKey), ?_⟩
  intro t ht
  rw [AttributeTree.getLast?_tokens] at ht
  cases ht
  exact Leaf.kind_token _

theorem exists_trees_of_rendersLines {as : List (AttributeShape String)} {text : String}
    (h : RendersLines as text) (hnames : ∀ a ∈ as, ∀ n ∈ a.names, isIdentifier n) :
    ∃ trees : List AttributeTree, Legible (trees.flatMap AttributeTree.tokens) ∧
      trees.map (·.toAttribute.plain) = as ∧ spell (trees.flatMap AttributeTree.tokens) = text := by
  induction h with
  | nil => exact ⟨[], legible_nil, rfl, rfl⟩
  | @cons a as text behindType behindKey _ ih =>
    obtain ⟨trees, hlegible, hplain, hspell⟩ := ih fun a ha => hnames a (List.mem_cons_of_mem _ ha)
    have ha := a.legible_tree behindType behindKey (hnames a List.mem_cons_self)
    have hline := (a.tree behindType behindKey).spell_tokens ha.spelled
      (a.spaced_tree behindType behindKey)
    rw [AttributeShape.plain_tree, AttributeShape.render_tree] at hline
    refine ⟨a.tree behindType behindKey :: trees, ha.append hlegible, ?_, ?_⟩
    · rw [List.map_cons, AttributeShape.plain_tree, hplain]
    · rw [List.flatMap_cons, spell_append, hline, hspell]

/-- **A text that writes a schema has a derivation.** -/
theorem exists_tree_of_renders {s : SchemaShape String} {text : String} (h : Renders s text)
    (hnames : ∀ n ∈ s.names, isIdentifier n) :
    ∃ d : DocumentTree, Legible d.tokens ∧ d.toSchema.plain = s ∧ spell d.tokens = text := by
  induction h with
  | nil => exact ⟨[], legible_nil, rfl, rfl⟩
  | empty _ ih =>
    obtain ⟨d, hlegible, hplain, hspell⟩ := ih hnames
    have hn : Legible [(Leaf.ofKind .newline).token] :=
      ⟨by simp [Leaf.spelled_ofKind], .singleton _, by simp⟩
    refine ⟨.empty (.ofKind _) :: d, hn.append hlegible, ?_, ?_⟩
    · rw [← hplain]
      rfl
    · rw [← hspell]
      exact spell_cons _ _
  | @entity name as lines s text hlines _ ih =>
    rw [SchemaShape.names, List.flatMap_cons, List.forall_mem_append] at hnames
    obtain ⟨hentity, hmore⟩ := hnames
    rw [StatementShape.names, List.forall_mem_cons] at hentity
    obtain ⟨hname, hattributes⟩ := hentity
    obtain ⟨d, hlegible, hplain, hspell⟩ := ih hmore
    obtain ⟨trees, htrees, hshapes, hlines⟩ := exists_trees_of_rendersLines hlines
      fun a ha n hn => hattributes n (List.mem_flatMap.2 ⟨a, ha, hn⟩)
    have hhead : Legible [(Leaf.ofName name).token, (Leaf.ofKind .newline).token] := by
      refine ⟨by simp [Leaf.spelled_ofName hname, Leaf.spelled_ofKind], ?_, by simp⟩
      exact List.isChain_pair.2 (apart_of_right (by simp [TokenKind.isWord]))
    refine ⟨.entity (.ofName name) (.ofKind _) trees :: d, (hhead.append htrees).append hlegible,
      ?_, ?_⟩
    · rw [plain_entity, hshapes, hplain]
      rfl
    · show spell ([(Leaf.ofName name).token, (Leaf.ofKind .newline).token] ++
        trees.flatMap AttributeTree.tokens ++ d.tokens) = _
      have hname : spell [(Leaf.ofName name).token, (Leaf.ofKind .newline).token] = name ++ "\n" := by
        rw [spell_cons, spell_cons, spell_nil, String.append_empty]
        rfl
      rw [spell_append, spell_append, hname, hlines, hspell]

/-! ## Reading and writing -/

theorem isIdentifier_of_mem_names (text : String) :
    ∀ n ∈ (parse text).schema.plain.names, isIdentifier n := by
  intro n hn
  rw [Schema.plain, SchemaShape.names_map] at hn
  obtain ⟨i, hi, rfl⟩ := List.mem_map.1 hn
  have hmem : i.token ∈ (lex text).tokens :=
    (uses_lex text).sublist.subset (List.mem_map_of_mem hi)
  exact Token.isIdentifier_of_spelled (spelled_of_mem_lex hmem) rfl

/-- Tokens of the same kinds and texts give schemas that agree up to places. -/
theorem plain_parseTokens {ts ts' : List Token} (h : List.Forall₂ Token.SameWord ts ts') :
    (parseTokens ts).schema.plain = (parseTokens ts').schema.plain ∧
      ((parseTokens ts).errors = [] → (parseTokens ts').errors = []) := by
  obtain ⟨hstatements, hmismatches⟩ := Parser.related_statements (fun _ _ h => h.1) h
  constructor
  · exact hstatements.map_eq fun i i' hi => hi.2
  · intro herrors
    have hnone := List.map_eq_nil_iff.1 herrors
    rw [hnone, List.forall₂_nil_left_iff] at hmismatches
    exact List.map_eq_nil_iff.2 hmismatches

theorem renders_of_errors_eq_nil {text : String} (h : (parse text).errors = []) :
    Renders (parse text).schema.plain text := by
  obtain ⟨hapart, hspell⟩ := spell_lex (List.append_eq_nil_iff.1 h).1
  obtain ⟨d, hd, hschema⟩ := exists_derivation h
  have hrenders := renders_of_tree d (fun t ht => spelled_of_mem_lex (hd ▸ ht)) (hd ▸ hapart)
  rw [hd, hspell] at hrenders
  rwa [hschema]

theorem parse_of_renders {s : SchemaShape String} {text : String}
    (hnames : ∀ n ∈ s.names, isIdentifier n) (h : Renders s text) :
    (parse text).errors = [] ∧ (parse text).schema.plain = s := by
  obtain ⟨d, hlegible, rfl, rfl⟩ := exists_tree_of_renders h hnames
  obtain ⟨htokens, hlex⟩ := lex_spell hlegible.spelled hlegible.apart
  obtain ⟨hplain, herrors⟩ := plain_parseTokens htokens
  rw [parseTokens_documentTree] at hplain herrors
  refine ⟨?_, hplain.symm⟩
  rw [parse, hlex, herrors rfl]
  rfl

theorem severity_errors (text : String) : ∀ d ∈ (parse text).errors, d.severity = .error := by
  intro d hd
  rcases List.mem_append.1 hd with hd | hd
  · obtain ⟨⟨tile, span⟩, -, hp⟩ := List.mem_filterMap.1 hd
    cases tile with
    | stray c cs =>
      cases hp
      rfl
    | _ => cases hp
  · obtain ⟨m, -, rfl⟩ := List.mem_map.1 hd
    rfl

theorem haveErrors_errors (text : String) :
    Diagnostic.haveErrors (parse text).errors = false ↔ (parse text).errors = [] := by
  rw [Diagnostic.haveErrors, List.any_eq_false]
  constructor
  · intro h
    refine List.eq_nil_iff_forall_not_mem.2 fun d hd => h d hd ?_
    rw [severity_errors text d hd]
    rfl
  · intro h
    rw [h]
    exact nofun

/-- Warnings do not count as errors. -/
theorem haveErrors_diagnostics (p : Parsed) :
    Diagnostic.haveErrors p.diagnostics = Diagnostic.haveErrors p.errors := by
  have hwarnings : (p.schema.warnings.map Warning.diagnostic).any (·.severity == .error) = false := by
    rw [List.any_map, List.any_eq_false]
    exact fun _ _ => nofun
  rw [Parsed.diagnostics, Diagnostic.haveErrors, List.any_append, hwarnings, Bool.or_false]
  rfl

theorem code_report (stdout path : String) (ds : List Diagnostic) :
    (Outcome.report stdout path ds).code = 0 ↔ Diagnostic.haveErrors ds = false := by
  rw [Outcome.report]
  cases Diagnostic.haveErrors ds <;> simp

theorem runCommandLine_onFile {read : String → Option ByteArray} {path text name : String}
    (action : Action) (hread : read path = some text.toUTF8)
    (hname : Command.ofArguments [name, path] = .ok (.onFile action path)) :
    runCommandLine read [name, path] = action.run path text := by
  have htext : String.fromUTF8? text.toUTF8 = some text := dif_pos text.isValidUTF8
  rw [runCommandLine, hname]
  simp only [Command.run, hread, htext]

/-- **A text is read without an error, to a given schema, exactly if it writes this schema.** -/
theorem parse_renders_iff (text : String) (s : SchemaShape String) :
    ((parse text).errors = [] ∧ (parse text).schema.plain = s ↔
        (∀ n ∈ s.names, isIdentifier n) ∧ Renders s text) ∧
      ((parse text).errors = [] ↔ Diagnostic.haveErrors (parse text).diagnostics = false) ∧
      ∀ (read : String → Option ByteArray) (path : String), read path = some text.toUTF8 →
        ((runCommandLine read ["parse", path]).code = 0 ↔ (parse text).errors = []) ∧
          ((runCommandLine read ["check", path]).code = 0 ↔ (parse text).errors = []) := by
  refine ⟨⟨?_, ?_⟩, ?_, ?_⟩
  · rintro ⟨herrors, rfl⟩
    exact ⟨isIdentifier_of_mem_names text, renders_of_errors_eq_nil herrors⟩
  · rintro ⟨hnames, hrenders⟩
    exact parse_of_renders hnames hrenders
  · rw [haveErrors_diagnostics, haveErrors_errors]
  · intro read path hread
    constructor
    · rw [runCommandLine_onFile .parse hread rfl]
      exact (code_report _ _ _).trans (haveErrors_errors text)
    · rw [runCommandLine_onFile .check hread rfl]
      refine (code_report _ _ _).trans ?_
      rw [haveErrors_diagnostics, haveErrors_errors]

end EntitySchema
