import EntitySchema.Schema.Parser
import Mathlib.Computability.Language

/-!
# The grammar of schema documents

The grammar is a language over the kinds of token. A derivation keeps the tokens at its leaves, so
that a schema can be read off it.

* `Grammar.attributeLine`, `Grammar.entity`, `Grammar.document` — the productions.
* `Leaf`, `ReferenceTree`, `KeyTree`, `AttributeTree`, `StatementTree`, `DocumentTree` —
  derivations, with their tokens and the part of a schema that each of them spells.
* `derives_document`: the words of the grammar are the kinds of the tokens of derivations.
* `attributeLine_tokens`, `exists_attributeTree`: an attribute line is read without a mismatch
  exactly if it has a derivation; `statements_tokens`, `exists_documentTree`: the same for documents.
* **`parseTokens_accepts_grammar`**: exactly the words of the grammar are read without an error, and
  their schema is the one that the derivation spells.
-/

namespace EntitySchema

open Computability

namespace Grammar

/-- The word of one token. -/
def one (k : TokenKind) : Language TokenKind := {[k]}

/-- What may be left out. -/
def maybe (l : Language TokenKind) : Language TokenKind := 1 + l

/-- The primary key marker. -/
def key : Language TokenKind := one .primaryKey * maybe (one .space)

/-- A reference `-> entity(attribute)`. -/
def reference : Language TokenKind :=
  one .dash * (one .greater * (one .space * (one .identifier * (one .openParen *
    (one .identifier * one .closeParen)))))

/-- The line of an attribute. -/
def attributeLine : Language TokenKind :=
  one .space * (one .space * (one .identifier * (one .space * (one .identifier *
    (maybe (one .space) * (maybe key * (maybe reference * one .newline)))))))

/-- An entity with its attributes. -/
def entity : Language TokenKind := one .identifier * (one .newline * attributeLine∗)

/-- A whole document. -/
def document : Language TokenKind := (one .newline + entity)∗

end Grammar

/-! ## Derivations -/

/-- A token of kind `k`, at a leaf of a derivation. -/
structure Leaf (k : TokenKind) where
  token : Token
  kind_token : token.kind = k

attribute [simp] Leaf.kind_token

/-- The name that a leaf spells. -/
def Leaf.identifier (x : Leaf .identifier) : Identifier := x.token.identifier

/-- The token of a leaf that may be missing. -/
def optionalToken {k : TokenKind} (x : Option (Leaf k)) : List Token := (x.map Leaf.token).toList

@[simp] theorem optionalToken_none {k : TokenKind} : optionalToken (none : Option (Leaf k)) = [] :=
  rfl

@[simp] theorem optionalToken_some {k : TokenKind} (x : Leaf k) :
    optionalToken (some x) = [x.token] := rfl

/-- A derivation of a reference. -/
structure ReferenceTree where
  dash : Leaf .dash
  head : Leaf .greater
  gap : Leaf .space
  entity : Leaf .identifier
  opening : Leaf .openParen
  target : Leaf .identifier
  closing : Leaf .closeParen

namespace ReferenceTree

/-- The tokens behind the dash. -/
def tail (r : ReferenceTree) : List Token :=
  [r.head.token, r.gap.token, r.entity.token, r.opening.token, r.target.token, r.closing.token]

def tokens (r : ReferenceTree) : List Token := r.dash.token :: r.tail

def toReference (r : ReferenceTree) : Reference where
  arrow := r.dash.token.span.merge r.head.token.span
  targetEntity := r.entity.identifier
  targetAttribute := r.target.identifier
  span := (r.dash.token.span.merge r.head.token.span).merge r.closing.token.span

end ReferenceTree

/-- A derivation of a primary key marker. -/
structure KeyTree where
  key : Leaf .primaryKey
  gap : Option (Leaf .space)

def KeyTree.tokens (k : KeyTree) : List Token := k.key.token :: optionalToken k.gap

/-- A derivation of an attribute line. -/
structure AttributeTree where
  indent : Leaf .space
  indent' : Leaf .space
  name : Leaf .identifier
  gap : Leaf .space
  type : Leaf .identifier
  gap' : Option (Leaf .space)
  key : Option KeyTree
  reference : Option ReferenceTree
  newline : Leaf .newline

namespace AttributeTree

/-- The tokens behind the type. -/
def tail (a : AttributeTree) : List Token :=
  optionalToken a.gap' ++ ((a.key.map KeyTree.tokens).getD [] ++
    ((a.reference.map ReferenceTree.tokens).getD [] ++ [a.newline.token]))

/-- The tokens of a line behind its first space. -/
def body (a : AttributeTree) : List Token :=
  a.indent'.token :: a.name.token :: a.gap.token :: a.type.token :: a.tail

def tokens (a : AttributeTree) : List Token := a.indent.token :: a.body

def toAttribute (a : AttributeTree) : Attribute where
  name := a.name.identifier
  type := a.type.identifier
  primaryKey := a.key.map (·.key.token.span)
  reference := a.reference.map ReferenceTree.toReference

end AttributeTree

/-- A derivation of a statement. -/
inductive StatementTree where
  | empty (newline : Leaf .newline)
  | entity (name : Leaf .identifier) (newline : Leaf .newline) (attributes : List AttributeTree)

namespace StatementTree

def tokens : StatementTree → List Token
  | empty n => [n.token]
  | entity x n as => x.token :: n.token :: as.flatMap AttributeTree.tokens

def toStatement : StatementTree → Statement
  | empty n => .empty n.token.span
  | entity x _ as => .entity ⟨x.identifier, as.map AttributeTree.toAttribute⟩

end StatementTree

/-- A derivation of a document. -/
abbrev DocumentTree := List StatementTree

namespace DocumentTree

def tokens (d : DocumentTree) : List Token := d.flatMap StatementTree.tokens

/-- The schema that a derivation spells. -/
def toSchema (d : DocumentTree) : Schema := ⟨d.map StatementTree.toStatement⟩

end DocumentTree

/-! ## Words of the grammar are tokens of derivations -/

section Derives

variable {α β : Type} {l m : Language TokenKind} {f : α → List Token} {g : β → List Token}

/-- The words of `l` are the kinds of the tokens that `f` lists. -/
def Derives (l : Language TokenKind) (f : α → List Token) : Prop :=
  ∀ ts : List Token, ts.map Token.kind ∈ l ↔ ∃ a, f a = ts

theorem derives_one (k : TokenKind) :
    Derives (Grammar.one k) fun x : Leaf k => [x.token] := by
  intro ts
  constructor
  · intro h
    obtain ⟨t, rfl, ht⟩ := List.map_eq_singleton_iff.1 h
    exact ⟨⟨t, ht⟩, rfl⟩
  · rintro ⟨x, rfl⟩
    show [x.token.kind] ∈ ({[k]} : Set (List TokenKind))
    rw [x.kind_token]
    rfl

theorem Derives.mul (hf : Derives l f) (hg : Derives m g) :
    Derives (l * m) fun p : α × β => f p.1 ++ g p.2 := by
  intro ts
  rw [Language.mem_mul]
  constructor
  · rintro ⟨u, hu, v, hv, huv⟩
    obtain ⟨us, vs, rfl, rfl, rfl⟩ := List.map_eq_append_iff.1 huv.symm
    obtain ⟨a, rfl⟩ := (hf us).1 hu
    obtain ⟨b, rfl⟩ := (hg vs).1 hv
    exact ⟨(a, b), rfl⟩
  · rintro ⟨⟨a, b⟩, rfl⟩
    exact ⟨_, (hf _).2 ⟨a, rfl⟩, _, (hg _).2 ⟨b, rfl⟩, List.map_append.symm⟩

theorem Derives.maybe (hf : Derives l f) :
    Derives (Grammar.maybe l) fun o : Option α => (o.map f).getD [] := by
  intro ts
  rw [Grammar.maybe, Language.mem_add, Language.mem_one, List.map_eq_nil_iff, hf ts]
  constructor
  · rintro (rfl | ⟨a, rfl⟩)
    · exact ⟨none, rfl⟩
    · exact ⟨some a, rfl⟩
  · rintro ⟨_ | a, rfl⟩
    · exact .inl rfl
    · exact .inr ⟨a, rfl⟩

theorem Derives.add (hf : Derives l f) (hg : Derives m g) :
    Derives (l + m) (Sum.elim f g) := by
  intro ts
  rw [Language.mem_add, hf ts, hg ts, Sum.exists]
  rfl

theorem Derives.kstar (hf : Derives l f) :
    Derives l∗ fun as : List α => as.flatMap f := by
  intro ts
  rw [Language.mem_kstar]
  constructor
  · rintro ⟨words, hts, hwords⟩
    induction words generalizing ts with
    | nil => exact ⟨[], (List.map_eq_nil_iff.1 hts).symm⟩
    | cons w words ih =>
      obtain ⟨us, vs, rfl, rfl, hvs⟩ := List.map_eq_append_iff.1 hts
      obtain ⟨a, rfl⟩ := (hf us).1 (hwords _ List.mem_cons_self)
      obtain ⟨as, rfl⟩ := ih vs hvs fun w hw => hwords w (List.mem_cons_of_mem _ hw)
      exact ⟨a :: as, rfl⟩
  · rintro ⟨as, rfl⟩
    refine ⟨as.map fun a => (f a).map Token.kind, ?_, ?_⟩
    · rw [List.map_flatMap, List.flatMap]
    · intro w hw
      obtain ⟨a, -, rfl⟩ := List.mem_map.1 hw
      exact (hf _).2 ⟨a, rfl⟩

theorem Derives.congr (hf : Derives l f) (e : α → β) (he : Function.Surjective e)
    (hg : ∀ a, g (e a) = f a) : Derives l g := by
  intro ts
  rw [hf ts, he.exists]
  exact exists_congr fun a => by rw [hg a]

end Derives

theorem derives_key : Derives Grammar.key KeyTree.tokens := by
  refine ((derives_one _).mul (derives_one _).maybe).congr (fun p => ⟨p.1, p.2⟩)
    (fun k => ⟨(k.key, k.gap), rfl⟩) ?_
  rintro ⟨key, _ | gap⟩ <;> rfl

theorem derives_reference : Derives Grammar.reference ReferenceTree.tokens :=
  ((derives_one _).mul ((derives_one _).mul ((derives_one _).mul ((derives_one _).mul
    ((derives_one _).mul ((derives_one _).mul (derives_one _))))))).congr
      (fun p => ⟨p.1, p.2.1, p.2.2.1, p.2.2.2.1, p.2.2.2.2.1, p.2.2.2.2.2.1, p.2.2.2.2.2.2⟩)
      (fun r => ⟨(r.dash, r.head, r.gap, r.entity, r.opening, r.target, r.closing), rfl⟩)
      (fun _ => rfl)

theorem derives_attribute : Derives Grammar.attributeLine AttributeTree.tokens := by
  refine ((derives_one _).mul ((derives_one _).mul ((derives_one _).mul ((derives_one _).mul
    ((derives_one _).mul ((derives_one _).maybe.mul (derives_key.maybe.mul
      (derives_reference.maybe.mul (derives_one _))))))))).congr
      (fun p => ⟨p.1, p.2.1, p.2.2.1, p.2.2.2.1, p.2.2.2.2.1, p.2.2.2.2.2.1, p.2.2.2.2.2.2.1,
        p.2.2.2.2.2.2.2.1, p.2.2.2.2.2.2.2.2⟩)
      (fun a => ⟨(a.indent, a.indent', a.name, a.gap, a.type, a.gap', a.key, a.reference,
        a.newline), rfl⟩) ?_
  rintro ⟨_, _, _, _, _, _ | _, _⟩ <;> rfl

theorem derives_statement :
    Derives (Grammar.one .newline + Grammar.entity) StatementTree.tokens := by
  refine ((derives_one _).add ((derives_one _).mul
    ((derives_one _).mul derives_attribute.kstar))).congr
      (Sum.elim StatementTree.empty fun p => .entity p.1 p.2.1 p.2.2) ?_ ?_
  · rintro (n | ⟨x, n, as⟩)
    · exact ⟨.inl n, rfl⟩
    · exact ⟨.inr (x, n, as), rfl⟩
  · rintro (_ | _) <;> rfl

/-- **The words of the grammar are the kinds of the tokens of derivations.** -/
theorem derives_document : Derives Grammar.document DocumentTree.tokens := derives_statement.kstar

namespace Parser

/-! ## Derivations are read without a mismatch -/

section Complete

variable {k : TokenKind}

@[simp] theorem expect_leaf (x : Leaf k) (e : Expectation) (rest : List Token) :
    expect k e (x.token :: rest) = .ok (x.token, rest) := by
  simp [expect]

@[simp] theorem expectName_leaf (x : Leaf .identifier) (e : Expectation) (rest : List Token) :
    expectName e (x.token :: rest) = .ok (x.identifier, rest) := by
  rw [expectName, expect_leaf]
  rfl

@[simp] theorem skip_leaf (x : Leaf k) (rest : List Token) : skip k (x.token :: rest) = rest := by
  simp [skip]

theorem skip_of_kind_ne {t : Token} (h : t.kind ≠ k) (rest : List Token) :
    skip k (t :: rest) = t :: rest := by
  simp [skip, h]

@[simp] theorem endLine_leaf {α : Type} (value : α) (e : Expectation) (x : Leaf .newline)
    (rest : List Token) : endLine value e (x.token :: rest) = ⟨value, none, rest⟩ := by
  simp only [endLine, expect_leaf, recover]

theorem reference_tail (r : ReferenceTree) (rest : List Token) :
    reference r.dash.token (r.tail ++ rest) = .ok (r.toReference, rest) := by
  simp only [reference, ReferenceTree.tail, List.cons_append, List.nil_append, expect_leaf,
    expectName_leaf, bind, Except.bind, pure, Except.pure]
  rfl

theorem attributeHead_tokens (s : Leaf .space) (name : Leaf .identifier) (gap : Leaf .space)
    (type : Leaf .identifier) (rest : List Token) :
    attributeHead (s.token :: name.token :: gap.token :: type.token :: rest) =
      .ok ((name.identifier, type.identifier), rest) := by
  simp only [attributeHead, expect_leaf, expectName_leaf, bind, Except.bind, pure, Except.pure]

theorem attributeTail_reference (a : Attribute) (r : ReferenceTree) (n : Leaf .newline)
    (rest : List Token) :
    attributeTail a (r.tokens ++ n.token :: rest) =
      ⟨{ a with reference := some r.toReference }, none, rest⟩ := by
  rw [ReferenceTree.tokens, List.cons_append, attributeTail, if_pos r.dash.kind_token,
    reference_tail]
  exact endLine_leaf _ _ n rest

theorem attributeTail_newline (a : Attribute) (n : Leaf .newline) (rest : List Token) :
    attributeTail a (n.token :: rest) = ⟨a, none, rest⟩ := by
  rw [attributeTail, if_neg (by simp)]
  exact endLine_leaf _ _ n rest

theorem attributeTail_tokens (a : Attribute) (h : a.reference = none) (r : Option ReferenceTree)
    (n : Leaf .newline) (rest : List Token) :
    attributeTail a ((r.map ReferenceTree.tokens).getD [] ++ n.token :: rest) =
      ⟨{ a with reference := r.map ReferenceTree.toReference }, none, rest⟩ := by
  cases r with
  | none =>
    obtain ⟨name, type, key, reference⟩ := a
    subst h
    exact attributeTail_newline _ n rest
  | some r => exact attributeTail_reference a r n rest

/-- What may stand behind a marker is not one itself, and does not start with a space. -/
theorem head_reference_newline (r : Option ReferenceTree) (n : Leaf .newline)
    (rest : List Token) : ∃ t ts, (r.map ReferenceTree.tokens).getD [] ++ n.token :: rest = t :: ts ∧
      t.kind ≠ .space ∧ t.kind ≠ .primaryKey := by
  cases r with
  | none => exact ⟨n.token, rest, rfl, by simp, by simp⟩
  | some r => exact ⟨r.dash.token, r.tail ++ n.token :: rest, rfl, by simp, by simp⟩

theorem primaryKey_tokens (key : Option KeyTree) {t : Token} {ts : List Token}
    (hs : t.kind ≠ .space) (hk : t.kind ≠ .primaryKey) :
    primaryKey ((key.map KeyTree.tokens).getD [] ++ t :: ts) =
      (key.map (·.key.token.span), t :: ts) := by
  rcases key with _ | ⟨key, _ | gap⟩
  · simp [primaryKey, hk]
  · simp [primaryKey, KeyTree.tokens, skip_of_kind_ne hs]
  · simp [primaryKey, KeyTree.tokens]

theorem skip_gap (gap : Option (Leaf .space)) (key : Option KeyTree) {t : Token} {ts : List Token}
    (hs : t.kind ≠ .space) :
    skip .space (optionalToken gap ++ ((key.map KeyTree.tokens).getD [] ++ t :: ts)) =
      (key.map KeyTree.tokens).getD [] ++ t :: ts := by
  cases gap with
  | some gap => exact skip_leaf gap _
  | none =>
    cases key with
    | none => exact skip_of_kind_ne hs ts
    | some key => exact skip_of_kind_ne (by simp) _

theorem attributeLine_tokens (a : AttributeTree) (rest : List Token) :
    attributeLine (a.body ++ rest) = ⟨some a.toAttribute, none, rest⟩ := by
  obtain ⟨t, ts, h, hs, hk⟩ := head_reference_newline a.reference a.newline rest
  have htail : a.tail ++ rest =
      optionalToken a.gap' ++ ((a.key.map KeyTree.tokens).getD [] ++ t :: ts) := by
    rw [AttributeTree.tail, ← h]
    simp
  rw [attributeLine, AttributeTree.body]
  simp only [List.cons_append, attributeHead_tokens, recover]
  rw [htail, skip_gap a.gap' a.key hs, primaryKey_tokens a.key hs hk, ← h,
    attributeTail_tokens _ rfl]
  rfl

theorem attributes_tokens (as : List AttributeTree) {rest : List Token}
    (hrest : ∀ t ∈ rest.head?, t.kind ≠ .space) :
    attributes (as.flatMap AttributeTree.tokens ++ rest) =
      ⟨as.map AttributeTree.toAttribute, [], rest⟩ := by
  induction as with
  | nil =>
    cases rest with
    | nil => simp [attributes]
    | cons t ts => simp [attributes, hrest t rfl]
  | cons a as ih =>
    rw [List.flatMap_cons, AttributeTree.tokens, List.append_assoc, List.cons_append, attributes,
      if_pos a.indent.kind_token, attributeLine_tokens]
    simp only [ih]
    rfl

theorem kind_head_tokens_ne_space (d : DocumentTree) :
    ∀ t ∈ d.tokens.head?, t.kind ≠ .space := by
  intro t ht
  rcases d with _ | ⟨n | ⟨x, n, as⟩, d⟩
  · cases ht
  · cases ht
    simp
  · cases ht
    simp

theorem statements_entity (x : Leaf .identifier) (n : Leaf .newline) (as : List AttributeTree)
    {rest : List Token} (hrest : ∀ t ∈ rest.head?, t.kind ≠ .space) :
    statements ((StatementTree.entity x n as).tokens ++ rest) =
      (.entity ⟨x.identifier, as.map AttributeTree.toAttribute⟩ :: (statements rest).1,
        (statements rest).2) := by
  have hbody : entityBody (n.token :: (as.flatMap AttributeTree.tokens ++ rest)) =
      ⟨as.map AttributeTree.toAttribute, [], rest⟩ := by
    rw [entityBody, endLine_leaf, attributes_tokens as hrest]
    rfl
  simp only [StatementTree.tokens, List.cons_append, statements, x.kind_token]
  rw [hbody]
  rfl

/-- **A derivation of a document is read to its end.** -/
theorem statements_tokens (d : DocumentTree) :
    statements d.tokens = (d.map StatementTree.toStatement, []) := by
  induction d with
  | nil => simp [DocumentTree.tokens, statements]
  | cons s d ih =>
    show statements (s.tokens ++ DocumentTree.tokens d) = _
    cases s with
    | empty n =>
      simp only [StatementTree.tokens, List.cons_append, List.nil_append, statements,
        n.kind_token, ih]
      rfl
    | entity x n as =>
      rw [statements_entity x n as (kind_head_tokens_ne_space d), ih]
      rfl

end Complete

/-! ## What is read without a mismatch has a derivation -/

section Sound

variable {k : TokenKind} {e : Expectation} {ts rest : List Token}

theorem bind_eq_ok {α β : Type} {x : Except Mismatch α} {f : α → Except Mismatch β} {b : β} :
    (x >>= f) = .ok b ↔ ∃ a, x = .ok a ∧ f a = .ok b := by
  cases x with
  | error m => simp [bind, Except.bind]
  | ok a => simp [bind, Except.bind]

theorem expect_eq_ok {t : Token} :
    expect k e ts = .ok (t, rest) ↔ t.kind = k ∧ ts = t :: rest := by
  fun_cases expect k e ts with
  | case1 => simp
  | case2 u us h =>
    rw [Except.ok.injEq, Prod.mk.injEq, List.cons.injEq]
    constructor
    · rintro ⟨rfl, rfl⟩
      exact ⟨h, rfl, rfl⟩
    · rintro ⟨-, rfl, rfl⟩
      exact ⟨rfl, rfl⟩
  | case3 u us h =>
    simp only [reduceCtorEq, List.cons.injEq, false_iff, not_and]
    rintro ht rfl
    exact absurd ht h

theorem expectName_eq_ok {i : Identifier} :
    expectName e ts = .ok (i, rest) ↔
      ∃ x : Leaf .identifier, i = x.identifier ∧ ts = x.token :: rest := by
  rw [expectName, bind_eq_ok]
  constructor
  · rintro ⟨⟨t, us⟩, ht, hpure⟩
    obtain ⟨hk, rfl⟩ := expect_eq_ok.1 ht
    cases hpure
    exact ⟨⟨t, hk⟩, rfl, rfl⟩
  · rintro ⟨x, rfl, rfl⟩
    exact ⟨_, expect_leaf x e rest, rfl⟩

theorem exists_referenceTree (dash : Leaf .dash) {r : Reference}
    (h : reference dash.token ts = .ok (r, rest)) :
    ∃ tree : ReferenceTree, tree.dash = dash ∧ ts = tree.tail ++ rest ∧ r = tree.toReference := by
  obtain ⟨⟨head, ts₁⟩, hhead, h₁⟩ := bind_eq_ok.1 h
  obtain ⟨⟨gap, ts₂⟩, hgap, h₂⟩ := bind_eq_ok.1 h₁
  obtain ⟨⟨entity, ts₃⟩, hentity, h₃⟩ := bind_eq_ok.1 h₂
  obtain ⟨⟨opening, ts₄⟩, hopening, h₄⟩ := bind_eq_ok.1 h₃
  obtain ⟨⟨target, ts₅⟩, htarget, h₅⟩ := bind_eq_ok.1 h₄
  obtain ⟨⟨closing, ts₆⟩, hclosing, h₆⟩ := bind_eq_ok.1 h₅
  obtain ⟨khead, rfl⟩ := expect_eq_ok.1 hhead
  obtain ⟨kgap, rfl⟩ := expect_eq_ok.1 hgap
  obtain ⟨entity, rfl, rfl⟩ := expectName_eq_ok.1 hentity
  obtain ⟨kopening, rfl⟩ := expect_eq_ok.1 hopening
  obtain ⟨target, rfl, rfl⟩ := expectName_eq_ok.1 htarget
  obtain ⟨kclosing, rfl⟩ := expect_eq_ok.1 hclosing
  cases h₆
  exact ⟨⟨dash, ⟨head, khead⟩, ⟨gap, kgap⟩, entity, ⟨opening, kopening⟩, target,
    ⟨closing, kclosing⟩⟩, rfl, rfl, rfl⟩

theorem attributeHead_eq_ok {name type : Identifier}
    (h : attributeHead ts = .ok ((name, type), rest)) :
    ∃ (s : Leaf .space) (x : Leaf .identifier) (gap : Leaf .space) (y : Leaf .identifier),
      ts = s.token :: x.token :: gap.token :: y.token :: rest ∧
        name = x.identifier ∧ type = y.identifier := by
  obtain ⟨⟨s, ts₁⟩, hs, h₁⟩ := bind_eq_ok.1 h
  obtain ⟨⟨name, ts₂⟩, hname, h₂⟩ := bind_eq_ok.1 h₁
  obtain ⟨⟨gap, ts₃⟩, hgap, h₃⟩ := bind_eq_ok.1 h₂
  obtain ⟨⟨type, ts₄⟩, htype, h₄⟩ := bind_eq_ok.1 h₃
  obtain ⟨ks, rfl⟩ := expect_eq_ok.1 hs
  obtain ⟨x, rfl, rfl⟩ := expectName_eq_ok.1 hname
  obtain ⟨kgap, rfl⟩ := expect_eq_ok.1 hgap
  obtain ⟨y, rfl, rfl⟩ := expectName_eq_ok.1 htype
  cases h₄
  exact ⟨⟨s, ks⟩, x, ⟨gap, kgap⟩, y, rfl, rfl, rfl⟩

theorem exists_skip (k : TokenKind) (ts : List Token) :
    ∃ gap : Option (Leaf k), ts = optionalToken gap ++ skip k ts := by
  fun_cases skip k ts with
  | case1 => exact ⟨none, rfl⟩
  | case2 t ts h => exact ⟨some ⟨t, h⟩, rfl⟩
  | case3 t ts => exact ⟨none, rfl⟩

theorem exists_keyTree (ts : List Token) :
    ∃ key : Option KeyTree, ts = (key.map KeyTree.tokens).getD [] ++ (primaryKey ts).2 ∧
      (primaryKey ts).1 = key.map (·.key.token.span) := by
  fun_cases primaryKey ts with
  | case1 => exact ⟨none, rfl, rfl⟩
  | case2 t ts h =>
    obtain ⟨gap, hgap⟩ := exists_skip .space ts
    exact ⟨some ⟨⟨t, h⟩, gap⟩, congrArg (t :: ·) hgap, rfl⟩
  | case3 t ts => exact ⟨none, rfl, rfl⟩

theorem mismatch_endLine {α : Type} {value : α} (h : (endLine value e ts).mismatch = none) :
    ∃ n : Leaf .newline, ts = n.token :: (endLine value e ts).rest := by
  cases heq : expect .newline e ts with
  | ok p =>
    obtain ⟨hk, rfl⟩ := expect_eq_ok.1 heq
    have hend := endLine_leaf value e ⟨p.1, hk⟩ p.2
    exact ⟨⟨p.1, hk⟩, congrArg (p.1 :: Line.rest ·) hend.symm⟩
  | error m =>
    rw [endLine, heq] at h
    cases h

@[simp] theorem value_endLine {α : Type} (value : α) (e : Expectation) (ts : List Token) :
    (endLine value e ts).value = value := rfl

theorem exists_attributeTail {a : Attribute} (ha : a.reference = none)
    (h : (attributeTail a ts).mismatch = none) :
    ∃ (r : Option ReferenceTree) (n : Leaf .newline),
      ts = (r.map ReferenceTree.tokens).getD [] ++ n.token :: (attributeTail a ts).rest ∧
        (attributeTail a ts).value = { a with reference := r.map ReferenceTree.toReference } := by
  have hnone : { a with reference := none } = a := by rw [← ha]
  fun_cases attributeTail a ts with
  | case1 =>
    rw [attributeTail] at h
    obtain ⟨n, hn⟩ := mismatch_endLine h
    cases hn
  | case2 t ts hdash r _ rest heq =>
    rw [attributeTail, if_pos hdash, heq] at h
    obtain ⟨n, hn⟩ := mismatch_endLine h
    obtain ⟨hreference, -⟩ := recover_eq_some.1 heq
    obtain ⟨tree, htree, rfl, rfl⟩ := exists_referenceTree ⟨t, hdash⟩ hreference
    refine ⟨some tree, n, ?_, value_endLine _ _ _⟩
    rw [Option.map_some, Option.getD_some, ReferenceTree.tokens, htree, List.cons_append, ← hn]
  | case3 t ts hdash m rest heq =>
    obtain ⟨m', -, rfl, -⟩ := recover_eq_none.1 heq
    rw [attributeTail, if_pos hdash, heq] at h
    cases h
  | case4 t ts hdash =>
    rw [attributeTail, if_neg hdash] at h
    obtain ⟨n, hn⟩ := mismatch_endLine h
    exact ⟨none, n, hn, (value_endLine _ _ _).trans hnone.symm⟩

/-- **An attribute line that is read without a mismatch has a derivation.** -/
theorem exists_attributeTree (s : Leaf .space) (h : (attributeLine ts).mismatch = none) :
    ∃ a : AttributeTree, a.indent = s ∧ ts = a.body ++ (attributeLine ts).rest ∧
      (attributeLine ts).value = some a.toAttribute := by
  fun_cases attributeLine ts with
  | case1 m rest heq =>
    obtain ⟨m', -, rfl, -⟩ := recover_eq_none.1 heq
    rw [attributeLine, heq] at h
    cases h
  | case2 name type _ rest heq key line =>
    rw [attributeLine, heq] at h
    obtain ⟨hhead, -⟩ := recover_eq_some.1 heq
    obtain ⟨s', x, gap, y, rfl, rfl, rfl⟩ := attributeHead_eq_ok hhead
    obtain ⟨gap', hgap'⟩ := exists_skip .space rest
    obtain ⟨key', hkey, hspan⟩ := exists_keyTree (skip .space rest)
    obtain ⟨r, n, hr, hvalue⟩ := exists_attributeTail rfl h
    refine ⟨⟨s, s', x, gap, y, gap', key', r, n⟩, rfl, ?_, ?_⟩
    · simp only [AttributeTree.body, AttributeTree.tail, List.cons_append, List.append_assoc,
        List.nil_append]
      rw [hgap', hkey, hr]
    · rw [Option.some.injEq, hvalue, AttributeTree.toAttribute]
      simp only [hspan]

theorem exists_attributeTrees (h : (attributes ts).mismatches = []) :
    ∃ as : List AttributeTree,
      ts = as.flatMap AttributeTree.tokens ++ (attributes ts).rest ∧
        (attributes ts).values = as.map AttributeTree.toAttribute := by
  fun_induction attributes ts with
  | case1 => exact ⟨[], rfl, rfl⟩
  | case2 t ts hspace line more ih =>
    obtain ⟨hline, hmore⟩ := List.append_eq_nil_iff.1 h
    obtain ⟨a, ha, hts, hvalue⟩ :=
      exists_attributeTree ⟨t, hspace⟩ (Option.toList_eq_nil_iff.1 hline)
    obtain ⟨as, has, hvalues⟩ := ih hmore
    refine ⟨a :: as, ?_, ?_⟩
    · rw [List.flatMap_cons, AttributeTree.tokens, ha, List.cons_append, List.cons_append,
        List.append_assoc, ← has, ← hts]
    · simp only [line, hvalue, more, hvalues, Option.toList_some, List.cons_append,
        List.nil_append, List.map_cons]
  | case3 t ts => exact ⟨[], rfl, rfl⟩

theorem exists_entityTree (x : Leaf .identifier) (h : (entityBody ts).mismatches = []) :
    ∃ (n : Leaf .newline) (as : List AttributeTree),
      x.token :: ts = (StatementTree.entity x n as).tokens ++ (entityBody ts).rest ∧
        (entityBody ts).values = as.map AttributeTree.toAttribute := by
  obtain ⟨hend, hbody⟩ := List.append_eq_nil_iff.1 h
  obtain ⟨n, hn⟩ := mismatch_endLine (Option.toList_eq_nil_iff.1 hend)
  obtain ⟨as, has, hvalues⟩ := exists_attributeTrees hbody
  have hts : ts = n.token :: (as.flatMap AttributeTree.tokens ++ (entityBody ts).rest) :=
    hn.trans (congrArg (n.token :: ·) has)
  exact ⟨n, as, congrArg (x.token :: ·) hts, hvalues⟩

/-- **A document that is read without a mismatch has a derivation.** -/
theorem exists_documentTree (h : (statements ts).2 = []) : ∃ d : DocumentTree, d.tokens = ts := by
  fun_induction statements ts with
  | case1 => exact ⟨[], rfl⟩
  | case2 t ts hkind more ih =>
    obtain ⟨d, rfl⟩ := ih h
    exact ⟨.empty ⟨t, hkind⟩ :: d, rfl⟩
  | case3 t ts hkind body more ih =>
    obtain ⟨hbody, hmore⟩ := List.append_eq_nil_iff.1 h
    obtain ⟨d, hd⟩ := ih hmore
    obtain ⟨n, as, htokens, -⟩ := exists_entityTree ⟨t, hkind⟩ hbody
    refine ⟨.entity ⟨t, hkind⟩ n as :: d, ?_⟩
    rw [htokens, ← hd]
    rfl
  | case4 t ts => cases h

end Sound

end Parser

theorem parseTokens_documentTree (d : DocumentTree) : parseTokens d.tokens = ⟨d.toSchema, []⟩ := by
  rw [parseTokens, Parser.statements_tokens]
  rfl

theorem errors_parseTokens_eq_nil {ts : List Token} :
    (parseTokens ts).errors = [] ↔ ∃ d : DocumentTree, d.tokens = ts := by
  constructor
  · intro h
    exact Parser.exists_documentTree (List.map_eq_nil_iff.1 h)
  · rintro ⟨d, rfl⟩
    rw [parseTokens_documentTree]

/-- **Exactly the words of the grammar are read without an error, and their schema is the one that
the derivation spells.** -/
theorem parseTokens_accepts_grammar (ts : List Token) :
    ((parseTokens ts).errors = [] ↔ ts.map Token.kind ∈ Grammar.document) ∧
      (ts.map Token.kind ∈ Grammar.document → ∃ d : DocumentTree, d.tokens = ts) ∧
      ∀ d : DocumentTree, d.tokens = ts → (parseTokens ts).schema = d.toSchema := by
  refine ⟨?_, (derives_document ts).1, ?_⟩
  · rw [errors_parseTokens_eq_nil]
    exact (derives_document ts).symm
  · rintro d rfl
    rw [parseTokens_documentTree]

end EntitySchema
