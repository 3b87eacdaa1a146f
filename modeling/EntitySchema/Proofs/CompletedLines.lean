import EntitySchema.Completion
import EntitySchema.Proofs.Rendering
import EntitySchema.Proofs.Segmentation

/-!
# Completed lines

Completion knows the words of a line by their characters, and so takes the keyword for a name. A
line without the keyword becomes the line of an attribute by every suggestion; a line with it cannot
be completed at all.

* `IsWord` — texts that are one word; `CompletionContext.Asks` — the lines of each context, with the
  words in them; `asks_of_ofLine?`: a line that is given a context is one of them.
* `kindsOf` — the kinds of the tokens of a text; `kinds_of_entity_line`: those of an attribute line.
* `keyword_notMem_of_errors_eq_nil`: a line with the keyword is broken, whatever follows.
* `Schema.Offers` — attributes that have what a suggestion offers; `exists_attribute`: a line with a
  suggestion is the line of such an attribute.
* **`completed_line_iff`**: a suggestion completes a line exactly if the line is without the keyword.
-/

namespace EntitySchema

/-- A text that is one word, which may be the keyword. -/
def IsWord (w : String) : Prop := ∃ c cs, w.toList = c :: cs ∧ (Tile.word c cs).WellFormed

theorem isIdentifier_of_isWord {w : String} (h : IsWord w) (hne : w ≠ primaryKeyWord) :
    isIdentifier w := by
  obtain ⟨c, cs, hw, hwell⟩ := h
  exact isIdentifier_iff.2 ⟨c, cs, hw, hwell, hne⟩

namespace CompletionContext

/-- The lines that a context stands for, with the words in them. -/
inductive Asks : CompletionContext → List String → String → Prop
  | attributeType {name : String} (hname : IsWord name) :
      Asks attributeType [name] ("  " ++ name ++ " ")
  | relation {name type : String} (hname : IsWord name) (htype : IsWord type) :
      Asks relation [name, type] ("  " ++ name ++ " " ++ type ++ " ")
  | relationTarget {name type : String} (hname : IsWord name) (htype : IsWord type) :
      Asks relationTarget [name, type] ("  " ++ name ++ " " ++ type ++ " -> ")

theorem Asks.isWord {c : CompletionContext} {words : List String} {line : String}
    (h : c.Asks words line) : ∀ w ∈ words, IsWord w := by
  cases h <;> simp_all

theorem stripWord?_eq_some {cs rest : List Char} (h : stripWord? cs = some rest) :
    ∃ w : String, IsWord w ∧ cs = w.toList ++ rest := by
  cases cs with
  | nil => cases h
  | cons c cs =>
    rw [stripWord?] at h
    split at h
    · next hstart =>
      cases h
      refine ⟨String.ofList (c :: cs.takeWhile Word.isPart), ?_, ?_⟩
      · refine ⟨c, _, String.toList_ofList, hstart, ?_⟩
        exact fun x hx => List.mem_takeWhile_imp hx
      · rw [String.toList_ofList, List.cons_append, List.takeWhile_append_dropWhile]
    · cases h

theorem asks_of_ofLine? {line : String} {c : CompletionContext} (h : ofLine? line.toList = some c) :
    ∃ words, c.Asks words line := by
  generalize hline : line.toList = cs at h
  unfold ofLine? at h
  split at h
  · next cs =>
    split at h
    · next hname =>
      cases h
      obtain ⟨name, hword, rfl⟩ := stripWord?_eq_some hname
      obtain rfl : line = "  " ++ name ++ " " := by
        rw [← String.toList_inj, hline]
        simp
      exact ⟨_, .attributeType hword⟩
    · next rest _ hname =>
      obtain ⟨name, hword, rfl⟩ := stripWord?_eq_some hname
      split at h
      · next htype =>
        cases h
        obtain ⟨type, hword', rfl⟩ := stripWord?_eq_some htype
        obtain rfl : line = "  " ++ name ++ " " ++ type ++ " " := by
          rw [← String.toList_inj, hline]
          simp
        exact ⟨_, .relation hword hword'⟩
      · next htype =>
        cases h
        obtain ⟨type, hword', rfl⟩ := stripWord?_eq_some htype
        obtain rfl : line = "  " ++ name ++ " " ++ type ++ " -> " := by
          rw [← String.toList_inj, hline]
          simp
        exact ⟨_, .relationTarget hword hword'⟩
      · cases h
    · cases h
  · cases h

end CompletionContext

/-- The kinds of the tokens of a text. -/
def kindsOf (cs : List Char) : List TokenKind := (tiles cs).filterMap Tile.kind?

theorem kinds_lex (text : String) : (lex text).tokens.map Token.kind = kindsOf text.toList := by
  have hkind : (fun p : PlacedTile => p.token?.map Token.kind) = fun p => p.tile.kind? := by
    funext p
    rw [PlacedTile.token?, Option.map_map]
    exact Option.map_id'
  rw [kindsOf, ← map_tile_place .origin (tiles text.toList), List.filterMap_map, lex,
    List.map_filterMap, hkind]
  rfl

@[simp] theorem kindsOf_nil : kindsOf [] = [] := by
  rw [kindsOf, tiles, List.filterMap_nil]

@[simp] theorem kindsOf_newline (cs : List Char) :
    kindsOf ('\n' :: cs) = .newline :: kindsOf cs := by
  rw [kindsOf, tiles, Lead.ofChar_newline]
  rfl

@[simp] theorem kindsOf_space (cs : List Char) : kindsOf (' ' :: cs) = .space :: kindsOf cs := by
  rw [kindsOf, tiles, Lead.ofChar_space]
  rfl

theorem kindsOf_symbol (s : Symbol) (cs : List Char) :
    kindsOf (s.char :: cs) = .ofSymbol s :: kindsOf cs := by
  rw [kindsOf, tiles, Lead.ofChar_char]
  rfl

theorem kindsOf_word {w : String} (h : IsWord w) {rest : List Char}
    (hrest : ∀ x ∈ rest.head?, Word.isPart x = false) :
    kindsOf (w.toList ++ rest) = .ofWord w :: kindsOf rest := by
  obtain ⟨c, cs, hw, hwell⟩ := h
  obtain ⟨htake, hdrop⟩ := span_append hwell.2 hrest
  rw [kindsOf, hw, List.cons_append, tiles, Lead.ofChar_eq_word_iff.2 hwell.1]
  simp only
  rw [htake, hdrop, List.filterMap_cons, Tile.kind?, ← hw, String.ofList_toList]
  rfl

@[simp] theorem kindsOf_word_space {w : String} (h : IsWord w) (rest : List Char) :
    kindsOf (w.toList ++ ' ' :: rest) = .ofWord w :: .space :: kindsOf rest := by
  rw [kindsOf_word h (by rintro _ ⟨⟩; decide), kindsOf_space]

theorem ofWord_eq_identifier_iff {w : String} :
    TokenKind.ofWord w = .identifier ↔ primaryKeyWord ≠ w := by
  rw [TokenKind.ofWord]
  split <;> simp_all [eq_comm]

theorem primaryKey_eq_ofWord_iff {w : String} :
    .primaryKey = TokenKind.ofWord w ↔ primaryKeyWord = w := by
  rw [TokenKind.ofWord]
  split <;> simp_all [eq_comm]

theorem kinds_of_entity_line {text : String} {kinds : List TokenKind}
    (h : kindsOf text.toList = .identifier :: .newline :: .space :: kinds)
    (herrors : (parse text).errors = []) :
    ∃ more, kinds = .space :: .identifier :: .space :: .identifier :: more := by
  rw [← kinds_lex] at h
  obtain ⟨x, ts, hx, hkind, h⟩ := List.map_eq_cons_iff.1 h
  obtain ⟨n, ts, rfl, hnewline, h⟩ := List.map_eq_cons_iff.1 h
  obtain ⟨s, ts, rfl, hspace, rfl⟩ := List.map_eq_cons_iff.1 h
  have hparsed : (parseTokens (x :: n :: s :: ts)).errors = [] := by
    rw [← hx]
    exact (List.append_eq_nil_iff.1 herrors).2
  cases hhead : Parser.attributeHead ts with
  | error m =>
    simp [parseTokens, Parser.statements, Parser.entityBody, Parser.endLine, Parser.expect,
      Parser.recover, Parser.attributes, Parser.attributeLine, hkind, hnewline, hspace, hhead] at hparsed
  | ok v =>
    obtain ⟨⟨name, type⟩, rest⟩ := v
    obtain ⟨s', x', gap, y, rfl, -, -⟩ := Parser.attributeHead_eq_ok hhead
    exact ⟨rest.map Token.kind, by simp⟩

/-! ## Lines with the keyword -/

section Keyword

variable {c : CompletionContext} {words : List String} {line : String}

theorem kindsOf_asks (h : c.Asks words line) :
    ∃ marks, .primaryKey ∉ marks ∧ ∀ rest, kindsOf (line.toList ++ rest) = .space :: .space ::
      (words.flatMap (fun w => [.ofWord w, .space]) ++ (marks ++ kindsOf rest)) := by
  cases h with
  | attributeType hname => exact ⟨[], by simp, by simp [hname]⟩
  | relation hname htype => exact ⟨[], by simp, by simp [hname, htype]⟩
  | relationTarget hname htype =>
    have harrow : ∀ rest, kindsOf ('-' :: '>' :: ' ' :: rest) =
        .dash :: .greater :: .space :: kindsOf rest := by
      intro rest
      show kindsOf (Symbol.dash.char :: Symbol.greater.char :: ' ' :: rest) = _
      rw [kindsOf_symbol, kindsOf_symbol, kindsOf_space]
      rfl
    exact ⟨[.dash, .greater, .space], by simp, by simp [hname, htype, harrow]⟩

theorem keyword_mem_iff (h : c.Asks words line) :
    .primaryKey ∈ (lex line).tokens.map Token.kind ↔ primaryKeyWord ∈ words := by
  obtain ⟨marks, hmarks, hkinds⟩ := kindsOf_asks h
  have hline := hkinds []
  rw [List.append_nil, kindsOf_nil, List.append_nil] at hline
  simp [kinds_lex, hline, hmarks, primaryKey_eq_ofWord_iff]

theorem keyword_notMem_of_errors_eq_nil (h : c.Asks words line) {rest : String}
    (herrors : (parse ("e\n" ++ line ++ rest)).errors = []) : primaryKeyWord ∉ words := by
  obtain ⟨marks, -, hkinds⟩ := kindsOf_asks h
  have hentity : IsWord "e" := ⟨'e', [], rfl, by decide, nofun⟩
  have htext : ("e\n" ++ line ++ rest).toList =
      "e".toList ++ '\n' :: (line.toList ++ rest.toList) := by
    simp
  have hdocument : kindsOf ("e\n" ++ line ++ rest).toList = .identifier :: .newline :: .space ::
      .space :: (words.flatMap (fun w => [.ofWord w, .space]) ++ (marks ++ kindsOf rest.toList)) := by
    rw [htext, kindsOf_word hentity (by rintro _ ⟨⟩; decide), kindsOf_newline, hkinds]
    rfl
  -- the words of the line stand where an attribute has its name and its type
  obtain ⟨more, hmore⟩ := kinds_of_entity_line hdocument herrors
  cases h <;> simp_all [ofWord_eq_identifier_iff]

end Keyword

/-! ## Lines without it -/

/-- The attribute `a` has what the suggestion `s` offers in a context: its type, or a reference to one
of the primary keys of a schema. -/
def Schema.Offers (schema : Schema) (s : Suggestion) (a : AttributeShape String) :
    CompletionContext → Prop
  | .attributeType => a.type = s.text
  | .relation => ∃ key ∈ schema.primaryKeys,
      s.text = "-> " ++ key.1 ++ "(" ++ key.2 ++ ")" ∧ a.reference = some ⟨key.1, key.2⟩
  | .relationTarget => ∃ key ∈ schema.primaryKeys,
      s.text = key.1 ++ "(" ++ key.2 ++ ")" ∧ a.reference = some ⟨key.1, key.2⟩

theorem isIdentifier_of_mem_attributeTypes : ∀ type ∈ attributeTypes, isIdentifier type := by
  decide

theorem isIdentifier_of_mem_primaryKeys {text : String} {key : String × String}
    (h : key ∈ (parse text).schema.primaryKeys) : isIdentifier key.1 ∧ isIdentifier key.2 := by
  obtain ⟨e, he, hkey⟩ := List.mem_flatMap.1 h
  obtain ⟨a, ha, rfl⟩ := List.mem_map.1 hkey
  obtain ⟨s, hs, hentity⟩ := List.mem_filterMap.1 he
  have hnames : ∀ i ∈ s.shape.names, isIdentifier i.name := by
    intro i hi
    refine isIdentifier_of_mem_names text _ ?_
    rw [Schema.plain, SchemaShape.names_map]
    exact List.mem_map_of_mem (List.mem_flatMap.2 ⟨_, List.mem_map_of_mem hs, hi⟩)
  cases s with
  | empty span => cases hentity
  | entity e' =>
    cases hentity
    refine ⟨hnames _ List.mem_cons_self, hnames _ (List.mem_cons_of_mem _ ?_)⟩
    rw [List.flatMap_map]
    exact List.mem_flatMap.2 ⟨a, List.mem_of_mem_filter ha, List.mem_cons_self⟩

/-- **A line with a suggestion is the line of an attribute**, which has what is suggested. -/
theorem exists_attribute {c : CompletionContext} {words : List String} {line document : String}
    {s : Suggestion} (h : c.Asks words line) (hs : s ∈ (parse document).schema.suggestions c) :
    ∃ (a : AttributeShape String) (behindType : Bool),
      line ++ s.text ++ "\n" = a.render behindType false ∧ (parse document).schema.Offers s a c ∧
        ∀ n ∈ a.names, n ∈ words ∨ isIdentifier n := by
  cases h with
  | @attributeType name hname =>
    obtain ⟨type, htype, rfl⟩ := List.mem_map.1 hs
    refine ⟨⟨name, type, false, none⟩, false, ?_, rfl, ?_⟩
    · rw [← String.toList_inj]
      simp [AttributeShape.render]
    · simp [AttributeShape.names, isIdentifier_of_mem_attributeTypes type htype]
  | @relation name type hname htype =>
    obtain ⟨key, hkey, rfl⟩ := List.mem_map.1 hs
    obtain ⟨hentity, hattribute⟩ := isIdentifier_of_mem_primaryKeys hkey
    refine ⟨⟨name, type, false, some ⟨key.1, key.2⟩⟩, true, ?_, ⟨key, hkey, rfl, rfl⟩, ?_⟩
    · rw [← String.toList_inj]
      simp [AttributeShape.render, ReferenceShape.render]
    · simp [AttributeShape.names, ReferenceShape.names, hentity, hattribute]
  | @relationTarget name type hname htype =>
    obtain ⟨key, hkey, rfl⟩ := List.mem_map.1 hs
    obtain ⟨hentity, hattribute⟩ := isIdentifier_of_mem_primaryKeys hkey
    refine ⟨⟨name, type, false, some ⟨key.1, key.2⟩⟩, true, ?_, ⟨key, hkey, rfl, rfl⟩, ?_⟩
    · rw [← String.toList_inj]
      simp [AttributeShape.render, ReferenceShape.render]
    · simp [AttributeShape.names, ReferenceShape.names, hentity, hattribute]

theorem parse_line {a : AttributeShape String} (h : ∀ n ∈ a.names, isIdentifier n)
    (behindType behindKey : Bool) :
    (parse ("e\n" ++ a.render behindType behindKey)).errors = [] ∧
      (parse ("e\n" ++ a.render behindType behindKey)).schema.plain = [.entity "e" [a]] := by
  have hrenders : Renders [.entity "e" [a]]
      ("e" ++ "\n" ++ (a.render behindType behindKey ++ "") ++ "") :=
    .entity (.cons behindType behindKey .nil) .nil
  rw [String.append_empty, String.append_empty] at hrenders
  refine parse_of_renders ?_ hrenders
  simpa [SchemaShape.names, StatementShape.names] using ⟨by decide, h⟩

/-- **A suggestion completes a line exactly if the line is without the keyword.** -/
theorem completed_line_iff {line document : String} {c : CompletionContext} {s : Suggestion}
    (hc : CompletionContext.ofLine? line.toList = some c)
    (hs : s ∈ (parse document).schema.suggestions c) :
    ((parse ("e\n" ++ line ++ s.text ++ "\n")).errors = [] ↔
        .primaryKey ∉ (lex line).tokens.map Token.kind) ∧
      (.primaryKey ∉ (lex line).tokens.map Token.kind →
        ∃ a, (parse ("e\n" ++ line ++ s.text ++ "\n")).schema.plain = [.entity "e" [a]] ∧
          (parse document).schema.Offers s a c) := by
  obtain ⟨words, hasks⟩ := CompletionContext.asks_of_ofLine? hc
  obtain ⟨a, behindType, hline, hoffers, hnames⟩ := exists_attribute hasks hs
  have htext : "e\n" ++ line ++ s.text ++ "\n" = "e\n" ++ a.render behindType false := by
    rw [← hline]
    simp only [String.append_assoc]
  have hparse : primaryKeyWord ∉ words → (parse ("e\n" ++ line ++ s.text ++ "\n")).errors = [] ∧
      (parse ("e\n" ++ line ++ s.text ++ "\n")).schema.plain = [.entity "e" [a]] := by
    intro hwords
    rw [htext]
    refine parse_line (fun n hn => ?_) behindType false
    rcases hnames n hn with hword | hname
    · refine isIdentifier_of_isWord (hasks.isWord n hword) ?_
      rintro rfl
      exact hwords hword
    · exact hname
  rw [keyword_mem_iff hasks]
  refine ⟨⟨fun herrors => ?_, fun hwords => (hparse hwords).1⟩,
    fun hwords => ⟨a, (hparse hwords).2, hoffers⟩⟩
  rw [String.append_assoc] at herrors
  exact keyword_notMem_of_errors_eq_nil hasks herrors

/-- A reference is suggested from a document that is broken behind its primary key. -/
theorem completed_line_iff_owner :
    CompletionContext.ofLine? "  owner int ".toList = some .relation ∧
      ⟨.relation, "-> users(id)"⟩ ∈ (parse "users\n  id int pk %\n").schema.suggestions .relation ∧
      (parse ("e\n" ++ "  owner int " ++ "-> users(id)" ++ "\n")).errors = [] := by
  have hc : CompletionContext.ofLine? "  owner int ".toList = some .relation := by decide
  have hs : (⟨.relation, "-> users(id)"⟩ : Suggestion) ∈
      (parse "users\n  id int pk %\n").schema.suggestions .relation := by decide +kernel
  exact ⟨hc, hs, (completed_line_iff hc hs).1.2 (by decide +kernel)⟩

/-- The keyword in the place of a name: a type is suggested, and breaks the line. -/
theorem keyword_line_not_completed :
    CompletionContext.ofLine? "  pk ".toList = some .attributeType ∧
      ⟨.type, "int"⟩ ∈ (parse "").schema.suggestions .attributeType ∧
      (parse ("e\n" ++ "  pk " ++ "int" ++ "\n")).errors ≠ [] := by
  decide +kernel

end EntitySchema
