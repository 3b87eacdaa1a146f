import EntitySchema.Proofs.Tiling

/-!
# Tokens and the texts that spell them

* `Tile.Spells` — a tile that is a token of the given kind and text.
* `Token.Spelled` — tokens that some tile spells; `text_of_spelled`, `isIdentifier_of_spelled`: their
  texts, by kind.
* `Token.Apart` — tokens that may stand side by side: no two words.
* `spell` — the text of a list of tokens.
* **`lex_spell`**: the text of spelled tokens that may stand side by side is cut into these tokens
  again, without an error.
* `spelled_of_mem_lex`: the tokens of every text are spelled.
* **`spell_lex`**: a text that is cut into tokens without an error is the text of these tokens, which
  may stand side by side.
* **`isIdentifier_iff_lex`**: the names are the texts that are cut into one identifier.
-/

namespace EntitySchema

/-- Whether tokens of a kind are words. -/
def TokenKind.isWord : TokenKind → Bool
  | identifier | primaryKey => true
  | _ => false

/-- Two tokens that may stand side by side. -/
def Token.Apart (a b : Token) : Prop := ¬ (a.kind.isWord ∧ b.kind.isWord)

/-- Two tokens of the same kind and text. -/
def Token.SameWord (a b : Token) : Prop := a.kind = b.kind ∧ a.text = b.text

/-- A tile that is a token of the kind and text of `t`. -/
structure Tile.Spells (tile : Tile) (t : Token) : Prop where
  wellFormed : tile.WellFormed
  kind : tile.kind? = some t.kind
  text : tile.text = t.text

theorem Tile.Spells.chars_eq {tile : Tile} {t : Token} (h : tile.Spells t) :
    tile.chars = t.text.toList := by
  rw [← h.text, Tile.text, String.toList_ofList]

/-- A token that some tile spells. -/
def Token.Spelled (t : Token) : Prop := ∃ tile : Tile, tile.Spells t

theorem TokenKind.isWord_ofWord (w : String) : (TokenKind.ofWord w).isWord := by
  rw [TokenKind.ofWord]
  split <;> rfl

theorem TokenKind.isWord_ofSymbol (s : Symbol) : (TokenKind.ofSymbol s).isWord = false := by
  cases s <;> rfl

theorem Tile.Spells.isWord_iff {tile : Tile} {t : Token} (h : tile.Spells t) :
    t.kind.isWord ↔ ∃ c cs, tile = .word c cs := by
  obtain ⟨-, hkind, -⟩ := h
  cases tile with
  | newline =>
    rw [← Option.some.inj hkind]
    simp [TokenKind.isWord]
  | space =>
    rw [← Option.some.inj hkind]
    simp [TokenKind.isWord]
  | symbol s =>
    rw [← Option.some.inj hkind, TokenKind.isWord_ofSymbol]
    simp
  | word c cs =>
    rw [← Option.some.inj hkind]
    exact iff_of_true (TokenKind.isWord_ofWord _) ⟨c, cs, rfl⟩
  | stray c cs => cases hkind

/-- The text of a token other than an identifier. -/
def TokenKind.spelling : TokenKind → String
  | identifier => ""
  | primaryKey => primaryKeyWord
  | openParen => "("
  | closeParen => ")"
  | dash => "-"
  | greater => ">"
  | newline => "\n"
  | space => " "

theorem Token.text_of_spelled {t : Token} (h : t.Spelled) (hk : t.kind ≠ .identifier) :
    t.text = t.kind.spelling := by
  obtain ⟨tile, -, hkind, htext⟩ := h
  rw [← htext]
  cases tile with
  | newline => rw [← Option.some.inj hkind]; rfl
  | space => rw [← Option.some.inj hkind]; rfl
  | symbol s => rw [← Option.some.inj hkind]; cases s <;> rfl
  | word c cs =>
    rw [Tile.kind?, Option.some.injEq, TokenKind.ofWord] at hkind
    split at hkind
    · rw [← hkind]
      assumption
    · exact absurd hkind.symm hk
  | stray c cs => cases hkind

theorem Token.isIdentifier_of_spelled {t : Token} (h : t.Spelled) (hk : t.kind = .identifier) :
    isIdentifier t.text := by
  obtain ⟨tile, hwell, hkind, htext⟩ := h
  rw [hk] at hkind
  rw [← htext]
  cases tile with
  | newline => cases hkind
  | space => cases hkind
  | symbol s => cases s <;> cases hkind
  | word c cs =>
    rw [Tile.kind?, Option.some.injEq, TokenKind.ofWord] at hkind
    have hne : String.ofList (c :: cs) ≠ primaryKeyWord := by
      intro h
      rw [if_pos h] at hkind
      cases hkind
    simp only [isIdentifier, Tile.text, Tile.chars, String.toList_ofList, Bool.and_eq_true,
      List.all_eq_true, bne_iff_ne]
    exact ⟨hwell, hne⟩
  | stray c cs => cases hkind

theorem isIdentifier_iff {w : String} :
    isIdentifier w ↔ ∃ c cs, w.toList = c :: cs ∧ (Tile.word c cs).WellFormed ∧
      w ≠ primaryKeyWord := by
  rw [isIdentifier]
  cases w.toList with
  | nil => simp
  | cons c cs => simp [Tile.WellFormed, and_assoc]

theorem spells_identifier {w : String} (h : isIdentifier w) (span : Span) :
    ∃ c cs, w.toList = c :: cs ∧ (Tile.word c cs).Spells ⟨.identifier, w, span⟩ := by
  obtain ⟨c, cs, hw, hwell, hne⟩ := isIdentifier_iff.1 h
  have htext : String.ofList (c :: cs) = w := by rw [← hw, String.ofList_toList]
  refine ⟨c, cs, hw, hwell, ?_, htext⟩
  rw [Tile.kind?, htext, TokenKind.ofWord, if_neg hne]

/-! ## The text of a list of tokens -/

/-- The text of a list of tokens. -/
def spell (ts : List Token) : String := String.ofList (ts.flatMap (·.text.toList))

@[simp] theorem spell_nil : spell [] = "" := rfl

@[simp] theorem spell_cons (t : Token) (ts : List Token) : spell (t :: ts) = t.text ++ spell ts := by
  rw [← String.toList_inj, String.toList_append]
  simp [spell]

@[simp] theorem spell_append (ts us : List Token) : spell (ts ++ us) = spell ts ++ spell us := by
  rw [← String.toList_inj, String.toList_append]
  simp [spell]

/-- Tiles of words that may stand side by side do not go on in one another. -/
theorem separate_of_apart {a b : Tile} {t u : Token} (ha : a.Spells t) (hb : b.Spells u)
    (h : t.Apart u) : a.Separate b := by
  rw [Tile.Separate]
  cases a with
  | newline => rfl
  | space => rfl
  | symbol s => rfl
  | stray c cs => cases ha.kind
  | word c cs =>
    have hword : ¬ ∃ c cs, b = .word c cs :=
      fun hbw => h ⟨ha.isWord_iff.2 ⟨c, cs, rfl⟩, hb.isWord_iff.2 hbw⟩
    show Word.isPart b.firstChar = false
    cases b with
    | newline => decide
    | space => decide
    | symbol s => cases s <;> decide
    | word d ds => exact absurd ⟨d, ds, rfl⟩ hword
    | stray d ds => cases hb.kind

theorem apart_of_separate {a b : Tile} {t u : Token} (ha : a.Spells t) (hb : b.Spells u)
    (h : a.Separate b) : t.Apart u := by
  rintro ⟨ht, hu⟩
  obtain ⟨c, cs, rfl⟩ := ha.isWord_iff.1 ht
  obtain ⟨d, ds, rfl⟩ := hb.isWord_iff.1 hu
  have hpart : Word.isPart d = false := h
  rw [Word.isPart_of_isStart hb.wellFormed.1] at hpart
  cases hpart

theorem exists_tiles {ts : List Token} (h : ∀ t ∈ ts, t.Spelled) :
    ∃ tiles : List Tile, List.Forall₂ Tile.Spells tiles ts := by
  induction ts with
  | nil => exact ⟨[], .nil⟩
  | cons t ts ih =>
    obtain ⟨tile, htile⟩ := h t List.mem_cons_self
    obtain ⟨tiles, htiles⟩ := ih fun u hu => h u (List.mem_cons_of_mem _ hu)
    exact ⟨tile :: tiles, .cons htile htiles⟩

theorem isTiling_of_spells {tiles : List Tile} {ts : List Token}
    (h : List.Forall₂ Tile.Spells tiles ts) (hapart : ts.IsChain Token.Apart) : IsTiling tiles := by
  have hflip : List.Forall₂ (fun t tile => Tile.Spells tile t) ts tiles := h.flip
  refine isTiling_of_forall₂ (fun _ _ ht => ht.wellFormed) ?_ hflip hapart
  exact fun _ _ _ _ ha hb => separate_of_apart ha hb

theorem flatMap_chars_of_spells {tiles : List Tile} {ts : List Token}
    (h : List.Forall₂ Tile.Spells tiles ts) : tiles.flatMap Tile.chars = (spell ts).toList := by
  induction h with
  | nil => rfl
  | @cons tile t tiles ts htile _ ih =>
    rw [List.flatMap_cons, spell_cons, String.toList_append, ih, htile.chars_eq]

theorem place_of_spells {tiles : List Tile} {ts : List Token}
    (h : List.Forall₂ Tile.Spells tiles ts) (m : Mark) :
    List.Forall₂ Token.SameWord ts ((place m tiles).filterMap PlacedTile.token?) ∧
      (place m tiles).filterMap PlacedTile.error? = [] := by
  induction h generalizing m with
  | nil => exact ⟨.nil, rfl⟩
  | @cons tile t tiles ts htile _ ih =>
    obtain ⟨htokens, herrors⟩ := ih (m.after tile.chars)
    have htoken : PlacedTile.token? ⟨tile, Span.ofText m tile.chars⟩ =
        some ⟨t.kind, t.text, Span.ofText m tile.chars⟩ := by
      rw [PlacedTile.token?, htile.kind, Option.map_some, htile.text]
    have herror : PlacedTile.error? ⟨tile, Span.ofText m tile.chars⟩ = none := by
      cases tile with
      | stray c cs => cases htile.kind
      | _ => rfl
    rw [place, List.filterMap_cons_some htoken, List.filterMap_cons_none herror]
    exact ⟨.cons ⟨rfl, rfl⟩ htokens, herrors⟩

/-- **The text of spelled tokens that may stand side by side is cut into these tokens again.** -/
theorem lex_spell {ts : List Token} (h : ∀ t ∈ ts, t.Spelled) (hapart : ts.IsChain Token.Apart) :
    List.Forall₂ Token.SameWord ts (lex (spell ts)).tokens ∧ (lex (spell ts)).errors = [] := by
  obtain ⟨tiles, htiles⟩ := exists_tiles h
  rw [lex, ← flatMap_chars_of_spells htiles,
    tiles_flatMap_chars (isTiling_of_spells htiles hapart)]
  exact place_of_spells htiles _

/-! ## The tokens of a text -/

theorem tile_mem_of_mem_place {m : Mark} {tiles : List Tile} {p : PlacedTile}
    (h : p ∈ place m tiles) : p.tile ∈ tiles := by
  rw [← map_tile_place m tiles]
  exact List.mem_map_of_mem h

theorem PlacedTile.token?_eq_some {p : PlacedTile} {t : Token} (h : p.token? = some t) :
    p.tile.kind? = some t.kind ∧ p.tile.text = t.text ∧ p.span = t.span := by
  obtain ⟨k, hk, rfl⟩ := Option.map_eq_some_iff.1 h
  exact ⟨hk, rfl, rfl⟩

theorem spelled_of_mem_lex {text : String} {t : Token} (h : t ∈ (lex text).tokens) :
    t.Spelled := by
  obtain ⟨p, hp, ht⟩ := List.mem_filterMap.1 h
  obtain ⟨hkind, htext, -⟩ := PlacedTile.token?_eq_some ht
  exact ⟨p.tile, (isTiling_tiles _).wellFormed _ (tile_mem_of_mem_place hp), hkind, htext⟩

theorem spells_of_errors_eq_nil {tiles : List Tile} (hwell : ∀ t ∈ tiles, t.WellFormed) {m : Mark}
    (h : (place m tiles).filterMap PlacedTile.error? = []) :
    List.Forall₂ Tile.Spells tiles ((place m tiles).filterMap PlacedTile.token?) := by
  induction tiles generalizing m with
  | nil => exact .nil
  | cons tile tiles ih =>
    rw [place, List.filterMap_eq_nil_iff] at h
    have hmore : (place (m.after tile.chars) tiles).filterMap PlacedTile.error? = [] :=
      List.filterMap_eq_nil_iff.2 fun p hp => h p (List.mem_cons_of_mem _ hp)
    obtain ⟨k, hk⟩ : ∃ k, tile.kind? = some k := by
      cases tile with
      | stray c cs => cases h _ List.mem_cons_self
      | _ => exact ⟨_, rfl⟩
    have htoken : PlacedTile.token? ⟨tile, Span.ofText m tile.chars⟩ =
        some ⟨k, tile.text, Span.ofText m tile.chars⟩ := by
      rw [PlacedTile.token?, hk, Option.map_some]
    rw [place, List.filterMap_cons_some htoken]
    exact .cons ⟨hwell tile List.mem_cons_self, hk, rfl⟩
      (ih (fun t ht => hwell t (List.mem_cons_of_mem _ ht)) hmore)

/-- **A text that is cut into tokens without an error is the text of these tokens.** -/
theorem spell_lex {text : String} (h : (lex text).errors = []) :
    (lex text).tokens.IsChain Token.Apart ∧ spell (lex text).tokens = text := by
  have htiling := isTiling_tiles text.toList
  have hspells := spells_of_errors_eq_nil htiling.wellFormed h
  constructor
  · refine isChain_of_forall₂ ?_ hspells htiling.separate
    exact fun _ _ _ _ ha hb => apart_of_separate ha hb
  · rw [← String.toList_inj]
    exact (flatMap_chars_of_spells hspells).symm.trans (flatMap_chars_tiles _)

theorem lex_of_isIdentifier {text : String} (h : isIdentifier text) :
    (∃ t, (lex text).tokens = [t] ∧ t.kind = .identifier ∧ t.text = text) ∧
      (lex text).errors = [] := by
  let t : Token := ⟨.identifier, text, ⟨.origin, .origin⟩⟩
  have hspelled : ∀ u ∈ [t], u.Spelled := by
    obtain ⟨c, cs, -, hspells⟩ := spells_identifier h t.span
    exact List.forall_mem_singleton.2 ⟨.word c cs, hspells⟩
  have hspell : spell [t] = text := by
    rw [spell_cons, spell_nil, String.append_empty]
  obtain ⟨htokens, herrors⟩ := lex_spell hspelled (.singleton t)
  rw [hspell] at htokens herrors
  refine ⟨?_, herrors⟩
  generalize (lex text).tokens = us at htokens
  cases htokens with
  | @cons _ u _ _ hu hmore =>
    cases hmore
    exact ⟨u, rfl, hu.1.symm, hu.2.symm⟩

/-- **The names are the texts that are cut into one identifier** without an error. -/
theorem isIdentifier_iff_lex (text : String) :
    isIdentifier text ↔
      (∃ t, (lex text).tokens = [t] ∧ t.kind = .identifier ∧ t.text = text) ∧
        (lex text).errors = [] := by
  constructor
  · exact lex_of_isIdentifier
  · rintro ⟨⟨t, htokens, hkind, htext⟩, -⟩
    have ht : t ∈ (lex text).tokens := by
      rw [htokens]
      exact List.mem_singleton_self t
    rw [← htext]
    exact Token.isIdentifier_of_spelled (spelled_of_mem_lex ht) hkind

/-- A part of the text that is no name: a name is found in it, but stray text as well. -/
example : isIdentifier "9lives" = false ∧ (lex "9lives").tokens.map Token.text = ["lives"] := by
  decide +kernel

end EntitySchema
