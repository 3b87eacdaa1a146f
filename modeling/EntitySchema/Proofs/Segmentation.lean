import EntitySchema.Proofs.Spelling
import Mathlib.Algebra.Ring.Nat

/-!
# The segmentation of a text

The tokens of a text and its errors, put together in the order of their places, are the only way to
cut the text into single characters, words and stray runs that cannot be longer.

* `Stretch` — a stretch of a text in bytes; `Lexed.stretches` — those of the tokens and errors.
* `IsPiece` — what a text may be cut into; `Abut` — stretches without a gap and without an overlap.
* `IsSegmentation` — stretches that abut, each of them a piece of the text.
* `stretches_lex`: the stretches of a text are its tiles in their places.
* `isSegmentation_place`, `exists_tiling`: segmentations are tilings in their places.
* `length_lines`, `countP_newline`: the lines of a text, counted by its newlines.
* **`lex_segments_uniquely`**: a text is cut into tokens and errors by its only segmentation.
-/

namespace EntitySchema

open Text

/-- The bytes of a text from `start` up to `stop`, and the kind of token that they are; an error has
no kind. -/
structure Stretch where
  start : Nat
  stop : Nat
  kind : Option TokenKind
  deriving DecidableEq, Repr

/-- The bytes of a span. -/
def Span.stretch (s : Span) (kind : Option TokenKind) : Stretch :=
  ⟨s.first.offset, s.last.offset + 1, kind⟩

/-- Tokens and errors together, by their first bytes. -/
def Lexed.stretches (l : Lexed) : List Stretch :=
  (l.tokens.map fun t => t.span.stretch (some t.kind)).merge
    (l.errors.map fun d => d.span.stretch none) fun a b => a.start ≤ b.start

/-- The bytes of a tile in its place. -/
def PlacedTile.stretch (p : PlacedTile) : Stretch := p.span.stretch p.tile.kind?

/-! ## Segmentations -/

/-- Whether `c` can only stand in an error, unless a word goes on with it. -/
def isOther (c : Char) : Bool := c ∉ ['\n', ' ', '(', ')', '-', '>'] && !Word.isStart c

/-- The characters `cs`, in front of the text `rest`, are a token of kind `k`, or an error. Words and
errors end where they have to. -/
inductive IsPiece (rest : List Char) : Option TokenKind → List Char → Prop
  | newline : IsPiece rest (some .newline) ['\n']
  | space : IsPiece rest (some .space) [' ']
  | openParen : IsPiece rest (some .openParen) ['(']
  | closeParen : IsPiece rest (some .closeParen) [')']
  | dash : IsPiece rest (some .dash) ['-']
  | greater : IsPiece rest (some .greater) ['>']
  | primaryKey (stop : ∀ x ∈ rest.head?, Word.isPart x = false) :
      IsPiece rest (some .primaryKey) ['p', 'k']
  | identifier {c : Char} {cs : List Char} (start : Word.isStart c) (part : ∀ x ∈ cs, Word.isPart x)
      (name : c :: cs ≠ ['p', 'k']) (stop : ∀ x ∈ rest.head?, Word.isPart x = false) :
      IsPiece rest (some .identifier) (c :: cs)
  | error {c : Char} {cs : List Char} (other : ∀ x ∈ c :: cs, isOther x)
      (stop : ∀ x ∈ rest.head?, isOther x = false) : IsPiece rest none (c :: cs)

/-- Stretches that cover the bytes from `start` up to `stop` without a gap and without an overlap. -/
def Abut (start stop : Nat) : List Stretch → Prop
  | [] => start = stop
  | s :: ss => s.start = start ∧ s.start < s.stop ∧ Abut s.stop stop ss

/-- Stretches that abut on one another from the first byte of `cs` to the last, each of them a piece
of `cs` that starts and ends between two characters. -/
structure IsSegmentation (cs : List Char) (ss : List Stretch) : Prop where
  abut : Abut 0 (byteSize cs) ss
  pieces : ∀ s ∈ ss, ∃ before piece rest, cs = before ++ (piece ++ rest) ∧
    byteSize before = s.start ∧ byteSize (before ++ piece) = s.stop ∧ IsPiece rest s.kind piece

theorem Abut.sum {start stop : Nat} {ss : List Stretch} (h : Abut start stop ss) :
    start + (ss.map fun s => s.stop - s.start).sum = stop := by
  induction ss generalizing start with
  | nil => exact h
  | cons s ss ih =>
    obtain ⟨rfl, hlt, hmore⟩ := h
    have hsum := ih hmore
    rw [List.map_cons, List.sum_cons]
    omega

theorem Symbol.ofChar?_eq_none_iff {c : Char} :
    Symbol.ofChar? c = none ↔ c ∉ ['(', ')', '-', '>'] := by
  constructor
  · intro h hmem
    simp only [List.mem_cons, List.not_mem_nil, or_false] at hmem
    rcases hmem with rfl | rfl | rfl | rfl <;> exact absurd h (by decide)
  · intro hnot
    have hchar : ∀ s : Symbol, s.char ∈ ['(', ')', '-', '>'] := by
      intro s
      cases s <;> decide
    cases hc : Symbol.ofChar? c with
    | none => rfl
    | some s => exact absurd (Symbol.char_of_ofChar? hc ▸ hchar s) hnot

/-- Stray characters, said without the lead of a tile. -/
theorem isStray_eq_isOther (c : Char) : isStray c = isOther c := by
  have hlead : Lead.ofChar c = .stray ↔
      c ≠ '\n' ∧ c ≠ ' ' ∧ ¬ Word.isStart c ∧ Symbol.ofChar? c = none := by
    cases hc : Symbol.ofChar? c <;> grind [Lead.ofChar]
  rw [Bool.eq_iff_iff, isStray, isOther, decide_eq_true_eq, hlead, Symbol.ofChar?_eq_none_iff]
  simp only [List.mem_cons, List.not_mem_nil, or_false, not_or, Bool.and_eq_true, decide_eq_true_eq,
    Bool.not_eq_true', Bool.not_eq_true]
  tauto

theorem kind?_word (c : Char) (cs : List Char) :
    (Tile.word c cs).kind? =
      some (if c :: cs = ['p', 'k'] then .primaryKey else .identifier) := by
  have hword : String.ofList (c :: cs) = primaryKeyWord ↔ c :: cs = ['p', 'k'] := by
    rw [← String.toList_inj, String.toList_ofList]
    rfl
  simp only [Tile.kind?, TokenKind.ofWord, hword]

theorem isPiece_of_tile {t : Tile} (ht : t.WellFormed) {rest : List Char}
    (hrest : ∀ c ∈ rest.head?, t.continues c = false) : IsPiece rest t.kind? t.chars := by
  cases t with
  | newline => exact .newline
  | space => exact .space
  | symbol s =>
    cases s with
    | openParen => exact .openParen
    | closeParen => exact .closeParen
    | dash => exact .dash
    | greater => exact .greater
  | word c cs =>
    rw [kind?_word]
    by_cases hpk : c :: cs = ['p', 'k']
    · rw [if_pos hpk, Tile.chars, hpk]
      exact .primaryKey hrest
    · rw [if_neg hpk]
      exact .identifier ht.1 ht.2 hpk hrest
  | stray c cs =>
    refine .error ?_ ?_
    · intro x hx
      rw [← isStray_eq_isOther]
      exact (List.forall_mem_cons.2 ht : ∀ x ∈ c :: cs, isStray x) x hx
    · intro x hx
      rw [← isStray_eq_isOther]
      exact hrest x hx

theorem exists_tile {rest piece : List Char} {k : Option TokenKind} (h : IsPiece rest k piece) :
    ∃ t : Tile, t.WellFormed ∧ t.kind? = k ∧ t.chars = piece ∧
      ∀ c ∈ rest.head?, t.continues c = false := by
  cases h with
  | newline => exact ⟨.newline, trivial, rfl, rfl, fun _ _ => rfl⟩
  | space => exact ⟨.space, trivial, rfl, rfl, fun _ _ => rfl⟩
  | openParen => exact ⟨.symbol .openParen, trivial, rfl, rfl, fun _ _ => rfl⟩
  | closeParen => exact ⟨.symbol .closeParen, trivial, rfl, rfl, fun _ _ => rfl⟩
  | dash => exact ⟨.symbol .dash, trivial, rfl, rfl, fun _ _ => rfl⟩
  | greater => exact ⟨.symbol .greater, trivial, rfl, rfl, fun _ _ => rfl⟩
  | primaryKey stop =>
    have hwell : (Tile.word 'p' ['k']).WellFormed :=
      ⟨by decide, List.forall_mem_singleton.2 (by decide)⟩
    exact ⟨.word 'p' ['k'], hwell, kind?_word 'p' ['k'], rfl, stop⟩
  | @identifier c cs start part name stop =>
    refine ⟨.word c cs, ⟨start, part⟩, ?_, rfl, stop⟩
    rw [kind?_word, if_neg name]
  | @error c cs other stop =>
    refine ⟨.stray c cs, ?_, rfl, rfl, ?_⟩
    · have hstray : ∀ x ∈ c :: cs, isStray x := by
        intro x hx
        rw [isStray_eq_isOther]
        exact other x hx
      exact List.forall_mem_cons.1 hstray
    · intro x hx
      show isStray x = false
      rw [isStray_eq_isOther]
      exact stop x hx

/-! ## Tilings are segmentations -/

theorem abut_place (m : Mark) (ts : List Tile) :
    Abut m.offset (m.offset + byteSize (ts.flatMap Tile.chars))
      ((place m ts).map PlacedTile.stretch) := by
  induction ts generalizing m with
  | nil => rfl
  | cons t ts ih =>
    have hstop : (Span.ofText m t.chars).last.offset + 1 = m.offset + byteSize t.chars := by
      rw [offset_last_ofText, Mark.offset_after]
    have hpos := t.byteSize_chars_pos
    have hmore := ih (m.after t.chars)
    rw [Mark.offset_after, Nat.add_assoc, ← byteSize_append, ← List.flatMap_cons] at hmore
    refine ⟨rfl, ?_, ?_⟩
    · show m.offset < (Span.ofText m t.chars).last.offset + 1
      omega
    · show Abut ((Span.ofText m t.chars).last.offset + 1) _ _
      rw [hstop]
      exact hmore

theorem exists_split_of_mem_place {m : Mark} {ts : List Tile} {p : PlacedTile}
    (h : p ∈ place m ts) :
    ∃ us vs, ts = us ++ p.tile :: vs ∧
      p.span = Span.ofText (m.after (us.flatMap Tile.chars)) p.tile.chars := by
  induction ts generalizing m with
  | nil => cases h
  | cons t ts ih =>
    rcases List.mem_cons.1 h with rfl | h
    · exact ⟨[], ts, rfl, rfl⟩
    · obtain ⟨us, vs, hts, hspan⟩ := ih h
      refine ⟨t :: us, vs, by rw [hts, List.cons_append], ?_⟩
      rw [List.flatMap_cons, Mark.after_append]
      exact hspan

theorem head?_of_separate {t : Tile} {ts : List Tile} (h : ∀ u ∈ ts.head?, t.Separate u) :
    ∀ c ∈ (ts.flatMap Tile.chars).head?, t.continues c = false := by
  intro c hc
  rw [head?_flatMap_chars] at hc
  obtain ⟨u, hu, rfl⟩ := Option.map_eq_some_iff.1 hc
  exact h u hu

theorem exists_around {ts : List Tile} (hts : IsTiling ts) {p : PlacedTile}
    (h : p ∈ place .origin ts) :
    ∃ before rest, ts.flatMap Tile.chars = before ++ (p.tile.chars ++ rest) ∧
      byteSize before = p.stretch.start ∧ byteSize (before ++ p.tile.chars) = p.stretch.stop ∧
        p.tile.WellFormed ∧ ∀ c ∈ rest.head?, p.tile.continues c = false := by
  obtain ⟨us, vs, rfl, hspan⟩ := exists_split_of_mem_place h
  have hstart : byteSize (us.flatMap Tile.chars) = p.stretch.start := by
    show _ = p.span.first.offset
    rw [hspan]
    show _ = (Mark.origin.after _).offset
    rw [Mark.offset_after]
    exact (Nat.zero_add _).symm
  have hstop : byteSize (us.flatMap Tile.chars ++ p.tile.chars) = p.stretch.stop := by
    show _ = p.span.last.offset + 1
    rw [hspan, offset_last_ofText, Mark.offset_after, Mark.offset_after, byteSize_append]
    exact (congrArg (· + _) (Nat.zero_add _)).symm
  have htail : IsTiling (p.tile :: vs) :=
    ⟨fun t ht => hts.wellFormed t (List.mem_append_right us ht), hts.separate.right_of_append⟩
  obtain ⟨hwell, hseparate, -⟩ := isTiling_cons.1 htail
  refine ⟨_, vs.flatMap Tile.chars, ?_, hstart, hstop, hwell, head?_of_separate hseparate⟩
  rw [List.flatMap_append, List.flatMap_cons]

theorem isSegmentation_place {ts : List Tile} (h : IsTiling ts) :
    IsSegmentation (ts.flatMap Tile.chars) ((place .origin ts).map PlacedTile.stretch) := by
  constructor
  · have habut := abut_place .origin ts
    rwa [show Mark.origin.offset = 0 from rfl, Nat.zero_add] at habut
  · intro s hs
    obtain ⟨p, hp, rfl⟩ := List.mem_map.1 hs
    obtain ⟨before, rest, htext, hstart, hstop, hwell, hrest⟩ := exists_around h hp
    exact ⟨before, p.tile.chars, rest, htext, hstart, hstop, isPiece_of_tile hwell hrest⟩

/-! ## Segmentations are tilings -/

theorem append_inj_byteSize {as bs as' bs' : List Char} (h : as ++ bs = as' ++ bs')
    (hsize : byteSize as = byteSize as') : as = as' ∧ bs = bs' := by
  have hsplit := splitAtByte?_byteSize_append as bs
  rw [h, hsize, splitAtByte?_byteSize_append, Option.some.injEq, Prod.mk.injEq] at hsplit
  exact ⟨hsplit.1.symm, hsplit.2.symm⟩

/-- **A segmentation comes from a tiling.** The text `before` has been cut already. -/
theorem exists_tiling {before cs : List Char} {ss : List Stretch} {m : Mark}
    (hm : m.offset = byteSize before) (habut : Abut m.offset (byteSize (before ++ cs)) ss)
    (hpieces : ∀ s ∈ ss, ∃ as piece rest, before ++ cs = as ++ (piece ++ rest) ∧
      byteSize as = s.start ∧ byteSize (as ++ piece) = s.stop ∧ IsPiece rest s.kind piece) :
    ∃ ts, IsTiling ts ∧ ts.flatMap Tile.chars = cs ∧
      (place m ts).map PlacedTile.stretch = ss := by
  induction ss generalizing before cs m with
  | nil =>
    have hsize : byteSize before = byteSize (before ++ cs) := hm.symm.trans habut
    rw [byteSize_append] at hsize
    have hnil : cs = [] := byteSize_eq_zero.1 (by omega)
    exact ⟨[], isTiling_nil, hnil.symm, rfl⟩
  | cons s ss ih =>
    obtain ⟨hstart, -, hmore⟩ := habut
    obtain ⟨as, piece, rest, htext, has, hstop, hpiece⟩ := hpieces s List.mem_cons_self
    obtain ⟨rfl, rfl⟩ := append_inj_byteSize htext (by omega)
    obtain ⟨t, hwell, hkind, rfl, hrest⟩ := exists_tile hpiece
    have hm' : (m.after t.chars).offset = byteSize (before ++ t.chars) := by
      rw [Mark.offset_after, byteSize_append, hm]
    have hlater : Abut (m.after t.chars).offset (byteSize ((before ++ t.chars) ++ rest)) ss := by
      rw [hm', hstop, List.append_assoc]
      exact hmore
    obtain ⟨ts, htiling, hchars, hplaced⟩ := ih hm' hlater fun s' hs' => by
      rw [List.append_assoc]
      exact hpieces s' (List.mem_cons_of_mem _ hs')
    refine ⟨t :: ts, isTiling_cons.2 ⟨hwell, ?_, htiling⟩, ?_, ?_⟩
    · intro u hu
      refine hrest u.firstChar ?_
      rw [← hchars, head?_flatMap_chars, Option.mem_def.1 hu]
      rfl
    · rw [List.flatMap_cons, hchars]
    · rw [place, List.map_cons, hplaced]
      have hhead : PlacedTile.stretch ⟨t, Span.ofText m t.chars⟩ = s := by
        have hlast : (Span.ofText m t.chars).last.offset + 1 = s.stop := by
          rw [offset_last_ofText, hm', hstop]
        show Stretch.mk m.offset _ t.kind? = s
        rw [← hstart, hlast, hkind]
      rw [hhead]

/-! ## Tokens and errors together -/

section Merge

variable {α : Type} {le : α → α → Bool} {x : α} {xs ys : List α}

theorem cons_merge (h : ∀ y ∈ ys, le x y) : (x :: xs).merge ys le = x :: xs.merge ys le := by
  cases ys with
  | nil => simp
  | cons y ys => exact List.cons_merge_cons_pos le xs ys (h y List.mem_cons_self)

theorem merge_cons (h : ∀ y ∈ ys, le y x = false) : ys.merge (x :: xs) le = x :: ys.merge xs le := by
  cases ys with
  | nil => simp
  | cons y ys => exact List.cons_merge_cons_neg le ys xs (by simp [h y List.mem_cons_self])

end Merge

theorem PlacedTile.token?_or_error? (p : PlacedTile) :
    (∃ t, p.token? = some t ∧ p.error? = none ∧ t.span = p.span ∧ some t.kind = p.tile.kind?) ∨
      ∃ d, p.token? = none ∧ p.error? = some d ∧ d.span = p.span ∧ p.tile.kind? = none := by
  obtain ⟨tile, span⟩ := p
  cases tile with
  | stray c cs => exact .inr ⟨_, rfl, rfl, rfl, rfl⟩
  | _ => exact .inl ⟨_, rfl, rfl, rfl, rfl⟩

theorem merge_filterMap {ps : List PlacedTile}
    (h : ps.Pairwise fun p q => p.span.first.offset < q.span.first.offset) :
    Lexed.stretches ⟨ps.filterMap PlacedTile.token?, ps.filterMap PlacedTile.error?⟩ =
      ps.map PlacedTile.stretch := by
  unfold Lexed.stretches
  induction ps with
  | nil => exact List.nil_merge _
  | cons p ps ih =>
    obtain ⟨hp, hps⟩ := List.pairwise_cons.1 h
    have hmore := ih hps
    rcases p.token?_or_error? with ⟨t, ht, hd, hspan, hkind⟩ | ⟨d, ht, hd, hspan, hkind⟩
    · rw [List.filterMap_cons_some ht, List.filterMap_cons_none hd, List.map_cons, cons_merge, hmore,
        List.map_cons, hspan, hkind]
      · rfl
      · intro y hy
        obtain ⟨d, hd, rfl⟩ := List.mem_map.1 hy
        obtain ⟨q, hq, hqd⟩ := List.mem_filterMap.1 hd
        have hlt := hp q hq
        rcases q.token?_or_error? with ⟨-, -, hnone, -⟩ | ⟨d', -, hsome, hspan', -⟩
        · rw [hnone] at hqd
          cases hqd
        · obtain rfl : d' = d := Option.some.inj (hsome.symm.trans hqd)
          have hle : t.span.first.offset ≤ d'.span.first.offset := by
            rw [hspan, hspan']
            omega
          exact decide_eq_true hle
    · rw [List.filterMap_cons_none ht, List.filterMap_cons_some hd, List.map_cons, merge_cons, hmore,
        List.map_cons, hspan]
      · unfold PlacedTile.stretch
        rw [hkind]
      · intro y hy
        obtain ⟨t, ht, rfl⟩ := List.mem_map.1 hy
        obtain ⟨q, hq, hqt⟩ := List.mem_filterMap.1 ht
        have hlt := hp q hq
        have hspan' := (PlacedTile.token?_eq_some hqt).2.2
        have hnot : ¬ t.span.first.offset ≤ d.span.first.offset := by
          rw [hspan, ← hspan']
          omega
        exact decide_eq_false hnot

theorem stretches_lex (text : String) :
    (lex text).stretches = (place .origin (tiles text.toList)).map PlacedTile.stretch := by
  refine merge_filterMap ((pairwise_place _ _).imp_of_mem ?_)
  intro p q hp _ hpq
  have hle := offset_first_le_last hp
  omega

/-- **The segmentations of a text are its tokens and errors, and nothing else.** -/
theorem isSegmentation_iff {text : String} {ss : List Stretch} :
    IsSegmentation text.toList ss ↔ ss = (lex text).stretches := by
  rw [stretches_lex]
  constructor
  · intro h
    obtain ⟨ts, htiling, hchars, hplaced⟩ :=
      @exists_tiling [] text.toList ss .origin rfl h.abut h.pieces
    rw [← hplaced, ← hchars, tiles_flatMap_chars htiling]
  · rintro rfl
    have h := isSegmentation_place (isTiling_tiles text.toList)
    rwa [flatMap_chars_tiles] at h

theorem slice?_token {text : String} {t : Token} (h : t ∈ (lex text).tokens) :
    slice? text.toList t.span.first.offset (t.span.last.offset + 1) = some t.text.toList := by
  obtain ⟨p, hp, ht⟩ := List.mem_filterMap.1 h
  obtain ⟨-, htext, hspan⟩ := PlacedTile.token?_eq_some ht
  obtain ⟨before, rest, hchars, hstart, hstop, -⟩ := exists_around (isTiling_tiles _) hp
  rw [flatMap_chars_tiles] at hchars
  have hpiece : t.text.toList = p.tile.chars := by
    rw [← htext, Tile.text, String.toList_ofList]
  rw [slice?_eq_some_iff, hpiece, ← hspan]
  exact ⟨before, rest, by rw [hchars, List.append_assoc], hstart, hstop⟩

theorem pairwise_filterMap_place {α : Type} {f : PlacedTile → Option α} {span : α → Span}
    (hf : ∀ p a, f p = some a → span a = p.span) (m : Mark) (ts : List Tile) :
    ((place m ts).filterMap f).Pairwise fun a b => (span a).last.offset < (span b).first.offset := by
  refine (pairwise_place m ts).filterMap f ?_
  intro p q hpq a ha b hb
  rw [hf p a ha, hf q b hb]
  exact hpq

theorem PlacedTile.error?_eq_some {p : PlacedTile} {d : Diagnostic} (h : p.error? = some d) :
    d.span = p.span ∧ d.code = "E1000" := by
  obtain ⟨tile, span⟩ := p
  cases tile with
  | stray c cs =>
    cases h
    exact ⟨rfl, rfl⟩
  | _ => cases h

/-- Two words, or two errors. -/
def Stretch.Alike (a b : Stretch) : Prop :=
  (∃ k l, a.kind = some k ∧ b.kind = some l ∧ k.isWord ∧ l.isWord) ∨ a.kind = none ∧ b.kind = none

theorem not_alike_of_separate {a b : PlacedTile} (ha : a.tile.WellFormed) (hb : b.tile.WellFormed)
    (h : a.tile.Separate b.tile) : ¬ a.stretch.Alike b.stretch := by
  rintro (⟨k, l, hk, hl, hkword, hlword⟩ | ⟨hanone, hbnone⟩)
  · have hapart := apart_of_separate (t := ⟨k, _, a.span⟩) (u := ⟨l, _, b.span⟩) ⟨ha, hk, rfl⟩
      ⟨hb, hl, rfl⟩ h
    exact hapart ⟨hkword, hlword⟩
  · change a.tile.kind? = none at hanone
    change b.tile.kind? = none at hbnone
    unfold Tile.Separate at h
    cases hta : a.tile with
    | stray c cs =>
      cases htb : b.tile with
      | stray d ds =>
        rw [hta, htb] at h
        rw [htb] at hb
        exact absurd hb.1 (Bool.eq_false_iff.1 h)
      | _ =>
        rw [htb] at hbnone
        cases hbnone
    | _ =>
      rw [hta] at hanone
      cases hanone

theorem isChain_stretches (text : String) :
    (lex text).stretches.IsChain fun a b => ¬ a.Alike b := by
  have htiling := isTiling_tiles text.toList
  have hseparate := htiling.separate
  rw [← map_tile_place .origin (tiles text.toList), List.isChain_map] at hseparate
  rw [stretches_lex, List.isChain_map]
  refine hseparate.imp_of_mem_imp ?_
  intro p q hp hq hpq
  exact not_alike_of_separate (htiling.wellFormed _ (tile_mem_of_mem_place hp))
    (htiling.wellFormed _ (tile_mem_of_mem_place hq)) hpq

theorem length_lines (cs : List Char) :
    (lines cs).length = cs.count '\n' + if cs = [] ∨ cs.getLast? = some '\n' then 0 else 1 := by
  induction cs with
  | nil => rfl
  | cons c cs ih =>
    rw [lines]
    by_cases hc : c = '\n'
    · subst hc
      rw [if_pos rfl, List.length_cons, ih, List.count_cons_self]
      cases cs with
      | nil => rfl
      | cons d ds =>
        have hlast : ('\n' :: d :: ds).getLast? = (d :: ds).getLast? := List.getLast?_cons_cons
        simp only [hlast, List.cons_ne_nil, false_or]
        omega
    · rw [if_neg hc, List.count_cons_of_ne hc]
      cases cs with
      | nil => simp [lines, hc]
      | cons d ds =>
        have hlast : (c :: d :: ds).getLast? = (d :: ds).getLast? := List.getLast?_cons_cons
        simp only [hlast, List.cons_ne_nil, false_or] at ih ⊢
        rw [← ih]
        split
        · next hnil =>
          have hflat := flatten_lines (d :: ds)
          rw [hnil] at hflat
          cases hflat
        · next hlines => rw [hlines]; rfl

theorem eq_newline_of_kind? {t : Tile} (h : t.kind? = some .newline) : t = .newline := by
  cases t with
  | newline => rfl
  | space => cases h
  | symbol s => cases s <;> cases h
  | word c cs =>
    rw [kind?_word] at h
    split at h <;> cases h
  | stray c cs => cases h

theorem count_newline_chars {t : Tile} (h : t.WellFormed) :
    t.chars.count '\n' = if t.kind? = some .newline then 1 else 0 := by
  by_cases ht : t = .newline
  · subst ht
    rfl
  · rw [if_neg (mt eq_newline_of_kind? ht)]
    exact List.count_eq_zero.2 (t.newline_notMem_chars h ht)

theorem countP_newline_place {ts : List Tile} (h : ∀ t ∈ ts, t.WellFormed) (m : Mark) :
    ((place m ts).filterMap PlacedTile.token?).countP (·.kind = .newline) =
      (ts.flatMap Tile.chars).count '\n' := by
  induction ts generalizing m with
  | nil => rfl
  | cons t ts ih =>
    have hmore := ih (fun u hu => h u (List.mem_cons_of_mem _ hu)) (m.after t.chars)
    rw [place, List.flatMap_cons, List.count_append, ← hmore,
      count_newline_chars (h t List.mem_cons_self)]
    cases hkind : t.kind? with
    | none =>
      have htoken : PlacedTile.token? ⟨t, Span.ofText m t.chars⟩ = none := by
        rw [PlacedTile.token?, hkind, Option.map_none]
      rw [List.filterMap_cons_none htoken, if_neg (by simp), Nat.zero_add]
    | some k =>
      have htoken : PlacedTile.token? ⟨t, Span.ofText m t.chars⟩ =
          some ⟨k, t.text, Span.ofText m t.chars⟩ := by
        rw [PlacedTile.token?, hkind, Option.map_some]
      rw [List.filterMap_cons_some htoken, List.countP_cons, Nat.add_comm]
      simp only [decide_eq_true_eq, Option.some.injEq]

theorem countP_newline (text : String) :
    (lex text).tokens.countP (·.kind = .newline) = text.toList.count '\n' := by
  have h := countP_newline_place (isTiling_tiles text.toList).wellFormed .origin
  rwa [flatMap_chars_tiles] at h

/-- **A text has one segmentation, and is cut into tokens and errors by it.** -/
theorem lex_segments_uniquely (text : String) :
    (∀ ss, IsSegmentation text.toList ss ↔ ss = (lex text).stretches) ∧
      (lex text).stretches.IsChain (fun a b => ¬ a.Alike b) ∧
      (∀ t ∈ (lex text).tokens,
        slice? text.toList t.span.first.offset (t.span.last.offset + 1) = some t.text.toList) ∧
      (∀ d ∈ (lex text).errors, d.code = "E1000") ∧
      (lex text).tokens.Pairwise (fun a b => a.span.last.offset < b.span.first.offset) ∧
      (lex text).errors.Pairwise (fun a b => a.span.last.offset < b.span.first.offset) ∧
      ∀ path,
        (Listing.ofText path text).byteCount =
            ((lex text).stretches.map fun s => s.stop - s.start).sum ∧
          (Listing.ofText path text).lineCount =
            (lex text).tokens.countP (·.kind = .newline) +
              if text.toList = [] ∨ text.toList.getLast? = some '\n' then 0 else 1 := by
  have hsegmentation : IsSegmentation text.toList (lex text).stretches := isSegmentation_iff.2 rfl
  refine ⟨fun ss => isSegmentation_iff, isChain_stretches text, fun t ht => slice?_token ht, ?_,
    pairwise_filterMap_place (fun p t ht => (PlacedTile.token?_eq_some ht).2.2.symm) _ _,
    pairwise_filterMap_place (fun p d hd => (PlacedTile.error?_eq_some hd).1) _ _, ?_⟩
  · intro d hd
    obtain ⟨p, -, hp⟩ := List.mem_filterMap.1 hd
    exact (PlacedTile.error?_eq_some hp).2
  · intro path
    constructor
    · have hsum := hsegmentation.abut.sum
      rw [Nat.zero_add] at hsum
      exact hsum.symm
    · rw [countP_newline]
      exact length_lines text.toList

end EntitySchema
