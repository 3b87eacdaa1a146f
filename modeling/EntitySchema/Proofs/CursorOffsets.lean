import EntitySchema.Proofs.Cursors
import EntitySchema.Proofs.Placement
import EntitySchema.Proofs.Positions

/-!
# Offsets of cursors

The offset of a cursor is found by going through the lines of a text, and apart from the offsets that
are counted while the text is read. Both agree on everything that has a span, newlines apart.

* **`Editor.offsetAt_of_position`**: a cursor that has the position behind a part of the text has its
  offset.
* `Editor.Agrees` — a span whose range starts and ends at the bytes that the span tells.
* `Schema.spans` — the spans of all parts of a schema; `Span.OnTokens` — spans that cover some tokens,
  of which none is a newline; **`onTokens_of_mem_spans`**: those of all parts do.
* **`Editor.ranges_agree`**: the ranges of tokens, of errors about stray text, and of all parts of a
  schema agree with their spans.
-/

namespace EntitySchema

namespace Text

theorem lines_append_newline {l : List Char} (hl : '\n' ∉ l) (cs : List Char) :
    lines (l ++ '\n' :: cs) = (l ++ ['\n']) :: lines cs := by
  induction l with
  | nil => rw [List.nil_append, lines, if_pos rfl, List.nil_append]
  | cons c l ih =>
    obtain ⟨hc, hl⟩ := not_or.1 (mt List.mem_cons.2 hl)
    rw [List.cons_append, lines, if_neg (Ne.symm hc), ih hl, List.cons_append]

theorem prefix_lineBody {as : List Char} (has : '\n' ∉ as) (bs : List Char) :
    ∀ l ∈ (lines (as ++ bs)).head?, as <+: lineBody l := by
  induction as with
  | nil => exact fun l _ => List.nil_prefix
  | cons c as ih =>
    obtain ⟨hc, has⟩ := not_or.1 (mt List.mem_cons.2 has)
    have hne : c ≠ '\n' := Ne.symm hc
    have ih := ih has
    have hflatten := flatten_lines (as ++ bs)
    rw [List.cons_append, lines, if_neg hne]
    cases hlines : lines (as ++ bs) with
    | nil =>
      rw [hlines, List.flatten_nil, List.nil_eq_append_iff] at hflatten
      obtain ⟨rfl, rfl⟩ := hflatten
      simp [lineBody, hne]
    | cons l ls =>
      rw [hlines] at ih
      have hl := ih l rfl
      simpa [lineBody, hne] using hl

end Text

namespace Editor

/-! ## Offsets -/

section Offsets

variable {c : Cursor} {n : Nat}

theorem offsetInLines_of_line_eq {as : List Char} (has : '\n' ∉ as) (bs : List Char)
    (hline : c.line.toNat = n) (hcharacter : c.character.toNat = as.length) :
    offsetInLines c n (Text.lines (as ++ bs)) = Text.byteSize as := by
  have hbody := Text.prefix_lineBody has bs
  have hflatten := Text.flatten_lines (as ++ bs)
  cases hlines : Text.lines (as ++ bs) with
  | nil =>
    rw [hlines, List.flatten_nil, List.nil_eq_append_iff] at hflatten
    rw [hflatten.1]
    rfl
  | cons l ls =>
    rw [hlines] at hbody
    obtain ⟨more, hl⟩ := hbody l rfl
    have heq : UInt32.ofNat n = c.line := by rw [← hline, UInt32.ofNat_toNat]
    rw [offsetInLines, if_pos heq, ← hl, hcharacter, List.take_left]

/-- The numbers of the lines in front of a cursor fit in 32 bits, and are not taken for its own. -/
theorem ofNat_ne_of_lt (hline : n < c.line.toNat) : UInt32.ofNat n ≠ c.line := by
  have hlt : n < 2 ^ 32 := hline.trans c.line.toNat_lt
  intro heq
  rw [← heq, UInt32.toNat_ofNat_of_lt' hlt] at hline
  exact Nat.lt_irrefl n hline

theorem offsetInLines_of_line_lt {l : List Char} (hl : '\n' ∉ l) (cs : List Char)
    (hline : n < c.line.toNat) :
    offsetInLines c n (Text.lines (l ++ '\n' :: cs)) =
      Text.byteSize (l ++ ['\n']) + offsetInLines c (n + 1) (Text.lines cs) := by
  rw [Text.lines_append_newline hl, offsetInLines, if_neg (ofNat_ne_of_lt hline)]

theorem offsetInLines_of_position {as : List Char} (bs : List Char) {m : Mark}
    (hm : m.position = ⟨n + 1, 1⟩) (hc : c.position = (m.after as).position) :
    offsetInLines c n (Text.lines (as ++ bs)) = Text.byteSize as := by
  -- the lines in front of the cursor are taken off one by one
  induction hlength : as.length using Nat.strong_induction_on generalizing as m n with
  | _ length ih =>
  have hline : c.line.toNat = n + as.count '\n' := by
    have hposition := congrArg Position.line hc
    rw [line_after, hm, Cursor.position] at hposition
    exact Nat.succ.inj (hposition.trans (Nat.succ_add _ _))
  by_cases has : '\n' ∈ as
  · obtain ⟨l, as', rfl, hl⟩ := List.eq_append_cons_of_mem has
    have hstep : ((m.after l).step '\n').position = ⟨n + 1 + 1, 1⟩ := by
      rw [Mark.step, position_after hl, hm]
      rfl
    have hmore : offsetInLines c (n + 1) (Text.lines (as' ++ bs)) = Text.byteSize as' := by
      refine ih as'.length ?_ hstep ?_ rfl
      · rw [← hlength, List.length_append, List.length_cons]
        omega
      · rw [hc, Mark.after_append, Mark.after_cons]
    rw [List.count_append, List.count_cons_self] at hline
    have htext : l ++ '\n' :: as' = (l ++ ['\n']) ++ as' := by simp
    rw [List.append_assoc, List.cons_append, offsetInLines_of_line_lt hl _ (by omega), hmore,
      ← Text.byteSize_append, ← htext]
  · rw [List.count_eq_zero.2 has] at hline
    refine offsetInLines_of_line_eq has bs hline ?_
    have hposition := congrArg Position.column hc
    rw [position_after has, hm, Cursor.position] at hposition
    exact Nat.succ.inj (hposition.trans (Nat.add_comm _ _))

end Offsets

/-- **The offset of a cursor is that of the place which has its position.** -/
theorem offsetAt_of_position {as : List Char} (bs : List Char) {c : Cursor}
    (hc : c.position = (Mark.origin.after as).position) :
    offsetAt (as ++ bs) c = Text.byteSize as :=
  offsetInLines_of_position bs rfl hc

/-! ## Spans and their ranges -/

/-- The range of span `s` starts at the first byte of the span and ends behind its last byte, if the
cursors are looked up in the text `cs`; and it starts at the first position. -/
structure Agrees (cs : List Char) (s : Span) : Prop where
  start : offsetAt cs (Range.ofSpan s).start = s.first.offset
  stop : offsetAt cs (Range.ofSpan s).stop = s.last.offset + 1
  position : (Range.ofSpan s).start.position = s.first.position

theorem Agrees.between {cs : List Char} {a b s : Span} (ha : Agrees cs a) (hb : Agrees cs b)
    (hfirst : a.first = s.first) (hlast : b.last = s.last) : Agrees cs s where
  start := by
    rw [← hfirst, ← ha.start, Range.ofSpan, Range.ofSpan, hfirst]
  stop := by
    rw [← hlast, ← hb.stop, Range.ofSpan, Range.ofSpan, hlast]
  position := by
    rw [← hfirst, ← ha.position, Range.ofSpan, Range.ofSpan, hfirst]

theorem agrees_ofText {before cs rest : List Char} (hfits : Fits (before ++ (cs ++ rest)))
    (hne : cs ≠ []) (hline : '\n' ∉ cs) :
    Agrees (before ++ (cs ++ rest)) (.ofText (Mark.origin.after before) cs) := by
  have hrange := Range.ofSpan_ofText hne hline (Mark.origin.after before)
  have hstart := hfits.position_ofMark
  have hfits' : Fits ((before ++ cs) ++ rest) := by rwa [List.append_assoc]
  have hstop := hfits'.position_ofMark
  have hoffset : (Mark.origin.after before).offset = Text.byteSize before := by
    rw [Mark.offset_after]
    exact Nat.zero_add _
  have hpos : 0 < Text.byteSize cs := by
    rw [Nat.pos_iff_ne_zero, Ne, Text.byteSize_eq_zero]
    exact hne
  constructor
  · rw [hrange, offsetAt_of_position _ hstart, ← hoffset]
    rfl
  · rw [hrange, ← Mark.after_append, ← List.append_assoc, offsetAt_of_position _ hstop,
      Text.byteSize_append, ← hoffset]
    show _ = (Mark.origin.after before).offset + (Text.byteSize cs - 1) + 1
    omega
  · rw [hrange, hstart]
    rfl

theorem agrees_of_mem_place {cs : List Char} (hfits : Fits cs) {p : PlacedTile}
    (hp : p ∈ place .origin (tiles cs)) (hnewline : p.tile ≠ .newline) : Agrees cs p.span := by
  have hwell := (isTiling_tiles cs).wellFormed _ (tile_mem_of_mem_place hp)
  obtain ⟨us, vs, htiles, hspan⟩ := exists_split_of_mem_place hp
  have htext : cs = us.flatMap Tile.chars ++ (p.tile.chars ++ vs.flatMap Tile.chars) := by
    rw [← List.flatMap_cons, ← List.flatMap_append, ← htiles, flatMap_chars_tiles]
  rw [htext] at hfits ⊢
  rw [hspan]
  exact agrees_ofText hfits p.tile.chars_ne_nil (p.tile.newline_notMem_chars hwell hnewline)

end Editor

/-! ## Parts of a schema -/

/-- The spans of a reference and its parts. -/
def Reference.spans (r : Reference) : List Span := r.span :: r.parts

/-- The spans of an attribute and its parts, with those of its reference. -/
def Attribute.spans (a : Attribute) : List Span :=
  [a.span, a.name.span, a.type.span] ++ a.primaryKey.toList ++
    a.reference.toList.flatMap Reference.spans

/-- The spans of an entity and its parts, with those of its attributes. -/
def Entity.spans (e : Entity) : List Span :=
  [e.span, e.name.span] ++ e.attributes.flatMap Attribute.spans

/-- The spans of all parts of a schema; empty lines have none. -/
def Schema.spans (s : Schema) : List Span := s.entities.flatMap Entity.spans

section Leaves

variable {s : Span}

/-- Span `s` covers some of the tokens `ts`, none of which is a newline. -/
def Span.OnTokens (s : Span) (ts : List Token) : Prop :=
  ∃ us ⊆ ts, s.Covers us ∧ ∀ t ∈ us, t.kind ≠ .newline

theorem Span.OnTokens.mono {ts us : List Token} (h : s.OnTokens ts) (hsub : ts ⊆ us) :
    s.OnTokens us := by
  obtain ⟨vs, hvs, hcovers, hkind⟩ := h
  exact ⟨vs, List.Subset.trans hvs hsub, hcovers, hkind⟩

theorem Leaf.onTokens {k : TokenKind} (x : Leaf k) (hk : k ≠ .newline) :
    x.token.span.OnTokens [x.token] := by
  refine ⟨_, List.Subset.refl _, covers_singleton _, ?_⟩
  simpa using hk

theorem ReferenceTree.kind_ne_newline (r : ReferenceTree) : ∀ t ∈ r.tokens, t.kind ≠ .newline := by
  simp [tokens, tail]

theorem AttributeLeaves.kind_ne_newline (a : AttributeLeaves) :
    ∀ t ∈ a.tokens, t.kind ≠ .newline := by
  obtain ⟨name, type, key, reference⟩ := a
  simp only [tokens, tail, List.forall_mem_cons, List.forall_mem_append]
  refine ⟨by simp, by simp, ?_, ?_⟩
  · cases key <;> simp
  · cases reference with
    | none => simp
    | some r => exact r.kind_ne_newline

theorem ReferenceTree.onTokens {r : ReferenceTree} (h : InOrder r.tokens)
    (hs : s ∈ r.toReference.spans) : s.OnTokens r.tokens := by
  have harrow : InOrder [r.dash.token, r.head.token] :=
    h.sublist (List.sublist_append_left [r.dash.token, r.head.token] r.tail.tail)
  simp only [Reference.spans, Reference.parts, List.mem_cons, List.not_mem_nil, or_false] at hs
  rcases hs with rfl | rfl | rfl | rfl
  · exact ⟨_, List.Subset.refl _, covers h, r.kind_ne_newline⟩
  · refine ⟨[r.dash.token, r.head.token], ?_,
      (covers_singleton _).merge [] (covers_singleton _) harrow, by simp⟩
    simp [tokens, tail]
  · exact (r.entity.onTokens (by decide)).mono (by simp [tokens, tail])
  · exact (r.target.onTokens (by decide)).mono (by simp [tokens, tail])

theorem AttributeLeaves.onTokens {a : AttributeLeaves} (h : InOrder a.tokens)
    (hs : s ∈ a.toAttribute.spans) : s.OnTokens a.tokens := by
  simp only [Attribute.spans, List.mem_append, List.mem_cons, List.not_mem_nil, or_false] at hs
  rcases hs with ((rfl | rfl | rfl) | hs) | hs
  · exact ⟨_, List.Subset.refl _, covers h, a.kind_ne_newline⟩
  · exact (a.name.onTokens (by decide)).mono (by simp [tokens])
  · exact (a.type.onTokens (by decide)).mono (by simp [tokens])
  · obtain ⟨k, hk, rfl⟩ := Option.map_eq_some_iff.1 (Option.mem_toList.1 hs)
    exact (k.onTokens (by decide)).mono (by simp [tokens, tail, hk])
  · obtain ⟨r, hr, hs⟩ := List.mem_flatMap.1 hs
    obtain ⟨tree, htree, rfl⟩ := Option.map_eq_some_iff.1 (Option.mem_toList.1 hr)
    have hsub : tree.tokens.Sublist a.tokens := by
      rw [tokens, tail, htree]
      exact .cons _ (.cons _ (List.sublist_append_right _ _))
    exact (tree.onTokens (h.sublist hsub) hs).mono hsub.subset

theorem StatementLeaves.onTokens {l : StatementLeaves} {e : Entity} (h : InOrder l.tokens)
    (he : l.toStatement = .entity e) (hs : s ∈ e.spans) : s.OnTokens l.tokens := by
  cases l with
  | empty n => cases he
  | entity x as =>
    cases he
    simp only [Entity.spans, List.mem_append, List.mem_cons, List.not_mem_nil, or_false] at hs
    rcases hs with (rfl | rfl) | hs
    · refine ⟨_, List.Subset.refl _, covers h, ?_⟩
      simp only [tokens, List.forall_mem_cons, List.forall_mem_flatMap]
      exact ⟨by simp, fun a _ => a.kind_ne_newline⟩
    · exact (x.onTokens (by decide)).mono (by simp [tokens])
    · obtain ⟨a, ha, hs⟩ := List.mem_flatMap.1 hs
      obtain ⟨l, hl, rfl⟩ := List.mem_map.1 ha
      have has : InOrder (as.flatMap AttributeLeaves.tokens) := h.sublist (List.sublist_cons_self _ _)
      refine (AttributeLeaves.onTokens (has.of_mem hl) hs).mono ?_
      intro t ht
      exact List.mem_cons_of_mem _ (List.mem_flatMap.2 ⟨l, hl, ht⟩)

end Leaves

theorem onTokens_of_mem_spans {text : String} {s : Span} (hs : s ∈ (parse text).schema.spans) :
    s.OnTokens (lex text).tokens := by
  obtain ⟨ls, hsub, hstatements⟩ := Parser.exists_statementLeaves (lex text).tokens
  have hls : InOrder (ls.flatMap StatementLeaves.tokens) := (inOrder_lex text).sublist hsub
  obtain ⟨e, he, hs⟩ := List.mem_flatMap.1 hs
  obtain ⟨statement, hmem, hentity⟩ := List.mem_filterMap.1 he
  have hschema : (parse text).schema.statements = ls.map StatementLeaves.toStatement := hstatements
  rw [hschema] at hmem
  obtain ⟨l, hl, rfl⟩ := List.mem_map.1 hmem
  have hstatement : l.toStatement = .entity e := by
    cases l with
    | empty n => cases hentity
    | entity x as => exact congrArg Statement.entity (Option.some.inj hentity)
  refine (StatementLeaves.onTokens (hls.of_mem hl) hstatement hs).mono ?_
  intro t ht
  exact hsub.subset (List.mem_flatMap.2 ⟨l, hl, ht⟩)

namespace Editor

section Lex

variable {text : String} (hfits : Fits text.toList)
include hfits

theorem agrees_token {t : Token} (ht : t ∈ (lex text).tokens) (hkind : t.kind ≠ .newline) :
    Agrees text.toList t.span := by
  obtain ⟨p, hp, htoken⟩ := List.mem_filterMap.1 ht
  obtain ⟨hk, -, hspan⟩ := PlacedTile.token?_eq_some htoken
  rw [← hspan]
  refine agrees_of_mem_place hfits hp fun hnewline => hkind ?_
  rw [hnewline] at hk
  exact (Option.some.inj hk).symm

theorem agrees_error {d : Diagnostic} (hd : d ∈ (lex text).errors) :
    Agrees text.toList d.span := by
  obtain ⟨p, hp, herror⟩ := List.mem_filterMap.1 hd
  rw [(PlacedTile.error?_eq_some herror).1]
  refine agrees_of_mem_place hfits hp fun hnewline => ?_
  rw [PlacedTile.error?, hnewline] at herror
  cases herror

theorem agrees_onTokens {s : Span} (hs : s.OnTokens (lex text).tokens) : Agrees text.toList s := by
  obtain ⟨us, hus, hcovers, hkind⟩ := hs
  obtain ⟨t, ht, hfirst⟩ := hcovers.first
  obtain ⟨u, hu, hlast⟩ := hcovers.last
  have ht : t ∈ us := List.mem_of_mem_head? ht
  have hu : u ∈ us := List.mem_of_mem_getLast? hu
  exact (agrees_token hfits (hus ht) (hkind t ht)).between
    (agrees_token hfits (hus hu) (hkind u hu)) hfirst hlast

end Lex

/-- **Ranges agree with spans**, where lines and characters can be counted in 32 bits. -/
theorem ranges_agree (text : String) (hfits : Fits text.toList) (s : Span)
    (hs : (∃ t ∈ (lex text).tokens, t.kind ≠ .newline ∧ t.span = s) ∨
      (∃ d ∈ (parse text).errors, d.code = "E1000" ∧ d.span = s) ∨
      s ∈ (parse text).schema.spans) :
    offsetAt text.toList (Range.ofSpan s).start = s.first.offset ∧
      offsetAt text.toList (Range.ofSpan s).stop = s.last.offset + 1 ∧
      (Range.ofSpan s).start.position = s.first.position := by
  have hagrees : Agrees text.toList s := by
    rcases hs with ⟨t, ht, hkind, rfl⟩ | ⟨d, hd, hcode, rfl⟩ | hs
    · exact agrees_token hfits ht hkind
    · rcases List.mem_append.1 hd with hd | hd
      · exact agrees_error hfits hd
      · obtain ⟨m, -, rfl⟩ := List.mem_map.1 hd
        exact absurd hcode (show "E1500" ≠ "E1000" by decide)
    · exact agrees_onTokens hfits (onTokens_of_mem_spans hs)
  exact ⟨hagrees.start, hagrees.stop, hagrees.position⟩

/-- An entity on two lines, behind a stray run of wide characters. -/
theorem ranges_agree_users :
    let text := "é€\nusers\n  boss id €pk -> users(id)"
    let s : Span := ⟨⟨6, ⟨2, 1⟩⟩, ⟨39, ⟨3, 26⟩⟩⟩
    Fits text.toList ∧ s ∈ (parse text).schema.spans ∧
      offsetAt text.toList (Range.ofSpan s).start = s.first.offset ∧
      offsetAt text.toList (Range.ofSpan s).stop = s.last.offset + 1 ∧
      (Range.ofSpan s).start.position = s.first.position := by
  intro text s
  have hfits : Fits text.toList := ⟨by decide +kernel, by decide +kernel⟩
  have hs : s ∈ (parse text).schema.spans := by decide +kernel
  exact ⟨hfits, hs, ranges_agree text hfits s (.inr (.inr hs))⟩

end Editor

end EntitySchema
