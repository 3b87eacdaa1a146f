import EntitySchema.Editor.Feature
import EntitySchema.Proofs.Cursors
import EntitySchema.Proofs.Resolution

/-!
# Renaming in an editor

A renaming reaches an editor as ranges of the text, and every editor counts characters in units of
its own. Names are changed only in texts without errors, and these have narrow characters only.

* `Counting.applyEdits?` — what an editor makes of a text, given edits of its ranges.
* `narrow_of_errors_eq_nil`: in a text without errors, all units are the same.
* `WordAt` — a word of a text and its place; `wordAt_of_mem_lex`: all tokens but newlines are words.
* `Range.OnLine`, `Range.Before` — ranges on one line, and ranges one behind the other;
  `Range.PlaceOf` — the range in the place of a span; `WordAt.placeOf`: a word and its range.
* `Counting.applyFrom?_of_replaces`: ranges replace what spans replace.
* **`renameAt_iff`**: renaming in an editor is renaming in the text.
-/

namespace EntitySchema.Editor

/-- The editor's form of an edit. -/
def TextEdit.ofEdit (e : Edit) : TextEdit := ⟨.ofSpan e.span, e.replacement⟩

namespace Counting

/-- The text `cs` behind its first `done` characters, after the edits. All ranges are ranges of `cs`;
the result is `none` if one of them is not in the text, or starts before the one in front of it has
ended. -/
def applyFrom? (u : Counting) (cs : List Char) (done : Nat) : List TextEdit → Option (List Char)
  | [] => some (cs.drop done)
  | e :: es => do
    let (before, _) ← u.split? e.range.start cs
    let (through, _) ← u.split? e.range.stop cs
    if done ≤ before.length ∧ before.length ≤ through.length then
      let rest ← u.applyFrom? cs through.length es
      return before.drop done ++ e.newText.toList ++ rest
    else none

/-- A text after edits of its ranges. -/
def applyEdits? (u : Counting) (text : String) (es : List TextEdit) : Option String :=
  (u.applyFrom? text.toList 0 es).map String.ofList

end Counting

/-! ## Texts without errors -/

theorem toNat_lt_of_isPart {c : Char} (h : Word.isPart c) : c.toNat < 128 := by
  have hle : ∀ d : Char, d.toNat < 128 → c.val ≤ d.val → c.toNat < 128 := by
    intro d hd hcd
    exact (UInt32.le_iff_toNat_le.1 hcd).trans_lt hd
  simp only [Word.isPart, Word.isStart, Bool.or_eq_true, beq_iff_eq] at h
  rcases h with (hletter | rfl) | hdigit
  · rcases Bool.or_eq_true_iff.1 hletter with hupper | hlower
    · exact hle 'Z' (by decide) (of_decide_eq_true hupper).2
    · exact hle 'z' (by decide) (of_decide_eq_true (Bool.and_eq_true_iff.1 hlower).2)
  · decide
  · exact hle '9' (by decide) (of_decide_eq_true (Bool.and_eq_true_iff.1 hdigit).2)

theorem toNat_lt_of_spells {tile : Tile} {t : Token} (h : tile.Spells t) :
    ∀ c ∈ tile.chars, c.toNat < 128 := by
  cases tile with
  | newline => exact List.forall_mem_singleton.2 (by decide)
  | space => exact List.forall_mem_singleton.2 (by decide)
  | symbol s => exact List.forall_mem_singleton.2 (by cases s <;> decide)
  | word c cs =>
    have hparts : ∀ d ∈ c :: cs, Word.isPart d :=
      List.forall_mem_cons.2 ⟨Word.isPart_of_isStart h.wellFormed.1, h.wellFormed.2⟩
    exact fun d hd => toNat_lt_of_isPart (hparts d hd)
  | stray c cs => cases h.kind

/-- In a text without errors, all units are the same. -/
theorem narrow_of_errors_eq_nil {text : String} (h : (lex text).errors = []) :
    ∀ c ∈ text.toList, Counting.Narrow c := by
  intro c hc
  rw [← (spell_lex h).2, spell, String.toList_ofList] at hc
  obtain ⟨t, ht, hc⟩ := List.mem_flatMap.1 hc
  obtain ⟨tile, hspells⟩ := spelled_of_mem_lex ht
  rw [← hspells.chars_eq] at hc
  exact Counting.narrow_of_lt (toNat_lt_of_spells hspells c hc)

/-- The word `w` stands in the text `cs`, in the place `s`. -/
structure WordAt (cs w : List Char) (s : Span) : Prop where
  ne_nil : w ≠ []
  newline_notMem : '\n' ∉ w
  exists_split : ∃ as bs, cs = as ++ (w ++ bs) ∧ s = .ofText (Mark.origin.after as) w

theorem wordAt_of_mem_lex {text : String} {t : Token} (ht : t ∈ (lex text).tokens)
    (hkind : t.kind ≠ .newline) : WordAt text.toList t.text.toList t.span := by
  obtain ⟨p, hp, hpt⟩ := List.mem_filterMap.1 ht
  obtain ⟨hk, htext, hspan⟩ := PlacedTile.token?_eq_some hpt
  have hwell := (isTiling_tiles text.toList).wellFormed p.tile (tile_mem_of_mem_place hp)
  have hne : p.tile ≠ .newline := by
    intro hnewline
    rw [hnewline] at hk
    exact hkind (Option.some.inj hk).symm
  obtain ⟨us, vs, htiles, hplace⟩ := exists_split_of_mem_place hp
  rw [← htext, ← hspan, Tile.text, String.toList_ofList]
  refine ⟨p.tile.chars_ne_nil, p.tile.newline_notMem_chars hwell hne, us.flatMap Tile.chars,
    vs.flatMap Tile.chars, ?_, hplace⟩
  rw [← flatMap_chars_tiles text.toList, htiles, List.flatMap_append, List.flatMap_cons]

theorem wordAt_of_mem_placesOf {text : String} {item : Item} {s : Span}
    (h : s ∈ (parse text).schema.placesOf item) : WordAt text.toList item.name.toList s := by
  have hspans := (placesOf_sublist _ item).trans (map_span_names_sublist text)
  obtain ⟨t, ht, rfl⟩ := List.mem_map.1 (hspans.subset h)
  have htoken := (eq_token_of_mem_placesOf ht h).2
  have hword := wordAt_of_mem_lex ht (by rw [htoken]; exact nofun)
  rwa [htoken] at hword

/-- A range on one line that is not empty. -/
structure Range.OnLine (r : Range) : Prop where
  line : r.start.line = r.stop.line
  character : r.start.character < r.stop.character

/-- Range `a` starts before range `b`, and has ended where `b` starts. -/
structure Range.Before (a b : Range) : Prop where
  start : a.start.position < b.start.position
  stop : a.stop.position ≤ b.start.position

/-- Range `r` is the place of the span `s`: it starts where `s` does, and stops behind the last
character of `s`. -/
structure Range.PlaceOf (r : Range) (s : Span) : Prop where
  start : r.start.position = s.first.position
  stop : r.stop.position = ⟨s.last.position.line, s.last.position.column + 1⟩

theorem Range.PlaceOf.before {q r : Range} {s s' : Span} (hq : q.PlaceOf s) (hr : r.PlaceOf s')
    (hs : s.Forward) (h : s.Before s') : q.Before r := by
  constructor
  · rw [hq.start, hr.start]
    exact hs.position.trans_lt h.position
  · have hposition := h.position
    rw [Position.lt_def] at hposition
    rw [hq.stop, hr.start, Position.le_def]
    show s.last.position.line < _ ∨ s.last.position.line = _ ∧ s.last.position.column + 1 ≤ _
    omega

section WordAt

variable {cs w : List Char} {s : Span}

theorem WordAt.exists_range (h : WordAt cs w s) :
    ∃ as bs, cs = as ++ (w ++ bs) ∧ s = .ofText (Mark.origin.after as) w ∧
      Range.ofSpan s = ⟨.ofMark (Mark.origin.after as), .ofMark (Mark.origin.after (as ++ w))⟩ := by
  obtain ⟨as, bs, hcs, rfl⟩ := h.exists_split
  refine ⟨as, bs, hcs, rfl, ?_⟩
  rw [Range.ofSpan_ofText h.ne_nil h.newline_notMem, Mark.after_append]

theorem WordAt.forward (h : WordAt cs w s) : s.Forward := by
  obtain ⟨as, bs, -, rfl⟩ := h.exists_split
  exact forward_ofText _ _

theorem WordAt.placeOf (h : WordAt cs w s) (hcs : Fits cs) : (Range.ofSpan s).PlaceOf s := by
  obtain ⟨as, bs, rfl, rfl, hrange⟩ := h.exists_range
  have hlength := List.length_pos_iff.2 h.ne_nil
  have hstop : Fits ((as ++ w) ++ bs) := by
    rw [List.append_assoc]
    exact hcs
  constructor
  · rw [hrange, hcs.position_ofMark]
    rfl
  · rw [hrange, hstop.position_ofMark, Mark.after_append, position_after h.newline_notMem]
    simp only [Span.ofText]
    congr 1
    omega

theorem WordAt.onLine (h : WordAt cs w s) (hcs : Fits cs) : (Range.ofSpan s).OnLine := by
  obtain ⟨hstart, hstop⟩ := h.placeOf hcs
  have hspan : s.first.position.line = s.last.position.line ∧
      s.first.position.column ≤ s.last.position.column := by
    obtain ⟨as, bs, -, rfl⟩ := h.exists_split
    exact ⟨rfl, Nat.le_add_right _ _⟩
  have hline : (Range.ofSpan s).start.position.line = (Range.ofSpan s).stop.position.line := by
    rw [hstart, hstop]
    exact hspan.1
  have hcolumn :
      (Range.ofSpan s).start.position.column < (Range.ofSpan s).stop.position.column := by
    rw [hstart, hstop]
    exact Nat.lt_succ_of_le hspan.2
  exact ⟨UInt32.toNat_inj.1 (Nat.succ.inj hline),
    UInt32.lt_iff_toNat_lt.2 (Nat.lt_of_succ_lt_succ hcolumn)⟩

end WordAt

/-! ## Ranges replace what spans replace -/

/-- **Where spans replace a word, their ranges do so, whatever the units.** -/
theorem Counting.applyFrom?_of_replaces (u : Counting) {old before cs out : List Char} {n : Nat}
    {es : List Edit} (h : Edit.Replaces old n cs es out) (hbefore : Text.byteSize before = n)
    (hnarrow : ∀ c ∈ before ++ cs, Narrow c) (hfits : Fits (before ++ cs))
    (hwords : ∀ e ∈ es, WordAt (before ++ cs) old e.span) :
    u.applyFrom? (before ++ cs) before.length (es.map TextEdit.ofEdit) = some out := by
  induction h generalizing before with
  | nil =>
    rw [List.map_nil, applyFrom?, List.drop_left]
  | @cons n kept covered rest out e es covers first last more ih =>
    obtain rfl : old = covered := covers.symm
    have htext : before ++ (kept ++ old ++ rest) = (before ++ kept) ++ (old ++ rest) := by
      simp only [List.append_assoc]
    have htext' : before ++ (kept ++ old ++ rest) = (before ++ kept ++ old) ++ rest := by
      simp only [List.append_assoc]
    -- the edit is where its offset says, so its range begins behind what is kept
    obtain ⟨as, bs, has, hspan, hrange⟩ := (hwords e List.mem_cons_self).exists_range
    have hsize : Text.byteSize (before ++ kept) = Text.byteSize as := by
      rw [hspan] at first
      have hoffset : (Mark.origin.after as).offset = n + Text.byteSize kept := first
      rw [Mark.offset_after] at hoffset
      rw [Text.byteSize_append, hbefore, ← hoffset]
      exact Nat.zero_add _
    obtain ⟨rfl, -⟩ := append_inj_byteSize (htext.symm.trans has) hsize
    have hstart : u.split? (TextEdit.ofEdit e).range.start (before ++ (kept ++ old ++ rest)) =
        some (before ++ kept, old ++ rest) := by
      rw [TextEdit.ofEdit, hrange, htext]
      rw [htext] at hfits hnarrow
      exact u.split?_ofMark (fun c hc => hnarrow c (List.mem_append_left _ hc)) hfits
    have hstop : u.split? (TextEdit.ofEdit e).range.stop (before ++ (kept ++ old ++ rest)) =
        some (before ++ kept ++ old, rest) := by
      rw [TextEdit.ofEdit, hrange, htext']
      rw [htext'] at hfits hnarrow
      exact u.split?_ofMark (fun c hc => hnarrow c (List.mem_append_left _ hc)) hfits
    have hmore : u.applyFrom? (before ++ (kept ++ old ++ rest)) (before ++ kept ++ old).length
        (es.map TextEdit.ofEdit) = some out := by
      have hbehind : Text.byteSize (before ++ kept ++ old) = e.span.last.offset + 1 := by
        simp only [Text.byteSize_append]
        omega
      rw [htext'] at hnarrow hfits hwords ⊢
      exact ih hbehind hnarrow hfits fun e' he' => hwords e' (List.mem_cons_of_mem _ he')
    have horder : before.length ≤ (before ++ kept).length ∧
        (before ++ kept).length ≤ (before ++ kept ++ old).length := by
      simp only [List.length_append]
      omega
    rw [List.map_cons, applyFrom?, hstart, hstop]
    show (if _ then _ else none) = _
    rw [if_pos horder, hmore, List.drop_left]
    rfl

/-! ## Renaming -/

section Renaming

variable {text newName : String} {c : Cursor}

theorem errors_eq_nil_of_occurrenceAt {d : Parsed} {p : Position} {o : Occurrence}
    (h : d.occurrenceAt p = .ok o) : d.errors = [] := by
  rw [Parsed.occurrenceAt] at h
  split at h
  · next hempty => exact List.isEmpty_iff.1 hempty
  · cases h

theorem renameRange_eq_ok_iff {range : Range} :
    renameRange text c = .ok range ↔
      ∃ o, (parse text).occurrenceAt c.position = .ok o ∧ range = .ofSpan o.span := by
  rw [renameRange]
  cases (parse text).occurrenceAt c.position with
  | error e => simp [bind, Except.bind]
  | ok o => simp [bind, Except.bind, pure, Except.pure, eq_comm]

theorem renameAt_eq_ok_iff {edits : List TextEdit} :
    renameAt text c newName = .ok edits ↔
      isIdentifier newName ∧ ∃ o, (parse text).occurrenceAt c.position = .ok o ∧
        edits = ((parse text).schema.renameEdits o.item newName).map TextEdit.ofEdit := by
  rw [renameAt]
  by_cases hname : isIdentifier newName
  · cases ho : (parse text).occurrenceAt c.position with
    | error e => simp [hname, ho, bind, Except.bind]
    | ok o =>
      simp only [hname, ho, bind, Except.bind, pure, Except.pure, if_true, true_and,
        Except.ok.injEq, exists_eq_left']
      exact eq_comm
  · simp [hname]

variable {item : Item}

theorem wordAt_of_mem_renameEdits {e : Edit}
    (h : e ∈ (parse text).schema.renameEdits item newName) :
    WordAt text.toList item.name.toList e.span := by
  refine wordAt_of_mem_placesOf ?_
  rw [← map_span_renameEdits _ item newName]
  exact List.mem_map_of_mem h

theorem pairwise_range_renameEdits (hfits : Fits text.toList) (item : Item) (newName : String) :
    (∀ e ∈ (parse text).schema.renameEdits item newName, (Range.ofSpan e.span).OnLine) ∧
      ((parse text).schema.renameEdits item newName).Pairwise fun a b =>
        (Range.ofSpan a.span).Before (.ofSpan b.span) := by
  have hbefore := pairwise_placesOf text item
  rw [← map_span_renameEdits _ item newName, List.pairwise_map] at hbefore
  refine ⟨fun e he => (wordAt_of_mem_renameEdits he).onLine hfits, hbefore.imp_of_mem ?_⟩
  intro a b ha hb hab
  have ha := wordAt_of_mem_renameEdits ha
  exact (ha.placeOf hfits).before ((wordAt_of_mem_renameEdits hb).placeOf hfits) ha.forward hab

theorem applyEdits?_renameEdits (hfits : Fits text.toList) (herrors : (lex text).errors = [])
    {result : String}
    (h : Edit.Replaces item.name.toList 0 text.toList
      ((parse text).schema.renameEdits item newName) result.toList) (u : Counting) :
    u.applyEdits? text (((parse text).schema.renameEdits item newName).map TextEdit.ofEdit) =
      some result := by
  have happly := u.applyFrom?_of_replaces h Text.byteSize_nil (narrow_of_errors_eq_nil herrors)
    hfits fun _ he => wordAt_of_mem_renameEdits he
  rw [List.nil_append, List.length_nil] at happly
  rw [Counting.applyEdits?, happly, Option.map_some, String.ofList_toList]

end Renaming

/-- **Renaming in an editor is renaming in the text**, whatever units the editor counts in. -/
theorem renameAt_iff (text : String) (hfits : Fits text.toList) (c : Cursor) (newName : String) :
    ((∃ edits, renameAt text c newName = .ok edits) ↔
        isIdentifier newName ∧ ∃ range, renameRange text c = .ok range) ∧
      ∀ edits, renameAt text c newName = .ok edits →
        (∀ e ∈ edits, e.range.OnLine ∧ e.newText = newName) ∧
        (edits.map TextEdit.range).Pairwise Range.Before ∧
        (∃ range ∈ edits.map TextEdit.range, renameRange text c = .ok range) ∧
        ∃ o result, (parse text).occurrenceAt c.position = .ok o ∧
          Edit.applyAll? text ((parse text).schema.renameEdits o.item newName) = some result ∧
          (∀ u : Counting, u.applyEdits? text edits = some result) ∧
          (parse result).errors = [] := by
  constructor
  · simp only [renameAt_eq_ok_iff, renameRange_eq_ok_iff]
    constructor
    · rintro ⟨edits, hname, o, ho, -⟩
      exact ⟨hname, _, o, ho, rfl⟩
    · rintro ⟨hname, range, o, ho, -⟩
      exact ⟨_, hname, o, ho, rfl⟩
  · intro edits hedits
    obtain ⟨hname, o, ho, rfl⟩ := renameAt_eq_ok_iff.1 hedits
    have herrors := errors_eq_nil_of_occurrenceAt ho
    obtain ⟨honLine, hbefore⟩ := pairwise_range_renameEdits hfits o.item newName
    obtain ⟨result, hreplaces, htokens, hlex⟩ := exists_renamed text o.item hname
    refine ⟨?_, ?_, ?_, o, result, ho, ?_, ?_, ?_⟩
    · intro e he
      obtain ⟨core, hcore, rfl⟩ := List.mem_map.1 he
      refine ⟨honLine core hcore, ?_⟩
      rw [renameEdits_eq] at hcore
      obtain ⟨s, -, rfl⟩ := List.mem_map.1 hcore
      rfl
    · rw [List.map_map, List.pairwise_map]
      exact hbefore
    · refine ⟨.ofSpan o.span, ?_, renameRange_eq_ok_iff.2 ⟨o, ho, rfl⟩⟩
      have hplace : o.span ∈ (parse text).schema.placesOf o.item := by
        have hmem := ((occurrenceAt_eq_ok_iff herrors).1 ho).1
        exact (mem_placesOf_iff (nodup_span_names text) o.item o hmem).2 rfl
      rw [← map_span_renameEdits _ o.item newName] at hplace
      rw [List.map_map]
      obtain ⟨e, he, hspan⟩ := List.mem_map.1 hplace
      rw [← hspan]
      exact List.mem_map_of_mem he
    · rw [Edit.applyAll?_of_rewrites hreplaces, String.ofList_toList]
    · exact applyEdits?_renameEdits hfits (List.append_eq_nil_iff.1 herrors).1 hreplaces
    · have hunplaced := errors_of_reworded htokens hlex
      rw [herrors, List.map_nil] at hunplaced
      exact List.map_eq_nil_iff.1 hunplaced.symm

/-- The name in a reference, and the entity that it names. -/
theorem renameAt_iff_users :
    let text := "users\n  boss int -> users(id)\n"
    let edits : List TextEdit :=
      [⟨⟨⟨0, 0⟩, ⟨0, 5⟩⟩, "people"⟩, ⟨⟨⟨1, 14⟩, ⟨1, 19⟩⟩, "people"⟩]
    Fits text.toList ∧ renameAt text ⟨1, 16⟩ "people" = .ok edits ∧
      (∀ e ∈ edits, e.range.OnLine ∧ e.newText = "people") ∧
      (edits.map TextEdit.range).Pairwise Range.Before ∧
      (∃ range ∈ edits.map TextEdit.range, renameRange text ⟨1, 16⟩ = .ok range) ∧
      ∃ o result, (parse text).occurrenceAt (Cursor.position ⟨1, 16⟩) = .ok o ∧
        Edit.applyAll? text ((parse text).schema.renameEdits o.item "people") = some result ∧
        (∀ u : Counting, u.applyEdits? text edits = some result) ∧
        (parse result).errors = [] := by
  intro text edits
  have hfits : Fits text.toList := ⟨by decide +kernel, by decide +kernel⟩
  have hedits : renameAt text ⟨1, 16⟩ "people" = .ok edits := by decide +kernel
  exact ⟨hfits, hedits, (renameAt_iff text hfits ⟨1, 16⟩ "people").2 edits hedits⟩

end EntitySchema.Editor
