import EntitySchema.Proofs.Edit
import EntitySchema.Proofs.Spelling
import Mathlib.Data.List.Nodup

/-!
# Texts with other words

A word of a text gives way to another one in some places. All tiles around it stay apart, so that
the new text is cut into tokens just where the old one is.

* `Tile.Alike` — tiles of which one may take the place of the other: words, if they are not equal.
* `reword` — tiles with a new word in some places.
* `replaces_reword`: rewording is what edits in these places do to the text.
* `Token.Reworded` — a token and what becomes of it.
* `exists_reworded_tiles`: edits that replace a name leave a text that is cut where the old one is.
* **`exists_reworded`**: edits that replace a name leave a text that has the tokens of the old one,
  with the new name in the places of the edits, and the same errors.
-/

namespace EntitySchema

/-- Well-formed tiles that are equal, or both of them words. -/
inductive Tile.Alike : Tile → Tile → Prop
  | refl {t : Tile} : t.WellFormed → Alike t t
  | word {c d : Char} {cs ds : List Char} : (Tile.word c cs).WellFormed →
      (Tile.word d ds).WellFormed → Alike (.word c cs) (.word d ds)

theorem isStray_of_isStart {c : Char} (h : Word.isStart c) : isStray c = false := by
  rw [isStray, Lead.ofChar_eq_word_iff.2 h]
  rfl

theorem Tile.continues_eq_of_isStart (t : Tile) {c d : Char} (hc : Word.isStart c)
    (hd : Word.isStart d) : t.continues c = t.continues d := by
  cases t with
  | word _ _ =>
    show Word.isPart c = Word.isPart d
    rw [Word.isPart_of_isStart hc, Word.isPart_of_isStart hd]
  | stray _ _ =>
    show isStray c = isStray d
    rw [isStray_of_isStart hc, isStray_of_isStart hd]
  | _ => rfl

theorem Tile.Alike.wellFormed {a b : Tile} (h : a.Alike b) : b.WellFormed := by
  cases h with
  | refl hb => exact hb
  | word _ hb => exact hb

theorem Tile.Alike.separate {a a' b b' : Tile} (ha : a.Alike a') (hb : b.Alike b')
    (h : a.Separate b) : a'.Separate b' := by
  have hleft : ∀ c, a'.continues c = a.continues c := by
    intro c
    cases ha <;> rfl
  have hright : a.continues b'.firstChar = a.continues b.firstChar := by
    cases hb with
    | refl => rfl
    | word hc hd => exact a.continues_eq_of_isStart hd.1 hc.1
  rw [Tile.Separate, hleft, hright]
  exact h

/-! ## Other words in some places -/

section Reword

variable {spans : List Span} {w : Tile} {old name : String}

/-- Tiles with the word `w` in the places `spans`. -/
def reword (spans : List Span) (w : Tile) (ps : List PlacedTile) : List Tile :=
  ps.map fun p => if p.span ∈ spans then w else p.tile

/-- Whether the name `old` is what stands in the places `spans`. -/
def Stands (old : String) (spans : List Span) (ps : List PlacedTile) : Prop :=
  ∀ p ∈ ps, p.span ∈ spans → p.tile.Spells ⟨.identifier, old, p.span⟩

theorem alike_of_spells {a b : Tile} {s s' : Span} (ha : a.Spells ⟨.identifier, old, s⟩)
    (hb : b.Spells ⟨.identifier, name, s'⟩) : a.Alike b := by
  obtain ⟨c, cs, rfl⟩ := ha.isWord_iff.1 rfl
  obtain ⟨d, ds, rfl⟩ := hb.isWord_iff.1 rfl
  exact .word ha.wellFormed hb.wellFormed

theorem isTiling_reword {ps : List PlacedTile} {s : Span} (hps : IsTiling (ps.map PlacedTile.tile))
    (hold : Stands old spans ps) (hw : w.Spells ⟨.identifier, name, s⟩) :
    IsTiling (reword spans w ps) := by
  have halike : List.Forall₂ Tile.Alike (ps.map PlacedTile.tile) (reword spans w ps) := by
    rw [reword, List.forall₂_map_left_iff, List.forall₂_map_right_iff, List.forall₂_same]
    intro p hp
    by_cases h : p.span ∈ spans
    · rw [if_pos h]
      exact alike_of_spells (hold p hp h) hw
    · rw [if_neg h]
      exact .refl (hps.wellFormed p.tile (List.mem_map_of_mem hp))
  refine isTiling_of_forall₂ (fun _ _ h => h.wellFormed) ?_ halike hps.separate
  exact fun _ _ _ _ ha hb => ha.separate hb

/-- **Rewording is what edits do.** -/
theorem replaces_reword {s : Span} (hw : w.Spells ⟨.identifier, name, s⟩) {m : Mark}
    {ts : List Tile} (hold : Stands old spans (place m ts)) :
    Edit.Replaces old.toList m.offset (ts.flatMap Tile.chars)
      (((place m ts).filter (·.span ∈ spans)).map (⟨·.span, name⟩))
      ((reword spans w (place m ts)).flatMap Tile.chars) := by
  induction ts generalizing m with
  | nil => exact .nil
  | cons t ts ih =>
    have hmore := ih fun p hp => hold p (List.mem_cons_of_mem _ hp)
    rw [place, reword, List.map_cons, List.flatMap_cons, List.flatMap_cons]
    by_cases h : Span.ofText m t.chars ∈ spans
    · have ht : t.chars = old.toList := (hold _ List.mem_cons_self h).chars_eq
      have hfirst : (Span.ofText m t.chars).first.offset = m.offset + Text.byteSize [] := rfl
      have hlast : (Span.ofText m t.chars).last.offset + 1 =
          (Span.ofText m t.chars).first.offset + Text.byteSize old.toList := by
        rw [offset_last_ofText, Mark.offset_after, ← ht]
        rfl
      have htext : t.chars ++ ts.flatMap Tile.chars =
          [] ++ old.toList ++ ts.flatMap Tile.chars := by
        rw [ht, List.nil_append]
      rw [if_pos h, List.filter_cons_of_pos (by simpa using h), List.map_cons, htext, hw.chars_eq]
      rw [← offset_last_ofText] at hmore
      exact Edit.RewritesOver.cons (e := ⟨Span.ofText m t.chars, name⟩) rfl hfirst hlast hmore
    · rw [if_neg h, List.filter_cons_of_neg (by simpa using h)]
      rw [Mark.offset_after] at hmore
      exact hmore.prepend t.chars

/-- A token, and what becomes of it: the new name in the places `spans`, and itself elsewhere. -/
structure Token.Reworded (spans : List Span) (name : String) (t t' : Token) : Prop where
  kind : t.kind = t'.kind
  text : t'.text = if t.span ∈ spans then name else t.text

/-- A diagnostic without its places. -/
def Diagnostic.unplaced (d : Diagnostic) : String × Severity × String × List String :=
  (d.code, d.severity, d.message, d.labels.map Label.message)

/-- A placed tile, and what becomes of it. -/
def PlacedTile.Reworded (spans : List Span) (w : Tile) (old : String) (p p' : PlacedTile) : Prop :=
  (p.span ∈ spans → p.tile.Spells ⟨.identifier, old, p.span⟩) ∧
    p'.tile = if p.span ∈ spans then w else p.tile

theorem reworded_place {ps : List PlacedTile} (hold : Stands old spans ps) (m : Mark) :
    List.Forall₂ (PlacedTile.Reworded spans w old) ps (place m (reword spans w ps)) := by
  induction ps generalizing m with
  | nil => exact .nil
  | cons p ps ih =>
    have hmore := ih (fun q hq => hold q (List.mem_cons_of_mem _ hq))
    exact .cons ⟨hold p List.mem_cons_self, rfl⟩ (hmore _)

theorem reworded_token? {p p' : PlacedTile} {s : Span} (hw : w.Spells ⟨.identifier, name, s⟩)
    (h : p.Reworded spans w old p') :
    Option.Rel (Token.Reworded spans name) p.token? p'.token? := by
  obtain ⟨hold, hnew⟩ := h
  rw [PlacedTile.token?, PlacedTile.token?]
  by_cases hp : p.span ∈ spans
  · rw [if_pos hp] at hnew
    rw [hnew, (hold hp).kind, hw.kind, hw.text]
    exact .some ⟨rfl, (if_pos hp).symm⟩
  · rw [if_neg hp] at hnew
    rw [hnew]
    cases p.tile.kind? with
    | none => exact .none
    | some k => exact .some ⟨rfl, (if_neg hp).symm⟩

theorem reworded_error? {p p' : PlacedTile} {s : Span} (hw : w.Spells ⟨.identifier, name, s⟩)
    (h : p.Reworded spans w old p') :
    Option.Rel (fun d d' => d.unplaced = d'.unplaced) p.error? p'.error? := by
  obtain ⟨hold, hnew⟩ := h
  obtain ⟨tile, span⟩ := p
  obtain ⟨tile', span'⟩ := p'
  by_cases hp : span ∈ spans
  · rw [if_pos hp] at hnew
    obtain ⟨c, cs, rfl⟩ := (hold hp).isWord_iff.1 rfl
    obtain ⟨d, ds, rfl⟩ := hw.isWord_iff.1 rfl
    cases hnew
    exact .none
  · rw [if_neg hp] at hnew
    cases hnew
    cases tile with
    | stray c cs => exact .some rfl
    | _ => exact .none

end Reword

/-! ## Names replaced by edits -/

theorem filter_mem_of_sublist {α : Type} [DecidableEq α] {as bs : List α} (h : as.Sublist bs)
    (hbs : bs.Nodup) : bs.filter (· ∈ as) = as := by
  induction h with
  | slnil => rfl
  | @cons as bs b h ih =>
    obtain ⟨hb, hbs⟩ := List.nodup_cons.1 hbs
    have hbas : b ∉ as := fun hmem => hb (h.subset hmem)
    rw [List.filter_cons_of_neg (by simpa using hbas), ih hbs]
  | @cons_cons as bs a h ih =>
    obtain ⟨ha, hbs⟩ := List.nodup_cons.1 hbs
    have hfilter : bs.filter (· ∈ a :: as) = bs.filter (· ∈ as) := by
      refine List.filter_congr fun b hb => ?_
      have hne : b ≠ a := fun hba => ha (hba ▸ hb)
      simp [hne]
    rw [List.filter_cons_of_pos (by simp), hfilter, ih hbs]

theorem map_span_token?_sublist (ps : List PlacedTile) :
    ((ps.filterMap PlacedTile.token?).map Token.span).Sublist (ps.map PlacedTile.span) := by
  induction ps with
  | nil => exact .slnil
  | cons p ps ih =>
    cases ht : p.token? with
    | none =>
      rw [List.filterMap_cons_none ht]
      exact ih.cons _
    | some t =>
      rw [List.filterMap_cons_some ht, List.map_cons, List.map_cons,
        (PlacedTile.token?_eq_some ht).2.2]
      exact ih.cons_cons _

theorem nodup_span_tokens (text : String) : ((lex text).tokens.map Token.span).Nodup :=
  (nodup_span_place _ _).sublist (map_span_token?_sublist _)

theorem stands_of_tokens {text old : String} {spans : List Span}
    (hspans : spans.Sublist ((lex text).tokens.map Token.span))
    (hold : ∀ t ∈ (lex text).tokens, t.span ∈ spans → t.kind = .identifier ∧ t.text = old) :
    Stands old spans (place .origin (tiles text.toList)) := by
  intro p hp hspan
  obtain ⟨t, ht, htspan⟩ := List.mem_map.1 (hspans.subset hspan)
  obtain ⟨q, hq, hqt⟩ := List.mem_filterMap.1 ht
  obtain ⟨hkind, htext, hqspan⟩ := PlacedTile.token?_eq_some hqt
  -- only one tile has this place, so the token is the one that `p` is
  have hpq : p = q :=
    List.inj_on_of_nodup_map (nodup_span_place _ _) hp hq (htspan.symm.trans hqspan.symm)
  obtain ⟨htkind, rfl⟩ := hold t ht (htspan ▸ hspan)
  have hwell := (isTiling_tiles _).wellFormed p.tile (tile_mem_of_mem_place hp)
  subst hpq
  exact ⟨hwell, htkind ▸ hkind, htext⟩

/-- **Edits that replace a name leave a text with the same tiles, but for the name.** -/
theorem exists_reworded_tiles {text old name : String} {spans : List Span}
    (hname : isIdentifier name) (hspans : spans.Sublist ((lex text).tokens.map Token.span))
    (hold : ∀ t ∈ (lex text).tokens, t.span ∈ spans → t.kind = .identifier ∧ t.text = old) :
    ∃ (w : Tile) (result : String),
      w.Spells ⟨.identifier, name, ⟨.origin, .origin⟩⟩ ∧
        Edit.Replaces old.toList 0 text.toList (spans.map (⟨·, name⟩)) result.toList ∧
        List.Forall₂ (PlacedTile.Reworded spans w old) (place .origin (tiles text.toList))
          (place .origin (tiles result.toList)) := by
  obtain ⟨c, cs, -, hw⟩ := spells_identifier hname ⟨.origin, .origin⟩
  have hstands := stands_of_tokens hspans hold
  have htiling := isTiling_tiles text.toList
  rw [← map_tile_place .origin (tiles text.toList)] at htiling
  have htiles := tiles_flatMap_chars (isTiling_reword htiling hstands hw)
  have hedits : ((place .origin (tiles text.toList)).filter (·.span ∈ spans)).map
      (fun p => Edit.mk p.span name) = spans.map (⟨·, name⟩) := by
    have hfilter := filter_mem_of_sublist (hspans.trans (map_span_token?_sublist _))
      (nodup_span_place .origin (tiles text.toList))
    have hmap := congrArg (List.map fun s => Edit.mk s name) hfilter
    rw [List.filter_map, List.map_map] at hmap
    exact hmap
  have hreplaces := replaces_reword hw hstands
  rw [flatMap_chars_tiles, hedits] at hreplaces
  refine ⟨.word c cs, String.ofList
    ((reword spans (.word c cs) (place .origin (tiles text.toList))).flatMap Tile.chars), hw, ?_⟩
  rw [String.toList_ofList, htiles]
  exact ⟨hreplaces, reworded_place hstands .origin⟩

/-- **Edits that replace a name leave a text with the same tokens and errors, but for the name.** -/
theorem exists_reworded {text old name : String} {spans : List Span} (hname : isIdentifier name)
    (hspans : spans.Sublist ((lex text).tokens.map Token.span))
    (hold : ∀ t ∈ (lex text).tokens, t.span ∈ spans → t.kind = .identifier ∧ t.text = old) :
    ∃ result : String,
      Edit.Replaces old.toList 0 text.toList (spans.map (⟨·, name⟩)) result.toList ∧
        List.Forall₂ (Token.Reworded spans name) (lex text).tokens (lex result).tokens ∧
        List.Forall₂ (fun d d' => d.unplaced = d'.unplaced) (lex text).errors
          (lex result).errors := by
  obtain ⟨w, result, hw, hreplaces, hplaced⟩ := exists_reworded_tiles hname hspans hold
  refine ⟨result, hreplaces, ?_, ?_⟩
  · refine List.rel_filterMap ?_ hplaced
    exact fun _ _ => reworded_token? hw
  · refine List.rel_filterMap ?_ hplaced
    exact fun _ _ => reworded_error? hw

end EntitySchema
