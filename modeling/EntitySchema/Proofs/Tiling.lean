import EntitySchema.Token
import Mathlib.Data.List.Chain
import Mathlib.Data.List.Forall2
import Mathlib.Data.List.TakeWhile

/-!
# Tilings

The tiles of a text are the only way to cut it into words, stray runs and single characters such
that no word and no stray run could be longer.

* `Tile.WellFormed` — the characters of a tile are of its kind; `Tile.Separate` — the first
  character of a tile does not continue the tile in front of it.
* `IsTiling` — lists of tiles that satisfy both.
* `isTiling_of_forall₂`: tiles that stand for things which go with one another are a tiling.
* **`tiles_eq_iff`**: the tiles of a text are its only tiling.
* `pairwise_place`: tiles in their places cover disjoint spans, from left to right.
-/

namespace EntitySchema

namespace Lead

theorem ofChar_newline : Lead.ofChar '\n' = .newline := rfl

theorem ofChar_space : Lead.ofChar ' ' = .space := rfl

theorem ofChar_char (s : Symbol) : Lead.ofChar s.char = .symbol s := by
  cases s <;> decide

theorem ofChar_eq_word_iff {c : Char} : Lead.ofChar c = .word ↔ Word.isStart c := by
  constructor
  · intro h
    grind [Lead.ofChar]
  · intro h
    have hn : c ≠ '\n' := by
      rintro rfl
      exact absurd h (by decide)
    have hs : c ≠ ' ' := by
      rintro rfl
      exact absurd h (by decide)
    rw [Lead.ofChar, if_neg hn, if_neg hs, if_pos h]

theorem ofChar_eq_stray_iff {c : Char} : Lead.ofChar c = .stray ↔ isStray c := by
  rw [isStray, decide_eq_true_eq]

end Lead

theorem Word.isPart_of_isStart {c : Char} (h : Word.isStart c) : Word.isPart c := by
  rw [Word.isPart, h, Bool.true_or]

namespace Tile

/-- The characters of a tile are of its kind. -/
def WellFormed : Tile → Prop
  | word c cs => Word.isStart c ∧ ∀ x ∈ cs, Word.isPart x
  | stray c cs => isStray c ∧ ∀ x ∈ cs, isStray x
  | _ => True

/-- Whether a tile would go on with the character `c`. -/
def continues : Tile → Char → Bool
  | word _ _, c => Word.isPart c
  | stray _ _, c => isStray c
  | _, _ => false

/-- The first character of a tile. -/
def firstChar : Tile → Char
  | newline => '\n'
  | space => ' '
  | symbol s => s.char
  | word c _ => c
  | stray c _ => c

/-- Tile `b` can stand right behind tile `a`. -/
def Separate (a b : Tile) : Prop := a.continues b.firstChar = false

theorem chars_eq_cons (t : Tile) : ∃ cs, t.chars = t.firstChar :: cs := by
  cases t <;> exact ⟨_, rfl⟩

theorem chars_ne_nil (t : Tile) : t.chars ≠ [] := by
  obtain ⟨cs, h⟩ := t.chars_eq_cons
  rw [h]
  exact List.cons_ne_nil _ _

theorem newline_notMem_chars {t : Tile} (h : t.WellFormed) (hne : t ≠ .newline) :
    '\n' ∉ t.chars := by
  cases t with
  | newline => exact absurd rfl hne
  | space => decide
  | symbol s => cases s <;> decide
  | word c cs =>
    have hpart : ∀ x ∈ c :: cs, Word.isPart x :=
      List.forall_mem_cons.2 ⟨Word.isPart_of_isStart h.1, h.2⟩
    exact fun hmem => absurd (hpart _ hmem) (by decide)
  | stray c cs =>
    have hstray : ∀ x ∈ c :: cs, isStray x := List.forall_mem_cons.2 h
    exact fun hmem => absurd (hstray _ hmem) (by decide)

end Tile

/-- A list of well-formed tiles none of which goes on in the next one. -/
structure IsTiling (ts : List Tile) : Prop where
  wellFormed : ∀ t ∈ ts, t.WellFormed
  separate : ts.IsChain Tile.Separate

theorem isTiling_nil : IsTiling [] := ⟨by simp, .nil⟩

theorem isTiling_cons {t : Tile} {ts : List Tile} :
    IsTiling (t :: ts) ↔ t.WellFormed ∧ (∀ u ∈ ts.head?, t.Separate u) ∧ IsTiling ts := by
  constructor
  · rintro ⟨hwell, hsep⟩
    rw [List.isChain_cons] at hsep
    exact ⟨hwell t List.mem_cons_self, hsep.1,
      fun u hu => hwell u (List.mem_cons_of_mem _ hu), hsep.2⟩
  · rintro ⟨hwell, hsep, hts⟩
    refine ⟨?_, List.isChain_cons.2 ⟨hsep, hts.separate⟩⟩
    intro u hu
    rcases List.mem_cons.1 hu with rfl | hu
    · exact hwell
    · exact hts.wellFormed u hu

theorem isChain_of_forall₂ {α β : Type} {T : α → β → Prop} {R : α → α → Prop} {S : β → β → Prop}
    (hRS : ∀ a a' b b', T a b → T a' b' → R a a' → S b b') {as : List α} {bs : List β}
    (h : List.Forall₂ T as bs) (has : as.IsChain R) : bs.IsChain S := by
  induction h with
  | nil => exact .nil
  | @cons a b as bs hab hmore ih =>
    rw [List.isChain_cons] at has
    refine List.isChain_cons.2 ⟨?_, ih has.2⟩
    intro b' hb'
    cases hmore with
    | nil => cases hb'
    | @cons a' _ _ _ hab' _ =>
      cases hb'
      exact hRS a a' b _ hab hab' (has.1 a' rfl)

theorem isTiling_of_forall₂ {α : Type} {T : α → Tile → Prop} {R : α → α → Prop}
    (hwell : ∀ a t, T a t → t.WellFormed)
    (hsep : ∀ a a' t t', T a t → T a' t' → R a a' → t.Separate t') {as : List α} {ts : List Tile}
    (h : List.Forall₂ T as ts) (has : as.IsChain R) : IsTiling ts := by
  refine ⟨?_, isChain_of_forall₂ hsep h has⟩
  clear has
  induction h with
  | nil => simp
  | cons hat _ ih => exact List.forall_mem_cons.2 ⟨hwell _ _ hat, ih⟩

theorem head?_flatMap_chars (ts : List Tile) :
    (ts.flatMap Tile.chars).head? = ts.head?.map Tile.firstChar := by
  cases ts with
  | nil => rfl
  | cons t ts =>
    obtain ⟨cs, h⟩ := t.chars_eq_cons
    rw [List.flatMap_cons, h]
    rfl

/-! ## Tiles of a text are a tiling -/

theorem head?_dropWhile_not {p : Char → Bool} {cs : List Char} :
    ∀ c ∈ (cs.dropWhile p).head?, p c = false := by
  intro c hc
  have h := List.head?_dropWhile_not p cs
  rw [Option.mem_def.1 hc] at h
  simpa using h

/-- A run of characters is cut off where it ends. -/
theorem separate_tiles {t : Tile} (p : Char → Bool) (ht : ∀ c, t.continues c = p c)
    (cs : List Char) : ∀ u ∈ (tiles (cs.dropWhile p)).head?, t.Separate u := by
  intro u hu
  have hfirst : u.firstChar ∈ (cs.dropWhile p).head? := by
    rw [← flatMap_chars_tiles (cs.dropWhile p), head?_flatMap_chars, Option.mem_def.1 hu]
    rfl
  rw [Tile.Separate, ht]
  exact head?_dropWhile_not _ hfirst

theorem isTiling_tiles (cs : List Char) : IsTiling (tiles cs) := by
  fun_induction tiles cs with
  | case1 => exact isTiling_nil
  | case2 c cs h ih => exact isTiling_cons.2 ⟨trivial, fun _ _ => rfl, ih⟩
  | case3 c cs h ih => exact isTiling_cons.2 ⟨trivial, fun _ _ => rfl, ih⟩
  | case4 c cs s h ih => exact isTiling_cons.2 ⟨trivial, fun _ _ => rfl, ih⟩
  | case5 c cs h ih =>
    refine isTiling_cons.2 ⟨⟨Lead.ofChar_eq_word_iff.1 h, ?_⟩,
      separate_tiles Word.isPart (fun _ => rfl) cs, ih⟩
    exact fun x hx => List.mem_takeWhile_imp hx
  | case6 c cs h ih =>
    refine isTiling_cons.2 ⟨⟨Lead.ofChar_eq_stray_iff.1 h, ?_⟩,
      separate_tiles isStray (fun _ => rfl) cs, ih⟩
    exact fun x hx => List.mem_takeWhile_imp hx

/-! ## A tiling is the tiles of its text -/

theorem span_append {p : Char → Bool} {as bs : List Char} (has : ∀ c ∈ as, p c)
    (hbs : ∀ c ∈ bs.head?, p c = false) :
    (as ++ bs).takeWhile p = as ∧ (as ++ bs).dropWhile p = bs := by
  rw [List.takeWhile_append_of_pos has, List.dropWhile_append_of_pos has]
  cases bs with
  | nil => simp
  | cons b bs => simp [hbs b rfl]

theorem tiles_flatMap_chars {ts : List Tile} (h : IsTiling ts) :
    tiles (ts.flatMap Tile.chars) = ts := by
  induction ts with
  | nil => simp [tiles]
  | cons t ts ih =>
    obtain ⟨hwell, hsep, hts⟩ := isTiling_cons.1 h
    have hhead : ∀ c ∈ (ts.flatMap Tile.chars).head?, t.continues c = false := by
      intro c hc
      rw [head?_flatMap_chars] at hc
      obtain ⟨u, hu, rfl⟩ := Option.map_eq_some_iff.1 hc
      exact hsep u hu
    rw [List.flatMap_cons]
    cases t with
    | newline => rw [Tile.chars, List.singleton_append, tiles, Lead.ofChar_newline, ih hts]
    | space => rw [Tile.chars, List.singleton_append, tiles, Lead.ofChar_space, ih hts]
    | symbol s => rw [Tile.chars, List.singleton_append, tiles, Lead.ofChar_char, ih hts]
    | word c cs =>
      obtain ⟨htake, hdrop⟩ := span_append hwell.2 hhead
      rw [Tile.chars, List.cons_append, tiles, Lead.ofChar_eq_word_iff.2 hwell.1]
      simp only
      rw [htake, hdrop, ih hts]
    | stray c cs =>
      obtain ⟨htake, hdrop⟩ := span_append hwell.2 hhead
      rw [Tile.chars, List.cons_append, tiles, Lead.ofChar_eq_stray_iff.2 hwell.1]
      simp only
      rw [htake, hdrop, ih hts]

/-- **The tiles of a text are its only tiling.** -/
theorem tiles_eq_iff {cs : List Char} {ts : List Tile} :
    tiles cs = ts ↔ IsTiling ts ∧ ts.flatMap Tile.chars = cs := by
  constructor
  · rintro rfl
    exact ⟨isTiling_tiles cs, flatMap_chars_tiles cs⟩
  · rintro ⟨h, rfl⟩
    exact tiles_flatMap_chars h

/-! ## Tiles in their places -/

@[simp] theorem map_tile_place (m : Mark) (ts : List Tile) :
    (place m ts).map PlacedTile.tile = ts := by
  induction ts generalizing m with
  | nil => rfl
  | cons t ts ih => rw [place, List.map_cons, ih]

theorem Tile.byteSize_chars_pos (t : Tile) : 0 < Text.byteSize t.chars :=
  Nat.pos_of_ne_zero fun h => t.chars_ne_nil (Text.byteSize_eq_zero.1 h)

/-- The last byte of a tile is the one in front of the next tile. -/
theorem offset_last_ofText (m : Mark) (t : Tile) :
    (Span.ofText m t.chars).last.offset + 1 = (m.after t.chars).offset := by
  have hpos := t.byteSize_chars_pos
  rw [Mark.offset_after, Span.ofText]
  show m.offset + (Text.byteSize t.chars - 1) + 1 = m.offset + Text.byteSize t.chars
  omega

theorem offset_le_of_mem_place {m : Mark} {ts : List Tile} {p : PlacedTile} (h : p ∈ place m ts) :
    m.offset ≤ p.span.first.offset := by
  induction ts generalizing m with
  | nil => cases h
  | cons t ts ih =>
    rcases List.mem_cons.1 h with rfl | h
    · exact le_rfl
    · have hle := ih h
      rw [Mark.offset_after] at hle
      omega

theorem pairwise_place (m : Mark) (ts : List Tile) :
    (place m ts).Pairwise fun p q => p.span.last.offset < q.span.first.offset := by
  induction ts generalizing m with
  | nil => exact .nil
  | cons t ts ih =>
    refine List.pairwise_cons.2 ⟨?_, ih _⟩
    intro q hq
    have hle := offset_le_of_mem_place hq
    rw [← offset_last_ofText] at hle
    exact hle

theorem offset_first_le_last {m : Mark} {ts : List Tile} {p : PlacedTile} (h : p ∈ place m ts) :
    p.span.first.offset ≤ p.span.last.offset := by
  induction ts generalizing m with
  | nil => cases h
  | cons t ts ih =>
    rcases List.mem_cons.1 h with rfl | h
    · exact Nat.le_add_right _ _
    · exact ih h

theorem nodup_span_place (m : Mark) (ts : List Tile) :
    ((place m ts).map PlacedTile.span).Nodup := by
  rw [List.Nodup, List.pairwise_map]
  refine (pairwise_place m ts).imp_of_mem ?_
  intro p q hp _ hpq h
  have hle := offset_first_le_last hp
  rw [h] at hle hpq
  omega

end EntitySchema
