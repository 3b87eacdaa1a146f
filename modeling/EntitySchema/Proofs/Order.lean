import EntitySchema.Proofs.Spelling
import Mathlib.Order.Defs.LinearOrder

/-!
# Tokens in order

The tokens of a text come one behind the other, by bytes and by lines and columns alike.

* `Span.Forward` — a span whose ends are in order; `Span.Before` — one that ends where another has
  not yet started.
* `merge_of_before`: a span widened to cover a later one.
* `find?_contains`: among spans in order, at most one contains a position.
* `InOrder` — tokens with spans in order; **`inOrder_lex`**: the tokens of a text.
-/

namespace EntitySchema

namespace Position

instance : LT Position where
  lt p q := p.line < q.line ∨ p.line = q.line ∧ p.column < q.column

theorem lt_def {p q : Position} :
    p < q ↔ p.line < q.line ∨ p.line = q.line ∧ p.column < q.column := Iff.rfl

/-- Positions as a linear order. -/
instance : LinearOrder Position where
  le_refl := Position.le_refl
  le_trans _ _ _ := Position.le_trans
  le_antisymm _ _ := Position.le_antisymm
  le_total := Position.le_total
  lt_iff_le_not_ge p q := by
    simp only [lt_def, le_def]
    omega
  toDecidableLE := inferInstance

end Position

/-! ## Spans in order -/

namespace Span

variable {a b : Span}

/-- The ends of a span are in order. -/
structure Forward (s : Span) : Prop where
  offset : s.first.offset ≤ s.last.offset
  position : s.first.position ≤ s.last.position

/-- Span `a` has ended before span `b` starts. -/
structure Before (a b : Span) : Prop where
  offset : a.last.offset < b.first.offset
  position : a.last.position < b.first.position

theorem merge_of_before (ha : a.Forward) (h : a.Before b) (hb : b.Forward) :
    a.merge b = ⟨a.first, b.last⟩ := by
  have hfirst : ¬ b.first.offset < a.first.offset := by
    have := ha.offset
    have := h.offset
    omega
  have hlast : a.last.offset < b.last.offset := h.offset.trans_le hb.offset
  rw [merge_some, earlier, later, if_neg hfirst, if_pos hlast]

theorem contains_first (h : a.Forward) : a.contains a.first.position :=
  contains_iff.2 ⟨le_rfl, h.position⟩

theorem contains_of_encloses {p : Position} (h : a.encloses b) (hp : b.contains p) :
    a.contains p := by
  obtain ⟨-, -, hfirst, hlast⟩ := encloses_iff.1 h
  obtain ⟨hp, hp'⟩ := contains_iff.1 hp
  exact contains_iff.2 ⟨hfirst.trans hp, hp'.trans hlast⟩

theorem forward_of_encloses (h : a.encloses b) (hb : b.Forward) : a.Forward := by
  obtain ⟨hfirst, hlast, hfirst', hlast'⟩ := encloses_iff.1 h
  exact ⟨(hfirst.trans hb.offset).trans hlast, (hfirst'.trans hb.position).trans hlast'⟩

theorem Before.of_encloses {p q : Span} (h : a.Before b) (ha : a.encloses p) (hb : b.encloses q) :
    p.Before q := by
  obtain ⟨-, hlast, -, hlast'⟩ := encloses_iff.1 ha
  obtain ⟨hfirst, -, hfirst', -⟩ := encloses_iff.1 hb
  exact ⟨(hlast.trans_lt h.offset).trans_le hfirst, (hlast'.trans_lt h.position).trans_le hfirst'⟩

theorem Before.not_contains {p : Position} (h : a.Before b) (ha : a.contains p) :
    ¬ b.contains p := by
  intro hb
  have hle : b.first.position ≤ a.last.position :=
    (contains_iff.1 hb).1.trans (contains_iff.1 ha).2
  exact absurd h.position (not_lt.2 hle)

/-- Among things that stand in order, the first at a position is the only one there. -/
theorem find?_contains {α : Type} {span : α → Span} {xs : List α}
    (h : xs.Pairwise fun x y => (span x).Before (span y)) {p : Position} {x : α} :
    xs.find? (fun y => (span y).contains p) = some x ↔ x ∈ xs ∧ (span x).contains p := by
  induction xs with
  | nil => simp
  | cons y ys ih =>
    obtain ⟨hy, hys⟩ := List.pairwise_cons.1 h
    by_cases hp : (span y).contains p
    · rw [List.find?_cons_of_pos (p := fun y => (span y).contains p) hp, Option.some.injEq]
      constructor
      · rintro rfl
        exact ⟨List.mem_cons_self, hp⟩
      · rintro ⟨hx, hxp⟩
        rcases List.mem_cons.1 hx with rfl | hx
        · rfl
        · exact absurd hxp ((hy x hx).not_contains hp)
    · rw [List.find?_cons_of_neg (p := fun y => (span y).contains p) hp, ih hys]
      constructor
      · rintro ⟨hx, hxp⟩
        exact ⟨List.mem_cons_of_mem y hx, hxp⟩
      · rintro ⟨hx, hxp⟩
        rcases List.mem_cons.1 hx with rfl | hx
        · exact absurd hxp hp
        · exact ⟨hx, hxp⟩

end Span

/-! ## Tokens in order -/

/-- Tokens that stand one behind the other. -/
structure InOrder (ts : List Token) : Prop where
  forward : ∀ t ∈ ts, t.span.Forward
  before : ts.Pairwise fun t u => t.span.Before u.span

theorem InOrder.sublist {ts us : List Token} (h : InOrder ts) (hsub : us.Sublist ts) : InOrder us :=
  ⟨fun t ht => h.forward t (hsub.subset ht), h.before.sublist hsub⟩

theorem position_after {cs : List Char} (h : '\n' ∉ cs) (m : Mark) :
    (m.after cs).position = ⟨m.position.line, m.position.column + cs.length⟩ := by
  induction cs generalizing m with
  | nil => rfl
  | cons c cs ih =>
    have hstep : (m.step c).position = ⟨m.position.line, m.position.column + 1⟩ :=
      if_neg (List.ne_of_not_mem_cons h).symm
    rw [Mark.after_cons, ih (List.not_mem_of_not_mem_cons h), hstep, List.length_cons]
    show (⟨_, m.position.column + 1 + cs.length⟩ : Position) = _
    rw [Nat.add_assoc, Nat.add_comm 1]

theorem line_after (m : Mark) (cs : List Char) :
    (m.after cs).position.line = m.position.line + cs.count '\n' := by
  induction cs generalizing m with
  | nil => rfl
  | cons c cs ih =>
    rw [Mark.after_cons, ih, Mark.step]
    by_cases hc : c = '\n'
    · simp [hc]
      omega
    · simp [hc]

theorem position_last_ofText {t : Tile} (h : t.WellFormed) (m : Mark) :
    (Span.ofText m t.chars).last.position < (m.after t.chars).position := by
  rw [Position.lt_def]
  by_cases ht : t = .newline
  · subst ht
    exact .inl (Nat.lt_succ_self _)
  · rw [position_after (t.newline_notMem_chars h ht)]
    have hlength : 0 < t.chars.length := List.length_pos_iff.2 t.chars_ne_nil
    refine .inr ⟨rfl, ?_⟩
    show m.position.column + (t.chars.length - 1) < m.position.column + t.chars.length
    omega

theorem forward_ofText (m : Mark) (cs : List Char) : (Span.ofText m cs).Forward :=
  ⟨Nat.le_add_right _ _, .inr ⟨rfl, Nat.le_add_right _ _⟩⟩

theorem forward_of_mem_place {m : Mark} {ts : List Tile} {p : PlacedTile} (h : p ∈ place m ts) :
    p.span.Forward := by
  induction ts generalizing m with
  | nil => cases h
  | cons t ts ih =>
    rcases List.mem_cons.1 h with rfl | h
    · exact forward_ofText m t.chars
    · exact ih h

theorem position_le_of_mem_place {m : Mark} {ts : List Tile} (hts : ∀ t ∈ ts, t.WellFormed)
    {p : PlacedTile} (h : p ∈ place m ts) : m.position ≤ p.span.first.position := by
  induction ts generalizing m with
  | nil => cases h
  | cons t ts ih =>
    obtain ⟨ht, hts⟩ := List.forall_mem_cons.1 hts
    rcases List.mem_cons.1 h with rfl | h
    · exact le_rfl
    · calc m.position ≤ (Span.ofText m t.chars).last.position := (forward_ofText m t.chars).position
        _ ≤ (m.after t.chars).position := (position_last_ofText ht m).le
        _ ≤ p.span.first.position := ih hts h

theorem pairwise_before_place {ts : List Tile} (h : ∀ t ∈ ts, t.WellFormed) (m : Mark) :
    (place m ts).Pairwise fun p q => p.span.Before q.span := by
  refine (pairwise_place m ts).imp₂ (fun p q hoffset hposition => ⟨hoffset, hposition⟩) ?_
  induction ts generalizing m with
  | nil => exact .nil
  | cons t ts ih =>
    obtain ⟨ht, hts⟩ := List.forall_mem_cons.1 h
    refine List.pairwise_cons.2 ⟨?_, ih hts _⟩
    intro q hq
    exact (position_last_ofText ht m).trans_le (position_le_of_mem_place hts hq)

/-- **The tokens of a text stand one behind the other.** -/
theorem inOrder_lex (text : String) : InOrder (lex text).tokens where
  forward := by
    intro t ht
    obtain ⟨p, hp, htoken⟩ := List.mem_filterMap.1 ht
    rw [← (PlacedTile.token?_eq_some htoken).2.2]
    exact forward_of_mem_place hp
  before := by
    refine (pairwise_before_place (isTiling_tiles text.toList).wellFormed .origin).filterMap _ ?_
    intro p q hpq t ht u hu
    rw [← (PlacedTile.token?_eq_some ht).2.2, ← (PlacedTile.token?_eq_some hu).2.2]
    exact hpq

end EntitySchema
