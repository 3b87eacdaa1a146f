import EntitySchema.Proofs.Positions
import Mathlib.Order.Compare

/-!
# Joins of spans

A span is widened to cover another one by comparing byte offsets; the positions of the ends are only
taken along. So some laws hold of all spans, and others need ends that bytes and positions order
alike, as the ends of all spans of one text are.

* `Mark.Coherent`, `Span.Coherent` — marks and spans that bytes and positions order alike;
  `coherent_of_mem_spans`: the tokens and errors of a text.
* `pick` — the choice between two marks by their offsets; `pick_assoc`, `pick_comm`: its laws.
* `encloses_merge`: what lies around two spans lies around their merge.
* `merge_comm_of_coherent`, `merge_encloses`: coherent spans in either order.
* **`merge_join`**: merging is the join of the order by enclosure.
-/

namespace EntitySchema

/-! ## Coherence -/

/-- Bytes and positions order the marks `m` and `n` alike. -/
def Mark.Coherent (m n : Mark) : Prop := cmp m.offset n.offset = cmp m.position n.position

/-- Bytes and positions order the starts of `a` and `b` alike, and their ends. -/
structure Span.Coherent (a b : Span) : Prop where
  first : a.first.Coherent b.first
  last : a.last.Coherent b.last

instance (m n : Mark) : Decidable (m.Coherent n) :=
  inferInstanceAs (Decidable (cmp m.offset n.offset = cmp m.position n.position))

theorem Mark.Coherent.symm {m n : Mark} (h : m.Coherent n) : n.Coherent m := cmp_eq_cmp_symm.1 h

theorem Span.Coherent.symm {a b : Span} (h : a.Coherent b) : b.Coherent a :=
  ⟨h.first.symm, h.last.symm⟩

theorem Mark.coherent_of_le_iff {m n : Mark} (h : m.offset ≤ n.offset ↔ m.position ≤ n.position)
    (h' : n.offset ≤ m.offset ↔ n.position ≤ m.position) : m.Coherent n := by
  rw [Mark.Coherent]
  rcases lt_trichotomy m.offset n.offset with hlt | heq | hgt
  · rw [hlt.cmp_eq_lt, (not_le.1 (mt h'.2 (not_le.2 hlt))).cmp_eq_lt]
  · rw [heq.cmp_eq_eq, (le_antisymm (h.1 heq.le) (h'.1 heq.ge)).cmp_eq_eq]
  · rw [hgt.cmp_eq_gt, (not_le.1 (mt h.2 (not_le.2 hgt))).cmp_eq_gt]

/-- **The tokens and errors of a text are coherent.** -/
theorem coherent_of_mem_spans {text : String} {a b : Span} (ha : a ∈ (lex text).spans)
    (hb : b ∈ (lex text).spans) : a.Coherent b := by
  obtain ⟨p, hp, rfl⟩ := mem_spans_lex ha
  obtain ⟨q, hq, rfl⟩ := mem_spans_lex hb
  have hwell := (isTiling_tiles text.toList).wellFormed
  have hpq := sameOrder_of_mem_place hwell hp hq
  have hqp := sameOrder_of_mem_place hwell hq hp
  exact ⟨Mark.coherent_of_le_iff hpq.first hqp.first, Mark.coherent_of_le_iff hpq.last hqp.last⟩

namespace Span

section Pick

variable (r : Nat → Nat → Prop) [DecidableRel r]

/-- The one of the marks `a` and `b` whose offset is ahead in the order `r`, and `a` if neither is. -/
def pick (a b : Mark) : Mark := if r b.offset a.offset then b else a

theorem earlier_eq_pick (a b : Mark) : earlier a b = pick (· < ·) a b := rfl

theorem later_eq_pick (a b : Mark) : later a b = pick (· > ·) a b := rfl

theorem pick_self (a : Mark) : pick r a a = a := ite_self a

theorem pick_eq_or (a b : Mark) : pick r a b = a ∨ pick r a b = b := by
  rw [pick]
  split
  · exact .inr rfl
  · exact .inl rfl

variable [IsStrictTotalOrder Nat r]

theorem pick_assoc (a b c : Mark) : pick r (pick r a b) c = pick r a (pick r b c) := by
  by_cases hb : r b.offset a.offset
  · by_cases hc : r c.offset b.offset
    · have hca : r c.offset a.offset := trans_of r hc hb
      simp only [pick, if_pos hb, if_pos hc, if_pos hca]
    · simp only [pick, if_pos hb, if_neg hc]
  · by_cases hc : r c.offset b.offset
    · simp only [pick, if_neg hb, if_pos hc]
    · have hca : ¬ r c.offset a.offset := by
        intro hca
        rcases trichotomous_of r b.offset c.offset with hbc | heq | hcb
        · exact hb (trans_of r hbc hca)
        · exact hb (heq ▸ hca)
        · exact hc hcb
      simp only [pick, if_neg hb, if_neg hc, if_neg hca]

/-- Coherent marks at one offset are one mark. -/
theorem pick_comm {a b : Mark} (h : a.Coherent b) : pick r a b = pick r b a := by
  rcases trichotomous_of r a.offset b.offset with hab | heq | hba
  · rw [pick, pick, if_neg (asymm_of r hab), if_pos hab]
  · have hposition : a.position = b.position := (eq_iff_eq_of_cmp_eq_cmp h).1 heq
    have hmark : a = b := by
      cases a
      cases b
      cases heq
      cases hposition
      rfl
    rw [hmark]
  · rw [pick, pick, if_pos hba, if_neg (asymm_of r hba)]

end Pick

section Coherent

variable {a b : Mark}

theorem earlier_le (h : a.Coherent b) :
    (earlier a b).offset ≤ a.offset ∧ (earlier a b).position ≤ a.position := by
  rw [earlier]
  split
  · next hlt => exact ⟨hlt.le, ((lt_iff_lt_of_cmp_eq_cmp h.symm).1 hlt).le⟩
  · exact ⟨le_rfl, le_rfl⟩

theorem le_later (h : a.Coherent b) :
    a.offset ≤ (later a b).offset ∧ a.position ≤ (later a b).position := by
  rw [later]
  split
  · next hlt => exact ⟨hlt.le, ((lt_iff_lt_of_cmp_eq_cmp h).1 hlt).le⟩
  · exact ⟨le_rfl, le_rfl⟩

end Coherent

/-! ## Merging -/

variable {a b c : Span}

theorem merge_assoc (a b c : Span) : (a.merge b).merge c = a.merge (b.merge c) := by
  simp only [merge_some, earlier_eq_pick, later_eq_pick, pick_assoc]

theorem merge_self (a : Span) : a.merge a = a := by
  rw [merge_some, earlier_eq_pick, later_eq_pick, pick_self, pick_self]

/-- Every end of a merge is an end of one of the spans. -/
theorem encloses_merge (ha : c.encloses a) (hb : c.encloses b) : c.encloses (a.merge b) := by
  rw [encloses_iff] at ha hb ⊢
  obtain ⟨hfirst, hlast, hfirst', hlast'⟩ := ha
  obtain ⟨gfirst, glast, gfirst', glast'⟩ := hb
  simp only [merge_some, earlier_eq_pick, later_eq_pick]
  rcases pick_eq_or (· < ·) a.first b.first with hf | hf <;>
    rcases pick_eq_or (· > ·) a.last b.last with hl | hl <;>
    rw [hf, hl]
  · exact ⟨hfirst, hlast, hfirst', hlast'⟩
  · exact ⟨hfirst, glast, hfirst', glast'⟩
  · exact ⟨gfirst, hlast, gfirst', hlast'⟩
  · exact ⟨gfirst, glast, gfirst', glast'⟩

theorem merge_comm_of_coherent (h : a.Coherent b) : a.merge b = b.merge a := by
  simp only [merge_some, earlier_eq_pick, later_eq_pick]
  rw [pick_comm _ h.first, pick_comm _ h.last]

theorem merge_encloses (h : a.Coherent b) : (a.merge b).encloses a := by
  obtain ⟨hoffset, hposition⟩ := earlier_le h.first
  obtain ⟨hoffset', hposition'⟩ := le_later h.last
  exact encloses_iff.2 ⟨hoffset, hoffset', hposition, hposition'⟩

/-- **Merging is the join of the order by enclosure.** -/
theorem merge_join (a b c : Span) :
    (a.merge b).merge c = a.merge (b.merge c) ∧ a.merge a = a ∧ a.merge none = a ∧
      (c.encloses a → c.encloses b → c.encloses (a.merge b)) ∧
      (a.Coherent b →
        a.merge b = b.merge a ∧ (a.merge b).encloses a ∧ (a.merge b).encloses b) := by
  refine ⟨merge_assoc a b c, merge_self a, merge_none a, encloses_merge, fun h => ?_⟩
  have hcomm := merge_comm_of_coherent h
  refine ⟨hcomm, merge_encloses h, ?_⟩
  rw [hcomm]
  exact merge_encloses h.symm

/-- Two words of a line, the later one first, with a blank in front of them and behind. -/
theorem merge_join_words :
    let a : Span := ofText ⟨6, ⟨2, 6⟩⟩ "int".toList
    let b : Span := ofText ⟨3, ⟨2, 3⟩⟩ "id".toList
    let c : Span := ⟨⟨2, ⟨2, 2⟩⟩, ⟨9, ⟨2, 9⟩⟩⟩
    c.encloses a ∧ c.encloses b ∧ a.Coherent b ∧ c.encloses (a.merge b) ∧ a.merge b = b.merge a ∧
      (a.merge b).encloses a ∧ (a.merge b).encloses b := by
  intro a b c
  have ha : c.encloses a := by decide
  have hb : c.encloses b := by decide
  have hab : a.Coherent b := ⟨by decide, by decide⟩
  obtain ⟨-, -, -, hleast, hjoin⟩ := merge_join a b c
  exact ⟨ha, hb, hab, hleast ha hb, hjoin hab⟩

/-- Two positions at one byte are of no one text; there the span that is widened decides. -/
example : (ofText ⟨0, ⟨1, 1⟩⟩ ['a']).merge (ofText ⟨0, ⟨1, 2⟩⟩ ['a']) ≠
    (ofText ⟨0, ⟨1, 2⟩⟩ ['a']).merge (ofText ⟨0, ⟨1, 1⟩⟩ ['a']) := by decide

end Span

end EntitySchema
