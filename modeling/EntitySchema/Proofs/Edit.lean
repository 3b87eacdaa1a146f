import EntitySchema.Text.Edit
import Mathlib.Data.List.Basic

/-!
# Edits that are made all at once

* `Edit.RewritesOver` — what edits, made all at once, make of a text, with a condition on what each of
  them covers; `Edit.Rewrites` — without one; `Edit.Replaces` — all of them cover the same word.
* `Edit.applyFrom?_of_rewrites`: applying edits from left to right comes to the same.
* `Edit.pairwise_of_rewrites`: such edits come in the order of their places.
* **`Edit.applyAll?_of_rewrites`**: they are all applied, and nothing else is changed.
-/

namespace EntitySchema.Edit

/-- `out` is the text `cs`, which starts at byte `n`, after the edits `es` have been made all at once:
what each of them covers, a text with `P`, gives way to its replacement, and all the rest stays. -/
inductive RewritesOver (P : List Char → Prop) : Nat → List Char → List Edit → List Char → Prop
  | nil {n : Nat} {cs : List Char} : RewritesOver P n cs [] cs
  | cons {n : Nat} {kept covered rest out : List Char} {e : Edit} {es : List Edit}
      (covers : P covered) (first : e.span.first.offset = n + Text.byteSize kept)
      (last : e.span.last.offset + 1 = e.span.first.offset + Text.byteSize covered)
      (more : RewritesOver P (e.span.last.offset + 1) rest es out) :
      RewritesOver P n (kept ++ covered ++ rest) (e :: es) (kept ++ e.replacement.toList ++ out)

/-- The edits may cover anything. -/
def Rewrites : Nat → List Char → List Edit → List Char → Prop := RewritesOver fun _ => True

/-- Each of the edits covers the word `old`. -/
def Replaces (old : List Char) : Nat → List Char → List Edit → List Char → Prop :=
  RewritesOver (· = old)

variable {P : List Char → Prop} {cs out : List Char} {n : Nat} {es : List Edit}

/-- **Going from left to right makes edits all at once.** -/
theorem applyFrom?_of_rewrites (h : RewritesOver P n cs es out) {before : List Char}
    (hbefore : Text.byteSize before = n) : applyFrom? (before ++ cs) n es = some out := by
  induction h generalizing before with
  | @nil n cs =>
    exact Text.slice?_eq_some_iff.2 ⟨before, [], by simp, hbefore, rfl⟩
  | @cons n kept covered rest out e es _ first last more ih =>
    have hsize : Text.byteSize (before ++ (kept ++ covered ++ rest)) =
        e.span.last.offset + 1 + Text.byteSize rest := by
      simp only [Text.byteSize_append]
      omega
    have hkept : Text.slice? (before ++ (kept ++ covered ++ rest)) n e.span.first.offset =
        some kept := by
      refine Text.slice?_eq_some_iff.2 ⟨before, covered ++ rest, by simp, hbefore, ?_⟩
      rw [Text.byteSize_append, hbefore, first]
    have hrest : applyFrom? (before ++ (kept ++ covered ++ rest)) (e.span.last.offset + 1) es =
        some out := by
      have hbehind : Text.byteSize (before ++ (kept ++ covered)) = e.span.last.offset + 1 := by
        simp only [Text.byteSize_append]
        omega
      have h := ih hbehind
      rwa [List.append_assoc] at h
    have hinside : ¬ (e.span.first.offset < n ∨
        Text.byteSize (before ++ (kept ++ covered ++ rest)) ≤ e.span.last.offset) := by
      omega
    rw [applyFrom?, if_neg hinside, hkept, hrest]
    rfl

theorem RewritesOver.prepend (as : List Char)
    (h : RewritesOver P (n + Text.byteSize as) cs es out) :
    RewritesOver P n (as ++ cs) es (as ++ out) := by
  cases h with
  | nil => exact .nil
  | @cons _ kept covered rest out e es covers first last more =>
    have hfirst : e.span.first.offset = n + Text.byteSize (as ++ kept) := by
      rw [first, Text.byteSize_append]
      omega
    have h := RewritesOver.cons covers hfirst last more
    simpa only [List.append_assoc] using h

theorem RewritesOver.le_first (h : RewritesOver P n cs es out) :
    ∀ e ∈ es, n ≤ e.span.first.offset := by
  induction h with
  | nil => exact nofun
  | cons _ first last _ ih =>
    intro e he
    rcases List.mem_cons.1 he with rfl | he
    · omega
    · have hle := ih e he
      omega

theorem pairwise_of_rewrites (h : RewritesOver P n cs es out) :
    es.Pairwise fun a b => a.span.first.offset ≤ b.span.first.offset := by
  induction h with
  | nil => exact .nil
  | cons _ first last more ih =>
    refine List.pairwise_cons.2 ⟨?_, ih⟩
    intro e he
    have hle := more.le_first e he
    omega

theorem inOrder_of_rewrites (h : RewritesOver P n cs es out) : inOrder es = es := by
  refine List.mergeSort_of_pairwise ?_
  simpa only [decide_eq_true_eq] using pairwise_of_rewrites h

/-- **Edits that are made all at once are all applied, and nothing else is changed.** -/
theorem applyAll?_of_rewrites {text : String} (h : RewritesOver P 0 text.toList es out) :
    applyAll? text es = some (String.ofList out) := by
  rw [applyAll?, inOrder_of_rewrites h]
  have happly : applyFrom? text.toList 0 es = some out :=
    applyFrom?_of_rewrites h Text.byteSize_nil
  rw [happly]
  rfl

end EntitySchema.Edit
