import EntitySchema.Proofs.Edit
import EntitySchema.Proofs.Segmentation

/-!
# Edits in any order

Edits of a text may overlap, repeat, and lie past its end. From left to right, those are chosen that
lie in the text and behind what is chosen already; these are made all at once.

* `Edit.Placed` — edits that cut no character of the text they lie in; `Edit.Apart` — edits that have
  no byte in common.
* `Edit.ByStart` — edits by increasing start, those of one start in their old order;
  `Edit.byStart_inOrder`: this is the order in which edits are gone through.
* `Edit.chosen` — the edits that are chosen; `Edit.applyFrom?_foldl_choose`: all others are left out,
  and the chosen ones can be made.
* `Edit.chosen_of_pairwise`: edits of the text that are apart are all chosen.
* **`Edit.applyAll?_chosen`**: edits are applied to every text, and the chosen ones are made.
-/

namespace EntitySchema.Edit

/-- An edit whose ends are in order and, if it lies in the text `cs`, between characters. -/
structure Placed (cs : List Char) (e : Edit) : Prop where
  forward : e.span.first.offset ≤ e.span.last.offset
  boundary : e.span.last.offset < Text.byteSize cs →
    Text.IsBoundary cs e.span.first.offset ∧ Text.IsBoundary cs (e.span.last.offset + 1)

/-- Two edits that have no byte in common. -/
def Apart (a b : Edit) : Prop :=
  a.span.last.offset < b.span.first.offset ∨ b.span.last.offset < a.span.first.offset

/-- The edits `sorted` are the edits `es` by increasing start, and those of one start are in the order
in which `es` has them. -/
structure ByStart (es sorted : List Edit) : Prop where
  starts : sorted.Pairwise fun a b => a.span.first.offset ≤ b.span.first.offset
  ties : ∀ start, sorted.filter (·.span.first.offset = start) =
    es.filter (·.span.first.offset = start)

theorem perm_inOrder (es : List Edit) : (inOrder es).Perm es := List.mergeSort_perm es _

theorem pairwise_inOrder (es : List Edit) :
    (inOrder es).Pairwise fun a b => a.span.first.offset ≤ b.span.first.offset := by
  have h : (inOrder es).Pairwise fun a b => decide (a.span.first.offset ≤ b.span.first.offset) :=
    List.pairwise_mergeSort (by simp; omega) (by simp; omega) es
  simp only [decide_eq_true_eq] at h
  exact h

theorem sublist_inOrder {es sorted : List Edit}
    (h : sorted.Pairwise fun a b => a.span.first.offset ≤ b.span.first.offset)
    (hsub : sorted.Sublist es) : sorted.Sublist (inOrder es) := by
  refine List.sublist_mergeSort (by simp; omega) (by simp; omega) ?_ hsub
  simpa only [decide_eq_true_eq] using h

theorem byStart_inOrder (es : List Edit) : ByStart es (inOrder es) where
  starts := pairwise_inOrder es
  ties := by
    intro start
    have hties : (es.filter (·.span.first.offset = start)).Pairwise
        fun a b => a.span.first.offset ≤ b.span.first.offset := by
      refine List.pairwise_of_forall_mem_list fun a ha b hb => ?_
      have ha := of_decide_eq_true (List.mem_filter.1 ha).2
      have hb := of_decide_eq_true (List.mem_filter.1 hb).2
      omega
    have hsub := (sublist_inOrder hties List.filter_sublist).filter
      (·.span.first.offset = start)
    simp only [List.filter_filter, Bool.and_self] at hsub
    exact (hsub.eq_of_length_le ((perm_inOrder es).filter _).length_eq.le).symm

/-! ## The choice of edits -/

/-- The byte behind the last of some edits. -/
def stop (es : List Edit) : Nat := (es.getLast?.map (·.span.last.offset + 1)).getD 0

@[simp] theorem stop_concat (es : List Edit) (e : Edit) :
    stop (es ++ [e]) = e.span.last.offset + 1 := by
  rw [stop, List.getLast?_concat]
  rfl

/-- Chooses one more edit, if it lies behind the edits chosen so far, and in a text of `size` bytes. -/
def choose (size : Nat) (chosen : List Edit) (e : Edit) : List Edit :=
  if stop chosen ≤ e.span.first.offset ∧ e.span.last.offset < size then chosen ++ [e] else chosen

/-- The edits that are chosen for a text of `size` bytes, if edits are gone through one by one. -/
def chosen (size : Nat) (es : List Edit) : List Edit := es.foldl (choose size) []

theorem exists_between {cs as rest : List Char} {n : Nat} (hcs : cs = as ++ rest)
    (hle : Text.byteSize as ≤ n) (h : Text.IsBoundary cs n) :
    ∃ mid rest', rest = mid ++ rest' ∧ n = Text.byteSize as + Text.byteSize mid := by
  obtain ⟨as', bs, rfl, rfl⟩ := Text.isBoundary_iff.1 h
  rcases List.append_eq_append_iff.1 hcs with ⟨mid, rfl, rfl⟩ | ⟨mid, rfl, rfl⟩
  · rw [Text.byteSize_append] at hle
    obtain rfl : mid = [] := Text.byteSize_eq_zero.1 (by omega)
    exact ⟨[], rest, rfl, by simp⟩
  · exact ⟨mid, bs, rfl, Text.byteSize_append as mid⟩

section Choose

variable {cs : List Char} {es before : List Edit}

/-- **All edits but the chosen ones are left out, and these can be made**, behind the text `as` in
which the edits `before` lie. -/
theorem applyFrom?_foldl_choose (hes : ∀ e ∈ es, e.Placed cs) {as rest : List Char}
    (hcs : cs = as ++ rest) (has : Text.byteSize as = stop before) :
    ∃ more out, es.foldl (choose (Text.byteSize cs)) before = before ++ more ∧
      Rewrites (stop before) rest more out ∧
      applyFrom? cs (stop before) es = applyFrom? cs (stop before) more := by
  induction es generalizing before as rest with
  | nil => exact ⟨[], rest, by simp, .nil, rfl⟩
  | cons e es ih =>
    obtain ⟨he, hes⟩ := List.forall_mem_cons.1 hes
    by_cases hfits : stop before ≤ e.span.first.offset ∧ e.span.last.offset < Text.byteSize cs
    · obtain ⟨hfirst, hlast⟩ := he.boundary hfits.2
      have hforward := he.forward
      -- the text behind `as` falls into what is kept, what the edit covers, and the rest
      obtain ⟨kept, rest₁, rfl, hkept⟩ := exists_between hcs (by omega) hfirst
      have hkeep : cs = (as ++ kept) ++ rest₁ := by simpa using hcs
      obtain ⟨covered, rest₂, rfl, hcovered⟩ := exists_between hkeep (by simp; omega) hlast
      have hsize : Text.byteSize (as ++ kept ++ covered) = stop (before ++ [e]) := by
        rw [stop_concat, hcovered, Text.byteSize_append]
      have hcover : cs = (as ++ kept ++ covered) ++ rest₂ := by simpa using hkeep
      obtain ⟨more, out, hmore, hrewrites, happly⟩ := ih hes hcover hsize
      rw [stop_concat] at hrewrites happly
      have hinside : ¬ (e.span.first.offset < stop before ∨
          Text.byteSize cs ≤ e.span.last.offset) := by omega
      refine ⟨e :: more, kept ++ e.replacement.toList ++ out, ?_, ?_, ?_⟩
      · rw [List.foldl_cons, choose, if_pos hfits, hmore, List.append_assoc, List.singleton_append]
      · rw [← List.append_assoc]
        refine .cons trivial (by omega) ?_ hrewrites
        rw [hcovered, Text.byteSize_append]
        omega
      · rw [applyFrom?, applyFrom?, if_neg hinside, if_neg hinside, happly]
    · obtain ⟨more, out, hmore, hrewrites, happly⟩ := ih hes hcs has
      have houtside : e.span.first.offset < stop before ∨
          Text.byteSize cs ≤ e.span.last.offset := by omega
      refine ⟨more, out, ?_, hrewrites, ?_⟩
      · rw [List.foldl_cons, choose, if_neg hfits, hmore]
      · rw [applyFrom?, if_pos houtside, happly]

end Choose

/-- **Every list of edits can be applied, and the chosen ones are made.** -/
theorem exists_applyFrom? {cs : List Char} {es : List Edit} (hes : ∀ e ∈ es, e.Placed cs) :
    ∃ out, applyFrom? cs 0 es = some out ∧ Rewrites 0 cs (chosen (Text.byteSize cs) es) out := by
  have hnone : Text.byteSize [] = stop [] := rfl
  obtain ⟨more, out, hmore, hrewrites, happly⟩ :=
    applyFrom?_foldl_choose hes (List.nil_append cs).symm hnone
  have hmade : applyFrom? ([] ++ cs) 0 more = some out := applyFrom?_of_rewrites hrewrites rfl
  refine ⟨out, happly.trans hmade, ?_⟩
  rw [chosen, hmore]
  exact hrewrites

/-! ## Edits that are apart -/

theorem foldl_choose_of_pairwise {size : Nat} {es before : List Edit}
    (hes : es.Pairwise fun a b => a.span.last.offset < b.span.first.offset)
    (hlast : ∀ e ∈ es, e.span.last.offset < size)
    (hbefore : ∀ e ∈ es, stop before ≤ e.span.first.offset) :
    es.foldl (choose size) before = before ++ es := by
  induction es generalizing before with
  | nil => simp
  | cons e es ih =>
    obtain ⟨he, hes⟩ := List.pairwise_cons.1 hes
    obtain ⟨hsize, hlast⟩ := List.forall_mem_cons.1 hlast
    have hfits := And.intro (hbefore e List.mem_cons_self) hsize
    rw [List.foldl_cons, choose, if_pos hfits, ih hes hlast, List.append_assoc,
      List.singleton_append]
    intro e' he'
    rw [stop_concat]
    exact he e' he'

theorem chosen_of_pairwise {size : Nat} {es : List Edit}
    (hes : es.Pairwise fun a b => a.span.last.offset < b.span.first.offset)
    (hlast : ∀ e ∈ es, e.span.last.offset < size) : chosen size es = es :=
  foldl_choose_of_pairwise hes hlast fun _ _ => Nat.zero_le _

section Apart

variable {cs : List Char} {es es' : List Edit}

theorem Apart.symm {a b : Edit} (h : a.Apart b) : b.Apart a := Or.symm h

theorem pairwise_inOrder_of_apart (hes : ∀ e ∈ es, e.Placed cs) (hapart : es.Pairwise Apart) :
    (inOrder es).Pairwise fun a b => a.span.last.offset < b.span.first.offset := by
  have happart : (inOrder es).Pairwise Apart :=
    ((perm_inOrder es).pairwise_iff Apart.symm).2 hapart
  refine (List.Pairwise.and (pairwise_inOrder es) happart).imp_of_mem ?_
  rintro a b - hb ⟨hstarts, habove | hbelow⟩
  · exact habove
  · have hforward := (hes b ((perm_inOrder es).subset hb)).forward
    omega

theorem inOrder_eq_of_perm (hes : ∀ e ∈ es, e.Placed cs) (hapart : es.Pairwise Apart)
    (h : es'.Perm es) : inOrder es' = inOrder es := by
  have hsorted := pairwise_inOrder_of_apart hes hapart
  have hes' : ∀ e ∈ es', e.Placed cs := fun e he => hes e (h.subset he)
  have hsorted' := pairwise_inOrder_of_apart hes' ((h.pairwise_iff Apart.symm).2 hapart)
  refine List.Perm.eq_of_pairwise ?_ hsorted' hsorted
    (((perm_inOrder es').trans h).trans (perm_inOrder es).symm)
  intro a b ha hb hab hba
  have hforward := (hes b ((perm_inOrder es).subset hb)).forward
  have hforward' := (hes' a ((perm_inOrder es').subset ha)).forward
  omega

end Apart

/-- **Edits can be applied in any order, and the chosen ones are made.** -/
theorem applyAll?_chosen (text : String) (es : List Edit) (hes : ∀ e ∈ es, e.Placed text.toList) :
    ByStart es (inOrder es) ∧
      (∃ out : String, applyAll? text es = some out ∧
        Rewrites 0 text.toList (chosen (Text.byteSize text.toList) (inOrder es)) out.toList) ∧
      ((∀ e ∈ es, e.span.last.offset < Text.byteSize text.toList) → es.Pairwise Apart →
        chosen (Text.byteSize text.toList) (inOrder es) = inOrder es ∧
          ∀ es' : List Edit, es'.Perm es → applyAll? text es' = applyAll? text es) := by
  have hplaced : ∀ e ∈ inOrder es, e.Placed text.toList :=
    fun e he => hes e ((perm_inOrder es).subset he)
  refine ⟨byStart_inOrder es, ?_, ?_⟩
  · obtain ⟨out, happly, hrewrites⟩ := exists_applyFrom? hplaced
    refine ⟨String.ofList out, ?_, ?_⟩
    · rw [applyAll?, happly]
      rfl
    · rwa [String.toList_ofList]
  · intro hlast hapart
    refine ⟨chosen_of_pairwise (pairwise_inOrder_of_apart hes hapart) ?_, ?_⟩
    · exact fun e he => hlast e ((perm_inOrder es).subset he)
    · intro es' hperm
      rw [applyAll?, applyAll?, inOrder_eq_of_perm hes hapart hperm]

/-- Two letters are replaced from right to left; one of them is two bytes wide. -/
theorem applyAll?_chosen_letters :
    let a : Edit := ⟨.ofText ⟨0, ⟨1, 1⟩⟩ ['a'], "A"⟩
    let e : Edit := ⟨.ofText ⟨1, ⟨1, 2⟩⟩ ['é'], "e"⟩
    (∀ x ∈ [e, a], x.Placed "aéb".toList) ∧
      (∀ x ∈ [e, a], x.span.last.offset < Text.byteSize "aéb".toList) ∧ [e, a].Pairwise Apart ∧
      ByStart [e, a] (inOrder [e, a]) ∧
      (∃ out : String, applyAll? "aéb" [e, a] = some out ∧
        Rewrites 0 "aéb".toList
          (chosen (Text.byteSize "aéb".toList) (inOrder [e, a])) out.toList) ∧
      chosen (Text.byteSize "aéb".toList) (inOrder [e, a]) = inOrder [e, a] ∧
        applyAll? "aéb" [a, e] = applyAll? "aéb" [e, a] := by
  intro a e
  have hplaced : ∀ x ∈ [e, a], x.Placed "aéb".toList := by
    simp only [List.forall_mem_cons, List.not_mem_nil, false_imp_iff, implies_true, and_true]
    exact ⟨⟨by decide, by decide⟩, ⟨by decide, by decide⟩⟩
  have hlast : ∀ x ∈ [e, a], x.span.last.offset < Text.byteSize "aéb".toList := by decide
  have hapart : [e, a].Pairwise Apart := List.pairwise_pair.2 (.inr (by decide))
  obtain ⟨hstart, hmade, hall⟩ := applyAll?_chosen "aéb" [e, a] hplaced
  obtain ⟨hchosen, hperm⟩ := hall hlast hapart
  exact ⟨hplaced, hlast, hapart, hstart, hmade, hchosen, hperm _ (.swap e a [])⟩

/-- An edit that overlaps the one chosen before it and an edit past the text are left out. -/
example : applyAll? "aéb" [⟨.ofText ⟨1, ⟨1, 2⟩⟩ "éb".toList, "x"⟩,
    ⟨.ofText ⟨0, ⟨1, 1⟩⟩ "aé".toList, "y"⟩, ⟨.ofText ⟨3, ⟨1, 3⟩⟩ "bc".toList, "z"⟩] =
      some "yb" := by cbv

end EntitySchema.Edit
