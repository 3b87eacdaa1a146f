import EntitySchema.Proofs.DiagnosticPlaces

/-!
# The lines of reports

Messages quote the text they are about, and a report is read line by line. No text makes a report
have other lines than its diagnostics give it: what is quoted breaks no line, and no line loses its
end with the white space that is cut off.

* `Text.Solid`, `FillsLine` — a text without white space at its end, and one that is a whole line.
* **`Text.newline_notMem_escape`**: escaped text is without newlines.
* `Diagnostic.Unbroken` — a diagnostic no part of which breaks a line; `Warning.quoted` — the names in
  the messages of a warning.
* **`unbroken_of_mem_diagnostics`**: the diagnostics of every text are unbroken.
* `reportLines` — the lines between the newlines of a report; `Diagnostic.lines` — the header and the
  notes of a diagnostic.
* `Diagnostic.renderAll_eq`: nothing is cut off in a report about unbroken diagnostics.
* **`report_lines`**: the lines of the report about a text are those of its diagnostics.
-/

namespace EntitySchema

/-! ## Texts that fill a line -/

/-- A text that ends in something that is not white space. -/
def Text.Solid (cs : List Char) : Prop := ∃ c, cs.getLast? = some c ∧ isBlank c = false

/-- A text that no newline breaks, and that does not end in white space. -/
structure FillsLine (s : String) : Prop where
  newline_notMem : '\n' ∉ s.toList
  solid : Text.Solid s.toList

theorem FillsLine.prepend {a b : String} (hb : FillsLine b) (ha : '\n' ∉ a.toList) :
    FillsLine (a ++ b) := by
  obtain ⟨hnewline, c, hlast, hc⟩ := hb
  refine ⟨?_, c, getLast?_toList_append hlast, hc⟩
  simp [ha, hnewline]

namespace Text

theorem trimEnd_eq_self {cs : List Char} (h : Solid cs) : trimEnd cs = cs := by
  obtain ⟨c, hlast, hc⟩ := h
  obtain ⟨bs, rfl⟩ := List.getLast?_eq_some_iff.1 hlast
  simp [trimEnd, hc]

theorem isBlank_digitChar (d : Nat) : isBlank (Nat.digitChar d) = false := by
  rcases Nat.lt_or_ge d 16 with hlt | hge
  · exact (by decide : ∀ d < 16, isBlank (Nat.digitChar d) = false) d hlt
  · rw [Nat.digitChar_eq_star.2 hge]
    rfl

theorem isBlank_of_mem_toDigits {base : Nat} (hbase : 1 < base) (n : Nat) :
    ∀ c ∈ Nat.toDigits base n, isBlank c = false := by
  induction n using Nat.strong_induction_on with
  | _ n ih =>
    rw [Nat.toDigits_eq_if hbase]
    split
    · exact List.forall_mem_singleton.2 (isBlank_digitChar n)
    · next hn =>
      have hlt : n / base < n := Nat.div_lt_self (by omega) hbase
      exact List.forall_mem_append.2
        ⟨ih _ hlt, List.forall_mem_singleton.2 (isBlank_digitChar (n % base))⟩

theorem newline_notMem_toDigits {base : Nat} (hbase : 1 < base) (n : Nat) :
    '\n' ∉ Nat.toDigits base n := fun h =>
  absurd (isBlank_of_mem_toDigits hbase n _ h) (by decide)

theorem newline_notMem_codePointEscape (c : Char) : '\n' ∉ codePointEscape c := by
  have hdigits := newline_notMem_toDigits (by decide : 1 < 16) c.toNat
  simp [codePointEscape, hdigits]

theorem newline_notMem_escapeChar (style : EscapeStyle) (leading : Bool) (c : Char) :
    '\n' ∉ escapeChar style leading c := by
  unfold escapeChar
  split
  · next e he =>
    obtain ⟨before, after, hescapes, -⟩ := List.lookup_eq_some_iff.1 he
    have hmem : (c, e) ∈ shortEscapes := hescapes ▸ List.mem_append_right _ List.mem_cons_self
    have he : e ≠ '\n' := (by decide : ∀ p ∈ shortEscapes, p.2 ≠ '\n') _ hmem
    simp [he.symm]
  · next hnone =>
    -- a newline is among the characters with an escape of two characters
    have hc : c ≠ '\n' := by
      rintro rfl
      cases hnone
    split_ifs
    · simp [hc.symm]
    · exact newline_notMem_codePointEscape c
    · simp [hc.symm]
    · exact newline_notMem_codePointEscape c

/-- **Escaped text is without newlines**, whatever it quotes. -/
theorem newline_notMem_escape (style : EscapeStyle) (cs : List Char) : '\n' ∉ escape style cs := by
  cases cs with
  | nil => exact List.not_mem_nil
  | cons c cs =>
    rw [escape, List.mem_append, List.mem_flatMap]
    rintro (hfirst | ⟨d, -, hd⟩)
    · exact newline_notMem_escapeChar style true c hfirst
    · exact newline_notMem_escapeChar style false d hd

end Text

theorem fillsLine_toString (n : Nat) : FillsLine (toString n) := by
  have hdigits : (toString n).toList = Nat.toDigits 10 n := Nat.toList_repr
  have hne : Nat.toDigits 10 n ≠ [] := Nat.toDigits_ne_nil
  constructor
  · rw [hdigits]
    exact Text.newline_notMem_toDigits (by decide) n
  · rw [hdigits]
    exact ⟨_, List.getLast?_eq_some_getLast hne,
      Text.isBlank_of_mem_toDigits (by decide) n _ (List.getLast_mem hne)⟩

theorem newline_notMem_of_isIdentifier {w : String} (h : isIdentifier w) : '\n' ∉ w.toList := by
  obtain ⟨c, cs, hw, hwell, -⟩ := isIdentifier_iff.1 h
  rw [hw]
  exact Tile.newline_notMem_chars hwell Tile.noConfusion

/-! ## Diagnostics in lines -/

/-- No part of a diagnostic breaks a line of a report, and the message ends a line. -/
structure Diagnostic.Unbroken (d : Diagnostic) : Prop where
  code : '\n' ∉ d.code.toList
  message : FillsLine d.message
  labels : ∀ l ∈ d.labels, '\n' ∉ l.message.toList

theorem fillsLine_quote {before quoted : String} (hbefore : '\n' ∉ before.toList)
    (hquoted : '\n' ∉ quoted.toList) : FillsLine (before ++ quoted ++ "'") := by
  have hquote : FillsLine "'" := ⟨by decide, '\'', rfl, rfl⟩
  refine hquote.prepend ?_
  simp [hbefore, hquoted]

theorem PlacedTile.unbroken_of_error? {p : PlacedTile} {d : Diagnostic} (h : p.error? = some d) :
    d.Unbroken := by
  have hcode : '\n' ∉ "E1000".toList := by decide
  rw [error?] at h
  split at h
  · next c cs _ =>
    obtain rfl := Option.some.inj h
    have hescape := Text.newline_notMem_escape strayStyle (c :: cs)
    refine ⟨hcode, fillsLine_quote (by decide) ?_, List.forall_mem_nil _⟩
    rwa [String.toList_ofList]
  · cases h

theorem Token.fillsLine_describe {t : Token} (h : t.Spelled) : FillsLine t.describe := by
  rw [describe]
  split
  · next hkind =>
    exact fillsLine_quote (by decide)
      (newline_notMem_of_isIdentifier (isIdentifier_of_spelled h hkind))
  · cases t.kind <;> exact ⟨by decide, _, rfl, rfl⟩

theorem Mismatch.unbroken_diagnostic {m : Mismatch} (h : ∀ t ∈ m.rest, t.Spelled) (atEnd : Span) :
    (m.diagnostic atEnd).Unbroken := by
  have hcode : '\n' ∉ "E1500".toList := by decide
  have hexpected : '\n' ∉ m.expected.describe.toList := by cases m.expected <;> simp [Expectation.describe]
  have hfound : FillsLine m.found := by
    rw [found]
    split
    · exact ⟨by decide, 't', rfl, rfl⟩
    · next t rest hrest => exact Token.fillsLine_describe (h t (hrest ▸ List.mem_cons_self))
  refine ⟨hcode, hfound.prepend ?_, List.forall_mem_nil _⟩
  simp [hexpected]

theorem rest_subset_of_mem_faults {ts : List Token} {m : Mismatch}
    (h : m ∈ Pass.faults false (cutLines ts)) : m.rest ⊆ ts := by
  obtain ⟨before, line, after, hlines, hfault⟩ := Pass.mem_faults h
  have hrest : m.rest ⊆ line := (Pass.stuck_of_fault? hfault).suffix.subset
  have hline : line ∈ cutLines ts := hlines ▸ List.mem_append_right _ List.mem_cons_self
  intro t ht
  rw [← flatten_cutLines ts]
  exact List.mem_flatten_of_mem hline (hrest ht)

namespace Warning

/-- The identifiers whose names a warning and its labels quote. -/
def quoted : Warning → List Identifier
  | repeatedEntity r | repeatedAttribute r => [r.again]
  | missingEntity r => [r.targetEntity]
  | missingAttribute r target => [r.targetAttribute, r.targetEntity, target.name]

variable {w : Warning}

theorem fillsLine_message (h : ∀ i ∈ w.quoted, '\n' ∉ i.name.toList) :
    FillsLine w.message := by
  cases w with
  | repeatedEntity r | repeatedAttribute r =>
    have hname : '\n' ∉ r.again.name.toList := h _ List.mem_cons_self
    refine (fillsLine_toString _).prepend ?_
    simp [hname]
  | missingEntity r =>
    have hname : '\n' ∉ r.targetEntity.name.toList := h _ List.mem_cons_self
    have hend : FillsLine "' does not exist" := ⟨by decide, 't', rfl, rfl⟩
    refine hend.prepend ?_
    simp [hname]
  | missingAttribute r target =>
    simp only [quoted, List.forall_mem_cons] at h
    obtain ⟨hattribute, hentity, -, -⟩ := h
    have hline : '\n' ∉ (lineOf target.name).toList := (fillsLine_toString _).newline_notMem
    have hend : FillsLine ")" := ⟨by decide, ')', rfl, rfl⟩
    refine hend.prepend ?_
    simp [hattribute, hentity, hline]

theorem newline_notMem_labels (h : ∀ i ∈ w.quoted, '\n' ∉ i.name.toList) :
    ∀ l ∈ w.labels, '\n' ∉ l.message.toList := by
  have hfirst : '\n' ∉ "first defined here".toList := by decide
  cases w with
  | repeatedEntity r | repeatedAttribute r => exact List.forall_mem_singleton.2 hfirst
  | missingEntity r => exact List.forall_mem_nil _
  | missingAttribute r target =>
    simp only [quoted, List.forall_mem_cons] at h
    obtain ⟨-, -, htarget, -⟩ := h
    simp [labels, htarget]

theorem unbroken_diagnostic (h : ∀ i ∈ w.quoted, '\n' ∉ i.name.toList) :
    w.diagnostic.Unbroken := by
  have hcode : '\n' ∉ w.code.toList := by cases w <;> simp [code]
  exact ⟨hcode, fillsLine_message h, newline_notMem_labels h⟩

theorem quoted_subset_names {s : Schema} (hw : w ∈ s.warnings) : w.quoted ⊆ s.shape.names := by
  rcases List.mem_append.1 hw with hw | hw
  · rcases List.mem_append.1 hw with hw | hw
    · obtain ⟨r, hr, rfl⟩ := List.mem_map.1 hw
      obtain ⟨e, he, hname⟩ := List.mem_map.1 (mem_repeats hr).2
      have hagain : r.again ∈ s.shape.names := hname ▸ names_entity_subset he List.mem_cons_self
      exact List.cons_subset.2 ⟨hagain, List.nil_subset _⟩
    · obtain ⟨e, he, hw⟩ := List.mem_flatMap.1 hw
      obtain ⟨r, hr, rfl⟩ := List.mem_map.1 hw
      obtain ⟨a, ha, hname⟩ := List.mem_map.1 (mem_repeats hr).2
      have hagain : r.again ∈ s.shape.names :=
        hname ▸ names_attribute_subset he ha List.mem_cons_self
      exact List.cons_subset.2 ⟨hagain, List.nil_subset _⟩
  · obtain ⟨r, hr, hw⟩ := List.mem_filterMap.1 hw
    have hnames := names_reference_subset hr
    have hentity : r.targetEntity ∈ s.shape.names := hnames List.mem_cons_self
    have hattribute : r.targetAttribute ∈ s.shape.names :=
      hnames (List.mem_cons_of_mem _ List.mem_cons_self)
    unfold Schema.dangling? at hw
    split at hw
    · cases hw
      exact List.cons_subset.2 ⟨hentity, List.nil_subset _⟩
    · next target hlookup =>
      split at hw
      · cases hw
        have htarget : target.name ∈ s.shape.names :=
          names_entity_subset (List.mem_of_find?_eq_some hlookup) List.mem_cons_self
        simp [quoted, hentity, hattribute, htarget]
      · cases hw

end Warning

/-- **No part of a diagnostic of a text breaks a line of a report.** -/
theorem unbroken_of_mem_diagnostics {text : String} {d : Diagnostic}
    (hd : d ∈ (parse text).diagnostics) : d.Unbroken := by
  rcases List.mem_append.1 hd with hd | hd
  · obtain ⟨-, ⟨-, hd⟩ | ⟨-, hd⟩⟩ := mem_errors_parse hd
    · obtain ⟨p, -, herror⟩ := List.mem_filterMap.1 hd
      exact PlacedTile.unbroken_of_error? herror
    · rw [errors_parseTokens] at hd
      obtain ⟨m, hm, rfl⟩ := List.mem_map.1 hd
      refine Mismatch.unbroken_diagnostic (fun t ht => ?_) _
      exact spelled_of_mem_lex (rest_subset_of_mem_faults hm ht)
  · obtain ⟨w, hw, rfl⟩ := List.mem_map.1 hd
    refine Warning.unbroken_diagnostic fun i hi => newline_notMem_of_isIdentifier ?_
    have htoken : i.token ∈ (lex text).tokens :=
      token_mem_of_mem_names (Warning.quoted_subset_names hw hi)
    exact Token.isIdentifier_of_spelled (spelled_of_mem_lex htoken) rfl

/-! ## Reports in lines -/

/-- The lines of a report: what stands between its newlines, or nothing if the report is empty. -/
def reportLines (report : String) : List String :=
  if report = "" then [] else (report.toList.splitOn '\n').map String.ofList

namespace Diagnostic

/-- The lines of a report about `d`: its header, then a note for each label. -/
def lines (path : String) (d : Diagnostic) : List String :=
  header path d :: d.labels.map (note path)

end Diagnostic

section Join

variable {ls : List String}

theorem solid_intercalate (hne : ls ≠ []) (h : ∀ l ∈ ls, FillsLine l) :
    Text.Solid ("\n".intercalate ls).toList := by
  induction ls with
  | nil => exact absurd rfl hne
  | cons l ls ih =>
    obtain ⟨hl, hls⟩ := List.forall_mem_cons.1 h
    by_cases hnil : ls = []
    · rw [hnil, String.intercalate_singleton]
      exact hl.solid
    · obtain ⟨c, hlast, hc⟩ := ih hnil hls
      rw [String.intercalate_cons_of_ne_nil hnil]
      exact ⟨c, getLast?_toList_append hlast, hc⟩

theorem reportLines_intercalate (h : ∀ l ∈ ls, FillsLine l) :
    reportLines ("\n".intercalate ls) = ls := by
  by_cases hnil : ls = []
  · rw [hnil]
    rfl
  · obtain ⟨c, hlast, -⟩ := solid_intercalate hnil h
    have hne : "\n".intercalate ls ≠ "" := by
      intro hempty
      rw [hempty] at hlast
      cases hlast
    have hsplit : ("\n".intercalate ls).toList.splitOn '\n' = ls.map String.toList := by
      rw [String.toList_intercalate]
      refine List.splitOn_intercalate '\n' ?_ (List.map_eq_nil_iff.not.2 hnil)
      exact List.forall_mem_map.2 fun l hl => (h l hl).newline_notMem
    rw [reportLines, if_neg hne, hsplit, List.map_map]
    simp [Function.comp_def]

theorem intercalate_flatMap {α : Type} {f : α → List String} {xs : List α} (s : String)
    (hf : ∀ x ∈ xs, f x ≠ []) :
    s.intercalate (xs.map fun x => s.intercalate (f x)) = s.intercalate (xs.flatMap f) := by
  induction xs with
  | nil => rfl
  | cons x xs ih =>
    obtain ⟨hx, hxs⟩ := List.forall_mem_cons.1 hf
    rw [List.map_cons, List.flatMap_cons]
    by_cases hnil : xs = []
    · simp [hnil]
    · have hmore : xs.flatMap f ≠ [] := by
        intro h
        obtain ⟨y, ys, rfl⟩ := List.exists_cons_of_ne_nil hnil
        exact hxs y List.mem_cons_self (List.flatMap_eq_nil_iff.1 h y List.mem_cons_self)
      rw [String.intercalate_cons_of_ne_nil (List.map_eq_nil_iff.not.2 hnil), ih hxs,
        String.intercalate_append_of_ne_nil hx hmore]

end Join

namespace Diagnostic

section Lines

variable {path : String} {d : Diagnostic}

theorem fillsLine_location (hpath : '\n' ∉ path.toList) (s : Span) :
    FillsLine (location path s) := by
  have hline := Text.newline_notMem_toDigits (by decide : 1 < 10) s.first.position.line
  refine (fillsLine_toString _).prepend ?_
  simp [hpath, hline]

theorem fillsLine_lines (hpath : '\n' ∉ path.toList) (hd : d.Unbroken) :
    ∀ l ∈ d.lines path, FillsLine l := by
  refine List.forall_mem_cons.2 ⟨hd.message.prepend ?_, List.forall_mem_map.2 fun l hl => ?_⟩
  · have hseverity : '\n' ∉ d.severity.name.toList := by cases d.severity <;> simp [Severity.name]
    have hlocation := (fillsLine_location hpath d.span).newline_notMem
    simp [hseverity, hd.code, hlocation]
  · refine (fillsLine_location hpath l.span).prepend ?_
    simp [hd.labels l hl]

/-- Nothing is cut off at the end of a report about an unbroken diagnostic. -/
theorem render_eq (hpath : '\n' ∉ path.toList) (hd : d.Unbroken) :
    render path d = "\n".intercalate (d.lines path) := by
  have hsolid := solid_intercalate (List.cons_ne_nil _ _) (fillsLine_lines hpath hd)
  rw [render, Text.trimEnd_eq_self hsolid, String.ofList_toList]
  rfl

theorem renderAll_eq {ds : List Diagnostic} (hpath : '\n' ∉ path.toList)
    (hds : ∀ d ∈ ds, d.Unbroken) :
    renderAll path ds = "\n".intercalate (ds.flatMap (lines path)) := by
  rw [renderAll, List.map_congr_left fun d hd => render_eq hpath (hds d hd)]
  exact intercalate_flatMap _ fun d _ => List.cons_ne_nil _ _

end Lines

end Diagnostic

/-- **A text cannot forge the report about it**, which has the lines of headers and notes only. -/
theorem report_lines (path text : String) (hpath : '\n' ∉ path.toList) :
    reportLines (Diagnostic.renderAll path (parse text).diagnostics) =
      (parse text).diagnostics.flatMap (Diagnostic.lines path) := by
  have hunbroken : ∀ d ∈ (parse text).diagnostics, d.Unbroken :=
    fun d hd => unbroken_of_mem_diagnostics hd
  rw [Diagnostic.renderAll_eq hpath hunbroken]
  refine reportLines_intercalate fun l hl => ?_
  obtain ⟨d, hd, hl⟩ := List.mem_flatMap.1 hl
  exact Diagnostic.fillsLine_lines hpath (hunbroken d hd) l hl

/-- Separators of lines that the text has in an entity's place are spelled out. -/
theorem report_lines_separators :
    let text := "a\na\n\r\u2028"
    '\n' ∉ "shop".toList ∧
      reportLines (Diagnostic.renderAll "shop" (parse text).diagnostics) =
        ["error[E1000] shop:3:1 unexpected character(s) '\\r\\u\x7b2028\x7d'",
          "warning[W2001] shop:2:1 'a' already defined at line 1",
          "  note: first defined here at shop:1:1"] := by
  intro text
  have hpath : '\n' ∉ "shop".toList := by decide
  refine ⟨hpath, (report_lines "shop" text hpath).trans ?_⟩
  decide +kernel

end EntitySchema
