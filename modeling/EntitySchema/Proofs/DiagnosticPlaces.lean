import EntitySchema.Proofs.Faithfulness
import EntitySchema.Proofs.Misfits
import EntitySchema.Proofs.Positions
import EntitySchema.Proofs.Repetition

/-!
# The places of diagnostics

Every diagnostic points at something that is written in the text, and so does every label.

* `terminated_of_cutLines`: all lines but the last end with a newline.
* `Diagnostic.SaysEnd` — messages that say that the text ends too early.
* **`exists_misfit`**: an error of grammar is at the first token of a line that does not fit, or at
  the last token of the text; `pairwise_errors_parseTokens`: such errors are in order.
* `Schema.NameAt` — the places of names; **`nameAt_of_mem_warnings`**: warnings and their labels are
  at such places.
* `Span.Inside` — a span in a text, from the start of a character to the end of one.
* **`diagnostics_placed`**: the places of all diagnostics of a text.
-/

namespace EntitySchema

section Lines

variable {ts line : List Token}

theorem flatten_cutLines (ts : List Token) : (cutLines ts).flatten = ts := by
  fun_induction cutLines ts with
  | case1 => rfl
  | case2 t ts h ih => rw [List.flatten_cons, ih, List.singleton_append]
  | case3 t ts h hnil ih =>
    rw [hnil] at ih
    rw [← ih]
    rfl
  | case4 t ts h line more hlines ih =>
    rw [hlines, List.flatten_cons] at ih
    rw [List.flatten_cons, List.cons_append, ih]

/-- The first line ends with a newline, or there is no other line. -/
theorem terminated_firstLine (ts : List Token) :
    Terminated (firstLine ts) ∨ Parser.skipLine ts = [] := by
  induction ts with
  | nil => exact .inr rfl
  | cons t ts ih =>
    by_cases ht : t.kind = .newline
    · left
      simp [firstLine, Terminated, ht]
    · rw [firstLine_cons_of_ne ht, Parser.skipLine_cons_of_ne ht]
      cases ts with
      | nil => exact .inr rfl
      | cons u us =>
        obtain ⟨vs, hvs⟩ := List.head?_eq_some_iff.1 (head?_firstLine (u :: us))
        refine ih.imp_left fun h v hv => h v ?_
        rw [hvs] at hv ⊢
        rwa [List.getLast?_cons_cons] at hv

theorem terminated_of_cutLines {before after : List (List Token)}
    (h : cutLines ts = before ++ line :: after) : Terminated line ∨ after = [] := by
  induction hn : ts.length using Nat.strong_induction_on generalizing ts before with
  | _ n ih =>
    cases ts with
    | nil =>
      rw [cutLines_nil, List.nil_eq_append_iff] at h
      cases h.2
    | cons t ts =>
      rw [cutLines_cons] at h
      cases before with
      | nil =>
        obtain ⟨rfl, rfl⟩ := List.cons.inj h
        refine (terminated_firstLine (t :: ts)).imp_right fun hskip => ?_
        rw [hskip, cutLines_nil]
      | cons line' before =>
        refine ih _ ?_ (List.cons.inj h).2 rfl
        have hsuffix : Parser.skipLine (t :: ts) <:+ ts := by
          rw [Parser.skipLine]
          split
          · exact List.suffix_rfl
          · exact Parser.skipLine_suffix ts
        exact hn ▸ Nat.lt_succ_of_le hsuffix.length_le

end Lines

/-! ## Errors of grammar -/

/-- Whether the message of a diagnostic says that the text ends too early. -/
def Diagnostic.SaysEnd (d : Diagnostic) : Prop :=
  ∃ what : String, d.message = what ++ ", found end of input"

theorem getLast?_toList_append {a b : String} {c : Char} (h : b.toList.getLast? = some c) :
    (a ++ b).toList.getLast? = some c := by
  rw [String.toList_append, List.getLast?_append, h, Option.some_or]

/-- No token is named like the end of a text. -/
theorem Token.getLast?_describe (t : Token) :
    ∃ c, c ≠ 't' ∧ t.describe.toList.getLast? = some c := by
  rw [describe]
  split
  · exact ⟨'\'', by decide, getLast?_toList_append rfl⟩
  · cases t.kind <;> simp [TokenKind.describe]

theorem saysEnd_diagnostic (m : Mismatch) (s : Span) : (m.diagnostic s).SaysEnd ↔ m.rest = [] := by
  obtain ⟨e, _ | ⟨t, rest⟩⟩ := m
  · refine iff_of_true ⟨"expected " ++ e.describe, ?_⟩ rfl
    simp [Mismatch.diagnostic, Diagnostic.error, Mismatch.found, String.append_assoc]
  · refine iff_of_false ?_ (List.cons_ne_nil t rest)
    rintro ⟨what, hwhat⟩
    obtain ⟨c, hc, hlast⟩ := t.getLast?_describe
    have hfound : ((Mismatch.mk e (t :: rest)).diagnostic s).message.toList.getLast? = some c :=
      getLast?_toList_append hlast
    have hend : (what ++ ", found end of input").toList.getLast? = some 't' :=
      getLast?_toList_append rfl
    rw [hwhat, hend] at hfound
    exact hc (Option.some.inj hfound).symm

section Misfit

variable {ts line : List Token} {before after : List (List Token)} {inEntity : Bool} {m : Mismatch}

/-- A mismatch is reported at a token of its line: at the first of those it was not met in front of,
or at the last token of the text, which is not a newline. -/
theorem exists_place (hlines : cutLines ts = before ++ line :: after)
    (hm : Pass.fault? inEntity line = some m) :
    ∃ t ∈ line, (m.diagnostic ((ts.getLast?.map Token.span).getD ⟨.origin, .origin⟩)).span = t.span ∧
      (t ∈ m.rest.head? ∨ m.rest = [] ∧ t ∈ ts.getLast? ∧ t.kind ≠ .newline) := by
  cases hrest : m.rest with
  | cons t rest =>
    refine ⟨t, ?_, ?_, .inl rfl⟩
    · exact (Pass.stuck_of_fault? hm).suffix.subset (hrest ▸ List.mem_cons_self)
    · simp [Mismatch.diagnostic, Diagnostic.error, hrest]
  | nil =>
    have hopen : ¬ Terminated line := fun h => Pass.rest_ne_nil_of_fault? h hm hrest
    obtain rfl := (terminated_of_cutLines hlines).resolve_left hopen
    simp only [Terminated, not_forall] at hopen
    obtain ⟨t, ht, hkind⟩ := hopen
    have hlast : ts.getLast? = some t := by
      have hts := flatten_cutLines ts
      rw [hlines, List.flatten_append, List.flatten_singleton] at hts
      rw [← hts, List.getLast?_append, Option.mem_def.1 ht, Option.some_or]
    refine ⟨t, List.mem_of_mem_getLast? ht, ?_, .inr ⟨rfl, hlast, hkind⟩⟩
    simp [Mismatch.diagnostic, Diagnostic.error, hrest, hlast]

/-- **An error of grammar is at the first token of its line that does not fit**, or at the last token
of the text, if this is no newline and its message says that the text ends too early. -/
theorem exists_misfit {d : Diagnostic} (hd : d ∈ (parseTokens ts).errors) :
    ∃ before line after rest t, cutLines ts = before ++ line :: after ∧
      Grammar.Stuck (Grammar.line (Pass.entityOpen before)) line rest ∧
      t ∈ line ∧ d.span = t.span ∧
      (¬ d.SaysEnd ∧ t ∈ rest.head? ∨
        d.SaysEnd ∧ rest = [] ∧ t ∈ ts.getLast? ∧ t.kind ≠ .newline) := by
  rw [errors_parseTokens] at hd
  obtain ⟨m, hm, rfl⟩ := List.mem_map.1 hd
  obtain ⟨before, line, after, hlines, hfault⟩ := Pass.mem_faults hm
  obtain ⟨t, ht, hspan, hplace⟩ := exists_place hlines hfault
  refine ⟨before, line, after, m.rest, t, hlines, Pass.stuck_of_fault? hfault, ht, hspan, ?_⟩
  rw [saysEnd_diagnostic]
  refine hplace.imp (fun hhead => ⟨?_, hhead⟩) fun hend => ⟨hend.1, hend⟩
  intro hnil
  rw [hnil] at hhead
  cases hhead

theorem pairwise_faults {atEnd : Span} {lines : List (List Token)}
    (hlines : lines.Pairwise fun l l' => ∀ t ∈ l, ∀ u ∈ l', t.span.Before u.span)
    (hplaces : ∀ line ∈ lines, ∀ b m, Pass.fault? b line = some m →
      ∃ t ∈ line, (m.diagnostic atEnd).span = t.span) :
    ((Pass.faults inEntity lines).map (Mismatch.diagnostic atEnd)).Pairwise
      fun d d' => d.span.Before d'.span := by
  induction lines generalizing inEntity with
  | nil => exact .nil
  | cons line lines ih =>
    obtain ⟨hline, hlines⟩ := List.pairwise_cons.1 hlines
    obtain ⟨hplace, hplaces⟩ := List.forall_mem_cons.1 hplaces
    rw [Pass.faults, List.map_append]
    refine List.pairwise_append.2 ⟨?_, ih hlines hplaces, ?_⟩
    · cases Pass.fault? inEntity line <;> simp
    · intro d hd d' hd'
      obtain ⟨m, hm, rfl⟩ := List.mem_map.1 hd
      obtain ⟨m', hm', rfl⟩ := List.mem_map.1 hd'
      obtain ⟨t, ht, hspan⟩ := hplace _ m (Option.mem_toList.1 hm)
      obtain ⟨before, line', after, rfl, hfault⟩ := Pass.mem_faults hm'
      have hmem : line' ∈ before ++ line' :: after := List.mem_append_right _ List.mem_cons_self
      obtain ⟨u, hu, hspan'⟩ := hplaces line' hmem _ m' hfault
      rw [hspan, hspan']
      exact hline line' hmem t ht u hu

theorem pairwise_errors_parseTokens (hts : InOrder ts) :
    (parseTokens ts).errors.Pairwise fun d d' => d.span.Before d'.span := by
  rw [errors_parseTokens]
  refine pairwise_faults ?_ ?_
  · have hbefore := hts.before
    rw [← flatten_cutLines ts, List.pairwise_flatten] at hbefore
    exact hbefore.2
  · intro line hline b m hfault
    obtain ⟨before, after, hlines⟩ := List.append_of_mem hline
    obtain ⟨t, ht, hspan, -⟩ := exists_place hlines hfault
    exact ⟨t, ht, hspan⟩

end Misfit

/-! ## Warnings -/

theorem mem_repeatsAfter {seen is : List Identifier} {r : Repeat} (h : r ∈ repeatsAfter seen is) :
    (r.first ∈ seen ∨ r.first ∈ is) ∧ r.again ∈ is := by
  fun_induction repeatsAfter seen is with
  | case1 => cases h
  | case2 seen i is first hfirst ih =>
    rcases List.mem_cons.1 h with rfl | h
    · exact ⟨.inl (List.mem_of_find?_eq_some hfirst), List.mem_cons_self⟩
    · obtain ⟨hfirst, hagain⟩ := ih h
      exact ⟨hfirst.imp_right (List.mem_cons_of_mem i), List.mem_cons_of_mem i hagain⟩
  | case3 seen i is hnone ih =>
    obtain ⟨hfirst, hagain⟩ := ih h
    refine ⟨?_, List.mem_cons_of_mem i hagain⟩
    rcases hfirst with hfirst | hfirst
    · rcases List.mem_cons.1 hfirst with heq | hfirst
      · exact .inr (heq ▸ List.mem_cons_self)
      · exact .inl hfirst
    · exact .inr (List.mem_cons_of_mem i hfirst)

theorem mem_repeats {is : List Identifier} {r : Repeat} (h : r ∈ repeats is) :
    r.first ∈ is ∧ r.again ∈ is := by
  obtain ⟨hfirst, hagain⟩ := mem_repeatsAfter h
  exact ⟨hfirst.resolve_left List.not_mem_nil, hagain⟩

section Names

variable {s : Schema} {e : Entity} {a : Attribute} {r : Reference}

theorem names_entity_subset (he : e ∈ s.entities) :
    e.name :: e.attributes.flatMap (·.shape.names) ⊆ s.shape.names := by
  obtain ⟨statement, hmem, hentity⟩ := List.mem_filterMap.1 he
  cases statement with
  | empty => cases hentity
  | entity e' =>
    cases hentity
    intro i hi
    refine List.mem_flatMap.2 ⟨_, List.mem_map_of_mem hmem, ?_⟩
    simpa [Statement.shape, StatementShape.names, List.flatMap_map] using hi

theorem names_attribute_subset (he : e ∈ s.entities) (ha : a ∈ e.attributes) :
    a.shape.names ⊆ s.shape.names := fun _ hi =>
  names_entity_subset he (List.mem_cons_of_mem _ (List.mem_flatMap.2 ⟨a, ha, hi⟩))

theorem names_reference_subset (hr : r ∈ s.references) : r.shape.names ⊆ s.shape.names := by
  obtain ⟨e, he, hr⟩ := List.mem_flatMap.1 hr
  obtain ⟨a, ha, hr⟩ := List.mem_filterMap.1 hr
  refine fun i hi => names_attribute_subset he ha ?_
  simp [Attribute.shape, AttributeShape.names, hr, hi]

end Names

/-- The span is that of a name of the schema. -/
def Schema.NameAt (s : Schema) (span : Span) : Prop := ∃ i ∈ s.shape.names, i.span = span

/-- **Warnings and their labels point at names.** -/
theorem nameAt_of_mem_warnings {s : Schema} {w : Warning} (hw : w ∈ s.warnings) :
    s.NameAt w.span ∧ ∀ l ∈ w.labels, s.NameAt l.span := by
  have hrepeat : ∀ {is : List Identifier} {r}, (∀ i ∈ is, i ∈ s.shape.names) → r ∈ repeats is →
      s.NameAt r.again.span ∧ s.NameAt r.first.span := by
    intro is r his hr
    obtain ⟨hfirst, hagain⟩ := mem_repeats hr
    exact ⟨⟨_, his _ hagain, rfl⟩, ⟨_, his _ hfirst, rfl⟩⟩
  rcases List.mem_append.1 hw with hw | hw
  · rcases List.mem_append.1 hw with hw | hw
    · obtain ⟨r, hr, rfl⟩ := List.mem_map.1 hw
      have hnames : ∀ i ∈ s.entities.map (·.name), i ∈ s.shape.names :=
        List.forall_mem_map.2 fun e he => names_entity_subset he List.mem_cons_self
      obtain ⟨hagain, hfirst⟩ := hrepeat hnames hr
      exact ⟨hagain, by simpa [Warning.labels] using hfirst⟩
    · obtain ⟨e, he, hw⟩ := List.mem_flatMap.1 hw
      obtain ⟨r, hr, rfl⟩ := List.mem_map.1 hw
      have hnames : ∀ i ∈ e.attributes.map (·.name), i ∈ s.shape.names :=
        List.forall_mem_map.2 fun a ha => names_attribute_subset he ha List.mem_cons_self
      obtain ⟨hagain, hfirst⟩ := hrepeat hnames hr
      exact ⟨hagain, by simpa [Warning.labels] using hfirst⟩
  · obtain ⟨r, hr, hw⟩ := List.mem_filterMap.1 hw
    have hnames := names_reference_subset hr
    have htarget : s.NameAt r.targetEntity.span := ⟨_, hnames List.mem_cons_self, rfl⟩
    have hattribute : s.NameAt r.targetAttribute.span :=
      ⟨_, hnames (List.mem_cons_of_mem _ List.mem_cons_self), rfl⟩
    unfold Schema.dangling? at hw
    split at hw
    · cases hw
      exact ⟨htarget, by simp [Warning.labels]⟩
    · next target hlookup =>
      split at hw
      · cases hw
        have hmem : target ∈ s.entities := List.mem_of_find?_eq_some hlookup
        have hname : s.NameAt target.name.span :=
          ⟨_, names_entity_subset hmem List.mem_cons_self, rfl⟩
        exact ⟨hattribute, by simpa [Warning.labels] using hname⟩
      · cases hw

/-- A span of the text `cs`, from the first byte of a character to the last byte of one. -/
structure Span.Inside (cs : List Char) (s : Span) : Prop where
  forward : s.first.offset ≤ s.last.offset
  last_lt : s.last.offset < Text.byteSize cs
  starts : Text.IsBoundary cs s.first.offset
  stops : Text.IsBoundary cs (s.last.offset + 1)

theorem inside_of_mem_spans {text : String} {s : Span} (hs : s ∈ (lex text).spans) :
    s.Inside text.toList := by
  obtain ⟨p, hp, rfl⟩ := mem_spans_lex hs
  obtain ⟨before, rest, hchars, hstart, hstop, -⟩ := exists_around (isTiling_tiles _) hp
  rw [flatMap_chars_tiles] at hchars
  have hstart : Text.byteSize before = p.span.first.offset := hstart
  have hstop : Text.byteSize (before ++ p.tile.chars) = p.span.last.offset + 1 := hstop
  have hsize := congrArg Text.byteSize hchars
  rw [← List.append_assoc, Text.byteSize_append, hstop] at hsize
  constructor
  · exact (forward_of_mem_place hp).offset
  · omega
  · exact Text.isBoundary_iff.2 ⟨before, _, hchars, hstart⟩
  · exact Text.isBoundary_iff.2 ⟨before ++ p.tile.chars, rest, by rw [hchars, List.append_assoc],
      hstop⟩

theorem inside_token {text : String} {t : Token} (ht : t ∈ (lex text).tokens) :
    t.span.Inside text.toList :=
  inside_of_mem_spans (List.mem_append_left _ (List.mem_map_of_mem ht))

theorem mem_errors_parse {text : String} {d : Diagnostic} (hd : d ∈ (parse text).errors) :
    d.labels = [] ∧ (d.code = "E1000" ∧ d ∈ (lex text).errors ∨
      d.code = "E1500" ∧ d ∈ (parseTokens (lex text).tokens).errors) := by
  rcases List.mem_append.1 hd with hd | hd
  · obtain ⟨p, -, herror⟩ := List.mem_filterMap.1 hd
    refine ⟨?_, .inl ⟨(PlacedTile.error?_eq_some herror).2, hd⟩⟩
    rw [PlacedTile.error?] at herror
    split at herror
    · cases herror
      rfl
    · cases herror
  · obtain ⟨m, -, rfl⟩ := List.mem_map.1 hd
    exact ⟨rfl, .inr ⟨rfl, hd⟩⟩

theorem filter_errors_parse (text : String) :
    (parse text).errors.filter (·.code = "E1500") = (parseTokens (lex text).tokens).errors := by
  have hstray : (lex text).errors.filter (·.code = "E1500") = [] := by
    refine List.filter_eq_nil_iff.2 fun d hd => ?_
    obtain ⟨p, -, herror⟩ := List.mem_filterMap.1 hd
    simp [(PlacedTile.error?_eq_some herror).2]
  have hgrammar : (parseTokens (lex text).tokens).errors.filter (·.code = "E1500") =
      (parseTokens (lex text).tokens).errors := by
    refine List.filter_eq_self.2 fun d hd => ?_
    obtain ⟨m, -, rfl⟩ := List.mem_map.1 hd
    rfl
  show ((lex text).errors ++ (parseTokens (lex text).tokens).errors).filter _ = _
  rw [List.filter_append, hstray, hgrammar, List.nil_append]

section Diagnostics

variable {text : String} {d : Diagnostic}

theorem inside_of_nameAt {s : Span} (h : (parse text).schema.NameAt s) : s.Inside text.toList := by
  obtain ⟨i, hi, rfl⟩ := h
  exact inside_token (token_mem_of_mem_names hi)

theorem nameAt_of_mem_labels (hd : d ∈ (parse text).diagnostics) :
    ∀ l ∈ d.labels, (parse text).schema.NameAt l.span := by
  rcases List.mem_append.1 hd with hd | hd
  · rw [(mem_errors_parse hd).1]
    exact fun _ h => absurd h List.not_mem_nil
  · obtain ⟨w, hw, rfl⟩ := List.mem_map.1 hd
    exact (nameAt_of_mem_warnings hw).2

theorem nameAt_of_code (hd : d ∈ (parse text).diagnostics)
    (hcode : d.code ∈ ["W2001", "W2002", "W2003", "W2004"]) :
    (parse text).schema.NameAt d.span := by
  rcases List.mem_append.1 hd with hd | hd
  · obtain ⟨-, ⟨herror, -⟩ | ⟨herror, -⟩⟩ := mem_errors_parse hd <;>
      exact absurd (herror ▸ hcode) (by decide)
  · obtain ⟨w, hw, rfl⟩ := List.mem_map.1 hd
    exact (nameAt_of_mem_warnings hw).1

theorem inside_of_mem_diagnostics (hd : d ∈ (parse text).diagnostics) :
    d.span.Inside text.toList := by
  rcases List.mem_append.1 hd with hd | hd
  · obtain ⟨-, ⟨-, hd⟩ | ⟨-, hd⟩⟩ := mem_errors_parse hd
    · exact inside_of_mem_spans (List.mem_append_right _ (List.mem_map_of_mem hd))
    · obtain ⟨before, line, after, rest, t, hlines, -, ht, hspan, -⟩ := exists_misfit hd
      rw [hspan]
      refine inside_token ?_
      rw [← flatten_cutLines (lex text).tokens, hlines]
      exact List.mem_flatten.2 ⟨line, List.mem_append_right _ List.mem_cons_self, ht⟩
  · obtain ⟨w, hw, rfl⟩ := List.mem_map.1 hd
    exact inside_of_nameAt (nameAt_of_mem_warnings hw).1

end Diagnostics

/-- **Every diagnostic points at the text**: errors at what does not fit, warnings at names. -/
theorem diagnostics_placed (text : String) :
    (∀ d ∈ (parse text).errors, d.code = "E1500" →
        ∃ before line after rest t, cutLines (lex text).tokens = before ++ line :: after ∧
          Grammar.Stuck (Grammar.line (Pass.entityOpen before)) line rest ∧
          t ∈ line ∧ d.span = t.span ∧
          (¬ d.SaysEnd ∧ t ∈ rest.head? ∨
            d.SaysEnd ∧ rest = [] ∧ t ∈ (lex text).tokens.getLast? ∧ t.kind ≠ .newline)) ∧
      ((parse text).errors.filter (·.code = "E1500")).Pairwise
        (fun d d' => d.span.Before d'.span) ∧
      (∀ d ∈ (parse text).diagnostics, d.code ∈ ["W2001", "W2002", "W2003", "W2004"] →
        ∃ i ∈ (parse text).schema.shape.names, i.span = d.span) ∧
      (∀ d ∈ (parse text).diagnostics, ∀ l ∈ d.labels,
        ∃ i ∈ (parse text).schema.shape.names, i.span = l.span) ∧
      ∀ d ∈ (parse text).diagnostics, ∀ s ∈ d.span :: d.labels.map (·.span),
        s.Inside text.toList := by
  refine ⟨?_, ?_, fun d hd => nameAt_of_code hd, fun d hd => nameAt_of_mem_labels hd, ?_⟩
  · intro d hd hcode
    obtain ⟨-, ⟨hstray, -⟩ | ⟨-, hd⟩⟩ := mem_errors_parse hd
    · rw [hstray] at hcode
      exact absurd hcode (by decide)
    · exact exists_misfit hd
  · rw [filter_errors_parse]
    exact pairwise_errors_parseTokens (inOrder_lex text)
  · intro d hd
    rw [List.forall_mem_cons, List.forall_mem_map]
    refine ⟨inside_of_mem_diagnostics hd, ?_⟩
    exact fun l hl => inside_of_nameAt (nameAt_of_mem_labels hd l hl)

end EntitySchema
