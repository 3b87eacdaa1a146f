import EntitySchema.Proofs.Shift

/-!
# Documents put together

A document that ends with a newline does not matter for what follows it, except that it comes first.

* `tiles_append`: no tile reaches across the end of a line.
* `lex_append`: the tokens and stray runs of two texts.
* `Terminated` — tokens that end with a newline; `Parser.rest_ne_nil_statements`: no line of
  such tokens ends too early.
* `parseTokens_append`: the statements and errors of two lists of tokens.
* **`parse_append`**: two documents, read together and one by one.
-/

namespace EntitySchema

/-! ## Two texts are cut one by one -/

section Text

variable {cs : List Char}

/-- The text `cs` is empty or ends with a newline. -/
def Text.EndsLine (cs : List Char) : Prop := cs = [] ∨ cs.getLast? = some '\n'

theorem exists_tiles_newline (h : cs.getLast? = some '\n') :
    ∃ ts, tiles cs = ts ++ [.newline] := by
  have htiling := isTiling_tiles cs
  have hchars := flatMap_chars_tiles cs
  rcases List.eq_nil_or_concat (tiles cs) with hnil | ⟨ts, t, hts⟩
  · rw [hnil] at hchars
    subst hchars
    cases h
  · rw [List.concat_eq_append] at hts
    rw [hts] at htiling hchars
    have hmem : '\n' ∈ t.chars := by
      rw [← hchars, List.flatMap_append, List.flatMap_singleton, List.getLast?_append_of_ne_nil _
        t.chars_ne_nil] at h
      exact List.mem_of_getLast? h
    have hwell := htiling.wellFormed t (List.mem_append_right ts List.mem_cons_self)
    have ht : t = .newline := by
      by_contra hne
      exact t.newline_notMem_chars hwell hne hmem
    exact ⟨ts, by rw [hts, ht]⟩

/-- **No tile reaches across the end of a line.** -/
theorem tiles_append (h : Text.EndsLine cs) (ds : List Char) :
    tiles (cs ++ ds) = tiles cs ++ tiles ds := by
  refine tiles_eq_iff.2 ⟨⟨?_, ?_⟩, ?_⟩
  · exact List.forall_mem_append.2 ⟨(isTiling_tiles cs).wellFormed, (isTiling_tiles ds).wellFormed⟩
  · refine List.isChain_append.2 ⟨(isTiling_tiles cs).separate, (isTiling_tiles ds).separate, ?_⟩
    intro t ht u _
    rcases h with rfl | h
    · rw [tiles] at ht
      cases ht
    · obtain ⟨ts, hts⟩ := exists_tiles_newline h
      rw [hts, List.getLast?_concat] at ht
      cases ht
      rfl
  · rw [List.flatMap_append, flatMap_chars_tiles, flatMap_chars_tiles]

theorem place_append (m : Mark) (ts us : List Tile) :
    place m (ts ++ us) = place m ts ++ place (m.after (ts.flatMap Tile.chars)) us := by
  induction ts generalizing m with
  | nil => rfl
  | cons t ts ih =>
    rw [List.cons_append, place, ih, place, List.flatMap_cons, Mark.after_append]
    rfl

/-- Behind the end of a line, a text goes on at the first column. -/
theorem after_eq_shift (h : Text.EndsLine cs) :
    Mark.origin.after cs = Mark.origin.shift (.past cs) := by
  rcases h with rfl | h
  · rfl
  · obtain ⟨ds, rfl⟩ := List.getLast?_eq_some_iff.1 h
    have hline := line_after .origin ds
    rw [Mark.after_append, Mark.after_cons, Mark.after_nil]
    simp [Mark.step, Mark.shift, Shift.past, Mark.origin] at hline ⊢
    omega

/-- **Two texts are cut one by one.** -/
theorem lex_append {a : String} (h : Text.EndsLine a.toList) (b : String) :
    (lex (a ++ b)).tokens =
        (lex a).tokens ++ (lex b).tokens.map (Token.shift (.past a.toList)) ∧
      (lex (a ++ b)).errors =
        (lex a).errors ++ (lex b).errors.map (Diagnostic.shift (.past a.toList)) := by
  have hplace : place .origin (tiles (a ++ b).toList) = place .origin (tiles a.toList) ++
      (place .origin (tiles b.toList)).map (PlacedTile.shift (.past a.toList)) := by
    rw [String.toList_append, tiles_append h, place_append, flatMap_chars_tiles, after_eq_shift h,
      place_shift]
  unfold lex
  simp only [hplace, List.filterMap_append, List.filterMap_map, List.map_filterMap]
  exact ⟨congrArg _ (List.filterMap_congr fun p _ => p.token?_shift _),
    congrArg _ (List.filterMap_congr fun p _ => p.error?_shift _)⟩

end Text

/-! ## Tokens that end with a newline -/

/-- The tokens are none, or the last of them is a newline. -/
def Terminated (ts : List Token) : Prop := ∀ t ∈ ts.getLast?, t.kind = .newline

theorem terminated_lex {text : String} (h : Text.EndsLine text.toList) :
    Terminated (lex text).tokens := by
  intro t ht
  rcases h with h | h
  · simp [lex, h, tiles, place] at ht
  · obtain ⟨ts, hts⟩ := exists_tiles_newline h
    rw [lex, hts, place_append, List.filterMap_append] at ht
    rw [show List.filterMap PlacedTile.token? (place _ [Tile.newline]) = [_] from rfl,
      List.getLast?_concat] at ht
    cases ht
    rfl

theorem Terminated.suffix {ts us : List Token} (h : Terminated ts) (hsuffix : us <:+ ts) :
    Terminated us := by
  obtain ⟨as, rfl⟩ := hsuffix
  intro t ht
  refine h t ?_
  rw [Option.mem_def] at ht ⊢
  rw [List.getLast?_append, ht, Option.some_or]

namespace Parser

variable {ts : List Token}

/-- The newline that ends a line is still ahead. -/
def Ahead (ts : List Token) : Prop := ts ≠ [] ∧ Terminated ts

theorem Ahead.of_cons (t : Token) (us : List Token) (ht : t.kind ≠ .newline)
    (h : Ahead (t :: us)) : Ahead us := by
  refine ⟨?_, h.2.suffix (List.suffix_cons t us)⟩
  rintro rfl
  exact ht (h.2 t rfl)

theorem rest_ne_nil_recover {α : Type} {r : Except Mismatch (α × List Token)}
    {m : Option Mismatch} {rest : List Token} (h : Keeps Ahead r)
    (hr : recover r = ⟨none, m, rest⟩) : ∀ m' ∈ m, m'.rest ≠ [] := by
  obtain ⟨e, rfl, rfl, -⟩ := recover_eq_none.1 hr
  rintro m' hm
  cases hm
  exact h.1

theorem rest_ne_nil_endLine {α : Type} (v : α) (e : Expectation) (h : Ahead ts) :
    ∀ m ∈ (endLine v e ts).mismatch, m.rest ≠ [] := by
  intro m hm
  cases ts with
  | nil => exact absurd rfl h.1
  | cons t ts =>
    by_cases ht : t.kind = .newline
    · simp [endLine, recover, expect, ht] at hm
    · simp only [endLine, recover, expect, if_neg ht, Option.mem_def, Option.some.injEq] at hm
      subst hm
      exact List.cons_ne_nil t ts

theorem rest_ne_nil_attributeTail (a : Attribute) (h : Ahead ts) :
    ∀ m ∈ (attributeTail a ts).mismatch, m.rest ≠ [] := by
  fun_cases attributeTail a ts with
  | case1 => exact absurd rfl h.1
  | case2 t ts hdash r _ rest heq =>
    have hkeeps := keeps_reference Ahead.of_cons t (h.of_cons t ts (by rw [hdash]; decide))
    rw [(recover_eq_some.1 heq).1] at hkeeps
    exact rest_ne_nil_endLine _ _ hkeeps
  | case3 t ts hdash m rest heq =>
    have hkeeps := keeps_reference Ahead.of_cons t (h.of_cons t ts (by rw [hdash]; decide))
    exact rest_ne_nil_recover hkeeps heq
  | case4 t ts hdash => exact rest_ne_nil_endLine _ _ h

theorem rest_ne_nil_attributeLine (h : Ahead ts) :
    ∀ m ∈ (attributeLine ts).mismatch, m.rest ≠ [] := by
  have hkeeps := keeps_attributeHead Ahead.of_cons h
  fun_cases attributeLine ts with
  | case1 m rest heq => exact rest_ne_nil_recover hkeeps heq
  | case2 name type _ rest heq key line =>
    rw [(recover_eq_some.1 heq).1] at hkeeps
    have hkey : Ahead key.2 :=
      keeps_primaryKey Ahead.of_cons (keeps_skip Ahead.of_cons (by decide) hkeeps)
    exact rest_ne_nil_attributeTail _ hkey

theorem rest_ne_nil_attributes (h : Terminated ts) :
    ∀ m ∈ (attributes ts).mismatches, m.rest ≠ [] := by
  fun_induction attributes ts with
  | case1 => simp
  | case2 t ts hspace line more ih =>
    have hahead : Ahead ts :=
      Ahead.of_cons t ts (by rw [hspace]; decide) ⟨List.cons_ne_nil t ts, h⟩
    rw [List.forall_mem_append]
    refine ⟨?_, ih (hahead.2.suffix (rest_attributeLine_suffix ts))⟩
    exact fun m hm => rest_ne_nil_attributeLine hahead m (Option.mem_toList.1 hm)
  | case3 t ts => simp

theorem rest_ne_nil_entityBody (h : Ahead ts) :
    ∀ m ∈ (entityBody ts).mismatches, m.rest ≠ [] := by
  rw [entityBody, List.forall_mem_append]
  refine ⟨?_, rest_ne_nil_attributes (h.2.suffix (rest_endLine_suffix _ _ ts))⟩
  exact fun m hm => rest_ne_nil_endLine () _ h m (Option.mem_toList.1 hm)

/-- **No line of tokens that end with a newline is found to end too early.** -/
theorem rest_ne_nil_statements (h : Terminated ts) :
    ∀ m ∈ (statements ts).2, m.rest ≠ [] := by
  fun_induction statements ts with
  | case1 => simp
  | case2 t ts hkind more ih => exact ih (h.suffix (List.suffix_cons t ts))
  | case3 t ts hkind body more ih =>
    have hahead : Ahead ts :=
      Ahead.of_cons t ts (by rw [hkind]; decide) ⟨List.cons_ne_nil t ts, h⟩
    rw [List.forall_mem_append]
    exact ⟨rest_ne_nil_entityBody hahead, ih (hahead.2.suffix (rest_entityBody_suffix ts))⟩
  | case4 t ts more hnewline hname ih =>
    rw [List.forall_mem_cons]
    refine ⟨List.cons_ne_nil t ts, ih (h.suffix ?_)⟩
    exact (skipLine_suffix ts).trans (List.suffix_cons t ts)

end Parser

/-! ## Two documents are read one by one -/

theorem cutLines_append {ts : List Token} (h : Terminated ts) (us : List Token) :
    cutLines (ts ++ us) = cutLines ts ++ cutLines us := by
  induction ts with
  | nil => rfl
  | cons t ts ih =>
    have hmore := ih (h.suffix (List.suffix_cons t ts))
    by_cases ht : t.kind = .newline
    · simp [cutLines, ht, hmore]
    · obtain ⟨hne, -⟩ := Parser.Ahead.of_cons t ts ht ⟨List.cons_ne_nil t ts, h⟩
      obtain ⟨u, vs, rfl⟩ := List.exists_cons_of_ne_nil hne
      have hjoin : ∀ line more, cutLines (u :: (vs ++ us)) = line :: more →
          cutLines (t :: u :: (vs ++ us)) = (t :: line) :: more := by
        intro line more hlines
        rw [cutLines, if_neg ht, hlines]
      rw [cutLines_cons] at hmore
      refine (hjoin _ _ hmore).trans ?_
      rw [cutLines_cons t, firstLine_cons_of_ne ht, Parser.skipLine_cons_of_ne ht]
      rfl

theorem Parser.diagnostic_of_rest_ne_nil {m : Mismatch} (h : m.rest ≠ []) (s s' : Span) :
    m.diagnostic s = m.diagnostic s' := by
  obtain ⟨e, _ | ⟨t, rest⟩⟩ := m
  · exact absurd rfl h
  · rfl

/-- **Two lists of tokens are read one by one** if the first ends with a newline and the second does
not go on with an attribute. -/
theorem parseTokens_append {ts us : List Token} (hts : Terminated ts)
    (hus : ∀ t ∈ us.head?, t.kind ≠ .space) :
    (parseTokens (ts ++ us)).schema.statements =
        (parseTokens ts).schema.statements ++ (parseTokens us).schema.statements ∧
      (parseTokens (ts ++ us)).errors = (parseTokens ts).errors ++ (parseTokens us).errors := by
  -- the pass over the first lines may leave an entity open, which the others do not belong to
  have hread : ∀ atEnd : Span,
      ((cutLines (ts ++ us)).foldl (Pass.step atEnd) .start).statements =
          (Parser.statements ts).1 ++ (Parser.statements us).1 ∧
        ((cutLines (ts ++ us)).foldl (Pass.step atEnd) .start).errors =
          (Parser.statements ts).2.map (Mismatch.diagnostic atEnd) ++
            (Parser.statements us).2.map (Mismatch.diagnostic atEnd) := by
    intro atEnd
    obtain ⟨hstatements, herrors⟩ :=
      Parser.foldl_statements atEnd .start ts fun _ _ _ => rfl
    obtain ⟨hstatements', herrors'⟩ := Parser.foldl_statements atEnd
      ((cutLines ts).foldl (Pass.step atEnd) .start) us fun t ht hs => absurd hs (hus t ht)
    rw [cutLines_append hts, List.foldl_append]
    exact ⟨by rw [hstatements', hstatements]; rfl, by rw [herrors', herrors]; rfl⟩
  rw [parseTokens_eq_pass, linePass]
  obtain ⟨hstatements, herrors⟩ :=
    hread (((ts ++ us).getLast?.map Token.span).getD ⟨.origin, .origin⟩)
  refine ⟨hstatements, herrors.trans ?_⟩
  unfold parseTokens
  congr 1
  · refine List.map_congr_left fun m hm => ?_
    exact Parser.diagnostic_of_rest_ne_nil (Parser.rest_ne_nil_statements hts m hm) _ _
  · cases us with
    | nil => simp [Parser.statements]
    | cons u us => rw [List.getLast?_append_of_ne_nil _ (List.cons_ne_nil u us)]

/-- **Documents are read one by one**, the second one as it is alone, but further down. -/
theorem parse_append (a b : String) (ha : Text.EndsLine a.toList)
    (hb : ∀ t ∈ (lex b).tokens.head?, t.kind ≠ .space) :
    let k := Shift.past a.toList
    (parse (a ++ b)).schema.statements =
        (parse a).schema.statements ++ (parse b).schema.statements.map (Statement.shift k) ∧
      (parse (a ++ b)).errors =
        (lex a).errors ++ (lex b).errors.map (Diagnostic.shift k) ++
          (parseTokens (lex a).tokens).errors ++
            (parseTokens (lex b).tokens).errors.map (Diagnostic.shift k) ∧
      (∀ s ∈ (parse b).schema.statements, (s.shift k).span = s.span.shift k) ∧
      ∀ e ∈ (parse b).schema.entities, ∀ x ∈ e.attributes, (x.shift k).span = x.span.shift k := by
  intro k
  obtain ⟨htokens, hstray⟩ := lex_append ha b
  have hhead : ∀ t ∈ ((lex b).tokens.map (Token.shift k)).head?, t.kind ≠ .space := by
    intro t ht
    rw [List.head?_map] at ht
    obtain ⟨u, hu, rfl⟩ := Option.map_eq_some_iff.1 ht
    exact hb u hu
  obtain ⟨hstatements, herrors⟩ := parseTokens_append (terminated_lex ha) hhead
  obtain ⟨hstatements', herrors'⟩ := parseTokens_shift k (lex b).tokens
  refine ⟨?_, ?_, fun s _ => s.span_shift k, fun _ _ x _ => x.span_shift k⟩
  · show (parseTokens (lex (a ++ b)).tokens).schema.statements = _
    rw [htokens, hstatements, hstatements']
    rfl
  · show (lex (a ++ b)).errors ++ (parseTokens (lex (a ++ b)).tokens).errors = _
    rw [htokens, hstray, herrors, herrors']
    simp only [List.append_assoc]
    rfl

/-- Two documents with errors of both kinds; the second one breaks off in the middle of a line. -/
theorem parse_append_broken :
    let a := "users\n  id% int pk\n  name\n"
    let b := "posts\n  author int -> users(é"
    let k : Shift := ⟨26, 3⟩
    Text.EndsLine a.toList ∧ (∀ t ∈ (lex b).tokens.head?, t.kind ≠ .space) ∧
      (parse (a ++ b)).schema.statements =
        (parse a).schema.statements ++ (parse b).schema.statements.map (Statement.shift k) ∧
      (parse (a ++ b)).errors =
        (lex a).errors ++ (lex b).errors.map (Diagnostic.shift k) ++
          (parseTokens (lex a).tokens).errors ++
            (parseTokens (lex b).tokens).errors.map (Diagnostic.shift k) := by
  intro a b k
  have ha : Text.EndsLine a.toList := .inr (by decide +kernel)
  have hb : ∀ t ∈ (lex b).tokens.head?, t.kind ≠ .space := by decide +kernel
  have hk : k = Shift.past a.toList := by decide +kernel
  obtain ⟨hstatements, herrors, -⟩ := parse_append a b ha hb
  rw [hk]
  exact ⟨ha, hb, hstatements, herrors⟩

end EntitySchema
