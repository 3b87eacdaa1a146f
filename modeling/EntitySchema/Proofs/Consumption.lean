import EntitySchema.Proofs.Recovery

/-!
# What reading consumes

Readers take the tokens that are left and give those behind what they read. By position in the
document, every reader of a line leaves it at its end, whether the line fits or not, and loops over
lines go on until no token is left.

* `lineEnd` — the position behind a line; `skipLine_drop`, `lineEnd_bounds`: it is where the rest of
  the line ends.
* `LineReader` — the readers of a line, and of the rest of a line that does not fit.
* `LineReader.rest_eq`: each of them leaves exactly the tokens behind the line.
* `statementRound`, `attributeRound` — one round of the two loops; `Loop` — the rounds of a loop by
  their positions; `exists_loop`: a loop whose rounds take a token comes to an end.
* **`reading_consumes_lines`**: a line is left at its end, and a document at the end of its tokens.
-/

namespace EntitySchema

/-- The position behind the first newline at or behind the position `pos`, and the end of the tokens
if there is none. -/
def lineEnd (ts : List Token) (pos : Nat) : Nat :=
  match (ts.drop pos).findIdx? (·.kind = .newline) with
  | some i => pos + i + 1
  | none => ts.length

namespace Parser

section Positions

variable {ts : List Token} {pos : Nat}

theorem skipLine_eq_drop (ts : List Token) :
    skipLine ts = match ts.findIdx? (·.kind = .newline) with
      | some i => ts.drop (i + 1)
      | none => [] := by
  induction ts with
  | nil => rfl
  | cons t ts ih =>
    by_cases ht : t.kind = .newline
    · simp [skipLine, List.findIdx?_cons, ht]
    · rw [skipLine_cons_of_ne ht, ih]
      cases h : ts.findIdx? (·.kind = .newline) <;> simp [List.findIdx?_cons, ht, h]

theorem skipLine_drop (ts : List Token) (pos : Nat) :
    skipLine (ts.drop pos) = ts.drop (lineEnd ts pos) := by
  rw [skipLine_eq_drop, lineEnd]
  split
  · rw [List.drop_drop, Nat.add_assoc]
  · rw [List.drop_length]

theorem lineEnd_bounds (h : pos < ts.length) : pos < lineEnd ts pos ∧ lineEnd ts pos ≤ ts.length := by
  rw [lineEnd]
  split
  · next i hi =>
    have hlt : i < (ts.drop pos).length := (List.findIdx?_eq_some_iff_getElem.1 hi).1
    rw [List.length_drop] at hlt
    omega
  · exact ⟨h, le_rfl⟩

theorem exists_position {t : Token} {us rest : List Token} (hpos : ts.drop pos = t :: us)
    (hrest : rest <:+ us) : ∃ pos', pos < pos' ∧ pos' ≤ ts.length ∧ rest = ts.drop pos' := by
  obtain ⟨read, rfl⟩ := hrest
  have hlength := congrArg List.length hpos
  rw [List.length_drop, List.length_cons, List.length_append] at hlength
  refine ⟨pos + (read.length + 1), by omega, by omega, ?_⟩
  rw [← List.drop_drop, hpos, List.drop_succ_cons, List.drop_left]

end Positions

/-! ## Readers of a line -/

/-- The readers that go on to the end of a line: the tokens that they are entered in front of, and
the tokens that they leave. Those of a part of a line do so if they give no value. -/
inductive LineReader : List Token → List Token → Prop
  | recovery (ts : List Token) : LineReader ts (skipLine ts)
  | expect {k : TokenKind} {e : Expectation} {ts : List Token}
      (h : (recover (expect k e ts)).value = none) : LineReader ts (recover (expect k e ts)).rest
  | expectName {e : Expectation} {ts : List Token}
      (h : (recover (expectName e ts)).value = none) :
      LineReader ts (recover (expectName e ts)).rest
  | reference {dash : Token} {ts : List Token} (hdash : dash.kind = .dash)
      (h : (recover (reference dash ts)).value = none) :
      LineReader (dash :: ts) (recover (reference dash ts)).rest
  /-- An attribute line, whether an attribute is read from it or not. -/
  | attributeLine {space : Token} {ts : List Token} (hspace : space.kind = .space) :
      LineReader (space :: ts) (attributeLine ts).rest
  /-- The first line of an entity. -/
  | entityLine {name : Token} {ts : List Token} (hname : name.kind = .identifier) :
      LineReader (name :: ts) (endLine () .entityEnd ts).rest

section LineReader

variable {k : TokenKind} {e : Expectation} {ts rest : List Token}

theorem rest_recover_expect (h : (recover (expect k e ts)).value = none) :
    (recover (expect k e ts)).rest = skipLine ts := by
  fun_cases expect k e ts with
  | case1 => rfl
  | case2 t ts ht =>
    rw [expect, if_pos ht] at h
    cases h
  | case3 t ts ht => rfl

theorem rest_recover_expectName (h : (recover (expectName e ts)).value = none) :
    (recover (expectName e ts)).rest = skipLine ts := by
  rw [expectName] at h ⊢
  cases hexpect : expect .identifier e ts with
  | ok p =>
    rw [hexpect] at h
    cases h
  | error m =>
    have hnone : (recover (expect .identifier e ts)).value = none := by rw [hexpect]; rfl
    have hrest := rest_recover_expect hnone
    rwa [hexpect] at hrest

/-- **A reader of a line leaves exactly the tokens behind the line.** -/
theorem LineReader.rest_eq (h : LineReader ts rest) : rest = skipLine ts := by
  cases h with
  | recovery => rfl
  | expect h => exact rest_recover_expect h
  | expectName h => exact rest_recover_expectName h
  | @reference dash us hdash h =>
    rw [skipLine_cons_of_ne (by rw [hdash]; decide)]
    exact (staysOnLine_reference dash us).rest_recover h
  | attributeLine hspace =>
    rw [rest_attributeLine, skipLine_cons_of_ne (by rw [hspace]; decide)]
  | entityLine hname => rw [rest_endLine, skipLine_cons_of_ne (by rw [hname]; decide)]

end LineReader

/-! ## Loops over lines -/

section Loops

variable {α : Type}

/-- Values and mismatches that are read in front of others. -/
def Lines.followedBy (first more : Lines α) : Lines α :=
  ⟨first.values ++ more.values, first.mismatches ++ more.mismatches, more.rest⟩

/-- What a loop reads of the tokens `ts` from one position to another. Every round ends behind the
position that it starts at. -/
inductive Loop (round : List Token → Lines α) (ts : List Token) : Nat → Lines α → Nat → Prop
  | stop (pos : Nat) : Loop round ts pos ⟨[], [], ts.drop pos⟩ pos
  | next {pos pos' stop : Nat} {more : Lines α} (hpos : pos < pos') (hlength : pos' ≤ ts.length)
      (hround : (round (ts.drop pos)).rest = ts.drop pos') (hmore : Loop round ts pos' more stop) :
      Loop round ts pos ((round (ts.drop pos)).followedBy more) stop

/-- A loop that takes a round in front of each token with `enters`, and nowhere else. -/
structure Loops (enters : Token → Prop) (round read : List Token → Lines α) : Prop where
  stop : ∀ us, (∀ t ∈ us.head?, ¬ enters t) → read us = ⟨[], [], us⟩
  next : ∀ t us, enters t → read (t :: us) = (round (t :: us)).followedBy (read (round (t :: us)).rest)
  /-- A round takes the token it is entered in front of. -/
  advances : ∀ t us, enters t → (round (t :: us)).rest <:+ us

/-- **A loop comes to an end**, in front of a token that it is not entered at. -/
theorem Loops.exists_loop {enters : Token → Prop} {round read : List Token → Lines α}
    (h : Loops enters round read) (ts : List Token) {pos : Nat} (hpos : pos ≤ ts.length) :
    ∃ stop ≤ ts.length, Loop round ts pos (read (ts.drop pos)) stop ∧
      ∀ t ∈ (ts.drop stop).head?, ¬ enters t := by
  induction hn : ts.length - pos using Nat.strong_induction_on generalizing pos with
  | _ n ih =>
    by_cases henters : ∃ t ∈ (ts.drop pos).head?, enters t
    · obtain ⟨t, ht, henters⟩ := henters
      obtain ⟨us, hus⟩ := List.head?_eq_some_iff.1 ht
      obtain ⟨pos', hlt, hle, hrest⟩ := exists_position hus (h.advances t us henters)
      obtain ⟨stop, hstop, hloop, hhead⟩ := ih _ (by omega) hle rfl
      refine ⟨stop, hstop, ?_, hhead⟩
      rw [hus, h.next t us henters, hrest, ← hus]
      exact .next hlt hle (by rw [hus, hrest]) hloop
    · have hhead : ∀ t ∈ (ts.drop pos).head?, ¬ enters t := fun t ht ht' => henters ⟨t, ht, ht'⟩
      refine ⟨pos, hpos, ?_, hhead⟩
      rw [h.stop _ hhead]
      exact .stop pos

end Loops

/-- One round of reading attributes. -/
def attributeRound (ts : List Token) : Lines Attribute :=
  let line := attributeLine ts.tail
  ⟨line.value.toList, line.mismatch.toList, line.rest⟩

/-- One round of reading a document. -/
def statementRound : List Token → Lines Statement
  | [] => ⟨[], [], []⟩
  | t :: ts =>
    match t.kind with
    | .newline => ⟨[.empty t.span], [], ts⟩
    | .identifier =>
      let body := entityBody ts
      ⟨[.entity ⟨t.identifier, body.values⟩], body.mismatches, body.rest⟩
    | _ => ⟨[], [⟨.statement, t :: ts⟩], skipLine ts⟩

theorem loops_attributes : Loops (·.kind = .space) attributeRound attributes where
  stop us h := by
    cases us with
    | nil => rw [attributes]
    | cons t us => rw [attributes, if_neg (h t rfl)]
  next t us h := by
    rw [attributes, if_pos h]
    rfl
  advances t us _ := rest_attributeLine_suffix us

theorem loops_statements :
    Loops (fun _ => True) statementRound fun ts => ⟨(statements ts).1, (statements ts).2, []⟩ where
  stop us h := by
    cases us with
    | nil => rw [statements]
    | cons t us => exact absurd trivial (h t rfl)
  next t us _ := by
    cases hkind : t.kind <;> simp only [statements, statementRound, hkind] <;> rfl
  advances t us _ := by
    rw [statementRound]
    split
    · exact List.suffix_rfl
    · exact rest_entityBody_suffix us
    · exact skipLine_suffix us

/-- **A line is left at its end, and a document at the end of its tokens.** -/
theorem reading_consumes_lines (ts : List Token) :
    (∀ pos < ts.length, pos < lineEnd ts pos ∧ lineEnd ts pos ≤ ts.length ∧
        ∀ rest, LineReader (ts.drop pos) rest → rest = ts.drop (lineEnd ts pos)) ∧
      (∀ pos ≤ ts.length, ∃ stop ≤ ts.length,
        Loop attributeRound ts pos (attributes (ts.drop pos)) stop ∧
          ∀ t ∈ (ts.drop stop).head?, t.kind ≠ .space) ∧
      Loop statementRound ts 0 ⟨(statements ts).1, (statements ts).2, []⟩ ts.length := by
  refine ⟨?_, ?_, ?_⟩
  · intro pos hpos
    obtain ⟨hlt, hle⟩ := lineEnd_bounds hpos
    exact ⟨hlt, hle, fun rest hrest => hrest.rest_eq.trans (skipLine_drop ts pos)⟩
  · exact fun pos hpos => loops_attributes.exists_loop ts hpos
  · obtain ⟨stop, hstop, hloop, hhead⟩ := loops_statements.exists_loop ts (Nat.zero_le _)
    have hnil : ts.drop stop = [] := by
      cases h : ts.drop stop with
      | nil => rfl
      | cons t us => exact absurd trivial (hhead t (by rw [h]; rfl))
    have hend : stop = ts.length := hstop.antisymm (List.drop_eq_nil_iff.1 hnil)
    rwa [hend] at hloop

/-- An attribute without a type is given up at its newline, and the line behind it is not lost. -/
theorem reading_consumes_lines_untyped :
    let token (k : TokenKind) : Token := ⟨k, "id", .ofText .origin "id".toList⟩
    let ts : List Token :=
      [.identifier, .newline, .space, .space, .identifier, .newline, .identifier].map token
    2 < ts.length ∧ LineReader (ts.drop 2) (attributeLine (ts.drop 3)).rest ∧
      (attributeLine (ts.drop 3)).value = none ∧ (attributeLine (ts.drop 3)).rest = ts.drop 6 ∧
      ∃ stop ≤ ts.length, Loop attributeRound ts 2 (attributes (ts.drop 2)) stop ∧
        ∀ t ∈ (ts.drop stop).head?, t.kind ≠ .space := by
  intro token ts
  have hpos : 2 < ts.length := by decide
  have hreader : LineReader (ts.drop 2) (attributeLine (ts.drop 3)).rest := .attributeLine rfl
  have hend : lineEnd ts 2 = 6 := by decide
  obtain ⟨hlines, hattributes, -⟩ := reading_consumes_lines ts
  have hrest := (hlines 2 hpos).2.2 _ hreader
  rw [hend] at hrest
  exact ⟨hpos, hreader, rfl, hrest, hattributes 2 hpos.le⟩

end Parser

end EntitySchema
