import EntitySchema.Proofs.Concatenation

/-!
# The first token that does not fit

What is missed on a line is missed as early as can be: all tokens in front of it begin a line of the
grammar, and with the next token they do not begin one any more.

* `Grammar.Viable` — the beginnings of words; `Grammar.Stuck` — tokens of which the longest part that
  begins a word is cut off.
* `Grammar.line` — the lines that may stand in a document, with an entity open or not.
* `Parser.Reads` — what a reader reads of a word; `Reads.bind`: readers one behind the other.
* **`Parser.stuck_attributeLine`**: an attribute line is left at the first token that does not fit.
* `Pass.fault?`, `Pass.opens` — the mismatch of a line, and whether an entity is open behind it;
  `Pass.fault?_eq_some`: what mismatches there are.
* **`Pass.stuck_of_fault?`**: a line is left at the first token that does not fit;
  `Pass.rest_ne_nil_of_fault?`: it is found to end too early only if it has no newline.
* **`errors_parseTokens`**: the errors of a document are the mismatches of its lines.
-/

namespace EntitySchema

/-! ## Beginnings of words -/

namespace Grammar

section Viable

variable {l m : Language TokenKind} {k j : TokenKind} {ks : List TokenKind}

/-- The kinds `ks` begin a word of `l`. -/
def Viable (l : Language TokenKind) (ks : List TokenKind) : Prop := ∃ w ∈ l, ks <+: w

theorem Viable.mono {js : List TokenKind} (h : Viable l ks) (hbegin : js <+: ks) :
    Viable l js := by
  obtain ⟨w, hw, hks⟩ := h
  exact ⟨w, hw, hbegin.trans hks⟩

theorem mem_one_mul {w : List TokenKind} : w ∈ one k * m ↔ ∃ v ∈ m, k :: v = w := by
  rw [Language.mem_mul]
  constructor
  · rintro ⟨u, rfl, v, hv, rfl⟩
    exact ⟨v, hv, rfl⟩
  · rintro ⟨v, hv, rfl⟩
    exact ⟨[k], rfl, v, hv, rfl⟩

@[simp] theorem viable_one_mul_nil : Viable (one k * m) [] ↔ Viable m [] := by
  constructor
  · rintro ⟨w, hw, -⟩
    obtain ⟨v, hv, -⟩ := mem_one_mul.1 hw
    exact ⟨v, hv, List.nil_prefix⟩
  · rintro ⟨v, hv, -⟩
    exact ⟨k :: v, mem_one_mul.2 ⟨v, hv, rfl⟩, List.nil_prefix⟩

@[simp] theorem viable_one_mul_cons :
    Viable (one k * m) (j :: ks) ↔ j = k ∧ Viable m ks := by
  constructor
  · rintro ⟨w, hw, hbegin⟩
    obtain ⟨v, hv, rfl⟩ := mem_one_mul.1 hw
    obtain ⟨hj, hbegin⟩ := List.cons_prefix_cons.1 hbegin
    exact ⟨hj, v, hv, hbegin⟩
  · rintro ⟨rfl, v, hv, hbegin⟩
    exact ⟨j :: v, mem_one_mul.2 ⟨v, hv, rfl⟩, List.cons_prefix_cons.2 ⟨rfl, hbegin⟩⟩

@[simp] theorem viable_epsilon : Viable 1 ks ↔ ks = [] := by
  constructor
  · rintro ⟨w, hw, hbegin⟩
    rw [Language.mem_one] at hw
    rwa [hw, List.prefix_nil] at hbegin
  · rintro rfl
    exact ⟨[], Language.nil_mem_one, List.prefix_rfl⟩

@[simp] theorem viable_one_nil : Viable (one k) [] := ⟨[k], rfl, List.nil_prefix⟩

@[simp] theorem viable_one_cons : Viable (one k) (j :: ks) ↔ j = k ∧ ks = [] := by
  rw [← mul_one (one k), viable_one_mul_cons, viable_epsilon]

@[simp] theorem viable_add : Viable (l + m) ks ↔ Viable l ks ∨ Viable m ks := by
  simp only [Viable, Language.mem_add, or_and_right, exists_or]

@[simp] theorem not_viable_zero : ¬ Viable 0 ks := fun ⟨w, hw, _⟩ => Language.notMem_zero w hw

theorem maybe_mul : maybe l * m = m + l * m := by rw [maybe, add_mul, one_mul]

end Viable

section Stuck

variable {l m : Language TokenKind} {k : TokenKind} {t : Token} {ts rest : List Token}

/-- The tokens `rest` stand in `ts` behind the longest part that begins a word of `l`. -/
def Stuck (l : Language TokenKind) (ts rest : List Token) : Prop :=
  ∃ before, ts = before ++ rest ∧ Viable l (before.map Token.kind) ∧
    ∀ t ∈ rest.head?, ¬ Viable l ((before ++ [t]).map Token.kind)

theorem Stuck.suffix (h : Stuck l ts rest) : rest <:+ ts := by
  obtain ⟨before, rfl, -⟩ := h
  exact List.suffix_append before rest

theorem stuck_cons (h : Stuck m ts rest) (ht : t.kind = k) : Stuck (one k * m) (t :: ts) rest := by
  obtain ⟨before, rfl, hviable, hstop⟩ := h
  refine ⟨t :: before, rfl, viable_one_mul_cons.2 ⟨ht, hviable⟩, ?_⟩
  intro u hu hmore
  exact hstop u hu (viable_one_mul_cons.1 hmore).2

/-- The first of the tokens starts a word of `l`. -/
def Starts (l : Language TokenKind) (ts : List Token) : Prop := ∃ t ∈ ts.head?, Viable l [t.kind]

@[simp] theorem not_starts_nil : ¬ Starts l [] := by simp [Starts]

@[simp] theorem starts_cons : Starts l (t :: ts) ↔ Viable l [t.kind] := by simp [Starts]

theorem stuck_here (hl : Viable l []) (hts : ¬ Starts l ts) : Stuck l ts ts :=
  ⟨[], rfl, hl, fun t ht hviable => hts ⟨t, ht, hviable⟩⟩

/-- If the first token decides between two words, the other one does not matter. -/
theorem Stuck.add (h : Stuck l ts rest) (hm : ¬ Starts m ts) : Stuck (l + m) ts rest := by
  obtain ⟨before, rfl, hviable, hstop⟩ := h
  refine ⟨before, rfl, viable_add.2 (.inl hviable), ?_⟩
  intro t ht hmore
  rcases viable_add.1 hmore with hmore | hmore
  · exact hstop t ht hmore
  · obtain ⟨rest, rfl⟩ := List.head?_eq_some_iff.1 ht
    cases before with
    | nil => exact hm (starts_cons.2 hmore)
    | cons u before => exact hm (starts_cons.2 (hmore.mono (List.prefix_append [u.kind] _)))

theorem Stuck.add_left (h : Stuck m ts rest) (hl : ¬ Starts l ts) : Stuck (l + m) ts rest := by
  rw [add_comm]
  exact h.add hl

end Stuck

/-- The lines that may stand in a document: an empty line, the first line of an entity, or an
attribute, if an entity is open. -/
def line (inEntity : Bool) : Language TokenKind :=
  one .newline + (one .identifier * one .newline + if inEntity then attributeLine else 0)

end Grammar

namespace Parser

open Grammar

/-! ## Readers -/

section Reads

variable {α β : Type} {l m n : Language TokenKind} {k : TokenKind} {ts : List Token}

/-- Whether a reader reads what words of `l` have in front of words of `m`. If it stops, it does so
at the first token that does not fit. -/
def Reads (l m : Language TokenKind) (ts : List Token) :
    Except Mismatch (α × List Token) → Prop
  | .ok (_, rest) => ∀ rest', Stuck m rest rest' → Stuck l ts rest'
  | .error e => Stuck l ts e.rest

theorem Reads.bind {r : Except Mismatch (α × List Token)}
    {f : α × List Token → Except Mismatch (β × List Token)} (h : Reads l m ts r)
    (hf : ∀ a rest, Reads m n rest (f (a, rest))) : Reads l n ts (r >>= f) := by
  cases r with
  | error e => exact h
  | ok p =>
    obtain ⟨a, rest⟩ := p
    have hmore := hf a rest
    show Reads l n ts (f (a, rest))
    cases hr : f (a, rest) with
    | error e =>
      rw [hr] at hmore
      exact h e.rest hmore
    | ok q =>
      rw [hr] at hmore
      exact fun rest' hrest => h rest' (hmore rest' hrest)

theorem reads_pure (a : α) : Reads m m ts (.ok (a, ts)) := fun _ h => h

theorem reads_expect (hm : Viable m []) (e : Expectation) :
    Reads (one k * m) m ts (expect k e ts) := by
  fun_cases expect k e ts with
  | case1 => exact stuck_here (viable_one_mul_nil.2 hm) not_starts_nil
  | case2 t ts ht => exact fun rest' h => stuck_cons h ht
  | case3 t ts ht => exact stuck_here (viable_one_mul_nil.2 hm) (by simp [ht])

theorem reads_expectName (hm : Viable m []) (e : Expectation) :
    Reads (one .identifier * m) m ts (expectName e ts) :=
  (reads_expect hm e).bind fun _ _ => reads_pure _

theorem reads_attributeHead (hm : Viable m []) :
    Reads (one .space * (one .identifier * (one .space * (one .identifier * m)))) m ts
      (attributeHead ts) :=
  (reads_expect (by simpa) _).bind fun _ _ =>
    (reads_expectName (by simpa) _).bind fun _ _ =>
      (reads_expect (by simpa) _).bind fun _ _ =>
        (reads_expectName hm _).bind fun _ _ => reads_pure _

theorem reads_reference (dash : Token) (hm : Viable m []) :
    Reads (one .greater * (one .space * (one .identifier * (one .openParen *
      (one .identifier * (one .closeParen * m)))))) m ts (reference dash ts) :=
  (reads_expect (by simpa) _).bind fun _ _ =>
    (reads_expect (by simpa) _).bind fun _ _ =>
      (reads_expectName (by simpa) _).bind fun _ _ =>
        (reads_expect (by simpa) _).bind fun _ _ =>
          (reads_expectName (by simpa) _).bind fun _ _ =>
            (reads_expect hm _).bind fun _ _ => reads_pure _

end Reads

section Stuck

variable {m : Language TokenKind} {k : TokenKind} {ts rest : List Token}

/-- A token that may be left out, in front of words that do not start with it. -/
theorem stuck_skip (hm : ¬ Viable m [k]) (h : Stuck m (skip k ts) rest) :
    Stuck (maybe (one k) * m) ts rest := by
  rw [maybe_mul]
  fun_cases skip k ts with
  | case1 =>
    rw [skip] at h
    exact h.add not_starts_nil
  | case2 t ts ht =>
    rw [skip, if_pos ht] at h
    exact (stuck_cons h ht).add_left (by rwa [starts_cons, ht])
  | case3 t ts ht =>
    rw [skip, if_neg ht] at h
    exact h.add (by simp [ht])

theorem stuck_primaryKey (hkey : ¬ Viable m [.primaryKey]) (hspace : ¬ Viable m [.space])
    (h : Stuck m (primaryKey ts).2 rest) : Stuck (maybe key * m) ts rest := by
  rw [maybe_mul, key, mul_assoc]
  fun_cases primaryKey ts with
  | case1 =>
    rw [primaryKey] at h
    exact h.add not_starts_nil
  | case2 t ts ht =>
    rw [primaryKey, if_pos ht] at h
    exact (stuck_cons (stuck_skip hspace h) ht).add_left (by rwa [starts_cons, ht])
  | case3 t ts ht =>
    rw [primaryKey, if_neg ht] at h
    exact h.add (by simp [ht])

theorem stuck_endLine {α : Type} (v : α) (e : Expectation) :
    ∀ m ∈ (endLine v e ts).mismatch, Stuck (one .newline) ts m.rest := by
  intro m hm
  have hreads : Reads (one .newline * 1) 1 ts (expect .newline e ts) := reads_expect (by simp) e
  rw [mul_one] at hreads
  cases hexpect : expect .newline e ts with
  | ok p =>
    rw [endLine, hexpect] at hm
    cases hm
  | error m' =>
    rw [endLine, hexpect] at hm
    rw [hexpect] at hreads
    cases hm
    exact hreads

theorem stuck_attributeTail (a : Attribute) :
    ∀ m ∈ (attributeTail a ts).mismatch,
      Stuck (maybe Grammar.reference * one .newline) ts m.rest := by
  simp only [maybe_mul, Grammar.reference, mul_assoc]
  fun_cases attributeTail a ts with
  | case1 => exact fun m hm => (stuck_endLine _ _ m hm).add not_starts_nil
  | case2 t ts hdash r _ rest heq =>
    intro m hm
    have hreads : Reads _ (one .newline) ts (reference t ts) := reads_reference t (by simp)
    rw [(recover_eq_some.1 heq).1] at hreads
    have hline := hreads m.rest (stuck_endLine _ _ m hm)
    exact (stuck_cons hline hdash).add_left (by simp [hdash])
  | case3 t ts hdash _ _ heq =>
    obtain ⟨e, hreference, rfl, -⟩ := recover_eq_none.1 heq
    rintro m hm
    cases hm
    have hreads : Reads _ (one .newline) ts (reference t ts) := reads_reference t (by simp)
    rw [hreference] at hreads
    exact (stuck_cons hreads hdash).add_left (by simp [hdash])
  | case4 t ts hdash => exact fun m hm => (stuck_endLine _ _ m hm).add (by simp [hdash])

/-- **An attribute line is left at the first token that does not fit.** -/
theorem stuck_attributeLine {s : Token} (hs : s.kind = .space) (ts : List Token) :
    ∀ m ∈ (attributeLine ts).mismatch, Stuck Grammar.attributeLine (s :: ts) m.rest := by
  intro m hm
  refine stuck_cons ?_ hs
  have hreads : Reads _
      (maybe (one .space) * (maybe key * (maybe Grammar.reference * one .newline))) ts
      (attributeHead ts) := reads_attributeHead (by simp [maybe_mul])
  rw [attributeLine] at hm
  cases hhead : attributeHead ts with
  | error e =>
    rw [hhead] at hm hreads
    cases hm
    exact hreads
  | ok p =>
    obtain ⟨⟨name, type⟩, rest⟩ := p
    rw [hhead] at hm hreads
    refine hreads m.rest (stuck_skip ?_ (stuck_primaryKey ?_ ?_ (stuck_attributeTail _ m hm)))
    all_goals simp [maybe_mul, key, Grammar.reference, mul_assoc]

end Stuck

end Parser

/-! ## The mismatch of a line -/

namespace Pass

open Grammar

/-- Whether an entity is open behind a line, if `inEntity` tells it in front of the line. -/
def opens (inEntity : Bool) (line : List Token) : Bool :=
  match line.head?.map Token.kind with
  | none | some .space => inEntity
  | some .identifier => true
  | some _ => false

/-- Whether an entity is open behind the lines a document starts with. -/
def entityOpen (lines : List (List Token)) : Bool := lines.foldl opens false

/-- The mismatch that a line meets. -/
def fault? (inEntity : Bool) : List Token → Option Mismatch
  | [] => none
  | t :: ts =>
    match t.kind with
    | .newline => none
    | .identifier => if ts.head?.map Token.kind = some .newline then none else some ⟨.entityEnd, ts⟩
    | .space => if inEntity then lineFault (t :: ts) else some ⟨.statement, t :: ts⟩
    | _ => some ⟨.statement, t :: ts⟩

/-- The mismatches of lines. -/
def faults (inEntity : Bool) : List (List Token) → List Mismatch
  | [] => []
  | line :: lines => (fault? inEntity line).toList ++ faults (opens inEntity line) lines

section Fault

variable {inEntity : Bool} {line : List Token} {m : Mismatch}

/-- What mismatches there are: more on the first line of an entity than its name, a mismatch on an
attribute line, or a first token that fits no line. -/
theorem fault?_eq_some (h : fault? inEntity line = some m) :
    ∃ t ts, line = t :: ts ∧
      (t.kind = .identifier ∧ (∀ u ∈ ts.head?, u.kind ≠ .newline) ∧ m = ⟨.entityEnd, ts⟩ ∨
        t.kind = .space ∧ inEntity = true ∧ (Parser.attributeLine ts).mismatch = some m ∨
        t.kind ≠ .newline ∧ t.kind ≠ .identifier ∧ (t.kind = .space → inEntity = false) ∧
          m = ⟨.statement, t :: ts⟩) := by
  fun_cases fault? inEntity line with
  | case1 => cases h
  | case2 t ts hkind => simp [fault?, hkind] at h
  | case3 t ts hkind hhead => simp [fault?, hkind, hhead] at h
  | case4 t ts hkind hhead =>
    simp only [fault?, hkind, if_neg hhead, Option.some.injEq] at h
    refine ⟨t, ts, rfl, .inl ⟨hkind, ?_, h.symm⟩⟩
    rintro u hu hnewline
    rw [Option.mem_def] at hu
    exact hhead (by rw [hu, Option.map_some, hnewline])
  | case5 t ts hkind hopen =>
    simp only [fault?, hkind, hopen, if_true] at h
    exact ⟨t, ts, rfl, .inr (.inl ⟨hkind, hopen, h⟩)⟩
  | case6 t ts hkind hopen =>
    simp only [fault?, hkind, if_neg hopen, Option.some.injEq] at h
    exact ⟨t, ts, rfl, .inr (.inr
      ⟨by simp [hkind], by simp [hkind], fun _ => by simpa using hopen, h.symm⟩)⟩
  | case7 t ts hn hi hs =>
    rw [fault?] at h
    split at h
    · contradiction
    · contradiction
    · contradiction
    · exact ⟨t, ts, rfl, .inr (.inr ⟨hn, hi, fun hkind => absurd hkind hs,
        (Option.some.inj h).symm⟩)⟩

/-- **A line is left at the first token that does not fit.** -/
theorem stuck_of_fault? (h : fault? inEntity line = some m) :
    Stuck (Grammar.line inEntity) line m.rest := by
  obtain ⟨t, ts, rfl, ⟨hkind, hnext, rfl⟩ | ⟨hkind, rfl, hm⟩ | ⟨hn, hi, hs, rfl⟩⟩ :=
    fault?_eq_some h
  · have hts : Stuck (one .newline) ts ts := by
      refine stuck_here viable_one_nil ?_
      rintro ⟨u, hu, hviable⟩
      exact hnext u hu (viable_one_cons.1 hviable).1
    refine ((stuck_cons hts hkind).add ?_).add_left (by simp [hkind])
    cases inEntity <;> simp [Grammar.attributeLine, hkind]
  · exact ((Parser.stuck_attributeLine hkind ts m hm).add_left (by simp [hkind])).add_left
      (by simp [hkind])
  · refine stuck_here (by simp [Grammar.line]) ?_
    cases inEntity with
    | false => simp [Grammar.line, hn, hi]
    | true =>
      have hspace : t.kind ≠ .space := fun h => Bool.noConfusion (hs h)
      simp [Grammar.line, Grammar.attributeLine, hn, hi, hspace]

theorem rest_ne_nil_of_fault? (hline : Terminated line) (h : fault? inEntity line = some m) :
    m.rest ≠ [] := by
  have hahead : ∀ {t ts}, t.kind ≠ .newline → Terminated (t :: ts) → Parser.Ahead ts :=
    fun ht h => Parser.Ahead.of_cons _ _ ht ⟨List.cons_ne_nil _ _, h⟩
  obtain ⟨t, ts, rfl, ⟨hkind, -, rfl⟩ | ⟨hkind, -, hm⟩ | ⟨-, -, -, rfl⟩⟩ := fault?_eq_some h
  · exact (hahead (by simp [hkind]) hline).1
  · exact Parser.rest_ne_nil_attributeLine (hahead (by simp [hkind]) hline) m hm
  · exact List.cons_ne_nil t ts

end Fault

theorem inEntity_step (atEnd : Span) (p : Pass) (line : List Token) :
    (p.step atEnd line).inEntity = opens p.inEntity line := by
  fun_cases step atEnd p line <;> simp_all [opens, refuse]

theorem errors_step (atEnd : Span) (p : Pass) (line : List Token) :
    (p.step atEnd line).errors =
      p.errors ++ (fault? p.inEntity line).toList.map (Mismatch.diagnostic atEnd) := by
  fun_cases step atEnd p line with
  | case3 t ts hkind fault =>
    by_cases hhead : ts.head?.map Token.kind = some .newline
    · simp only [fault?, hkind, fault, if_pos hhead, Option.toList_none]
    · simp only [fault?, hkind, fault, if_neg hhead, Option.toList_some]
  | _ => simp_all [fault?, refuse]

theorem errors_foldl (atEnd : Span) (p : Pass) (lines : List (List Token)) :
    (lines.foldl (step atEnd) p).errors =
      p.errors ++ (faults p.inEntity lines).map (Mismatch.diagnostic atEnd) := by
  induction lines generalizing p with
  | nil => simp [faults]
  | cons line lines ih =>
    rw [List.foldl_cons, ih, errors_step, inEntity_step, faults, List.map_append, List.append_assoc]

theorem mem_faults {inEntity : Bool} {lines : List (List Token)} {m : Mismatch}
    (h : m ∈ faults inEntity lines) :
    ∃ before line after, lines = before ++ line :: after ∧
      fault? (before.foldl opens inEntity) line = some m := by
  induction lines generalizing inEntity with
  | nil => cases h
  | cons line lines ih =>
    rcases List.mem_append.1 h with h | h
    · exact ⟨[], line, lines, rfl, Option.mem_toList.1 h⟩
    · obtain ⟨before, line', after, rfl, hfault⟩ := ih h
      exact ⟨line :: before, line', after, rfl, hfault⟩

end Pass

/-- **The errors of a document are the mismatches of its lines.** -/
theorem errors_parseTokens (ts : List Token) :
    (parseTokens ts).errors = (Pass.faults false (cutLines ts)).map
      (Mismatch.diagnostic ((ts.getLast?.map Token.span).getD ⟨.origin, .origin⟩)) := by
  rw [parseTokens_eq_pass, linePass]
  exact Pass.errors_foldl _ .start _

end EntitySchema
