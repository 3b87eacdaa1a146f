import EntitySchema.Proofs.Session

/-!
# Configuring the server

A settings document asks for a delay, asks for nothing, or is refused as a whole. The server keeps
the delay that was asked for last.

* `Nullable`, `Holds`, `Delay` — what may stand in a settings document; `Asks` — the delay that a
  document asks for, if it is a settings document at all.
* `Reads` — a reader that reads what a relation says, and refuses everything else; `reads_optional`,
  `reads_readSection`, `reads_readMilliseconds`: the readers of settings; **`decode_eq_ok_iff`**.
* `Server.configure` — the server behind a settings document; `configure_of_asks`,
  `configure_of_not_asks`: only a delay that is asked for changes anything.
* `AskedLast` — the last delay that several documents ask for; `debounce_foldl_iff`: it counts.
* **`configurations_merge`**: the delay that was asked for last counts; a document that asks for none
  or is refused leaves the server as it is.
* **`Session.settings_eq`**: nothing but settings documents changes the settings.
-/

namespace EntitySchema.Editor

section Documents

variable {α : Type}

/-- What `R` says of a value that may be `null`. -/
inductive Nullable (R : Json → α → Prop) : Json → Option α → Prop
  | null : Nullable R .null none
  | value {v : Json} {a : α} (hv : v ≠ .null) (h : R v a) : Nullable R v (some a)

/-- What the field `name` of a section holds, by `R`. A section is an object in which the field may
be missing, the last one of the name counts, and other fields do not matter; or it is an array with
the field as its only element. -/
inductive Holds (name : String) (R : Json → α → Prop) : Json → Option α → Prop
  | missing {fields : List (String × Json)} (h : ∀ f ∈ fields, f.1 ≠ name) :
      Holds name R (.object fields) none
  | field {before after : List (String × Json)} {v : Json} {a : Option α}
      (hafter : ∀ f ∈ after, f.1 ≠ name) (h : Nullable R v a) :
      Holds name R (.object (before ++ (name, v) :: after)) a
  | element {v : Json} {a : Option α} (h : Nullable R v a) : Holds name R (.array [v]) a

end Documents

/-- A number of milliseconds that fits into 64 bits. -/
inductive Delay : Json → Nat → Prop
  | mk {n : Nat} (h : n < Nat.pow 2 64) : Delay (.number (.integer n)) n

/-- The settings document `v` asks for the delay `d`, or for none. -/
def Asks (v : Json) (d : Option Nat) : Prop :=
  ∃ held, Holds "diagnostics" (Holds "debounceMs" Delay) v held ∧ held.join = d

/-! ## Readers -/

section Readers

open Settings

variable {α : Type} {read : Json → Except Settings.Error α} {R : Json → α → Prop}

/-- The reader `read` gives what `R` says, and refuses a value of which `R` says nothing. -/
def Reads (read : Json → Except Settings.Error α) (R : Json → α → Prop) : Prop :=
  ∀ v a, read v = .ok a ↔ R v a

theorem map_eq_ok_iff {β : Type} {f : α → β} {r : Except Settings.Error α} {b : β} :
    r.map f = .ok b ↔ ∃ a, r = .ok a ∧ f a = b := by
  cases r <;> simp [Except.map]

theorem reads_optional (h : Reads read R) : Reads (optional read) (Nullable R) := by
  intro v a
  by_cases hv : v = .null
  · subst hv
    constructor
    · rintro ⟨⟩
      exact .null
    · rintro (_ | ⟨hv, -⟩)
      · rfl
      · exact absurd rfl hv
  · have hread : optional read v = (read v).map some := by
      cases v with
      | null => exact absurd rfl hv
      | _ => rfl
    rw [hread, map_eq_ok_iff]
    constructor
    · rintro ⟨b, hb, rfl⟩
      exact .value hv ((h v b).1 hb)
    · rintro (_ | ⟨-, hR⟩)
      · exact absurd rfl hv
      · exact ⟨_, (h v _).2 hR, rfl⟩

theorem field?_eq_some_iff {fields : List (String × Json)} {name : String} {v : Json} :
    (Json.object fields).field? name = some v ↔
      ∃ before after, fields = before ++ (name, v) :: after ∧ ∀ f ∈ after, f.1 ≠ name := by
  simp only [Json.field?, Option.map_eq_some_iff, List.find?_eq_some_iff_append, beq_iff_eq,
    Bool.not_eq_true', beq_eq_false_iff_ne]
  constructor
  · rintro ⟨⟨_, w⟩, ⟨rfl, after, before, hfields, hafter⟩, rfl⟩
    refine ⟨before.reverse, after.reverse, ?_, ?_⟩
    · rw [← List.reverse_reverse fields, hfields]
      simp
    · exact fun f hf => hafter f (List.mem_reverse.1 hf)
  · rintro ⟨before, after, rfl, hafter⟩
    refine ⟨(name, v), ⟨rfl, after.reverse, before.reverse, by simp, ?_⟩, rfl⟩
    exact fun f hf => hafter f (List.mem_reverse.1 hf)

theorem field?_eq_none_iff {fields : List (String × Json)} {name : String} :
    (Json.object fields).field? name = none ↔ ∀ f ∈ fields, f.1 ≠ name := by
  simp [Json.field?]

/-- A field that is missing is read as if it were `null`. -/
theorem holds_object_iff {fields : List (String × Json)} {name : String} {a : Option α} :
    Holds name R (.object fields) a ↔
      Nullable R (((Json.object fields).field? name).getD .null) a := by
  constructor
  · rintro (h | ⟨hafter, h⟩)
    · rw [field?_eq_none_iff.2 h]
      exact .null
    · rw [field?_eq_some_iff.2 ⟨_, _, rfl, hafter⟩]
      exact h
  · intro h
    cases hfield : (Json.object fields).field? name with
    | none =>
      rw [hfield, Option.getD_none] at h
      cases h with
      | null => exact .missing (field?_eq_none_iff.1 hfield)
      | value hv => exact absurd rfl hv
    | some v =>
      rw [hfield, Option.getD_some] at h
      obtain ⟨before, after, rfl, hafter⟩ := field?_eq_some_iff.1 hfield
      exact .field hafter h

theorem reads_readSection (s : Section) (h : Reads read R) :
    Reads (readSection s read) (Holds s.field R) := by
  intro v a
  have hoptional := reads_optional h
  fun_cases readSection s read v with
  | case1 fields => rw [holds_object_iff, hoptional]
  | case2 => exact iff_of_false (by simp) (by rintro ⟨⟩)
  | case3 v =>
    rw [hoptional]
    exact ⟨.element, fun | .element h => h⟩
  | case4 v vs hvs =>
    have hrefused : ∀ r : Except Settings.Error (Option α),
        (do let _ ← r; throw (.surplusElements (vs.length + 1)) : Except _ (Option α)) ≠ .ok a := by
      rintro (e | b) <;> rintro ⟨⟩
    exact iff_of_false (hrefused _) (by rintro ⟨⟩; exact hvs rfl)
  | case5 v hobject hnil hone hmore =>
    refine iff_of_false (by simp) ?_
    rintro (h | h | h)
    · exact hobject _ rfl
    · exact hobject _ rfl
    · exact hone _ rfl

theorem reads_readMilliseconds : Reads readMilliseconds Delay := by
  intro v n
  fun_cases readMilliseconds v with
  | case1 m hm =>
    obtain ⟨k, rfl⟩ := Int.eq_ofNat_of_zero_le hm.1
    constructor
    · rintro ⟨⟩
      exact .mk (by omega)
    · rintro ⟨⟩
      rfl
  | case2 m hm =>
    refine iff_of_false (by simp) ?_
    rintro ⟨h⟩
    exact hm (by omega)
  | case3 v hv =>
    refine iff_of_false (by simp) ?_
    rintro ⟨h⟩
    exact hv _ rfl

/-- **A settings document is decoded to the delay that it asks for**, and refused if it is none. -/
theorem decode_eq_ok_iff (v : Json) (d : Option Nat) : decode v = .ok d ↔ Asks v d := by
  have hroot := reads_readSection .root (reads_readSection .diagnostics reads_readMilliseconds)
  rw [decode, map_eq_ok_iff, Asks]
  exact exists_congr fun held => and_congr_left fun _ => hroot v held

end Readers

/-! ## The settings of the server -/

theorem Asks.unique {v : Json} {d d' : Option Nat} (h : Asks v d) (h' : Asks v d') : d = d' :=
  Except.ok.inj (((decode_eq_ok_iff v d).2 h).symm.trans ((decode_eq_ok_iff v d').2 h'))

theorem apply_eq_ok_iff {s s' : Settings} {v : Json} :
    s.apply v = .ok s' ↔ ∃ d, Asks v d ∧ ⟨d.getD s.debounce⟩ = s' := by
  simp only [Settings.apply, map_eq_ok_iff, decode_eq_ok_iff]

/-- The server behind a settings document. -/
def Server.configure (s : Server) (v : Json) : Server := (s.handle (.configured v)).1

section Configure

variable {s : Server} {v : Json} {d : Nat}

theorem configure_of_asks (h : Asks v (some d)) :
    s.configure v = { s with settings := ⟨d⟩ } := by
  have happly : s.settings.apply v = .ok ⟨d⟩ := apply_eq_ok_iff.2 ⟨_, h, rfl⟩
  simp only [Server.configure, Server.handle, happly]

theorem configure_of_not_asks (h : ∀ d, ¬ Asks v (some d)) : s.configure v = s := by
  cases happly : s.settings.apply v with
  | error e => simp only [Server.configure, Server.handle, happly]
  | ok s' =>
    obtain ⟨_ | d, hd, rfl⟩ := apply_eq_ok_iff.1 happly
    · simp only [Server.configure, Server.handle, happly, Option.getD_none]
    · exact absurd hd (h d)

end Configure

/-- The documents ask for the delay `d`, and behind the one that does so for no other. -/
def AskedLast (vs : List Json) (d : Nat) : Prop :=
  ∃ before v after, vs = before ++ v :: after ∧ Asks v (some d) ∧
    ∀ w ∈ after, ∀ d', ¬ Asks w (some d')

section Documents

variable {vs : List Json} {d : Nat}

theorem exists_askedLast (vs : List Json) :
    (∃ d, AskedLast vs d) ∨ ∀ v ∈ vs, ∀ d, ¬ Asks v (some d) := by
  induction vs with
  | nil => exact .inr fun v hv => absurd hv List.not_mem_nil
  | cons v vs ih =>
    rcases ih with ⟨d, before, w, after, rfl, hw⟩ | hnone
    · exact .inl ⟨d, v :: before, w, after, rfl, hw⟩
    · by_cases hv : ∃ d, Asks v (some d)
      · obtain ⟨d, hd⟩ := hv
        exact .inl ⟨d, [], v, vs, rfl, hd, hnone⟩
      · exact .inr (List.forall_mem_cons.2 ⟨not_exists.1 hv, hnone⟩)

theorem foldl_configure_of_not_asks (s : Server) (h : ∀ v ∈ vs, ∀ d, ¬ Asks v (some d)) :
    vs.foldl Server.configure s = s := by
  induction vs with
  | nil => rfl
  | cons v vs ih =>
    obtain ⟨hv, hvs⟩ := List.forall_mem_cons.1 h
    rw [List.foldl_cons, configure_of_not_asks hv, ih hvs]

theorem debounce_foldl_of_askedLast (s : Server) (h : AskedLast vs d) :
    (vs.foldl Server.configure s).settings.debounce = d := by
  obtain ⟨before, v, after, rfl, hv, hafter⟩ := h
  rw [List.foldl_append, List.foldl_cons, foldl_configure_of_not_asks _ hafter,
    configure_of_asks hv]

theorem debounce_foldl_iff (s : Server) :
    (vs.foldl Server.configure s).settings.debounce = d ↔
      AskedLast vs d ∨ (∀ v ∈ vs, ∀ d', ¬ Asks v (some d')) ∧ d = s.settings.debounce := by
  constructor
  · rintro rfl
    rcases exists_askedLast vs with ⟨d, hd⟩ | hnone
    · rw [debounce_foldl_of_askedLast s hd]
      exact .inl hd
    · rw [foldl_configure_of_not_asks s hnone]
      exact .inr ⟨hnone, rfl⟩
  · rintro (hd | ⟨hnone, rfl⟩)
    · exact debounce_foldl_of_askedLast s hd
    · rw [foldl_configure_of_not_asks s hnone]

end Documents

theorem exists_error_apply_iff {s : Settings} {v : Json} :
    (∃ e, s.apply v = .error e) ↔ ∀ d, ¬ Asks v d := by
  constructor
  · rintro ⟨e, he⟩ d hd
    cases he.symm.trans (apply_eq_ok_iff.2 ⟨d, hd, rfl⟩)
  · intro h
    cases happly : s.apply v with
    | error e => exact ⟨e, rfl⟩
    | ok s' =>
      obtain ⟨d, hd, -⟩ := apply_eq_ok_iff.1 happly
      exact absurd hd (h d)

/-- **The delay that was asked for last counts**, and 300 milliseconds if none was asked for. -/
theorem configurations_merge (vs : List Json) (d : Nat) :
    ((vs.foldl Server.configure {}).settings.debounce = d ↔
        AskedLast vs d ∨ (∀ v ∈ vs, ∀ d', ¬ Asks v (some d')) ∧ d = 300) ∧
      ∀ (s : Server) (v : Json),
        ((∃ e, s.settings.apply v = .error e) ↔ ∀ d', ¬ Asks v d') ∧
        ((∀ d', ¬ Asks v d') ∨ Asks v none → s.configure v = s) := by
  refine ⟨debounce_foldl_iff {}, fun s v => ⟨exists_error_apply_iff, fun h => ?_⟩⟩
  refine configure_of_not_asks fun d' hd' => ?_
  rcases h with hrefused | hnone
  · exact hrefused _ hd'
  · cases hnone.unique hd'

/-- A delay is kept by a document without one, and by one with a wrong field in its section. -/
theorem configurations_merge_kept :
    let v : Json :=
      .object [("diagnostics", .object [("debounceMs", .nat 50)]), ("other", .bool true)]
    let w : Json := .object [("diagnostics", .object [("debounceMs", .string "fast")])]
    AskedLast [v, .object [], w] 50 ∧ Asks (.object []) none ∧ (∀ d, ¬ Asks w d) ∧
      ([v, .object [], w].foldl Server.configure {}).settings.debounce = 50 ∧
      ∀ s : Server, s.configure (.object []) = s ∧ s.configure w = s := by
  intro v w
  have hv : Asks v (some 50) := (decode_eq_ok_iff v _).1 rfl
  have hnone : Asks (.object []) none := (decode_eq_ok_iff _ _).1 rfl
  have hempty : ∀ d, ¬ Asks (.object []) (some d) := fun d hd => by cases hnone.unique hd
  have hw : ∀ d, ¬ Asks w d := fun d hd => by cases (decode_eq_ok_iff w d).2 hd
  have hlast : AskedLast [v, .object [], w] 50 := by
    refine ⟨[], v, [.object [], w], rfl, hv, ?_⟩
    simp only [List.forall_mem_cons, List.not_mem_nil, false_imp_iff, implies_true, and_true]
    exact ⟨hempty, fun d => hw _⟩
  obtain ⟨hdelay, hsame⟩ := configurations_merge [v, .object [], w] 50
  exact ⟨hlast, hnone, hw, hdelay.2 (.inl hlast),
    fun s => ⟨(hsame s _).2 (.inr hnone), (hsame s w).2 (.inl hw)⟩⟩

/-- A section may be an array with its field as the only element. -/
example : Settings.decode (.array [.array [.nat 50]]) = .ok (some 50) := rfl

/-! ## Sessions -/

/-- The settings document that a move takes in. -/
def Move.configuration? (m : Move) : Option Json :=
  match m.action with
  | .receive (.configured v) => some v
  | _ => none

/-- The settings documents that moves take in. -/
def configurations (log : List Move) : List Json := log.filterMap Move.configuration?

theorem settings_configure {s t : Server} (h : s.settings = t.settings) (v : Json) :
    (s.configure v).settings = (t.configure v).settings := by
  by_cases hv : ∃ d, Asks v (some d)
  · obtain ⟨d, hd⟩ := hv
    rw [configure_of_asks hd, configure_of_asks hd]
  · rw [not_exists] at hv
    rw [configure_of_not_asks hv, configure_of_not_asks hv, h]

theorem settings_next (m : Move) :
    m.next.settings = ((m.configuration?.toList).foldl Server.configure m.server).settings := by
  obtain ⟨s, e | t⟩ := m
  · cases e with
    | changed uri version texts =>
      simp only [Move.next, Server.handle]
      cases texts.getLast? <;> rfl
    | prepareRename uri c =>
      simp only [Move.next, Server.handle]
      split <;> rfl
    | rename uri c newName =>
      simp only [Move.next, Server.handle]
      split <;> rfl
    | _ => rfl
  · rfl

/-- **Nothing but settings documents changes the settings.** -/
theorem Session.settings_eq {log : List Move} {s : Server} (h : Session log s) :
    s.settings = ((configurations log).foldl Server.configure {}).settings := by
  have hmove : ∀ (log : List Move) (m : Move),
      m.server.settings = ((configurations log).foldl Server.configure {}).settings →
        m.next.settings = ((configurations (log ++ [m])).foldl Server.configure {}).settings := by
    intro log m hm
    rw [settings_next, configurations, filterMap_concat, List.foldl_append]
    cases m.configuration? with
    | none => exact hm
    | some v => exact settings_configure hm v
  induction h with
  | start => rfl
  | receive _ e ih => exact hmove _ ⟨_, .receive e⟩ ih
  | fire _ _ ih => exact hmove _ ⟨_, .fire _⟩ ih

end EntitySchema.Editor
