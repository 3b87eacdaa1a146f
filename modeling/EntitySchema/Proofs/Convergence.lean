import EntitySchema.Proofs.Session

/-!
# Published diagnostics converge

What the server published last about a document is right as soon as no timer of the document is
pending, in whatever order events came and timers fired, and whatever versions the documents had.

* `report` — what ought to be published about a document.
* `receive_cases`, `fire_cases`: what a move publishes about a document and does to it.
* `stored_of_reported`: what is published with a version is about the text stored with it.
* `Owes` — a timer is pending that will publish the document as it is.
* `reported_or_owes`: the last publication is right, or one is owed.
* **`publications_converge`**: once no timer is pending, the last publication is right.
-/

namespace EntitySchema.Editor

/-- What ought to be published about the document `uri`: its diagnostics with its version, or nothing
at all if it is closed. -/
def report (uri : String) : Option Document → Option Int × List Diagnostic
  | none => (none, [])
  | some d => (some d.version, diagnosticsOf uri d.text)

/-! ## What a move publishes -/

section Moves

variable {uri : String}

theorem reports_ofRename {α : Type} (answer : α → Response) (r : Except Refusal α) :
    (Reply.ofRename answer r).messages.filterMap (Message.report? uri) = [] := by
  cases r <;> rfl

/-- An event leaves a document alone, publishes it at once, or starts a timer for it. -/
theorem receive_cases (s : Server) (e : Event) (uri : String) :
    (e.update? uri = none ∧ Move.reports uri ⟨s, .receive e⟩ = []) ∨
      (∃ d, e.update? uri = some d ∧ Move.reports uri ⟨s, .receive e⟩ = [report uri d]) ∨
      ∃ d t, e.update? uri = some (some d) ∧ Move.reports uri ⟨s, .receive e⟩ = [] ∧
        s.timerOf? e = some t ∧ t.uri = uri ∧ t.version = d.version := by
  unfold Move.reports Move.messages
  cases e with
  | opened u version text =>
    by_cases hu : u = uri
    · subst hu
      refine .inr (.inl ⟨some ⟨text, version⟩, if_pos rfl, ?_⟩)
      simp [Server.handle, Server.publication, Message.report?, report]
    · refine .inl ⟨if_neg hu, ?_⟩
      simp [Server.handle, Server.publication, Message.report?, hu]
  | changed u version texts =>
    cases htext : texts.getLast? with
    | none => exact .inl (by simp [Event.update?, Server.handle, htext])
    | some text =>
      by_cases hu : u = uri
      · refine .inr (.inr ⟨⟨text, version⟩, ⟨u, version, s.clock + s.settings.debounce⟩, ?_⟩)
        simp [Event.update?, Server.timerOf?, Server.handle, htext, hu]
      · exact .inl (by simp [Event.update?, Server.handle, htext, hu])
  | closed u =>
    by_cases hu : u = uri
    · subst hu
      refine .inr (.inl ⟨none, if_pos rfl, ?_⟩)
      simp [Server.handle, Message.report?, report]
    · refine .inl ⟨if_neg hu, ?_⟩
      simp [Server.handle, Message.report?, hu]
  | configured v =>
    refine .inl ⟨rfl, ?_⟩
    simp only [Server.handle]
    split <;> rfl
  | prepareRename u c =>
    refine .inl ⟨rfl, ?_⟩
    simp only [Server.handle]
    split
    · rfl
    · exact reports_ofRename _ _
  | rename u c newName =>
    refine .inl ⟨rfl, ?_⟩
    simp only [Server.handle]
    split
    · rfl
    · exact reports_ofRename _ _
  | _ => exact .inl ⟨rfl, rfl⟩

theorem fire_cases (s : Server) (t : Timer) (uri : String) :
    (Move.reports uri ⟨s, .fire t⟩ = [] ∧
        (t.uri = uri → ∀ d, s.documents[uri]? = some d → d.version ≠ t.version)) ∨
      ∃ d, t.uri = uri ∧ s.documents[uri]? = some d ∧ d.version = t.version ∧
        Move.reports uri ⟨s, .fire t⟩ = [report uri (some d)] := by
  by_cases h : ∃ d, s.documents[t.uri]? = some d ∧ d.version = t.version
  · obtain ⟨d, hd, hv⟩ := h
    have hsent : Move.messages ⟨s, .fire t⟩ = [Server.publication t.uri d] := messages_fire hd hv
    rw [Move.reports, hsent]
    by_cases hu : t.uri = uri
    · subst hu
      refine .inr ⟨d, rfl, hd, hv, ?_⟩
      simp [Server.publication, Message.report?, report]
    · refine .inl ⟨?_, fun h => absurd h hu⟩
      simp [Server.publication, Message.report?, hu]
  · have hnot : ∀ d, s.documents[t.uri]? = some d → d.version ≠ t.version :=
      fun d hd hv => h ⟨d, hd, hv⟩
    have hsent : Move.messages ⟨s, .fire t⟩ = [] := messages_fire_eq_nil hnot
    rw [Move.reports, hsent]
    refine .inl ⟨rfl, ?_⟩
    rintro rfl
    exact hnot

theorem stored_of_reported {m : Move} {v : Int} {ds : List Diagnostic}
    (h : Message.diagnostics uri (some v) ds ∈ m.messages) :
    ∃ text, m.next.documents[uri]? = some ⟨text, v⟩ ∧ ds = diagnosticsOf uri text := by
  have hreport : (some v, ds) ∈ m.reports uri :=
    List.mem_filterMap.2 ⟨_, h, if_pos rfl⟩
  rw [documents_next]
  obtain ⟨s, e | t⟩ := m
  · rcases receive_cases s e uri with ⟨-, hnil⟩ | ⟨d, hd, hone⟩ | ⟨d, t, -, hnil, -⟩
    · rw [hnil] at hreport
      cases hreport
    · rw [hone, List.mem_singleton] at hreport
      cases d with
      | none => cases hreport
      | some d =>
        cases hreport
        have hupdate : Move.update? uri ⟨s, .receive e⟩ = some (some d) := hd
        rw [hupdate]
        exact ⟨d.text, rfl, rfl⟩
    · rw [hnil] at hreport
      cases hreport
  · rcases fire_cases s t uri with ⟨hnil, -⟩ | ⟨d, -, hd, -, hone⟩
    · rw [hnil] at hreport
      cases hreport
    · rw [hone, List.mem_singleton] at hreport
      cases hreport
      exact ⟨d.text, hd, rfl⟩

end Moves

/-! ## Publications that are owed -/

/-- A timer is pending that will publish the document `uri` as it is. -/
def Owes (s : Server) (uri : String) : Prop :=
  ∃ t ∈ s.timers, ∃ d, s.documents[uri]? = some d ∧ t.uri = uri ∧ t.version = d.version

theorem Owes.receive {s : Server} {uri : String} {e : Event} (h : Owes s uri)
    (he : e.update? uri = none) : Owes (s.handle e).1 uri := by
  obtain ⟨t, ht, d, hd, hu, hv⟩ := h
  refine ⟨t, ?_, d, ?_, hu, hv⟩
  · rw [timers_handle]
    exact List.mem_append_left _ ht
  · rw [documents_handle, he]
    exact hd

theorem Owes.fire {s : Server} {uri : String} {t : Timer} (h : Owes s uri)
    (ht : t.uri = uri → ∀ d, s.documents[uri]? = some d → d.version ≠ t.version) :
    Owes (s.fire t).1 uri := by
  obtain ⟨t', ht', d, hd, hu, hv⟩ := h
  have hne : t' ≠ t := by
    rintro rfl
    exact ht hu d hd hv.symm
  exact ⟨t', (List.mem_erase_of_ne hne).2 ht', d, hd, hu, hv⟩

/-- **What was published last is right, or a timer is pending that will make it right.** -/
theorem reported_or_owes {log : List Move} {s : Server} (h : Session log s) (uri : String) :
    (reports uri log).getLast? = (updates uri log).getLast?.map (report uri) ∨ Owes s uri := by
  -- a move that touches the document settles it or starts a timer; every other move keeps both
  induction h with
  | start => exact .inl rfl
  | @receive log s hlog e ih =>
    rw [updates_concat, reports_concat]
    show (reports uri log ++ _).getLast? =
        (updates uri log ++ (e.update? uri).toList).getLast?.map (report uri) ∨ _
    rcases receive_cases s e uri with ⟨hd, hnil⟩ | ⟨d, hd, hone⟩ | ⟨d, t, hd, hnil, ht, hu, hv⟩
    · rw [hd, hnil, Option.toList_none, List.append_nil, List.append_nil]
      exact ih.imp_right fun howes => howes.receive hd
    · rw [hd, hone]
      exact .inl (by simp)
    · refine .inr ⟨t, ?_, d, ?_, hu, hv⟩
      · rw [timers_handle, ht]
        exact List.mem_append_right _ List.mem_cons_self
      · rw [documents_handle, hd]
        rfl
  | @fire log s t hlog ht ih =>
    have hupdates : updates uri (log ++ [⟨s, .fire t⟩]) = updates uri log := by
      rw [updates_concat]
      exact List.append_nil _
    rw [hupdates, reports_concat]
    rcases fire_cases s t uri with ⟨hnil, hnot⟩ | ⟨d, -, hd, -, hone⟩
    · rw [hnil, List.append_nil]
      exact ih.imp_right fun howes => howes.fire hnot
    · have hlatest := hlog.documents_eq uri
      rw [hd] at hlatest
      rw [hone, List.getLast?_concat, Option.join_eq_some_iff.1 hlatest.symm]
      exact .inl rfl

/-- **Once no timer of a document is pending, what was published last about it is right.** -/
theorem publications_converge {log : List Move} {s : Server} (h : Session log s) :
    (∀ m ∈ log, ∀ uri v ds, Message.diagnostics uri (some v) ds ∈ m.messages →
      ∃ text, m.next.documents[uri]? = some ⟨text, v⟩ ∧ ds = diagnosticsOf uri text) ∧
    ∀ uri, (∀ t ∈ s.timers, t.uri ≠ uri) →
      (reports uri log).getLast? = (updates uri log).getLast?.map (report uri) := by
  refine ⟨fun m _ uri v ds hmem => stored_of_reported hmem, ?_⟩
  intro uri hpending
  rcases reported_or_owes h uri with hright | ⟨t, ht, d, -, hu, -⟩
  · exact hright
  · exact absurd hu (hpending t ht)

/-- A document is closed and opened again with its old versions, before both timers fire. -/
theorem publications_converge_reopened :
    ∃ log s, Session log s ∧ (∀ t ∈ s.timers, t.uri ≠ "a") ∧
      (updates "a" log).getLast? = some (some ⟨"%\n", 2⟩) ∧
      (reports "a" log).getLast? = some (some 2, diagnosticsOf "a" "%\n") := by
  have hfirst := (Session.start.receive (.opened "a" 1 "x\n")).receive (.changed "a" 2 ["y", "z\n"])
  have hsecond := ((hfirst.receive (.closed "a")).receive (.opened "a" 1 "")).receive
    (.changed "a" 2 ["%\n"])
  have hfired := hsecond.fire (t := ⟨"a", 2, 300⟩) (by decide)
  have hsession := hfired.fire (t := ⟨"a", 2, 300⟩) (by decide)
  have hlast := (publications_converge hsession).2 "a" (by decide)
  exact ⟨_, _, hsession, by decide, rfl, hlast⟩

end EntitySchema.Editor
