import EntitySchema.Proofs.Session

/-!
# Delayed publications

A change of a document starts a timer. The timer knows the change by its version alone, so that it
takes a document which was closed and opened again for the one it was started for, once the versions
have come back to its own.

* `Move.OnTime` — no timer is overdue, and timers fire when their time has come.
* `Move.Advances` — the versions of a document go up as long as it is open.
* `perm_timers`: every timer that was started has fired once or is pending.
* `version_of_between`: versions that go up do not come back, unless the document is closed.
* **`timer_publishes_iff`**: a timer publishes exactly if its document was not touched since the
  change, or if it was opened again and has come back to the version of the change.
* `reopened_timer_publishes`: the second case arises, and a change is then published before its time.
-/

namespace EntitySchema.Editor

/-- The document that an event stores, with its name. -/
def Event.stores? : Event → Option (String × Document)
  | .opened uri version text => some (uri, ⟨text, version⟩)
  | .changed uri version texts => texts.getLast?.map fun text => (uri, ⟨text, version⟩)
  | _ => none

namespace Move

/-- The timer that a move fires. -/
def fired? (m : Move) : Option Timer :=
  match m.action with
  | .receive _ => none
  | .fire t => some t

/-- The document that a move stores, with its name. -/
def stores? (m : Move) : Option (String × Document) :=
  match m.action with
  | .receive e => e.stores?
  | .fire _ => none

/-- No pending timer is overdue behind a move, and a timer fires when its time has come. -/
def OnTime (m : Move) : Prop :=
  (∀ t ∈ m.next.timers, m.next.clock ≤ t.due) ∧ ∀ t ∈ m.fired?, t.due = m.server.clock

instance (m : Move) : Decidable m.OnTime := inferInstanceAs (Decidable (_ ∧ _))

/-- A document that is open gets a higher version. -/
def Advances (m : Move) : Prop :=
  ∀ p ∈ m.stores?, ∀ d ∈ m.server.documents[p.1]?, d.version < p.2.version

instance (m : Move) : Decidable m.Advances :=
  inferInstanceAs (Decidable (∀ p ∈ m.stores?, ∀ d ∈ m.server.documents[p.1]?, _))

theorem stores?_of_update? {m : Move} {uri : String} {d : Document}
    (h : m.update? uri = some (some d)) : m.stores? = some (uri, d) := by
  obtain ⟨s, e | t⟩ := m
  · change e.update? uri = some (some d) at h
    show e.stores? = some (uri, d)
    cases e with
    | opened u version text =>
      rw [Event.update?] at h
      split_ifs at h with hu
      cases h
      rw [Event.stores?, hu]
    | changed u version texts =>
      rw [Event.update?] at h
      split_ifs at h with hu
      obtain ⟨text, htext, hd⟩ := Option.map_eq_some_iff.1 h
      cases hd
      rw [Event.stores?, htext, hu]
      rfl
    | closed u =>
      rw [Event.update?] at h
      split_ifs at h
      cases h
    | _ => cases h
  · cases h

theorem update?_of_timer? {m : Move} {t : Timer} (h : m.timer? = some t) :
    t.due = m.server.clock + m.server.settings.debounce ∧
      ∃ d, m.update? t.uri = some (some d) ∧ d.version = t.version := by
  obtain ⟨s, e | t'⟩ := m
  · change s.timerOf? e = some t at h
    cases e with
    | changed u version texts =>
      obtain ⟨text, htext, rfl⟩ := Option.map_eq_some_iff.1 h
      refine ⟨rfl, ⟨text, version⟩, ?_, rfl⟩
      show Event.update? u (.changed u version texts) = _
      rw [Event.update?, if_pos rfl, htext]
      rfl
    | _ => cases h
  · cases h

end Move

/-- **Every timer that was started has fired once, or is pending.** -/
theorem perm_timers {log : List Move} {s : Server} (h : Session log s) :
    (log.filterMap Move.timer?).Perm (log.filterMap Move.fired? ++ s.timers) := by
  induction h with
  | start => exact .nil
  | @receive log s _ e ih =>
    have hstarted : [(⟨s, .receive e⟩ : Move)].filterMap Move.timer? = (s.timerOf? e).toList := by
      cases ht : s.timerOf? e with
      | none => exact List.filterMap_cons_none ht
      | some t => exact List.filterMap_cons_some ht
    have hfired : [(⟨s, .receive e⟩ : Move)].filterMap Move.fired? = [] := rfl
    rw [List.filterMap_append, List.filterMap_append, hstarted, hfired, List.append_nil,
      timers_handle, ← List.append_assoc]
    exact ih.append_right _
  | @fire log s t _ ht ih =>
    have hstarted : [(⟨s, .fire t⟩ : Move)].filterMap Move.timer? = [] := rfl
    have hfired : [(⟨s, .fire t⟩ : Move)].filterMap Move.fired? = [t] := rfl
    rw [List.filterMap_append, List.filterMap_append, hstarted, hfired, List.append_nil,
      List.append_assoc, List.singleton_append]
    exact ih.trans ((List.perm_cons_erase ht).append_left _)

/-! ## Versions between two moves -/

section Between

variable {log between : List Move} {s : Server} {uri : String} {d : Document}

/-- While a document is open its versions go up: it is as it was, or has a higher version. -/
theorem version_of_between (h : Session (log ++ between) s)
    (hlog : (updates uri log).getLast? = some (some d))
    (hversions : ∀ m ∈ between, m.Advances) (hopen : none ∉ updates uri between) :
    ∃ d', s.documents[uri]? = some d' ∧
      (updates uri between = [] ∧ d' = d ∨ d.version < d'.version) := by
  induction between using List.reverseRecOn generalizing s with
  | nil =>
    rw [List.append_nil] at h
    have hd := h.documents_eq uri
    rw [hlog] at hd
    exact ⟨d, hd, .inl ⟨rfl, rfl⟩⟩
  | append_singleton between m ih =>
    rw [← List.append_assoc] at h
    obtain ⟨hbefore, rfl⟩ := h.next
    rw [updates_concat, List.mem_append, not_or] at hopen
    have hearlier : ∀ m ∈ between, m.Advances :=
      fun m hm => hversions m (List.mem_append_left _ hm)
    obtain ⟨d', hd', hage⟩ := ih hbefore hearlier hopen.1
    rw [documents_next, updates_concat]
    cases hm : m.update? uri with
    | none =>
      rw [Option.toList_none, List.append_nil]
      exact ⟨d', hd', hage⟩
    | some u =>
      cases u with
      | none =>
        rw [hm] at hopen
        exact absurd List.mem_cons_self hopen.2
      | some d'' =>
        have hadvances := hversions m (List.mem_append_right _ List.mem_cons_self)
        have hlt : d'.version < d''.version :=
          hadvances _ (Move.stores?_of_update? hm) d' hd'
        refine ⟨d'', rfl, .inr ?_⟩
        rcases hage with ⟨-, rfl⟩ | hlt'
        · exact hlt
        · exact Int.lt_trans hlt' hlt

end Between

/-! ## When a timer publishes -/

section Firing

variable {s : Server} {t : Timer}

theorem length_messages_fire (s : Server) (t : Timer) : (s.fire t).2.length ≤ 1 := by
  by_cases h : ∃ d, s.documents[t.uri]? = some d ∧ d.version = t.version
  · obtain ⟨d, hd, hv⟩ := h
    rw [messages_fire hd hv]
    exact Nat.le_refl 1
  · rw [messages_fire_eq_nil fun d hd hv => h ⟨d, hd, hv⟩]
    exact Nat.zero_le 1

theorem messages_fire_ne_nil_iff :
    (s.fire t).2 ≠ [] ↔ ∃ d, s.documents[t.uri]? = some d ∧ d.version = t.version := by
  constructor
  · intro h
    by_contra hnot
    exact h (messages_fire_eq_nil fun d hd hv => hnot ⟨d, hd, hv⟩)
  · rintro ⟨d, hd, hv⟩
    rw [messages_fire hd hv]
    exact List.cons_ne_nil _ _

end Firing

/-- **A timer publishes exactly if its document was not touched since its change, or was closed and
has come back to its version.** -/
theorem timer_publishes_iff {log : List Move} {s : Server} (h : Session log s)
    (hmoves : ∀ m ∈ log, m.OnTime ∧ m.Advances) :
    (log.filterMap Move.timer?).Perm (log.filterMap Move.fired? ++ s.timers) ∧
      ∀ before m between s' t after, log = before ++ m :: (between ++ ⟨s', .fire t⟩ :: after) →
        m.timer? = some t →
        s'.clock = m.server.clock + m.server.settings.debounce ∧ (s'.fire t).2.length ≤ 1 ∧
          ((s'.fire t).2 ≠ [] ↔ updates t.uri between = [] ∨
            none ∈ updates t.uri between ∧
              ∃ d, (updates t.uri between).getLast? = some (some d) ∧ d.version = t.version) := by
  refine ⟨perm_timers h, ?_⟩
  rintro before m between s' t after rfl hstart
  obtain ⟨hdue, d, hd, hv⟩ := Move.update?_of_timer? hstart
  have hfire : (⟨s', .fire t⟩ : Move) ∈ before ++ m :: (between ++ ⟨s', .fire t⟩ :: after) := by
    simp
  have hclock : t.due = s'.clock := (hmoves _ hfire).1.2 t rfl
  refine ⟨hclock ▸ hdue, length_messages_fire s' t, ?_⟩
  -- the session up to the firing, cut behind the change
  have hsession : Session ((before ++ [m]) ++ between) s' := by
    have hlog : before ++ m :: (between ++ ⟨s', .fire t⟩ :: after) =
        ((before ++ [m]) ++ between) ++ ⟨s', .fire t⟩ :: after := by simp
    rw [hlog] at h
    exact h.upTo
  have hchange : (updates t.uri (before ++ [m])).getLast? = some (some d) := by
    rw [updates_concat, hd]
    exact List.getLast?_concat
  have hstored := hsession.documents_eq t.uri
  rw [updates_append, List.getLast?_append, hchange] at hstored
  rw [messages_fire_ne_nil_iff, hstored]
  cases hlast : (updates t.uri between).getLast? with
  | none =>
    have hnil : updates t.uri between = [] := List.getLast?_eq_none_iff.1 hlast
    exact iff_of_true ⟨d, rfl, hv⟩ (.inl hnil)
  | some u =>
    have hne : updates t.uri between ≠ [] := by
      intro hnil
      rw [hnil] at hlast
      cases hlast
    rw [hlast] at hstored
    constructor
    · rintro ⟨d', hd', hv'⟩
      obtain rfl : u = some d' := hd'
      refine .inr ⟨?_, d', rfl, hv'⟩
      by_contra hopen
      have hbetween : ∀ x ∈ between, x.Advances := fun x hx => (hmoves x (by simp [hx])).2
      obtain ⟨d'', hd'', hage⟩ := version_of_between hsession hchange hbetween hopen
      obtain rfl : d' = d'' := Option.some.inj (hstored.symm.trans hd'')
      rcases hage with ⟨hnil, -⟩ | hlt
      · exact hne hnil
      · omega
    · rintro (hnil | ⟨-, d', hd', hv'⟩)
      · exact absurd hnil hne
      · cases hd'
        exact ⟨d', rfl, hv'⟩

/-- A document is changed twice within the delay; the timer of the first change publishes nothing. -/
theorem timer_publishes_iff_burst :
    ∃ log s, Session log s ∧ (∀ m ∈ log, m.OnTime ∧ m.Advances) ∧
      ∃ before m between s' after,
        log = before ++ m :: (between ++ ⟨s', .fire ⟨"a", 2, 300⟩⟩ :: after) ∧
        m.timer? = some ⟨"a", 2, 300⟩ ∧ updates "a" between = [some ⟨"y\n", 3⟩] ∧
        s'.clock = m.server.clock + 300 ∧ (s'.fire ⟨"a", 2, 300⟩).2 = [] := by
  have hfirst := (Session.start.receive (.opened "a" 1 "")).receive (.changed "a" 2 ["x\n"])
  have hsecond := ((hfirst.receive (.elapsed 100)).receive (.changed "a" 3 ["y\n"])).receive
    (.elapsed 200)
  have hsession := hsecond.fire (t := ⟨"a", 2, 300⟩) (by decide)
  have hfires := (timer_publishes_iff hsession (by decide)).2 [_]
    ⟨_, .receive (.changed "a" 2 ["x\n"])⟩ [_, _, _] _ ⟨"a", 2, 300⟩ [] rfl rfl
  refine ⟨_, _, hsession, by decide, [_], ⟨_, .receive (.changed "a" 2 ["x\n"])⟩, [_, _, _], _, [],
    rfl, rfl, rfl, hfires.1, ?_⟩
  by_contra hsent
  rcases hfires.2.2.1 hsent with hnil | ⟨hclosed, -⟩
  · exact absurd hnil (by decide)
  · exact absurd hclosed (by decide)

/-- **A timer can outlive its document**, which is opened again and changed to the same version. -/
theorem reopened_timer_publishes :
    ∃ before m between s' t after s,
      Session (before ++ m :: (between ++ ⟨s', .fire t⟩ :: after)) s ∧
        (∀ x ∈ before ++ m :: (between ++ ⟨s', .fire t⟩ :: after), x.OnTime ∧ x.Advances) ∧
        m.timer? = some t ∧ updates t.uri between ≠ [] ∧ (s'.fire t).2 ≠ [] ∧
        ∃ t' ∈ (s'.fire t).1.timers, t'.uri = t.uri ∧ s'.clock + 100 = t'.due := by
  have hfirst := (Session.start.receive (.opened "a" 1 "users\n")).receive
    (.changed "a" 2 ["users\n  id int pk\n"])
  have hreopened := ((hfirst.receive (.elapsed 100)).receive (.closed "a")).receive
    (.opened "a" 1 "users\n")
  have hsecond := (hreopened.receive (.changed "a" 2 ["users\n  id int pk\n  %\n"])).receive
    (.elapsed 200)
  have hsession := hsecond.fire (t := ⟨"a", 2, 300⟩) (by decide)
  exact ⟨[_], ⟨_, .receive (.changed "a" 2 ["users\n  id int pk\n"])⟩, [_, _, _, _, _], _,
    ⟨"a", 2, 300⟩, [], _, hsession, by decide, rfl, by decide, by decide, by decide⟩

end EntitySchema.Editor
