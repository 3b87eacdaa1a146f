import EntitySchema.Editor.Server
import Mathlib.Data.List.Induction
import Mathlib.Data.List.Perm.Subperm

/-!
# Sessions of the server

A session takes the server from its start through atomic moves: it takes in an event, or one of its
pending timers fires. Moves come in any order; a timer may fire late, and timers of one document
may overtake each other.

* `Move`, `Session` — an atomic step with the state it is taken in, and a sequence of them.
* `Move.update?`, `Move.timer?`, `Move.reports` — what a move does: the text it stores, the timer it
  starts, the diagnostics it publishes.
* `documents_next`, `timers_handle`: these are all changes of the documents, and all new timers.
* **`Session.documents_eq`**: a document is what its latest update made of it.
* **`session_run`**: the server's own schedule, which fires the timers that are due behind each
  event, is a session.
-/

namespace EntitySchema.Editor

open Std

/-- What the server does in one atomic step. -/
inductive Action where
  | receive (e : Event)
  | fire (t : Timer)

/-- An atomic step of the server, and the state it is taken in. -/
structure Move where
  server : Server
  action : Action

namespace Move

/-- The state behind a move. -/
def next (m : Move) : Server :=
  match m.action with
  | .receive e => (m.server.handle e).1
  | .fire t => (m.server.fire t).1

/-- What a move sends. -/
def messages (m : Move) : List Message :=
  match m.action with
  | .receive e => (m.server.handle e).2.messages
  | .fire t => (m.server.fire t).2

end Move

/-- The moves `log`, taken one after the other, bring the server from its start to the state `s`. -/
inductive Session : List Move → Server → Prop
  | start : Session [] {}
  | receive {log : List Move} {s : Server} (h : Session log s) (e : Event) :
      Session (log ++ [⟨s, .receive e⟩]) (s.handle e).1
  | fire {log : List Move} {s : Server} {t : Timer} (h : Session log s) (ht : t ∈ s.timers) :
      Session (log ++ [⟨s, .fire t⟩]) (s.fire t).1

/-- What an event makes of the document `uri`: `some none` if it closes it, and `none` if it leaves
it alone. A change without a text leaves it alone. -/
def Event.update? (uri : String) : Event → Option (Option Document)
  | .opened u version text => if u = uri then some (some ⟨text, version⟩) else none
  | .changed u version texts =>
    if u = uri then texts.getLast?.map fun text => some ⟨text, version⟩ else none
  | .closed u => if u = uri then some none else none
  | _ => none

/-- The timer that an event starts. -/
def Server.timerOf? (s : Server) : Event → Option Timer
  | .changed uri version texts =>
    texts.getLast?.map fun _ => ⟨uri, version, s.clock + s.settings.debounce⟩
  | _ => none

/-- What a message publishes about the document `uri`: a version, and diagnostics. -/
def Message.report? (uri : String) : Message → Option (Option Int × List Diagnostic)
  | .diagnostics u version ds => if u = uri then some (version, ds) else none
  | .log _ _ => none

namespace Move

/-- What a move makes of the document `uri`. -/
def update? (uri : String) (m : Move) : Option (Option Document) :=
  match m.action with
  | .receive e => e.update? uri
  | .fire _ => none

/-- The timer that a move starts. -/
def timer? (m : Move) : Option Timer :=
  match m.action with
  | .receive e => m.server.timerOf? e
  | .fire _ => none

/-- What a move publishes about the document `uri`. -/
def reports (uri : String) (m : Move) : List (Option Int × List Diagnostic) :=
  m.messages.filterMap (Message.report? uri)

end Move

/-- All that moves make of the document `uri`. -/
def updates (uri : String) (log : List Move) : List (Option Document) :=
  log.filterMap (Move.update? uri)

/-- All that moves publish about the document `uri`. -/
def reports (uri : String) (log : List Move) : List (Option Int × List Diagnostic) :=
  log.flatMap (Move.reports uri)

theorem updates_append (uri : String) (log more : List Move) :
    updates uri (log ++ more) = updates uri log ++ updates uri more :=
  List.filterMap_append

theorem filterMap_concat {α β : Type} (f : α → Option β) (xs : List α) (x : α) :
    (xs ++ [x]).filterMap f = xs.filterMap f ++ (f x).toList := by
  rw [List.filterMap_append]
  cases h : f x with
  | none => rw [List.filterMap_cons_none h]; rfl
  | some y => rw [List.filterMap_cons_some h]; rfl

theorem updates_concat (uri : String) (log : List Move) (m : Move) :
    updates uri (log ++ [m]) = updates uri log ++ (m.update? uri).toList :=
  filterMap_concat _ log m

theorem reports_concat (uri : String) (log : List Move) (m : Move) :
    reports uri (log ++ [m]) = reports uri log ++ m.reports uri := by
  rw [reports, List.flatMap_append, List.flatMap_singleton]
  rfl

/-! ## What a move changes -/

theorem getElem?_insert_document (ds : TreeMap String Document) (u uri : String) (d : Document) :
    (ds.insert u d)[uri]? = if u = uri then some d else ds[uri]? := by
  rw [TreeMap.getElem?_insert]
  simp

theorem getElem?_erase_document (ds : TreeMap String Document) (u uri : String) :
    (ds.erase u)[uri]? = if u = uri then none else ds[uri]? := by
  rw [TreeMap.getElem?_erase]
  simp

theorem documents_handle (s : Server) (e : Event) (uri : String) :
    (s.handle e).1.documents[uri]? = (e.update? uri).getD s.documents[uri]? := by
  cases e with
  | opened u version text =>
    rw [Server.handle, Event.update?, getElem?_insert_document]
    split <;> rfl
  | changed u version texts =>
    rw [Server.handle, Event.update?]
    cases texts.getLast? with
    | none =>
      rw [Option.map_none, ite_self]
      rfl
    | some text =>
      rw [getElem?_insert_document]
      split <;> rfl
  | closed u =>
    rw [Server.handle, Event.update?, getElem?_erase_document]
    split <;> rfl
  | configured v =>
    rw [Server.handle]
    split <;> rfl
  | prepareRename u c =>
    rw [Server.handle]
    split <;> rfl
  | rename u c newName =>
    rw [Server.handle]
    split <;> rfl
  | _ => rfl

theorem timers_handle (s : Server) (e : Event) :
    (s.handle e).1.timers = s.timers ++ (s.timerOf? e).toList := by
  have hnone : s.timers = s.timers ++ (none : Option Timer).toList := (List.append_nil _).symm
  cases e with
  | changed u version texts =>
    rw [Server.handle, Server.timerOf?]
    cases texts.getLast? with
    | none => exact hnone
    | some text => rfl
  | configured v =>
    rw [Server.handle]
    split <;> exact hnone
  | prepareRename u c =>
    rw [Server.handle]
    split <;> exact hnone
  | rename u c newName =>
    rw [Server.handle]
    split <;> exact hnone
  | _ => exact hnone

theorem messages_fire {s : Server} {t : Timer} {d : Document} (hd : s.documents[t.uri]? = some d)
    (hv : d.version = t.version) : (s.fire t).2 = [Server.publication t.uri d] := by
  simp only [Server.fire, hd, if_pos hv]

theorem messages_fire_eq_nil {s : Server} {t : Timer}
    (h : ∀ d, s.documents[t.uri]? = some d → d.version ≠ t.version) : (s.fire t).2 = [] := by
  unfold Server.fire
  cases hd : s.documents[t.uri]? with
  | none => rfl
  | some d => exact if_neg (h d hd)

theorem documents_next (m : Move) (uri : String) :
    m.next.documents[uri]? = (m.update? uri).getD m.server.documents[uri]? := by
  obtain ⟨s, e | t⟩ := m
  · exact documents_handle s e uri
  · rfl

/-! ## What a session leaves -/

namespace Session

variable {log more : List Move} {m : Move} {s : Server}

theorem next (h : Session (log ++ [m]) s) : Session log m.server ∧ s = m.next := by
  generalize hall : log ++ [m] = all at h
  cases h with
  | start => exact absurd hall (by simp)
  | receive h e =>
    obtain ⟨rfl, hm⟩ := List.append_inj' hall rfl
    cases hm
    exact ⟨h, rfl⟩
  | fire h ht =>
    obtain ⟨rfl, hm⟩ := List.append_inj' hall rfl
    cases hm
    exact ⟨h, rfl⟩

theorem upTo (h : Session (log ++ m :: more) s) : Session log m.server := by
  induction more using List.reverseRecOn generalizing s with
  | nil => exact h.next.1
  | append_singleton more m' ih =>
    have h' : Session ((log ++ m :: more) ++ [m']) s := by
      rwa [List.append_assoc]
    exact ih h'.next.1

/-- **A document is what its latest update made of it.** -/
theorem documents_eq (h : Session log s) (uri : String) :
    s.documents[uri]? = (updates uri log).getLast?.join := by
  have hmove : ∀ (log : List Move) (m : Move),
      m.server.documents[uri]? = (updates uri log).getLast?.join →
        m.next.documents[uri]? = (updates uri (log ++ [m])).getLast?.join := by
    intro log m hm
    rw [documents_next, hm, updates_concat]
    cases m.update? uri with
    | none => simp
    | some u => simp
  induction h with
  | start => exact TreeMap.getElem?_emptyc
  | receive _ e ih => exact hmove _ ⟨_, .receive e⟩ ih
  | fire _ _ ih => exact hmove _ ⟨_, .fire _⟩ ih

end Session

/-! ## The server's own schedule -/

/-- The moves that fire timers one after the other. -/
def Server.firings (s : Server) : List Timer → List Move
  | [] => []
  | t :: ts => ⟨s, .fire t⟩ :: (s.fire t).1.firings ts

theorem session_fireAll {log : List Move} {s : Server} {ts : List Timer} (h : Session log s)
    (hts : ts.Subperm s.timers) :
    Session (log ++ s.firings ts) (s.fireAll ts).1 ∧
      (s.firings ts).flatMap Move.messages = (s.fireAll ts).2 := by
  induction ts generalizing log s with
  | nil =>
    refine ⟨?_, rfl⟩
    rwa [Server.firings, List.append_nil]
  | cons t ts ih =>
    have ht : t ∈ s.timers := hts.subset List.mem_cons_self
    have hmore : ts.Subperm (s.fire t).1.timers := by
      have herase := hts.erase t
      rwa [List.erase_cons_head] at herase
    obtain ⟨hsession, hmessages⟩ := ih (h.fire ht) hmore
    rw [List.append_assoc, List.singleton_append] at hsession
    refine ⟨hsession, ?_⟩
    rw [Server.firings, List.flatMap_cons, hmessages]
    rfl

theorem dueTimers_subperm (s : Server) : s.dueTimers.Subperm s.timers :=
  (List.mergeSort_perm _ _).subperm.trans List.filter_sublist.subperm

/-- The moves of one step: the event, and the timers that are due behind it. -/
def Server.stepMoves (s : Server) (e : Event) : List Move :=
  ⟨s, .receive e⟩ :: (s.handle e).1.firings (s.handle e).1.dueTimers

theorem session_step {log : List Move} {s : Server} (h : Session log s) (e : Event) :
    Session (log ++ s.stepMoves e) (s.step e).1 ∧
      (s.stepMoves e).flatMap Move.messages = (s.step e).2.messages := by
  have hfired := session_fireAll (h.receive e) (dueTimers_subperm _)
  rw [List.append_assoc, List.singleton_append] at hfired
  refine ⟨hfired.1, ?_⟩
  rw [Server.stepMoves, List.flatMap_cons, hfired.2]
  rfl

/-- **The server's own schedule is a session**, with the messages of all its replies. -/
theorem session_run {log : List Move} {s : Server} (h : Session log s) (es : List Event) :
    ∃ more, Session (log ++ more) (((s.run es).getLast?.map Prod.fst).getD s) ∧
      more.flatMap Move.messages = (s.run es).flatMap (·.2.messages) := by
  induction es generalizing log s with
  | nil => exact ⟨[], by rwa [List.append_nil], rfl⟩
  | cons e es ih =>
    obtain ⟨hstep, hsent⟩ := session_step h e
    obtain ⟨more, hmore, hmessages⟩ := ih hstep
    refine ⟨s.stepMoves e ++ more, ?_, ?_⟩
    · rw [List.append_assoc] at hmore
      have hlast : ((s.run (e :: es)).getLast?.map Prod.fst).getD s =
          ((((s.step e).1.run es).getLast?.map Prod.fst).getD (s.step e).1) := by
        rw [Server.run, List.getLast?_cons]
        cases ((s.step e).1.run es).getLast? <;> rfl
      rwa [hlast]
    · rw [List.flatMap_append, hsent, hmessages, Server.run, List.flatMap_cons]

end EntitySchema.Editor
