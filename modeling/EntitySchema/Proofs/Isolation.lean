import EntitySchema.Proofs.Session

/-!
# Isolation of documents

What the server says in reply to the events of one document depends on these events alone: it is
what a server would say to which nothing else ever happens, no event of another document, no other
settings and no timer.

* `Event.uri?` — the document that an event is about; `Event.isRequest` — the events that ask
  something about a document.
* `events`, `exchanges` — the events of a session about a document, and the replies to them.
* `Server.exchanges` — the replies to events one after the other, with nothing in between.
* `SameDocument` — servers that agree in one document; `reply_eq`, `SameDocument.handle`: they reply
  alike to an event about it, and go on agreeing.
* **`exchanges_eq_alone`**: a session says about a document what its events alone make it say.
* `handle_request`: a request leaves the server as it is.
* **`documents_isolated`**: sessions with the same events about a document have the same exchanges
  about it, and requests change nothing.
-/

namespace EntitySchema.Editor

/-! ## Events about a document -/

/-- The document that an event is about. -/
def Event.uri? : Event → Option String
  | .opened uri _ _ => some uri
  | .changed uri _ _ => some uri
  | .closed uri => some uri
  | .outline uri => some uri
  | .completion uri _ => some uri
  | .prepareRename uri _ => some uri
  | .rename uri _ _ => some uri
  | _ => none

/-- Whether an event asks something about a document. -/
def Event.isRequest : Event → Bool
  | .outline _ | .completion _ _ | .prepareRename _ _ | .rename _ _ _ => true
  | _ => false

/-- The event about the document `uri` that a move takes in. -/
def Move.event? (uri : String) (m : Move) : Option Event :=
  match m.action with
  | .receive e => if e.uri? = some uri then some e else none
  | .fire _ => none

/-- The event about the document `uri` that a move takes in, with the whole reply to it: the answer,
and what is published or logged at once. -/
def Move.exchange? (uri : String) (m : Move) : Option (Event × Reply) :=
  (m.event? uri).map fun e => (e, (m.server.handle e).2)

/-- The events about the document `uri`. -/
def events (uri : String) (log : List Move) : List Event := log.filterMap (Move.event? uri)

/-- The events about the document `uri` with the replies to them. -/
def exchanges (uri : String) (log : List Move) : List (Event × Reply) :=
  log.filterMap (Move.exchange? uri)

theorem events_concat (uri : String) (log : List Move) (m : Move) :
    events uri (log ++ [m]) = events uri log ++ (m.event? uri).toList :=
  filterMap_concat _ log m

theorem exchanges_concat (uri : String) (log : List Move) (m : Move) :
    exchanges uri (log ++ [m]) = exchanges uri log ++ (m.exchange? uri).toList :=
  filterMap_concat _ log m

namespace Server

/-- The server behind events, with nothing in between. -/
def handleAll (s : Server) (es : List Event) : Server := es.foldl (fun s e => (s.handle e).1) s

/-- Events with the replies to them, with nothing in between. -/
def exchanges (s : Server) : List Event → List (Event × Reply)
  | [] => []
  | e :: es => (e, (s.handle e).2) :: (s.handle e).1.exchanges es

theorem handleAll_concat (s : Server) (es : List Event) (e : Event) :
    s.handleAll (es ++ [e]) = ((s.handleAll es).handle e).1 := by
  simp [handleAll]

theorem exchanges_concat (s : Server) (es : List Event) (e : Event) :
    s.exchanges (es ++ [e]) = s.exchanges es ++ [(e, ((s.handleAll es).handle e).2)] := by
  induction es generalizing s with
  | nil => rfl
  | cons e' es ih =>
    rw [List.cons_append, exchanges, ih, exchanges, List.cons_append]
    rfl

end Server

/-! ## Servers that agree in a document -/

section SameDocument

variable {uri : String} {s s' : Server} {e : Event}

/-- The servers `s` and `s'` agree in the document `uri`. -/
def SameDocument (uri : String) (s s' : Server) : Prop := s.documents[uri]? = s'.documents[uri]?

theorem SameDocument.text? (h : SameDocument uri s s') : s.text? uri = s'.text? uri :=
  congrArg (Option.map Document.text) h

theorem reply_eq (h : SameDocument uri s s') (he : e.uri? = some uri) :
    (s.handle e).2 = (s'.handle e).2 := by
  have htext := h.text?
  cases e with
  | changed u version texts =>
    simp only [Server.handle]
    cases texts.getLast? <;> rfl
  | outline u =>
    cases he
    simp only [Server.handle, htext]
  | completion u c =>
    cases he
    simp only [Server.handle, htext]
  | prepareRename u c =>
    cases he
    simp only [Server.handle, htext]
    cases s'.text? uri <;> rfl
  | rename u c newName =>
    cases he
    simp only [Server.handle, htext]
    cases s'.text? uri <;> rfl
  | opened u version text => rfl
  | closed u => rfl
  | _ => cases he

theorem SameDocument.handle (h : SameDocument uri s s') (e : Event) :
    SameDocument uri (s.handle e).1 (s'.handle e).1 := by
  unfold SameDocument at h ⊢
  rw [documents_handle, documents_handle, h]

theorem update?_eq_none (he : e.uri? ≠ some uri) : e.update? uri = none := by
  cases e with
  | opened u version text => exact if_neg fun hu => he (congrArg some hu)
  | changed u version texts => exact if_neg fun hu => he (congrArg some hu)
  | closed u => exact if_neg fun hu => he (congrArg some hu)
  | _ => rfl

theorem sameDocument_handle_other (he : e.uri? ≠ some uri) : SameDocument uri (s.handle e).1 s := by
  unfold SameDocument
  rw [documents_handle, update?_eq_none he]
  rfl

end SameDocument

/-- **A session says about a document what its events alone make it say**, and keeps the document
that these events alone make. -/
theorem exchanges_eq_alone {log : List Move} {s : Server} (h : Session log s) (uri : String) :
    SameDocument uri s (Server.handleAll {} (events uri log)) ∧
      exchanges uri log = Server.exchanges {} (events uri log) := by
  -- the lone server takes a step exactly where the session takes in an event about the document
  induction h with
  | start => exact ⟨rfl, rfl⟩
  | @receive log s hlog e ih =>
    obtain ⟨hsame, hexchanges⟩ := ih
    rw [events_concat, exchanges_concat]
    by_cases he : e.uri? = some uri
    · have hevent : Move.event? uri ⟨s, .receive e⟩ = some e := if_pos he
      rw [Move.exchange?, hevent, hexchanges]
      show SameDocument uri _ (Server.handleAll {} (events uri log ++ [e])) ∧
        _ ++ [(e, (s.handle e).2)] = Server.exchanges {} (events uri log ++ [e])
      rw [Server.handleAll_concat, Server.exchanges_concat, reply_eq hsame he]
      exact ⟨hsame.handle e, rfl⟩
    · have hevent : Move.event? uri ⟨s, .receive e⟩ = none := if_neg he
      rw [Move.exchange?, hevent, hexchanges, Option.map_none, Option.toList_none,
        Option.toList_none, List.append_nil, List.append_nil]
      exact ⟨(sameDocument_handle_other he).trans hsame, rfl⟩
  | @fire log s t hlog ht ih =>
    have hevent : Move.event? uri ⟨s, .fire t⟩ = none := rfl
    rw [events_concat, exchanges_concat, Move.exchange?, hevent, Option.map_none,
      Option.toList_none, Option.toList_none, List.append_nil, List.append_nil]
    exact ih

/-- A request leaves the server as it is, whether it is answered or refused. -/
theorem handle_request {e : Event} (he : e.isRequest) (s : Server) : (s.handle e).1 = s := by
  cases e with
  | outline uri => rfl
  | completion uri c => rfl
  | prepareRename uri c =>
    rw [Server.handle]
    cases s.text? uri <;> rfl
  | rename uri c newName =>
    rw [Server.handle]
    cases s.text? uri <;> rfl
  | _ => cases he

/-- **Documents are isolated, and requests read only.** -/
theorem documents_isolated {log log' : List Move} {s s' : Server} {uri : String}
    (h : Session log s) (h' : Session log' s') (hevents : events uri log = events uri log') :
    exchanges uri log = exchanges uri log' ∧
      ∀ (server : Server) (e : Event), e.isRequest → (server.handle e).1 = server := by
  refine ⟨?_, fun server e he => handle_request he server⟩
  rw [(exchanges_eq_alone h uri).2, (exchanges_eq_alone h' uri).2, hevents]

/-- A document is opened, changed and outlined, with events about another one or without. -/
theorem documents_isolated_neighbour :
    ∃ log s log' s', Session log s ∧ Session log' s' ∧ log.length = 7 ∧ log'.length = 4 ∧
      events "a" log = events "a" log' ∧ exchanges "a" log = exchanges "a" log' := by
  have hneighbour := (Session.start.receive (.opened "b" 1 "%\n")).receive (.opened "a" 1 "x\n")
  have hchanged := (hneighbour.receive (.configured (.array []))).receive (.changed "a" 2 ["y\n"])
  have hfired := (hchanged.receive (.outline "a")).fire (t := ⟨"a", 2, 300⟩) (by decide)
  have hsession := hfired.receive (.rename "a" ⟨0, 0⟩ "pk")
  have hlone := (((Session.start.receive (.opened "a" 1 "x\n")).receive
    (.changed "a" 2 ["y\n"])).receive (.outline "a")).receive (.rename "a" ⟨0, 0⟩ "pk")
  have hsame := (@documents_isolated _ _ _ _ "a" hsession hlone rfl).1
  exact ⟨_, _, _, _, hsession, hlone, rfl, rfl, rfl, hsame⟩

end EntitySchema.Editor
