import EntitySchema.Editor.Feature
import EntitySchema.Editor.Settings
import Std.Data.TreeMap

/-!
# The language server

The server keeps the documents that an editor has open, answers requests about them, and publishes
their diagnostics: at once when a document is opened, and after a delay when it has changed. A
change starts a timer; a timer that fires publishes only if the document still has the version of
that change.

* `Server` — the state of the server, with its clock and its pending timers.
* `Event`, `Response`, `Message` — what reaches the server, what it answers, what it sends unasked.
* `Server.handle` — an event by itself.
* `Server.fire`, `Server.fireDue` — one timer, and all whose time has come.
* `Server.step` — an event, and the timers that are due after it.
-/

namespace EntitySchema.Editor

/-- An open document. -/
structure Document where
  text : String
  version : Int
  deriving DecidableEq, Repr

/-- A pending publication of the diagnostics of a document. -/
structure Timer where
  uri : String
  version : Int
  /-- The time at which the timer fires. -/
  due : Nat
  deriving DecidableEq, Repr

namespace Timer

/-- Timers fire by their time; at one time by the names of their documents, then by version. -/
def before (a b : Timer) : Bool :=
  a.due < b.due ||
    a.due == b.due && (a.uri < b.uri || a.uri == b.uri && decide (a.version ≤ b.version))

end Timer

/-- The state of the server. -/
structure Server where
  documents : Std.TreeMap String Document := ∅
  settings : Settings := {}
  timers : List Timer := []
  /-- The time in milliseconds since the server was started. -/
  clock : Nat := 0

/-- What reaches the server. -/
inductive Event where
  | starting
  | started
  | opened (uri : String) (version : Int) (text : String)
  /-- A change of a document, as the whole texts that it took one after the other. -/
  | changed (uri : String) (version : Int) (texts : List String)
  | closed (uri : String)
  | configured (settings : Json)
  | outline (uri : String)
  | completion (uri : String) (cursor : Cursor)
  | prepareRename (uri : String) (cursor : Cursor)
  | rename (uri : String) (cursor : Cursor) (newName : String)
  | shutdown
  /-- The clock moves on. -/
  | elapsed (milliseconds : Nat)
  deriving Repr

/-- The answer to a request. -/
inductive Response where
  | capabilities
  | outline (entries : List OutlineEntry)
  | suggestions (items : Option (List Suggestion))
  | renameRange (range : Option Range)
  /-- The edits of a document, or nothing if the document is not open. -/
  | renameEdits (uri : String) (edits : Option (List TextEdit))
  | refused (reason : Refusal)
  | done
  deriving DecidableEq, Repr

/-- How important a log message is. -/
inductive LogLevel where
  | warning
  | info
  deriving DecidableEq, Repr

/-- What the server sends unasked. -/
inductive Message where
  /-- The diagnostics of a document, of the version given if there is one. -/
  | diagnostics (uri : String) (version : Option Int) (diagnostics : List Diagnostic)
  | log (level : LogLevel) (text : String)
  deriving DecidableEq, Repr

/-- What an event brings about outside the server. -/
structure Reply where
  response : Option Response := none
  messages : List Message := []
  deriving DecidableEq, Repr

/-- The reply to a rename request: an answer, or a refusal that is logged as well. -/
def Reply.ofRename {α : Type} (answer : α → Response) : Except Refusal α → Reply
  | .ok a => { response := some (answer a) }
  | .error r =>
    { response := some (.refused r)
      messages := [.log .info ("rename refused: " ++ r.message)] }

namespace Server

/-- The text of an open document. -/
def text? (s : Server) (uri : String) : Option String := s.documents[uri]?.map (·.text)

/-- Publishes the diagnostics of a document. -/
def publication (uri : String) (d : Document) : Message :=
  .diagnostics uri (some d.version) (diagnosticsOf uri d.text)

/-- Takes in one event; timers are left alone. -/
def handle (s : Server) : Event → Server × Reply
  | .starting => (s, { response := some .capabilities })
  | .started => (s, { messages := [.log .info "aml-lsp initialized"] })
  | .opened uri version text =>
    let d : Document := ⟨text, version⟩
    ({ s with documents := s.documents.insert uri d }, { messages := [publication uri d] })
  | .changed uri version texts =>
    match texts.getLast? with
    | none => (s, {})
    | some text =>
      ({ s with
          documents := s.documents.insert uri ⟨text, version⟩
          timers := s.timers ++ [⟨uri, version, s.clock + s.settings.debounce⟩] }, {})
  | .closed uri =>
    ({ s with documents := s.documents.erase uri }, { messages := [.diagnostics uri none []] })
  | .configured v =>
    match s.settings.apply v with
    | .ok settings => ({ s with settings }, {})
    | .error e =>
      (s, { messages := [.log .warning ("Failed to parse configuration: " ++ e.message)] })
  | .outline uri => (s, { response := some (.outline ((s.text? uri).map outlineOf |>.getD [])) })
  | .completion uri c =>
    (s, { response := some (.suggestions ((s.text? uri).bind (suggestionsAt · c))) })
  | .prepareRename uri c =>
    match s.text? uri with
    | none => (s, { response := some (.renameRange none) })
    | some text => (s, .ofRename (.renameRange ∘ some) (renameRange text c))
  | .rename uri c newName =>
    match s.text? uri with
    | none => (s, { response := some (.renameEdits uri none) })
    | some text => (s, .ofRename (.renameEdits uri ∘ some) (renameAt text c newName))
  | .shutdown => (s, { response := some .done })
  | .elapsed ms => ({ s with clock := s.clock + ms }, {})

/-- Fires a timer. It publishes if its document is open and has the version of the timer. -/
def fire (s : Server) (t : Timer) : Server × List Message :=
  ({ s with timers := s.timers.erase t },
    match s.documents[t.uri]? with
    | some d => if d.version = t.version then [publication t.uri d] else []
    | none => [])

/-- Fires timers one after the other. -/
def fireAll (s : Server) : List Timer → Server × List Message
  | [] => (s, [])
  | t :: ts =>
    let fired := s.fire t
    let more := fired.1.fireAll ts
    (more.1, fired.2 ++ more.2)

/-- The timers whose time has come, in the order in which they fire. -/
def dueTimers (s : Server) : List Timer :=
  (s.timers.filter (·.due ≤ s.clock)).mergeSort Timer.before

/-- Fires all timers whose time has come. -/
def fireDue (s : Server) : Server × List Message := s.fireAll s.dueTimers

/-- Takes in one event, and fires the timers that are due then. -/
def step (s : Server) (e : Event) : Server × Reply :=
  let handled := s.handle e
  let fired := handled.1.fireDue
  (fired.1, { handled.2 with messages := handled.2.messages ++ fired.2 })

/-- Takes in events one after the other; gives the state and the reply after each. -/
def run (s : Server) : List Event → List (Server × Reply)
  | [] => []
  | e :: es =>
    let next := s.step e
    next :: next.1.run es

end Server

end EntitySchema.Editor
