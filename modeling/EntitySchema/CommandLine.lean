import EntitySchema.Schema.Json
import EntitySchema.Schema.Warning

/-!
# The command line

* `Command.ofArguments` — the command that the arguments ask for.
* `Command.run` — what a command prints, given the contents of its file.
-/

namespace EntitySchema

/-- What is done with a file. -/
inductive Action where
  | lex
  | parse
  | check
  | symbols
  deriving DecidableEq, Repr

/-- What the arguments ask for. -/
inductive Command where
  | help
  | onFile (action : Action) (path : String)
  deriving DecidableEq, Repr

/-- Why a command fails before it prints anything. -/
inductive CommandError where
  | missingFile
  | unknownCommand (name : String)
  | invalidPath (path : String)
  | notText
  deriving DecidableEq, Repr

/-- The text of a command error. -/
def CommandError.message : CommandError → String
  | missingFile => "missing <file> argument"
  | unknownCommand name => "unknown command '" ++ name ++ "' (see `aml --help`)"
  | invalidPath path => "Invalid path: " ++ path
  | notText => "IO error: stream did not contain valid UTF-8"

/-- What a run leaves behind: the exit code and the two output streams. -/
structure Outcome where
  code : Nat
  stdout : String
  stderr : String
  deriving DecidableEq, Repr

/-- The outcome of a failed command. -/
def CommandError.outcome (e : CommandError) : Outcome := ⟨1, "", e.message ++ "\n"⟩

/-- The help text. -/
def helpText : String :=
  "aml - AML-lite schema tools

Usage:
  aml lex <file>       print the token stream as JSON
  aml parse <file>     print the syntax tree as JSON
  aml check <file>     report syntax errors and schema warnings
  aml symbols <file>   print the entity/attribute outline as JSON
"

/-- The action of a name. -/
def Action.ofName? : String → Option Action
  | "lex" => some lex
  | "parse" => some parse
  | "check" => some check
  | "symbols" => some symbols
  | _ => none

namespace Command

/-- The command that the arguments ask for; arguments behind the file are ignored. -/
def ofArguments : List String → Except CommandError Command
  | [] | "-h" :: _ | "--help" :: _ => .ok help
  | name :: rest =>
    match Action.ofName? name, rest with
    | none, _ => .error (.unknownCommand name)
    | some _, [] => .error .missingFile
    | some action, path :: _ => .ok (onFile action path)

end Command

/-- Prints `stdout`, and a report of the diagnostics; the run fails if one of them is an error. -/
def Outcome.report (stdout path : String) (ds : List Diagnostic) : Outcome where
  code := if Diagnostic.haveErrors ds then 1 else 0
  stdout := stdout
  stderr :=
    let rendered := Diagnostic.renderAll path ds
    if rendered.isEmpty then "" else rendered ++ "\n"

/-- What an action prints for the document `text` in the file `path`. -/
def Action.run (path text : String) : Action → Outcome
  | lex =>
    let listing := Listing.ofText path text
    .report (listing.toJson.pretty ++ "\n") path listing.lexed.errors
  | parse =>
    let parsed := EntitySchema.parse text
    .report (parsed.toJson.pretty ++ "\n") path parsed.errors
  | check => .report "" path (EntitySchema.parse text).diagnostics
  | symbols =>
    let outline := (EntitySchema.parse text).schema.outline
    ⟨0, (Json.list OutlineEntry.toJson outline).pretty ++ "\n", ""⟩

/-- The outcome of a command. Here `read path` is the contents of the file `path`, and `none` if
there is no regular file of that name. -/
def Command.run (read : String → Option ByteArray) : Command → Outcome
  | help => ⟨0, helpText, ""⟩
  | onFile action path =>
    match read path with
    | none => (CommandError.invalidPath path).outcome
    | some bytes =>
      match String.fromUTF8? bytes with
      | none => CommandError.notText.outcome
      | some text => action.run path text

/-- The outcome of a run with the given arguments. -/
def runCommandLine (read : String → Option ByteArray) (arguments : List String) : Outcome :=
  match Command.ofArguments arguments with
  | .error e => e.outcome
  | .ok command => command.run read

end EntitySchema
