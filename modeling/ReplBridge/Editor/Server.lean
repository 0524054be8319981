import ReplBridge.Document.Store
import ReplBridge.Editor.Message
import ReplBridge.Editor.Question
import ReplBridge.Repl.Failure

/-!
**The server between an editor and the compiler.**

Requests are handled one after the other, each when the one before it is done; the one that asks for
the end is the exception, which takes effect at once.  Handling may need an answer of the compiler,
and then the server waits for it with all later requests in a queue.  Answers may bring
publications, which are kept in a store and sent on before the result is.

The compiler is asked to quit once: by a shutdown, or else when the stream is over.  From a shutdown
on nothing more is asked of it.  When the stream is over, the server is done as soon as the quit is,
which it waits for no longer than its patience lasts.  What was received before is still handled
then, and what is sent still arrives.

Everything is a function of the events so far.  What the server does is written to a log: messages
it sends, commands it gives to the compiler, the quit, and being done.

Main definitions:

* `Editor.Options`, `Editor.Event`, `Editor.Effect` — how a server is set up, what happens to it,
  what it does;
* `Editor.Server`, `Server.step`, `Server.run` — the server, one event, and a list of events.
-/

set_option autoImplicit false

namespace ReplBridge.Editor

open Protocol (Publication)

/-! ### Setting up -/

/-- How a server is set up. -/
structure Options where
  /-- What it calls itself; `defaultName` if empty. -/
  name : Bytes := []
  version : Bytes := []
  /-- How long it waits for the compiler to quit; `defaultPatience` unless positive. -/
  patience : Duration := 0
  /-- The directory that relative paths are relative to. -/
  cwd : Bytes := utf8 "/"
  deriving DecidableEq, Repr

/-- What a server calls itself when nothing is said about it. -/
def defaultName : Bytes := utf8 "carp-lsp"

/-- How long a server waits for the compiler to quit when nothing is said about it. -/
def defaultPatience : Nat := 10000000000

/-- How long a server waits for the compiler to quit. -/
def Options.limit (o : Options) : Nat :=
  if 0 < o.patience then o.patience.toNat else defaultPatience

/-- What a server tells about itself. -/
def Options.introduction (o : Options) : Json :=
  Json.record
    [("capabilities", Json.record
        [("textDocumentSync", Json.record
            [("openClose", .bool true), ("change", Json.nat 1), ("save", Json.record [])]),
          ("completionProvider", Json.record []),
          ("hoverProvider", .bool true),
          ("definitionProvider", .bool true),
          ("documentSymbolProvider", .bool true)]),
      ("serverInfo", Json.record
        ([("name", Json.text (if o.name.isEmpty then defaultName else o.name))]
          ++ Protocol.textMember "version" o.version))]

/-! ### The parts of a server -/

/-- What can happen to a server.  Something arrives, which is a request or no message; the stream is
over; the server is told to stop; nothing that is sent arrives any more; the compiler answers, or
has quit or could not; time passes. -/
inductive Event where
  | request (r : Request)
  | garbage (why : Bytes)
  | ended
  | canceled
  | writesBroken
  | answered (answer : Except Repl.Failure Bytes)
  | hasQuit
  | pass (time : Nat)

/-- What a server does. -/
inductive Effect where
  | sent (m : Outgoing)
  | asked (command : Bytes)
  | askedToQuit
  | done (failed : Bool)
  deriving Repr

/-- A request under way, which waits for the compiler: a question for its answer, a document for its
validation, a shutdown for the quit. -/
inductive Task where
  | question (id : Option Id) (q : Question)
  | validation (id : Option Id) (uri : Bytes)
  | shutdown (id : Option Id)
  deriving DecidableEq, Repr

/-- How far the quit has come.  A compiler that was asked, by a shutdown or not, is waited for up to
a time. -/
inductive Quit where
  | never
  | asked (deadline : Nat) (byShutdown : Bool)
  | finished
  deriving DecidableEq, Repr

/-- Why the stream is over: it ended or the server was told to stop, or something arrived that is no
message. -/
inductive Closing where
  | ended
  | garbage (why : Bytes)
  deriving DecidableEq, Repr

/-- A server. -/
structure Server where
  /-- How it was set up. -/
  options : Options := {}
  store : Document.Store := {}
  /-- Whether a shutdown was handled. -/
  shuttingDown : Bool := false
  /-- The request under way. -/
  task : Option Task := none
  /-- The requests that wait for it, in order. -/
  queue : List Request := []
  quit : Quit := .never
  /-- Why the stream is over, if it is. -/
  closing : Option Closing := none
  /-- Whether the editor asked for the end. -/
  exited : Bool := false
  /-- Whether it was told to stop. -/
  canceled : Bool := false
  /-- Whether what it sends arrives. -/
  heard : Bool := true
  done : Bool := false
  now : Nat := 0
  /-- What it did, in order. -/
  log : List Effect := []
  deriving Repr

namespace Server

/-- A server does something. -/
def emit (s : Server) (e : Effect) : Server := { s with log := s.log ++ [e] }

/-- A server sends a message, unless it is not heard any more. -/
def send (s : Server) (m : Outgoing) : Server := if s.heard then s.emit (.sent m) else s

def publish (s : Server) (pubs : List Publication) : Server :=
  pubs.foldl (fun s p => s.send (.publication p)) s

/-- A server replies with a result, if a reply is wanted. -/
def reply (s : Server) (id : Option Id) (value : Json) : Server :=
  match id with
  | some id => s.send (.result id value)
  | none => s

/-- A server refuses a request, if a reply is wanted. -/
def refuse (s : Server) (id : Option Id) (fault : Fault) : Server :=
  match id with
  | some id => s.send (.refusal id fault)
  | none => s

/-- Replaces what is published, and sends it. -/
def applyAll (s : Server) (pubs : List Publication) (always : List Bytes) : Server :=
  let (store, out) := s.store.apply s.options.cwd pubs always
  { s with store }.publish out

/-! ### The quit -/

/-- Asks the compiler to quit, unless it was asked before. -/
def askToQuit (s : Server) (byShutdown : Bool) : Server :=
  match s.quit with
  | .never => { s with quit := .asked (s.now + s.options.limit) byShutdown }.emit .askedToQuit
  | _ => s

/-- Why a server that is done has failed, if it has: what arrived was no message, the editor had not
asked for the end, and nobody told the server to stop. -/
def failure? (s : Server) : Option Bytes :=
  match s.closing with
  | some (.garbage why) => if s.exited || s.canceled then none else some why
  | _ => none

/-- A server is done once the stream and the quit are over. -/
def finish (s : Server) : Server :=
  if s.closing.isSome && s.quit == .finished && !s.done then
    { s with done := true }.emit (.done s.failure?.isSome)
  else s

/-! ### Requests -/

/-- The document that a notification is about. -/
def documentOf (m : Method) (r : Request) : Option Bytes :=
  (Target.read? m.documentFields r.params).map (·.uri)

/-- A server gives a command to the compiler and waits for the answer. -/
def ask (s : Server) (q : Analysis.Query) (t : Task) : Server :=
  { s with task := some t }.emit (.asked q.command)

/-- **Begins to handle a request**; if it needs the compiler, it stays under way. -/
def start (s : Server) (r : Request) : Server :=
  match Method.ofName r.method with
  | .introduce => s.reply r.id s.options.introduction
  | .initialized | .didChange | .exit => s.reply r.id .null
  | .shutdown =>
    let s := { s with shuttingDown := true }.askToQuit true
    if s.quit == .finished then s.reply r.id .null else { s with task := some (.shutdown r.id) }
  | .ask q =>
    if s.shuttingDown then s.refuse r.id .shuttingDown
    else
      match q.query? r.params with
      | some query => s.ask query (.question r.id q)
      | none => s.refuse r.id (.badParams r.method)
  | .didClose =>
    match documentOf .didClose r with
    | some uri =>
      let (store, out) := s.store.clear (Uri.normalize s.options.cwd uri)
      ({ s with store }.publish [out]).reply r.id .null
    | none => s.refuse r.id (.badParams r.method)
  | .unknown => s.refuse r.id .unknownMethod
  | m =>
    match documentOf m r with
    | some uri =>
      if s.shuttingDown then s.reply r.id .null
      else s.ask (.validate (Uri.toPath uri)) (.validation r.id uri)
    | none => s.refuse r.id (.badParams r.method)

/-- Handles requests in order up to one that stays under way, and queues those behind it. -/
def handle (s : Server) : List Request → Server
  | [] => s
  | r :: rest =>
    if s.task.isSome then { s with queue := s.queue ++ r :: rest } else (s.start r).handle rest

/-- Goes on with the queue when nothing is under way. -/
def goOn (s : Server) : Server := { s with queue := [] }.handle s.queue

/-- How a failure of the compiler is told to the editor. -/
def faultOf (cause : Repl.Failure) : Fault :=
  if cause.wraps .canceled then .canceled cause.message
  else if cause.wraps .terminated || cause.wraps .timeout then .compilerFailed cause.message
  else .internal cause.message

/-- What an answer of the compiler does to the request under way. -/
def conclude (s : Server) : Task → Except Repl.Failure Bytes → Server
  | .question id _, .error cause => s.refuse id (faultOf cause)
  | .question id q, .ok text =>
    let (value, pubs) := q.response s.options.cwd (Repl.classify text)
    (s.applyAll pubs []).reply id value
  | .validation id _, .error _ => s.reply id .null
  | .validation id uri, .ok text =>
    let cwd := s.options.cwd
    let response := Analysis.validation cwd (Repl.classify text)
    (s.applyAll (Analysis.publications response) [Uri.normalize cwd uri]).reply id .null
  | .shutdown id, _ => s.reply id .null

def answered (s : Server) (answer : Except Repl.Failure Bytes) : Server :=
  match s.task with
  | some (.question id q) => ({ s with task := none }.conclude (.question id q) answer).goOn
  | some (.validation id uri) => ({ s with task := none }.conclude (.validation id uri) answer).goOn
  | _ => s

/-- The quit is over; a shutdown that waited for it gets its reply. -/
def quitOver (s : Server) : Server :=
  let s := { s with quit := .finished }
  match s.task with
  | some (.shutdown id) => ({ s with task := none }.reply id .null).goOn
  | _ => s

/-- The stream is over: nothing more is received, and the compiler is asked to quit. -/
def close (s : Server) (why : Closing) : Server :=
  if s.closing.isSome then s else ({ s with closing := some why }.askToQuit false).finish

/-! ### Events -/

def receive (s : Server) (r : Request) : Server :=
  if s.closing.isSome then s
  else if Method.ofName r.method == .exit then { s with exited := true }.reply r.id .null
  else s.handle [r]

/-- The server is told to stop: whatever waits for the compiler on behalf of a request waits no
longer. -/
def cancel (s : Server) : Server :=
  let s := { s with canceled := true, heard := false }
  let s := s.answered (.error (.plain .canceled))
  let s := match s.quit with
    | .asked _ true => s.quitOver
    | _ => s
  (s.close .ended).finish

/-- Time passes; when patience ends, so does the quit. -/
def pass (s : Server) (time : Nat) : Server :=
  let s := { s with now := s.now + time }
  match s.quit with
  | .asked deadline _ => if deadline ≤ s.now then s.quitOver.finish else s
  | _ => s

/-- **One event.** -/
def step (s : Server) : Event → Server
  | .request r => s.receive r
  | .garbage why => s.close (.garbage why)
  | .ended => s.close .ended
  | .canceled => s.cancel
  | .writesBroken => { s with heard := false }
  | .answered answer => s.answered answer
  | .hasQuit =>
    match s.quit with
    | .asked _ _ => s.quitOver.finish
    | _ => s
  | .pass time => s.pass time

/-- **A list of events.** -/
def run (s : Server) (events : List Event) : Server := events.foldl step s

end Server

end ReplBridge.Editor
