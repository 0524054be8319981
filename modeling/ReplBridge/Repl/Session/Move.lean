import ReplBridge.Repl.Session.Basic

/-!
**What the parties of a session do on their own.**

Between two events from outside, the worker, the pump, the stderr reader and the clients each do
what they can until none of them can do anything: the session *settles*.  One such act is a
*move*.  Where several parties could act, the end of the session is announced first, then the worker
acts, then those who read, then the clients; a party that waits for several things takes the end of
the session, once it was announced, before a frame, and a frame before the end of the subprocess.

A move always uses something up (a chunk, a frame, a queued call, a stage of a client), so
settling ends; `Session.work` counts what is left.

Main definitions:

* `Session.announce?` — the end of the session is announced;
* `Session.workerMove?`, `Session.pumpMove?`, `Session.complaintsMove?`, `Session.clientMove?` —
  the next act of each party;
* `Session.move?` — the next act of any;
* `Session.work`, `Session.settle` — a bound on the number of moves, and all of them.
-/

set_option autoImplicit false

namespace ReplBridge.Repl

/-! ### Complaints -/

/-- One byte of standard error: a line feed ends the line, carriage returns are dropped. -/
def Complaints.push (c : Complaints) (b : UInt8) : Complaints × List Bytes :=
  if b == Bytes.newline then
    ({ c with line := [] }, if c.line.isEmpty then [] else [c.line.reverse])
  else if b == Bytes.carriageReturn then (c, [])
  else ({ c with line := b :: c.line }, [])

/-- One chunk of standard error, and the lines it ends. -/
def Complaints.read (c : Complaints) (chunk : Bytes) : Complaints × List Bytes :=
  let (sanitizer, shown) := c.sanitizer.write chunk
  shown.foldl (fun (c, out) b =>
    let (c, more) := c.push b
    (c, out ++ more)) ({ c with sanitizer }, [])

/-! ### What each party has left to do -/

/-- The sum of numbers. -/
def total (ns : List Nat) : Nat := ns.foldr (· + ·) 0

/-- How far the worker is from stopping. -/
def Worker.rank : Worker → Nat
  | .off => 0
  | .awaiting _ _ => 1
  | .idle => 2
  | .greeting => 3

/-- What the pump has left to do, apart from what it will read. -/
def Pump.rank : Pump → Nat
  | .reading sanitizer _ offered => 4 * sanitizer.held.length + 3 * offered.length + 2
  | .drained _ => 1
  | .finished _ _ => 0

/-- How many stages a client still has before it. -/
def Client.rank : Client → Nat
  | .quitting _ _ => 2
  | .shutting => 2
  | .leaving | .executing _ _ | .releasing _ _ | .reaping _ | .closing _ => 1
  | .executed _ | .hasQuit _ | .hasClosed _ => 0

namespace Session

/-! ### The end -/

/-- The end of the session is announced, once. -/
def announce? (s : Session) : Option Session :=
  match s.reason?, s.done with
  | some _, false => some { s with done := true }
  | _, _ => none

/-! ### The worker -/

def stop (s : Session) : Session := { s with worker := .off }

def recordFrame (s : Session) (seq : Nat) (text : Bytes) : Session :=
  s.emit (.recorded .output seq text)

/-- The frame the pump offers next. -/
def offered? (s : Session) : Option Bytes :=
  match s.pump with
  | .reading _ _ (frame :: _) => some frame
  | _ => none

/-- The offered frame is taken. -/
def dropOffer (s : Session) : Session :=
  match s.pump with
  | .reading sanitizer framer (_ :: rest) => { s with pump := .reading sanitizer framer rest }
  | _ => s

/-- The text before the first prompt makes the session ready, unless it is over. -/
def greet (s : Session) (banner : Bytes) : Session :=
  let s := s.dropOffer.recordFrame 0 banner
  match s.state with
  | .starting => { s with state := .ready, worker := .idle }.emit (.became .ready)
  | _ => s.stop

/-- Writes the next call in the queue, or skips it if it was given up. -/
def dispatch (s : Session) (call : Nat) (rest : List Nat) : Session :=
  match s.calls[call]? with
  | none => { s with queue := rest }
  | some c =>
    let s := { s with queue := rest }
    if c.abandoned then s.finish call (.failed (.plain .canceled))
    else
      let s := s.emit (.recorded .input c.seq c.command)
      match s.writeFailure? with
      | none =>
        { s.emit (.wrote c.seq (c.command ++ [Bytes.newline])) with
          worker := .awaiting call (s.options.timeLimit.map (s.now + ·)) }
      | some cause =>
        (((s.finish call (.failed (.ofTermination (.write cause)))).terminate (.write cause)).kill).stop

/-- A frame answers a call; the answer to the last command ends the session. -/
def answer (s : Session) (call : Nat) (frame : Bytes) : Session :=
  match s.calls[call]? with
  | none => s.dropOffer.stop
  | some c =>
    let s := s.dropOffer.recordFrame c.seq frame
    if c.last then
      ((s.terminate (.plain .quit)).finish call (.answered (classify frame))).stop
    else { s.finish call (.answered (classify frame)) with worker := .idle }

/-- The subprocess is gone while a call waits for its frame.  The last command is answered by what
was printed since the last frame. -/
def lose (s : Session) (call : Nat) (tail : Bytes) (status : Option Failure) : Session :=
  match s.calls[call]? with
  | none => s.stop
  | some c =>
    if c.last then
      (((s.recordFrame c.seq tail).terminate (.plain .quit)).finish call
        (.answered (classify tail))).stop
    else
      ((s.finish call (.failed (.ofTermination (.ofExit status)))).terminate (.ofExit status)).stop

/-- What the worker does next. -/
def workerMove? (s : Session) : Option Session :=
  match s.worker with
  | .off => none
  | .greeting =>
    match s.announced?, s.offered?, s.pump with
    | some _, _, _ => some s.stop
    | none, some banner, _ => some (s.greet banner)
    | none, none, .finished _ status => some (s.terminate (.ofExit status)).stop
    | none, none, _ => none
  | .idle =>
    match s.queue, s.announced?, s.pump with
    | call :: rest, _, _ => some (s.dispatch call rest)
    | [], some _, _ => some s.stop
    | [], none, .finished _ status => some (s.terminate (.ofExit status)).stop
    | [], none, _ => none
  | .awaiting call _ =>
    match s.announced?, s.offered?, s.pump with
    | some reason, _, _ => some (s.finish call (.failed (.ofTermination reason))).stop
    | none, some frame, _ => some (s.answer call frame)
    | none, none, .finished tail status => some (s.lose call tail status)
    | none, none, _ => none

/-! ### Those who read -/

/-- What the pump does next.  It offers a frame until the worker takes it or the end of the session
was announced, and only then reads on. -/
def pumpMove? (s : Session) : Option Session :=
  match s.launched, s.pump with
  | none, _ => none
  | some _, .reading sanitizer framer (_ :: _) =>
    match s.announced? with
    | some _ => some { s with pump := .reading sanitizer framer [] }
    | none => none
  | some _, .reading sanitizer framer [] =>
    match s.child.stdout with
    | chunk :: rest =>
      let (sanitizer, shown) := sanitizer.write chunk
      let (framer, frames) := framer.feed shown
      some { s with
        child := { s.child with stdout := rest }
        pump := .reading sanitizer framer frames }
    | [] =>
      if s.child.stdoutEnded then
        some { s with pump := .drained (framer.feed sanitizer.flush).1.pending }
      else none
  | some _, .drained tail =>
    match s.complaints.ended, s.child.exit with
    | true, some status => some { s with pump := .finished tail status }
    | _, _ => none
  | some _, .finished _ _ => none

/-- What the stderr reader does next. -/
def complaintsMove? (s : Session) : Option Session :=
  match s.launched, s.complaints.ended, s.child.stderr, s.child.exit with
  | some _, false, chunk :: rest, _ =>
    let (complaints, lines) := s.complaints.read chunk
    some { s with
      child := { s.child with stderr := rest }
      complaints
      log := s.log ++ lines.map .complained }
  | some _, false, [], some _ =>
    let line := s.complaints.line.reverse
    some { s with
      complaints := { s.complaints with ended := true, line := [] }
      log := s.log ++ if line.isEmpty then [] else [.complained line] }
  | _, _, _, _ => none

/-! ### The clients -/

/-- A quit has its result and lets the subprocess go: its input is closed, and it is given some
time to leave. -/
def release (s : Session) (result : Option Failure) : Session × Client :=
  match s.launched with
  | none => (s.terminate (.plain .quit), .hasQuit result)
  | some _ => (s.closeStdin, .releasing result (s.now + s.options.grace))

/-- A close has ended the session and lets the subprocess go: its input is closed, and it is
killed. -/
def shut (s : Session) : Session × Client :=
  match s.launched with
  | none => (s, .hasClosed none)
  | some _ =>
    let s := s.closeStdin
    (s.kill, .closing s.killFailure)

/-- Whether the subprocess is known to be gone. -/
def childGone (s : Session) : Bool :=
  match s.pump with
  | .finished _ _ => true
  | _ => false

/-- What a client does next: the session and the client after it. -/
def clientStep? (s : Session) : Client → Option (Session × Client)
  | .executing call _ => (s.outcome? call).map fun o => (s, .executed o)
  | .leaving => some (s.terminate (.plain .quit), .hasQuit none)
  | .quitting call _ => (s.outcome? call).map fun o => s.release o.failure?
  | .releasing result _ =>
    if s.childGone then some (s.terminate (.plain .quit), .hasQuit result) else none
  | .reaping result =>
    if s.childGone then some (s.terminate (.plain .quit), .hasQuit result) else none
  | .shutting => some s.shut
  | .closing result => if s.childGone then some (s, .hasClosed result) else none
  | .executed _ => none
  | .hasQuit _ => none
  | .hasClosed _ => none

/-- What the first client that can act does next; `before` are the clients passed over, last
first. -/
def clientMoveFrom? (s : Session) (before : List Client) : List Client → Option Session
  | [] => none
  | c :: rest =>
    match s.clientStep? c with
    | some (s', c') => some { s' with clients := before.reverse ++ c' :: rest }
    | none => clientMoveFrom? s (c :: before) rest

/-- What the clients do next. -/
def clientMove? (s : Session) : Option Session := s.clientMoveFrom? [] s.clients

/-! ### Settling -/

/-- **What happens next by itself**, if anything does. -/
def move? (s : Session) : Option Session :=
  match s.announce? with
  | some s' => some s'
  | none =>
    match s.workerMove? with
    | some s' => some s'
    | none =>
      match s.pumpMove? with
      | some s' => some s'
      | none =>
        match s.complaintsMove? with
        | some s' => some s'
        | none => s.clientMove?

/-- A bound on the number of moves before the session is at rest. -/
def work (s : Session) : Nat :=
  total (s.child.stdout.map fun c => 4 * (c.length + 1)) + s.pump.rank + 4 * s.queue.length
    + s.worker.rank + s.child.stderr.length + (if s.complaints.ended then 0 else 1)
    + total (s.clients.map Client.rank) + (if s.done then 0 else 1)

/-- At most so many moves. -/
def settleWithin : Nat → Session → Session
  | 0, s => s
  | fuel + 1, s =>
    match s.move? with
    | some s' => settleWithin fuel s'
    | none => s

/-- **Everything that happens by itself**, until nothing more does. -/
def settle (s : Session) : Session := settleWithin s.work s

end Session

end ReplBridge.Repl
