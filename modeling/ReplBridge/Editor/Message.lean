import ReplBridge.Editor.Body
import ReplBridge.Editor.Wire
import ReplBridge.Protocol.Diagnostic

/-!
**What the editor and the server say to each other.**

The editor sends requests.  One with an identifier wants a reply, which carries the identifier
back; one without is a notification.  Replies of the editor's own are of no interest.  The server
sends replies and publications of diagnostics.

Main definitions:

* `Editor.Id`, `Editor.Request`, `Editor.Incoming` — what the editor sends, and
  `Editor.Incoming.read`, how it is read;
* `Editor.Defect` — why a body is no message;
* `Editor.Fault` — why a request is refused;
* `Editor.Outgoing` — what the server sends, and `Editor.Outgoing.json`, how it is written.
-/

set_option autoImplicit false

namespace ReplBridge.Editor

/-! ### From the editor -/

/-- What tells requests apart. -/
inductive Id where
  | number (n : Int)
  | name (s : Bytes)
  deriving DecidableEq, Repr

namespace Id

def json : Id → Json
  | .number n => Json.int n
  | .name s => Json.text s

/-- The identifier a string stands for; the empty one stands for zero. -/
def ofText (s : Bytes) : Id := if s.isEmpty then .number 0 else .name s

end Id

/-- A request of the editor. -/
structure Request where
  /-- Its identifier, if it wants a reply. -/
  id : Option Id := none
  method : Bytes
  params : Option Json := none
  deriving Repr

/-- What the editor sends. -/
inductive Incoming where
  | request (r : Request)
  | response
  deriving Repr

/-- Why a body is no message. -/
inductive Defect where
  | empty
  | unfinished
  | unreadable (complaint : Bytes)
  | neither
  deriving DecidableEq, Repr

/-- **The wording of why a body is no message.** -/
def Defect.message : Defect → Bytes
  | .empty => utf8 "unmarshaling jsonrpc message: EOF"
  | .unfinished => utf8 "unmarshaling jsonrpc message: unexpected EOF"
  | .unreadable complaint => utf8 "unmarshaling jsonrpc message: " ++ complaint
  | .neither => utf8 "JSON-RPC invalid request"

/-! ### Values of the wrong type -/

/-- The wording of a value that does not have the type of its field. -/
def misfit (value place type : Bytes) : Defect :=
  .unreadable (utf8 "json: cannot unmarshal " ++ value ++ utf8 " into Go " ++ place
    ++ utf8 " of type " ++ type)

def misfitText (text : Bytes) : Bytes := Quoted.quote (Body.beginning text)

def messageType : Bytes := utf8 "jsonrpc2.combined"

/-- The type of the error in a reply. -/
def errorType : Bytes := utf8 "jsonrpc2.Error"

/-- A field of a message, as a misfit names it. -/
def fieldPlace (key : Bytes) : Bytes := utf8 "struct field " ++ messageType ++ [0x2E] ++ key

/-- A field of the error in a reply, as a misfit names it. -/
def errorPlace (key inner : Bytes) : Bytes :=
  utf8 "struct field " ++ messageType ++ errorType ++ [0x2E] ++ key ++ [0x2E] ++ inner

/-! ### Reading a message -/

/-- The members of a message that matter. -/
structure Envelope where
  id : Option Id := none
  /-- The method; empty if there is none. -/
  method : Bytes := []
  params : Option Json := none
  deriving Repr

namespace Envelope

/-- One character of a key that has others than those of ASCII, without regard to case.  Case is
changed once, so that a small `s` or `k` goes over to the long s or the Kelvin sign, and these come
back to the letter. -/
def turnCase (c : Char) : Char :=
  if c == 's' then '\u017f'
  else if c == 'k' then '\u212a'
  else if c == '\u017f' then 's'
  else if c == '\u212a' then 'k'
  else c.toLower

/-- A key without regard to case. -/
def foldKey (key : Bytes) : Bytes :=
  if key.all (· < 0x80) then key.map Bytes.lower
  else (Utf8.pieces key).flatMap fun p => Utf8.encode (turnCase p.char)

def names (name : String) (key : Bytes) : Bool := key == utf8 name || foldKey key == utf8 name

/-- Checks the mark of the protocol's version, of which there is one. -/
def checkVersion (m : Body.Member) : Except Defect Unit :=
  let version (s : Bytes) : Except Defect Unit :=
    if s == utf8 "2.0" then .ok () else .error (.unreadable (utf8 "invalid RPC version " ++ s))
  match m.value with
  | .null => version []
  | .string raw => version (Json.unescape raw)
  | _ =>
    .error (.unreadable (utf8 "failed to Unmarshal: json: cannot unmarshal " ++ misfitText m.text
      ++ utf8 " into Go value of type string"))

/-- Reads an identifier: a whole number of 32 bits, or a string. -/
def readId (m : Body.Member) : Except Defect (Option Id) :=
  match m.value with
  | .null => .ok none
  | .string raw => .ok (some (Id.ofText (Json.unescape raw)))
  | _ =>
    match Json.Reads.signed 32 [m.value] with
    | some n => .ok (some (.number n))
    | none => .error (misfit (misfitText m.text) (fieldPlace m.key) (utf8 "string"))

/-- Reads a string over the one there was before. -/
def readText (before place : Bytes) (m : Body.Member) : Except Defect Bytes :=
  match m.value with
  | .null => .ok before
  | .string raw => .ok (Json.unescape raw)
  | _ => .error (misfit (misfitText m.onward) place (utf8 "string"))

/-- The wording of a number that is too large. -/
def tooLarge (text : Bytes) : Bytes := utf8 "number " ++ Body.beginning text ++ utf8 " overflows"

/-- Checks the code of an error: a whole number of 32 bits. -/
def checkCode (place : Bytes) (m : Body.Member) : Except Defect Unit :=
  let wrong (value : Bytes) : Except Defect Unit := .error (misfit value place (utf8 "int32"))
  match m.value with
  | .null => .ok ()
  | .number literal =>
    match Decimal.int? literal with
    | none => wrong (misfitText m.text)
    | some n =>
      if Decimal.fits 32 n then .ok ()
      else wrong (tooLarge (if Decimal.fits 64 n then m.text else m.onward))
  | _ => wrong (misfitText m.onward)

def checkError (m : Body.Member) : Except Defect Unit :=
  match m.value with
  | .null => .ok ()
  | .object _ =>
    (Body.members m.onward).forM fun inner =>
      let place := errorPlace m.key inner.key
      if names "code" inner.key then checkCode place inner
      else if names "message" inner.key then do let _ ← readText [] place inner
      else .ok ()
  | _ => .error (misfit (misfitText m.onward) (fieldPlace m.key) errorType)

/-- Reads a member of a message over what there was before. -/
def readMember (e : Envelope) (m : Body.Member) : Except Defect Envelope :=
  if names "jsonrpc" m.key then do
    checkVersion m
    return e
  else if names "id" m.key then do return { e with id := ← readId m }
  else if names "method" m.key then do
    return { e with method := ← readText e.method (fieldPlace m.key) m }
  else if names "params" m.key then
    return { e with params := if m.value matches .null then none else some m.value }
  else if names "error" m.key then do
    checkError m
    return e
  else return e

/-- Reads the members of a message. -/
def read (value : Json) (text : Bytes) : Except Defect Envelope :=
  match value with
  | .null => .ok {}
  | .object _ => (Body.members text).foldlM readMember {}
  | _ =>
    .error (.unreadable (utf8 "json: cannot unmarshal " ++ misfitText text
      ++ utf8 " into Go value of type " ++ messageType))

end Envelope

/-- **The message of a body.**  One without a method is a reply, and has to have an identifier. -/
def Incoming.read (body : Bytes) : Except Defect Incoming :=
  match Body.first body with
  | .nothing => .error .empty
  | .unfinished => .error .unfinished
  | .bad complaint => .error (.unreadable complaint)
  | .value value text _ => do
    let e ← Envelope.read value text
    if e.method.isEmpty then
      if e.id.isSome then return .response else .error .neither
    else return .request { id := e.id, method := e.method, params := e.params }

/-! ### To the editor -/

/-- Why a request is refused.  With `compilerFailed` the compiler is gone or does not answer, and
`internal` is anything else. -/
inductive Fault where
  | shuttingDown
  | unknownMethod
  | badParams (method : Bytes)
  | canceled (message : Bytes)
  | compilerFailed (message : Bytes)
  | internal (message : Bytes)
  deriving DecidableEq, Repr

namespace Fault

def code : Fault → Int
  | .shuttingDown => -32600
  | .unknownMethod => -32601
  | .badParams _ => -32602
  | .canceled _ => -32800
  | .compilerFailed _ => -32803
  | .internal _ => -32603

/-- The wording of a refusal. -/
def message : Fault → Bytes
  | .shuttingDown => utf8 "server is shutting down"
  | .unknownMethod => utf8 "JSON-RPC method not found"
  | .badParams method => method ++ utf8 ": parameters of the wrong shape"
  | .canceled message => message
  | .compilerFailed message => message
  | .internal message => message

def json (f : Fault) : Json :=
  Json.record [("code", Json.int f.code), ("message", Json.text f.message)]

end Fault

/-- What the server sends: what is now published for a document, or the result or the refusal of a
request. -/
inductive Outgoing where
  | publication (p : Protocol.Publication)
  | result (id : Id) (value : Json)
  | refusal (id : Id) (fault : Fault)
  deriving Repr

namespace Outgoing

/-- The mark of the protocol's version. -/
def version : String × Json := ("jsonrpc", Json.text (utf8 "2.0"))

def json : Outgoing → Json
  | .publication p =>
    Json.record [version, ("method", Json.text (utf8 "textDocument/publishDiagnostics")),
      ("params", p.json)]
  | .result id value => Json.record [version, ("result", value), ("id", id.json)]
  | .refusal id fault => Json.record [version, ("error", fault.json), ("id", id.json)]

/-- A message as it is sent. -/
def bytes (m : Outgoing) : Bytes := Wire.frame (Json.compact m.json)

end Outgoing

end ReplBridge.Editor
