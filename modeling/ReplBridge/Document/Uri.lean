import ReplBridge.Document.Path
import ReplBridge.Text.Host

/-!
**Documents and their addresses.**

Editors name documents by addresses, `file:///home/me/a.carp`; the compiler names them by paths.
An address spells a path with all but a few bytes as `%` and two hexadecimal digits.  Reading a
path back from an address follows the syntax of addresses: an authority may stand before the path
and a query after it, and both are passed over.  An address that does not follow the syntax is
taken for a path as it stands.
-/

set_option autoImplicit false

namespace ReplBridge.Uri

/-! ### From paths to addresses -/

/-- The scheme of files, with the slashes after it. -/
def fileScheme : Bytes := utf8 "file://"

/-- Letters, digits and the marks that never need an escape. -/
def isUnreserved (b : UInt8) : Bool :=
  Bytes.isLetter b || Bytes.isDigit b || b == 0x2D || b == 0x5F || b == 0x2E || b == 0x7E

/-- The other bytes that stand for themselves in a path. -/
def isPathMark (b : UInt8) : Bool := (utf8 "$&+,/:;=@").contains b

/-- The hexadecimal digit of a value below 16, in capitals. -/
def hexDigit (n : Nat) : UInt8 :=
  if n < 10 then UInt8.ofNat (0x30 + n) else UInt8.ofNat (0x41 + (n - 10))

/-- How one byte of a path is spelled. -/
def escapeByte (b : UInt8) : Bytes :=
  if isUnreserved b || isPathMark b then [b]
  else [0x25, hexDigit (b.toNat / 16), hexDigit (b.toNat % 16)]

def escape (path : Bytes) : Bytes := path.flatMap escapeByte

/-- **The address of a file**, whose path is seen from a working directory. -/
def ofPath (cwd path : Bytes) : Bytes :=
  fileScheme ++ escape
    (if Path.isDrive path then Path.slash :: path
    else
      let path := Path.absolute cwd path
      if Path.isDrive path then Path.slash :: path else path)

/-! ### From addresses to paths -/

/-- Resolves escapes; `allowed` says which escaped values may stand, and `bare` which bytes may
stand for themselves. -/
def unescapeWith? (allowed bare : UInt8 → Bool) (s : Bytes) : Option Bytes :=
  go [] s
where
  /-- Reads on, the bytes so far last first. -/
  go (acc : Bytes) : Bytes → Option Bytes
    | [] => some acc.reverse
    | [b] => if b == 0x25 || !bare b then none else some (b :: acc).reverse
    | [b, c] => if b == 0x25 || !bare b then none else go (b :: acc) [c]
    | b :: x :: y :: rest =>
      if b == 0x25 then
        match Bytes.hexValue? x, Bytes.hexValue? y with
        | some h, some l =>
          let v := UInt8.ofNat (16 * h + l)
          if allowed v then go (v :: acc) rest else none
        | _, _ => none
      else if bare b then go (b :: acc) (x :: y :: rest)
      else none

/-- Resolves the escapes of a path. -/
def unescape? (s : Bytes) : Option Bytes := unescapeWith? (fun _ => true) (fun _ => true) s

/-- A byte that stands for itself in the name of a host. -/
def isHostByte (b : UInt8) : Bool :=
  0x80 ≤ b || isUnreserved b || (utf8 "!$&'()*+,;=:[]<>\"").contains b

/-- Resolves the escapes of a host; they stand for bytes outside of ASCII, or for a percent sign. -/
def host? (s : Bytes) : Option Bytes :=
  unescapeWith? (fun v => 0x80 ≤ v || v == 0x25) isHostByte s

/-- Resolves the escapes of the zone of a numeric host. -/
def zone? (s : Bytes) : Option Bytes :=
  unescapeWith? (fun v => v == 0x25 || v == 0x20 || isHostByte v && v < 0x80) isHostByte s

/-- Whether what stands between brackets is a host given by groups of digits. -/
def literalOk (s : Bytes) : Bool :=
  match Bytes.cut? (utf8 "%25") s with
  | none => ((host? s).bind Host.groups?).isSome
  | some (address, zone) =>
    ((host? address).bind Host.groups?).isSome && (zone? zone).any fun name => !name.isEmpty

/-- Whether a text is empty, or a colon and digits. -/
def serviceOk : Bytes → Bool
  | [] => true
  | b :: digits => b == 0x3A && digits.all Bytes.isDigit

/-- Whether a host with its service is well formed; a bracket opens at the start of the host or
nowhere. -/
def hostServiceOk (host : Bytes) : Bool :=
  match host with
  | 0x5B :: rest =>
    match Bytes.cutLast? (· == 0x5D) rest with
    | none => false
    | some (literal, service) => !rest.contains 0x5B && serviceOk service && literalOk literal
  | _ =>
    !host.contains 0x5B && (host? host).isSome &&
      match Bytes.cutLast? (· == 0x3A) host with
      | some (_, service) => serviceOk (0x3A :: service)
      | none => true

/-- A byte that may stand in the name of a user. -/
def isUserByte (b : UInt8) : Bool :=
  Bytes.isLetter b || Bytes.isDigit b || (utf8 "-._:~!$&'()*+,;=%@").contains b

/-- Whether the part before the path is well formed. -/
def authorityOk (authority : Bytes) : Bool :=
  match Bytes.cutLast? (· == 0x40) authority with
  | none => hostServiceOk authority
  | some (user, host) => hostServiceOk host && user.all isUserByte && (unescape? user).isSome

/-- A control byte, which no address holds. -/
def isControl (b : UInt8) : Bool := b < 0x20 || b == 0x7F

/-- The text before the query of an address. -/
def beforeQuery (s : Bytes) : Bytes := s.takeWhile (· != 0x3F)

/-- **The path in a well-formed address of a file**, given what follows its scheme. -/
def filePath? (rest : Bytes) : Option Bytes :=
  if rest.any isControl then none
  else
    let (authority, path) := (beforeQuery rest).span (· != Path.slash)
    if authorityOk authority then unescape? path else none

/-- A path without the slash in front of its drive letter. -/
def dropDriveSlash : Bytes → Bytes
  | 0x2F :: path =>
    match path with
    | letter :: 0x3A :: _ :: _ => if Path.isLatinLetter letter then path else 0x2F :: path
    | _ => 0x2F :: path
  | path => path

/-- **The path that an address means** for the compiler; what is no address of a file stands for
itself. -/
def toPath (uri : Bytes) : Bytes :=
  match Bytes.after? fileScheme uri with
  | none => uri
  | some rest =>
    match filePath? rest with
    | some path => dropDriveSlash path
    | none => rest

/-- **The address of a document** that may be named by a bare path. -/
def normalize (cwd name : Bytes) : Bytes :=
  if name.isEmpty || Bytes.occurs (utf8 "://") name then name else ofPath cwd name

end ReplBridge.Uri
