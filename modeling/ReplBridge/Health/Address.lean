import ReplBridge.Text.Host

/-!
**Addresses to listen on.**

An address is a host and a service with a colon between them; a host that has colons itself is put
in brackets.  A service is a number, or a name that is well known.

Main definitions:

* `Health.Address`, `Health.Address.split` — an address and its parts;
* `Health.ListenFault`, `Health.ListenFault.message` — why an address cannot be listened on;
* `Health.listen` — the address that is listened on.
-/

set_option autoImplicit false

namespace ReplBridge.Health

/-- What is wrong with the form of an address: it has no service, colons in its host, or a bracket
that is not closed or in the wrong place. -/
inductive Malformed where
  | missingService
  | tooManyColons
  | unclosed
  | strayOpening
  | strayClosing
  deriving DecidableEq, Repr

/-- The wording of what is wrong. -/
def Malformed.message : Malformed → String
  | .missingService => "missing port in address"
  | .tooManyColons => "too many colons in address"
  | .unclosed => "missing ']' in address"
  | .strayOpening => "unexpected '[' in address"
  | .strayClosing => "unexpected ']' in address"

/-- Why an address cannot be listened on.  A `reserved` service is kept for the system, and a host
that is `elsewhere` is not here. -/
inductive ListenFault where
  | malformed (address : Bytes) (why : Malformed)
  | invalidService (service : Bytes)
  | unknownService (service : Bytes)
  | unknownHost (host : Bytes)
  | reserved (host : Bytes) (service : Nat)
  | elsewhere (host : Bytes) (service : Nat)
  deriving DecidableEq, Repr

/-- A host and the number of a service, as a fault names them. -/
def ListenFault.place (host : Bytes) (service : Nat) : Bytes :=
  let host := if Bytes.occurs [Host.colon] host then [0x5B] ++ host ++ [0x5D] else host
  host ++ utf8 ":" ++ Decimal.ofNat service

/-- **The wording of a fault.** -/
def ListenFault.message : ListenFault → Bytes
  | .malformed address why =>
    utf8 "listen tcp: address " ++ address ++ utf8 ": " ++ utf8 why.message
  | .invalidService service => utf8 "listen tcp: address " ++ service ++ utf8 ": invalid port"
  | .unknownService service => utf8 "listen tcp: lookup tcp/" ++ service ++ utf8 ": unknown port"
  | .unknownHost host => utf8 "listen tcp: lookup " ++ host ++ utf8 ": no such host"
  | .reserved host service =>
    utf8 "listen tcp " ++ place host service ++ utf8 ": bind: permission denied"
  | .elsewhere host service =>
    utf8 "listen tcp " ++ place host service ++ utf8 ": bind: cannot assign requested address"

/-- A host and a service. -/
structure Address where
  /-- The host; empty for every address of this machine. -/
  host : Bytes
  service : Bytes
  deriving DecidableEq, Repr

/-- The byte `[`. -/
def opening : UInt8 := 0x5B

/-- The byte `]`. -/
def closing : UInt8 := 0x5D

namespace Address

/-- Parts that hold no bracket in the wrong place: `fromOpening` and `fromClosing` are where one
would be wrong. -/
def checked (a : Address) (fromOpening fromClosing : Bytes) : Except Malformed Address :=
  if fromOpening.contains opening then .error .strayOpening
  else if fromClosing.contains closing then .error .strayClosing
  else .ok a

/-- The parts of an address that begins with a bracket, of which `rest` is what follows it. -/
def splitBracketed (rest : Bytes) : Except Malformed Address :=
  match Bytes.cut? [closing] rest with
  | none => .error .unclosed
  | some (_, []) => .error .missingService
  | some (host, c :: service) =>
    if c != Host.colon then .error .missingService
    else if service.contains Host.colon then .error .tooManyColons
    else checked ⟨host, service⟩ rest service

/-- **The parts of an address.** -/
def split (address : Bytes) : Except Malformed Address :=
  if !address.contains Host.colon then .error .missingService
  else match address with
    | 0x5B :: rest => splitBracketed rest
    | _ =>
      let service := (address.reverse.takeWhile (· != Host.colon)).reverse
      let host := address.take (address.length - service.length - 1)
      if host.contains Host.colon then .error .tooManyColons
      else checked ⟨host, service⟩ address address

end Address

/-- The numbers of well-known services. -/
def services : List (String × Nat) :=
  [("ftp", 21), ("ftps", 990), ("gopher", 70), ("http", 80), ("https", 443),
    ("imap2", 143), ("imap3", 220), ("imaps", 993), ("pop3", 110), ("pop3s", 995), ("smtp", 25),
    ("submissions", 465), ("ssh", 22), ("telnet", 23)]

/-- What the digits of a service come to. -/
inductive Number where
  | value (n : Nat)
  | noNumber
  deriving DecidableEq, Repr

/-- The least number that is certainly out of range, whatever follows. -/
def tooLarge : Nat := Decimal.twoTo 30

/-- The number that digits spell, in words of 32 bits.  Once it is too large the rest is not looked
at; one digit earlier it may run over and become small again. -/
def number (n : Nat) : Bytes → Number
  | [] => .value n
  | b :: rest =>
    if !Bytes.isDigit b then .noNumber
    else if tooLarge ≤ n then .value tooLarge
    else
      let tens := 10 * n % Decimal.twoTo 32
      let next := tens + (b.toNat - 0x30)
      if Decimal.twoTo 32 ≤ next then .value tooLarge else number next rest

/-- The number of a service; none at all is any number. -/
def serviceNumber (service : Bytes) : Except ListenFault Nat :=
  let (negative, digits) := match service with
    | 0x2B :: ds => (false, ds)
    | 0x2D :: ds => (true, ds)
    | ds => (false, ds)
  match number 0 digits with
  | .value n =>
    if 65535 < n || (negative && n != 0) then .error (.invalidService service) else .ok n
  | .noNumber =>
    match services.find? fun s => utf8 s.1 == service.map Bytes.lower with
    | some (_, n) => .ok n
    | none => .error (.unknownService service)

/-- Whether a service is one of those that are kept for the system. -/
def isReserved (service : Nat) : Bool := 0 < service && service < 1024

/-- Whether a name is the one that every machine has for itself, in any case and maybe with a dot at
its end. -/
def isLocal (host : Bytes) : Bool :=
  ["localhost", "localhost."].any fun name => host.map Bytes.lower == utf8 name

/-- The host that a name stands for, as it is written in a fault, and whether it is this machine. -/
def resolve? (host : Bytes) : Option (Bytes × Bool) :=
  if host.isEmpty then some ([], true)
  else if isLocal host then some (utf8 "127.0.0.1", true)
  else (Host.Numeric.read? host).map fun n => (n.settle.text, n.settle.isHere)

/-- **The address that is listened on.** -/
def listen (address : Bytes) : Except ListenFault (Bytes × Nat) :=
  match Address.split address with
  | .error why => .error (.malformed address why)
  | .ok a => do
    let service ← serviceNumber a.service
    match resolve? a.host with
    | none => .error (.unknownHost a.host)
    | some (host, here) =>
      if isReserved service then .error (.reserved host service)
      else if here then .ok (host, service)
      else .error (.elsewhere host service)

end ReplBridge.Health
