import ReplBridge.Text.Bytes

/-!
**Bytes in base 64.**

Three bytes are written as four characters, each of which stands for six bits; an equals sign fills
up what is missing at the end.  On reading, line ends are passed over and nothing else is.
-/

set_option autoImplicit false

namespace ReplBridge.Base64

/-- The characters, by their values. -/
def alphabet : Bytes := utf8 "ABCDEFGHIJKLMNOPQRSTUVWXYZabcdefghijklmnopqrstuvwxyz0123456789+/"

/-- The character that fills up. -/
def filler : UInt8 := 0x3D

/-- The character of a value below 64. -/
def digit (n : Nat) : UInt8 := alphabet.getD n filler

/-- **Bytes in base 64.** -/
def encode : Bytes → Bytes
  | [] => []
  | [a] =>
    let n := a.toNat * 16
    [digit (n / 64), digit (n % 64), filler, filler]
  | [a, b] =>
    let n := (a.toNat * 256 + b.toNat) * 4
    [digit (n / 4096), digit (n / 64 % 64), digit (n % 64), filler]
  | a :: b :: c :: rest =>
    let n := (a.toNat * 256 + b.toNat) * 256 + c.toNat
    digit (n / 262144) :: digit (n / 4096 % 64) :: digit (n / 64 % 64) :: digit (n % 64)
      :: encode rest

def value? (b : UInt8) : Option Nat := alphabet.findIdx? (· == b)

/-- Reads groups of four characters. -/
def groups? : Bytes → Option Bytes
  | [] => some []
  | a :: b :: c :: d :: rest => do
    let x ← value? a
    let y ← value? b
    let first := UInt8.ofNat (x * 4 + y / 16)
    if c == filler then
      if d == filler && rest.isEmpty then return [first] else none
    else
      let z ← value? c
      let second := UInt8.ofNat (y * 16 + z / 4)
      if d == filler then
        if rest.isEmpty then return [first, second] else none
      else
        let w ← value? d
        let tail ← groups? rest
        return first :: second :: UInt8.ofNat (z * 64 + w) :: tail
  | _ => none

/-- **The bytes that a text in base 64 stands for.** -/
def decode? (s : Bytes) : Option Bytes := groups? (s.filter fun b => b != 0x0A && b != 0x0D)

end ReplBridge.Base64
