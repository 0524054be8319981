import ReplBridge.Text.Printable
import ReplBridge.Text.Utf8

/-!
**Texts in quotes for a person to read.**

Messages show a text between double quotes so that every byte of it can be told: printable
characters stand for themselves, the usual control characters have their letters, and the rest is
given by number, a stray byte by its two hexadecimal digits.
-/

set_option autoImplicit false

namespace ReplBridge.Quoted

/-- `n` hexadecimal digits of a number. -/
def hexDigits : Nat → Nat → Bytes
  | 0, _ => []
  | n + 1, v => hexDigits n (v / 16) ++ [Bytes.hexDigit (v % 16)]

/-- The letter after the backslash of a control character that has one. -/
def letter? (c : Char) : Option UInt8 :=
  match c.toNat with
  | 0x07 => some 0x61
  | 0x08 => some 0x62
  | 0x0C => some 0x66
  | 0x0A => some 0x6E
  | 0x0D => some 0x72
  | 0x09 => some 0x74
  | 0x0B => some 0x76
  | _ => none

def show1 : Utf8.Piece → Bytes
  | .stray b => [0x5C, 0x78] ++ hexDigits 2 b.toNat
  | .scalar c =>
    if c == '"' || c == '\\' then [0x5C, UInt8.ofNat c.toNat]
    else if Printable.isPrintable c then Utf8.encode c
    else match letter? c with
      | some l => [0x5C, l]
      | none =>
        if c.toNat < 0x20 || c.toNat == 0x7F then [0x5C, 0x78] ++ hexDigits 2 c.toNat
        else if c.toNat < 0x10000 then [0x5C, 0x75] ++ hexDigits 4 c.toNat
        else [0x5C, 0x55] ++ hexDigits 8 c.toNat

/-- **A text between double quotes.** -/
def quote (s : Bytes) : Bytes := [0x22] ++ (Utf8.pieces s).flatMap show1 ++ [0x22]

end ReplBridge.Quoted
