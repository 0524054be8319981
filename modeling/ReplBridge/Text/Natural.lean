import ReplBridge.Text.Decimal
import ReplBridge.Text.Letter
import ReplBridge.Text.Utf8

/-!
**The natural order of names.**

Names are compared where they first differ.  Two letters are compared as characters.  A letter comes
after what is no letter, except that right behind a digit it comes before: `a1b` stands before
`a10`.  Otherwise the numbers that begin at the difference are compared, then how long they are,
then the characters.
-/

set_option autoImplicit false

namespace ReplBridge.Natural

/-- The number that a text begins with, added behind the digits of `n`. -/
def number (n : Int) (digits : List Char) : Int :=
  digits.foldl (fun n c => Decimal.wrap64 (n * 10 + ((c.toNat : Int) - 0x30))) n

/-- Compares two texts that differ in their first characters; `before` is what both have before
that, last first. -/
def lessAt (before : List Char) (a : Char) (as : List Char) (b : Char) (bs : List Char) : Bool :=
  let afterDigit := (before.head?.map Letter.isDigit).getD false
  let al := Letter.isLetter a
  let bl := Letter.isLetter b
  if al && bl then a < b
  else if al || bl then (if afterDigit then al else bl)
  else
    -- a zero behind other digits still counts
    let inNumber := (before.takeWhile Letter.isDigit).any (· != '0')
    let start : Int := if (a == '0' || b == '0') && inNumber then 1 else 0
    let xs := (a :: as).takeWhile Letter.isDigit
    let ys := (b :: bs).takeWhile Letter.isDigit
    let x := number start xs
    let y := number start ys
    if x != y then x < y
    else if xs.length != ys.length then xs.length < ys.length
    else a < b

/-- Compares two texts behind what both have in common. -/
def lessFrom (before : List Char) : List Char → List Char → Bool
  | [], [] => false
  | [], _ :: _ => true
  | _ :: _, [] => false
  | a :: as, b :: bs =>
    if a == b then lessFrom (a :: before) as bs else lessAt before a as b bs

/-- **Whether one name stands before another.** -/
def less (a b : Bytes) : Bool :=
  lessFrom [] ((Utf8.pieces a).map Utf8.Piece.char) ((Utf8.pieces b).map Utf8.Piece.char)

/-- **Names in their natural order.** -/
def sort (names : List Bytes) : List Bytes := names.mergeSort fun a b => !less b a

end ReplBridge.Natural
