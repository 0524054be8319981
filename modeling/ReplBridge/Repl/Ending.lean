import ReplBridge.Repl.Failure
import ReplBridge.Text.Decimal

/-!
**How a subprocess ends.**

It exits with a code, or a signal ends it.  A code is a byte; code 0 is no failure.
-/

set_option autoImplicit false

namespace ReplBridge.Repl

/-- How a subprocess ended. -/
inductive Ending where
  | exited (code : Int)
  | signaled (signal : Int)
  | unknown
  deriving DecidableEq, Repr

/-- The code with which a subprocess that asks for one exits. -/
def codeByte (code : Int) : Int := code % 256

def Ending.failure? : Ending → Option Failure
  | .exited code =>
    if codeByte code = 0 then none
    else some (.other (utf8 "exit status " ++ Decimal.ofInt (codeByte code)))
  | .signaled signal => some (.other (utf8 "signal " ++ Decimal.ofInt signal))
  | .unknown => some (.other (utf8 "unknown ending"))

/-- **The code that is made of an ending**; a signal counts as -1. -/
def exitCode : Ending → Int
  | .exited code => codeByte code
  | .signaled _ => -1
  | .unknown => 1

end ReplBridge.Repl
