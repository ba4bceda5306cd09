import Greybox.Target.Basic

namespace Greybox

inductive HitRule where
  | position
  | value
  | mixed
  | nothing
  deriving DecidableEq

inductive Judgement where
  | always (valid : Bool)
  | sumRemainder (modulus remainder : Nat)
  | atLeast (count : Nat)
  deriving DecidableEq

structure CrashRule where
  on : Nat
  text : Option String
  deriving DecidableEq

structure Script where
  take : Nat := UInt64.size - 1
  hits : HitRule := .position
  modulus : Nat := 0
  base : Nat := 0
  atEnd : Option Nat := none
  crashes : Option CrashRule := none
  judgement : Judgement := .always true
  deriving DecidableEq

namespace Script

def point (script : Script) (b : UInt8) (position : Nat) : Option Nat :=
  let index? := match script.hits with
    | .position => some position
    | .value => some b.toNat
    | .mixed => some (b.toNat * 31 + position)
    | .nothing => none
  index?.map fun index =>
    script.base + if script.modulus = 0 then index else index % script.modulus

def accepts (script : Script) (count sum : Nat) : Bool :=
  match script.judgement with
  | .always valid => valid
  | .sumRemainder modulus remainder => sum % modulus = remainder
  | .atLeast least => least ≤ count

def crashOn (script : Script) (b : UInt8) : Option CrashRule :=
  script.crashes.filter (·.on = b.toNat)

def hitting (point : Option Nat) (next : Target) : Target :=
  match point with
  | some point => .hit point next
  | none => next

/-- The script after `count` bytes with the given sum, with up to `left` bytes still to read. -/
def after (script : Script) (count sum : Nat) : (left : Nat) → Target
  | 0 => .finish (script.accepts count sum)
  | left + 1 => .pull fun
    | .failed _ => .finish false
    | .ended => hitting script.atEnd (.finish (script.accepts count sum))
    | .byte b =>
      match script.crashOn b with
      | some rule => .crash rule.text
      | none => hitting (script.point b count) (after script (count + 1) (sum + b.toNat) left)

def target (script : Script) : Target := script.after 0 0 script.take

end Script

end Greybox
