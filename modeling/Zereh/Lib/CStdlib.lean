/-
  The C library functions that read numbers and addresses, on the bytes of a C string:
  `strtoul`, `strtol` (base 10) and `inet_pton (AF_INET, ..)`.

  `strtoul` skips white space, takes one optional sign and the longest run of digits. It
  returns the value with the unread rest, and `none` when it converts nothing (`end == s`).
  A value past `ULONG_MAX` saturates; a minus sign negates modulo `2^64`.
-/
import Mathlib.Algebra.Ring.Int.Defs
import Mathlib.Data.List.Basic
import Mathlib.Data.Nat.Bitwise
import Mathlib.Tactic.Common

namespace Lib

/-- `isspace` in the C locale. -/
def isSpace (c : UInt8) : Bool := c == 32 || (9 ≤ c && c ≤ 13)

def isDigit (c : UInt8) : Bool := 48 ≤ c && c ≤ 57

/-- The value of a run of decimal digits. -/
def decVal (ds : List UInt8) : Nat := ds.foldl (fun a d => 10 * a + (d.toNat - 48)) 0

/-- An optional sign: whether it is a minus, and the rest. -/
def signOf : List UInt8 → Bool × List UInt8
  | 45 :: t => (true, t)
  | 43 :: t => (false, t)
  | t => (false, t)

def ulongMax : Nat := 2 ^ 64 - 1

/-- `strtoul (s, &end, 10)` with a 64-bit `unsigned long`. -/
def strtoul (s : List UInt8) : Option (Nat × List UInt8) :=
  let (neg, t) := signOf (s.dropWhile isSpace)
  let ds := t.takeWhile isDigit
  if ds.isEmpty then none
  else
    let v := decVal ds
    let u := if ulongMax < v then ulongMax else if neg then (2 ^ 64 - v) % 2 ^ 64 else v
    some (u, t.dropWhile isDigit)

/-- `strtol (s, &end, 10)` with a 64-bit `long`. -/
def strtol (s : List UInt8) : Option (Int × List UInt8) :=
  let (neg, t) := signOf (s.dropWhile isSpace)
  let ds := t.takeWhile isDigit
  if ds.isEmpty then none
  else
    let v : Int := if neg then -(decVal ds : Int) else decVal ds
    some (max (-2 ^ 63) (min v (2 ^ 63 - 1)), t.dropWhile isDigit)

/-- One octet of a dotted quad: digits, no leading zero, at most 255. -/
def octet (ds : List UInt8) : Option UInt8 :=
  if ds.isEmpty || !ds.all isDigit || (ds.length > 1 && ds.head? == some 48) ||
      decVal ds > 255 then none
  else some (UInt8.ofNat (decVal ds))

/-- `inet_pton (AF_INET, s, &addr)`: four octets, first in memory first. -/
def inetPton (s : List UInt8) : Option (List UInt8) :=
  match s.splitOn 46 with
  | [a, b, c, d] => do
    let a ← octet a
    let b ← octet b
    let c ← octet c
    let d ← octet d
    return [a, b, c, d]
  | _ => none

example : strtoul [32, 49, 50, 97] = some (12, [97]) := by decide +kernel

example : inetPton [49, 46, 50, 46, 51, 46, 48] = some [1, 2, 3, 0] := by decide +kernel

end Lib
