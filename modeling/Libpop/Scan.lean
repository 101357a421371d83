import Mathlib.Algebra.Group.Nat.Defs
import Mathlib.Tactic.Lemma

/-!
# Formatted input

The part of `sscanf` that reads hexadecimal numbers separated by fixed characters, as the C
library and as the kernel have it. A conversion skips blanks, passes over a leading `0x` and
takes the longest run of digits. The C library accepts a sign and saturates, the kernel does
neither. The first directive that does not match ends the scan.
-/

namespace Scan

inductive Directive
  | hex
  | char (c : Char)
  deriving DecidableEq

/-- The blanks of the C locale. -/
def isspace (c : Char) : Bool :=
  c = ' ' ∨ '\t' ≤ c ∧ c ≤ '\r'

def hexValue (c : Char) : Option Nat :=
  if '0' ≤ c ∧ c ≤ '9' then some (c.toNat - '0'.toNat)
  else if 'a' ≤ c ∧ c ≤ 'f' then some (c.toNat - 'a'.toNat + 10)
  else if 'A' ≤ c ∧ c ≤ 'F' then some (c.toNat - 'A'.toNat + 10)
  else none

/-- The value of the longest run of digits, after `acc`, and the text behind it. -/
def hexRun (acc : Nat) : List Char → Nat × List Char
  | [] => (acc, [])
  | c :: cs => match hexValue c with
    | some d => hexRun (16 * acc + d) cs
    | none => (acc, c :: cs)

/-- The number at the start of a text. Behind `0x` there may be no digit at all. -/
def scanHex : List Char → Option (Nat × List Char)
  | [] => none
  | '0' :: x :: cs => some (if x = 'x' ∨ x = 'X' then hexRun 0 cs else hexRun 0 ('0' :: x :: cs))
  | c :: cs => if (hexValue c).isSome then some (hexRun 0 (c :: cs)) else none

/-- The conversion `%x` of the kernel; a number that is too long wraps when it is assigned. -/
def kernelHex (text : List Char) : Option (Nat × List Char) :=
  scanHex (text.dropWhile isspace)

/-- What `strtoul` makes of a sign and a number. -/
def strtoul (negative : Bool) (n : Nat) : BitVec 64 :=
  if n < 2 ^ 64 then (if negative then -BitVec.ofNat 64 n else BitVec.ofNat 64 n) else BitVec.allOnes 64

/-- The conversions `%x` and `%lx` of the C library, which differ in what is assigned only. -/
def scanUl (text : List Char) : Option (BitVec 64 × List Char) :=
  match text.dropWhile isspace with
  | '-' :: cs => (scanHex cs).map (Prod.map (strtoul true) id)
  | '+' :: cs => (scanHex cs).map (Prod.map (strtoul false) id)
  | cs => (scanHex cs).map (Prod.map (strtoul false) id)

/-- The converted numbers, in order; their count is the value `sscanf` returns. -/
def sscanf {α : Type} (convert : List Char → Option (α × List Char)) :
    List Directive → List Char → List α
  | [], _ => []
  | .char c :: format, text => match text with
    | [] => []
    | c' :: rest => if c' = c then sscanf convert format rest else []
  | .hex :: format, text => match convert text with
    | none => []
    | some (value, rest) => value :: sscanf convert format rest

/-- The format `%x:%x:%x.%x`. -/
def fullSlot : List Directive :=
  [.hex, .char ':', .hex, .char ':', .hex, .char '.', .hex]

/-- The format `%x:%x.%x`. -/
def shortSlot : List Directive :=
  [.hex, .char ':', .hex, .char '.', .hex]

example : sscanf kernelHex fullSlot "0000:17:0a.1".toList = [0, 0x17, 0x0a, 1] := by decide

-- a sign is read by one of the two
example : sscanf scanUl shortSlot "+17:0x.0".toList = [0x17, 0, 0] ∧
    sscanf kernelHex shortSlot "+17:0x.0".toList = [] := by decide

end Scan
