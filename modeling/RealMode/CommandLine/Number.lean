/-!
Numbers as they are written on the command line: digits of a base, at least one, behind an optional
sign. There is no room for blanks or for separators between digits.
-/

namespace RealMode
namespace CommandLine

/-- The value of an ASCII digit; letters of either case go on from nine. -/
def digit? (base : Nat) (c : Char) : Option Nat :=
  let value :=
    if '0' ≤ c ∧ c ≤ '9' then some (c.toNat - '0'.toNat)
    else if 'a' ≤ c ∧ c ≤ 'z' then some (c.toNat - 'a'.toNat + 10)
    else if 'A' ≤ c ∧ c ≤ 'Z' then some (c.toNat - 'A'.toNat + 10)
    else none
  value.filter (· < base)

def digits? (base : Nat) (value : Nat) : List Char → Option Nat
  | [] => some value
  | c :: rest =>
    match digit? base c with
    | some d => digits? base (value * base + d) rest
    | none => none

def magnitude? (base : Nat) : List Char → Option Nat
  | [] => none
  | cs => digits? base 0 cs

/-- A number below `bound`, behind at most one plus sign. -/
def unsigned? (base bound : Nat) (text : List Char) : Option Nat :=
  let digits := match text with
    | '+' :: rest => rest
    | cs => cs
  (magnitude? base digits).filter (· < bound)

/-- A decimal number below `bound` that may also be a zero with a minus sign. -/
def signed? (bound : Nat) (text : List Char) : Option Nat :=
  match text with
  | '-' :: rest => (magnitude? 10 rest).filter (· == 0)
  | cs => unsigned? 10 bound cs

/-- Decimal, or hexadecimal behind `0x`; a plus sign then follows the `0x`. -/
def segment? (text : List Char) : Option Nat :=
  match text with
  | '0' :: 'x' :: rest | '0' :: 'X' :: rest => unsigned? 16 0x100000000 rest
  | cs => unsigned? 10 0x100000000 cs

end CommandLine
end RealMode
