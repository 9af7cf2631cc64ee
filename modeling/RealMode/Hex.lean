/-!
Hexadecimal text: `upper` for register dumps, `lower` for addresses and ports in messages. Both pad
with zeros on the left and never cut a number that needs more digits.
-/

namespace RealMode
namespace Hex

def padded (width : Nat) (digits : List Char) : String :=
  String.ofList (List.replicate (width - digits.length) '0' ++ digits)

def lower (width n : Nat) : String :=
  padded width (Nat.toDigits 16 n)

def upper (width n : Nat) : String :=
  padded width ((Nat.toDigits 16 n).map Char.toUpper)

def prefixed (width n : Nat) : String :=
  "0x" ++ lower width n

end Hex
end RealMode
