import RealMode.Registers

/-!
The stored form of a register file: 35 bytes. Thirteen words come first, low byte before high byte
(general registers and segment registers in encoding order, then IP), then one byte 0 or 1 for
each flag. Reading goes from left to right and stops at the first fault, so a bad flag byte is
reported even if later bytes are missing; what follows the 35th byte is not looked at.
-/

namespace RealMode

inductive SnapshotError where
  | tooShort
  | badFlag (value : UInt8)
  deriving DecidableEq

namespace SnapshotError

def message : SnapshotError → String
  | tooShort => "Failed to (de)serialize cpu state: io error: failed to fill whole buffer"
  | badFlag value =>
    "Failed to (de)serialize cpu state: invalid u8 while decoding bool, expected 0 or 1, found "
      ++ toString value.toNat

end SnapshotError

namespace Snapshot

def words (s : Registers) : List UInt16 :=
  [s.ax, s.cx, s.dx, s.bx, s.sp, s.bp, s.si, s.di, s.es, s.cs, s.ss, s.ds, s.ip]

def flags (f : Flags) : List Bool :=
  [f.carry, f.parity, f.auxCarry, f.zero, f.sign, f.trap, f.interrupt, f.direction, f.overflow]

def wordBytes (value : UInt16) : List UInt8 :=
  [lowByte value, highByte value]

def flagByte (set : Bool) : UInt8 :=
  if set then 1 else 0

def encode (s : Registers) : List UInt8 :=
  (words s).flatMap wordBytes ++ (flags s.flags).map flagByte

/-- A reader takes bytes from the front and gives back the rest. -/
abbrev Reader (α : Type) := List UInt8 → Except SnapshotError (α × List UInt8)

def word : Reader UInt16
  | low :: high :: rest => .ok (wordOfBytes low high, rest)
  | _ => .error .tooShort

def flag : Reader Bool
  | [] => .error .tooShort
  | b :: rest =>
    if b = 0 then .ok (false, rest)
    else if b = 1 then .ok (true, rest)
    else .error (.badFlag b)

def many {α : Type} (read : Reader α) : Nat → Reader (List α)
  | 0, bytes => .ok ([], bytes)
  | n + 1, bytes =>
    match read bytes with
    | .error e => .error e
    | .ok (x, bytes) =>
      match many read n bytes with
      | .error e => .error e
      | .ok (xs, bytes) => .ok (x :: xs, bytes)

def flagsOf : List Bool → Flags
  | [carry, parity, auxCarry, zero, sign, trap, interrupt, direction, overflow] =>
    { carry, parity, auxCarry, zero, sign, trap, interrupt, direction, overflow }
  | _ => {}

def registersOf (flags : Flags) : List UInt16 → Registers
  | [ax, cx, dx, bx, sp, bp, si, di, es, cs, ss, ds, ip] =>
    { ax, cx, dx, bx, sp, bp, si, di, es, cs, ss, ds, ip, flags }
  | _ => {}

def decode (bytes : List UInt8) : Except SnapshotError Registers :=
  match many word 13 bytes with
  | .error e => .error e
  | .ok (words, bytes) =>
    match many flag 9 bytes with
    | .error e => .error e
    | .ok (flags, _) => .ok (registersOf (flagsOf flags) words)

end Snapshot
end RealMode
