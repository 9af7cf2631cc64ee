import RealMode.Flags
import RealMode.Hex
import RealMode.Word

/-!
The register file: eight general registers, four segment registers, the instruction pointer and
the flags. Instructions name a general register by a three-bit index, whose meaning depends on the
operand width.
-/

namespace RealMode

/-- General word registers in the order of their encoding. -/
inductive Reg16 where
  | ax
  | cx
  | dx
  | bx
  | sp
  | bp
  | si
  | di
  deriving DecidableEq

/-- Byte registers in the order of their encoding: four low halves, then four high halves. -/
inductive Reg8 where
  | al
  | cl
  | dl
  | bl
  | ah
  | ch
  | dh
  | bh
  deriving DecidableEq

inductive SegReg where
  | es
  | cs
  | ss
  | ds
  deriving DecidableEq

namespace Reg16

def all : List Reg16 := [ax, cx, dx, bx, sp, bp, si, di]

def ofIndex : Fin 8 → Reg16
  | 0 => ax
  | 1 => cx
  | 2 => dx
  | 3 => bx
  | 4 => sp
  | 5 => bp
  | 6 => si
  | 7 => di

def name : Reg16 → String
  | ax => "AX"
  | cx => "CX"
  | dx => "DX"
  | bx => "BX"
  | sp => "SP"
  | bp => "BP"
  | si => "SI"
  | di => "DI"

end Reg16

namespace Reg8

def all : List Reg8 := [al, cl, dl, bl, ah, ch, dh, bh]

def ofIndex : Fin 8 → Reg8
  | 0 => al
  | 1 => cl
  | 2 => dl
  | 3 => bl
  | 4 => ah
  | 5 => ch
  | 6 => dh
  | 7 => bh

def name : Reg8 → String
  | al => "AL"
  | cl => "CL"
  | dl => "DL"
  | bl => "BL"
  | ah => "AH"
  | ch => "CH"
  | dh => "DH"
  | bh => "BH"

def whole : Reg8 → Reg16
  | al | ah => .ax
  | cl | ch => .cx
  | dl | dh => .dx
  | bl | bh => .bx

def isHigh : Reg8 → Bool
  | al | cl | dl | bl => false
  | ah | ch | dh | bh => true

end Reg8

namespace SegReg

def all : List SegReg := [es, cs, ss, ds]

def ofIndex : Fin 4 → SegReg
  | 0 => es
  | 1 => cs
  | 2 => ss
  | 3 => ds

def name : SegReg → String
  | es => "ES"
  | cs => "CS"
  | ss => "SS"
  | ds => "DS"

end SegReg

def accumulator : Fin 8 := ⟨0, by decide⟩

structure Registers where
  ax : UInt16 := 0
  cx : UInt16 := 0
  dx : UInt16 := 0
  bx : UInt16 := 0
  sp : UInt16 := 0
  bp : UInt16 := 0
  si : UInt16 := 0
  di : UInt16 := 0
  es : UInt16 := 0
  cs : UInt16 := 0
  ss : UInt16 := 0
  ds : UInt16 := 0
  ip : UInt16 := 0
  flags : Flags := {}
  deriving DecidableEq

/-- Segment and offset meet in 20 bits; a sum past the last byte starts again at address zero. -/
def physical (segment offset : UInt16) : UInt32 :=
  (segment.toUInt32 <<< 4 + offset.toUInt32) &&& 0xFFFFF

namespace Registers

/-- After power on everything is clear but CS, which points sixteen bytes below the end of the
address space. -/
def powerOn : Registers := { cs := 0xFFFF }

def get (s : Registers) : Reg16 → UInt16
  | .ax => s.ax
  | .cx => s.cx
  | .dx => s.dx
  | .bx => s.bx
  | .sp => s.sp
  | .bp => s.bp
  | .si => s.si
  | .di => s.di

def set (s : Registers) (r : Reg16) (value : UInt16) : Registers :=
  match r with
  | .ax => { s with ax := value }
  | .cx => { s with cx := value }
  | .dx => { s with dx := value }
  | .bx => { s with bx := value }
  | .sp => { s with sp := value }
  | .bp => { s with bp := value }
  | .si => { s with si := value }
  | .di => { s with di := value }

def get8 (s : Registers) (r : Reg8) : UInt8 :=
  if r.isHigh then highByte (s.get r.whole) else lowByte (s.get r.whole)

def set8 (s : Registers) (r : Reg8) (value : UInt8) : Registers :=
  let old := s.get r.whole
  s.set r.whole
    (if r.isHigh then wordOfBytes (lowByte old) value else wordOfBytes value (highByte old))

def seg (s : Registers) : SegReg → UInt16
  | .es => s.es
  | .cs => s.cs
  | .ss => s.ss
  | .ds => s.ds

def setSeg (s : Registers) (r : SegReg) (value : UInt16) : Registers :=
  match r with
  | .es => { s with es := value }
  | .cs => { s with cs := value }
  | .ss => { s with ss := value }
  | .ds => { s with ds := value }

/-- The register with the given index at the given width; a byte register reads as a word below
256. -/
def read (s : Registers) (w : Width) (i : Fin 8) : UInt16 :=
  match w with
  | .byte => (s.get8 (.ofIndex i)).toUInt16
  | .word => s.get (.ofIndex i)

def write (s : Registers) (w : Width) (i : Fin 8) (value : UInt16) : Registers :=
  match w with
  | .byte => s.set8 (.ofIndex i) (lowByte value)
  | .word => s.set (.ofIndex i) value

def al (s : Registers) : UInt8 := s.get8 .al

def withAl (s : Registers) (value : UInt8) : Registers := s.set8 .al value

def codeAddress (s : Registers) : UInt32 :=
  physical s.cs s.ip

/-- One line: the general registers by name, the segment registers, IP and the flags. -/
def text (s : Registers) : String :=
  let field (name : String) (value : UInt16) := name ++ "=" ++ Hex.upper 4 value.toNat
  let general := [Reg16.ax, .bx, .cx, .dx, .sp, .bp, .si, .di].map fun r => field r.name (s.get r)
  let segments := SegReg.all.map fun r => field r.name (s.seg r)
  " ".intercalate (general ++ segments ++ [field "IP" s.ip, s.flags.text])

end Registers
end RealMode
