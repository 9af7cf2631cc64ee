import RealMode.Cpu.Control
import RealMode.Cpu.String

/-!
The effect of every instruction, from the state in which its bytes have been consumed. Only those
that enter an interrupt handler can break off.
-/

namespace RealMode
namespace Cpu

variable {β : Type} [Bus β]

def exec (c : Cpu β) : Instr → Outcome β
  | .unknown => c.unknown
  | .aluToRm op w rm reg => .ok (c.aluToRm op w rm reg)
  | .aluToReg op w reg rm => .ok (c.aluToReg op w reg rm)
  | .aluImm op w rm value => .ok (c.aluImm op w rm value)
  | .aluAcc op w value => .ok (c.aluAcc op w value)
  | .testReg w rm reg => .ok (c.testReg w rm reg)
  | .testAcc w value => .ok (c.testAcc w value)
  | .testImm w rm value => .ok (c.testImm w rm value)
  | .incReg reg => .ok (c.incReg reg)
  | .decReg reg => .ok (c.decReg reg)
  | .incRm w rm => .ok (c.incRm w rm)
  | .decRm w rm => .ok (c.decRm w rm)
  | .complement w rm => .ok (c.complement w rm)
  | .negate w rm => .ok (c.negate w rm)
  | .mul signed w rm => .ok (c.mul signed w rm)
  | .div signed w rm => c.div signed w rm
  | .mulImm reg rm value => .ok (c.mulImm reg rm value)
  | .shift op w rm count => .ok (c.shift op w rm count)
  | .decimal op => .ok (c.decimal op)
  | .aam base => c.aam base
  | .aad base => .ok (c.aad base)
  | .cbw => .ok c.cbw
  | .cwd => .ok c.cwd
  | .salc => .ok c.salc
  | .movToRm w rm reg => .ok (c.movToRm w rm reg)
  | .movToReg w reg rm => .ok (c.movToReg w reg rm)
  | .movImm w rm value => .ok (c.movImm w rm value)
  | .movRegImm w reg value => .ok (c.movRegImm w reg value)
  | .movFromSeg rm seg => .ok (c.movFromSeg rm seg)
  | .movToSeg seg rm => .ok (c.movToSeg seg rm)
  | .movAccFrom w offset => .ok (c.movAccFrom w offset)
  | .movAccTo w offset => .ok (c.movAccTo w offset)
  | .lea reg m => .ok (c.lea reg m)
  | .loadFar seg reg m => .ok (c.loadFar seg reg m)
  | .xchgRm w rm reg => .ok (c.xchgRm w rm reg)
  | .xchgAcc reg => .ok (c.xchgAcc reg)
  | .nop => .ok (c.spend 3)
  | .xlat => .ok c.xlat
  | .lahf => .ok c.lahf
  | .sahf => .ok c.sahf
  | .pushReg reg => .ok (c.pushReg reg)
  | .popReg reg => .ok (c.popReg reg)
  | .pushSeg seg => .ok (c.pushSeg seg)
  | .popSeg seg => .ok (c.popSeg seg)
  | .pushRm rm => .ok (c.pushRm rm)
  | .popRm rm => .ok (c.popRm rm)
  | .pushImm value => .ok (c.pushImm value)
  | .pushFlags => .ok c.pushFlags
  | .popFlags => .ok c.popFlags
  | .pushAll => .ok c.pushAll
  | .popAll => .ok c.popAll
  | .enter size level => .ok (c.enter size level)
  | .leave => .ok c.leave
  | .jumpIf code displacement => .ok (c.jumpIf (c.regs.flags.condition code) displacement)
  | .jumpIfCxZero displacement => .ok ((c.jumpIf (c.regs.cx == 0) displacement).spend 2)
  | .loop test displacement => .ok (c.loop test displacement)
  | .jump displacement => .ok ((c.jump displacement).spend 15)
  | .jumpFar segment offset => .ok ((c.jumpFar segment offset).spend 15)
  | .jumpRm rm => .ok (c.jumpRm rm)
  | .jumpFarMem m => .ok (c.jumpFarMem m)
  | .call displacement => .ok ((c.call (c.regs.ip + displacement)).spend 19)
  | .callFar segment offset => .ok ((c.farCall segment offset).spend 28)
  | .callRm rm => .ok (c.callRm rm)
  | .callFarMem m => .ok (c.callFarMem m)
  | .ret arguments => .ok (c.ret arguments)
  | .retFar arguments => .ok (c.retFar arguments)
  | .bound reg m => c.bound reg m
  | .int3 => c.int3
  | .int vector => c.raise vector
  | .into => c.into
  | .iret => .ok c.returnFromInterrupt
  | .string op w => .ok (c.string op w)
  | .input w port => .ok (c.input w port)
  | .output w port => .ok (c.output w port)
  | .flag op => .ok (c.flag op)
  | .hlt => .ok c.halt
  | .wait => .ok (c.spend 3)
  | .escape rm => c.escape rm
  | .segmentOverride seg => .ok ((c.setPrefixes { c.prefixes with segment := some seg }).spend 2)
  | .repeatPrefix mode => .ok ((c.setPrefixes { c.prefixes with rep := some mode }).spend 11)
  | .lock => .ok ((c.setPrefixes { c.prefixes with lock := true }).spend 2)

end Cpu
end RealMode
