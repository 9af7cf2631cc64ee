import RealMode.Bus.Flat
import RealMode.Bus.Loopback
import RealMode.CommandLine.FileTree
import RealMode.Device.Peripheral
import RealMode.Flags.Lemmas
import RealMode.Main
import RealMode.Memory.Changes
import RealMode.Memory.Lemmas
import RealMode.Proofs.Arithmetic.Conditions
import RealMode.Proofs.Arithmetic.Decimal
import RealMode.Proofs.Arithmetic.Division
import RealMode.Proofs.Arithmetic.Shifts
import RealMode.Proofs.Cpu.Consumption
import RealMode.Proofs.Cpu.Operands
import RealMode.Proofs.Cpu.PassingOver
import RealMode.Proofs.Cpu.Variants
import RealMode.Proofs.Cpu.Window
import RealMode.Proofs.Interrupt.Missing
import RealMode.Proofs.Interrupt.Nesting
import RealMode.Proofs.Interrupt.SingleStep
import RealMode.Proofs.Interrupt.Waking
import RealMode.Proofs.Machine.Bootstrap
import RealMode.Proofs.Machine.Loading
import RealMode.Proofs.Machine.Refusal
import RealMode.Proofs.Machine.RunModes
import RealMode.Proofs.Memory.Bytewise
import RealMode.Proofs.Memory.Rom
import RealMode.Proofs.Pic.Initialisation
import RealMode.Proofs.Pic.Priority
import RealMode.Proofs.Pit.Latch
import RealMode.Proofs.Pit.Observation
import RealMode.Proofs.Pit.Period
import RealMode.Proofs.Ports.Routing
import RealMode.Proofs.Prefix.Exits
import RealMode.Proofs.Prefix.Flow
import RealMode.Proofs.Snapshot.Fields
import RealMode.Proofs.Snapshot.RoundTrip
import RealMode.Proofs.Stack.Display
import RealMode.Proofs.Stack.Encodings
import RealMode.Proofs.Stack.Pairs
import RealMode.Proofs.String.Comparisons
import RealMode.Proofs.String.Transfers
import RealMode.Proofs.String.Transparency
import RealMode.Proofs.Timer.Progress
import RealMode.Registers.Lemmas
