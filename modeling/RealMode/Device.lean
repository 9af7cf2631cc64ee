import RealMode.Word

/-!
What is reached through ports. A device has to say what single bytes do; it may also have ports that
are words by nature, and without them a word is two bytes at neighbouring ports.
-/

namespace RealMode

class PortDevice (δ : Type) where
  name : δ → String
  /-- Ports that the device claims, in the order in which it claims them. -/
  ports : δ → List UInt16
  getByte : δ → UInt16 → UInt8 × δ
  setByte : δ → UInt16 → UInt8 → δ
  /-- Word accesses go to the device as a whole. -/
  supportsWord : δ → Bool := fun _ => false
  getWord : δ → UInt16 → UInt16 × δ := fun d port =>
    let (low, d) := getByte d port
    let (high, d) := getByte d (port + 1)
    (wordOfBytes low high, d)
  setWord : δ → UInt16 → UInt16 → δ := fun d port value =>
    setByte (setByte d port (lowByte value)) (port + 1) (highByte value)

end RealMode
