import Rv32Soc.Device.Peripheral

/-!
# The probe

A small bus master for bench work. It has one page or more with two word
registers, a value that can be read and written at offset 0 and the number of
its cycles at offset 4, and remembers the offset it was last asked for. In
each cycle and each timestep it sends a fixed list of requests to the bus,
where the value of a store may be the cycle count. It can be set to request an
interrupt in every n-th cycle, and counts acknowledgements.
-/

namespace Rv32Soc

/-- A stored value: a constant, or the probe's cycle count at that moment. -/
inductive ProbeValue where
  | constant (value : Word)
  | count
  deriving DecidableEq

/-- One request that a probe sends. -/
inductive ProbeCommand where
  | load (width : Width) (address : Word)
  | store (width : Width) (address : Word) (value : ProbeValue)
  deriving DecidableEq

/-- The state of a probe. -/
structure Probe where
  pages : Word := 1
  value : Word := 0
  onCycle : List ProbeCommand := []
  onTimestep : List ProbeCommand := []
  /-- Request an interrupt whenever this number divides the cycle count. -/
  assertEvery : Option Nat := none
  cycles : Nat := 0
  lastOffset : Option Word := none
  asserting : Bool := false
  acknowledgements : Nat := 0
  deriving DecidableEq, Inhabited

namespace Probe

/-- The request that a command stands for, given the cycle count. -/
def request (cycles : Nat) : ProbeCommand → Request
  | .load width address => .load width address
  | .store width address (.constant value) => .store width address value
  | .store width address .count => .store width address (BitVec.ofNat 32 cycles)

/-- Answer the load of a word. -/
def readWord (offset : Word) : EStateM AddressTrap Probe Word := fun p =>
  let p := { p with lastOffset := some offset }
  if offset = 0 then .ok p.value p
  else if offset = 4 then .ok (BitVec.ofNat 32 p.cycles) p
  else .error ⟨.loadAccessFault, offset⟩ p

/-- Answer the store of a word. -/
def writeWord (offset value : Word) : EStateM AddressTrap Probe Unit := fun p =>
  let p := { p with lastOffset := some offset }
  if offset = 0 then .ok () { p with value := value }
  else .error ⟨.storeAccessFault, offset⟩ p

/-- One cycle: count it, send the requests, and then request an interrupt if it is time. -/
def cycle (p : Probe) : Script Probe :=
  let cycles := p.cycles + 1
  let due := match p.assertEvery with
    | some n => n ≠ 0 && cycles % n == 0
    | none => false
  .askAll (p.onCycle.map (request cycles))
    { p with cycles := cycles, asserting := p.asserting || due }

/-- One timestep: send the requests. -/
def timestep (p : Probe) : Script Probe :=
  .askAll (p.onTimestep.map (request p.cycles)) p

/-- Take note of an acknowledgement. -/
def acknowledge (p : Probe) : Probe :=
  { p with asserting := false, acknowledgements := p.acknowledgements + 1 }

end Probe

instance : Peripheral Probe where
  pages p := p.pages
  read w offset := match w with
    | .word => Probe.readWord offset
    | _ => throw (refuseLoad offset)
  write w offset value := match w, value with
    | .word, value => Probe.writeWord offset value
    | _, _ => throw (refuseStore offset)
  cycle := Probe.cycle
  timestep := Probe.timestep
  asserting p := p.asserting
  acknowledge := Probe.acknowledge

end Rv32Soc
