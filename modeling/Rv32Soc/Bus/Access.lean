import Rv32Soc.Bus.Basic

/-!
# Access over the bus

Loads and stores come from the hart and from bus masters alike. The address
is checked first: one that does not suit the width is misaligned, mapped or
not. Then the page decides which device answers, and an address that nobody
answers for is an access fault. When a device refuses, its reason stands and
the physical address takes the place of the offset. Fetching an instruction
is a load of a word whose refusals are told in instruction faults.

A store that succeeds has two consequences beyond the device. If it made the
interrupt controller acknowledge lines, their sources are told; and it takes
the reservation of its word away, whatever its width and whoever sent it.
-/

namespace Rv32Soc.Bus

variable {ε : Type} [Peripheral ε]

/-! ## Acknowledgements -/

/-- Tell the device in a slot that its interrupt has been acknowledged. -/
def tell (b : Bus ε) (slot : Nat) : Bus ε :=
  b.update slot Device.acknowledge

/-- Tell the sources of acknowledged lines, line by line. -/
def announce (b : Bus ε) (told : List Acknowledgement) : Bus ε :=
  told.foldl (fun b a => (a.sources.foldl tell b).note (.acknowledged a.line)) b

/-! ## Devices -/

/-- Store into the device in a slot, at an offset. -/
def storeInto (slot : Nat) (w : Width) (offset : Word) (value : BitVec w.bits)
    (absent : AddressTrap) : EStateM AddressTrap (Bus ε) Unit := fun b =>
  match visit slot (Device.write w offset value) absent b with
  | .ok told b => .ok () (b.announce told)
  | .error trap b => .error trap b

/-- Load from the device in a slot, at an offset. -/
def loadFrom (slot : Nat) (w : Width) (offset : Word) (absent : AddressTrap) :
    EStateM AddressTrap (Bus ε) (BitVec w.bits) :=
  visit slot (Device.read w offset) absent

/-! ## Addresses -/

/-- Load from an address. -/
def load (w : Width) (address : Word) : EStateM AddressTrap (Bus ε) (BitVec w.bits) := fun b =>
  if w.Aligned address then
    match b.route address with
    | none => .error ⟨.loadAccessFault, address⟩ b
    | some (slot, offset) =>
        match loadFrom slot w offset ⟨.loadAccessFault, address⟩ b with
        | .ok value b => .ok value b
        | .error trap b => .error { trap with address } b
  else .error ⟨.loadMisaligned, address⟩ b

/-- Store at an address. -/
def store (w : Width) (address : Word) (value : BitVec w.bits) :
    EStateM AddressTrap (Bus ε) Unit := fun b =>
  if w.Aligned address then
    match b.route address with
    | none => .error ⟨.storeAccessFault, address⟩ b
    | some (slot, offset) =>
        match storeInto slot w offset value ⟨.storeAccessFault, address⟩ b with
        | .ok () b => .ok () (b.loseReservation address)
        | .error trap b => .error { trap with address } b
  else .error ⟨.storeMisaligned, address⟩ b

/-- Fetch the instruction word at an address. -/
def fetch (address : Word) : EStateM AddressTrap (Bus ε) Word := fun b =>
  if Width.Aligned .word address then
    match load .word address b with
    | .ok value b => .ok value b
    | .error _ b => .error ⟨.instructionAccessFault, address⟩ b
  else .error ⟨.instructionMisaligned, address⟩ b

/-! ## Requests -/

/-- Answer a request of a bus master. -/
def answer (request : Request) (b : Bus ε) : Reply × Bus ε :=
  match request with
  | .load w address =>
      match load w address b with
      | .ok value b => (.ok (some (value.setWidth 32)), b)
      | .error trap b => (.error trap, b)
  | .store w address value =>
      match store w address (value.setWidth w.bits) b with
      | .ok () b => (.ok none, b)
      | .error trap b => (.error trap, b)

/-- Go through a script, answering its requests. The replies are listed in order. -/
def perform {α : Type} : Script α → Bus ε → α × List Reply × Bus ε
  | .done result, b => (result, [], b)
  | .ask request next, b =>
      let (reply, b) := b.answer request
      let (result, replies, b) := perform (next reply) b
      (result, reply :: replies, b)

/-! ## Turns -/

/-- The devices that request an interrupt, by slot. -/
def asserting (b : Bus ε) (slot : Nat) : Bool :=
  match b.device? slot with
  | some d => d.asserting
  | none => false

/-- Let a bus master take a turn, away from its slot. -/
def turn (b : Bus ε) (slot : Nat) (phase : Phase) (script : Script ε) : Bus ε :=
  let (e, replies, b) := perform script (b.vacate slot)
  (b.put slot (.external e)).note (.turn slot phase replies)

/-- Let the device in a slot have its cycle: a timer ticks, a controller polls its sources, a bus
master takes a turn, and a memory rests. -/
def cycle (b : Bus ε) (slot : Nat) : Bus ε :=
  match b.device? slot with
  | some (.timer t) => b.put slot (.timer t.tick)
  | some (.controller c) => b.put slot (.controller (c.poll b.asserting))
  | some (.external e) => b.turn slot .cycle (Peripheral.cycle e)
  | _ => b

/-- Let the device in a slot have its timestep, which only bus masters use. -/
def timestep (b : Bus ε) (slot : Nat) : Bus ε :=
  match b.device? slot with
  | some (.external e) => b.turn slot .timestep (Peripheral.timestep e)
  | _ => b

/-! ## The controller from outside -/

/-- The interrupt controller in a slot, if there is one. -/
def controller? (b : Bus ε) (slot : Nat) : Option InterruptController :=
  match b.device? slot with
  | some (.controller c) => some c
  | _ => none

/-- Replace the interrupt controller in a slot by what a function makes of it. -/
def updateController (b : Bus ε) (slot : Nat) (f : InterruptController → InterruptController) :
    Bus ε :=
  b.update slot fun
    | .controller c => .controller (f c)
    | d => d

/-- Acknowledge a line at the controller in a slot. -/
def acknowledge (b : Bus ε) (slot : Nat) (l : Line) : Bus ε :=
  match b.controller? slot with
  | none => b
  | some c =>
      let (c, told) := c.acknowledge l
      (b.put slot (.controller c)).announce told.toList

/-- Let the controller in a slot decide on a delivery. -/
def dispatch (b : Bus ε) (slot : Nat) (listening : Bool) : Option Line × Bus ε :=
  match b.controller? slot with
  | none => (none, b)
  | some c =>
      let (delivered, c) := c.dispatch listening
      let b := b.put slot (.controller c)
      match delivered with
      | some l => (some l, b.note (.delivered l))
      | none => (none, b)

end Rv32Soc.Bus
