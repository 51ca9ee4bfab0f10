import Rv32Soc.Device.Peripheral
import Rv32Soc.Device.Register

/-!
# The interrupt controller

Thirty-two lines compete for the one external interrupt of the hart. Each has
an enable bit, a pending flag and a five-bit priority, where the lesser number
is the more urgent; among equals the lower line goes first. A master enable
stands over all. The line last delivered is the current one until it is
acknowledged.

Delivery is decided once per cycle, and only after something has happened
that could change the decision; `changed` remembers that it has. A line once
delivered is not delivered again while it stays current.

Devices are registered as sources of a line by their slot on the bus. The
controller does not reach them itself: an acknowledgement names the slots that
have to be told, and a poll is given what each slot requests.

The registers, in four pages, are words:

| offset        | register | meaning                                       |
|---------------|----------|-----------------------------------------------|
| 0x000         | MIS      | bit 31 master enable, the rest current line   |
| 0x004         | IER      | bit n enables line n                          |
| 0x008         | IPR      | bit n tells that line n is pending; read only |
| 0x00c         | IAR      | a one in bit n acknowledges line n            |
| 0x010 - 0x08c | PRIOn    | the priority of line n                        |
-/

namespace Rv32Soc

/-- An interrupt line. -/
abbrev Line := Fin 32

/-- A number that names no line. -/
inductive InterruptError where
  | invalidLine (line : Nat)
  deriving DecidableEq

/-- The text of a wrong line number. -/
def InterruptError.message : InterruptError → String
  | invalidLine line =>
      "interrupt line " ++ Text.decimal line ++ " does not exist (lines are 0 to 31)"

/-- The line of a number. -/
def lineOfNat (n : Nat) : Except InterruptError Line :=
  if h : n < 32 then .ok ⟨n, h⟩ else .error (.invalidLine n)

/-- The state of one line. -/
structure LineState where
  enabled : Bool := false
  pending : Bool := false
  priority : BitVec 5 := 0
  deriving DecidableEq, Inhabited

/-- A pending line that has been acknowledged, and the slots of the sources to be told, one for
each registration in the order of registration. -/
structure Acknowledgement where
  line : Line
  sources : List Nat
  deriving DecidableEq

/-- The state of the controller. -/
structure InterruptController where
  masterEnable : Bool := false
  lines : Vector LineState 32 := Vector.replicate 32 {}
  /-- The line last delivered and not yet acknowledged. -/
  current : Option Line := none
  /-- Something has happened since the last delivery. -/
  changed : Bool := false
  /-- The slot and the line of each registration, in order. -/
  sources : List (Nat × Line) := []
  deriving DecidableEq

namespace InterruptController

/-- The number of pages of the controller. -/
def pageCount : Word := 4

/-! ## Lines -/

/-- The line is enabled. -/
def enabled (c : InterruptController) (l : Line) : Bool :=
  c.lines[l].enabled

/-- The line is pending. -/
def pending (c : InterruptController) (l : Line) : Bool :=
  c.lines[l].pending

/-- The priority of the line. -/
def priority (c : InterruptController) (l : Line) : BitVec 5 :=
  c.lines[l].priority

/-- Replace the state of one line. -/
def setLine (c : InterruptController) (l : Line) (state : LineState) : InterruptController :=
  { c with lines := c.lines.set l state }

/-- Turn the master enable on or off. -/
def setMasterEnable (c : InterruptController) (enable : Bool) : InterruptController :=
  { c with masterEnable := enable, changed := true }

/-- Enable or mask a line. -/
def setEnabled (c : InterruptController) (l : Line) (enable : Bool) : InterruptController :=
  { c.setLine l { c.lines[l] with enabled := enable } with changed := true }

/-- Give a line a priority, of which five bits are kept. -/
def setPriority (c : InterruptController) (l : Line) (priority : Byte) : InterruptController :=
  { c.setLine l { c.lines[l] with priority := priority.setWidth 5 } with changed := true }

/-- Make a line pending. A line that is pending stays as it is. -/
def assert (c : InterruptController) (l : Line) : InterruptController :=
  if c.pending l then c
  else { c.setLine l { c.lines[l] with pending := true } with changed := true }

/-- The slots registered on a line, in order. -/
def sourcesOf (c : InterruptController) (l : Line) : List Nat :=
  (c.sources.filter fun source => source.2 = l).map (·.1)

/-- Acknowledge a line. Only a pending line has anything to acknowledge: it is no longer
pending, nor current, and its sources are to be told. -/
def acknowledge (c : InterruptController) (l : Line) :
    InterruptController × Option Acknowledgement :=
  if c.pending l then
    ({ c.setLine l { c.lines[l] with pending := false } with
        changed := true
        current := if c.current = some l then none else c.current },
      some ⟨l, c.sourcesOf l⟩)
  else (c, none)

/-- Acknowledge lines one after the other. -/
def acknowledgeAll (c : InterruptController) : List Line →
    InterruptController × List Acknowledgement
  | [] => (c, [])
  | l :: rest =>
      let (c, told) := c.acknowledge l
      let (c, more) := c.acknowledgeAll rest
      (c, told.toList ++ more)

/-! ## Sources -/

/-- Register the device in a slot as a source of a line. -/
def register (c : InterruptController) (slot : Nat) (l : Line) : InterruptController :=
  { c with sources := c.sources ++ [(slot, l)] }

/-- Make the line of every source pending that requests an interrupt. -/
def poll (c : InterruptController) (asserting : Nat → Bool) : InterruptController :=
  ((c.sources.filter fun source => asserting source.1).map (·.2)).foldl assert c

/-! ## Delivery -/

/-- The lines that could be delivered, in ascending order. -/
def candidates (c : InterruptController) : List Line :=
  (List.finRange 32).filter fun l => c.pending l && c.enabled l

/-- The more urgent of two lines, where the first stands unless the second has a lesser
priority number. -/
def moreUrgent (c : InterruptController) (first second : Line) : Line :=
  if c.priority second < c.priority first then second else first

/-- The most urgent candidate, if the master enable is on and there is one. -/
def next? (c : InterruptController) : Option Line :=
  if c.masterEnable then
    match c.candidates with
    | [] => none
    | first :: rest => some (rest.foldl c.moreUrgent first)
  else none

/-- Decide whether the hart is to be interrupted, given whether it would listen. The line that
is delivered becomes the current one. -/
def dispatch (c : InterruptController) (listening : Bool) :
    Option Line × InterruptController :=
  if c.changed && listening then
    match c.next? with
    | none => (none, c)
    | some l =>
        if c.current = some l then (none, c)
        else (some l, { c with changed := false, current := some l })
  else (none, c)

/-- The state at power-on, with the sources still registered. -/
def reset (c : InterruptController) : InterruptController :=
  { sources := c.sources }

/-! ## Registers -/

/-- The line whose priority a register holds. -/
def priorityLine? (index : Nat) : Option Line :=
  if h : 4 ≤ index ∧ index - 4 < 32 then some ⟨index - 4, h.2⟩ else none

/-- What MIS reads: the master enable above the current line, or above all ones. -/
def status (c : InterruptController) : Word :=
  (if c.masterEnable then 0x80000000 else 0)
    ||| match c.current with
        | some l => BitVec.ofNat 32 l
        | none => 0x7fffffff

/-- Answer the load of a word. -/
def readWord (c : InterruptController) (offset : Word) : Except AddressTrap Word :=
  match registerIndex offset with
  | 0 => .ok c.status
  | 1 => .ok (bitmap c.enabled)
  | 2 => .ok (bitmap c.pending)
  | 3 => .ok 0
  | index =>
      match priorityLine? index with
      | some l => .ok ((c.priority l).setWidth 32)
      | none => .error ⟨.loadAccessFault, offset⟩

/-- Enable exactly the lines whose bits are set. -/
def setEnables (c : InterruptController) (value : Word) : InterruptController :=
  { c with
    lines := Vector.ofFn fun l => { c.lines[l] with enabled := value.getLsbD l }
    changed := true }

/-- Answer the store of a word, and say which lines it acknowledged. -/
def writeWord (offset value : Word) :
    EStateM AddressTrap InterruptController (List Acknowledgement) := fun c =>
  match registerIndex offset with
  | 0 => .ok [] (c.setMasterEnable (value.getLsbD 31))
  | 1 => .ok [] (c.setEnables value)
  | 3 =>
      let (c, told) := c.acknowledgeAll ((List.finRange 32).filter fun l => value.getLsbD l)
      .ok told c
  | index =>
      match priorityLine? index with
      | some l => .ok [] (c.setPriority l (value.setWidth 8))
      | none => .error ⟨.storeAccessFault, offset⟩ c

end InterruptController

end Rv32Soc
