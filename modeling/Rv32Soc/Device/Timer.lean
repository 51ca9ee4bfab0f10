import Rv32Soc.Device.Peripheral
import Rv32Soc.Device.Register

/-!
# The timer

A counter in one page of word registers:

| offset | register | meaning                                                     |
|--------|----------|-------------------------------------------------------------|
| 0x00   | CTRL     | bits 6 to 4 prescaler select, 3 auto-reload, 2 prescaler on, |
|        |          | 1 interrupt on, 0 start                                     |
| 0x04   | COUNT    | the count                                                   |
| 0x08   | RELOAD   | what the count restarts from with auto-reload               |
| 0x0c   | MATCH    | the count that flags a match                                |
| 0x10   | IE       | 1 match requests an interrupt, 0 overflow does              |
| 0x14   | IP       | 1 match flagged, 0 overflow flagged; read only              |
| 0x18   | IA       | a one clears the flag of the same place in IP; write only   |

A running timer counts once per tick, or with the prescaler once in every
period of ticks. The flags stay until software clears them, so the interrupt
controller's acknowledgement changes nothing here.
-/

namespace Rv32Soc

/-- The state of the timer. -/
structure Timer where
  /-- Selects the period of the prescaler. -/
  select : BitVec 3 := 0
  autoReload : Bool := false
  prescaled : Bool := false
  interruptOn : Bool := false
  running : Bool := false
  /-- Ticks since the last count, while the prescaler is on. -/
  prescaler : Nat := 0
  count : Word := 0
  reload : Word := 0
  target : Word := 0
  matchEnabled : Bool := false
  overflowEnabled : Bool := false
  matched : Bool := false
  overflowed : Bool := false
  deriving DecidableEq, Inhabited

namespace Timer

/-! ## Counting -/

/-- The number of ticks per count while the prescaler is on. -/
def period (t : Timer) : Nat :=
  2 <<< t.select.toNat

/-- Count once. Past the last word the count restarts and flags the overflow; a count that
arrives at the target flags the match. -/
def advance (t : Timer) : Timer :=
  let wraps := t.count == BitVec.allOnes 32
  let count := if wraps then (if t.autoReload then t.reload else 0) else t.count + 1
  { t with
    count
    overflowed := t.overflowed || wraps
    matched := t.matched || count == t.target }

/-- Let one tick pass. -/
def tick (t : Timer) : Timer :=
  if t.running then
    if t.prescaled then
      if t.prescaler + 1 ≥ t.period then advance { t with prescaler := 0 }
      else { t with prescaler := t.prescaler + 1 }
    else t.advance
  else t

/-! ## Registers -/

/-- A bit of a word from a truth value. -/
def bit (condition : Bool) (place : Nat) : Word :=
  if condition then 1 <<< place else 0

/-- What CTRL reads. -/
def control (t : Timer) : Word :=
  t.select.setWidth 32 <<< 4 ||| bit t.autoReload 3 ||| bit t.prescaled 2
    ||| bit t.interruptOn 1 ||| bit t.running 0

/-- What a pair of a match bit and an overflow bit reads. -/
def flags (onMatch onOverflow : Bool) : Word :=
  bit onMatch 1 ||| bit onOverflow 0

/-- Take a value for CTRL. -/
def setControl (t : Timer) (value : Word) : Timer :=
  { t with
    select := value.extractLsb' 4 3
    autoReload := value.getLsbD 3
    prescaled := value.getLsbD 2
    interruptOn := value.getLsbD 1
    running := value.getLsbD 0 }

/-- Answer the load of a word. -/
def readWord (t : Timer) (offset : Word) : Except AddressTrap Word :=
  match registerIndex offset with
  | 0 => .ok t.control
  | 1 => .ok t.count
  | 2 => .ok t.reload
  | 3 => .ok t.target
  | 4 => .ok (flags t.matchEnabled t.overflowEnabled)
  | 5 => .ok (flags t.matched t.overflowed)
  | _ => .error ⟨.loadAccessFault, offset⟩

/-- Answer the store of a word. -/
def writeWord (offset value : Word) : EStateM AddressTrap Timer Unit := fun t =>
  match registerIndex offset with
  | 0 => .ok () (t.setControl value)
  | 1 => .ok () { t with count := value }
  | 2 => .ok () { t with reload := value }
  | 3 => .ok () { t with target := value }
  | 4 => .ok () { t with matchEnabled := value.getLsbD 1, overflowEnabled := value.getLsbD 0 }
  | 6 => .ok () { t with
      matched := t.matched && !value.getLsbD 1
      overflowed := t.overflowed && !value.getLsbD 0 }
  | _ => .error ⟨.storeAccessFault, offset⟩ t

/-! ## Interrupts -/

/-- The timer requests an interrupt: interrupts are on, and a flag is up that may request one. -/
def asserting (t : Timer) : Bool :=
  t.interruptOn && (t.matchEnabled && t.matched || t.overflowEnabled && t.overflowed)

end Timer

end Rv32Soc
