import Rv32Soc.Device.Peripheral
import Rv32Soc.Isa.Assembly
import Rv32Soc.Isa.Decode

/-!
# The journal

What happens inside the machine and cannot be seen from a result is written
down in a journal: every instruction that is fetched, every trap, the fate of
reservations and interrupts, the placing of segments. A record is data; its
level and its text are functions of it. The turns of bus masters are recorded
too, with all replies, but have no text.

Nothing the machine does depends on the journal. It can be switched off for
long runs.
-/

namespace Rv32Soc

/-- The two occasions on which a bus master acts. -/
inductive Phase where
  | cycle
  | timestep
  deriving DecidableEq

/-- One thing that happened. -/
inductive Record where
  /-- A window was opened, the `index`-th on its bus. -/
  | attached (index : Nat) (base pages : Word)
  | reservationSet (address : Word)
  | reservationLost (address : Word)
  /-- An instruction word was fetched and is about to be executed. -/
  | fetched (pc word : Word)
  | trapped (pc : Word) (trap : Trap)
  | returned (pc : Word)
  | storedConditionally (address status : Word)
  | acknowledged (line : Nat)
  | delivered (line : Nat)
  | segmentPlaced (base : Word) (size : Nat)
  | imageLoaded (segments : Nat) (entry : Word)
  | segmentSkipped (type : Word) (base : Word)
  | restarted (pc : Word)
  /-- The device in a slot took a turn and got these replies. -/
  | turn (slot : Nat) (phase : Phase) (replies : List Reply)

/-- How much a record matters. -/
inductive Level where
  | trace
  | debug
  | info
  deriving DecidableEq

/-- The name of a level. -/
def Level.name : Level → String
  | trace => "TRACE"
  | debug => "DEBUG"
  | info => "INFO"

/-- The address of the word that an address lies in. -/
def wordAddress (address : Word) : Word :=
  address &&& ~~~3#32

namespace Record

/-- The level of a record. -/
def level : Record → Level
  | fetched .. => .trace
  | segmentPlaced .. | imageLoaded .. | restarted _ => .info
  | _ => .debug

/-- The text of a record, if it has one. -/
def text? : Record → Option String
  | attached index base pages =>
      some ("attached peripheral " ++ Text.decimal index ++ " at " ++ Text.address base
        ++ " (" ++ Text.decimal pages.toNat ++ " pages)")
  | reservationSet address => some ("reservation set at " ++ Text.address (wordAddress address))
  | reservationLost address =>
      some ("reservation at " ++ Text.address (wordAddress address) ++ " cleared by store")
  | fetched pc word =>
      some (Text.address pc ++ ": " ++ Text.word word ++ "  " ++ (Isa.Instr.decode word).assembly)
  | trapped pc trap =>
      let about := match trap.badAddress? with
        | some address => ", bad address " ++ Text.address address
        | none => ""
      some ("trap at " ++ Text.address pc ++ ": " ++ trap.message ++ " (mcause "
        ++ Text.address trap.mcause ++ about ++ ")")
  | returned pc => some ("eret to " ++ Text.address pc)
  | storedConditionally address status =>
      some ("sc.w at " ++ Text.address address ++ ": status " ++ Text.decimal status.toNat)
  | acknowledged line => some ("interrupt line " ++ Text.decimal line ++ " acknowledged")
  | delivered line => some ("delivering interrupt line " ++ Text.decimal line)
  | segmentPlaced base size =>
      some ("segment " ++ Text.address base ++ ": " ++ Text.decimal size ++ " bytes")
  | imageLoaded segments entry =>
      some ("loaded " ++ Text.decimal segments ++ " segments, entry point " ++ Text.address entry)
  | segmentSkipped type base =>
      some ("skipping segment type " ++ Text.decimal type.toNat ++ " at " ++ Text.address base)
  | restarted pc => some ("reset, pc = " ++ Text.address pc)
  | turn .. => none

/-- The line that a record makes in a log, if it makes one. -/
def line? (r : Record) : Option String :=
  r.text?.map fun text => r.level.name ++ " " ++ text

end Record

/-- The records so far, oldest first, while the journal is on. -/
structure Journal where
  on : Bool := true
  records : Array Record := #[]

namespace Journal

/-- Write down a record, if the journal is on. -/
def note (j : Journal) (r : Record) : Journal :=
  if j.on then { j with records := j.records.push r } else j

/-- The journal without its records. -/
def emptied (j : Journal) : Journal :=
  { j with records := #[] }

end Journal

end Rv32Soc
