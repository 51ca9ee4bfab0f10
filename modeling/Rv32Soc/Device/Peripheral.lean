import Rv32Soc.Trap

/-!
# What a peripheral is

A peripheral occupies a number of pages and answers reads and writes at
offsets inside them. It may also act by itself, once per cycle and once per
timestep, and then it reaches the rest of the machine only by requests to the
bus. What it does in one such turn is a `Script`: a tree that at each node
asks for one access and continues with the reply, until it ends with the
peripheral's new state. A script is data, so a statement about all
peripherals is a statement about all trees.

`Peripheral` is the contract in full. The machine's own devices are closed
types of this library; any other type with an instance can stand beside them.
-/

namespace Rv32Soc

universe u

/-! ## Requests to the bus -/

/-- One access that a bus master asks for. A stored value is cut to the width. -/
inductive Request where
  | load (width : Width) (address : Word)
  | store (width : Width) (address : Word) (value : Word)
  deriving DecidableEq

/-- What the bus says to a request: the trap that refused it, the word that was loaded, or
nothing for a store. -/
abbrev Reply := Except AddressTrap (Option Word)

/-- One turn of a bus master. -/
inductive Script (α : Type u) where
  /-- The turn is over. -/
  | done (result : α)
  /-- Ask for an access and go on with the reply. -/
  | ask (request : Request) (next : Reply → Script α)

namespace Script

/-- Ask for accesses one after the other, whatever the replies, and end. -/
def askAll {α : Type u} (requests : List Request) (result : α) : Script α :=
  requests.foldr (fun request rest => .ask request fun _ => rest) (.done result)

end Script

/-! ## The contract -/

/-- A device that can stand on the bus. An offset is local to the device; a refusal names it. -/
class Peripheral (ε : Type) where
  /-- The number of pages that the device occupies. -/
  pages : ε → Word
  /-- Answer a load. -/
  read : (w : Width) → (offset : Word) → EStateM AddressTrap ε (BitVec w.bits)
  /-- Answer a store. -/
  write : (w : Width) → (offset : Word) → BitVec w.bits → EStateM AddressTrap ε Unit
  /-- The turn that the device takes in every cycle. -/
  cycle : ε → Script ε
  /-- The turn that the device takes in every timestep. -/
  timestep : ε → Script ε
  /-- The device requests an interrupt. -/
  asserting : ε → Bool
  /-- The device is told that its interrupt has been acknowledged. -/
  acknowledge : ε → ε

/-- Where there are no further devices, there is nothing to say about them. -/
instance : Peripheral Empty where
  pages := nofun
  read _ _ := nofun
  write _ _ _ := nofun
  cycle := nofun
  timestep := nofun
  asserting := nofun
  acknowledge := nofun

/-- How a device with nothing but word registers refuses a load of another width. -/
def refuseLoad (offset : Word) : AddressTrap :=
  ⟨.loadMisaligned, offset⟩

/-- How a device with nothing but word registers refuses a store of another width. -/
def refuseStore (offset : Word) : AddressTrap :=
  ⟨.storeMisaligned, offset⟩

end Rv32Soc
