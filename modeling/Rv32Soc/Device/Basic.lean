import Rv32Soc.Device.InterruptController
import Rv32Soc.Device.Storage
import Rv32Soc.Device.Timer

/-!
# Devices

The devices that a bus can carry: the four kinds of this library, and any
further kind `ε` that keeps the contract of a peripheral. With `Empty` for `ε`
there are only the four.

Reading and writing go by local offset and access width. Of the four kinds
only the memories answer all widths. A store may acknowledge interrupts, when
it reaches the controller, and so its result is the list of them.
-/

namespace Rv32Soc

/-- A device on the bus. -/
inductive Device (ε : Type) where
  | ram (storage : Storage)
  | rom (storage : Storage)
  | timer (timer : Timer)
  | controller (controller : InterruptController)
  | external (device : ε)

namespace Device

variable {ε : Type}

/-- The number of pages that a device occupies. -/
def pages [Peripheral ε] : Device ε → Word
  | ram s | rom s => s.pages
  | timer _ => 1
  | controller _ => InterruptController.pageCount
  | external e => Peripheral.pages e

/-- An answer that leaves the device as it is. -/
def answer {α : Type} (d : Device ε) : Except AddressTrap α →
    EStateM.Result AddressTrap (Device ε) α
  | .ok a => .ok a d
  | .error trap => .error trap d

/-- Answer a load. -/
def read [Peripheral ε] (w : Width) (offset : Word) :
    EStateM AddressTrap (Device ε) (BitVec w.bits)
  | ram s => answer (ram s) (s.read w offset)
  | rom s => answer (rom s) (s.read w offset)
  | timer t =>
      match w with
      | .word => answer (timer t) (t.readWord offset)
      | _ => .error (refuseLoad offset) (timer t)
  | controller c =>
      match w with
      | .word => answer (controller c) (c.readWord offset)
      | _ => .error (refuseLoad offset) (controller c)
  | external e =>
      match Peripheral.read w offset e with
      | .ok value e => .ok value (external e)
      | .error trap e => .error trap (external e)

/-- Answer a store. -/
def write [Peripheral ε] (w : Width) (offset : Word) (value : BitVec w.bits) :
    EStateM AddressTrap (Device ε) (List Acknowledgement)
  | ram s =>
      match Storage.write w offset value s with
      | .ok () s => .ok [] (ram s)
      | .error trap s => .error trap (ram s)
  | rom s => .error ⟨.storeAccessFault, offset⟩ (rom s)
  | timer t =>
      match w, value with
      | .word, value =>
          match Timer.writeWord offset value t with
          | .ok () t => .ok [] (timer t)
          | .error trap t => .error trap (timer t)
      | _, _ => .error (refuseStore offset) (timer t)
  | controller c =>
      match w, value with
      | .word, value =>
          match InterruptController.writeWord offset value c with
          | .ok told c => .ok told (controller c)
          | .error trap c => .error trap (controller c)
      | _, _ => .error (refuseStore offset) (controller c)
  | external e =>
      match Peripheral.write w offset value e with
      | .ok () e => .ok [] (external e)
      | .error trap e => .error trap (external e)

/-- The device requests an interrupt. -/
def asserting [Peripheral ε] : Device ε → Bool
  | timer t => t.asserting
  | external e => Peripheral.asserting e
  | ram _ | rom _ | controller _ => false

/-- The device after its interrupt has been acknowledged. -/
def acknowledge [Peripheral ε] : Device ε → Device ε
  | external e => external (Peripheral.acknowledge e)
  | d => d

/-- The storage of a memory. -/
def storage? : Device ε → Option Storage
  | ram s | rom s => some s
  | _ => none

/-- Put bytes into a memory from outside. Other devices take none. -/
def program (offset : Word) (bytes : Array Byte) : EStateM MemoryError (Device ε) Unit
  | ram s =>
      match Storage.program offset bytes s with
      | .ok () s => .ok () (ram s)
      | .error e s => .error e (ram s)
  | rom s =>
      match Storage.program offset bytes s with
      | .ok () s => .ok () (rom s)
      | .error e s => .error e (rom s)
  | d => .error (.outOfRange offset bytes.size 0) d

/-- A memory with every byte back at zero. Other devices stay as they are. -/
def cleared : Device ε → Device ε
  | ram s => ram s.cleared
  | rom s => rom s.cleared
  | d => d

end Device

end Rv32Soc
