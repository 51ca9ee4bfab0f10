import Rv32Soc.Bus.Access
import Rv32Soc.Bus.Basic
import Rv32Soc.Bus.Window
import Rv32Soc.Device.Basic
import Rv32Soc.Device.InterruptController
import Rv32Soc.Device.Peripheral
import Rv32Soc.Device.Probe
import Rv32Soc.Device.Register
import Rv32Soc.Device.Storage
import Rv32Soc.Device.Timer
import Rv32Soc.Elf.File
import Rv32Soc.Elf.Header
import Rv32Soc.Elf.Image
import Rv32Soc.Emulator.Options
import Rv32Soc.Emulator.Session
import Rv32Soc.Hart.Basic
import Rv32Soc.Hart.Csr
import Rv32Soc.Hart.Execute
import Rv32Soc.Hart.Registers
import Rv32Soc.Hart.Step
import Rv32Soc.Isa.Alu
import Rv32Soc.Isa.Assembler
import Rv32Soc.Isa.Assembly
import Rv32Soc.Isa.Code
import Rv32Soc.Isa.Decode
import Rv32Soc.Isa.Encode
import Rv32Soc.Isa.Format
import Rv32Soc.Isa.Instr
import Rv32Soc.Isa.Mnemonic
import Rv32Soc.Journal
import Rv32Soc.Main
import Rv32Soc.Memory
import Rv32Soc.Microcontroller.Basic
import Rv32Soc.Microcontroller.Loader
import Rv32Soc.Proofs.Slots
import Rv32Soc.Text.Backspace
import Rv32Soc.Text.Blank
import Rv32Soc.Text.BreakTable
import Rv32Soc.Text.Cluster
import Rv32Soc.Text.HexBytes
import Rv32Soc.Text.Number
import Rv32Soc.Text.Numeral
import Rv32Soc.Trap
import Rv32Soc.Word
import Rv32Soc.Proofs.PreciseTraps
import Rv32Soc.Proofs.Codes
import Rv32Soc.Proofs.Formats
import Rv32Soc.Proofs.Codec
import Rv32Soc.Proofs.Spelling
import Rv32Soc.Proofs.Dispatch
import Rv32Soc.Proofs.Evolution
import Rv32Soc.Proofs.InterruptDelivery
import Rv32Soc.Proofs.Windows
import Rv32Soc.Proofs.AddressSpace
import Rv32Soc.Proofs.Accesses
import Rv32Soc.Proofs.MemoryInstructions
import Rv32Soc.Proofs.Events
import Rv32Soc.Proofs.ByteRows
import Rv32Soc.Proofs.Reservations
import Rv32Soc.Proofs.Atomicity
import Rv32Soc.Proofs.FlatMemory
import Rv32Soc.Proofs.ControlRegisters
import Rv32Soc.Proofs.TrapHandlers
import Rv32Soc.Proofs.Housing
import Rv32Soc.Proofs.Loading
import Rv32Soc.Proofs.ElfImages
import Rv32Soc.Proofs.ElfFiles
import Rv32Soc.Proofs.BootRoundTrip
import Rv32Soc.Proofs.Footprints
import Rv32Soc.Proofs.Exceptions
import Rv32Soc.Proofs.ReadOnly
import Rv32Soc.Proofs.Unlogged
import Rv32Soc.Proofs.Actions
import Rv32Soc.Proofs.Reloading
import Rv32Soc.Proofs.Histories
import Rv32Soc.Proofs.PendingLines
import Rv32Soc.Proofs.Acknowledgements
import Rv32Soc.Proofs.Arbitration
import Rv32Soc.Proofs.Deliveries
import Rv32Soc.Proofs.Alignment
import Rv32Soc.Proofs.Debugger
import Rv32Soc.Proofs.Arithmetic
import Rv32Soc.Proofs.Results
import Rv32Soc.Proofs.LoadsAndStores
import Rv32Soc.Proofs.TimerRuns
import Rv32Soc.Proofs.Turns
import Rv32Soc.Proofs.IntegerOperations
import Rv32Soc.Proofs.ControlTransfer
import Rv32Soc.Proofs.Exchanges
import Rv32Soc.Proofs.RegisterView
import Rv32Soc.Proofs.Contention
import Rv32Soc.Proofs.FormatRoundTrips
import Rv32Soc.Proofs.TimerRegisters
import Rv32Soc.Proofs.Configurations
import Rv32Soc.Proofs.Numerals
import Rv32Soc.Proofs.Disassembly
import Rv32Soc.Proofs.BackingStore
import Rv32Soc.Proofs.BitFields
