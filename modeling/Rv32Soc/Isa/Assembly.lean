import Rv32Soc.Isa.Mnemonic
import Rv32Soc.Text.Number

/-!
# Instructions as text

An instruction has two texts. Its *assembly* is the mnemonic and the operands
as an assembler takes them: registers as `x5`, immediates in decimal with a
sign, the upper immediate and control-register numbers in hexadecimal. Its
*record* names the operands, all in decimal, and is meant for inspection.

The assembly alone says everything: two decoded words with the same text are
the same instruction.
-/

namespace Rv32Soc.Isa

/-! ## Operands -/

/-- A register as an operand. -/
def registerText (r : Reg) : String :=
  "x" ++ Text.decimal r.toNat

/-- A signed immediate as an operand. -/
def immediateText (imm : Word) : String :=
  Text.signed imm.toInt

/-- A memory operand: an offset and a base register. -/
def memoryText (offset : Word) (base : Reg) : String :=
  immediateText offset ++ "(" ++ registerText base ++ ")"

/-- A memory operand without an offset. -/
def addressText (base : Reg) : String :=
  "(" ++ registerText base ++ ")"

/-- A control-register number as an operand. -/
def csrText (number : BitVec 12) : String :=
  "0x" ++ Text.hexPadded 3 number.toNat

/-- The upper twenty bits of an immediate as an operand. -/
def upperText (imm : Word) : String :=
  "0x" ++ Text.hex (imm >>> 12).toNat

namespace Instr

/-- The operands of an instruction in assembly order. -/
def operands : Instr → List String
  | lui dest imm | auipc dest imm => [registerText dest, upperText imm]
  | jal dest offset => [registerText dest, immediateText offset]
  | jalr dest base offset => [registerText dest, memoryText offset base]
  | branch _ src1 src2 offset =>
      [registerText src1, registerText src2, immediateText offset]
  | load _ dest base offset => [registerText dest, memoryText offset base]
  | store _ src base offset => [registerText src, memoryText offset base]
  | opImm _ dest src imm => [registerText dest, registerText src, immediateText imm]
  | shiftImm _ dest src amount =>
      [registerText dest, registerText src, Text.decimal amount.toNat]
  | op _ dest src1 src2 => [registerText dest, registerText src1, registerText src2]
  | loadReserved dest base => [registerText dest, addressText base]
  | storeConditional dest base src | amo _ dest base src =>
      [registerText dest, registerText src, addressText base]
  | scall | sbreak | eret => []
  | csr _ dest src number => [registerText dest, csrText number, registerText src]
  | csrImm _ dest value number =>
      [registerText dest, csrText number, Text.decimal value.toNat]
  | illegal word => [Text.address word]

/-- The spelling of an instruction's mnemonic. -/
def name (i : Instr) : String :=
  match i.mnemonic? with
  | some m => m.name
  | none => "illegal"

/-- The assembly of an instruction. -/
def assembly (i : Instr) : String :=
  match i.operands with
  | [] => i.name
  | operands => i.name ++ " " ++ ", ".intercalate operands

/-! ## Records -/

/-- The operands of an instruction by name, in the order of its record. -/
def fields : Instr → List (String × Int)
  | lui dest imm | auipc dest imm => [("dest", dest.toNat), ("imm", imm.toInt)]
  | jal dest offset => [("dest", dest.toNat), ("offset", offset.toInt)]
  | jalr dest base offset | load _ dest base offset =>
      [("dest", dest.toNat), ("base", base.toNat), ("offset", offset.toInt)]
  | branch _ src1 src2 offset =>
      [("src1", src1.toNat), ("src2", src2.toNat), ("offset", offset.toInt)]
  | store _ src base offset =>
      [("src", src.toNat), ("base", base.toNat), ("offset", offset.toInt)]
  | opImm _ dest src imm => [("dest", dest.toNat), ("src", src.toNat), ("imm", imm.toInt)]
  | shiftImm _ dest src amount =>
      [("dest", dest.toNat), ("src", src.toNat), ("shamt", amount.toNat)]
  | op _ dest src1 src2 => [("dest", dest.toNat), ("src1", src1.toNat), ("src2", src2.toNat)]
  | loadReserved dest base => [("dest", dest.toNat), ("base", base.toNat)]
  | storeConditional dest base src | amo _ dest base src =>
      [("dest", dest.toNat), ("base", base.toNat), ("src", src.toNat)]
  | scall | sbreak | eret | illegal _ => []
  | csr _ dest src number =>
      [("dest", dest.toNat), ("src", src.toNat), ("csr", number.toNat)]
  | csrImm _ dest value number =>
      [("dest", dest.toNat), ("uimm", value.toNat), ("csr", number.toNat)]

/-- A spelling as the name of a record: each part between full stops starts with a capital. -/
def recordName (name : List Char) : List Char :=
  go true name
where
  /-- `start` tells whether the next letter begins a part. -/
  go (start : Bool) : List Char → List Char
    | [] => []
    | '.' :: rest => go true rest
    | c :: rest => (if start then c.toUpper else c) :: go false rest

/-- The record of an instruction: its name and its fields between braces, and the whole word
between parentheses for what is no instruction. -/
def record (i : Instr) : String :=
  let name := String.ofList (recordName i.name.toList)
  match i with
  | illegal word => name ++ "(" ++ Text.decimal word.toNat ++ ")"
  | _ =>
      match i.fields with
      | [] => name
      | fields =>
          name ++ " \x7b "
            ++ ", ".intercalate (fields.map fun (field, value) => field ++ ": " ++ Text.signed value)
            ++ " \x7d"

end Instr

end Rv32Soc.Isa
