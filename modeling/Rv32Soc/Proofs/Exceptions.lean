import Rv32Soc.Proofs.Footprints
import Rv32Soc.Proofs.Spelling

/-!
# Which exceptions there are

An access can be refused at four places. The bus looks at the address, and
finds a device or none; the device looks at the width and at the offset; the
hart gives the refusal the name of an exception, and for an atomic operation
or a fetch it gives it another. What comes out in the end can be told without
the four: an access is misaligned if its address does not suit the width, or
if less than a word is asked of a device that has registers only, and this
goes before all else; any other access that is refused is an access fault; and
the address that is reported is always that of the access.

On this the classification of the exceptions is built, family by family of the
instructions, and then for a step. It is exact: the exceptions it names are
raised just where it says, and there are no others.
-/

namespace Rv32Soc

/-! ## What devices answer -/

theorem Timer.readWord_cases (t : Timer) (offset : Word) :
    registerIndex offset < 6 ∧ (∃ value, t.readWord offset = .ok value)
      ∨ ¬registerIndex offset < 6 ∧ t.readWord offset = .error ⟨.loadAccessFault, offset⟩ := by
  unfold readWord
  generalize registerIndex offset = index
  split <;> try exact .inl ⟨by decide, _, rfl⟩
  refine .inr ⟨?_, rfl⟩
  simp only [imp_false] at *
  omega

theorem Timer.writeWord_cases (t : Timer) (offset value : Word) :
    (registerIndex offset < 5 ∨ registerIndex offset = 6)
        ∧ (∃ t', writeWord offset value t = .ok () t')
      ∨ ¬(registerIndex offset < 5 ∨ registerIndex offset = 6)
        ∧ writeWord offset value t = .error ⟨.storeAccessFault, offset⟩ t := by
  unfold writeWord
  generalize registerIndex offset = index
  split <;> try exact .inl ⟨by decide, _, rfl⟩
  refine .inr ⟨?_, rfl⟩
  simp only [imp_false] at *
  omega

namespace InterruptController

theorem priorityLine?_cases (index : Nat) :
    (4 ≤ index ∧ index < 36) ∧ (∃ l, priorityLine? index = some l)
      ∨ ¬(4 ≤ index ∧ index < 36) ∧ priorityLine? index = none := by
  unfold priorityLine?
  split
  · exact .inl ⟨by omega, _, rfl⟩
  · exact .inr ⟨by omega, rfl⟩

theorem readWord_cases (c : InterruptController) (offset : Word) :
    registerIndex offset < 36 ∧ (∃ value, c.readWord offset = .ok value)
      ∨ ¬registerIndex offset < 36 ∧ c.readWord offset = .error ⟨.loadAccessFault, offset⟩ := by
  unfold readWord
  generalize registerIndex offset = index
  split <;> try exact .inl ⟨by decide, _, rfl⟩
  simp only [imp_false] at *
  rcases priorityLine?_cases index with ⟨hindex, l, hline⟩ | ⟨hindex, hline⟩
  · rw [hline]
    exact .inl ⟨hindex.2, _, rfl⟩
  · rw [hline]
    exact .inr ⟨by omega, rfl⟩

theorem writeWord_cases (c : InterruptController) (offset value : Word) :
    (registerIndex offset < 36 ∧ registerIndex offset ≠ 2)
        ∧ (∃ told c', writeWord offset value c = .ok told c')
      ∨ ¬(registerIndex offset < 36 ∧ registerIndex offset ≠ 2)
        ∧ writeWord offset value c = .error ⟨.storeAccessFault, offset⟩ c := by
  unfold writeWord
  generalize registerIndex offset = index
  split <;> try exact .inl ⟨by decide, _, _, rfl⟩
  simp only [imp_false] at *
  rcases priorityLine?_cases index with ⟨hindex, l, hline⟩ | ⟨hindex, hline⟩
  · rw [hline]
    exact .inl ⟨by omega, _, _, rfl⟩
  · rw [hline]
    exact .inr ⟨by omega, rfl⟩

end InterruptController

namespace Device

/-- The device shows registers, which are words and nothing less. -/
def showsRegisters {ε : Type} : Device ε → Bool
  | timer _ | controller _ => true
  | ram _ | rom _ | external _ => false

/-- Which loads a device answers: memories all within their bytes, the timer those of its first six
registers, and the interrupt controller those of its thirty-six. -/
def AnswersLoad (w : Width) (offset : Word) : Device Empty → Prop
  | ram s | rom s => s.memory.InRange offset w.bytes
  | timer _ => w = .word ∧ registerIndex offset < 6
  | controller _ => w = .word ∧ registerIndex offset < 36

/-- Which stores a device takes: a RAM all within its bytes and a ROM none; of the registers all
that can be written. -/
def TakesStore (w : Width) (offset : Word) : Device Empty → Prop
  | ram s => s.memory.InRange offset w.bytes
  | rom _ => False
  | timer _ => w = .word ∧ (registerIndex offset < 5 ∨ registerIndex offset = 6)
  | controller _ => w = .word ∧ registerIndex offset < 36 ∧ registerIndex offset ≠ 2

/-- A part of a word is asked of a device that has words only. -/
def Splits (w : Width) (d : Device Empty) : Prop :=
  w ≠ .word ∧ d.showsRegisters

theorem not_splits_word (d : Device Empty) : ¬d.Splits .word :=
  fun h => h.1 rfl

theorem read_cases (w : Width) (offset : Word) (d : Device Empty) :
    d.Splits w ∧ read w offset d = .error ⟨.loadMisaligned, offset⟩ d
      ∨ ¬d.Splits w ∧ d.AnswersLoad w offset ∧ (∃ value, read w offset d = .ok value d)
      ∨ ¬d.Splits w ∧ ¬d.AnswersLoad w offset
        ∧ read w offset d = .error ⟨.loadAccessFault, offset⟩ d := by
  cases d with
  | ram s | rom s =>
      simp only [AnswersLoad, Splits, showsRegisters, read, Storage.read, Memory.read]
      by_cases hinside : s.memory.InRange offset w.bytes
      · simp [hinside, answer]
      · simp [hinside, answer]
  | timer t =>
      cases w with
      | byte | halfword => exact .inl ⟨⟨by decide, rfl⟩, rfl⟩
      | word =>
          refine .inr ?_
          rcases t.readWord_cases offset with ⟨hindex, value, hread⟩ | ⟨hindex, hread⟩
          · exact .inl ⟨not_splits_word _, ⟨rfl, hindex⟩, value, by rw [read, hread]; rfl⟩
          · exact .inr ⟨not_splits_word _, fun h => hindex h.2, by rw [read, hread]; rfl⟩
  | controller c =>
      cases w with
      | byte | halfword => exact .inl ⟨⟨by decide, rfl⟩, rfl⟩
      | word =>
          refine .inr ?_
          rcases c.readWord_cases offset with ⟨hindex, value, hread⟩ | ⟨hindex, hread⟩
          · exact .inl ⟨not_splits_word _, ⟨rfl, hindex⟩, value, by rw [read, hread]; rfl⟩
          · exact .inr ⟨not_splits_word _, fun h => hindex h.2, by rw [read, hread]; rfl⟩
  | external e => exact e.elim

theorem write_cases (w : Width) (offset : Word) (value : BitVec w.bits) (d : Device Empty) :
    d.Splits w ∧ write w offset value d = .error ⟨.storeMisaligned, offset⟩ d
      ∨ ¬d.Splits w ∧ d.TakesStore w offset ∧ (∃ told d', write w offset value d = .ok told d')
      ∨ ¬d.Splits w ∧ ¬d.TakesStore w offset
        ∧ write w offset value d = .error ⟨.storeAccessFault, offset⟩ d := by
  cases d with
  | ram s =>
      simp only [TakesStore, Splits, showsRegisters, write, Storage.write, Memory.write]
      by_cases hinside : s.memory.InRange offset w.bytes
      · simp [hinside]
      · simp [hinside]
  | rom s => exact .inr (.inr ⟨fun h => Bool.false_ne_true h.2, id, rfl⟩)
  | timer t =>
      cases w with
      | byte | halfword => exact .inl ⟨⟨by decide, rfl⟩, rfl⟩
      | word =>
          refine .inr ?_
          rcases t.writeWord_cases offset value with ⟨hindex, t', hwrite⟩ | ⟨hindex, hwrite⟩
          · exact .inl ⟨not_splits_word _, ⟨rfl, hindex⟩, [], .timer t',
              by simp only [write, hwrite]⟩
          · exact .inr ⟨not_splits_word _, fun h => hindex h.2, by simp only [write, hwrite]⟩
  | controller c =>
      cases w with
      | byte | halfword => exact .inl ⟨⟨by decide, rfl⟩, rfl⟩
      | word =>
          refine .inr ?_
          rcases c.writeWord_cases offset value with ⟨hindex, told, c', hwrite⟩ | ⟨hindex, hwrite⟩
          · exact .inl ⟨not_splits_word _, ⟨rfl, hindex⟩, told, .controller c',
              by simp only [write, hwrite]⟩
          · exact .inr ⟨not_splits_word _, fun h => hindex h.2, by simp only [write, hwrite]⟩
  | external e => exact e.elim

end Device

/-! ## What the bus answers -/

namespace Bus

/-- The device that an address leads to, and the offset that it is asked for. -/
def behind? (b : Bus Empty) (address : Word) : Option (Device Empty × Word) :=
  (b.route address).bind fun place => (b.device? place.1).map fun d => (d, place.2)

/-- The address leads to a device that has the property at the offset. -/
def Leads (b : Bus Empty) (address : Word) (P : Device Empty → Word → Prop) : Prop :=
  ∃ d offset, b.behind? address = some (d, offset) ∧ P d offset

/-- The access is misaligned: the address does not suit the width, or a device that has words only
is asked for less. -/
def Torn (b : Bus Empty) (w : Width) (address : Word) : Prop :=
  ¬w.Aligned address ∨ b.Leads address fun d _ => d.Splits w

/-- The address leads to a device that answers loads of the width there. -/
def Readable (b : Bus Empty) (w : Width) (address : Word) : Prop :=
  b.Leads address fun d offset => d.AnswersLoad w offset

/-- The address leads to a device that takes stores of the width there. -/
def Writable (b : Bus Empty) (w : Width) (address : Word) : Prop :=
  b.Leads address fun d offset => d.TakesStore w offset

section Behind

variable {b : Bus Empty} {w : Width} {address : Word}

theorem not_leads (hnone : b.behind? address = none) (P : Device Empty → Word → Prop) :
    ¬b.Leads address P := by
  rintro ⟨d, offset, hbehind, -⟩
  rw [hnone] at hbehind
  cases hbehind

theorem leads_iff {d : Device Empty} {offset : Word}
    (hbehind : b.behind? address = some (d, offset)) (P : Device Empty → Word → Prop) :
    b.Leads address P ↔ P d offset := by
  constructor
  · rintro ⟨e, place, hother, hP⟩
    rw [hbehind] at hother
    cases hother
    exact hP
  · exact fun hP => ⟨d, offset, hbehind, hP⟩

theorem torn_iff_of_aligned (haligned : w.Aligned address) :
    b.Torn w address ↔ b.Leads address fun d _ => d.Splits w :=
  or_iff_right (not_not_intro haligned)

theorem torn_word : b.Torn .word address ↔ ¬Width.Aligned .word address := by
  refine ⟨?_, .inl⟩
  rintro (hmisaligned | ⟨d, offset, -, hsplits⟩)
  · exact hmisaligned
  · exact absurd hsplits d.not_splits_word

theorem behind?_eq_some {d : Device Empty} {offset : Word} :
    b.behind? address = some (d, offset)
      ↔ ∃ slot, b.route address = some (slot, offset) ∧ b.device? slot = some d := by
  simp [behind?, Option.bind_eq_some_iff]

/-- An access to nowhere finds no window, or one whose device has left its slot. -/
theorem behind?_eq_none : b.behind? address = none
    ↔ ∀ slot offset, b.route address = some (slot, offset) → b.device? slot = none := by
  simp [behind?, Option.bind_eq_none_iff]

end Behind

theorem load_cases (w : Width) (address : Word) (b : Bus Empty) :
    b.Torn w address ∧ load w address b = .error ⟨.loadMisaligned, address⟩ b
      ∨ ¬b.Torn w address ∧ b.Readable w address ∧ (∃ value, load w address b = .ok value b)
      ∨ ¬b.Torn w address ∧ ¬b.Readable w address
        ∧ load w address b = .error ⟨.loadAccessFault, address⟩ b := by
  by_cases haligned : w.Aligned address
  · rw [torn_iff_of_aligned haligned, load, if_pos haligned]
    cases hbehind : b.behind? address with
    | none =>
        refine .inr (.inr ⟨not_leads hbehind _, not_leads hbehind _, ?_⟩)
        have hvacant := behind?_eq_none.mp hbehind
        cases hroute : b.route address with
        | none => rfl
        | some place =>
            obtain ⟨slot, offset⟩ := place
            simp only [loadFrom, visit_vacant (hvacant slot offset hroute)]
    | some place =>
        obtain ⟨d, offset⟩ := place
        obtain ⟨slot, hroute, hd⟩ := behind?_eq_some.mp hbehind
        rw [Readable, leads_iff hbehind, leads_iff hbehind, hroute]
        rcases d.read_cases w offset with
          ⟨hsplits, hread⟩ | ⟨hwhole, hanswers, value, hread⟩ | ⟨hwhole, hrefuses, hread⟩
        · refine .inl ⟨hsplits, ?_⟩
          simp only [loadFrom, visit_error hd hread, put_self hd]
        · refine .inr (.inl ⟨hwhole, hanswers, value, ?_⟩)
          simp only [loadFrom, visit_ok hd hread, put_self hd]
        · refine .inr (.inr ⟨hwhole, hrefuses, ?_⟩)
          simp only [loadFrom, visit_error hd hread, put_self hd]
  · exact .inl ⟨.inl haligned, by rw [load, if_neg haligned]⟩

theorem store_cases (w : Width) (address : Word) (value : BitVec w.bits) (b : Bus Empty) :
    b.Torn w address ∧ store w address value b = .error ⟨.storeMisaligned, address⟩ b
      ∨ ¬b.Torn w address ∧ b.Writable w address ∧ (∃ b', store w address value b = .ok () b')
      ∨ ¬b.Torn w address ∧ ¬b.Writable w address
        ∧ store w address value b = .error ⟨.storeAccessFault, address⟩ b := by
  by_cases haligned : w.Aligned address
  · rw [torn_iff_of_aligned haligned, store, if_pos haligned]
    cases hbehind : b.behind? address with
    | none =>
        refine .inr (.inr ⟨not_leads hbehind _, not_leads hbehind _, ?_⟩)
        have hvacant := behind?_eq_none.mp hbehind
        cases hroute : b.route address with
        | none => rfl
        | some place =>
            obtain ⟨slot, offset⟩ := place
            simp only [storeInto, visit_vacant (hvacant slot offset hroute)]
    | some place =>
        obtain ⟨d, offset⟩ := place
        obtain ⟨slot, hroute, hd⟩ := behind?_eq_some.mp hbehind
        rw [Writable, leads_iff hbehind, leads_iff hbehind, hroute]
        rcases d.write_cases w offset value with
          ⟨hsplits, hwrite⟩ | ⟨hwhole, htakes, told, d', hwrite⟩ | ⟨hwhole, hrefuses, hwrite⟩
        · refine .inl ⟨hsplits, ?_⟩
          simp only [storeInto, visit_error hd hwrite, put_self hd]
        · refine .inr (.inl ⟨hwhole, htakes, ?_⟩)
          simp only [storeInto, visit_ok hd hwrite]
          exact ⟨_, rfl⟩
        · refine .inr (.inr ⟨hwhole, hrefuses, ?_⟩)
          simp only [storeInto, visit_error hd hwrite, put_self hd]
  · exact .inl ⟨.inl haligned, by rw [store, if_neg haligned]⟩

/-! ## Refusals as exceptions -/

/-- The exception that a load raises: where it is misaligned it does not matter whether anything
would answer. -/
def RefusesLoad (b : Bus Empty) (w : Width) (address : Word) (e : Exception) : Prop :=
  b.Torn w address ∧ e = .loadAddressMisaligned address
    ∨ ¬b.Torn w address ∧ ¬b.Readable w address ∧ e = .loadAccessFault address

/-- The exception that a store raises, likewise. -/
def RefusesStore (b : Bus Empty) (w : Width) (address : Word) (e : Exception) : Prop :=
  b.Torn w address ∧ e = .storeAddressMisaligned address
    ∨ ¬b.Torn w address ∧ ¬b.Writable w address ∧ e = .storeAccessFault address

theorem load_outcome (w : Width) (address : Word) (b : Bus Empty) :
    (∃ value, load w address b = .ok value b ∧ ∀ e, ¬b.RefusesLoad w address e)
      ∨ ∃ trap, load w address b = .error trap b
        ∧ ∀ e, b.RefusesLoad w address e ↔ trap.toException = e := by
  rcases load_cases w address b with ⟨htorn, hload⟩ | ⟨hwhole, hread, value, hload⟩ |
    ⟨hwhole, hunread, hload⟩
  · refine .inr ⟨_, hload, fun e => ?_⟩
    simp [RefusesLoad, htorn, AddressTrap.toException, eq_comm]
  · refine .inl ⟨value, hload, fun e => ?_⟩
    simp [RefusesLoad, hwhole, hread]
  · refine .inr ⟨_, hload, fun e => ?_⟩
    simp [RefusesLoad, hwhole, hunread, AddressTrap.toException, eq_comm]

theorem store_outcome (w : Width) (address : Word) (value : BitVec w.bits) (b : Bus Empty) :
    (∃ b', store w address value b = .ok () b' ∧ ∀ e, ¬b.RefusesStore w address e)
      ∨ ∃ trap, store w address value b = .error trap b
        ∧ ∀ e, b.RefusesStore w address e ↔ trap.toException = e := by
  rcases store_cases w address value b with ⟨htorn, hstore⟩ | ⟨hwhole, htakes, b', hstore⟩ |
    ⟨hwhole, hrefuses, hstore⟩
  · refine .inr ⟨_, hstore, fun e => ?_⟩
    simp [RefusesStore, htorn, AddressTrap.toException, eq_comm]
  · refine .inl ⟨b', hstore, fun e => ?_⟩
    simp [RefusesStore, hwhole, htakes]
  · refine .inr ⟨_, hstore, fun e => ?_⟩
    simp [RefusesStore, hwhole, hrefuses, AddressTrap.toException, eq_comm]

end Bus

/-! ## Control registers -/

namespace Csr

/-- The numbers of the control registers that there are. -/
def numbers : List (BitVec 12) :=
  [0x300, 0x340, 0x341, 0x342, 0x343, 0xf00, 0xf01, 0xf10]

/-- The numbers of those that cannot be written. -/
def readOnlyNumbers : List (BitVec 12) :=
  [0xf00, 0xf01, 0xf10]

/-- There is no such register, or it is to be written and cannot be. -/
def Refuses (number : BitVec 12) (writes : Bool) : Prop :=
  number ∉ numbers ∨ writes = true ∧ number ∈ readOnlyNumbers

theorem read_of_mem {number : BitVec 12} (h : number ∈ numbers) (c : Csr) :
    ∃ value, c.read (number.setWidth 16) = .ok value := by
  simp only [numbers, List.mem_cons, List.not_mem_nil, or_false] at h
  rcases h with rfl | rfl | rfl | rfl | rfl | rfl | rfl | rfl <;> exact ⟨_, rfl⟩

theorem read_of_not_mem {number : BitVec 12} (h : number ∉ numbers) (c : Csr) :
    c.read (number.setWidth 16) = .error (.notPresent (number.setWidth 16)) := by
  have hne : ∀ n ∈ numbers, number.setWidth 16 ≠ n.setWidth 16 :=
    fun n hn => widened_ne fun heq => h (heq ▸ hn)
  simp [numbers] at hne
  simp [read, hne]

theorem write_of_readOnly {number : BitVec 12} (h : number ∈ readOnlyNumbers) (c : Csr)
    (value : Word) : ∃ e, c.write (number.setWidth 16) value = .error e := by
  simp only [readOnlyNumbers, List.mem_cons, List.not_mem_nil, or_false] at h
  rcases h with rfl | rfl | rfl <;> exact ⟨_, rfl⟩

theorem write_of_mem {number : BitVec 12} (h : number ∈ numbers) (hfixed : number ∉ readOnlyNumbers)
    (c : Csr) (value : Word) : ∃ c', c.write (number.setWidth 16) value = .ok c' := by
  simp only [numbers, List.mem_cons, List.not_mem_nil, or_false] at h
  rcases h with rfl | rfl | rfl | rfl | rfl | rfl | rfl | rfl <;>
    first | exact ⟨_, rfl⟩ | exact absurd (by decide) hfixed

end Csr

namespace Hart

open Isa

/-- A control-register instruction is refused before it has done anything, or it is done. -/
theorem executeCsr_cases {ε : Type} (word : Word) (op : CsrOp) (dest : Reg) (number : BitVec 12)
    (source : Word) (writes : Bool) (h : Hart ε) :
    Csr.Refuses number writes
        ∧ executeCsr word op dest number source writes h = .error (.illegalInstruction word) h
      ∨ ¬Csr.Refuses number writes
        ∧ ∃ old csr, h.csr.read (number.setWidth 16) = .ok old
          ∧ (if writes then h.csr.write (number.setWidth 16) (op.eval old source) else .ok h.csr)
            = .ok csr
          ∧ executeCsr word op dest number source writes h
            = .ok () ({ h with csr }.finished dest old) := by
  rw [executeCsr_apply, Csr.Refuses]
  by_cases hpresent : number ∈ Csr.numbers
  · obtain ⟨old, hread⟩ := Csr.read_of_mem hpresent h.csr
    cases writes with
    | false => simp [hread, hpresent]
    | true =>
        by_cases hfixed : number ∈ Csr.readOnlyNumbers
        · obtain ⟨refusal, hwrite⟩ := Csr.write_of_readOnly hfixed h.csr (op.eval old source)
          simp [hread, hwrite, hfixed]
        · obtain ⟨csr, hwrite⟩ := Csr.write_of_mem hpresent hfixed h.csr (op.eval old source)
          simp [hread, hwrite, hpresent, hfixed]
  · simp [Csr.read_of_not_mem hpresent, hpresent]

/-! ## Exceptions of instructions -/

/-- The exceptions that the execution of an instruction raises, family by family. The word is the
one that was fetched. -/
def InstrRaises (h : Hart Empty) (word : Word) : Instr → Exception → Prop
  | .jal _ offset, e =>
      ¬Width.Aligned .word (h.pc + offset) ∧ e = .instructionAddressMisaligned (h.pc + offset)
  | .jalr _ base offset, e =>
      ¬Width.Aligned .word ((h.x base + offset) &&& ~~~1#32)
        ∧ e = .instructionAddressMisaligned ((h.x base + offset) &&& ~~~1#32)
  | .branch cond src1 src2 offset, e =>
      cond.holds (h.x src1) (h.x src2) = true ∧ ¬Width.Aligned .word (h.pc + offset)
        ∧ e = .instructionAddressMisaligned (h.pc + offset)
  | .load kind _ base offset, e => h.bus.RefusesLoad kind.width (h.x base + offset) e
  | .loadReserved _ base, e => h.bus.RefusesLoad .word (h.x base) e
  | .store width _ base offset, e => h.bus.RefusesStore width (h.x base + offset) e
  | .storeConditional _ base _, e =>
      (Width.Aligned .word (h.x base) → h.bus.isReserved (h.x base) = true)
        ∧ h.bus.RefusesStore .word (h.x base) e
  | .amo _ _ base _, e =>
      ¬Width.Aligned .word (h.x base) ∧ e = .storeAddressMisaligned (h.x base)
        ∨ Width.Aligned .word (h.x base)
          ∧ ¬(h.bus.Readable .word (h.x base) ∧ h.bus.Writable .word (h.x base))
          ∧ e = .storeAccessFault (h.x base)
  | .csr op _ src number, e => Csr.Refuses number (csrWrites op src) ∧ e = .illegalInstruction word
  | .csrImm op _ value number, e =>
      Csr.Refuses number (csrWrites op value) ∧ e = .illegalInstruction word
  | .illegal _, e => e = .illegalInstruction word
  | .scall, e => e = .machineCall
  | .sbreak, e => e = .breakpoint
  | .lui .., _ | .auipc .., _ | .opImm .., _ | .shiftImm .., _ | .op .., _ | .eret, _ => False

section Families

variable {h : Hart Empty} {e : Exception}

theorem jumpTo_fails {target : Word} : (∃ h', jumpTo target h = .error e h')
    ↔ ¬Width.Aligned .word target ∧ e = .instructionAddressMisaligned target := by
  rw [jumpTo]
  by_cases haligned : Width.Aligned .word target
  · simp [haligned]
  · simp [haligned, eq_comm]

theorem jumpAndLink_fails {dest : Reg} {target : Word} :
    (∃ h', jumpAndLink dest target h = .error e h')
      ↔ ¬Width.Aligned .word target ∧ e = .instructionAddressMisaligned target := by
  rw [jumpAndLink_apply]
  by_cases haligned : Width.Aligned .word target
  · simp [haligned]
  · simp [haligned, eq_comm]

theorem executeBranch_fails {cond : Branch} {src1 src2 : Reg} {offset : Word} :
    (∃ h', executeBranch cond src1 src2 offset h = .error e h')
      ↔ cond.holds (h.x src1) (h.x src2) = true ∧ ¬Width.Aligned .word (h.pc + offset)
        ∧ e = .instructionAddressMisaligned (h.pc + offset) := by
  rw [executeBranch_apply]
  cases htaken : cond.holds (h.x src1) (h.x src2) with
  | false => simp
  | true => simp [jumpTo_fails]

theorem executeLoad_fails {kind : Load} {dest base : Reg} {offset : Word} :
    (∃ h', executeLoad kind dest base offset h = .error e h')
      ↔ h.bus.RefusesLoad kind.width (h.x base + offset) e := by
  rw [executeLoad_apply]
  rcases Bus.load_outcome kind.width (h.x base + offset) h.bus with
    ⟨value, hload, hnone⟩ | ⟨trap, hload, htrap⟩
  · simp [hload, hnone]
  · simp [hload, htrap]

theorem executeStore_fails {width : Width} {src base : Reg} {offset : Word} :
    (∃ h', executeStore width src base offset h = .error e h')
      ↔ h.bus.RefusesStore width (h.x base + offset) e := by
  rw [executeStore_apply]
  rcases Bus.store_outcome width (h.x base + offset) ((h.x src).setWidth width.bits) h.bus with
    ⟨b, hstore, hnone⟩ | ⟨trap, hstore, htrap⟩
  · simp [hstore, hnone]
  · simp [hstore, htrap]

theorem executeLoadReserved_fails {dest base : Reg} :
    (∃ h', executeLoadReserved dest base h = .error e h')
      ↔ h.bus.RefusesLoad .word (h.x base) e := by
  rw [executeLoadReserved_apply]
  rcases Bus.load_outcome .word (h.x base) h.bus with
    ⟨value, hload, hnone⟩ | ⟨trap, hload, htrap⟩
  · simp [hload, hnone]
  · simp [hload, htrap]

theorem executeStoreConditional_fails {dest base src : Reg} :
    (∃ h', executeStoreConditional dest base src h = .error e h')
      ↔ (Width.Aligned .word (h.x base) → h.bus.isReserved (h.x base) = true)
        ∧ h.bus.RefusesStore .word (h.x base) e := by
  rw [executeStoreConditional_apply]
  by_cases haligned : Width.Aligned .word (h.x base)
  · cases hreserved : h.bus.isReserved (h.x base) with
    | false => simp [tryStore_unreserved haligned hreserved, haligned]
    | true =>
        rw [tryStore_reserved haligned hreserved]
        rcases Bus.store_outcome .word (h.x base) (h.x src) h.bus with
          ⟨b, hstore, hnone⟩ | ⟨trap, hstore, htrap⟩
        · simp [hstore, hnone]
        · simp [hstore, htrap]
  · simp only [tryStore, if_neg haligned, Bus.RefusesStore, Bus.torn_word]
    constructor
    · rintro ⟨h', hfail⟩
      cases hfail
      exact ⟨fun h => absurd h haligned, .inl ⟨haligned, rfl⟩⟩
    · rintro ⟨-, ⟨-, rfl⟩ | ⟨hwhole, -⟩⟩
      · exact ⟨_, rfl⟩
      · exact absurd haligned hwhole

theorem executeAmo_fails {op : Amo} {dest base src : Reg} :
    (∃ h', executeAmo op dest base src h = .error e h')
      ↔ ¬Width.Aligned .word (h.x base) ∧ e = .storeAddressMisaligned (h.x base)
        ∨ Width.Aligned .word (h.x base)
          ∧ ¬(h.bus.Readable .word (h.x base) ∧ h.bus.Writable .word (h.x base))
          ∧ e = .storeAccessFault (h.x base) := by
  rw [executeAmo_apply]
  by_cases haligned : Width.Aligned .word (h.x base)
  · have hwhole : ¬h.bus.Torn .word (h.x base) := fun htorn => Bus.torn_word.mp htorn haligned
    rw [if_pos haligned]
    rcases Bus.load_cases .word (h.x base) h.bus with
      ⟨htorn, -⟩ | ⟨-, hread, old, hload⟩ | ⟨-, hunread, hload⟩
    · exact absurd htorn hwhole
    -- The load has left the bus as it was, so the store meets the same device.
    · rcases Bus.store_cases .word (h.x base) (op.eval old (h.x src)) h.bus with
        ⟨htorn, -⟩ | ⟨-, htakes, b, hstore⟩ | ⟨-, hrefuses, hstore⟩
      · exact absurd htorn hwhole
      · simp [hload, hstore, haligned, hread, htakes]
      · simp [hload, hstore, haligned, hrefuses, AddressTrap.toException, eq_comm]
    · simp [hload, haligned, hunread, eq_comm]
  · simp [haligned, eq_comm]

theorem executeCsr_fails {word : Word} {op : CsrOp} {dest : Reg} {number : BitVec 12}
    {source : Word} {writes : Bool} :
    (∃ h', executeCsr word op dest number source writes h = .error e h')
      ↔ Csr.Refuses number writes ∧ e = .illegalInstruction word := by
  rcases executeCsr_cases word op dest number source writes h with
    ⟨hrefuses, hrun⟩ | ⟨htakes, old, csr, -, -, hrun⟩
  · simp [hrun, hrefuses, eq_comm]
  · simp [hrun, htakes]

end Families

theorem execute_fails {i : Instr} {word : Word} {h : Hart Empty} {e : Exception}
    (hi : ∀ w, i = .illegal w → w = word) :
    (∃ h', execute i word h = .error e h') ↔ h.InstrRaises word i e := by
  cases i with
  | lui | auipc | opImm | shiftImm | op | eret =>
      exact ⟨fun ⟨_, hfail⟩ => (nomatch hfail), False.elim⟩
  | jal | jalr => exact jumpAndLink_fails
  | branch => exact executeBranch_fails
  | load => exact executeLoad_fails
  | store => exact executeStore_fails
  | loadReserved => exact executeLoadReserved_fails
  | storeConditional => exact executeStoreConditional_fails
  | amo => exact executeAmo_fails
  | csr | csrImm => exact executeCsr_fails
  | scall | sbreak =>
      constructor
      · rintro ⟨h', hfail⟩
        cases hfail
        rfl
      · rintro rfl
        exact ⟨h, rfl⟩
  | illegal w =>
      -- The word is told that was fetched, and not the one that decoding kept.
      obtain rfl := hi w rfl
      constructor
      · rintro ⟨h', hfail⟩
        cases hfail
        rfl
      · rintro rfl
        exact ⟨h, rfl⟩

/-- Nothing is written down that an instruction looks at. -/
theorem instrRaises_note {h : Hart Empty} {r : Record} {word : Word} {i : Instr} {e : Exception} :
    (h.note r).InstrRaises word i e ↔ h.InstrRaises word i e := by
  cases i <;> exact Iff.rfl

/-! ## Exceptions of steps -/

/-- The exceptions that a step raises if it does not take the interrupt: first the pc is looked at,
then the word behind it, and then it is the instruction's turn. -/
inductive Raises (h : Hart Empty) : Exception → Prop
  | misalignedPc : ¬Width.Aligned .word h.pc → Raises h (.instructionAddressMisaligned h.pc)
  | unreadablePc : Width.Aligned .word h.pc → ¬h.bus.Readable .word h.pc →
      Raises h (.instructionAccessFault h.pc)
  | instruction {word : Word} {e : Exception} : Bus.fetch h.pc h.bus = .ok word h.bus →
      h.InstrRaises word (Instr.decode word) e → Raises h e

theorem fetch_cases (address : Word) (b : Bus Empty) :
    ¬Width.Aligned .word address
        ∧ Bus.fetch address b = .error ⟨.instructionMisaligned, address⟩ b
      ∨ Width.Aligned .word address ∧ b.Readable .word address
        ∧ (∃ word, Bus.fetch address b = .ok word b)
      ∨ Width.Aligned .word address ∧ ¬b.Readable .word address
        ∧ Bus.fetch address b = .error ⟨.instructionAccessFault, address⟩ b := by
  by_cases haligned : Width.Aligned .word address
  · rw [Bus.fetch, if_pos haligned]
    rcases Bus.load_cases .word address b with
      ⟨htorn, -⟩ | ⟨-, hread, value, hload⟩ | ⟨-, hunread, hload⟩
    · exact absurd haligned (Bus.torn_word.mp htorn)
    · exact .inr (.inl ⟨haligned, hread, value, by rw [hload]⟩)
    · exact .inr (.inr ⟨haligned, hunread, by rw [hload]⟩)
  · exact .inl ⟨haligned, by rw [Bus.fetch, if_neg haligned]⟩

theorem illegal_of_decode {word w : Word} (h : Instr.decode word = .illegal w) : w = word := by
  rcases decode_spells word with hword | hspells
  · rw [h] at hword
    cases hword
    rfl
  · have hlegal := legal_of_spells hspells
    rw [h] at hlegal
    cases hlegal

theorem step_fst_exception {h : Hart Empty} (hp : (h.pending && h.listening) = false)
    {e : Exception} : h.step.1 = some (.exception e) ↔ ∃ h', fetchAndExecute h = .error e h' := by
  rw [step_fetch hp]
  cases fetchAndExecute h with
  | ok u h' => simp
  | error e' h' => simp

/-- A step that does not take the interrupt raises the exceptions of this classification, each
just where it says, and no others. -/
theorem step_raises {h : Hart Empty} (hfree : h.step.1 ≠ some (.interrupt .external))
    (e : Exception) : h.step.1 = some (.exception e) ↔ h.Raises e := by
  have hp : (h.pending && h.listening) = false := by
    rw [Ne, step_fst_interrupt] at hfree
    exact Bool.eq_false_iff.mpr fun htaken => hfree (Bool.and_eq_true_iff.mp htaken)
  rw [step_fst_exception hp, fetchAndExecute_eq]
  rcases fetch_cases h.pc h.bus with
    ⟨hmisaligned, hfetch⟩ | ⟨haligned, hread, word, hfetch⟩ | ⟨haligned, hunread, hfetch⟩
  · rw [hfetch]
    constructor
    · rintro ⟨h', hfail⟩
      cases hfail
      exact .misalignedPc hmisaligned
    · intro hraises
      cases hraises with
      | misalignedPc => exact ⟨h, rfl⟩
      | unreadablePc haligned => exact absurd haligned hmisaligned
      | instruction hword => rw [hfetch] at hword; cases hword
  · have hfails : (∃ h',
          execute (Instr.decode word) word (h.note (.fetched h.pc word)) = .error e h')
        ↔ h.InstrRaises word (Instr.decode word) e :=
      (execute_fails fun w => illegal_of_decode).trans instrRaises_note
    rw [hfetch]
    refine hfails.trans ⟨.instruction hfetch, fun hraises => ?_⟩
    cases hraises with
    | misalignedPc hmisaligned => exact absurd haligned hmisaligned
    | unreadablePc _ hunread => exact absurd hread hunread
    | instruction hword hinstr =>
        rw [hfetch] at hword
        cases hword
        exact hinstr
  · rw [hfetch]
    constructor
    · rintro ⟨h', hfail⟩
      cases hfail
      exact .unreadablePc haligned hunread
    · intro hraises
      cases hraises with
      | misalignedPc hmisaligned => exact absurd haligned hmisaligned
      | unreadablePc => exact ⟨h, rfl⟩
      | instruction hword => rw [hfetch] at hword; cases hword

/-- A hart in front of `lh x5, 0(x10)`, where `x10` points to the count of a timer. -/
def beforeHalfCount : Hart Empty where
  pc := 0
  registers := Registers.set {} 10 0x404
  bus :=
    { slots := #[
        some (.rom ⟨1, ⟨splice (Memory.zero pageSize).bytes 0 [0x83, 0x12, 0x05, 0x00]⟩⟩),
        some (.timer {})]
      windows := [⟨0, 1, 0⟩, ⟨0x400, 1, 1⟩] }

theorem step_raises_half : beforeHalfCount.step.1 ≠ some (.interrupt .external)
    ∧ beforeHalfCount.Raises (.loadAddressMisaligned 0x404) := by
  have htrap : beforeHalfCount.step.1 = some (.exception (.loadAddressMisaligned 0x404)) := by
    decide +kernel
  have hfree : beforeHalfCount.step.1 ≠ some (.interrupt .external) := by
    rw [htrap]
    exact nofun
  exact ⟨hfree, (step_raises hfree _).mp htrap⟩

end Hart

end Rv32Soc
