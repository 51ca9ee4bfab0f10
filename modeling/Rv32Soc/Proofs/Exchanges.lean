import Rv32Soc.Proofs.Exceptions
import Rv32Soc.Proofs.Results

/-!
# Exchanges with control registers

A control-register instruction reads a control register into its destination
and may write it. It is one exchange: if the write is refused nothing has been
read either, and the destination takes the old value also where it is the
source. Whether there is a write is told from the instruction alone, from its
form and the five bits that name the source, and never from a value.

A write is told bit by bit. In mstatus only the two interrupt bits take part
in it, and the others read as they always do.
-/

namespace Rv32Soc

namespace Isa

/-- Where a control-register instruction has its source. -/
inductive CsrSource where
  | register (src : Reg)
  | constant (value : BitVec 5)

/-- The five bits of the instruction that are for the source. -/
def CsrSource.field : CsrSource → BitVec 5
  | register src => src
  | constant value => value

/-- The instruction of an operation with a source of this kind. -/
def CsrSource.instr (op : CsrOp) (dest : Reg) (number : BitVec 12) : CsrSource → Instr
  | register src => .csr op dest src number
  | constant value => .csrImm op dest value number

/-- The form writes the control register. -/
def CsrSource.Writes (source : CsrSource) (op : CsrOp) : Prop :=
  op = .write ∨ source.field ≠ 0

/-- The form may not be used with this control register: there is none of the number, or it is
read-only and would be written. -/
def CsrSource.Refused (source : CsrSource) (op : CsrOp) (number : BitVec 12) : Prop :=
  number ∉ Csr.numbers ∨ source.Writes op ∧ number ∈ Csr.readOnlyNumbers

/-- What becomes of one bit of a control register. -/
def CsrOp.bit : CsrOp → Bool → Bool → Bool
  | .write, _, source => source
  | .set, old, source => old || source
  | .clear, old, source => old && !source

theorem CsrOp.getLsbD_eval (op : CsrOp) (old source : Word) (i : Nat) :
    (op.eval old source).getLsbD i = op.bit (old.getLsbD i) (source.getLsbD i) := by
  cases op with
  | write => rfl
  | set => exact BitVec.getLsbD_or
  | clear =>
      rw [eval, BitVec.getLsbD_and, BitVec.getLsbD_not]
      by_cases hi : i < 32
      · simp [bit, hi]
      · simp [bit, BitVec.getLsbD_of_ge old i (Nat.le_of_not_lt hi)]

end Isa

/-! ## Writing a control register -/

namespace Csr

theorem getLsbD_mstatus (c : Csr) (i : Nat) :
    c.mstatus.getLsbD i
      = if i = 0 then c.ie else if i = 3 then c.previous else (0x36 : Word).getLsbD i := by
  have hie : (if c.ie then 1 else 0 : Word).getLsbD i = (decide (i = 0) && c.ie) := by
    cases c.ie <;> simp
  have hprevious : (if c.previous then 8 else 0 : Word).getLsbD i
      = (decide (i = 3) && c.previous) := by
    cases c.previous with
    | false => simp
    | true => exact (BitVec.getLsbD_twoPow 3 i).trans (by simp [eq_comm])
  rw [mstatus, BitVec.getLsbD_or, BitVec.getLsbD_or, hie, hprevious]
  by_cases hzero : i = 0
  · subst hzero; simp
  · by_cases hthree : i = 3
    · subst hthree; simp
    · simp [hzero, hthree]

/-- What a control register reads after it has been written. -/
theorem read_of_written {c c' : Csr} {number : BitVec 12} {value : Word}
    (hwrite : c.write (number.setWidth 16) value = .ok c') :
    ∃ new, c'.read (number.setWidth 16) = .ok new
      ∧ ∀ i, new.getLsbD i
        = if number = 0x300 ∧ i ≠ 0 ∧ i ≠ 3 then (0x36 : Word).getLsbD i
          else value.getLsbD i := by
  by_cases hstatus : number = 0x300
  · subst hstatus
    have hwritten : Except.ok { c with ie := value.getLsbD 0, previous := value.getLsbD 3 }
        = Except.ok (α := Csr) (ε := CsrError) c' := hwrite
    cases hwritten
    refine ⟨_, rfl, fun i => ?_⟩
    rw [getLsbD_mstatus]
    grind
  · -- The other registers that can be written hold what they are given.
    have hread : c'.read (number.setWidth 16) = .ok value := by
      have hne : number.setWidth 16 ≠ 0x300 := widened_ne hstatus
      rw [write, if_neg hne] at hwrite
      repeat'
        split at hwrite <;> try
          next hnumber =>
            cases hwrite
            rw [hnumber]
            rfl
      all_goals cases hwrite
    exact ⟨value, hread, fun i => by rw [if_neg fun h => hstatus h.1]⟩

end Csr

namespace Hart

open Isa

variable {ε : Type}

/-- The value that a source stands for. -/
def sourceValue (h : Hart ε) : CsrSource → Word
  | .register src => h.x src
  | .constant value => value.setWidth 32

/-- The exchange with a control register that held the old value. -/
structure Exchanges (h : Hart ε) (op : CsrOp) (dest : Reg) (source : CsrSource)
    (number : BitVec 12) (old : Word) (h' : Hart ε) : Prop where
  held : h.csr.read (number.setWidth 16) = .ok old
  /-- But for the control registers. -/
  receives : { h with csr := h'.csr }.Receives dest old h'
  written : source.Writes op → ∃ new, h'.csr.read (number.setWidth 16) = .ok new
    ∧ ∀ i, new.getLsbD i
      = if number = 0x300 ∧ i ≠ 0 ∧ i ≠ 3 then (0x36 : Word).getLsbD i
        else op.bit (old.getLsbD i) ((h.sourceValue source).getLsbD i)
  kept : ¬source.Writes op → h'.csr = h.csr
  others : ∀ other, other ≠ number.setWidth 16 → h'.csr.read other = h.csr.read other

theorem csrWrites_iff {op : CsrOp} {source : CsrSource} :
    csrWrites op source.field = true ↔ source.Writes op := by
  rw [csrWrites, CsrSource.Writes, Bool.or_eq_true, decide_eq_true_iff, decide_eq_true_iff]

theorem refuses_iff {op : CsrOp} {source : CsrSource} {number : BitVec 12} :
    Csr.Refuses number (csrWrites op source.field) ↔ source.Refused op number := by
  rw [Csr.Refuses, CsrSource.Refused, csrWrites_iff]

theorem exchanges_finished {h : Hart ε} {b : Bus ε} {op : CsrOp} {dest : Reg}
    {source : CsrSource} {number : BitVec 12} {old : Word} {csr : Csr}
    (hread : h.csr.read (number.setWidth 16) = .ok old)
    (hwrite : (if csrWrites op source.field then
        h.csr.write (number.setWidth 16) (op.eval old (h.sourceValue source)) else .ok h.csr)
      = .ok csr) :
    h.Exchanges op dest source number old ({ h with bus := b, csr }.finished dest old) where
  held := hread
  receives := finished_receives { h with csr } b dest old
  written hwrites := by
    rw [if_pos (csrWrites_iff.mpr hwrites)] at hwrite
    obtain ⟨new, hnew, hbits⟩ := Csr.read_of_written hwrite
    refine ⟨new, hnew, fun i => ?_⟩
    rw [hbits, CsrOp.getLsbD_eval]
  kept hwrites := by
    rw [if_neg (mt csrWrites_iff.mp hwrites)] at hwrite
    cases hwrite
    rfl
  others other hother := by
    split at hwrite
    · exact Csr.read_of_write hwrite hother
    · cases hwrite
      rfl

variable [Peripheral ε]

/-- What the step of a hart does that executes a control-register instruction. -/
structure Settles (h : Hart ε) (op : CsrOp) (dest : Reg) (source : CsrSource)
    (number : BitVec 12) (word : Word) : Prop where
  refused : source.Refused op number →
    h.step.1 = some (.exception (.illegalInstruction word))
      ∧ h.Rejected (.illegalInstruction word) h.step.2
  exchanged : ¬source.Refused op number →
    h.step.1 = none ∧ ∃ old, h.Exchanges op dest source number old h.step.2

theorem decode_source (op : CsrOp) (dest : Reg) (number : BitVec 12) (source : CsrSource) :
    Instr.decode (source.instr op dest number).encode = source.instr op dest number := by
  cases source with
  | register src => exact decode_csr dest src number op
  | constant value => exact decode_csrImm dest value number op

theorem execute_source (op : CsrOp) (dest : Reg) (number : BitVec 12) (source : CsrSource)
    (word : Word) (h : Hart ε) :
    execute (source.instr op dest number) word h
      = executeCsr word op dest number (h.sourceValue source) (csrWrites op source.field) h := by
  cases source <;> rfl

section Begun

variable {h h₁ : Hart ε} {op : CsrOp} {dest : Reg} {source : CsrSource} {number : BitVec 12}
  {word : Word}

theorem settles_of_decode (hb : h.beginning? = some (word, h₁))
    (hdecode : Instr.decode word = source.instr op dest number) :
    h.Settles op dest source number word := by
  have hrun : execute (Instr.decode word) word h₁
      = executeCsr word op dest number (h₁.sourceValue source) (csrWrites op source.field) h₁ := by
    rw [hdecode]
    exact execute_source op dest number source word h₁
  rcases executeCsr_cases word op dest number (h₁.sourceValue source) (csrWrites op source.field)
    h₁ with ⟨hrefuses, hfail⟩ | ⟨htakes, old, csr, hread, hwrite, hok⟩
  · rw [refuses_iff] at hrefuses
    exact ⟨fun _ => rejected_of_run hb (hrun.trans hfail), fun hused => absurd hrefuses hused⟩
  · -- The old value goes to the destination after the write, so the source is still that of before.
    rw [refuses_iff] at htakes
    refine ⟨fun hrefused => absurd hrefused htakes, fun _ => ?_⟩
    rw [step_of_retired hb (hrun.trans hok)]
    obtain ⟨b, -, rfl⟩ := beginning?_eq_some hb
    exact ⟨rfl, old, exchanges_finished hread hwrite⟩

end Begun

/-- A control-register instruction that may be used is an exchange, and any other is rejected. -/
theorem encoded_csr_settles (h h₁ : Hart ε) (op : CsrOp) (dest : Reg) (source : CsrSource)
    (number : BitVec 12) (hb : h.beginning? = some ((source.instr op dest number).encode, h₁)) :
    h.Settles op dest source number (source.instr op dest number).encode :=
  settles_of_decode hb (decode_source op dest number source)

/-- In front of `csrrs x5, mstatus, x5`. -/
def beforeSet : Hart Empty :=
  inFrontOf [0xf3, 0xa2, 0x02, 0x30] (Registers.set {} 5 0xffffffff)

/-- In front of `csrrc x5, mhartid, x6`, where `x6` holds 0. -/
def beforeClear : Hart Empty :=
  inFrontOf [0xf3, 0x32, 0x03, 0xf1] {}

theorem encoded_csr_settles_mstatus :
    (∃ h₁, beforeSet.beginning?
        = some (((CsrSource.register 5).instr .set 5 0x300).encode, h₁))
      ∧ ¬(CsrSource.register 5).Refused .set 0x300
      ∧ beforeSet.step.1 = none
      ∧ beforeSet.Exchanges .set 5 (.register 5) 0x300 0x36 beforeSet.step.2
      ∧ (∃ h₁, beforeClear.beginning?
        = some (((CsrSource.register 6).instr .clear 5 0xf10).encode, h₁))
      ∧ (CsrSource.register 6).Refused .clear 0xf10
      ∧ beforeClear.Rejected (.illegalInstruction 0xf10332f3) beforeClear.step.2 := by
  have hset : beforeSet.beginning?.map Prod.fst
      = some ((CsrSource.register 5).instr .set 5 0x300).encode := by decide +kernel
  have hclear : beforeClear.beginning?.map Prod.fst
      = some ((CsrSource.register 6).instr .clear 5 0xf10).encode := by decide +kernel
  obtain ⟨⟨word, h₁⟩, hb, rfl⟩ := Option.map_eq_some_iff.mp hset
  obtain ⟨⟨word', h₂⟩, hb', rfl⟩ := Option.map_eq_some_iff.mp hclear
  have hused : ¬(CsrSource.register 5).Refused .set 0x300 := by
    rintro (habsent | ⟨-, hfixed⟩)
    · exact habsent (by decide)
    · exact absurd hfixed (by decide)
  have hrefused : (CsrSource.register 6).Refused .clear 0xf10 :=
    .inr ⟨.inr (by decide), by decide⟩
  obtain ⟨hretired, old, hexchanges⟩ :=
    (encoded_csr_settles beforeSet h₁ .set 5 (.register 5) 0x300 hb).exchanged hused
  have hread : beforeSet.csr.read ((0x300 : BitVec 12).setWidth 16) = .ok 0x36 := rfl
  have hold : old = 0x36 := Except.ok.inj (hexchanges.held.symm.trans hread)
  have hrejected :=
    (encoded_csr_settles beforeClear h₂ .clear 5 (.register 6) 0xf10 hb').refused hrefused
  exact ⟨⟨h₁, hb⟩, hused, hretired, hold ▸ hexchanges, ⟨h₂, hb'⟩, hrefused, hrejected.2⟩

end Hart

end Rv32Soc
