import Mathlib.Data.List.Nodup
import Rv32Soc.Isa.Assembly
import Rv32Soc.Proofs.Codes
import Rv32Soc.Proofs.FormatRoundTrips
import Rv32Soc.Proofs.Numerals

/-!
# The assembly of a word says what the word is

A line of assembly is taken apart again without knowing what it is a line of.
The name ends at the first blank, for no name has one; the operands stand
between the commas, for no operand has one; and an offset ends where its base
begins, at the parenthesis. No two mnemonics are spelled alike, and the
mnemonic tells which operands there are and how each of them is written, so
equal operands are operands of equal instructions.

Only the upper immediates are not written in full. Their low twelve bits are
left out, which loses nothing of what can be decoded: there they are zero.
-/

namespace Rv32Soc.Isa

/-! ## Joined texts -/

/-- What stands before and behind a character is determined if the one does not have it. -/
theorem parts_of_append {front front' back back' : List Char} {c : Char} (h : c ∉ front)
    (h' : c ∉ front') (heq : front ++ c :: back = front' ++ c :: back') :
    front = front' ∧ back = back' := by
  induction front generalizing front' with
  | nil =>
      cases front' with
      | nil => exact ⟨rfl, (List.cons.inj heq).2⟩
      | cons d rest' => exact absurd (List.cons.inj heq).1 (List.ne_of_not_mem_cons h')
  | cons d rest ih =>
      cases front' with
      | nil => exact absurd (List.cons.inj heq).1.symm (List.ne_of_not_mem_cons h)
      | cons d' rest' =>
          obtain ⟨rfl, hrest⟩ := List.cons.inj heq
          obtain ⟨rfl, hback⟩ := ih (List.not_mem_of_not_mem_cons h)
            (List.not_mem_of_not_mem_cons h') hrest
          exact ⟨rfl, hback⟩

/-- The blanks behind the commas, counted to the texts that follow them. -/
theorem intercalate_comma_blank (t : List Char) (rest : List (List Char)) :
    [',', ' '].intercalate (t :: rest) = [','].intercalate (t :: rest.map (' ' :: ·)) := by
  induction rest generalizing t with
  | nil => rfl
  | cons u rest ih =>
      rw [List.intercalate_cons_cons, ih, List.map_cons, List.intercalate_cons_cons]
      cases rest with
      | nil => simp
      | cons v rest => simp [List.intercalate_cons_cons]

/-- Texts without commas are found again between the commas. -/
theorem splitOn_joined {t : List Char} {rest : List (List Char)}
    (hclear : ∀ u ∈ t :: rest, ',' ∉ u) :
    ([',', ' '].intercalate (t :: rest)).splitOn ',' = t :: rest.map (' ' :: ·) := by
  rw [intercalate_comma_blank, List.splitOn_intercalate]
  · intro u hu
    obtain rfl | hu := List.mem_cons.mp hu
    · exact hclear u List.mem_cons_self
    · obtain ⟨v, hv, rfl⟩ := List.mem_map.mp hu
      have hcomma := hclear v (List.mem_cons_of_mem t hv)
      simp [hcomma]
  · exact List.cons_ne_nil _ _

theorem joined_inj {t u : List Char} {ts us : List (List Char)} (hts : ∀ v ∈ t :: ts, ',' ∉ v)
    (hus : ∀ v ∈ u :: us, ',' ∉ v)
    (h : [',', ' '].intercalate (t :: ts) = [',', ' '].intercalate (u :: us)) :
    t :: ts = u :: us := by
  have hsplit := congrArg (List.splitOn ',') h
  rw [splitOn_joined hts, splitOn_joined hus] at hsplit
  obtain ⟨rfl, hrest⟩ := List.cons.inj hsplit
  rw [List.map_injective_iff.mpr List.cons_injective hrest]

/-! ## Operands -/

section Operands

variable {r s : Reg} {imm imm' offset offset' : Word} {number number' : BitVec 12}

@[simp]
theorem registerText_inj : registerText r = registerText s ↔ r = s := by
  rw [registerText, registerText, String.append_right_inj, Text.decimal_inj, BitVec.toNat_inj]

@[simp]
theorem immediateText_inj : immediateText imm = immediateText imm' ↔ imm = imm' := by
  rw [immediateText, immediateText, Text.signed_inj, BitVec.toInt_inj]

@[simp]
theorem csrText_inj : csrText number = csrText number' ↔ number = number' := by
  rw [csrText, csrText, String.append_right_inj, Text.hexPadded_inj, BitVec.toNat_inj]

@[simp]
theorem addressText_inj : addressText r = addressText s ↔ r = s := by
  rw [addressText, addressText, String.append_left_inj, String.append_right_inj, registerText_inj]

theorem notMem_registerText {c : Char} (hc : Text.digit? 10 c = none) (hx : c ≠ 'x') (r : Reg) :
    c ∉ (registerText r).toList := by
  rw [registerText, String.toList_append, List.mem_append, not_or]
  exact ⟨fun h => hx (List.mem_singleton.mp h), Text.notMem_decimal hc _⟩

@[simp]
theorem memoryText_inj :
    memoryText offset r = memoryText offset' s ↔ offset = offset' ∧ r = s := by
  refine ⟨fun h => ?_, fun ⟨hoffset, hbase⟩ => by rw [hoffset, hbase]⟩
  have hparen (imm : Word) : '(' ∉ (immediateText imm).toList :=
    Text.notMem_signed (by decide) (by decide) imm.toInt
  rw [memoryText, memoryText, String.append_left_inj, ← String.toList_inj] at h
  simp only [String.toList_append, List.append_assoc] at h
  obtain ⟨hoffset, hbase⟩ := parts_of_append (hparen offset) (hparen offset') h
  exact ⟨immediateText_inj.mp (String.toList_inj.mp hoffset),
    registerText_inj.mp (String.toList_inj.mp hbase)⟩

theorem toNat_upper (x : BitVec 20) : ((x ++ 0#12) >>> 12).toNat = x.toNat := by
  rw [BitVec.toNat_ushiftRight, BitVec.toNat_append, BitVec.toNat_ofNat, Nat.zero_mod, Nat.or_zero,
    Nat.shiftLeft_shiftRight]

theorem upperText_inj (h : FitsU imm) (h' : FitsU imm') :
    upperText imm = upperText imm' ↔ imm = imm' := by
  refine ⟨fun heq => ?_, congrArg upperText⟩
  obtain ⟨x, rfl⟩ := fitsU_iff.mp h
  obtain ⟨y, rfl⟩ := fitsU_iff.mp h'
  rw [upperText, upperText, String.append_right_inj, Text.hex, Text.hex, Text.hexPadded_inj,
    toNat_upper, toNat_upper, BitVec.toNat_inj] at heq
  rw [heq]

end Operands

/-! ## Names -/

namespace Mnemonic

theorem mem_all (m : Mnemonic) : m ∈ all := by
  cases m with
  | lui | auipc | jal | jalr | loadReserved | storeConditional | scall | sbreak | eret => decide
  | branch f | load f | store f | opImm f | shiftImm f | op f | amo f | csr f | csrImm f =>
      cases f <;> decide

/-- No two mnemonics are spelled alike, and none as what is no instruction. -/
theorem nodup_names : ("illegal" :: all.map name).Nodup := by
  simp [all, name, Branch.name, Load.name, storeName, OpImm.name, ShiftImm.name, Op.name, Amo.name,
    CsrOp.name, CsrOp.immName]

theorem name_ne_illegal (m : Mnemonic) : m.name ≠ "illegal" := by
  intro h
  have hnot := (List.nodup_cons.mp nodup_names).1
  rw [← h] at hnot
  exact hnot (List.mem_map_of_mem m.mem_all)

theorem eq_of_name {m n : Mnemonic} (h : m.name = n.name) : m = n :=
  List.inj_on_of_nodup_map (List.nodup_cons.mp nodup_names).2 m.mem_all n.mem_all h

theorem blank_notMem_name (m : Mnemonic) : ' ' ∉ m.name.toList := by
  have hall : ∀ m ∈ all, ' ' ∉ m.name.toList := by
    simp [all, name, Branch.name, Load.name, storeName, OpImm.name, ShiftImm.name, Op.name,
      Amo.name, CsrOp.name, CsrOp.immName]
  exact hall m m.mem_all

end Mnemonic

namespace Instr

variable {i j : Instr}

theorem mnemonic?_of_name (h : i.name = j.name) : i.mnemonic? = j.mnemonic? := by
  unfold name at h
  cases hi : i.mnemonic? with
  | none =>
      cases hj : j.mnemonic? with
      | none => rfl
      | some n =>
          rw [hi, hj] at h
          exact absurd h.symm n.name_ne_illegal
  | some m =>
      cases hj : j.mnemonic? with
      | none =>
          rw [hi, hj] at h
          exact absurd h m.name_ne_illegal
      | some n =>
          rw [hi, hj] at h
          exact congrArg some (Mnemonic.eq_of_name h)

theorem blank_notMem_name (i : Instr) : ' ' ∉ i.name.toList := by
  unfold name
  split
  · next m _ => exact m.blank_notMem_name
  · decide

/-! ## Lines -/

/-- What stands behind the name in a line of assembly. -/
def ending : List String → List Char
  | [] => []
  | operands => ' ' :: [',', ' '].intercalate (operands.map String.toList)

theorem toList_assembly (i : Instr) :
    i.assembly.toList = i.name.toList ++ ending i.operands := by
  rw [assembly]
  split
  · next h => rw [h, ending, List.append_nil]
  · next h => simp [ending, String.toList_append, String.toList_intercalate]

/-- The name ends at the first blank. -/
theorem takeWhile_assembly (i : Instr) :
    i.assembly.toList.takeWhile (· ≠ ' ') = i.name.toList := by
  have hname : ∀ c ∈ i.name.toList, decide (c ≠ ' ') = true := fun c hc =>
    decide_eq_true fun h => i.blank_notMem_name (h ▸ hc)
  have hending : (ending i.operands).takeWhile (· ≠ ' ') = [] := by
    cases i.operands <;> rfl
  rw [toList_assembly, List.takeWhile_append_of_pos hname, hending, List.append_nil]

theorem ending_inj {ts us : List String} (hts : ∀ t ∈ ts, ',' ∉ t.toList)
    (hus : ∀ u ∈ us, ',' ∉ u.toList) (h : ending ts = ending us) : ts = us := by
  cases ts with
  | nil =>
      cases us with
      | nil => rfl
      | cons u us => cases h
  | cons t ts =>
      cases us with
      | nil => cases h
      | cons u us =>
          have hclear {texts : List String} (htexts : ∀ v ∈ texts, ',' ∉ v.toList) :
              ∀ v ∈ texts.map String.toList, ',' ∉ v := by
            intro v hv
            obtain ⟨text, htext, rfl⟩ := List.mem_map.mp hv
            exact htexts text htext
          have hlists := joined_inj (hclear hts) (hclear hus) (List.cons.inj h).2
          exact List.map_injective_iff.mpr (fun _ _ => String.toList_inj.mp) hlists

theorem comma_notMem_operands (i : Instr) : ∀ t ∈ i.operands, ',' ∉ t.toList := by
  have hregister (r : Reg) : ',' ∉ (registerText r).toList :=
    notMem_registerText (by decide) (by decide) r
  have himmediate (imm : Word) : ',' ∉ (immediateText imm).toList :=
    Text.notMem_signed (by decide) (by decide) imm.toInt
  have hdecimal : ∀ n, ',' ∉ (Text.decimal n).toList := Text.notMem_decimal (by decide)
  have hhex : ∀ width n, ',' ∉ (Text.hexPadded width n).toList := Text.notMem_hexPadded (by decide)
  cases i <;>
    simp [operands, memoryText, addressText, csrText, upperText, Text.hex, Text.address, Text.word,
      hregister, himmediate, hdecimal, hhex]

theorem operands_of_assembly (h : i.assembly = j.assembly) :
    i.name = j.name ∧ i.operands = j.operands := by
  have hlists : i.assembly.toList = j.assembly.toList := congrArg String.toList h
  have hname : i.name = j.name := by
    rw [← String.toList_inj, ← takeWhile_assembly, hlists, takeWhile_assembly]
  rw [toList_assembly, toList_assembly, hname] at hlists
  exact ⟨hname, ending_inj i.comma_notMem_operands j.comma_notMem_operands
    (List.append_cancel_left hlists)⟩

/-! ## Instructions -/

/-- The text leaves out nothing of an upper immediate. -/
def Shown : Instr → Prop
  | lui _ imm | auipc _ imm => FitsU imm
  | _ => True

theorem shown_decode (word : Word) : (decode word).Shown := by
  by_cases hmajor : ∃ m : Major, opcode word = m.code
  · obtain ⟨m, hm⟩ := hmajor
    rw [decode_of_opcode hm]
    cases m with
    | lui | auipc => exact (UType.exists_ofWord_iff (UType.ofWord word)).mp ⟨word, rfl⟩
    | jal => trivial
    | load | store | opImm | op | branch | jalr | amo | system =>
        simp only [Major.decode, decodeLoad, decodeStore, decodeOpImm, decodeOp, decodeBranch,
          decodeAtomic, decodeSystem]
        repeat' split
        all_goals trivial
  · rw [decode_of_no_opcode fun m hm => hmajor ⟨m, hm⟩]
    trivial

theorem eq_of_operands (hi : i.Shown) (hj : j.Shown) (hmnemonic : i.mnemonic? = j.mnemonic?)
    (h : i.operands = j.operands) : i = j := by
  -- With the mnemonic the constructor is the same, and so is the form of the operands.
  cases i <;> cases j <;> cases hmnemonic
  case lui.lui | auipc.auipc =>
    simp only [operands, List.cons.injEq, registerText_inj, upperText_inj hi hj, and_true] at h
    obtain ⟨rfl, rfl⟩ := h
    rfl
  all_goals simp_all [operands, BitVec.toNat_inj]

theorem eq_of_assembly (hi : i.Shown) (hj : j.Shown) (h : i.assembly = j.assembly) : i = j := by
  obtain ⟨hname, hoperands⟩ := operands_of_assembly h
  exact eq_of_operands hi hj (mnemonic?_of_name hname) hoperands

/-- Two words have the same assembly just if they decode to the same instruction, or to none and
are the same word. -/
theorem disassembly_unambiguous (v w : Word) :
    (decode v).assembly = (decode w).assembly ↔ decode v = decode w :=
  ⟨eq_of_assembly (shown_decode v) (shown_decode w), congrArg assembly⟩

end Instr

end Rv32Soc.Isa
