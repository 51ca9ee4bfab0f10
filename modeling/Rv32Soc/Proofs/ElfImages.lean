import Mathlib.Data.List.Forall2
import Rv32Soc.Elf.Image
import Rv32Soc.Proofs.ElfNumbers

/-!
# What makes a file an executable image

A file whose outer structure can be read is subject to a list of checks: four
of its header, then those of each program header in turn. It is an image if all
of them hold, and otherwise the first that fails is the error. The reader does
not make such a list; it checks on its way through the file and stops where a
check fails. That the two agree is shown for one program header after the
other, whatever has been written down before.
-/

namespace Rv32Soc.Elf

/-! ## Checks -/

/-- Something that must hold of a file, and the error if it does not. -/
structure Check where
  holds : Bool
  error : Error

/-- The error of a check that fails. -/
def Check.failure? (c : Check) : Option Error :=
  if c.holds then none else some c.error

/-- The error of the first check that fails. -/
def firstFailure? (checks : List Check) : Option Error :=
  checks.findSome? Check.failure?

theorem Check.failure?_eq_none {c : Check} : c.failure? = none ↔ c.holds = true := by
  rw [failure?]
  split <;> simp [*]

theorem firstFailure?_eq_none {checks : List Check} :
    firstFailure? checks = none ↔ ∀ c ∈ checks, c.holds = true := by
  simp only [firstFailure?, List.findSome?_eq_none_iff, Check.failure?_eq_none]

theorem firstFailure?_eq_some {checks : List Check} {e : Error} :
    firstFailure? checks = some e ↔ ∃ before c after, checks = before ++ c :: after
      ∧ (∀ b ∈ before, b.holds = true) ∧ c.holds = false ∧ e = c.error := by
  simp only [firstFailure?, List.findSome?_eq_some_iff, Check.failure?_eq_none]
  constructor
  · rintro ⟨before, c, after, rfl, hc, hbefore⟩
    refine ⟨before, c, after, rfl, hbefore, ?_⟩
    rw [Check.failure?] at hc
    split at hc
    · cases hc
    · next hfails => exact ⟨Bool.eq_false_iff.mpr hfails, by simpa using hc.symm⟩
  · rintro ⟨before, c, after, rfl, hbefore, hfails, rfl⟩
    exact ⟨before, c, after, rfl, by rw [Check.failure?, hfails]; rfl, hbefore⟩

/-- The checks of a file header. -/
def Header.checks (h : Header) : List Check :=
  [⟨h.fileClass = .elf32, .notElf32⟩,
    ⟨h.type = 2, .notExecutable h.type⟩,
    ⟨h.machine = 0xf3, .notRiscV h.machine⟩,
    ⟨h.version = 1, .unsupportedVersion h.version⟩]

namespace ProgramHeader

/-- The checks of the program header of a loadable segment. -/
def loadChecks (p : ProgramHeader) (file : Array Byte) : List Check :=
  let address := BitVec.ofNat 32 p.address
  [⟨p.fileSize ≤ p.memorySize, .fileSizeExceedsMemorySize address p.fileSize p.memorySize⟩,
    ⟨p.address + p.memorySize ≤ 2 ^ 32, .segmentBeyondAddressSpace address p.memorySize⟩,
    ⟨p.offset + p.fileSize ≤ file.size, .parse (.outOfBounds p.offset (p.offset + p.fileSize))⟩]

/-- The program header is that of a loadable segment. -/
def loadable (p : ProgramHeader) : Bool :=
  p.type = loadableType

/-- The checks of a program header. -/
def checks (p : ProgramHeader) (file : Array Byte) : List Check :=
  ⟨p.type ≤ lastStandardType, .unknownSegmentType p.type⟩
    :: if p.loadable then p.loadChecks file else []

/-- The segment that a program header describes. -/
def segmentIn (p : ProgramHeader) (file : Array Byte) : Segment where
  type := BitVec.ofNat 32 p.type
  base := BitVec.ofNat 32 p.address
  memorySize := BitVec.ofNat 32 p.memorySize
  data := file.extract p.offset (p.offset + p.fileSize)

end ProgramHeader

/-! ## The reader goes by the checks -/

/-- The result, if all checks hold. -/
def judge {α : Type} (checks : List Check) (result : α) : Except Error α :=
  match firstFailure? checks with
  | some e => .error e
  | none => .ok result

section Judge

variable {α : Type} {result : α}

theorem judge_nil : judge [] result = .ok result := rfl

theorem judge_cons (c : Check) (rest : List Check) :
    judge (c :: rest) result = if ¬c.holds then .error c.error else judge rest result := by
  simp only [judge, firstFailure?, List.findSome?_cons, Check.failure?]
  cases c.holds <;> rfl

theorem judge_append (first rest : List Check) :
    judge (first ++ rest) result = match judge first () with
      | .error e => .error e
      | .ok () => judge rest result := by
  induction first with
  | nil => rfl
  | cons c first ih =>
      rw [List.cons_append, judge_cons, judge_cons, ih]
      split <;> rfl

theorem judge_map {β : Type} (checks : List Check) (f : α → β) :
    judge checks (f result) = (judge checks result).map f := by
  unfold judge
  cases firstFailure? checks <;> rfl

theorem judge_eq_ok {checks : List Check} {answer : α} :
    judge checks result = .ok answer ↔ (∀ c ∈ checks, c.holds = true) ∧ answer = result := by
  rw [judge, ← firstFailure?_eq_none]
  cases firstFailure? checks with
  | some e => simp
  | none => simp [eq_comm]

theorem judge_eq_error {checks : List Check} {e : Error} :
    judge checks result = .error e ↔ firstFailure? checks = some e := by
  rw [judge]
  cases firstFailure? checks <;> simp

end Judge

theorem Header.check_eq (h : Header) : h.check = judge h.checks () := by
  simp only [checks, judge_cons, judge_nil, decide_eq_true_eq]
  rfl

theorem need_eq (file : Array Byte) (start length : Nat) :
    need file start (start + length)
      = if ¬start + length ≤ file.size then .error (.outOfBounds start (start + length))
        else .ok () := by
  have hboth : start ≤ file.size ∧ start + length ≤ file.size ↔ start + length ≤ file.size := by
    omega
  simp only [need, hboth, ite_not]

theorem ProgramHeader.segment_eq (p : ProgramHeader) (file : Array Byte) :
    p.segment file = judge (p.loadChecks file) (p.segmentIn file) := by
  have hcount : wordCount = 2 ^ 32 := rfl
  simp only [segment, need_eq, hcount, loadChecks, judge_cons, judge_nil, decide_eq_true_eq,
    Nat.not_le]
  by_cases hsizes : p.memorySize < p.fileSize
  · simp only [if_pos hsizes]
    rfl
  · simp only [if_neg hsizes]
    by_cases hend : 2 ^ 32 < p.address + p.memorySize
    · simp only [if_pos hend]
      rfl
    · simp only [if_neg hend]
      by_cases hover : file.size < p.offset + p.fileSize
      · simp only [if_pos hover]
        rfl
      · simp only [if_neg hover]
        rfl

/-- What a step answers, whatever state it leaves. -/
def outcome {ε σ α : Type} : EStateM.Result ε σ α → Except ε α
  | .ok a _ => .ok a
  | .error e _ => .error e

/-- One program header is read, and then the others. -/
theorem readSegments_cons (file : Array Byte) (p : ProgramHeader) (rest : List ProgramHeader)
    (journal : Journal) :
    readSegments file (p :: rest) journal
      = if p.type > lastStandardType then .error (.unknownSegmentType p.type) journal
        else if p.loadable then
          match p.segment file with
          | .error e => .error e journal
          | .ok s =>
              match readSegments file rest journal with
              | .ok segments journal => .ok (s :: segments) journal
              | .error e journal => .error e journal
        else readSegments file rest
          (journal.note
            (.segmentSkipped (BitVec.ofNat 32 p.type) (BitVec.ofNat 32 p.address))) := by
  by_cases hunknown : p.type > lastStandardType
  · simp only [readSegments, if_pos hunknown]
    rfl
  · cases hload : p.loadable with
    | false =>
        simp only [readSegments, if_neg hunknown, if_neg (of_decide_eq_false hload)]
        rfl
    | true =>
        simp only [readSegments, if_neg hunknown, if_pos (of_decide_eq_true hload)]
        cases p.segment file with
        | error e => rfl
        | ok s =>
            show EStateM.bind (readSegments file rest) (fun segments => pure (s :: segments))
              journal = _
            rw [EStateM.bind]
            cases readSegments file rest journal <;> rfl

/-- Whatever has been written down before, the reader stops at the first check that fails. -/
theorem outcome_readSegments (file : Array Byte) (programs : List ProgramHeader)
    (journal : Journal) :
    outcome (readSegments file programs journal)
      = judge (programs.flatMap (·.checks file))
          ((programs.filter (·.loadable)).map (·.segmentIn file)) := by
  induction programs generalizing journal with
  | nil => rfl
  | cons p rest ih =>
      rw [readSegments_cons, List.flatMap_cons, judge_append, ProgramHeader.checks, judge_cons]
      by_cases hunknown : p.type > lastStandardType
      · have hfails : ¬decide (p.type ≤ lastStandardType) = true := by simpa using hunknown
        rw [if_pos hunknown, if_pos hfails]
        rfl
      · have hholds : ¬¬decide (p.type ≤ lastStandardType) = true := by simpa using hunknown
        rw [if_neg hunknown, if_neg hholds]
        cases hload : p.loadable with
        | false =>
            rw [List.filter_cons_of_neg (by rw [hload]; exact Bool.false_ne_true)]
            exact ih _
        | true =>
            -- The segment goes in front of whatever the rest gives.
            have hrest := congrArg (Except.map (p.segmentIn file :: ·)) (ih journal)
            rw [← judge_map] at hrest
            rw [List.filter_cons_of_pos hload, List.map_cons, ← hrest, if_pos rfl, if_pos rfl,
              p.segment_eq, judge, judge]
            cases firstFailure? (p.loadChecks file) with
            | some e => rfl
            | none => cases readSegments file rest journal <;> rfl

/-! ## Images -/

/-- A file is an image if the checks of its header and then those of its program headers hold. -/
theorem outcome_read {file : Array Byte} {h : Header} {places : List Nat}
    (hparse : parse file = .ok (h, places)) (journal : Journal) :
    let programs := places.map (ProgramHeader.read h.order file)
    outcome (Image.read file journal)
      = judge (h.checks ++ programs.flatMap (·.checks file))
          ⟨BitVec.ofNat 32 h.entry, (programs.filter (·.loadable)).map (·.segmentIn file)⟩ := by
  intro programs
  have hsegments := outcome_readSegments file programs journal
  have himage := congrArg (Except.map (Image.mk (BitVec.ofNat 32 h.entry))) hsegments
  rw [← judge_map] at himage
  rw [judge_append, ← himage, ← h.check_eq]
  simp only [Image.read, hparse]
  cases h.check with
  | error e => rfl
  | ok u =>
      show outcome (EStateM.bind (readSegments file programs)
        (fun segments => pure (Image.mk (BitVec.ofNat 32 h.entry) segments)) journal) = _
      rw [EStateM.bind]
      cases readSegments file programs journal <;> rfl

theorem ofFile_eq (file : Array Byte) : Image.ofFile file = outcome (Image.read file {}) := by
  rw [Image.ofFile]
  cases Image.read file {} <;> rfl

/-! ## Where the fields stand -/

/-- The mark of a byte order. -/
def ByteOrder.mark : ByteOrder → Nat
  | little => 1
  | big => 2

/-- The fields of the header of a 32-bit file are the numbers at their places. -/
structure Header.Stands (h : Header) (file : Array Byte) : Prop where
  order : (file.getD 5 0).toNat = h.order.mark
  type : h.type = numberAt h.order file 16 2
  machine : h.machine = numberAt h.order file 18 2
  version : h.version = numberAt h.order file 20 4
  entry : h.entry = numberAt h.order file 24 4
  programs : h.programs = numberAt h.order file 28 4
  sections : h.sections = numberAt h.order file 32 4
  programSize : h.programSize = numberAt h.order file 42 2
  programCount : h.programCount = numberAt h.order file 44 2
  sectionSize : h.sectionSize = numberAt h.order file 46 2
  sectionCount : h.sectionCount = numberAt h.order file 48 2

/-- The fields of a program header of a 32-bit file are the numbers behind its place. -/
structure ProgramHeader.Stands (p : ProgramHeader) (order : ByteOrder) (file : Array Byte)
    (place : Nat) : Prop where
  type : p.type = numberAt order file place 4
  offset : p.offset = numberAt order file (place + 4) 4
  address : p.address = numberAt order file (place + 8) 4
  fileSize : p.fileSize = numberAt order file (place + 16) 4
  memorySize : p.memorySize = numberAt order file (place + 20) 4

/-- The program headers of a 32-bit file follow each other in the table that the header names. -/
structure Layout (file : Array Byte) (h : Header) (programs : List ProgramHeader) : Prop where
  header : h.Stands file
  count : h.programs ≠ 0 → h.programCount ≠ 0xffff → programs.length = h.programCount
  program : ∀ i (p : ProgramHeader), programs[i]? = some p →
    p.Stands h.order file (h.programs + i * 32)

theorem ProgramHeader.stands_read (order : ByteOrder) (file : Array Byte) (place : Nat) :
    (ProgramHeader.read order file place).Stands order file place :=
  ⟨rfl, rfl, rfl, rfl, rfl⟩

theorem bind_eq_ok {ε α β : Type} {x : Except ε α} {f : α → Except ε β} {b : β} :
    x >>= f = .ok b ↔ ∃ a, x = .ok a ∧ f a = .ok b := by
  cases x with
  | error e => exact ⟨nofun, fun ⟨a, ha, _⟩ => nomatch ha⟩
  | ok a => exact ⟨fun h => ⟨a, rfl, h⟩, fun ⟨_, ha, h⟩ => by cases ha; exact h⟩

theorem orderOf_eq_ok {mark : Nat} {order : ByteOrder} (h : orderOf mark = .ok order) :
    mark = order.mark := by
  unfold orderOf at h
  split at h <;> cases h <;> rfl

theorem identify_ok {file : Array Byte} {c : Class} {order : ByteOrder}
    (h : identify file = .ok (c, order)) : orderOf (file.getD 5 0).toNat = .ok order := by
  obtain ⟨-, -, h⟩ := bind_eq_ok.mp h
  simp only [] at h
  split at h
  · cases h
  · split at h
    · cases h
    · obtain ⟨c', -, h⟩ := bind_eq_ok.mp h
      obtain ⟨order', horder, h⟩ := bind_eq_ok.mp h
      cases h
      exact horder

/-- The table of program headers, if there is one, stands where the header says. -/
theorem programHeaders_ok {file : Array Byte} {h : Header} {places : List Nat}
    (htable : programHeaders file h = .ok places) :
    ∃ count,
      places = (List.range count).map (fun i => h.programs + i * h.fileClass.programHeaderBytes)
      ∧ (h.programs ≠ 0 → h.programCount ≠ 0xffff → count = h.programCount) := by
  unfold programHeaders at htable
  split at htable
  · next hnone =>
      cases htable
      exact ⟨0, rfl, fun hsome => absurd hnone hsome⟩
  · simp only [] at htable
    split at htable
    · next hextended =>
        obtain ⟨count, -, htable⟩ := bind_eq_ok.mp htable
        obtain ⟨-, -, htable⟩ := bind_eq_ok.mp htable
        cases htable
        exact ⟨count, rfl, fun _ hcount => absurd hextended hcount⟩
    · obtain ⟨count, hcount, htable⟩ := bind_eq_ok.mp htable
      obtain ⟨-, -, htable⟩ := bind_eq_ok.mp htable
      cases htable
      cases hcount
      exact ⟨_, rfl, fun _ _ => rfl⟩

theorem Header.stands_of_read {file : Array Byte} {h : Header} (hread : Header.read file = .ok h)
    (hclass : h.fileClass = .elf32) : h.Stands file := by
  obtain ⟨⟨c, order⟩, hidentify, hread⟩ := bind_eq_ok.mp hread
  obtain ⟨-, -, hread⟩ := bind_eq_ok.mp hread
  cases hread
  cases hclass
  exact ⟨orderOf_eq_ok (identify_ok hidentify), rfl, rfl, rfl, rfl, rfl, rfl, rfl, rfl, rfl, rfl⟩

theorem layout_of_parse {file : Array Byte} {h : Header} {places : List Nat}
    (hparse : parse file = .ok (h, places)) (hclass : h.fileClass = .elf32) :
    Layout file h (places.map (ProgramHeader.read h.order file)) := by
  obtain ⟨h', hread, hparse⟩ := bind_eq_ok.mp hparse
  obtain ⟨-, -, hparse⟩ := bind_eq_ok.mp hparse
  obtain ⟨places', htable, hparse⟩ := bind_eq_ok.mp hparse
  cases hparse
  obtain ⟨count, rfl, hcount⟩ := programHeaders_ok htable
  refine ⟨Header.stands_of_read hread hclass, fun hsome hdirect => ?_, fun i p hp => ?_⟩
  · rw [List.length_map, List.length_map, List.length_range]
    exact hcount hsome hdirect
  · rw [List.getElem?_map, List.getElem?_map, hclass] at hp
    by_cases hi : i < count
    · rw [List.getElem?_range hi] at hp
      cases hp
      exact ProgramHeader.stands_read h.order file (h.programs + i * 32)
    · rw [List.getElem?_eq_none (by rw [List.length_range]; omega)] at hp
      cases hp

/-! ## The accept set -/

theorem Header.checks_hold {h : Header} : (∀ c ∈ h.checks, c.holds = true)
    ↔ h.fileClass = .elf32 ∧ h.type = 2 ∧ h.machine = 0xf3 ∧ h.version = 1 := by
  simp [checks]

theorem ProgramHeader.checks_hold {p : ProgramHeader} {file : Array Byte} :
    (∀ c ∈ p.checks file, c.holds = true)
      ↔ p.type ≤ 6 ∧ (p.type = 1 → p.fileSize ≤ p.memorySize
        ∧ p.address + p.memorySize ≤ 2 ^ 32 ∧ p.offset + p.fileSize ≤ file.size) := by
  simp only [checks, List.forall_mem_cons, decide_eq_true_eq, loadable, loadableType]
  refine and_congr_right fun _ => ?_
  by_cases hload : p.type = 1
  · simp [hload, loadChecks]
  · simp [hload]

/-- What becomes of a file with this header and these program headers. -/
structure Reading (file : Array Byte) (h : Header) (programs : List ProgramHeader) : Prop where
  layout : h.fileClass = .elf32 → Layout file h programs
  accepts : (∃ image, Image.ofFile file = .ok image)
    ↔ h.fileClass = .elf32 ∧ h.type = 2 ∧ h.machine = 0xf3 ∧ h.version = 1
      ∧ (∀ p ∈ programs, p.type ≤ 6)
      ∧ ∀ p ∈ programs, p.type = 1 → p.fileSize ≤ p.memorySize
        ∧ p.address + p.memorySize ≤ 2 ^ 32 ∧ p.offset + p.fileSize ≤ file.size
  entry : ∀ image, Image.ofFile file = .ok image → image.entry.toNat = h.entry
  segments : ∀ image, Image.ofFile file = .ok image →
    List.Forall₂ (fun p s => s.type = 1 ∧ s.base.toNat = p.address
        ∧ s.memorySize.toNat = p.memorySize
        ∧ s.data = file.extract p.offset (p.offset + p.fileSize))
      (programs.filter (·.type = 1)) image.segments
  refuses : ∀ e, Image.ofFile file = .error e ↔
    ∃ before c after, h.checks ++ programs.flatMap (·.checks file) = before ++ c :: after
      ∧ (∀ b ∈ before, b.holds = true) ∧ c.holds = false ∧ e = c.error

theorem ProgramHeader.segmentIn_read (order : ByteOrder) (file : Array Byte) (place : Nat) :
    let p := ProgramHeader.read order file place
    (p.segmentIn file).base.toNat = p.address
      ∧ (p.segmentIn file).memorySize.toNat = p.memorySize :=
  ⟨BitVec.toNat_ofNat _ _ ▸ Nat.mod_eq_of_lt (numberAt_lt order file (place + 4 * 2) 4),
    BitVec.toNat_ofNat _ _ ▸ Nat.mod_eq_of_lt (numberAt_lt order file (place + 4 * 5) 4)⟩

theorem reading_of_parse {file : Array Byte} {h : Header} {places : List Nat}
    (hparse : parse file = .ok (h, places)) :
    Reading file h (places.map (ProgramHeader.read h.order file)) := by
  let programs := places.map (ProgramHeader.read h.order file)
  have hread : Image.ofFile file = judge (h.checks ++ programs.flatMap (·.checks file))
      ⟨BitVec.ofNat 32 h.entry, (programs.filter (·.loadable)).map (·.segmentIn file)⟩ := by
    rw [ofFile_eq, outcome_read hparse]
  have hhold : (∀ c ∈ h.checks ++ programs.flatMap (·.checks file), c.holds = true)
      ↔ (h.fileClass = .elf32 ∧ h.type = 2 ∧ h.machine = 0xf3 ∧ h.version = 1)
        ∧ ∀ p ∈ programs, p.type ≤ 6 ∧ (p.type = 1 → p.fileSize ≤ p.memorySize
          ∧ p.address + p.memorySize ≤ 2 ^ 32 ∧ p.offset + p.fileSize ≤ file.size) := by
    rw [List.forall_mem_append, Header.checks_hold, List.forall_mem_flatMap]
    simp only [ProgramHeader.checks_hold]
  exact {
    layout := layout_of_parse hparse
    accepts := by
      simp only [hread, judge_eq_ok, exists_and_left, exists_eq, and_true, hhold]
      constructor
      · rintro ⟨⟨hclass, htype, hmachine, hversion⟩, hall⟩
        exact ⟨hclass, htype, hmachine, hversion, fun p hp => (hall p hp).1,
          fun p hp => (hall p hp).2⟩
      · rintro ⟨hclass, htype, hmachine, hversion, hstandard, hload⟩
        exact ⟨⟨hclass, htype, hmachine, hversion⟩, fun p hp => ⟨hstandard p hp, hload p hp⟩⟩
    entry := fun image himage => by
      obtain ⟨hall, rfl⟩ := judge_eq_ok.mp (hread.symm.trans himage)
      have hentry := (layout_of_parse hparse (hhold.mp hall).1.1).header.entry
      show (BitVec.ofNat 32 h.entry).toNat = h.entry
      rw [BitVec.toNat_ofNat, hentry]
      exact Nat.mod_eq_of_lt (numberAt_lt h.order file 24 4)
    segments := fun image himage => by
      obtain ⟨-, rfl⟩ := judge_eq_ok.mp (hread.symm.trans himage)
      refine List.forall₂_map_right_iff.mpr (List.forall₂_same.mpr fun p hp => ?_)
      obtain ⟨hmem, hload⟩ := List.mem_filter.mp hp
      obtain ⟨place, -, rfl⟩ := List.mem_map.mp hmem
      obtain ⟨hbase, hsize⟩ := ProgramHeader.segmentIn_read h.order file place
      exact ⟨congrArg (BitVec.ofNat 32) (of_decide_eq_true hload), hbase, hsize, rfl⟩
    refuses := fun e => by
      rw [hread, judge_eq_error, firstFailure?_eq_some] }

/-- A file is an image just if its outer structure can be read and all checks hold; the image is
what its fields say, and otherwise the first check that fails is the error. -/
theorem ofFile_exact (file : Array Byte) :
    match parse file with
    | .error e => Image.ofFile file = .error (.parse e)
    | .ok (h, places) => Reading file h (places.map (ProgramHeader.read h.order file)) := by
  cases hparse : parse file with
  | error e =>
      simp only [Image.ofFile, Image.read, hparse]
      rfl
  | ok found =>
      exact reading_of_parse hparse

end Rv32Soc.Elf
