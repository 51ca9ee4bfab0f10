import Rv32Soc.Proofs.ElfImages

/-!
# Making a file from segments

A file can be made from an entry point and a list of segments: the header, the
table of program headers, one for each segment, and the contents one after the
other. The program headers name the places of the contents; each is the place
of the one before plus its length. A reader finds everything again: in either
byte order the file is an image with just these segments.
-/

namespace Rv32Soc.Elf

/-- A segment to be put into a file. -/
structure Part where
  address : Word
  contents : List Byte

/-- The number of bytes of a part. -/
def Part.size (p : Part) : Nat :=
  p.contents.length

/-- The segment that a part becomes. -/
def Part.segment (p : Part) : Segment where
  type := 1
  base := p.address
  memorySize := BitVec.ofNat 32 p.size
  data := p.contents.toArray

/-! ## The layout -/

/-- The sixteen identification bytes of a 32-bit file. -/
def ident (order : ByteOrder) : List Byte :=
  magic ++ [1, BitVec.ofNat 8 order.mark, 1] ++ List.replicate 9 0

/-- The rest of the header: type, machine, version, entry point, the places of the two tables,
flags, the sizes of header and entries, and their numbers. -/
def headerFields (entry : Word) (count : Nat) : Fields :=
  [(2, 2), (2, 0xf3), (4, 1), (4, entry.toNat), (4, 52), (4, 0), (4, 0),
    (2, 52), (2, 32), (2, count), (2, 40), (2, 0), (2, 0)]

/-- A program header: type, place, two addresses, two sizes, flags, alignment. -/
def programFields (place : Nat) (p : Part) : Fields :=
  [(4, 1), (4, place), (4, p.address.toNat), (4, p.address.toNat), (4, p.size), (4, p.size),
    (4, 7), (4, 4)]

/-- The program headers of parts whose contents begin at `place`. -/
def programTable (order : ByteOrder) : Nat → List Part → List Byte
  | _, [] => []
  | place, p :: rest =>
      (programFields place p).spell order ++ programTable order (place + p.size) rest

/-- The place of the first contents. -/
def contentsPlace (parts : List Part) : Nat :=
  52 + 32 * parts.length

/-- The file with an entry point and some segments. -/
def build (order : ByteOrder) (entry : Word) (parts : List Part) : List Byte :=
  ident order ++ (headerFields entry parts.length).spell order
    ++ programTable order (contentsPlace parts) parts ++ parts.flatMap Part.contents

theorem length_ident (order : ByteOrder) : (ident order).length = 16 := by
  cases order <;> rfl

theorem sizes_headerFields (entry : Word) (count : Nat) :
    (headerFields entry count).map Prod.fst = [2, 2, 4, 4, 4, 4, 4, 2, 2, 2, 2, 2, 2] := rfl

theorem sizes_programFields (place : Nat) (p : Part) :
    (programFields place p).map Prod.fst = [4, 4, 4, 4, 4, 4, 4, 4] := rfl

theorem length_header (order : ByteOrder) (entry : Word) (count : Nat) :
    (ident order ++ (headerFields entry count).spell order).length = 52 := by
  rw [List.length_append, length_ident, Fields.length_spell, Fields.size, sizes_headerFields]
  decide

theorem length_programFields (order : ByteOrder) (place : Nat) (p : Part) :
    ((programFields place p).spell order).length = 32 := by
  rw [Fields.length_spell, Fields.size, sizes_programFields]
  decide

theorem length_programTable (order : ByteOrder) (place : Nat) (parts : List Part) :
    (programTable order place parts).length = 32 * parts.length := by
  induction parts generalizing place with
  | nil => rfl
  | cons p rest ih =>
      rw [programTable, List.length_append, length_programFields, ih, List.length_cons]
      omega

theorem length_front (order : ByteOrder) (entry : Word) (parts : List Part) :
    (ident order ++ (headerFields entry parts.length).spell order
      ++ programTable order (contentsPlace parts) parts).length = contentsPlace parts := by
  rw [List.length_append, length_header, length_programTable]
  rfl

theorem length_build (order : ByteOrder) (entry : Word) (parts : List Part) :
    (build order entry parts).length
      = contentsPlace parts + (parts.flatMap Part.contents).length := by
  rw [build, List.length_append, length_front]

/-! ## The header is read -/

theorem need_ok {file : Array Byte} {start stop : Nat} (h : start ≤ stop)
    (hstop : stop ≤ file.size) :
    need file start stop = .ok () :=
  if_pos ⟨Nat.le_trans h hstop, hstop⟩

theorem identify_ident (order : ByteOrder) (rest : List Byte) :
    identify (ident order ++ rest).toArray = .ok (.elf32, order) := by
  have hneed : need (ident order ++ rest).toArray 0 16 = .ok () := by
    refine need_ok (Nat.zero_le _) ?_
    rw [List.size_toArray, List.length_append, length_ident]
    exact Nat.le_add_right _ _
  have hmagic : bytesAt (ident order ++ rest).toArray 0 4 = magic := by
    have hsplit : ident order ++ rest = [] ++ magic
        ++ ([1, BitVec.ofNat 8 order.mark, 1] ++ List.replicate 9 0 ++ rest) := by
      simp only [ident, List.append_assoc, List.nil_append]
    rw [hsplit]
    exact bytesAt_append [] magic _
  have hmark : ∀ i < 16, (ident order ++ rest).toArray.getD i 0 = (ident order).getD i 0 := by
    intro i hi
    rw [← length_ident order] at hi
    simp [List.getElem?_append_left hi]
  simp only [identify, hneed, hmagic, hmark 4 (by decide), hmark 5 (by decide),
    hmark 6 (by decide)]
  cases order <;> rfl

/-- The header of a built file. -/
def headerOf (order : ByteOrder) (entry : Word) (count : Nat) : Header where
  fileClass := .elf32
  order := order
  type := 2
  machine := 0xf3
  version := 1
  entry := entry.toNat
  programs := 52
  sections := 0
  programSize := 32
  programCount := count
  sectionSize := 40
  sectionCount := 0

theorem fit_headerFields (entry : Word) {count : Nat} (hcount : count < 0xffff) :
    (headerFields entry count).Fit := by
  have hentry : entry.toNat < 256 ^ 4 := entry.isLt
  simp [Fields.Fit, headerFields]
  omega

theorem read_header (order : ByteOrder) (entry : Word) {count : Nat} (hcount : count < 0xffff)
    (rest : List Byte) :
    Header.read (ident order ++ (headerFields entry count).spell order ++ rest).toArray
      = .ok (headerOf order entry count) := by
  have hidentify := identify_ident order ((headerFields entry count).spell order ++ rest)
  rw [← List.append_assoc] at hidentify
  have hneed : need (ident order ++ (headerFields entry count).spell order ++ rest).toArray 16 52
      = .ok () := by
    refine need_ok (by decide) ?_
    rw [List.size_toArray, List.length_append, length_header]
    exact Nat.le_add_right _ _
  have hfield : ∀ i place n value, (headerFields entry count)[i]? = some (n, value) →
      16 + ([2, 2, 4, 4, 4, 4, 4, 2, 2, 2, 2, 2, 2].take i).foldr (· + ·) 0 = place →
      numberAt order (ident order ++ (headerFields entry count).spell order ++ rest).toArray
        place n = value := by
    intro i place n value hi hplace
    refine numberAt_spell order (ident order) rest (fit_headerFields entry hcount) hi ?_
    rw [length_ident, sizes_headerFields]
    exact hplace
  refine bind_eq_ok.mpr ⟨(.elf32, order), hidentify, bind_eq_ok.mpr ⟨(), hneed, ?_⟩⟩
  refine congrArg Except.ok ?_
  rw [headerOf, Header.mk.injEq]
  exact ⟨rfl, rfl, hfield 0 16 2 2 rfl (by decide), hfield 1 18 2 0xf3 rfl (by decide),
    hfield 2 20 4 1 rfl (by decide), hfield 3 24 4 _ rfl (by decide),
    hfield 4 28 4 52 rfl (by decide), hfield 5 32 4 0 rfl (by decide),
    hfield 8 42 2 32 rfl (by decide), hfield 9 44 2 _ rfl (by decide),
    hfield 10 46 2 40 rfl (by decide), hfield 11 48 2 0 rfl (by decide)⟩

/-! ## The program headers are read -/

theorem fits_ok {n : Nat} (h : n < placeCount) : fits n = .ok n :=
  if_pos h

theorem programHeaders_headerOf {file : Array Byte} (order : ByteOrder) (entry : Word)
    {count : Nat} (hcount : count < 0xffff) (hsize : 52 + count * 32 ≤ file.size) :
    programHeaders file (headerOf order entry count)
      = .ok ((List.range count).map fun i => 52 + i * 32) := by
  have htable : needTable file 52 count 32 32 = .ok () := by
    refine bind_eq_ok.mpr ⟨count * 32, fits_ok ?_, bind_eq_ok.mpr ⟨52 + count * 32, fits_ok ?_, ?_⟩⟩
    · rw [placeCount]; omega
    · rw [placeCount]; omega
    · exact need_ok (Nat.le_add_right _ _) hsize
  have hdirect : (headerOf order entry count).programCount ≠ 0xffff := Nat.ne_of_lt hcount
  have hsome : (headerOf order entry count).programs ≠ 0 := Nat.succ_ne_zero 51
  simp only [programHeaders, if_neg hsome, if_neg hdirect]
  exact bind_eq_ok.mpr ⟨count, rfl, bind_eq_ok.mpr ⟨(), htable, rfl⟩⟩

theorem parse_build (order : ByteOrder) (entry : Word) {parts : List Part}
    (hcount : parts.length < 0xffff) :
    parse (build order entry parts).toArray
      = .ok (headerOf order entry parts.length,
          (List.range parts.length).map fun i => 52 + i * 32) := by
  have hread := read_header order entry hcount
    (programTable order (contentsPlace parts) parts ++ parts.flatMap Part.contents)
  rw [← List.append_assoc] at hread
  have hsize : 52 + parts.length * 32 ≤ (build order entry parts).toArray.size := by
    rw [List.size_toArray, length_build, contentsPlace]
    omega
  refine bind_eq_ok.mpr ⟨_, hread, bind_eq_ok.mpr ⟨(), rfl, bind_eq_ok.mpr ⟨_,
    programHeaders_headerOf order entry hcount hsize, rfl⟩⟩⟩

/-- The program headers of parts whose contents begin at `place`. -/
def headersFrom : Nat → List Part → List ProgramHeader
  | _, [] => []
  | place, p :: rest =>
      ⟨1, place, p.address.toNat, p.size, p.size⟩ :: headersFrom (place + p.size) rest

theorem fit_programFields {place : Nat} {p : Part} (hplace : place + p.size < 2 ^ 32) :
    (programFields place p).Fit := by
  have haddress : p.address.toNat < 256 ^ 4 := p.address.isLt
  simp [Fields.Fit, programFields]
  omega

theorem read_programFields (order : ByteOrder) (before after : List Byte) {place : Nat} {p : Part}
    (hend : place + p.size < 2 ^ 32) :
    ProgramHeader.read order (before ++ (programFields place p).spell order ++ after).toArray
      before.length = ⟨1, place, p.address.toNat, p.size, p.size⟩ := by
  have hfield : ∀ i value, (programFields place p)[i]? = some (4, value) →
      ([4, 4, 4, 4, 4, 4, 4, 4].take i).foldr (· + ·) 0 = 4 * i →
      numberAt order (before ++ (programFields place p).spell order ++ after).toArray
        (before.length + 4 * i) 4 = value := by
    intro i value hi hplace
    refine numberAt_spell order before after (fit_programFields hend) hi ?_
    rw [sizes_programFields, hplace]
  rw [ProgramHeader.read, ProgramHeader.mk.injEq]
  exact ⟨hfield 0 1 rfl (by decide), hfield 1 place rfl (by decide), hfield 2 _ rfl (by decide),
    hfield 4 _ rfl (by decide), hfield 5 _ rfl (by decide)⟩

theorem read_programTable (order : ByteOrder) (before after : List Byte) {place : Nat}
    {parts : List Part} (hplaces : place + (parts.flatMap Part.contents).length < 2 ^ 32) :
    (List.range parts.length).map (fun i => ProgramHeader.read order
        (before ++ programTable order place parts ++ after).toArray (before.length + i * 32))
      = headersFrom place parts := by
  induction parts generalizing before place with
  | nil => rfl
  | cons p rest ih =>
      have hlength : ((p :: rest).flatMap Part.contents).length
          = p.size + (rest.flatMap Part.contents).length := List.length_append
      have hend : place + p.size < 2 ^ 32 := by omega
      have hends : place + p.size + (rest.flatMap Part.contents).length < 2 ^ 32 := by omega
      have hfirst := read_programFields order before
        (programTable order (place + p.size) rest ++ after) hend
      have hrest := ih (before ++ (programFields place p).spell order) hends
      have hspelled : (before ++ (programFields place p).spell order).length
          = before.length + 32 := by
        rw [List.length_append, length_programFields]
      rw [hspelled] at hrest
      simp only [List.append_assoc] at hfirst hrest
      rw [List.length_cons, List.range_succ_eq_map, List.map_cons, List.map_map, headersFrom,
        ← hrest, ← hfirst, programTable]
      have hplace : ∀ i, before.length + (i + 1) * 32 = before.length + 32 + i * 32 := fun i => by
        omega
      simp only [List.append_assoc, Nat.zero_mul, Nat.add_zero, Function.comp_def,
        Nat.succ_eq_add_one, hplace]

/-! ## The segments are read -/

theorem ofNat_toNat_word (w : Word) : BitVec.ofNat 32 w.toNat = w := by
  rw [BitVec.ofNat_toNat, BitVec.setWidth_eq]

theorem segmentIn_headersFrom (before : List Byte) (parts : List Part) :
    (headersFrom before.length parts).map
        (·.segmentIn (before ++ parts.flatMap Part.contents).toArray)
      = parts.map Part.segment := by
  induction parts generalizing before with
  | nil => rfl
  | cons p rest ih =>
      have hrest := ih (before ++ p.contents)
      rw [List.length_append, List.append_assoc] at hrest
      have hdata : (before ++ (p.contents ++ rest.flatMap Part.contents)).toArray.extract
          before.length (before.length + p.size) = p.contents.toArray := by
        simp [Part.size, List.extract_eq_take_drop]
      rw [headersFrom, List.map_cons, List.map_cons, List.flatMap_cons]
      refine congrArg₂ List.cons ?_ hrest
      rw [ProgramHeader.segmentIn, Segment.mk.injEq]
      exact ⟨rfl, ofNat_toNat_word p.address, rfl, hdata⟩

theorem headersFrom_hold {file : Array Byte} {place : Nat} {parts : List Part}
    (hends : ∀ p ∈ parts, p.address.toNat + p.size ≤ 2 ^ 32)
    (hfile : place + (parts.flatMap Part.contents).length ≤ file.size) :
    ∀ p ∈ headersFrom place parts, p.loadable = true ∧ ∀ c ∈ p.checks file, c.holds = true := by
  induction parts generalizing place with
  | nil => exact nofun
  | cons p rest ih =>
      have hlength : ((p :: rest).flatMap Part.contents).length
          = p.size + (rest.flatMap Part.contents).length := List.length_append
      have hfile' : place + p.size + (rest.flatMap Part.contents).length ≤ file.size := by omega
      have hrest := ih (fun q hq => hends q (List.mem_cons_of_mem p hq)) hfile'
      rw [headersFrom, List.forall_mem_cons]
      refine ⟨⟨rfl, ProgramHeader.checks_hold.mpr ⟨Nat.le_add_left 1 5, fun _ => ?_⟩⟩, hrest⟩
      exact ⟨Nat.le_refl _, hends p List.mem_cons_self, show place + p.size ≤ file.size by omega⟩

/-- A built file is an image with the segments that it has been built from. -/
theorem ofFile_build (order : ByteOrder) (entry : Word) {parts : List Part}
    (hcount : parts.length < 0xffff) (hlength : (build order entry parts).length < 2 ^ 32)
    (hends : ∀ p ∈ parts, p.address.toNat + p.size ≤ 2 ^ 32) :
    Image.ofFile (build order entry parts).toArray = .ok ⟨entry, parts.map Part.segment⟩ := by
  rw [length_build] at hlength
  have hprograms : ((List.range parts.length).map fun i => 52 + i * 32).map
      (ProgramHeader.read order (build order entry parts).toArray)
        = headersFrom (contentsPlace parts) parts := by
    have htable := read_programTable order
      (ident order ++ (headerFields entry parts.length).spell order) (parts.flatMap Part.contents)
      hlength
    rw [length_header] at htable
    rw [List.map_map]
    exact htable
  have hfile : contentsPlace parts + (parts.flatMap Part.contents).length
      ≤ (build order entry parts).toArray.size :=
    Nat.le_of_eq (by rw [List.size_toArray, length_build])
  have hhold := headersFrom_hold hends hfile
  have hsegments := segmentIn_headersFrom
    (ident order ++ (headerFields entry parts.length).spell order
      ++ programTable order (contentsPlace parts) parts) parts
  rw [length_front] at hsegments
  have hload : (headersFrom (contentsPlace parts) parts).filter (·.loadable)
      = headersFrom (contentsPlace parts) parts :=
    List.filter_eq_self.mpr fun p hp => (hhold p hp).1
  have hread := outcome_read (parse_build order entry hcount) {}
  simp only [headerOf, hprograms, hload] at hread
  rw [ofFile_eq, hread]
  refine judge_eq_ok.mpr ⟨?_, ?_⟩
  · rw [List.forall_mem_append, Header.checks_hold, List.forall_mem_flatMap]
    exact ⟨⟨rfl, rfl, rfl, rfl⟩, fun p hp => (hhold p hp).2⟩
  · rw [Image.mk.injEq]
    exact ⟨(ofNat_toNat_word entry).symm, hsegments.symm⟩

end Rv32Soc.Elf
