import Mathlib.Data.List.Induction
import Mathlib.Data.List.Pairwise
import Mathlib.Logic.Function.Basic
import Rv32Soc.Proofs.Runs
import Rv32Soc.Proofs.Windows

/-!
# The address space

A bus is laid out by giving devices their slots and by opening windows on
them, of which some are refused. What all windows of such a bus have in common
is that they are placed well and that no two of them share a page. From this
everything else follows: a page is found in one window or in none, and the
offset that a device is asked for is the distance from the base. A window that
is refused fails one of four conditions, and the refusal names the first.

A search through the windows is one way to look up a page. Another is a table
of pages, filled in page by page as the windows are opened, that names windows
by their number. The two agree, just because no page is entered twice.
-/

namespace Rv32Soc

variable {ε : Type}

/-! ## Shared pages -/

/-- The windows share no page. -/
def Window.Apart (w v : Window) : Prop :=
  ∀ page, ¬(w.covers page = true ∧ v.covers page = true)

instance : Std.Symm Window.Apart where
  symm _ _ h page hboth := h page ⟨hboth.2, hboth.1⟩

theorem Window.firstCommon?_eq_none {w v : Window} :
    w.firstCommon? v.firstPage v.endPage = none ↔ w.Apart v := by
  unfold firstCommon?
  simp only [ite_eq_right_iff, reduceCtorEq, imp_false]
  constructor
  · intro hnone page hboth
    rw [covers_iff, covers_iff] at hboth
    omega
  · intro hapart hcommon
    apply hapart (max v.firstPage w.firstPage)
    rw [covers_iff, covers_iff]
    omega

theorem Window.firstCommon?_eq_some {w v : Window} {page : Nat} :
    w.firstCommon? v.firstPage v.endPage = some page
      ↔ w.covers page = true ∧ v.covers page = true
        ∧ ∀ earlier, v.firstPage ≤ earlier → earlier < page → w.covers earlier = false := by
  simp only [← Bool.not_eq_true, covers_iff]
  unfold firstCommon?
  simp only [Option.ite_none_right_eq_some, Option.some.injEq]
  constructor
  · rintro ⟨hcommon, rfl⟩
    exact ⟨by omega, by omega, fun earlier => by omega⟩
  · rintro ⟨hw, hv, hfirst⟩
    -- Either window begins at the page, or both cover the page before it.
    have hbefore := hfirst (page - 1)
    omega

/-- Windows are placed well and share no page. -/
structure Laid (windows : List Window) : Prop where
  placed : ∀ w ∈ windows, w.Placed
  apart : windows.Pairwise Window.Apart

theorem laid_nil : Laid [] :=
  ⟨nofun, .nil⟩

theorem Laid.snoc {windows : List Window} (h : Laid windows) {w : Window} (hw : w.Placed)
    (hapart : ∀ v ∈ windows, v.Apart w) : Laid (windows ++ [w]) := by
  constructor
  · intro v hv
    rw [List.mem_append, List.mem_singleton] at hv
    obtain hv | rfl := hv
    · exact h.placed v hv
    · exact hw
  · rw [List.pairwise_append]
    refine ⟨h.apart, List.pairwise_singleton _ _, ?_⟩
    intro v hv w' hw'
    rw [List.mem_singleton.mp hw']
    exact hapart v hv

theorem Laid.eq_of_covers {windows : List Window} (h : Laid windows) {w v : Window} {page : Nat}
    (hw : w ∈ windows) (hv : v ∈ windows) (hwp : w.covers page = true)
    (hvp : v.covers page = true) : w = v := by
  by_contra hne
  exact h.apart.forall hw hv hne page ⟨hwp, hvp⟩

theorem Laid.eq_of_holds {windows : List Window} (h : Laid windows) {w v : Window}
    {address : Word} (hw : w ∈ windows) (hv : v ∈ windows) (hwa : w.Holds address)
    (hva : v.Holds address) : w = v :=
  h.eq_of_covers hw hv ((h.placed w hw).covers_pageOf.mpr hwa)
    ((h.placed v hv).covers_pageOf.mpr hva)

namespace Bus

/-! ## Opening a window -/

theorem firstTaken?_eq_none {b : Bus ε} {v : Window} :
    b.firstTaken? v.firstPage v.endPage = none ↔ ∀ w ∈ b.windows, w.Apart v := by
  rw [firstTaken?, List.min?_eq_none_iff, List.filterMap_eq_nil_iff]
  simp only [Window.firstCommon?_eq_none]

/-- The page that is found to be taken is the first of the window that has one already. -/
theorem firstTaken?_eq_some {b : Bus ε} {v : Window} {page : Nat} :
    b.firstTaken? v.firstPage v.endPage = some page
      ↔ (∃ w ∈ b.windows, w.covers page = true) ∧ v.covers page = true
        ∧ ∀ earlier, v.firstPage ≤ earlier → earlier < page →
            ∀ w ∈ b.windows, w.covers earlier = false := by
  rw [firstTaken?, List.min?_eq_some_iff]
  simp only [List.mem_filterMap]
  constructor
  · rintro ⟨⟨w, hw, hcommon⟩, hleast⟩
    obtain ⟨hwp, hvp, -⟩ := Window.firstCommon?_eq_some.mp hcommon
    refine ⟨⟨w, hw, hwp⟩, hvp, fun earlier hle hlt u hu => ?_⟩
    by_contra hue
    rw [Bool.not_eq_false] at hue
    have hve : v.covers earlier = true := by
      rw [Window.covers_iff] at hvp ⊢
      omega
    cases hfound : u.firstCommon? v.firstPage v.endPage with
    | none => exact Window.firstCommon?_eq_none.mp hfound earlier ⟨hue, hve⟩
    | some first =>
        have hfirst := (Window.firstCommon?_eq_some.mp hfound).2.2 earlier hle
        have hpage := hleast first ⟨u, hu, hfound⟩
        rw [hue] at hfirst
        cases hfirst (by omega)
  · rintro ⟨⟨w, hw, hwp⟩, hvp, hfree⟩
    refine ⟨⟨w, hw, Window.firstCommon?_eq_some.mpr
      ⟨hwp, hvp, fun earlier hle hlt => hfree earlier hle hlt w hw⟩⟩, ?_⟩
    rintro other ⟨u, hu, hcommon⟩
    obtain ⟨hup, hvo, -⟩ := Window.firstCommon?_eq_some.mp hcommon
    by_contra hlt
    have hnone := hfree other (Window.covers_iff.mp hvo).1 (by omega) u hu
    rw [hup] at hnone
    cases hnone

/-- The bus after a window has been opened, with the record of it. -/
def opened (b : Bus ε) (w : Window) : Bus ε :=
  { b with windows := b.windows ++ [w] }.note (.attached b.windows.length w.base w.pages)

/-- A window is opened exactly if it is placed well and apart from all others. -/
theorem attach_eq_ok [Peripheral ε] {b b' : Bus ε} {slot : Nat} {base : Word} :
    b.attach slot base = .ok b' ↔ ∃ d, b.device? slot = some d
      ∧ Window.Placed ⟨base, d.pages, slot⟩
      ∧ (∀ w ∈ b.windows, w.Apart ⟨base, d.pages, slot⟩)
      ∧ b' = b.opened ⟨base, d.pages, slot⟩ := by
  unfold attach
  cases hd : b.device? slot with
  | none => simp
  | some d =>
      simp only [Option.map_some, Option.some.injEq, exists_eq_left', Window.placed_iff]
      split
      · next hnone => simp [hnone]
      · next hsome =>
          split
          · next hmisaligned => simp [hmisaligned]
          · next haligned =>
              split
              · next hbeyond => simp [Nat.not_le.mpr hbeyond]
              · next hfits =>
                  rw [← firstTaken?_eq_none]
                  split
                  · next page htaken => simp [htaken]
                  · next hfree =>
                      rw [Decidable.not_not] at haligned
                      simp only [Except.ok.injEq]
                      constructor
                      · rintro rfl
                        exact ⟨⟨hsome, haligned, Nat.not_lt.mp hfits⟩, hfree, rfl⟩
                      · rintro ⟨-, -, rfl⟩
                        rfl

/-! ## Histories -/

/-- A call that lays out a bus. Devices are given a slot before they are attached, may be
attached again, and slots and bases may be wrong. -/
inductive Setup (ε : Type) where
  | install (device : Device ε)
  | attach (slot : Nat) (base : Word)

variable [Peripheral ε]

/-- The bus after a call. One that is refused leaves it as it was. -/
def Setup.apply (b : Bus ε) : Setup ε → Bus ε
  | install d => (b.install d).2
  | attach slot base =>
      match b.attach slot base with
      | .ok b => b
      | .error _ => b

/-- The bus that a history of calls makes of a new one. -/
def setUp (calls : List (Setup ε)) : Bus ε :=
  calls.foldl Setup.apply {}

theorem setUp_snoc (calls : List (Setup ε)) (call : Setup ε) :
    setUp (calls ++ [call]) = call.apply (setUp calls) :=
  List.foldl_append

theorem laid_apply {b : Bus ε} (h : Laid b.windows) (call : Setup ε) :
    Laid (call.apply b).windows := by
  cases call with
  | install d => exact h
  | attach slot base =>
      simp only [Setup.apply]
      cases hattach : b.attach slot base with
      | error e => exact h
      | ok b' =>
          obtain ⟨d, -, hplaced, hapart, rfl⟩ := attach_eq_ok.mp hattach
          exact h.snoc hplaced hapart

theorem laid_setUp (calls : List (Setup ε)) : Laid (setUp calls).windows := by
  induction calls using List.reverseRecOn with
  | nil => exact laid_nil
  | append_singleton calls call ih =>
      rw [setUp_snoc]
      exact laid_apply ih call

/-- Behind every window is a device that has just its pages. -/
def Occupied (b : Bus ε) : Prop :=
  ∀ w ∈ b.windows, ∃ d, b.device? w.slot = some d ∧ d.pages = w.pages

theorem occupied_apply {b : Bus ε} (h : b.Occupied) (call : Setup ε) :
    (call.apply b).Occupied := by
  cases call with
  | install e =>
      intro w hw
      obtain ⟨d, hd, hpages⟩ := h w hw
      exact ⟨d, device?_install hd e, hpages⟩
  | attach slot base =>
      simp only [Setup.apply]
      cases hattach : b.attach slot base with
      | error e => exact h
      | ok b' =>
          obtain ⟨d, hd, -, -, rfl⟩ := attach_eq_ok.mp hattach
          intro w hw
          obtain hw | hw := List.mem_append.mp hw
          · exact h w hw
          · rw [List.mem_singleton.mp hw]
            exact ⟨d, hd, rfl⟩

theorem occupied_setUp (calls : List (Setup ε)) : (setUp calls).Occupied := by
  induction calls using List.reverseRecOn with
  | nil => exact nofun
  | append_singleton calls call ih =>
      rw [setUp_snoc]
      exact occupied_apply ih call

theorem install_mem_of_device? {calls : List (Setup ε)} {slot : Nat} {d : Device ε}
    (hd : (setUp calls).device? slot = some d) : .install d ∈ calls := by
  induction calls using List.reverseRecOn with
  | nil => simp [setUp, device?] at hd
  | append_singleton calls call ih =>
      rw [setUp_snoc] at hd
      cases call with
      | install e =>
          simp only [Setup.apply, install, device?, Array.getElem?_push] at hd
          split at hd
          · cases hd
            exact List.mem_append_right _ (List.mem_singleton.mpr rfl)
          · exact List.mem_append_left _ (ih hd)
      | attach slot base =>
          refine List.mem_append_left _ (ih ?_)
          simp only [Setup.apply] at hd
          cases hattach : (setUp calls).attach slot base with
          | error e =>
              rw [hattach] at hd
              exact hd
          | ok b =>
              rw [hattach, device?, attach_slots hattach] at hd
              exact hd

end Bus

/-! ## The table of pages -/

/-- A table that tells for each page the number of its window. -/
abbrev PageTable := Nat → Option Nat

/-- Enter the pages of the `index`-th window, one by one. -/
def PageTable.enter (table : PageTable) (index : Nat) (w : Window) : PageTable :=
  (List.range' w.firstPage w.pages.toNat).foldl
    (fun table page => Function.update table page (some index)) table

/-- The table filled in window by window. -/
def pageTable (windows : List Window) : PageTable :=
  windows.zipIdx.foldl (fun table entry => table.enter entry.2 entry.1) fun _ => none

theorem foldl_update_range' (table : PageTable) (value : Option Nat) (first count page : Nat) :
    (List.range' first count).foldl (fun table page => Function.update table page value) table page
      = if first ≤ page ∧ page < first + count then value else table page := by
  induction count generalizing first table with
  | zero =>
      rw [if_neg (by omega)]
      rfl
  | succ count ih =>
      rw [List.range'_succ, List.foldl_cons, ih]
      by_cases hfirst : page = first
      · rw [if_neg (by omega), if_pos (by omega), hfirst, Function.update_self]
      · rw [Function.update_of_ne hfirst]
        by_cases hrest : first + 1 ≤ page ∧ page < first + 1 + count
        · rw [if_pos hrest, if_pos (by omega)]
        · rw [if_neg hrest, if_neg (by omega)]

theorem PageTable.enter_apply (table : PageTable) (index : Nat) (w : Window) (page : Nat) :
    table.enter index w page = if w.covers page = true then some index else table page := by
  simp only [enter, foldl_update_range', Window.covers_iff, Window.endPage]

theorem pageTable_snoc (windows : List Window) (w : Window) :
    pageTable (windows ++ [w]) = (pageTable windows).enter windows.length w := by
  simp [pageTable, List.zipIdx_append]

/-- No entry of the table is written over, and so it names just the windows of a page. -/
theorem pageTable_eq_some {windows : List Window} (h : windows.Pairwise Window.Apart)
    {page index : Nat} :
    pageTable windows page = some index
      ↔ ∃ w, windows[index]? = some w ∧ w.covers page = true := by
  -- Windows are entered in order, so the induction is on the last one.
  induction windows using List.reverseRecOn with
  | nil => simp [pageTable]
  | append_singleton windows w ih =>
      rw [List.pairwise_append] at h
      have hlast : (windows ++ [w])[windows.length]? = some w := List.getElem?_concat_length
      rw [pageTable_snoc, PageTable.enter_apply]
      split
      · next hw =>
          constructor
          · intro hindex
            cases hindex
            exact ⟨w, hlast, hw⟩
          · rintro ⟨v, hv, hvp⟩
            rw [List.getElem?_append] at hv
            split at hv
            · have hmem : v ∈ windows := List.mem_of_getElem? hv
              exact absurd ⟨hvp, hw⟩ (h.2.2 v hmem w (List.mem_singleton.mpr rfl) page)
            · have hzero : index - windows.length < 1 := (List.getElem?_eq_some_iff.mp hv).1
              exact congrArg some (by omega)
      · next hw =>
          rw [ih h.1]
          constructor
          · rintro ⟨v, hv, hvp⟩
            refine ⟨v, ?_, hvp⟩
            rw [List.getElem?_append_left (List.getElem?_eq_some_iff.mp hv).1, hv]
          · rintro ⟨v, hv, hvp⟩
            rw [List.getElem?_append] at hv
            split at hv
            · exact ⟨v, hv, hvp⟩
            · rw [List.mem_singleton.mp (List.mem_of_getElem? hv)] at hvp
              exact absurd hvp hw

namespace Bus

/-! ## Looking up a page -/

theorem mem_of_window? {b : Bus ε} {page : Nat} {w : Window} (h : b.window? page = some w) :
    w ∈ b.windows ∧ w.covers page = true := by
  have hcovers := List.find?_some h
  exact ⟨List.mem_of_find?_eq_some h, hcovers⟩

theorem window?_eq_some {b : Bus ε} (h : Laid b.windows) {page : Nat} {w : Window} :
    b.window? page = some w ↔ w ∈ b.windows ∧ w.covers page = true := by
  constructor
  · exact mem_of_window?
  · rintro ⟨hw, hwp⟩
    cases hfind : b.window? page with
    | none => exact absurd hwp (List.find?_eq_none.mp hfind w hw)
    | some v =>
        obtain ⟨hv, hvp⟩ := mem_of_window? hfind
        rw [h.eq_of_covers hv hw hvp hwp]

theorem window?_eq_pageTable {b : Bus ε} (h : Laid b.windows) (page : Nat) :
    b.window? page = (pageTable b.windows page).bind (b.windows[·]?) := by
  cases htable : pageTable b.windows page with
  | some index =>
      obtain ⟨w, hw, hwp⟩ := (pageTable_eq_some h.apart).mp htable
      rw [Option.bind_some, hw]
      exact (window?_eq_some h).mpr ⟨List.mem_of_getElem? hw, hwp⟩
  | none =>
      rw [Option.bind_none]
      apply List.find?_eq_none.mpr
      intro w hw hwp
      obtain ⟨index, hindex⟩ := List.getElem?_of_mem hw
      rw [(pageTable_eq_some h.apart).mpr ⟨w, hindex, hwp⟩] at htable
      cases htable

/-! ## Routing -/

theorem route_of_holds {b : Bus ε} (h : Laid b.windows) {w : Window} (hw : w ∈ b.windows)
    {address : Word} (ha : w.Holds address) : b.route address = some (w.slot, address - w.base) := by
  have hplaced := h.placed w hw
  have hfind : b.window? (pageOf address) = some w :=
    (window?_eq_some h).mpr ⟨hw, hplaced.covers_pageOf.mpr ha⟩
  rw [route, hfind, Option.map_some, hplaced.offset_eq ha]

theorem route_eq_some {b : Bus ε} (h : Laid b.windows) {address : Word} {slot : Nat}
    {offset : Word} (hroute : b.route address = some (slot, offset)) :
    ∃ w ∈ b.windows, w.Holds address ∧ slot = w.slot ∧ offset = address - w.base := by
  obtain ⟨w, hfind, hplace⟩ := Option.map_eq_some_iff.mp hroute
  obtain ⟨hw, hcovers⟩ := mem_of_window? hfind
  have ha := (h.placed w hw).covers_pageOf.mp hcovers
  rw [(h.placed w hw).offset_eq ha] at hplace
  cases hplace
  exact ⟨w, hw, ha, rfl, rfl⟩

theorem route_eq_none {b : Bus ε} (h : Laid b.windows) {address : Word} :
    b.route address = none ↔ ∀ w ∈ b.windows, ¬w.Holds address := by
  constructor
  · intro hnone w hw ha
    rw [route_of_holds h hw ha] at hnone
    cases hnone
  · intro hnone
    rw [route, Option.map_eq_none_iff]
    apply List.find?_eq_none.mpr
    intro w hw hcovers
    exact hnone w hw ((h.placed w hw).covers_pageOf.mp hcovers)

/-! ## The address space as a whole -/

theorem pageTable_ne_none {b : Bus ε} (h : Laid b.windows) {page : Nat} :
    pageTable b.windows page ≠ none ↔ ∃ w ∈ b.windows, w.covers page = true := by
  rw [Option.ne_none_iff_exists']
  constructor
  · rintro ⟨index, hindex⟩
    obtain ⟨w, hw, hwp⟩ := (pageTable_eq_some h.apart).mp hindex
    exact ⟨w, List.mem_of_getElem? hw, hwp⟩
  · rintro ⟨w, hw, hwp⟩
    obtain ⟨index, hindex⟩ := List.getElem?_of_mem hw
    exact ⟨index, (pageTable_eq_some h.apart).mpr ⟨w, hindex, hwp⟩⟩

/-- The pages of a new window are not in the table just if it is apart from all others. -/
theorem apart_iff_pageTable {b : Bus ε} (h : Laid b.windows) {v : Window} :
    (∀ w ∈ b.windows, w.Apart v)
      ↔ ∀ page, v.firstPage ≤ page → page < v.endPage → pageTable b.windows page = none := by
  constructor
  · intro hapart page hfirst hend
    by_contra htaken
    obtain ⟨w, hw, hwp⟩ := (pageTable_ne_none h).mp htaken
    exact hapart w hw page ⟨hwp, Window.covers_iff.mpr ⟨hfirst, hend⟩⟩
  · intro hfree w hw page hboth
    obtain ⟨hfirst, hend⟩ := Window.covers_iff.mp hboth.2
    exact (pageTable_ne_none h).mpr ⟨w, hw, hboth.1⟩ (hfree page hfirst hend)

theorem pageTable_firstTaken {b : Bus ε} (h : Laid b.windows) {v : Window} {page : Nat}
    (htaken : b.firstTaken? v.firstPage v.endPage = some page) :
    (v.firstPage ≤ page ∧ page < v.endPage) ∧ pageTable b.windows page ≠ none
      ∧ ∀ earlier, v.firstPage ≤ earlier → earlier < page → pageTable b.windows earlier = none := by
  obtain ⟨hcovered, hcovers, hfree⟩ := firstTaken?_eq_some.mp htaken
  refine ⟨Window.covers_iff.mp hcovers, (pageTable_ne_none h).mpr hcovered,
    fun earlier hle hlt => ?_⟩
  by_contra hentered
  obtain ⟨w, hw, hwp⟩ := (pageTable_ne_none h).mp hentered
  rw [hfree earlier hle hlt w hw] at hwp
  cases hwp

/-- Why no window of so many pages is opened at a base: the first of the conditions that fails,
with what it fails on. The rounded size is that of the bus, which knows none beyond the address
space. -/
def Refusal (b : Bus ε) (base pages : Word) : BusError → Prop
  | .noPages => pages.toNat = 0
  | .misalignedBase place size => 1 ≤ pages.toNat
      ∧ place = base ∧ size = min (2 ^ Nat.clog 2 (pages.toNat * 1024)) (2 ^ 32)
      ∧ ¬size ∣ base.toNat
  | .beyondAddressSpace place => 1 ≤ pages.toNat
      ∧ min (2 ^ Nat.clog 2 (pages.toNat * 1024)) (2 ^ 32) ∣ base.toNat
      ∧ place = base ∧ 2 ^ 32 < base.toNat + pages.toNat * 1024
  | .pageInUse page => 1 ≤ pages.toNat
      ∧ 2 ^ Nat.clog 2 (pages.toNat * 1024) ∣ base.toNat
      ∧ base.toNat + pages.toNat * 1024 ≤ 2 ^ 32
      ∧ (base.toNat / 1024 ≤ page ∧ page < base.toNat / 1024 + pages.toNat)
      ∧ pageTable b.windows page ≠ none
      ∧ ∀ earlier, base.toNat / 1024 ≤ earlier → earlier < page →
          pageTable b.windows earlier = none

variable [Peripheral ε]

theorem refusal_of_attach {b : Bus ε} (h : Laid b.windows) {slot : Nat} {base : Word}
    {e : BusError} (hattach : b.attach slot base = .error e) :
    b.Refusal base (((b.device? slot).map Device.pages).getD 0) e := by
  unfold attach at hattach
  cases hd : b.device? slot with
  | none =>
      rw [hd] at hattach
      cases hattach
      rfl
  | some d =>
      let v : Window := ⟨base, d.pages, slot⟩
      have hsize := Window.windowSize_eq_min v
      simp only [hd, Option.map_some, Option.getD_some] at hattach ⊢
      split at hattach
      · next hnone =>
          cases hattach
          exact congrArg BitVec.toNat hnone
      · next hsome =>
          have hpages : 1 ≤ d.pages.toNat := by
            by_contra hzero
            exact hsome (BitVec.eq_of_toNat_eq (Nat.lt_one_iff.mp (Nat.not_le.mp hzero)))
          split at hattach
          · next hmisaligned =>
              cases hattach
              exact ⟨hpages, rfl, hsize, fun hdvd => hmisaligned (Nat.mod_eq_zero_of_dvd hdvd)⟩
          · next haligned =>
              rw [Decidable.not_not] at haligned
              split at hattach
              · next hbeyond =>
                  cases hattach
                  refine ⟨hpages, hsize ▸ Nat.dvd_of_mod_eq_zero haligned, rfl, ?_⟩
                  have hcount : pageCount = 4194304 := rfl
                  have hend : (Window.mk base d.pages slot).endPage
                      = base.toNat / 1024 + d.pages.toNat := rfl
                  omega
              · next hfits =>
                  split at hattach
                  · next page htaken =>
                      cases hattach
                      have hplaced : v.Placed :=
                        Window.placed_iff.mpr ⟨hsome, haligned, Nat.not_lt.mp hfits⟩
                      exact ⟨hpages, hplaced.aligned, hplaced.inside, pageTable_firstTaken h htaken⟩
                  · cases hattach

/-- The address space of a bus is in order. -/
structure AddressSpace (b : Bus ε) : Prop where
  /-- A window is opened just if there is a page, the base suits the rounded size, the end is in
  the address space and no page is taken. -/
  accepts : ∀ slot base d, b.device? slot = some d →
    ((∃ b', b.attach slot base = .ok b') ↔
      1 ≤ d.pages.toNat
        ∧ 2 ^ Nat.clog 2 (d.pages.toNat * 1024) ∣ base.toNat
        ∧ base.toNat + d.pages.toNat * 1024 ≤ 2 ^ 32
        ∧ ∀ page, base.toNat / 1024 ≤ page → page < base.toNat / 1024 + d.pages.toNat →
            pageTable b.windows page = none)
  opens : ∀ slot base b', b.attach slot base = .ok b' → ∃ d, b.device? slot = some d
    ∧ b'.windows = b.windows ++ [⟨base, d.pages, slot⟩]
    ∧ pageTable b'.windows
      = (pageTable b.windows).enter b.windows.length ⟨base, d.pages, slot⟩
    ∧ b'.slots = b.slots ∧ b'.reservation = b.reservation
  /-- A refusal changes nothing and tells which condition fails first; a slot without a device has
  no pages. -/
  refuses : ∀ slot base e, b.attach slot base = .error e →
    (Setup.attach slot base).apply b = b
      ∧ b.Refusal base (((b.device? slot).map Device.pages).getD 0) e
  apart : b.windows.Pairwise Window.Apart
  table : ∀ page index, pageTable b.windows page = some index
    ↔ ∃ w, b.windows[index]? = some w ∧ w.covers page = true
  lookup : ∀ page, b.window? page = (pageTable b.windows page).bind (b.windows[·]?)
  routed : ∀ w ∈ b.windows, ∀ address, w.Holds address →
    (∀ v ∈ b.windows, v.Holds address → v = w)
      ∧ (∃ d, b.device? w.slot = some d ∧ d.pages = w.pages)
      ∧ b.route address = some (w.slot, address - w.base)
      ∧ (address - w.base).toNat < w.pages.toNat * 1024
  unrouted : ∀ address, (∀ w ∈ b.windows, ¬w.Holds address) → b.route address = none

theorem addressSpace_of_laid {b : Bus ε} (h : Laid b.windows) (hoccupied : b.Occupied) :
    b.AddressSpace where
  accepts slot base d hd := by
    have hfree := apart_iff_pageTable h (v := ⟨base, d.pages, slot⟩)
    constructor
    · rintro ⟨b', hattach⟩
      obtain ⟨e, he, hplaced, hapart, -⟩ := attach_eq_ok.mp hattach
      rw [hd] at he
      cases he
      exact ⟨hplaced.pages, hplaced.aligned, hplaced.inside, hfree.mp hapart⟩
    · rintro ⟨hpages, haligned, hinside, hnone⟩
      exact ⟨_, attach_eq_ok.mpr ⟨d, hd, ⟨hpages, haligned, hinside⟩, hfree.mpr hnone, rfl⟩⟩
  opens slot base b' hattach := by
    obtain ⟨d, hd, -, -, rfl⟩ := attach_eq_ok.mp hattach
    exact ⟨d, hd, rfl, pageTable_snoc b.windows _, rfl, rfl⟩
  refuses slot base e hattach := by
    refine ⟨?_, refusal_of_attach h hattach⟩
    simp only [Setup.apply, hattach]
  apart := h.apart
  table _ _ := pageTable_eq_some h.apart
  lookup := window?_eq_pageTable h
  routed w hw address ha := by
    have hlt := (h.placed w hw).offset_lt ha
    rw [(h.placed w hw).offset_eq ha] at hlt
    exact ⟨fun v hv hva => h.eq_of_holds hv hw hva ha, hoccupied w hw, route_of_holds h hw ha, hlt⟩
  unrouted _ := (route_eq_none h).mpr

/-- However a new bus is laid out, its address space is in order; and a microcontroller lets a
device take part in its cycles just if the bus opened the window. -/
theorem addressSpace_setUp (calls : List (Setup ε)) :
    (setUp calls).AddressSpace
      ∧ ∀ (m : Microcontroller ε) (slot : Nat) (base : Word),
        (∀ e, m.bus.attach slot base = .error e → m.attach slot base = .error e
          ∧ (Microcontroller.Call.attach slot base).apply m = m)
        ∧ ∀ b, m.bus.attach slot base = .ok b →
            ((Microcontroller.Call.attach slot base).apply m).bus = b
              ∧ ((Microcontroller.Call.attach slot base).apply m).attached
                = m.attached ++ [slot] := by
  refine ⟨addressSpace_of_laid (laid_setUp calls) (occupied_setUp calls), ?_⟩
  intro m slot base
  constructor
  · intro e he
    simp [Microcontroller.attach, Microcontroller.Call.apply, he]
  · intro b hb
    have hattach : m.attach slot base
        = .ok { m with hart := { m.hart with bus := b }, attached := m.attached ++ [slot] } := by
      rw [Microcontroller.attach, hb]
    rw [Microcontroller.Call.apply, hattach]
    exact ⟨rfl, rfl⟩

end Bus

end Rv32Soc
