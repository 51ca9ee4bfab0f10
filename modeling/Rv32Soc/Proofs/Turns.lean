import Rv32Soc.Proofs.Acknowledgements
import Rv32Soc.Proofs.ReadOnly

/-!
# A device is away while it takes its turn

A bus master acts away from its slot, so that whatever it asks for at its own
addresses is refused and changes nothing. Nobody else is to notice that it is
away. To say so, the slot is filled with something else, with nothing or with
any device: an access that does not lead there and tells it nothing comes to
the same before the slot is filled and after. Filled with nothing, the slot is
vacant and stays so; filled with the device, the device is in its place and
comes back as it was. These are the two sides that are compared here, along a
script of any length.

Only the interrupt controller reaches a device by its slot. A request that makes
it acknowledge the device that is asking is the one that would be missed.
-/

namespace Rv32Soc

variable {ε : Type}

namespace Request

/-- The address that a request is for. -/
def address : Request → Word
  | load _ address | store _ address _ => address

/-- How a request is refused where no device answers. -/
def refusal : Request → AddressTrap
  | load width address =>
      ⟨if width.Aligned address then .loadAccessFault else .loadMisaligned, address⟩
  | store width address _ => refusedStore width address

end Request

theorem Device.eq_external {d : Device ε} (h : d.make = .external) : ∃ e, d = .external e := by
  cases d with
  | external e => exact ⟨e, rfl⟩
  | rom s | ram s | timer t | controller c => cases h

namespace Bus

/-! ## Filling a slot -/

/-- The bus with this in a slot, a device or nothing. -/
def fill (b : Bus ε) (slot : Nat) (d? : Option (Device ε)) : Bus ε :=
  { b with slots := b.slots.setIfInBounds slot d? }

theorem put_eq_fill (b : Bus ε) (slot : Nat) (d : Device ε) :
    b.put slot d = b.fill slot (some d) := rfl

@[simp]
theorem fill_fill (b : Bus ε) (slot : Nat) (d? d'? : Option (Device ε)) :
    (b.fill slot d?).fill slot d'? = b.fill slot d'? := by
  simp only [fill, Array.setIfInBounds_setIfInBounds]

/-- What a slot holds already it may be filled with. -/
theorem fill_self {b : Bus ε} {slot : Nat} {d? : Option (Device ε)}
    (h : b.device? slot = d?) : b.fill slot d? = b := by
  have hslots : b.slots.setIfInBounds slot d? = b.slots := by
    unfold Array.setIfInBounds
    split
    · next hslot =>
        rw [device?, Array.getElem?_eq_getElem hslot] at h
        rw [← show b.slots[slot] = d? from h, Array.set_getElem_self]
    · rfl
  rw [fill, hslots]

theorem device?_vacated (b : Bus ε) (slot : Nat) : (b.fill slot none).device? slot = none := by
  simp only [device?, fill, Array.getElem?_setIfInBounds_self]
  split <;> rfl

theorem device?_fill_of_ne (b : Bus ε) {slot other : Nat} (h : slot ≠ other)
    (d? : Option (Device ε)) : (b.fill slot d?).device? other = b.device? other := by
  simp [device?, fill, h]

theorem put_fill_of_ne (b : Bus ε) {slot other : Nat} (h : slot ≠ other)
    (d? : Option (Device ε)) (d : Device ε) :
    (b.fill slot d?).put other d = (b.put other d).fill slot d? := by
  simp only [fill, put, Array.setIfInBounds_comm _ _ h]

section Fill

variable {slot other : Nat} {d? : Option (Device ε)}

theorem visit_fill {σ α : Type} (h : slot ≠ other) (f : EStateM σ (Device ε) α) (absent : σ)
    (b : Bus ε) :
    visit other f absent (b.fill slot d?) = mapState (fill · slot d?) (visit other f absent b) := by
  have hdevice := device?_fill_of_ne b h d?
  cases hd : b.device? other with
  | none =>
      rw [visit_vacant hd, visit_vacant (hdevice.trans hd)]
      rfl
  | some d =>
      cases hf : f d with
      | ok a d' =>
          rw [visit_ok hd hf, visit_ok (hdevice.trans hd) hf, put_fill_of_ne b h]
          rfl
      | error e d' =>
          rw [visit_error hd hf, visit_error (hdevice.trans hd) hf, put_fill_of_ne b h]
          rfl

theorem update_fill (h : slot ≠ other ∨ d? = none) (f : Device ε → Device ε) (b : Bus ε) :
    (b.fill slot d?).update other f = (b.update other f).fill slot d? := by
  by_cases hslot : slot = other
  · obtain hne | rfl := h
    · exact absurd hslot hne
    -- Whatever is done in the slot, it is vacated afterwards.
    · subst hslot
      have hvacant := b.device?_vacated slot
      cases hd : b.device? slot with
      | none => rw [update, update, hvacant, hd]
      | some d => rw [update, hvacant, update_eq_put hd, put_eq_fill, fill_fill]
  · have hdevice := device?_fill_of_ne b hslot d?
    cases hd : b.device? other with
    | none => rw [update, update, hdevice, hd]
    | some d => rw [update_eq_put hd, update_eq_put (hdevice.trans hd), put_fill_of_ne b hslot]

theorem loseReservation_fill (b : Bus ε) (address : Word) :
    (b.fill slot d?).loseReservation address = (b.loseReservation address).fill slot d? := by
  unfold loseReservation
  rw [show (b.fill slot d?).isReserved address = b.isReserved address from rfl]
  split <;> rfl

variable [Peripheral ε]

theorem announce_fill {told : List Acknowledgement}
    (h : slot ∉ told.flatMap Acknowledgement.sources ∨ d? = none) (b : Bus ε) :
    (b.fill slot d?).announce told = (b.announce told).fill slot d? := by
  refine List.foldl_rel (r := fun b₁ b₂ : Bus ε => b₁ = b₂.fill slot d?) rfl ?_
  rintro a ha _ b rfl
  have hsources : a.sources.foldl tell (b.fill slot d?)
      = (a.sources.foldl tell b).fill slot d? := by
    refine List.foldl_rel (r := fun b₁ b₂ : Bus ε => b₁ = b₂.fill slot d?) rfl ?_
    rintro other hother _ b rfl
    refine update_fill (h.imp_left fun hnot heq => hnot ?_) Device.acknowledge b
    exact List.mem_flatMap.mpr ⟨a, ha, heq ▸ hother⟩
  rw [hsources]
  rfl

/-! ## Accesses to other devices -/

theorem load_fill {w : Width} {address : Word} {b : Bus ε}
    (h : ∀ offset, b.route address ≠ some (slot, offset)) :
    load w address (b.fill slot d?) = mapState (fill · slot d?) (load w address b) := by
  unfold load
  rw [show (b.fill slot d?).route address = b.route address from rfl]
  split
  · split
    · rfl
    · next other offset hroute =>
        have hother : slot ≠ other := fun heq => h offset (heq ▸ hroute)
        unfold loadFrom
        rw [visit_fill hother]
        cases visit other (Device.read w offset) ⟨.loadAccessFault, address⟩ b <;> rfl
  · rfl

/-- The request is a write that makes a controller acknowledge a line on which the device in a slot
is registered. -/
def Acknowledges (b : Bus ε) (slot : Nat) : Request → Prop
  | .store .word address value => Width.Aligned .word address
      ∧ ∃ other offset c, b.route address = some (other, offset)
        ∧ b.controller? other = some c ∧ c.tellings (.writeWord offset value) slot ≠ 0
  | _ => False

/-- Only such a write tells a device anything. -/
theorem acknowledges_of_told {b : Bus ε} {w : Width} {address value offset : Word} {d d' : Device ε}
    {told : List Acknowledgement} (haligned : w.Aligned address)
    (hroute : b.route address = some (other, offset)) (hd : b.device? other = some d)
    (hwrite : Device.write w offset (value.setWidth w.bits) d = .ok told d')
    (htold : slot ∈ told.flatMap Acknowledgement.sources) :
    b.Acknowledges slot (.store w address value) := by
  have hnone : told ≠ [] := by
    rintro rfl
    cases htold
  cases d with
  | rom s => cases hwrite
  | ram s | external e =>
      simp only [Device.write] at hwrite
      split at hwrite <;> cases hwrite
      exact absurd rfl hnone
  | timer t =>
      cases w with
      | byte | halfword => cases hwrite
      | word =>
          simp only [Device.write] at hwrite
          split at hwrite <;> cases hwrite
          exact absurd rfl hnone
  | controller c =>
      cases w with
      | byte | halfword => cases hwrite
      | word =>
          have hvalue : value.setWidth Width.word.bits = value := BitVec.setWidth_eq value
          simp only [Device.write, hvalue] at hwrite
          split at hwrite
          · next told' c' hword =>
              cases hwrite
              refine ⟨haligned, other, offset, c, hroute, controller?_eq_some.mpr hd, ?_⟩
              rw [← InterruptController.writeWord_told hword]
              exact (List.count_pos_iff.mpr htold).ne'
          · cases hwrite

theorem store_fill {w : Width} {address value : Word} {b : Bus ε}
    (hroute : ∀ offset, b.route address ≠ some (slot, offset))
    (htold : ¬b.Acknowledges slot (.store w address value) ∨ d? = none) :
    store w address (value.setWidth w.bits) (b.fill slot d?)
      = mapState (fill · slot d?) (store w address (value.setWidth w.bits) b) := by
  unfold store
  rw [show (b.fill slot d?).route address = b.route address from rfl]
  split
  · next haligned =>
      split
      · rfl
      · next other offset hplace =>
          have hother : slot ≠ other := fun heq => hroute offset (heq ▸ hplace)
          unfold storeInto
          rw [visit_fill hother]
          cases hd : b.device? other with
          | none =>
              rw [visit_vacant hd]
              rfl
          | some d =>
              cases hwrite : Device.write w offset (value.setWidth w.bits) d with
              | error trap d' =>
                  rw [visit_error hd hwrite]
                  rfl
              | ok told d' =>
                  have hnot : slot ∉ told.flatMap Acknowledgement.sources ∨ d? = none :=
                    htold.imp_left (mt (acknowledges_of_told haligned hplace hd hwrite))
                  rw [visit_ok hd hwrite]
                  simp only [mapState, announce_fill hnot, loseReservation_fill]
  · rfl

theorem answer_fill {request : Request} {b : Bus ε}
    (hroute : ∀ offset, b.route request.address ≠ some (slot, offset))
    (htold : ¬b.Acknowledges slot request ∨ d? = none) :
    (b.fill slot d?).answer request
      = ((b.answer request).1, (b.answer request).2.fill slot d?) := by
  cases request with
  | load w address =>
      have hload : load w address (b.fill slot d?) = mapState (fill · slot d?) (load w address b) :=
        load_fill hroute
      simp only [answer, hload]
      cases load w address b <;> rfl
  | store w address value =>
      have hstore : store w address (value.setWidth w.bits) (b.fill slot d?)
          = mapState (fill · slot d?) (store w address (value.setWidth w.bits) b) :=
        store_fill hroute htold
      simp only [answer, hstore]
      cases store w address (value.setWidth w.bits) b <;> rfl

end Fill

/-! ## The addresses of a device -/

/-- The address is in a window of the device in a slot. -/
def Owns (b : Bus ε) (slot : Nat) (address : Word) : Prop :=
  ∃ w ∈ b.windows, w.slot = slot ∧ w.Holds address

instance (b : Bus ε) (slot : Nat) (address : Word) : Decidable (b.Owns slot address) :=
  inferInstanceAs (Decidable (∃ w ∈ b.windows, w.slot = slot ∧ w.Holds address))

theorem Owns.route {b : Bus ε} {slot : Nat} {address : Word} (h : b.Owns slot address)
    (hlaid : Laid b.windows) : ∃ offset, b.route address = some (slot, offset) := by
  obtain ⟨w, hw, rfl, ha⟩ := h
  exact ⟨address - w.base, route_of_holds hlaid hw ha⟩

theorem route_ne_of_not_owns {b : Bus ε} {slot : Nat} {address : Word} (hlaid : Laid b.windows)
    (h : ¬b.Owns slot address) (offset : Word) : b.route address ≠ some (slot, offset) := by
  intro hroute
  obtain ⟨w, hw, ha, rfl, -⟩ := route_eq_some hlaid hroute
  exact h ⟨w, hw, rfl, ha⟩

variable [Peripheral ε]

/-- Nobody answers for a vacant slot. -/
theorem answer_vacant {b : Bus ε} {slot : Nat} {request : Request}
    (hvacant : b.device? slot = none) (hlaid : Laid b.windows)
    (h : b.Owns slot request.address) : b.answer request = (.error request.refusal, b) := by
  obtain ⟨offset, hroute⟩ := h.route hlaid
  cases request with
  | load w address =>
      simp only [Request.address] at hroute
      by_cases haligned : w.Aligned address
      · simp only [answer, load, if_pos haligned, hroute, loadFrom, visit_vacant hvacant,
          Request.refusal]
      · simp only [answer, load, if_neg haligned, Request.refusal]
  | store w address value =>
      simp only [Request.address] at hroute
      by_cases haligned : w.Aligned address
      · simp only [answer, store, if_pos haligned, hroute, storeInto, visit_vacant hvacant,
          Request.refusal, refusedStore]
      · simp only [answer, store, if_neg haligned, Request.refusal, refusedStore]

/-! ## Turns -/

/-- The answer to the device in a slot if it stays there and no request for its own addresses is let
through to it. -/
def answerApart (slot : Nat) (request : Request) (b : Bus ε) : Reply × Bus ε :=
  if b.Owns slot request.address then (.error request.refusal, b) else b.answer request

/-- What comes of a script of the device in a slot if it stays there. -/
def performApart {α : Type} (slot : Nat) : Script α → Bus ε → α × List Reply × Bus ε
  | .done result, b => (result, [], b)
  | .ask request next, b =>
      let (reply, b) := answerApart slot request b
      let (result, replies, b) := performApart slot (next reply) b
      (result, reply :: replies, b)

/-- The slot is vacant, and the windows are these. -/
structure Away (b : Bus ε) (slot : Nat) (windows : List Window) : Prop where
  vacant : b.device? slot = none
  windows : b.windows = windows

variable {b b' : Bus ε} {slot : Nat} {windows : List Window} {request : Request}

omit [Peripheral ε] in
theorem away_vacate (b : Bus ε) (slot : Nat) : (b.vacate slot).Away slot b.windows :=
  ⟨device?_vacated b slot, rfl⟩

theorem away_answer (h : b.Away slot windows) (hlaid : Laid windows) (request : Request) :
    (b.answer request).2.Away slot windows := by
  have hlaid' : Laid b.windows := h.windows ▸ hlaid
  refine ⟨?_, (sameShape_chronicle.answer request b).windows.trans h.windows⟩
  by_cases howns : b.Owns slot request.address
  · rw [answer_vacant h.vacant hlaid' howns]
    exact h.vacant
  · have hanswer : (b.fill slot none).answer request
        = ((b.answer request).1, (b.answer request).2.fill slot none) :=
      answer_fill (route_ne_of_not_owns hlaid' howns) (.inr rfl)
    -- On the left nothing has been filled, so on the right the slot is vacant.
    rw [fill_self h.vacant] at hanswer
    rw [hanswer]
    exact device?_vacated _ slot

theorem away_of_mem_scriptRequests {α : Type} {script : Script α} (h : b.Away slot windows)
    (hlaid : Laid windows) (hmem : (request, b') ∈ scriptRequests script b) :
    b'.Away slot windows := by
  induction script generalizing b with
  | done result => cases hmem
  | ask first next ih =>
      rcases List.mem_cons.mp hmem with heq | hrest
      · cases heq
        exact h
      · exact ih _ (away_answer h hlaid first) hrest

theorem answerApart_put (h : b.Away slot windows) (hlaid : Laid windows)
    (hnot : ¬b.Acknowledges slot request) (d : Device ε) :
    answerApart slot request (b.put slot d)
      = ((b.answer request).1, (b.answer request).2.put slot d) := by
  have hlaid' : Laid b.windows := h.windows ▸ hlaid
  by_cases howns : (b.put slot d).Owns slot request.address
  · rw [answerApart, if_pos howns, answer_vacant h.vacant hlaid' howns]
  · rw [answerApart, if_neg howns]
    exact answer_fill (route_ne_of_not_owns hlaid' howns) (.inl hnot)

/-- The device in its place makes no difference to a script, and the script makes none to it. -/
theorem performApart_put {α : Type} {script : Script α} (h : b.Away slot windows)
    (hlaid : Laid windows)
    (hnot : ∀ request b', (request, b') ∈ scriptRequests script b → ¬b'.Acknowledges slot request)
    (d : Device ε) :
    performApart slot script (b.put slot d)
      = ((perform script b).1, (perform script b).2.1, (perform script b).2.2.put slot d) := by
  induction script generalizing b with
  | done result => rfl
  | ask request next ih =>
      have hreply := answerApart_put h hlaid (hnot request b List.mem_cons_self) d
      have hnext := ih _ (away_answer h hlaid request)
        fun request' b' hmem => hnot request' b' (List.mem_cons_of_mem _ hmem)
      simp only [performApart, perform, hreply, hnext]

/-! ## After the turn -/

/-- A bus master in a slot answers for the addresses of its windows, and its refusals name the
address that was asked for. -/
structure Responds (b : Bus ε) (slot : Nat) (e : ε) : Prop where
  load : ∀ w ∈ b.windows, w.slot = slot → ∀ address, w.Holds address →
    ∀ width : Width, width.Aligned address → Bus.load width address b
      = match Peripheral.read width (address - w.base) e with
        | .ok value e' => .ok value (b.put slot (.external e'))
        | .error trap e' => .error { trap with address } (b.put slot (.external e'))
  store : ∀ w ∈ b.windows, w.slot = slot → ∀ address, w.Holds address →
    ∀ width : Width, width.Aligned address → ∀ value, Bus.store width address value b
      = match Peripheral.write width (address - w.base) value e with
        | .ok () e' => .ok () ((b.put slot (.external e')).loseReservation address)
        | .error trap e' => .error { trap with address } (b.put slot (.external e'))

theorem responds_of_device? {e : ε} (hlaid : Laid b.windows)
    (hd : b.device? slot = some (.external e)) : b.Responds slot e := by
  constructor
  · rintro w hw rfl address ha width haligned
    have hread : Device.read width (address - w.base) (.external e)
        = match Peripheral.read width (address - w.base) e with
          | .ok value e' => .ok value (.external e')
          | .error trap e' => .error trap (.external e') := rfl
    simp only [Bus.load, if_pos haligned, route_of_holds hlaid hw ha, loadFrom]
    cases hanswer : Peripheral.read width (address - w.base) e with
    | ok value e' =>
        rw [hanswer] at hread
        rw [visit_ok hd hread]
    | error trap e' =>
        rw [hanswer] at hread
        rw [visit_error hd hread]
  · rintro w hw rfl address ha width haligned value
    have hwrite : Device.write width (address - w.base) value (.external e)
        = match Peripheral.write width (address - w.base) value e with
          | .ok () e' => .ok [] (.external e')
          | .error trap e' => .error trap (.external e') := rfl
    simp only [Bus.store, if_pos haligned, route_of_holds hlaid hw ha, storeInto]
    cases hanswer : Peripheral.write width (address - w.base) value e with
    | ok u e' =>
        rw [hanswer] at hwrite
        rw [visit_ok hd hwrite]
        rfl
    | error trap e' =>
        rw [hanswer] at hwrite
        rw [visit_error hd hwrite]

/-! ## A turn as a whole -/

/-- The turn that a bus master takes in one phase. -/
structure Secluded (b : Bus ε) (slot : Nat) (e : ε) (phase : Phase) : Prop where
  /-- Whenever the device has a request, all requests for its own addresses are refused. -/
  refused : ∀ request b', (request, b') ∈ b.turnRequests slot phase →
    ∀ own, b.Owns slot own.address → b'.answer own = (.error own.refusal, b')
  /-- All others are answered as if the device were in its place, where it stays as it is. -/
  served : ∀ request b', (request, b') ∈ b.turnRequests slot phase →
    ∀ other, ¬b.Owns slot other.address → ¬b'.Acknowledges slot other → ∀ d,
      (b'.put slot d).answer other = ((b'.answer other).1, (b'.answer other).2.put slot d)
  /-- The turn as a whole is as if the device were in its place all the time. -/
  performed : (∀ request b', (request, b') ∈ b.turnRequests slot phase →
      ¬b'.Acknowledges slot request) →
    ∃ e' replies b', performApart slot (scriptOf e phase) b = (e', replies, b')
      ∧ b'.device? slot = some (.external e)
      ∧ b.phased slot phase = (b'.put slot (.external e')).note (.turn slot phase replies)
  /-- When the turn is over the device is back and answers. -/
  returned : (b.phased slot phase).windows = b.windows
    ∧ (b.phased slot phase).device? slot
      = some (.external (perform (scriptOf e phase) (b.vacate slot)).1)
    ∧ (b.phased slot phase).Responds slot (perform (scriptOf e phase) (b.vacate slot)).1

section Turn

variable {e : ε} {phase : Phase}

theorem away_of_mem_turnRequests (hlaid : Laid b.windows)
    (hmem : (request, b') ∈ b.turnRequests slot phase) : b'.Away slot b.windows := by
  unfold turnRequests at hmem
  split at hmem
  · exact away_of_mem_scriptRequests (away_vacate b slot) hlaid hmem
  · cases hmem

theorem phased_external (hd : b.device? slot = some (.external e)) (phase : Phase) :
    b.phased slot phase
      = let (e', replies, b') := perform (scriptOf e phase) (b.vacate slot)
        (b'.put slot (.external e')).note (.turn slot phase replies) := by
  cases phase with
  | cycle =>
      rw [phased, cycle, hd]
      rfl
  | timestep =>
      rw [phased, timestep, hd]
      rfl

theorem device?_put_perform {d d' : Device ε} (hd : b.device? slot = some d)
    (script : Script ε) :
    ((perform script (b.vacate slot)).2.2.put slot d').device? slot = some d' := by
  have hshape : SameShape (b.vacate slot) (perform script (b.vacate slot)).2.2 :=
    sameShape_chronicle.perform script _
  have hsize : (b.vacate slot).slots.size = b.slots.size := Array.size_setIfInBounds
  have hlt : slot < (perform script (b.vacate slot)).2.2.slots.size := by
    rw [hshape.size, hsize]
    exact lt_size_of_device? hd
  rw [device?_put, if_pos ⟨rfl, hlt⟩]

theorem secluded (hlaid : Laid b.windows) (hd : b.device? slot = some (.external e)) :
    b.Secluded slot e phase := by
  have hmoment : ∀ {request b'}, (request, b') ∈ b.turnRequests slot phase →
      b'.Away slot b.windows := away_of_mem_turnRequests hlaid
  have hshape : SameShape (b.vacate slot) (perform (scriptOf e phase) (b.vacate slot)).2.2 :=
    sameShape_chronicle.perform _ _
  have hphased := phased_external hd phase
  have hwindows : (b.phased slot phase).windows = b.windows := by
    rw [hphased]
    exact hshape.windows
  have hback : (b.phased slot phase).device? slot
      = some (.external (perform (scriptOf e phase) (b.vacate slot)).1) := by
    rw [hphased]
    exact device?_put_perform hd (scriptOf e phase)
  refine ⟨?_, ?_, ?_, hwindows, hback, responds_of_device? (hwindows.symm ▸ hlaid) hback⟩
  · intro request b' hmem own howns
    have haway := hmoment hmem
    refine answer_vacant haway.vacant (haway.windows.symm ▸ hlaid) ?_
    rw [Owns, haway.windows]
    exact howns
  · intro request b' hmem other howns hnot d
    have haway := hmoment hmem
    refine answer_fill (route_ne_of_not_owns (haway.windows.symm ▸ hlaid) ?_) (.inl hnot)
    rw [Owns, haway.windows]
    exact howns
  · intro hnot
    have hrequests : b.turnRequests slot phase
        = scriptRequests (scriptOf e phase) (b.vacate slot) := by
      rw [turnRequests, hd]
    rw [hrequests] at hnot
    have hapart := performApart_put (away_vacate b slot) hlaid hnot (.external e)
    -- The device put into its vacant slot makes the bus that the turn began with.
    rw [put_vacate, put_self hd] at hapart
    refine ⟨_, _, _, hapart, device?_put_perform hd _, ?_⟩
    rw [hphased, put_eq_fill, put_eq_fill, fill_fill]
    rfl

end Turn

end Bus

namespace Microcontroller

variable [Peripheral ε] {config : Config} {m : Microcontroller ε}

/-! ## Windows on a machine -/

/-- Whatever is done to a machine, its windows are placed well and apart. -/
theorem laid_act (h : Laid m.bus.windows) (a : Action ε) : Laid (a.apply m).bus.windows := by
  have hbare : a.Bare → Laid (a.apply m).bus.windows :=
    fun ha => (act_sameDevices ha m).shape.windows.symm ▸ h
  cases a with
  | poke p => exact (Bus.poke_sameShape p m.bus).windows.symm ▸ h
  | edit e => exact hbare trivial
  | call c =>
      cases c with
      | install d => exact h
      | attach slot base =>
          simp only [Action.apply, Call.apply, attach]
          cases hattach : m.bus.attach slot base with
          | error e => exact h
          | ok b =>
              obtain ⟨d, -, hplaced, hapart, rfl⟩ := Bus.attach_eq_ok.mp hattach
              exact h.snoc hplaced hapart
      | register slot line =>
          simp only [Action.apply, Call.apply]
          cases lineOfNat line with
          | error e => exact h
          | ok l => exact (Bus.sameShape_update m.bus controllerSlot _).windows.symm ▸ h
      | load image | reset | cycle | timestep => exact hbare trivial

theorem laid_after (hnew : new config = .ok m) (history : List (Action ε)) :
    Laid (m.after history).bus.windows := by
  induction history using List.reverseRecOn with
  | nil => exact laid_new hnew
  | append_singleton history a ih =>
      rw [after_snoc]
      exact laid_act ih a

/-! ## Turns on a machine -/

/-- The bus in a cycle or a timestep when the devices in some slots have had their turn. -/
def before (m : Microcontroller ε) (phase : Phase) (earlier : List Nat) : Bus ε :=
  earlier.foldl (Bus.phased · · phase)
    (match phase with
    | .cycle => m.hart.step.2.bus
    | .timestep => m.bus)

/-- What the step of the hart and the turns of the devices keep is kept up to any turn. -/
theorem before_keeps {R : Bus ε → Bus ε → Prop} (hrefl : R m.bus m.bus)
    (hstep : R m.bus m.hart.step.2.bus)
    (hphased : ∀ phase b slot, R m.bus b → R m.bus (b.phased slot phase)) (phase : Phase)
    (earlier : List Nat) : R m.bus (m.before phase earlier) := by
  refine earlier.foldlRecOn _ ?_ fun b hb slot _ => hphased phase b slot hb
  cases phase with
  | cycle => exact hstep
  | timestep => exact hrefl

theorem before_sameShape (m : Microcontroller ε) (phase : Phase) (earlier : List Nat) :
    Bus.SameShape m.bus (m.before phase earlier) := by
  have hphased : ∀ phase (b : Bus ε) slot, Bus.SameShape b (b.phased slot phase) := by
    intro phase b slot
    cases phase with
    | cycle => exact Bus.sameShape_chronicle.cycle b slot
    | timestep => exact Bus.sameShape_chronicle.timestep b slot
  exact before_keeps (.refl m.bus) (Hart.step_chronicled Bus.sameShape_chronicle m.hart)
    (fun phase b slot hb => hb.trans (hphased phase b slot)) phase earlier

theorem before_external {slot : Nat} {e₀ : ε} (hd : m.bus.device? slot = some (.external e₀))
    (phase : Phase) (earlier : List Nat) :
    ∃ e, (m.before phase earlier).device? slot = some (.external e) := by
  have hlawful := (Device.inclusive_sameMake (ε := ε)).toLawful
  have hphased : ∀ phase (b : Bus ε) slot, Bus.Evolves Device.SameMake b (b.phased slot phase) := by
    intro phase b slot
    cases phase with
    | cycle => exact Bus.evolves_cycle hlawful b slot
    | timestep => exact Bus.evolves_timestep hlawful b slot
  have hbefore : Bus.Evolves Device.SameMake m.bus (m.before phase earlier) :=
    before_keeps (.refl hlawful m.bus) (Hart.step_bus (Bus.traffic_evolves hlawful) m.hart)
      (fun phase b slot hb => hb.trans hlawful (hphased phase b slot)) phase earlier
  obtain ⟨d, hd', hmake⟩ := hbefore.device hd
  obtain ⟨e, rfl⟩ := Device.eq_external hmake
  exact ⟨e, hd'⟩

/-- In every cycle and in every timestep each bus master has its turn apart, wherever it stands
among the attached devices. -/
def Secludes (m : Microcontroller ε) : Prop :=
  ∀ phase earlier slot later, m.attached = earlier ++ slot :: later →
    ∀ e₀, m.bus.device? slot = some (.external e₀) →
      (m.before phase earlier).windows = m.bus.windows
        ∧ (∃ e, (m.before phase earlier).device? slot = some (.external e)
          ∧ (m.before phase earlier).Secluded slot e phase)
        ∧ m.before phase m.attached
          = later.foldl (Bus.phased · · phase) ((m.before phase earlier).phased slot phase)

theorem secludes_of_laid (h : Laid m.bus.windows) : m.Secludes := by
  intro phase earlier slot later hattached e₀ hd
  have hwindows := (m.before_sameShape phase earlier).windows
  obtain ⟨e, he⟩ := before_external hd phase earlier
  refine ⟨hwindows, ⟨e, he, Bus.secluded (hwindows.symm ▸ h) he⟩, ?_⟩
  simp only [before, hattached, List.foldl_append, List.foldl_cons]

/-- No device reaches itself over the bus. On every machine that has been made and operated in any
way the windows are in order; and where they are, whatever the state of the machine, each bus
master takes each turn apart: while it runs, its own addresses answer to nobody and no request for
them does anything, all others are served as if the device were in its place, and when the turn is
over it is back there. -/
theorem turns_secluded :
    (∀ (config : Config) (m : Microcontroller ε), new config = .ok m →
        ∀ history : List (Action ε), Laid (m.after history).bus.windows)
      ∧ ∀ m : Microcontroller ε, Laid m.bus.windows → m.Secludes :=
  ⟨fun _ _ hnew history => laid_after hnew history, fun _ => secludes_of_laid⟩

/-- Loads its own first word in every cycle, and stores its cycle count into the RAM. -/
def selfSeeker : Probe where
  onCycle := [.load .word 0xe8000000, .store .word 0x10000100 .count]

/-- The device is attached where it looks for itself, and has one turn. -/
def selfSeekerHistory : List (Action Probe) :=
  [.call (.install (.external selfSeeker)), .call (.attach 3 0xe8000000), .call .cycle]

/-- The load is made and refused, and after the turn the word can be loaded. -/
theorem turns_secluded_self_seeker :
    ∃ m : Microcontroller Probe, new ⟨1, 1⟩ = .ok m ∧ ∃ b e,
      (.load .word 0xe8000000, b)
          ∈ ((m.after selfSeekerHistory).before .cycle []).turnRequests 3 .cycle
        ∧ b.answer (.load .word 0xe8000000) = (.error ⟨.loadAccessFault, 0xe8000000⟩, b)
        ∧ (((m.after selfSeekerHistory).before .cycle []).phased 3 .cycle).Responds 3 e := by
  have hfacts : ((new ⟨1, 1⟩).toOption.map fun m : Microcontroller Probe =>
      ((m.after selfSeekerHistory).attached, (m.after selfSeekerHistory).probeAt? 3,
        (m.after selfSeekerHistory).bus.windows.contains ⟨0xe8000000, 1, 3⟩,
        (((m.after selfSeekerHistory).before .cycle []).turnRequests 3 .cycle).map Prod.fst))
      = some ([3], some { selfSeeker with cycles := 1 }, true,
          [.load .word 0xe8000000, .store .word 0x10000100 2]) := by
    decide +kernel
  cases hnew : (new ⟨1, 1⟩ : Except ConfigError (Microcontroller Probe)) with
  | error e =>
      rw [hnew] at hfacts
      cases hfacts
  | ok m =>
      rw [hnew] at hfacts
      simp only [Except.toOption, Option.map_some, Option.some.injEq, Prod.mk.injEq] at hfacts
      obtain ⟨hattached, hprobe, hmapped, hrequests⟩ := hfacts
      obtain ⟨hlaid, hsecludes⟩ := turns_secluded (ε := Probe)
      have hd : (m.after selfSeekerHistory).bus.device? 3
          = some (.external { selfSeeker with cycles := 1 }) := by
        unfold probeAt? at hprobe
        split at hprobe
        · next p hp => rw [hp, Option.some.inj hprobe]
        · cases hprobe
      obtain ⟨hwindows, ⟨e, -, hturn⟩, -⟩ := hsecludes _ (hlaid _ m hnew selfSeekerHistory)
        .cycle [] 3 [] hattached _ hd
      have hasked : (.load .word 0xe8000000)
          ∈ (((m.after selfSeekerHistory).before .cycle []).turnRequests 3 .cycle).map
            Prod.fst := by
        rw [hrequests]
        exact List.mem_cons_self
      obtain ⟨⟨request, b⟩, hmem, rfl⟩ := List.mem_map.mp hasked
      have howns : ((m.after selfSeekerHistory).before .cycle []).Owns 3 0xe8000000 := by
        refine ⟨⟨0xe8000000, 1, 3⟩, ?_, rfl, by decide⟩
        rw [hwindows]
        exact List.contains_iff_mem.mp hmapped
      exact ⟨m, rfl, b, _, hmem, hturn.refused _ b hmem (.load .word 0xe8000000) howns,
        hturn.returned.2.2⟩

end Microcontroller

end Rv32Soc
