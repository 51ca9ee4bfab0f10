import Rv32Soc.Proofs.MappedBytes
import Rv32Soc.Proofs.Results

/-!
# Loads, stores and atomic operations

What the memory instructions do is told in three terms: the number that the
bytes at an address make, the word that a loaded number is extended to, and
the bytes that a stored number leaves. An atomic operation is a load and a
store to the same word, and it reads its source before it writes its
destination. The operands are those of before the step throughout, so nothing
has to be said of registers that coincide.

A number that has been stored is what is loaded later, whatever happens in
between, as long as nothing is stored to any of its bytes. What has been
stored is told from what happened: by a step that has retired, and by each
bus master that was answered in its turn.
-/

namespace Rv32Soc

namespace Isa

/-! ## Extension and combination -/

/-- A word is a loaded number, extended as the kind of the load says. -/
def Load.Extends (kind : Load) (value : BitVec kind.width.bits) (x : Word) : Prop :=
  if kind.isSigned then x.toInt = value.toInt else x.toNat = value.toNat

theorem Load.extends_extend (kind : Load) (value : BitVec kind.width.bits) :
    kind.Extends value (kind.extend value) := by
  cases kind with
  | lb => exact BitVec.toInt_signExtend_of_le (show 8 ≤ 32 by decide)
  | lh => exact BitVec.toInt_signExtend_of_le (show 16 ≤ 32 by decide)
  | lw => exact BitVec.toInt_signExtend_of_le (Nat.le_refl 32)
  | lbu => exact BitVec.toNat_setWidth_of_le (show 8 ≤ 32 by decide)
  | lhu => exact BitVec.toNat_setWidth_of_le (show 16 ≤ 32 by decide)

/-- What an atomic operation is to make of the old word and its source. -/
def Combines (op : Amo) (old src result : Word) : Prop :=
  match op with
  | .swap => result = src
  | .add => result.toNat = (old.toNat + src.toNat) % wordCount
  | .xor => ∀ i, result.getLsbD i = (old.getLsbD i ^^ src.getLsbD i)
  | .and => ∀ i, result.getLsbD i = (old.getLsbD i && src.getLsbD i)
  | .or => ∀ i, result.getLsbD i = (old.getLsbD i || src.getLsbD i)
  | .min => result.toInt = min old.toInt src.toInt
  | .max => result.toInt = max old.toInt src.toInt
  | .minu => result.toNat = min old.toNat src.toNat
  | .maxu => result.toNat = max old.toNat src.toNat

theorem combines_eval (op : Amo) (old src : Word) : Combines op old src (op.eval old src) := by
  cases op with
  | swap => rfl
  | add => exact BitVec.toNat_add old src
  | xor => exact fun i => BitVec.getLsbD_xor
  | and => exact fun i => BitVec.getLsbD_and
  | or => exact fun i => BitVec.getLsbD_or
  | min | max =>
      simp only [Combines, Amo.eval, BitVec.slt_iff_toInt_lt]
      split <;> omega
  | minu | maxu =>
      simp only [Combines, Amo.eval, BitVec.ult_iff_lt, BitVec.lt_def]
      split <;> omega

end Isa

variable {ε : Type} [Peripheral ε]

namespace Bus

/-! ## Stores that have succeeded -/

/-- The stores that a request comes to: one if it is a store that succeeds. -/
def requestStores (b : Bus ε) : Request → List (Width × Word)
  | .load .. => []
  | .store w address value =>
      match store w address (value.setWidth w.bits) b with
      | .ok .. => [(w, address)]
      | .error .. => []

/-- The stores of a script, each on the bus that the requests before have left. -/
def scriptStores {α : Type} : Script α → Bus ε → List (Width × Word)
  | .done _, _ => []
  | .ask request next, b =>
      b.requestStores request ++ scriptStores (next (b.answer request).1) (b.answer request).2

/-- The stores of the turn that the device in a slot takes, if it is a bus master. -/
def turnStores (b : Bus ε) (slot : Nat) (turn : ε → Script ε) : List (Width × Word) :=
  match b.device? slot with
  | some (.external e) => scriptStores (turn e) (b.vacate slot)
  | _ => []

variable {width : Width} {address : Word}

theorem answer_retains (request : Request) (b : Bus ε) :
    Retains width address b (b.requestStores request) (b.answer request).2 := by
  cases request with
  | load w other =>
      have hload : Retains width address b [] (stateAfter (load w other b)) :=
        retains_of_confined (load_confined none w other b)
      simp only [answer]
      split <;> next heq => rw [heq] at hload; exact hload
  | store w other value =>
      simp only [answer, requestStores]
      split
      · next heq =>
          simp only [heq]
          exact retains_of_confined (store_confined heq)
      · next heq =>
          simp only [heq]
          exact retains_of_kept (store_error_steady heq).windows (store_error_keepsMemories heq)

theorem perform_retains {α : Type} (script : Script α) (b : Bus ε) :
    Retains width address b (scriptStores script b) (perform script b).2.2 := by
  induction script generalizing b with
  | done result => exact retains_of_kept rfl (keepsMemories_of_slots rfl)
  | ask request next ih => exact (answer_retains request b).append (ih _ _)

/-- What makes no mark stores nothing. -/
theorem unmarked_chronicle : Chronicle fun (b : Bus ε) marks b' =>
    marks = [] → b'.windows = b.windows ∧ KeepsMemories b b' where
  noted := by
    rintro b _ ⟨journal, rfl⟩ -
    exact ⟨rfl, keepsMemories_of_slots rfl⟩
  append h₁ h₂ hnil := by
    obtain ⟨hxs, hys⟩ := List.append_eq_nil_iff.mp hnil
    obtain ⟨hwindows₁, hkept₁⟩ := h₁ hxs
    obtain ⟨hwindows₂, hkept₂⟩ := h₂ hys
    exact ⟨hwindows₂.trans hwindows₁, hkept₁.trans hkept₂⟩
  load w address b _ := ⟨(load_steady w address b).windows, load_keepsMemories w address b⟩
  store _ := nofun
  refused hstore _ := ⟨(store_error_steady hstore).windows, store_error_keepsMemories hstore⟩
  reserve _ _ := nofun
  conditional _ := nofun
  conditionalStore _ := nofun
  restart _ := nofun
  put d' hd hnone _ := by
    refine ⟨rfl, keepsMemories_put hd fun hmemory => ?_⟩
    rw [hnone] at hmemory
    cases hmemory
  turn := by
    intro b slot e xs b' e' hd h hnil
    obtain ⟨hwindows, hkept⟩ := h hnil
    exact ⟨hwindows, hkept.put_external hd e'⟩

/-- The slot of a bus master is no place of a value. -/
theorem turn_retains {b : Bus ε} {slot : Nat} {e : ε} (hd : b.device? slot = some (.external e))
    (phase : Phase) (script : Script ε) :
    Retains width address b (scriptStores script (b.vacate slot)) (b.turn slot phase script) := by
  have hscript : Retains width address (b.vacate slot) _ _ :=
    perform_retains script (b.vacate slot)
  refine ⟨hscript.windows, fun value hmisses hcontains => ?_⟩
  obtain ⟨other, offset, d, s, hlocated, hvalue⟩ :=
    hscript.value value hmisses (hcontains.of_keepsMemories rfl (keepsMemories_vacate hd))
  obtain ⟨first, place, d₀, s₀, hfirst, -⟩ := hcontains
  have hroute : b.route address = some (other, offset) :=
    (route_of_windows (b := b) hscript.windows address).symm.trans hlocated.route
  have hslot : slot ≠ other := by
    rw [hfirst.route] at hroute
    cases hroute
    exact ne_of_external hd hfirst.device (by rw [hfirst.storage]; rfl)
  refine ⟨other, offset, d, s, ⟨hlocated.aligned, hlocated.route, ?_, hlocated.storage,
    hlocated.inside⟩, hvalue⟩
  exact (device?_put_of_ne _ hslot _).trans hlocated.device

theorem cycle_retains (b : Bus ε) (slot : Nat) :
    Retains width address b (b.turnStores slot Peripheral.cycle) (b.cycle slot) := by
  unfold cycle turnStores
  cases hd : b.device? slot with
  | none => exact retains_of_kept rfl (keepsMemories_of_slots rfl)
  | some d =>
      cases d with
      | ram s | rom s => exact retains_of_kept rfl (keepsMemories_of_slots rfl)
      | timer t | controller c => exact retains_of_kept rfl (keepsMemories_put hd nofun)
      | external e => exact turn_retains hd .cycle _

theorem timestep_retains (b : Bus ε) (slot : Nat) :
    Retains width address b (b.turnStores slot Peripheral.timestep) (b.timestep slot) := by
  unfold timestep turnStores
  cases hd : b.device? slot with
  | none => exact retains_of_kept rfl (keepsMemories_of_slots rfl)
  | some d =>
      cases d with
      | ram s | rom s | timer t | controller c =>
          exact retains_of_kept rfl (keepsMemories_of_slots rfl)
      | external e => exact turn_retains hd .timestep _

end Bus

/-! ## Steps -/

/-- The fetch leaves an access where it was. -/
theorem Bus.Located.of_beginning {h h₁ : Hart ε} {word : Word} {width : Width} {address : Word}
    {slot : Nat} {offset : Word} {d : Device ε} {s : Storage}
    (hlocated : h.bus.Located width address slot offset d s)
    (hb : h.beginning? = some (word, h₁)) : h₁.bus.Located width address slot offset d s :=
  hlocated.of_keepsMemories (Hart.beginning_confined hb none).windows
    (Hart.beginning_keepsMemories hb)

namespace Hart

open Isa

theorem beginning_flat {h h₁ : Hart ε} {word : Word} (hb : h.beginning? = some (word, h₁)) :
    h₁.bus.flat = h.bus.flat := by
  obtain ⟨b, hfetch, rfl⟩ := beginning?_eq_some hb
  have hflat := Bus.flat_load .word h.pc h.bus
  rw [← Bus.stateAfter_fetch_eq, hfetch] at hflat
  exact hflat

theorem beginning_windows {h h₁ : Hart ε} {word : Word} (hb : h.beginning? = some (word, h₁)) :
    h₁.bus.windows = h.bus.windows :=
  (beginning_confined hb none).windows

theorem beginning_laid {h h₁ : Hart ε} {word : Word} (hb : h.beginning? = some (word, h₁))
    (hlaid : Laid h.bus.windows) : Laid h₁.bus.windows := by
  rw [beginning_windows hb]
  exact hlaid

/-- A loaded number is in its register, extended. -/
def Loads (h : Hart ε) (kind : Load) (dest : Reg) (value : BitVec kind.width.bits)
    (h' : Hart ε) : Prop :=
  ∃ x, kind.Extends value x ∧ h.Receives dest x h'

/-- The hart has gone on to the next instruction, and only the bus may have changed. -/
structure Proceeds (h h' : Hart ε) : Prop where
  registers : h'.registers = h.registers
  csr : h'.csr = h.csr
  pending : h'.pending = h.pending
  pc : h'.pc = h.pc + 4

section Steps

variable {h h₁ : Hart ε} {word : Word}

theorem load_loads {kind : Load} {dest base : Reg} {offset : Word}
    {value : BitVec kind.width.bits} (hb : h.beginning? = some (word, h₁))
    (hdecode : Instr.decode word = .load kind dest base offset)
    (hcontains : h.bus.Contains kind.width (h.x base + offset) value) :
    h.step.1 = none ∧ h.Loads kind dest value h.step.2 ∧ h.step.2.bus = h₁.bus := by
  have hload := (hcontains.of_keepsMemories (beginning_windows hb)
    (beginning_keepsMemories hb)).load
  have hrun : execute (Instr.decode word) word h₁
      = .ok () ({ h₁ with bus := h₁.bus }.finished dest (kind.extend value)) := by
    rw [hdecode, execute, executeLoad_apply, beginning_x hb, hload]
  obtain ⟨hretired, hreceives, hbus⟩ := receives_of_finished hb hrun
  exact ⟨hretired, ⟨_, kind.extends_extend value, hreceives⟩, hbus⟩

theorem store_overlays {width : Width} {src base : Reg} {offset place : Word} {slot : Nat}
    {s : Storage} (hb : h.beginning? = some (word, h₁))
    (hdecode : Instr.decode word = .store width src base offset) (hlaid : Laid h.bus.windows)
    (hlocated : h.bus.Located width (h.x base + offset) slot place (.ram s) s) :
    h.step.1 = none ∧ h.Proceeds h.step.2
      ∧ h.bus.Overlaid width (h.x base + offset) ((h.x src).setWidth width.bits)
        h.step.2.bus := by
  obtain ⟨b, hstore, hoverlaid⟩ := (hlocated.of_beginning hb).exists_store
    (beginning_laid hb hlaid) ((h.x src).setWidth width.bits)
  have hrun : execute (Instr.decode word) word h₁
      = .ok () { h₁ with pc := h₁.pc + 4, bus := b } := by
    rw [hdecode, execute, executeStore_apply, beginning_x hb, beginning_x hb, hstore]
  rw [step_of_retired hb hrun]
  refine ⟨rfl, ?_, hoverlaid.of_flat (beginning_windows hb) (beginning_flat hb)⟩
  obtain ⟨b₁, -, rfl⟩ := beginning?_eq_some hb
  exact ⟨rfl, rfl, rfl, rfl⟩

/-- The store of an atomic operation finds the bus that its load has found. -/
theorem amo_exchanges {op : Amo} {dest base src : Reg} {place : Word} {slot : Nat} {s : Storage}
    (hb : h.beginning? = some (word, h₁)) (hdecode : Instr.decode word = .amo op dest base src)
    (hlaid : Laid h.bus.windows)
    (hlocated : h.bus.Located .word (h.x base) slot place (.ram s) s) :
    h.step.1 = none ∧ h.Receives dest (h.bus.flat.valueAt .word (h.x base)) h.step.2
      ∧ ∃ result, Combines op (h.bus.flat.valueAt .word (h.x base)) (h.x src) result
        ∧ h.bus.Overlaid .word (h.x base) result h.step.2.bus := by
  have hload := (hlocated.of_beginning hb).load
  rw [hlocated.valueAt hlaid] at hload
  generalize h.bus.flat.valueAt .word (h.x base) = old at hload ⊢
  obtain ⟨b, hstore, hoverlaid⟩ := (hlocated.of_beginning hb).exists_store
    (beginning_laid hb hlaid) (op.eval old (h.x src))
  have hrun : execute (Instr.decode word) word h₁
      = .ok () ({ h₁ with bus := b }.finished dest old) := by
    rw [hdecode, execute, executeAmo_apply, beginning_x hb, beginning_x hb,
      if_pos hlocated.aligned, hload]
    simp only [hstore]
  obtain ⟨hretired, hreceives, hbus⟩ := receives_of_finished hb hrun
  rw [hbus]
  exact ⟨hretired, hreceives, _, combines_eval op old (h.x src),
    hoverlaid.of_flat (beginning_windows hb) (beginning_flat hb)⟩

theorem store_of_retired {width : Width} {src base : Reg} {offset : Word}
    (hb : h.beginning? = some (word, h₁))
    (hdecode : Instr.decode word = .store width src base offset) (hretired : h.step.1 = none) :
    Bus.store width (h.x base + offset) ((h.x src).setWidth width.bits) h₁.bus
      = .ok () h.step.2.bus := by
  have hrun := executeStore_apply width src base offset h₁
  rw [beginning_x hb, beginning_x hb] at hrun
  rw [step_of_beginning hb, hdecode, execute] at hretired ⊢
  cases hstore : Bus.store width (h.x base + offset) ((h.x src).setWidth width.bits) h₁.bus with
  | ok u b =>
      rw [hstore] at hrun
      rw [hrun]
  | error trap b =>
      rw [hstore] at hrun
      rw [hrun] at hretired
      cases hretired

end Steps

/-! ## What a step stores -/

/-- The store that a step has made: that of an instruction that has retired. -/
def stored? (h : Hart ε) : Option (Width × Word) :=
  if h.step.1.isNone then h.executed?.bind h.written? else none

/-- A refused store-conditional has stored nothing, though it has dropped the reservation. -/
theorem tryStore_error_keeps {base src : Reg} {e : Exception} {h h' : Hart ε}
    (htry : tryStore base src h = .error e h') :
    h'.bus.windows = h.bus.windows ∧ Bus.KeepsMemories h.bus h'.bus := by
  simp only [tryStore] at htry
  split at htry
  · split at htry
    · split at htry
      · cases htry
      · next hstore =>
          cases htry
          exact ⟨(Bus.store_error_steady hstore).windows,
            (Bus.store_error_keepsMemories hstore).trans (Bus.keepsMemories_of_slots rfl)⟩
    · cases htry
  · cases htry
    exact ⟨rfl, Bus.keepsMemories_of_slots rfl⟩

theorem execute_error_keeps {i : Instr} {word : Word} {e : Exception} {h h' : Hart ε}
    (hrun : execute i word h = .error e h') :
    h'.bus.windows = h.bus.windows ∧ Bus.KeepsMemories h.bus h'.bus := by
  cases hi : i.isStoreConditional with
  | false =>
      have hdone := execute_chronicled Bus.unmarked_chronicle hi word h
      rw [hrun] at hdone
      exact hdone rfl
  | true =>
      obtain ⟨dest, base, src, rfl⟩ := Instr.eq_of_isStoreConditional hi
      rw [execute, executeStoreConditional_apply] at hrun
      split at hrun <;> cases hrun
      next htry => exact tryStore_error_keeps htry

theorem step_retains {width : Width} {address : Word} (h : Hart ε) :
    Bus.Retains width address h.bus h.stored?.toList h.step.2.bus := by
  cases hb : h.beginning? with
  | none =>
      have hstored : h.stored? = none := by simp [stored?, executed?, hb]
      obtain ⟨hwindows, hkept⟩ := unbegun_chronicled Bus.unmarked_chronicle hb rfl
      rw [hstored]
      exact Bus.retains_of_kept hwindows hkept
  | some start =>
      obtain ⟨word, h₁⟩ := start
      have hexecuted : h.executed? = some (Instr.decode word) := by simp [executed?, hb]
      have hstep := step_of_beginning hb
      cases hrun : execute (Instr.decode word) word h₁ with
      | ok u h' =>
          rw [hrun] at hstep
          have hstored : h.stored? = h.written? (Instr.decode word) := by
            simp [stored?, hstep, hexecuted]
          have hconfined := execute_confined hrun
          rw [beginning_written? hb] at hconfined
          rw [hstored, hstep]
          exact Bus.retains_of_confined ((beginning_confined hb _).trans hconfined)
      | error e h' =>
          rw [hrun] at hstep
          have hstored : h.stored? = none := by simp [stored?, hstep]
          obtain ⟨hwindows, hkept⟩ := execute_error_keeps hrun
          rw [hstored, hstep]
          exact Bus.retains_of_kept (hwindows.trans (beginning_windows hb))
            ((beginning_keepsMemories hb).trans (hkept.trans (Bus.keepsMemories_of_slots rfl)))

/-! ## Runs -/

/-- The stores that succeed in an event, each with its width and its address. -/
def Event.stores (h : Hart ε) : Event → List (Width × Word)
  | step => h.stored?.toList
  | access request => h.bus.requestStores request
  | cycle slot => h.bus.turnStores slot Peripheral.cycle
  | timestep slot => h.bus.turnStores slot Peripheral.timestep
  | raise | reset => []

/-- The stores that have succeeded in a run, whoever made them. -/
def stores (h : Hart ε) : List Event → List (Width × Word)
  | [] => []
  | e :: rest => e.stores h ++ stores (e.apply h) rest

theorem event_retains {width : Width} {address : Word} (h : Hart ε) (e : Event) :
    Bus.Retains width address h.bus (e.stores h) (e.apply h).bus := by
  cases e with
  | step => exact step_retains h
  | access request => exact Bus.answer_retains request h.bus
  | cycle slot => exact Bus.cycle_retains h.bus slot
  | timestep slot => exact Bus.timestep_retains h.bus slot
  | raise | reset => exact Bus.retains_of_kept rfl (Bus.keepsMemories_of_slots rfl)

theorem run_retains {width : Width} {address : Word} (h : Hart ε) (events : List Event) :
    Bus.Retains width address h.bus (h.stores events) (h.run events).bus := by
  induction events generalizing h with
  | nil => exact Bus.retains_of_kept rfl (Bus.keepsMemories_of_slots rfl)
  | cons e rest ih => exact (event_retains h e).append (ih (e.apply h))

theorem event_sound {h : Hart ε} (hsound : h.bus.Sound) (e : Event) : (e.apply h).bus.Sound := by
  have hretains : Bus.Retains .byte 0 h.bus (e.stores h) (e.apply h).bus := event_retains h e
  refine hsound.of_evolves hretains.windows ?_
  cases e with
  | step => exact step_bus (Bus.traffic_evolves Device.lawful_room) h
  | access request => exact Bus.evolves_answer Device.lawful_room request h.bus
  | cycle slot => exact Bus.evolves_cycle Device.lawful_room h.bus slot
  | timestep slot => exact Bus.evolves_timestep Device.lawful_room h.bus slot
  | raise | reset => exact Bus.evolves_of_slots Device.lawful_room rfl

theorem run_sound {h : Hart ε} (hsound : h.bus.Sound) (events : List Event) :
    (h.run events).bus.Sound := by
  induction events generalizing h with
  | nil => exact hsound
  | cons e rest ih => exact ih (event_sound hsound e)

/-! ## Memory instructions -/

/-- What the memory instructions do to a hart. -/
structure MemoryExact (h : Hart ε) : Prop where
  load : ∀ kind dest base offset c, h.executed? = some (.load kind dest base offset) →
    kind.width.Aligned (h.x base + offset) → h.bus.flat (h.x base + offset) = some c →
    h.step.1 = none
      ∧ h.Loads kind dest (h.bus.flat.valueAt kind.width (h.x base + offset)) h.step.2
      ∧ h.step.2.bus.flat = h.bus.flat
  store : ∀ width src base offset c, h.executed? = some (.store width src base offset) →
    width.Aligned (h.x base + offset) → h.bus.flat (h.x base + offset) = some c →
    c.writable = true →
    h.step.1 = none ∧ h.Proceeds h.step.2
      ∧ h.bus.Overlaid width (h.x base + offset) ((h.x src).setWidth width.bits) h.step.2.bus
  amo : ∀ op dest base src c, h.executed? = some (.amo op dest base src) →
    Width.Aligned .word (h.x base) → h.bus.flat (h.x base) = some c → c.writable = true →
    h.step.1 = none ∧ h.Receives dest (h.bus.flat.valueAt .word (h.x base)) h.step.2
      ∧ ∃ result, Combines op (h.bus.flat.valueAt .word (h.x base)) (h.x src) result
        ∧ h.bus.Overlaid .word (h.x base) result h.step.2.bus
  /-- A number that has been stored is loaded again after a run with no store to its bytes. -/
  stays : ∀ kind src base offset c, h.executed? = some (.store kind.width src base offset) →
    h.step.1 = none → h.bus.flat (h.x base + offset) = some c →
    ∀ events, (∀ access ∈ h.step.2.stores events,
      h.bus.Misses access kind.width (h.x base + offset)) →
    ∀ dest base' offset',
      (h.step.2.run events).executed? = some (.load kind dest base' offset') →
      (h.step.2.run events).x base' + offset' = h.x base + offset →
      (h.step.2.run events).step.1 = none
        ∧ (h.step.2.run events).Loads kind dest ((h.x src).setWidth kind.width.bits)
          (h.step.2.run events).step.2

theorem memoryExact_of_sound {h : Hart ε} (hsound : h.bus.Sound) : h.MemoryExact where
  load := by
    intro kind dest base offset c hexecuted haligned hc
    obtain ⟨word, h₁, hb, hdecode⟩ := executed?_eq_some hexecuted
    obtain ⟨slot, place, d, s, hlocated, -⟩ := hsound.located haligned hc
    obtain ⟨hretired, hloads, hbus⟩ := load_loads hb hdecode
      ⟨slot, place, d, s, hlocated, hlocated.valueAt hsound.laid⟩
    exact ⟨hretired, hloads, by rw [hbus, beginning_flat hb]⟩
  store := by
    intro width src base offset c hexecuted haligned hc hwritable
    obtain ⟨word, h₁, hb, hdecode⟩ := executed?_eq_some hexecuted
    obtain ⟨slot, place, d, s, hlocated, hcell⟩ := hsound.located haligned hc
    obtain rfl := Device.eq_ram_of_cell? hlocated.storage hcell hwritable
    exact store_overlays hb hdecode hsound.laid hlocated
  amo := by
    intro op dest base src c hexecuted haligned hc hwritable
    obtain ⟨word, h₁, hb, hdecode⟩ := executed?_eq_some hexecuted
    obtain ⟨slot, place, d, s, hlocated, hcell⟩ := hsound.located haligned hc
    obtain rfl := Device.eq_ram_of_cell? hlocated.storage hcell hwritable
    exact amo_exchanges hb hdecode hsound.laid hlocated
  stays := by
    intro kind src base offset c hexecuted hretired hc events hmisses dest base' offset' hload
      haddress
    obtain ⟨word, h₁, hb, hdecode⟩ := executed?_eq_some hexecuted
    have hstore := store_of_retired hb hdecode hretired
    obtain ⟨slot, place, d, s, hlocated, -⟩ := hsound.located (Bus.store_eq_ok.mp hstore).1 hc
    have hcontains := Bus.contains_of_store hstore ⟨slot, place, d, s, hlocated.of_beginning hb⟩
    have hwindows : h.step.2.bus.windows = h.bus.windows :=
      (Bus.store_windows hstore).trans (beginning_windows hb)
    have hstays := (run_retains h.step.2 events).value _
      (fun access haccess => (Bus.misses_of_windows hwindows).mpr (hmisses access haccess))
      hcontains
    obtain ⟨word', h₂, hb', hdecode'⟩ := executed?_eq_some hload
    rw [← haddress] at hstays
    obtain ⟨hretired', hloads, -⟩ := load_loads hb' hdecode' hstays
    exact ⟨hretired', hloads⟩

/-- A bus that is set up with memories of the size of their pages is sound and stays so, whatever
happens; and on a sound bus the memory instructions do just what they are to do. -/
theorem memory_exact :
    (∀ calls : List (Bus.Setup ε),
      (∀ d s, .install d ∈ calls → d.storage? = some s →
        s.memory.size = s.pages.toNat * pageSize) →
      ∀ events, ((fresh calls).run events).bus.Sound)
      ∧ ∀ h : Hart ε, h.bus.Sound → h.MemoryExact :=
  ⟨fun _ hsizes events => run_sound (Bus.sound_setUp hsizes) events,
    fun _ hsound => memoryExact_of_sound hsound⟩

/-- A ROM with `sb x6, 1(x5)` and `lb x7, 1(x5)`, and a RAM behind it in two windows. -/
def echoCalls : List (Bus.Setup Empty) :=
  [.install (.rom ⟨1, ⟨splice (Memory.zero pageSize).bytes 0
      [0xa3, 0x80, 0x62, 0x00, 0x83, 0x83, 0x12, 0x00]⟩⟩),
    .install (.ram (Storage.ofPages 1)), .attach 0 0, .attach 1 0x400, .attach 1 0x800]

/-- A hart in front of the store, with `x5` at the first window of the RAM. -/
def beforeEcho : Hart Empty where
  pc := 0
  registers := (Registers.set {} 5 0x400).set 6 0x1280
  bus := Bus.setUp echoCalls

/-- Between the store and the load the next byte is overwritten, in the second window. -/
theorem memory_exact_echo : beforeEcho.bus.Sound ∧ beforeEcho.step.1 = none
    ∧ beforeEcho.step.2.stores [.access (.store .byte 0x802 0xff)] = [(.byte, 0x802)]
    ∧ (beforeEcho.step.2.run [.access (.store .byte 0x802 0xff)]).Loads .lb 7 0x80
      (beforeEcho.step.2.run [.access (.store .byte 0x802 0xff)]).step.2 := by
  have hsizes : ∀ (d : Device Empty) (s : Storage), .install d ∈ echoCalls →
      d.storage? = some s → s.memory.size = s.pages.toNat * pageSize := by
    intro d s hd hs
    simp only [echoCalls, List.mem_cons, Bus.Setup.install.injEq, reduceCtorEq, List.not_mem_nil,
      or_false] at hd
    obtain rfl | rfl := hd <;> cases hs
    · rw [Memory.size, size_splice, Memory.zero, Array.size_replicate]
      exact (Nat.one_mul pageSize).symm
    · exact Array.size_replicate
  have hsound : beforeEcho.bus.Sound := memory_exact.1 echoCalls hsizes []
  have hexecuted : beforeEcho.executed? = some (.store .byte 6 5 1) := by decide +kernel
  have hretired : beforeEcho.step.1 = none := by decide +kernel
  have hmapped : (beforeEcho.bus.flat (beforeEcho.x 5 + 1)).isSome = true := by decide +kernel
  have hvalue : (beforeEcho.x 6).setWidth Load.lb.width.bits = 0x80 := by decide +kernel
  have hstores : beforeEcho.step.2.stores [.access (.store .byte 0x802 0xff)]
      = [(.byte, 0x802)] := by decide +kernel
  have hmisses : beforeEcho.bus.route (0x802 + BitVec.ofNat 32 0)
      ≠ beforeEcho.bus.route (beforeEcho.x 5 + 1 + BitVec.ofNat 32 0) := by decide +kernel
  have hload : (beforeEcho.step.2.run [.access (.store .byte 0x802 0xff)]).executed?
      = some (.load .lb 7 5 1) := by decide +kernel
  have haddress : (beforeEcho.step.2.run [.access (.store .byte 0x802 0xff)]).x 5 + 1
      = beforeEcho.x 5 + 1 := by decide +kernel
  obtain ⟨c, hc⟩ := Option.isSome_iff_exists.mp hmapped
  have hstays := (memory_exact.2 beforeEcho hsound).stays .lb 6 5 1 c hexecuted hretired hc
    [.access (.store .byte 0x802 0xff)]
  rw [hstores, hvalue] at hstays
  refine ⟨hsound, hretired, hstores, (hstays ?_ 7 5 1 hload haddress).2⟩
  intro access haccess j hj k hk
  obtain rfl := List.mem_singleton.mp haccess
  obtain rfl : j = 0 := Nat.lt_one_iff.mp hj
  obtain rfl : k = 0 := Nat.lt_one_iff.mp hk
  exact hmisses

end Hart

end Rv32Soc
