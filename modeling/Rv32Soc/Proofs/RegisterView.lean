import Rv32Soc.Proofs.Acknowledgements
import Rv32Soc.Proofs.Turns

/-!
# The registers of the interrupt controller

Software uses the controller through registers and the host through calls. A
store of a word is a row of calls, and what the two leave behind is the same
in all of the state: the lines, the current one, and the note that something
has changed.

It is also the same for the sources, which the controller does not reach
itself. A store hands over all acknowledgements at the end, and a call each as
it is made; but nobody who is told of one looks at the controller or changes
it, so that the two orders come to the same.

Loads change nothing and show what the host can ask for.
-/

namespace Rv32Soc

/-- Registers are the words of a window of 4096 bytes. -/
theorem registerIndex_eq (offset : Word) : registerIndex offset = offset.toNat % 4096 / 4 := by
  rw [registerIndex, BitVec.toNat_ushiftRight, BitVec.toNat_and, Nat.shiftRight_eq_div_pow]
  exact congrArg (· / 4) (Nat.and_two_pow_sub_one_eq_mod offset.toNat 12)

theorem getLsbD_bitmap (bit : Line → Bool) (l : Line) : (bitmap bit).getLsbD l = bit l := by
  rw [bitmap, BitVec.getLsbD_setWidth, BitVec.getLsbD_ofBoolListLE, List.getD_eq_getElem?_getD,
    List.getElem?_ofFn]
  simp

namespace InterruptController

/-! ## Calls of the host -/

/-- A call that changes the state as software may. -/
inductive HostCall where
  | setMasterEnable (enable : Bool)
  | setEnabled (l : Line) (enable : Bool)
  | setPriority (l : Line) (priority : Byte)
  | acknowledge (l : Line)
  deriving DecidableEq

/-- The state that a call leaves, and the acknowledgement it makes, if it makes one. -/
def HostCall.apply (c : InterruptController) :
    HostCall → InterruptController × List Acknowledgement
  | setMasterEnable enable => (c.setMasterEnable enable, [])
  | setEnabled l enable => (c.setEnabled l enable, [])
  | setPriority l priority => (c.setPriority l priority, [])
  | acknowledge l => ((c.acknowledge l).1, (c.acknowledge l).2.toList)

/-- The controller after some calls of the host, and all acknowledgements that they told of. -/
def calls (c : InterruptController) : List HostCall →
    InterruptController × List Acknowledgement
  | [] => (c, [])
  | call :: rest =>
      let (c, told) := call.apply c
      let (c, more) := c.calls rest
      (c, told ++ more)

/-- The calls that a store into a register stands for, if the register takes one. -/
def hostCalls? (index : Nat) (value : Word) : Option (List HostCall) :=
  match index with
  | 0 => some [.setMasterEnable (value.getLsbD 31)]
  | 1 => some ((List.finRange 32).map fun l => .setEnabled l (value.getLsbD l))
  | 2 => none
  | 3 => some (((List.finRange 32).filter fun l : Line => value.getLsbD l).map .acknowledge)
  | n + 4 => if h : n < 32 then some [.setPriority ⟨n, h⟩ (value.setWidth 8)] else none

theorem lines_setEnabled (c : InterruptController) (l m : Line) (enable : Bool) :
    (c.setEnabled l enable).lines.get m
      = if l = m then { c.lines.get m with enabled := enable } else c.lines.get m := by
  simp only [setEnabled, setLine, Vector.get_eq_getElem, Fin.getElem_fin, Vector.getElem_set,
    Fin.ext_iff]
  split
  · next hm => simp only [hm]
  · rfl

theorem calls_setEnabled (c : InterruptController) (lines : List Line) (f : Line → Bool) :
    c.calls (lines.map fun l => .setEnabled l (f l))
      = ({ c with
            lines := Vector.ofFn fun m =>
              if m ∈ lines then { c.lines.get m with enabled := f m } else c.lines.get m
            changed := c.changed || !lines.isEmpty }, []) := by
  induction lines generalizing c with
  | nil => simp [calls, Vector.get_eq_getElem]
  | cons l rest ih =>
      have hlines (m : Line) :
          (if m ∈ rest then { (c.setEnabled l (f l)).lines.get m with enabled := f m }
            else (c.setEnabled l (f l)).lines.get m)
          = if m ∈ l :: rest then { c.lines.get m with enabled := f m } else c.lines.get m := by
        rw [lines_setEnabled]
        grind
      rw [List.map_cons, calls, HostCall.apply]
      simp only [ih, hlines]
      simp [setEnabled, setLine]

/-- All bits at once are all lines one after the other. -/
theorem calls_enables (c : InterruptController) (value : Word) :
    c.calls ((List.finRange 32).map fun l => .setEnabled l (value.getLsbD l))
      = (c.setEnables value, []) := by
  rw [calls_setEnabled]
  simp [setEnables, Vector.get_eq_getElem]

theorem calls_acknowledge (c : InterruptController) (lines : List Line) :
    c.calls (lines.map .acknowledge) = c.acknowledgeAll lines := by
  induction lines generalizing c with
  | nil => rfl
  | cons l rest ih =>
      rw [List.map_cons, calls, acknowledgeAll, HostCall.apply]
      simp only [ih]

/-! ## Stores -/

theorem priorityLine?_add_four (n : Nat) :
    priorityLine? (n + 4) = if h : n < 32 then some ⟨n, h⟩ else none := by
  simp [priorityLine?]

theorem writeWord_eq (offset value : Word) (c : InterruptController) :
    writeWord offset value c
      = match hostCalls? (offset.toNat % 4096 / 4) value with
        | some row => .ok (c.calls row).2 (c.calls row).1
        | none => .error ⟨.storeAccessFault, offset⟩ c := by
  rw [writeWord, registerIndex_eq]
  generalize offset.toNat % 4096 / 4 = index
  match index with
  | 0 => rfl
  | 1 => simp only [hostCalls?, calls_enables]
  | 2 => rfl
  | 3 => simp only [hostCalls?, calls_acknowledge]
  | n + 4 =>
      simp only [hostCalls?, priorityLine?_add_four]
      by_cases hn : n < 32
      · simp only [dif_pos hn]
        rfl
      · simp only [dif_neg hn]

theorem priority_setPriority (c : InterruptController) (l : Line) (priority : Byte) :
    ((c.setPriority l priority).priority l).toNat = priority.toNat % 2 ^ 5 := by
  simp [InterruptController.priority, setPriority, setLine]

/-! ## Loads -/

/-- The word is what the host is told of the state that a register is about. -/
def Shows (c : InterruptController) (index : Nat) (value : Word) : Prop :=
  match index with
  | 0 => value.getLsbD 31 = c.masterEnable
      ∧ value.toNat % 2 ^ 31 = c.current.elim 0x7fffffff Fin.val
  | 1 => ∀ l : Line, value.getLsbD l = c.enabled l
  | 2 => ∀ l : Line, value.getLsbD l = c.pending l
  | 3 => value = 0
  | n + 4 => ∃ h : n < 32, value.toNat = (c.priority ⟨n, h⟩).toNat

theorem getLsbD_status (c : InterruptController) : c.status.getLsbD 31 = c.masterEnable := by
  have hmaster : (if c.masterEnable then 0x80000000 else 0 : Word).getLsbD 31 = c.masterEnable := by
    cases c.masterEnable <;> rfl
  rw [status, BitVec.getLsbD_or, hmaster]
  cases c.current with
  | none => exact Bool.or_false _
  | some l =>
      have hlt : l.val < 2 ^ 31 := by omega
      simp only [BitVec.getLsbD_ofNat, Nat.testBit_lt_two_pow hlt, Bool.and_false, Bool.or_false]

theorem toNat_status (c : InterruptController) :
    c.status.toNat % 2 ^ 31 = c.current.elim 0x7fffffff Fin.val := by
  have hmaster : (if c.masterEnable then 0x80000000 else 0 : Word).setWidth 31 = 0#31 := by
    cases c.masterEnable <;> rfl
  rw [← BitVec.toNat_setWidth, status, BitVec.setWidth_or, hmaster, BitVec.zero_or]
  cases c.current with
  | none => rfl
  | some l =>
      simp only [BitVec.toNat_setWidth, BitVec.toNat_ofNat, Option.elim_some]
      omega

theorem readWord_shows (c : InterruptController) (offset : Word) :
    (∃ value, c.readWord offset = .ok value ∧ c.Shows (offset.toNat % 4096 / 4) value)
      ∨ 36 ≤ offset.toNat % 4096 / 4
        ∧ c.readWord offset = .error ⟨.loadAccessFault, offset⟩ := by
  rw [readWord, registerIndex_eq]
  generalize offset.toNat % 4096 / 4 = index
  match index with
  | 0 => exact .inl ⟨_, rfl, c.getLsbD_status, c.toNat_status⟩
  | 1 => exact .inl ⟨_, rfl, getLsbD_bitmap c.enabled⟩
  | 2 => exact .inl ⟨_, rfl, getLsbD_bitmap c.pending⟩
  | 3 => exact .inl ⟨_, rfl, rfl⟩
  | n + 4 =>
      simp only [priorityLine?_add_four]
      by_cases hn : n < 32
      · simp only [dif_pos hn]
        exact .inl ⟨_, rfl, hn, BitVec.toNat_setWidth_of_le (by decide)⟩
      · simp only [dif_neg hn]
        exact .inr ⟨by omega, trivial⟩

end InterruptController

/-! ## Over the bus -/

variable {ε : Type} [Peripheral ε]

namespace Bus

open InterruptController (HostCall hostCalls?)

/-- Make a call to the controller in a slot. -/
def hostCall (slot : Nat) (b : Bus ε) : HostCall → Bus ε
  | .setMasterEnable enable => b.updateController slot (·.setMasterEnable enable)
  | .setEnabled l enable => b.updateController slot (·.setEnabled l enable)
  | .setPriority l priority => b.updateController slot (·.setPriority l priority)
  | .acknowledge l => b.acknowledge slot l

section Controller

variable {b : Bus ε} {slot : Nat} {c : InterruptController}

omit [Peripheral ε] in
theorem updateController_eq_put (hc : b.device? slot = some (.controller c))
    (f : InterruptController → InterruptController) :
    b.updateController slot f = b.put slot (.controller (f c)) :=
  update_eq_put hc _

theorem hostCall_eq (hc : b.device? slot = some (.controller c)) (call : HostCall) :
    b.hostCall slot call
      = (b.put slot (.controller (call.apply c).1)).announce (call.apply c).2 := by
  cases call with
  | setMasterEnable | setEnabled | setPriority => exact updateController_eq_put hc _
  | acknowledge l =>
      rw [hostCall, Bus.acknowledge, controller?_eq_some.mpr hc]
      rfl

/-- A controller is not changed by what it tells others, even if it is told so itself. -/
theorem device?_announce_controller (hc : b.device? slot = some (.controller c))
    (told : List Acknowledgement) :
    (b.announce told).device? slot = some (.controller c) := by
  rw [device?_announce, hc, Option.map_some]
  exact congrArg some (Function.iterate_fixed rfl _)

theorem tell_put (hc : b.device? slot = some (.controller c)) (c' : InterruptController)
    (source : Nat) :
    (b.put slot (.controller c')).tell source = (b.tell source).put slot (.controller c') := by
  by_cases hsource : slot = source
  -- A controller that is told is put back as it is, before or after.
  · subst hsource
    have hself : b.tell slot = b := (update_eq_put hc _).trans (put_self hc)
    have hc' : (b.put slot (.controller c')).device? slot = some (.controller c') :=
      device?_put_self hc
    rw [hself]
    exact (update_eq_put hc' _).trans (put_self hc')
  · exact update_fill (.inl hsource) Device.acknowledge b

theorem announce_put (hc : b.device? slot = some (.controller c)) (c' : InterruptController)
    (told : List Acknowledgement) :
    (b.put slot (.controller c')).announce told
      = (b.announce told).put slot (.controller c') := by
  -- Of the second bus it is needed on the way that the controller is still in its slot.
  let Puts : Bus ε → Bus ε → Prop := fun b₁ b₂ =>
    b₂.device? slot = some (.controller c) ∧ b₁ = b₂.put slot (.controller c')
  have hputs : Puts ((b.put slot (.controller c')).announce told) (b.announce told) := by
    refine List.foldl_rel (r := Puts) ⟨hc, rfl⟩ ?_
    intro a _ b₁ b₂ h
    have htold : Puts (a.sources.foldl tell b₁) (a.sources.foldl tell b₂) := by
      refine List.foldl_rel (r := Puts) h ?_
      rintro source _ _ b₃ ⟨hc₃, rfl⟩
      refine ⟨?_, tell_put hc₃ c' source⟩
      rw [device?_tell, hc₃]
      split <;> rfl
    exact ⟨htold.1, by rw [htold.2]; rfl⟩
  exact hputs.2

theorem foldl_hostCall (hc : b.device? slot = some (.controller c)) (row : List HostCall) :
    row.foldl (hostCall slot) b
      = (b.put slot (.controller (c.calls row).1)).announce (c.calls row).2 := by
  induction row generalizing b c with
  | nil => exact (put_self hc).symm
  | cons call rest ih =>
      have hcalled := device?_announce_controller
        (device?_put_self (e := .controller (call.apply c).1) hc) (call.apply c).2
      rw [List.foldl_cons, hostCall_eq hc, ih hcalled, ← announce_put (device?_put_self hc),
        put_eq_fill, put_eq_fill, fill_fill, ← put_eq_fill]
      exact List.foldl_append.symm

/-- Software does over the bus what calls do, and sees what the host is told. -/
structure Agrees (b : Bus ε) (slot : Nat) (c : InterruptController) : Prop where
  store : ∀ (offset value : Word) absent, storeInto slot .word offset value absent b
    = match hostCalls? (offset.toNat % 4096 / 4) value with
      | some row => .ok () (row.foldl (hostCall slot) b)
      | none => .error ⟨.storeAccessFault, offset⟩ b
  load : ∀ offset absent,
    (∃ value, loadFrom slot .word offset absent b = .ok value b
        ∧ c.Shows (offset.toNat % 4096 / 4) value)
      ∨ 36 ≤ offset.toNat % 4096 / 4
        ∧ loadFrom slot .word offset absent b = .error ⟨.loadAccessFault, offset⟩ b

theorem agrees_of_controller? (hc : b.controller? slot = some c) : b.Agrees slot c where
  store offset value absent := by
    have hd := controller?_eq_some.mp hc
    cases hrow : hostCalls? (offset.toNat % 4096 / 4) value with
    | none =>
        have hwrite : Device.write .word offset value (.controller c : Device ε)
            = .error ⟨.storeAccessFault, offset⟩ (.controller c) := by
          simp only [Device.write, InterruptController.writeWord_eq, hrow]
        simp only [storeInto, visit_error hd hwrite, put_self hd]
    | some row =>
        have hwrite : Device.write .word offset value (.controller c : Device ε)
            = .ok (c.calls row).2 (.controller (c.calls row).1) := by
          simp only [Device.write, InterruptController.writeWord_eq, hrow]
        simp only [storeInto, visit_ok hd hwrite, foldl_hostCall hd]
  load offset absent := by
    have hd := controller?_eq_some.mp hc
    have hread : Device.read (ε := ε) .word offset (.controller c)
        = Device.answer (.controller c) (c.readWord offset) := rfl
    obtain ⟨value, hvalue, hshows⟩ | ⟨hindex, hrefused⟩ := c.readWord_shows offset
    · rw [hvalue] at hread
      exact .inl ⟨value, by rw [loadFrom, visit_ok hd hread, put_self hd], hshows⟩
    · rw [hrefused] at hread
      exact .inr ⟨hindex, by rw [loadFrom, visit_error hd hread, put_self hd]⟩

end Controller

end Bus

namespace InterruptController

/-- Stores do what calls do, and loads show what the host is told. -/
structure Agrees (c : InterruptController) : Prop where
  store : ∀ offset value, writeWord offset value c
    = match hostCalls? (offset.toNat % 4096 / 4) value with
      | some row => .ok (c.calls row).2 (c.calls row).1
      | none => .error ⟨.storeAccessFault, offset⟩ c
  /-- Of a priority five bits are kept. -/
  priority : ∀ l priority, ((c.setPriority l priority).priority l).toNat = priority.toNat % 2 ^ 5
  load : ∀ offset,
    (∃ value, c.readWord offset = .ok value ∧ c.Shows (offset.toNat % 4096 / 4) value)
      ∨ 36 ≤ offset.toNat % 4096 / 4
        ∧ c.readWord offset = .error ⟨.loadAccessFault, offset⟩

/-- The registers and the calls of the host are two views of one controller, by itself and on a
bus with the sources that are told of acknowledgements. -/
theorem registers_agree :
    (∀ c : InterruptController, c.Agrees)
      ∧ ∀ (b : Bus ε) (slot : Nat) (c : InterruptController), b.controller? slot = some c →
        b.Agrees slot c :=
  ⟨fun c => ⟨fun offset value => writeWord_eq offset value c, c.priority_setPriority,
    c.readWord_shows⟩, fun _ _ _ => Bus.agrees_of_controller?⟩

/-- Lines 5 and 2 are pending, and both are registered for one device. -/
def shared : InterruptController :=
  (((register {} 1 5).register 1 2).assert 5).assert 2

/-- The controller beside the device that both lines are registered for. -/
def sharedBus : Bus Probe where
  slots := #[some (.controller shared), some (.external {})]

theorem registers_agree_shared :
    sharedBus.controller? 0 = some shared
      ∧ hostCalls? ((0x100c : Word).toNat % 4096 / 4) 0x24 = some [.acknowledge 2, .acknowledge 5]
      ∧ Bus.storeInto 0 .word 0x100c 0x24 ⟨.storeAccessFault, 0x100c⟩ sharedBus
        = .ok () ((sharedBus.acknowledge 0 2).acknowledge 0 5) := by
  have hcontroller : sharedBus.controller? 0 = some shared := rfl
  have hcalls : hostCalls? ((0x100c : Word).toNat % 4096 / 4) 0x24
      = some [.acknowledge 2, .acknowledge 5] := by decide +kernel
  have hstore := (registers_agree.2 sharedBus 0 shared hcontroller).store 0x100c 0x24
    ⟨.storeAccessFault, 0x100c⟩
  rw [hcalls] at hstore
  exact ⟨hcontroller, hcalls, hstore⟩

end InterruptController

end Rv32Soc
