import Rv32Soc.Proofs.Exceptions
import Rv32Soc.Proofs.Histories
import Rv32Soc.Proofs.TimerRuns

/-!
# What software sees of a timer

Software sees a timer through its registers alone, and between any two of its
accesses there may be ticks. Five registers hold what was stored into them,
cut to the bits that they have. Nothing changes one of them but a store into
the same one; only COUNT also moves, with the ticks that count. The two flags
are latches: a tick that counts sets them, a one in the acknowledgement
register clears them, and what is set stays set whatever else is stored, read
or refused in the meantime.

So what any register reads can be told from the history of the timer. What an
event does to a setting and what it does to a flag is looked up once for each
kind of event; the rest is induction on the history, from its end.
-/

namespace Rv32Soc.Timer

/-! ## Events -/

/-- What happens to a timer: a tick, or an access of any width at any offset. -/
inductive Event where
  | tick
  | load (w : Width) (offset : Word)
  | store (w : Width) (offset : Word) (value : BitVec w.bits)

/-- A device on the bus after an event. -/
def Event.apply : Event → Device Empty → Device Empty
  | tick, .timer t => .timer t.tick
  | tick, d => d
  | load w offset, d => stateAfter (Device.read w offset d)
  | store w offset value, d => stateAfter (Device.write w offset value d)

/-- The timer after an event. Only a store of a word has anything to say to it. -/
def undergo (t : Timer) : Event → Timer
  | .tick => t.tick
  | .store .word offset value => stateAfter (writeWord offset value t)
  | .load _ _ | .store _ _ _ => t

theorem apply_timer (t : Timer) (e : Event) : e.apply (.timer t) = .timer (t.undergo e) := by
  cases e with
  | tick => rfl
  | load w offset => exact Device.stateAfter_read w offset (.timer t)
  | store w offset value =>
      cases w with
      | byte | halfword => rfl
      | word =>
          simp only [Event.apply, Device.write, undergo]
          cases writeWord offset value t <;> rfl

/-- A new timer after some events. -/
def run (history : List Event) : Timer :=
  history.foldl undergo {}

theorem run_snoc (history : List Event) (e : Event) :
    run (history ++ [e]) = (run history).undergo e := by
  rw [run, List.foldl_append]
  rfl

/-- The event is a store of the word into the register of this number. -/
def Event.Stores (e : Event) (register : Nat) (value : Word) : Prop :=
  ∃ offset, e = .store .word offset value ∧ registerIndex offset = register

/-- The event clears the flag in this place of IP, if it is set. -/
def Event.Acknowledges (e : Event) (place : Nat) : Prop :=
  ∃ value, e.Stores 6 value ∧ value.getLsbD place = true

/-! ## Ticks that count -/

/-- The next tick counts: the timer is running, and its prescaler is off or at the end of its
period. -/
def Counts (t : Timer) : Prop :=
  t.running = true ∧ (t.prescaled = true → t.period ≤ t.prescaler + 1)

theorem tick_cases (t : Timer) :
    (t.Counts ∧ ∃ p, t.tick = t.advance.withPrescaler p)
      ∨ (¬t.Counts ∧ ∃ p, t.tick = t.withPrescaler p) := by
  cases hrunning : t.running with
  | false =>
      refine .inr ⟨fun h => ?_, t.prescaler, tick_stopped hrunning⟩
      rw [h.1] at hrunning
      cases hrunning
  | true =>
      rw [tick_running hrunning]
      split
      · next hprescaled =>
          split
          · next hfull => exact .inl ⟨⟨hrunning, fun _ => hfull⟩, 0, rfl⟩
          · next hroom => exact .inr ⟨fun h => hroom (h.2 hprescaled), _, rfl⟩
      · next hfree => exact .inl ⟨⟨hrunning, fun h => absurd h hfree⟩, t.prescaler, rfl⟩

/-! ## Settings

What software stores into a register is cut to the bits that the register has. -/

/-- A register that holds what is stored into it. -/
inductive Setting where
  | control
  | count
  | reload
  | target
  | enables

/-- The number of the register. -/
def Setting.index : Setting → Nat
  | control => 0
  | count => 1
  | reload => 2
  | target => 3
  | enables => 4

/-- The bits that the register has. -/
def Setting.bits : Setting → Word
  | control => 0x7f
  | count | reload | target => 0xffffffff
  | enables => 0x3

/-- What the register reads. -/
def setting (t : Timer) : Setting → Word
  | .control => t.control
  | .count => t.count
  | .reload => t.reload
  | .target => t.target
  | .enables => flags t.matchEnabled t.overflowEnabled

theorem readWord_setting (t : Timer) (s : Setting) {offset : Word}
    (h : registerIndex offset = s.index) : t.readWord offset = .ok (t.setting s) := by
  cases s <;> rw [readWord, h] <;> rfl

theorem bit_getLsbD (value : Word) (place : Nat) :
    bit (value.getLsbD place) place = (value.extractLsb' place 1).setWidth 32 <<< place := by
  rw [bit, BitVec.getLsbD_eq_extractLsb']
  obtain hbit | hbit := BitVec.eq_zero_or_eq_one (value.extractLsb' place 1)
  · rw [hbit]
    exact (BitVec.zero_shiftLeft _).symm
  · rw [hbit]
    rfl

theorem control_setControl (t : Timer) (value : Word) :
    (t.setControl value).control = value &&& 0x7f := by
  have hrow : value &&& 0x7f = (value.extractLsb' 4 3 ++ value.extractLsb' 3 1
      ++ value.extractLsb' 2 1 ++ value.extractLsb' 1 1 ++ value.extractLsb' 0 1).setWidth 32 := by
    simp (disch := decide) only [BitVec.extractLsb'_append_extractLsb'_eq_extractLsb']
    rw [← BitVec.setWidth_eq_extractLsb' (by decide)]
    exact Isa.and_allOnes_setWidth 7 value
  rw [hrow]
  simp only [BitVec.setWidth_append_eq_shiftLeft_setWidth_or, BitVec.shiftLeft_or_distrib,
    ← BitVec.shiftLeft_add]
  simp only [control, setControl, bit_getLsbD, BitVec.shiftLeft_zero, Nat.reduceAdd]

theorem flags_getLsbD (value : Word) :
    flags (value.getLsbD 1) (value.getLsbD 0) = value &&& 0x3 := by
  have hrow : value &&& 0x3 = (value.extractLsb' 1 1 ++ value.extractLsb' 0 1).setWidth 32 := by
    rw [Isa.extract_append_low]
    exact Isa.and_allOnes_setWidth 2 value
  rw [hrow, BitVec.setWidth_append_eq_shiftLeft_setWidth_or]
  simp only [flags, bit_getLsbD, BitVec.shiftLeft_zero]

/-- A store into the register sets it. -/
theorem setting_of_stores (t : Timer) {e : Event} {s : Setting} {value : Word}
    (h : e.Stores s.index value) : (t.undergo e).setting s = value &&& s.bits := by
  obtain ⟨offset, rfl, hindex⟩ := h
  simp only [undergo, writeWord, hindex]
  cases s with
  | control => exact t.control_setControl value
  | count | reload | target => exact BitVec.and_allOnes.symm
  | enables => exact flags_getLsbD value

theorem setting_writeWord_of_ne (t : Timer) (s : Setting) {offset : Word} (value : Word)
    (h : registerIndex offset ≠ s.index) :
    (stateAfter (writeWord offset value t)).setting s = t.setting s := by
  unfold writeWord
  -- Each register has fields of its own, so a store into another one is not seen.
  cases s <;> split <;> first | rfl | exact absurd ‹_› h

/-- A store into one of these registers is not seen in any other register, the flags included. -/
theorem readWord_of_stores (t : Timer) {e : Event} {s : Setting} {value offset : Word}
    (h : e.Stores s.index value) (hne : registerIndex offset ≠ s.index) :
    (t.undergo e).readWord offset = t.readWord offset := by
  obtain ⟨into, rfl, hindex⟩ := h
  simp only [undergo, writeWord, hindex]
  unfold readWord
  cases s <;> split <;> first | rfl | exact absurd ‹_› hne

theorem setting_tick (t : Timer) {s : Setting} (h : s = .count → ¬t.Counts) :
    t.tick.setting s = t.setting s := by
  obtain ⟨hcounts, p, htick⟩ | ⟨-, p, htick⟩ := t.tick_cases
  · rw [htick]
    cases s with
    | count => exact absurd hcounts (h rfl)
    | control | reload | target | enables => rfl
  · rw [htick]
    cases s <;> rfl

/-- The event leaves the register alone: it stores nothing into it, and COUNT does not move. -/
def Event.Spares (e : Event) (t : Timer) (s : Setting) : Prop :=
  (∀ value, ¬e.Stores s.index value) ∧ (s = .count → e = .tick → ¬t.Counts)

theorem setting_of_spares {t : Timer} {e : Event} {s : Setting} (h : e.Spares t s) :
    (t.undergo e).setting s = t.setting s := by
  cases e with
  | tick => exact t.setting_tick fun hs => h.2 hs rfl
  | load w offset => rfl
  | store w offset value =>
      cases w with
      | byte | halfword => rfl
      | word =>
          exact t.setting_writeWord_of_ne s value fun hindex => h.1 value ⟨offset, rfl, hindex⟩

/-- What has been stored is there until it is overwritten, or COUNT moves. -/
theorem setting_run {before rest : List Event} {e : Event} {s : Setting} {value : Word}
    (hstores : e.Stores s.index value)
    (hrest : ∀ since x more, rest = since ++ x :: more →
      x.Spares (run (before ++ e :: since)) s) :
    (run (before ++ e :: rest)).setting s = value &&& s.bits := by
  induction rest using List.reverseRecOn with
  | nil =>
      rw [run_snoc]
      exact setting_of_stores _ hstores
  | append_singleton rest x ih =>
      have hkept : (run (before ++ e :: rest)).setting s = value &&& s.bits := by
        refine ih fun since y more heq => hrest since y (more ++ [x]) ?_
        rw [heq, List.append_assoc, List.cons_append]
      have hx : x.Spares (run (before ++ e :: rest)) s := hrest rest x [] rfl
      rw [← List.cons_append, ← List.append_assoc, run_snoc, setting_of_spares hx, hkept]

/-! ## Flags -/

/-- The two flags of IP. -/
inductive Flag where
  | onMatch
  | onOverflow

/-- The place of the flag in IP, and of what enables and what clears it in IE and IA. -/
def Flag.place : Flag → Nat
  | onMatch => 1
  | onOverflow => 0

/-- The state of a flag. -/
def flag (t : Timer) : Flag → Bool
  | .onMatch => t.matched
  | .onOverflow => t.overflowed

/-- The next tick counts and sets the flag: it leaves COUNT equal to MATCH, or takes it past its
end. -/
def Raises (t : Timer) : Flag → Prop
  | .onMatch => t.Counts ∧ t.tick.count = t.target
  | .onOverflow => t.Counts ∧ t.count = 0xffffffff

theorem flag_tick (t : Timer) (f : Flag) :
    t.tick.flag f = true ↔ t.Raises f ∨ t.flag f = true := by
  obtain ⟨hcounts, p, htick⟩ | ⟨hcounts, p, htick⟩ := t.tick_cases
  · cases f with
    | onMatch =>
        simp only [flag, Raises, hcounts, true_and, htick]
        exact t.matched_advance.trans or_comm
    | onOverflow =>
        simp only [flag, Raises, hcounts, true_and, htick]
        exact (t.overflowed_advance.trans (or_congr_right t.count_last_iff)).trans or_comm
  · cases f <;> simp only [flag, Raises, hcounts, false_and, false_or, htick] <;> rfl

theorem flag_writeWord (t : Timer) (f : Flag) (offset value : Word) :
    (stateAfter (writeWord offset value t)).flag f = true
      ↔ ¬(registerIndex offset = 6 ∧ value.getLsbD f.place = true) ∧ t.flag f = true := by
  by_cases hindex : registerIndex offset = 6
  · simp only [writeWord, hindex]
    cases f <;> simp [flag, Flag.place, and_comm]
  · rw [and_iff_right fun h => hindex h.1]
    unfold writeWord
    split <;> first | exact absurd ‹_› hindex | cases f <;> rfl

/-- A flag is set after an event that sets it, and after any event that does not clear it if it
was set before. -/
theorem flag_undergo (t : Timer) (f : Flag) (e : Event) : (t.undergo e).flag f = true
    ↔ (e = .tick ∧ t.Raises f) ∨ ¬e.Acknowledges f.place ∧ t.flag f = true := by
  -- Only a store of a word can acknowledge.
  have hother : (∀ offset value, e ≠ .store .word offset value) → ¬e.Acknowledges f.place :=
    fun h ⟨value, ⟨offset, heq, _⟩, _⟩ => h offset value heq
  cases e with
  | tick =>
      refine (t.flag_tick f).trans ?_
      simp [hother]
  | load w offset => simp [hother, undergo]
  | store w offset value =>
      cases w with
      | byte | halfword => simp [hother, undergo]
      | word =>
          have hacknowledges : (Event.store .word offset value).Acknowledges f.place
              ↔ registerIndex offset = 6 ∧ value.getLsbD f.place = true := by
            constructor
            · rintro ⟨_, ⟨_, heq, hindex⟩, hbit⟩
              cases heq
              exact ⟨hindex, hbit⟩
            · rintro ⟨hindex, hbit⟩
              exact ⟨value, ⟨offset, rfl, hindex⟩, hbit⟩
          rw [hacknowledges]
          have hno : ¬(Event.store .word offset value = .tick ∧ t.Raises f) := fun h => by cases h.1
          exact (t.flag_writeWord f offset value).trans (or_iff_right hno).symm

theorem flag_of_not_tick (t : Timer) (f : Flag) {e : Event} (htick : e ≠ .tick)
    (hstores : ∀ value, ¬e.Stores 6 value) : (t.undergo e).flag f = t.flag f := by
  have hclears : ¬e.Acknowledges f.place := fun ⟨value, h, _⟩ => hstores value h
  rw [Bool.eq_iff_iff, flag_undergo, or_iff_right fun h => htick h.1, and_iff_right hclears]

/-- The flag has been set and not been cleared since. -/
def Flagged (f : Flag) : List Event → Prop :=
  Since (fun before e => e = .tick ∧ (run before).Raises f) (¬·.Acknowledges f.place)

theorem flag_run (f : Flag) (history : List Event) :
    (run history).flag f = true ↔ Flagged f history := by
  induction history using List.reverseRecOn with
  | nil => cases f <;> exact ⟨fun h => absurd h Bool.false_ne_true, fun h => absurd h not_since_nil⟩
  | append_singleton history e ih => rw [run_snoc, flag_undergo, ih, Flagged, since_snoc]

theorem getLsbD_flags (onMatch onOverflow : Bool) :
    (flags onMatch onOverflow).getLsbD 1 = onMatch
      ∧ (flags onMatch onOverflow).getLsbD 0 = onOverflow := by
  revert onMatch onOverflow
  decide

theorem readWord_flags (t : Timer) {offset : Word} (h : registerIndex offset = 5) :
    t.readWord offset = .ok (flags t.matched t.overflowed) := by
  rw [readWord, h]
  rfl

/-! ## Interrupts -/

theorem getLsbD_bit (condition : Bool) (place i : Nat) :
    (bit condition place).getLsbD i = (condition && decide (i < 32 ∧ i = place)) := by
  cases condition with
  | false => exact BitVec.getLsbD_zero
  | true =>
      show (BitVec.ofNat 32 (1 <<< place)).getLsbD i = _
      rw [BitVec.getLsbD_ofNat, Nat.one_shiftLeft, Nat.testBit_two_pow]
      simp [eq_comm]

theorem getLsbD_control (t : Timer) : t.control.getLsbD 1 = t.interruptOn := by
  simp only [control, BitVec.getLsbD_or, BitVec.getLsbD_shiftLeft, getLsbD_bit]
  simp

theorem flags_meet (a b c d : Bool) :
    flags a b &&& flags c d ≠ 0 ↔ (a && c || b && d) = true := by
  revert a b c d
  decide

/-- The timer requests an interrupt while CTRL turns interrupts on and IE enables a flag of IP. -/
theorem asserting_iff (t : Timer) : t.asserting = true ↔ t.control.getLsbD 1 = true
    ∧ flags t.matchEnabled t.overflowEnabled &&& flags t.matched t.overflowed ≠ 0 := by
  rw [flags_meet, getLsbD_control, asserting, Bool.and_eq_true]

/-! ## Refusals -/

theorem read_timer (t : Timer) (w : Width) (offset : Word) :
    (w = .word ∧ registerIndex offset < 6)
        ∧ (∃ value, Device.read w offset (.timer t : Device Empty) = .ok value (.timer t))
      ∨ ¬(w = .word ∧ registerIndex offset < 6)
        ∧ ∃ trap, Device.read w offset (.timer t : Device Empty) = .error trap (.timer t) := by
  obtain ⟨hsplits, hread⟩ | ⟨-, hanswers, hread⟩ | ⟨-, hanswers, hread⟩ :=
    Device.read_cases w offset (.timer t)
  · exact .inr ⟨fun h => hsplits.1 h.1, _, hread⟩
  · exact .inl ⟨hanswers, hread⟩
  · exact .inr ⟨hanswers, _, hread⟩

theorem write_timer (t : Timer) (w : Width) (offset : Word) (value : BitVec w.bits) :
    (w = .word ∧ (registerIndex offset < 5 ∨ registerIndex offset = 6))
        ∧ (∃ told d, Device.write w offset value (.timer t : Device Empty) = .ok told d)
      ∨ ¬(w = .word ∧ (registerIndex offset < 5 ∨ registerIndex offset = 6))
        ∧ ∃ trap, Device.write w offset value (.timer t : Device Empty)
          = .error trap (.timer t) := by
  obtain ⟨hsplits, hwrite⟩ | ⟨-, htakes, hwrite⟩ | ⟨-, htakes, hwrite⟩ :=
    Device.write_cases w offset value (.timer t)
  · exact .inr ⟨fun h => hsplits.1 h.1, _, hwrite⟩
  · exact .inl ⟨htakes, hwrite⟩
  · exact .inr ⟨htakes, _, hwrite⟩

/-! ## Registers over a history -/

/-- What the registers of a timer read, whatever it has been through since it was new. A bit of IP
is set just if a tick that counts has set the flag and nothing has cleared it since, and nothing but
ticks and stores into IA has to do with flags. The timer requests an interrupt just while CTRL and
IE let a flag of IP do so. What is stored into another register is read from there, cut to its
bits, until the next such store or until COUNT moves, and no other register shows it. Any access
that is not of a word, or for which there is no such register, is refused and changes nothing. -/
theorem registers_retained :
    (∀ (t : Timer) (e : Event), e.apply (.timer t) = .timer (t.undergo e))
      ∧ (∀ history offset, registerIndex offset = 5 →
          ∃ ip, (run history).readWord offset = .ok ip
            ∧ (ip.getLsbD 1 = true ↔ Flagged .onMatch history)
            ∧ (ip.getLsbD 0 = true ↔ Flagged .onOverflow history))
      ∧ (∀ (t : Timer) (e : Event), e ≠ .tick → (∀ value, ¬e.Stores 6 value) →
          ∀ f, (t.undergo e).flag f = t.flag f)
      ∧ (∀ t : Timer, ∃ ctrl ie ip, t.readWord 0x00 = .ok ctrl ∧ t.readWord 0x10 = .ok ie
          ∧ t.readWord 0x14 = .ok ip
          ∧ ((Device.timer t : Device Empty).asserting = true
              ↔ ctrl.getLsbD 1 = true ∧ ie &&& ip ≠ 0))
      ∧ (∀ (before rest : List Event) (e : Event) (s : Setting) (value : Word),
          e.Stores s.index value →
          (∀ since x more, rest = since ++ x :: more →
            x.Spares (run (before ++ e :: since)) s) →
          ∀ offset, registerIndex offset = s.index →
            (run (before ++ e :: rest)).readWord offset = .ok (value &&& s.bits))
      ∧ (∀ (t : Timer) (e : Event) (s : Setting) (value : Word), e.Stores s.index value →
          ∀ offset, registerIndex offset ≠ s.index →
            (t.undergo e).readWord offset = t.readWord offset)
      ∧ ∀ (t : Timer) (w : Width) (offset : Word),
          ((w = .word ∧ registerIndex offset < 6)
              ∧ (∃ value, Device.read w offset (.timer t : Device Empty) = .ok value (.timer t))
            ∨ ¬(w = .word ∧ registerIndex offset < 6)
              ∧ ∃ trap, Device.read w offset (.timer t : Device Empty) = .error trap (.timer t))
          ∧ ∀ value,
            ((w = .word ∧ (registerIndex offset < 5 ∨ registerIndex offset = 6))
                ∧ (∃ told d, Device.write w offset value (.timer t : Device Empty) = .ok told d)
              ∨ ¬(w = .word ∧ (registerIndex offset < 5 ∨ registerIndex offset = 6))
                ∧ ∃ trap, Device.write w offset value (.timer t : Device Empty)
                  = .error trap (.timer t)) := by
  refine ⟨apply_timer, ?_, fun t e htick hstores f => t.flag_of_not_tick f htick hstores, ?_, ?_,
    fun t e s value h offset hne => t.readWord_of_stores h hne,
    fun t w offset => ⟨t.read_timer w offset, t.write_timer w offset⟩⟩
  · intro history offset hindex
    obtain ⟨hmatch, hoverflow⟩ := getLsbD_flags (run history).matched (run history).overflowed
    refine ⟨_, readWord_flags _ hindex, ?_, ?_⟩
    · rw [hmatch]
      exact flag_run .onMatch history
    · rw [hoverflow]
      exact flag_run .onOverflow history
  · intro t
    refine ⟨_, _, _, t.readWord_setting .control rfl, t.readWord_setting .enables rfl,
      t.readWord_flags rfl, ?_⟩
    exact t.asserting_iff
  · intro before rest e s value hstores hrest offset hindex
    rw [readWord_setting _ s hindex, setting_run hstores hrest]

/-- MATCH still reads what was stored into it before the ticks, two stores into CTRL, an
acknowledgement and a store that was refused. -/
theorem registers_retained_stopped :
    let stores (offset value : Word) : Event := .store .word offset value
    let rest := [stores 0x00 0x81, .tick, .tick, stores 0x18 0x2, .store .byte 0x0c 0x7,
      stores 0x00 0xf0]
    let history := stores 0x0c 0x2 :: rest
    (stores 0x0c 0x2).Stores Setting.target.index 0x2
      ∧ (∀ since x more, rest = since ++ x :: more →
          x.Spares (run ([] ++ stores 0x0c 0x2 :: since)) .target)
      ∧ (run history).readWord 0x0c = .ok 0x2
      ∧ registerIndex 0x14 ≠ Setting.target.index
      ∧ ((run history).undergo (stores 0x0c 0x2)).readWord 0x14 = (run history).readWord 0x14
      ∧ stores 0x0c 0x2 ≠ .tick ∧ (∀ value, ¬(stores 0x0c 0x2).Stores 6 value)
      ∧ ((run history).undergo (stores 0x0c 0x2)).flag .onMatch = (run history).flag .onMatch := by
  intro stores rest history
  have hstores : (stores 0x0c 0x2).Stores Setting.target.index 0x2 := ⟨0x0c, rfl, rfl⟩
  have hspares : ∀ since x more, rest = since ++ x :: more →
      x.Spares (run ([] ++ stores 0x0c 0x2 :: since)) .target := by
    intro since x more hrest
    refine ⟨?_, nofun⟩
    rintro value ⟨offset, rfl, hindex⟩
    have hmem : Event.store .word offset value ∈ rest := by
      rw [hrest]
      exact List.mem_append_right _ List.mem_cons_self
    simp only [rest, stores, List.mem_cons, reduceCtorEq, false_or, List.not_mem_nil,
      or_false] at hmem
    rcases hmem with h | h | h | h <;> cases h <;> exact absurd hindex (by decide)
  have hindex : registerIndex 0x14 ≠ Setting.target.index := by decide
  have hclears : ∀ value, ¬(stores 0x0c 0x2).Stores 6 value := by
    rintro value ⟨offset, h, hindex⟩
    cases h
    exact absurd hindex (by decide)
  obtain ⟨-, -, hflags, -, hkept, hothers, -⟩ := registers_retained
  exact ⟨hstores, hspares, hkept [] rest _ .target 0x2 hstores hspares 0x0c rfl, hindex,
    hothers _ _ .target 0x2 hstores 0x14 hindex, nofun, hclears,
    hflags _ (stores 0x0c 0x2) nofun hclears .onMatch⟩

end Rv32Soc.Timer
