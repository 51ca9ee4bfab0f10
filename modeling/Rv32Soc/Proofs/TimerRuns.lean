import Mathlib.Logic.Function.Iterate
import Rv32Soc.Proofs.Slots

/-!
# A timer that is left alone

Between two accesses to its registers a timer only ticks, and then its whole
state can be told from the number of ticks. The prescaler turns ticks into
counts, and nothing else looks at it; so the state after some ticks is that
after some counts, with another prescaler counter. How many counts there have
been is a quotient and the new prescaler counter is the remainder, once the
counter is below the period. It may be above, when software has chosen a
shorter period in the meantime: then the first tick counts, whatever the
period, and the rest is as from zero.

COUNT goes up to the last word and from then on round a cycle, which is
shorter than the range of words by the value that it restarts from. The two
flags tell of the past: the overflow that the end has been reached, the match
that COUNT has come to the target.
-/

namespace Rv32Soc

/-- One more is one more remainder, or one more quotient and no remainder. -/
theorem div_mod_succ {n m : Nat} (hm : 0 < m) :
    n % m + 1 < m ∧ (n + 1) / m = n / m ∧ (n + 1) % m = n % m + 1
      ∨ n % m + 1 = m ∧ (n + 1) / m = n / m + 1 ∧ (n + 1) % m = 0 := by
  have hsplit : n % m + m * (n / m) = n := Nat.mod_add_div n m
  obtain hlt | heq := Nat.lt_or_eq_of_le (Nat.mod_lt n hm)
  · have hunique := (Nat.div_mod_unique (a := n + 1) (d := n / m) (c := n % m + 1) hm).mpr
      ⟨by omega, hlt⟩
    exact .inl ⟨hlt, hunique⟩
  · have hunique := (Nat.div_mod_unique (a := n + 1) (d := n / m + 1) (c := 0) hm).mpr
      ⟨by rw [Nat.mul_succ]; omega, hm⟩
    exact .inr ⟨heq, hunique⟩

namespace Timer

/-! ## From ticks to counts -/

/-- The number of counts that a running timer makes in some ticks. -/
def counts (t : Timer) (n : Nat) : Nat :=
  if t.prescaled then
    if t.prescaler < t.period then (t.prescaler + n) / t.period
    else if n = 0 then 0
    else 1 + (n - 1) / t.period
  else n

/-- The prescaler counter of a running timer after some ticks. -/
def prescalerAfter (t : Timer) (n : Nat) : Nat :=
  if t.prescaled then
    if t.prescaler < t.period then (t.prescaler + n) % t.period
    else if n = 0 then t.prescaler
    else (n - 1) % t.period
  else t.prescaler

theorem period_pos (t : Timer) : 0 < t.period := by
  rw [period, Nat.shiftLeft_eq]
  exact Nat.mul_pos (by decide) (Nat.two_pow_pos _)

theorem period_le (t : Timer) : t.period ≤ 256 := by
  have hlt : t.select.toNat < 8 := t.select.isLt
  rw [period, Nat.shiftLeft_eq]
  exact Nat.mul_le_mul_left 2 (Nat.pow_le_pow_right (by decide) (Nat.le_of_lt_succ hlt))

/-- The timer with another count of its prescaler. -/
def withPrescaler (t : Timer) (p : Nat) : Timer :=
  { t with prescaler := p }

/-- All that software has set is the same. -/
structure SameSettings (t t' : Timer) : Prop where
  select : t'.select = t.select
  autoReload : t'.autoReload = t.autoReload
  prescaled : t'.prescaled = t.prescaled
  interruptOn : t'.interruptOn = t.interruptOn
  running : t'.running = t.running
  reload : t'.reload = t.reload
  target : t'.target = t.target
  matchEnabled : t'.matchEnabled = t.matchEnabled
  overflowEnabled : t'.overflowEnabled = t.overflowEnabled

theorem SameSettings.refl (t : Timer) : SameSettings t t :=
  ⟨rfl, rfl, rfl, rfl, rfl, rfl, rfl, rfl, rfl⟩

theorem SameSettings.advance {t t' : Timer} (h : SameSettings t t') :
    SameSettings t t'.advance :=
  ⟨h.select, h.autoReload, h.prescaled, h.interruptOn, h.running, h.reload, h.target,
    h.matchEnabled, h.overflowEnabled⟩

theorem SameSettings.withPrescaler {t t' : Timer} (h : SameSettings t t') (p : Nat) :
    SameSettings t (t'.withPrescaler p) :=
  ⟨h.select, h.autoReload, h.prescaled, h.interruptOn, h.running, h.reload, h.target,
    h.matchEnabled, h.overflowEnabled⟩

theorem SameSettings.period {t t' : Timer} (h : SameSettings t t') : t'.period = t.period := by
  rw [Timer.period, h.select, Timer.period]

/-- Counting changes no settings, and has no eye for the prescaler counter. -/
theorem counts_sameSettings (t : Timer) (k : Nat) :
    SameSettings t (advance^[k] t) ∧ (advance^[k] t).prescaler = t.prescaler := by
  induction k with
  | zero => exact ⟨.refl t, rfl⟩
  | succ k ih =>
      rw [Function.iterate_succ_apply']
      exact ⟨ih.1.advance, ih.2⟩

theorem tick_stopped {t : Timer} (h : t.running = false) : t.tick = t := by
  rw [tick, h]
  rfl

theorem tick_running {t : Timer} (h : t.running = true) : t.tick
    = if t.prescaled then
        if t.period ≤ t.prescaler + 1 then t.advance.withPrescaler 0
        else t.withPrescaler (t.prescaler + 1)
      else t.advance := by
  rw [tick, if_pos h]
  rfl

theorem ticks_unprescaled {t : Timer} (h : t.running = true) (hfree : t.prescaled = false)
    (n : Nat) : tick^[n] t = advance^[n] t := by
  induction n with
  | zero => rfl
  | succ n ih =>
      obtain ⟨hsame, -⟩ := counts_sameSettings t n
      rw [Function.iterate_succ_apply', Function.iterate_succ_apply', ih,
        tick_running (hsame.running.trans h), hsame.prescaled, hfree]
      rfl

section Prescaled

variable {t : Timer} (h : t.running = true) (hprescaled : t.prescaled = true)

include h hprescaled

theorem tick_withPrescaler (k p : Nat) : tick ((advance^[k] t).withPrescaler p)
    = if t.period ≤ p + 1 then (advance^[k + 1] t).withPrescaler 0
      else (advance^[k] t).withPrescaler (p + 1) := by
  have hsame := (counts_sameSettings t k).1.withPrescaler p
  rw [Function.iterate_succ_apply', tick_running (hsame.running.trans h), hsame.prescaled,
    if_pos hprescaled, hsame.period]
  rfl

/-- From a counter below the period on, a quotient is the number of counts. -/
theorem ticks_withPrescaler (k : Nat) {p : Nat} (hp : p < t.period) (n : Nat) :
    tick^[n] ((advance^[k] t).withPrescaler p)
      = (advance^[k + (p + n) / t.period] t).withPrescaler ((p + n) % t.period) := by
  induction n with
  | zero =>
      rw [Nat.add_zero, Nat.div_eq_of_lt hp, Nat.mod_eq_of_lt hp]
      rfl
  | succ n ih =>
      rw [Function.iterate_succ_apply', ih, tick_withPrescaler h hprescaled, ← Nat.add_assoc]
      obtain ⟨hroom, hdiv, hmod⟩ | ⟨hfull, hdiv, hmod⟩ := div_mod_succ (n := p + n) t.period_pos
      · rw [if_neg (Nat.not_le.mpr hroom), hdiv, hmod]
      · rw [if_pos (Nat.le_of_eq hfull.symm), hdiv, hmod, Nat.add_assoc]

end Prescaled

/-- Ticks are counts, but for the prescaler counter. -/
theorem ticks_eq {t : Timer} (h : t.running = true) (n : Nat) :
    tick^[n] t = (advance^[t.counts n] t).withPrescaler (t.prescalerAfter n) := by
  unfold counts prescalerAfter
  cases hprescaled : t.prescaled with
  | false =>
      obtain ⟨-, hkept⟩ := counts_sameSettings t n
      rw [ticks_unprescaled h hprescaled]
      exact congrArg (withPrescaler _) hkept
  | true =>
      simp only [if_true]
      split
      · next hbelow =>
          have hticks := ticks_withPrescaler h hprescaled 0 hbelow n
          rw [Nat.zero_add] at hticks
          exact hticks
      · next habove =>
          cases n with
          | zero => rfl
          | succ n =>
              -- The first tick counts, and leaves a counter that is below any period.
              have hfirst := tick_withPrescaler h hprescaled 0 t.prescaler
              rw [if_pos (by omega)] at hfirst
              have hticks := ticks_withPrescaler h hprescaled 1 t.period_pos n
              rw [Nat.zero_add] at hticks
              exact (congrArg tick^[n] hfirst).trans hticks

/-! ## Counts -/

/-- What COUNT holds after some counts from `start`, if it goes on from `restart` at the end. -/
def counted (start restart k : Nat) : Nat :=
  if start + k < wordCount then start + k
  else restart + (start + k - wordCount) % (wordCount - restart)

theorem counted_zero {start : Nat} (h : start < wordCount) (restart : Nat) :
    counted start restart 0 = start := by
  rw [counted, Nat.add_zero, if_pos h]

theorem counted_succ {start restart : Nat} (hrestart : restart < wordCount) (k : Nat) :
    counted start restart (k + 1) = if counted start restart k + 1 = wordCount then restart
      else counted start restart k + 1 := by
  unfold counted
  rw [← Nat.add_assoc]
  generalize start + k = n
  by_cases hlt : n + 1 < wordCount
  · rw [if_pos hlt, if_pos (show n < wordCount by omega), if_neg (by omega)]
  · by_cases heq : n + 1 = wordCount
    · rw [if_neg hlt, if_pos (show n < wordCount by omega), if_pos heq, heq, Nat.sub_self,
        Nat.zero_mod, Nat.add_zero]
    · -- Past the first restart the count goes round a cycle.
      have hpast : n + 1 - wordCount = n - wordCount + 1 := by omega
      rw [if_neg hlt, if_neg (show ¬n < wordCount by omega), hpast]
      obtain ⟨hroom, -, hmod⟩ | ⟨hfull, -, hmod⟩ :=
        div_mod_succ (n := n - wordCount) (show 0 < wordCount - restart by omega)
      · rw [if_neg (by omega), hmod, Nat.add_assoc]
      · rw [if_pos (by omega), hmod, Nat.add_zero]

/-- What COUNT restarts from. -/
def restart (t : Timer) : Word :=
  if t.autoReload then t.reload else 0

theorem SameSettings.restart {t t' : Timer} (h : SameSettings t t') : t'.restart = t.restart := by
  rw [Timer.restart, h.autoReload, h.reload, Timer.restart]

theorem count_last_iff (t : Timer) :
    t.count.toNat + 1 = wordCount ↔ t.count = BitVec.allOnes 32 := by
  rw [← BitVec.toNat_inj]
  exact Nat.succ_inj

theorem count_advance (t : Timer) : t.advance.count.toNat
    = if t.count.toNat + 1 = wordCount then t.restart.toNat else t.count.toNat + 1 := by
  simp only [count_last_iff, advance, beq_iff_eq]
  split
  · rfl
  · next hnot =>
      have hlt : t.count.toNat < wordCount := t.count.isLt
      have hadd : (t.count + 1).toNat = (t.count.toNat + 1) % wordCount := BitVec.toNat_add _ _
      rw [← count_last_iff] at hnot
      rw [hadd, Nat.mod_eq_of_lt (by omega)]

theorem overflowed_advance (t : Timer) :
    t.advance.overflowed = true ↔ t.overflowed = true ∨ t.count.toNat + 1 = wordCount := by
  rw [count_last_iff, advance, Bool.or_eq_true, beq_iff_eq]

theorem matched_advance (t : Timer) :
    t.advance.matched = true ↔ t.matched = true ∨ t.advance.count = t.target := by
  simp only [advance, Bool.or_eq_true, beq_iff_eq]

/-- COUNT after some counts. -/
theorem count_counts (t : Timer) (k : Nat) :
    (advance^[k] t).count.toNat = counted t.count.toNat t.restart.toNat k := by
  induction k with
  | zero => exact (counted_zero t.count.isLt _).symm
  | succ k ih =>
      obtain ⟨hsame, -⟩ := counts_sameSettings t k
      rw [Function.iterate_succ_apply', count_advance, ih, hsame.restart,
        counted_succ t.restart.isLt]

theorem overflowed_counts (t : Timer) (k : Nat) : (advance^[k] t).overflowed = true
    ↔ t.overflowed = true ∨ wordCount ≤ t.count.toNat + k := by
  induction k with
  | zero =>
      have hlt : t.count.toNat < wordCount := t.count.isLt
      exact ⟨.inl, fun h => h.resolve_right (Nat.not_le.mpr hlt)⟩
  | succ k ih =>
      rw [Function.iterate_succ_apply', overflowed_advance, ih, count_counts, or_assoc]
      refine or_congr_right ?_
      -- Only before the first restart does it matter that the end is reached.
      by_cases hlt : t.count.toNat + k < wordCount
      · rw [counted, if_pos hlt]
        omega
      · exact ⟨fun _ => by omega, fun _ => .inl (by omega)⟩

theorem matched_counts (t : Timer) (k : Nat) : (advance^[k] t).matched = true
    ↔ t.matched = true ∨ ∃ j, 0 < j ∧ j ≤ k
      ∧ counted t.count.toNat t.restart.toNat j = t.target.toNat := by
  induction k with
  | zero => exact ⟨.inl, fun h => h.resolve_right fun ⟨j, hpos, hle, _⟩ => by omega⟩
  | succ k ih =>
      obtain ⟨hsame, -⟩ := counts_sameSettings t k
      have hcount : (advance^[k] t).advance.count = t.target
          ↔ counted t.count.toNat t.restart.toNat (k + 1) = t.target.toNat := by
        rw [← count_counts, BitVec.toNat_inj, Function.iterate_succ_apply']
      rw [Function.iterate_succ_apply', matched_advance, ih, hsame.target, hcount, or_assoc]
      refine or_congr_right ⟨?_, ?_⟩
      · rintro (⟨j, hpos, hle, heq⟩ | heq)
        · exact ⟨j, hpos, by omega, heq⟩
        · exact ⟨k + 1, by omega, by omega, heq⟩
      · rintro ⟨j, hpos, hle, heq⟩
        obtain hlt | rfl := Nat.lt_or_eq_of_le hle
        · exact .inl ⟨j, hpos, by omega, heq⟩
        · exact .inr heq

/-! ## Runs of a timer -/

/-- What happens to a timer: a tick, or the store of a word to one of its registers. -/
inductive Operation where
  | tick
  | write (offset value : Word)

/-- The timer after an operation. A write that is refused leaves it as it was. -/
def perform (t : Timer) : Operation → Timer
  | .tick => t.tick
  | .write offset value => stateAfter (writeWord offset value t)

/-- A new timer after some operations. -/
def after (operations : List Operation) : Timer :=
  operations.foldl perform {}

theorem writeWord_prescaler (offset value : Word) (t : Timer) :
    (stateAfter (writeWord offset value t)).prescaler = t.prescaler := by
  unfold writeWord
  split <;> rfl

theorem tick_prescaler_lt {t : Timer} (h : t.prescaler < 256) : t.tick.prescaler < 256 := by
  cases hrunning : t.running with
  | false => rwa [tick_stopped hrunning]
  | true =>
      rw [tick_running hrunning]
      split
      · split
        · exact (by decide : 0 < 256)
        · next hroom => exact Nat.lt_of_lt_of_le (Nat.not_le.mp hroom) t.period_le
      · exact h

theorem after_prescaler_lt (operations : List Operation) :
    (after operations).prescaler < 256 := by
  have hnew : ({} : Timer).prescaler < 256 := by decide
  refine operations.foldlRecOn (motive := fun t => t.prescaler < 256) perform hnew
    fun t h operation _ => ?_
  cases operation with
  | tick => exact tick_prescaler_lt h
  | write offset value =>
      rw [perform, writeWord_prescaler]
      exact h

/-- After some ticks a timer has counted `k` times and its prescaler counter is `p`. -/
structure Ticked (t : Timer) (k p : Nat) (t' : Timer) : Prop where
  settings : SameSettings t t'
  prescaler : t'.prescaler = p
  count : t'.count.toNat = counted t.count.toNat t.restart.toNat k
  overflowed : t'.overflowed = true ↔ t.overflowed = true ∨ wordCount ≤ t.count.toNat + k
  matched : t'.matched = true ↔ t.matched = true
    ∨ ∃ j, 0 < j ∧ j ≤ k ∧ counted t.count.toNat t.restart.toNat j = t.target.toNat

/-- The state of a timer that is left alone, in closed form. A stopped one stays as it is; and
whatever a timer has been through, its prescaler counter is less than the longest period, and
COUNT goes up by one wherever it does not restart. -/
theorem ticks_closed_form :
    (∀ (t : Timer) (n : Nat), t.running = true →
        t.Ticked (t.counts n) (t.prescalerAfter n) (tick^[n] t))
      ∧ (∀ (t : Timer) (n : Nat), t.running = false → tick^[n] t = t)
      ∧ ∀ operations, (after operations).prescaler ≤ 255
        ∧ ((after operations).count ≠ BitVec.allOnes 32 →
          (after operations).advance.count.toNat = (after operations).count.toNat + 1) := by
  refine ⟨?_, ?_, ?_⟩
  · intro t n h
    rw [ticks_eq h]
    exact ⟨(counts_sameSettings t _).1.withPrescaler _, rfl, count_counts t _,
      overflowed_counts t _, matched_counts t _⟩
  · intro t n h
    exact Function.iterate_fixed (tick_stopped h) n
  · intro operations
    refine ⟨Nat.le_of_lt_succ (after_prescaler_lt operations), fun hcount => ?_⟩
    rw [count_advance, if_neg fun hlast => hcount ((count_last_iff _).mp hlast)]

/-- A timer whose period has been cut from eight to two after five ticks, at the end of its
range. -/
def shortened : Timer :=
  after ([.write 0x00 0x2d] ++ List.replicate 5 .tick
    ++ [.write 0x00 0x0d, .write 0x04 0xffffffff, .write 0x08 0xfffffffe, .write 0x0c 0xffffffff])

theorem ticks_closed_form_shortened : shortened.running = true ∧ shortened.prescaler = 5
    ∧ shortened.Ticked 2 1 (tick^[4] shortened) ∧ (tick^[4] shortened).count = 0xffffffff
    ∧ (tick^[4] shortened).overflowed = true ∧ (tick^[4] shortened).matched = true := by
  have hrunning : shortened.running = true := by decide
  have hcounts : shortened.counts 4 = 2 ∧ shortened.prescalerAfter 4 = 1 := by decide
  have hticked := ticks_closed_form.1 shortened 4 hrunning
  rw [hcounts.1, hcounts.2] at hticked
  refine ⟨hrunning, by decide, hticked, ?_, ?_, ?_⟩
  · exact BitVec.eq_of_toNat_eq hticked.count
  · exact hticked.overflowed.mpr (.inr (by decide))
  · exact hticked.matched.mpr (.inr ⟨2, by decide, by decide, by decide⟩)

end Timer

end Rv32Soc
