import Rv32Soc.Proofs.Arbitration
import Rv32Soc.Proofs.PendingLines

/-!
# Deliveries one after the other

The current line is the one that was delivered last and has neither been
acknowledged nor reset since. Nothing else ends it: it may be masked, its
priority may be changed, and other lines may be acknowledged. It stays pending
as long as it is current, since what would clear its flag also ends it.

Hence a delivery that finds a current line does not deliver that line again,
and as the current line is pending, it would have been a candidate unless it
is masked: what is delivered over it outranks it.
-/

namespace Rv32Soc.InterruptController

variable {c : InterruptController} {l m : Line}

/-- The line that an operation delivers, if it delivers one. -/
def Operation.delivered? (c : InterruptController) : Operation → Option Line
  | dispatch listening => (c.dispatch listening).1
  | _ => none

/-! ## The current line -/

/-- The current line is pending. -/
def CurrentPending (c : InterruptController) : Prop :=
  ∀ l, c.current = some l → c.pending l = true

theorem dispatch_delivers {listening : Bool} (h : (c.dispatch listening).1 = some l) :
    c.next? = some l ∧ c.current ≠ some l ∧ (c.dispatch listening).2.current = some l := by
  obtain ⟨l', -, -, hnext, hcurrent, heq⟩ | ⟨heq, -⟩ := c.dispatch_cases listening
  · rw [heq] at h ⊢
    cases h
    exact ⟨hnext, hcurrent, rfl⟩
  · rw [heq] at h
    cases h

theorem current_onLine (line : Nat) {f : Line → InterruptController}
    (hf : ∀ l, (f l).current = c.current) : (c.onLine line f).current = c.current := by
  unfold onLine
  split
  · exact hf _
  · rfl

theorem current_assert (c : InterruptController) (l : Line) :
    (c.assert l).current = c.current := by
  unfold assert
  split <;> rfl

theorem current_poll (c : InterruptController) (asserting : Nat → Bool) :
    (c.poll asserting).current = c.current :=
  List.foldlRecOn _ assert (motive := fun c' => c'.current = c.current) rfl
    fun c' h l _ => (c'.current_assert l).trans h

theorem current_acknowledge (h : c.CurrentPending) (l m : Line) :
    (c.acknowledge l).1.current = some m ↔ l ≠ m ∧ c.current = some m := by
  unfold acknowledge
  split
  · show (if c.current = some l then none else c.current) = some m ↔ _
    split
    · next hcurrent => simp [hcurrent]
    · next hcurrent =>
        refine ⟨fun hm => ⟨?_, hm⟩, And.right⟩
        rintro rfl
        exact hcurrent hm
  · next hpending =>
      -- What is not pending is not current either.
      refine ⟨fun hm => ⟨?_, hm⟩, And.right⟩
      rintro rfl
      exact hpending (h l hm)

theorem currentPending_acknowledge (h : c.CurrentPending) (l : Line) :
    (c.acknowledge l).1.CurrentPending := by
  intro m hm
  obtain ⟨hne, hcurrent⟩ := (current_acknowledge h l m).mp hm
  exact (c.pending_acknowledge l m).mpr ⟨hne, h m hcurrent⟩

theorem current_acknowledgeAll (h : c.CurrentPending) (lines : List Line) (m : Line) :
    (c.acknowledgeAll lines).1.current = some m ↔ m ∉ lines ∧ c.current = some m := by
  induction lines generalizing c with
  | nil => exact ⟨fun hm => ⟨List.not_mem_nil, hm⟩, And.right⟩
  | cons l rest ih =>
      refine (ih (currentPending_acknowledge h l)).trans ?_
      rw [current_acknowledge h, List.mem_cons, not_or, ← and_assoc, and_comm (a := m ∉ rest),
        ne_comm]

theorem current_writeWord (h : c.CurrentPending) (offset value : Word) (m : Line) :
    (stateAfter (writeWord offset value c)).current = some m
      ↔ ¬(registerIndex offset = 3 ∧ value.getLsbD m = true) ∧ c.current = some m := by
  unfold writeWord
  split
  · next hindex => simp [hindex, setMasterEnable]
  · next hindex => simp [hindex, setEnables]
  · next hindex =>
      refine (current_acknowledgeAll h _ m).trans ?_
      simp [hindex]
  · next hindex =>
      have hother : ¬(registerIndex offset = 3 ∧ value.getLsbD m = true) :=
        fun hiar => hindex hiar.1
      split <;> exact (and_iff_right hother).symm

/-- The current line is the one that has just been delivered; or it was current before, and the
operation neither cleared it nor delivered another. -/
theorem current_apply (h : c.CurrentPending) (op : Operation) (m : Line) :
    (op.apply c).current = some m ↔ op.delivered? c = some m
      ∨ op.delivered? c = none ∧ ¬op.Clears m ∧ c.current = some m := by
  -- What neither delivers nor clears leaves the current line.
  have hother : op.delivered? c = none → ¬op.Clears m → (op.apply c).current = c.current →
      ((op.apply c).current = some m ↔ op.delivered? c = some m
        ∨ op.delivered? c = none ∧ ¬op.Clears m ∧ c.current = some m) := by
    intro hnone hclears hkept
    simp [hnone, hclears, hkept]
  cases op with
  | setMasterEnable _ | readWord _ => exact hother rfl (by rintro (h | h) <;> cases h) rfl
  | setEnabled line enable | setPriority line priority | register slot line =>
      exact hother rfl (by rintro (h | h) <;> cases h) (current_onLine line fun l => rfl)
  | assert line =>
      exact hother rfl (by rintro (h | h) <;> cases h) (current_onLine line c.current_assert)
  | poll asserting =>
      exact hother rfl (by rintro (h | h) <;> cases h) (c.current_poll asserting)
  | reset => simp [Operation.apply, Operation.delivered?, Operation.Clears, reset]
  | dispatch listening =>
      simp only [Operation.apply, Operation.delivered?, Operation.Clears, Operation.Acknowledges,
        reduceCtorEq, or_self, not_false_eq_true, true_and]
      obtain ⟨l, -, -, -, -, heq⟩ | ⟨heq, -⟩ := c.dispatch_cases listening <;> simp [heq]
  | acknowledge line =>
      simp only [Operation.apply, Operation.delivered?, Operation.Clears, Operation.Acknowledges,
        onLine, reduceCtorEq, false_or, true_and]
      cases hline : lineOfNat line with
      | ok l => rw [lineOfNat_eq_ok.mp hline, ← Fin.ext_iff]; exact current_acknowledge h l m
      | error e =>
          have hne : line ≠ m := fun heq => by rw [lineOfNat_eq_ok.mpr heq] at hline; cases hline
          simp [hne]
  | writeWord offset value =>
      simp only [Operation.delivered?, Operation.Clears, Operation.Acknowledges, reduceCtorEq,
        false_or, true_and]
      exact current_writeWord h offset value m

theorem currentPending_apply (h : c.CurrentPending) (op : Operation) :
    (op.apply c).CurrentPending := by
  intro m hm
  obtain hdelivered | ⟨-, hclears, hcurrent⟩ := (current_apply h op m).mp hm
  · cases op with
    | dispatch listening =>
        have hnext := (dispatch_delivers hdelivered).1
        exact (c.pending_dispatch listening m).trans
          (mem_candidates.mp (next?_eq_some.mp hnext).2.1).1
    | _ => cases hdelivered
  · exact (c.pending_apply op m).mpr (.inr ⟨hclears, h m hcurrent⟩)

theorem currentPending_perform (ops : List Operation) : (perform {} ops).CurrentPending := by
  induction ops using List.reverseRecOn with
  | nil => exact nofun
  | append_singleton ops op ih =>
      rw [perform_append]
      exact currentPending_apply ih op

/-! ## Deliveries -/

theorem outranks_of_dispatch (h : c.CurrentPending) {listening : Bool}
    (hl : (c.dispatch listening).1 = some l) (hm : c.current = some m)
    (henabled : c.enabled m = true) : c.Outranks l m := by
  obtain ⟨hnext, hcurrent, -⟩ := dispatch_delivers hl
  have hcandidate := mem_candidates.mpr ⟨h m hm, henabled⟩
  refine (next?_eq_some.mp hnext).2.2 m hcandidate ?_
  rintro rfl
  exact hcurrent hm

theorem current_delivered {op : Operation} (h : op.delivered? c = some l) :
    c.current ≠ some l ∧ (op.apply c).current = some l := by
  cases op with
  | dispatch listening => exact (dispatch_delivers h).2
  | _ => cases h

/-- The operation, done after this history, ends the delivery of a line: it clears the line or
delivers another. -/
def Operation.Ends (l : Line) (history : List Operation) (op : Operation) : Prop :=
  op.Clears l ∨ ∃ l', l' ≠ l ∧ op.delivered? (perform {} history) = some l'

theorem current_or_ended (history : List Operation) (op : Operation)
    (h : (perform {} history).current = some l) :
    (perform {} (history ++ [op])).current = some l ∨ op.Ends l history := by
  rw [perform_append]
  by_cases hclears : op.Clears l
  · exact .inr (.inl hclears)
  · cases hdelivered : op.delivered? (perform {} history) with
    | none =>
        exact .inl ((current_apply (currentPending_perform history) op l).mpr
          (.inr ⟨hdelivered, hclears, h⟩))
    | some l' =>
        refine .inr (.inr ⟨l', ?_, hdelivered⟩)
        rintro rfl
        exact (current_delivered hdelivered).1 h

/-- Deliveries keep discipline, whatever is done to a controller and in whatever order. The
current line is pending, and whatever acknowledges it leaves none. What is delivered over a
current line that is enabled outranks it. And a line is delivered a second time only if meanwhile
it has been cleared or another line delivered. -/
theorem deliveries_disciplined :
    (∀ ops l, (perform {} ops).current = some l →
        l.val < 32 ∧ (perform {} ops).pending l = true
          ∧ ∀ op : Operation, op.Acknowledges l → (op.apply (perform {} ops)).current = none)
      ∧ (∀ ops listening l m, ((perform {} ops).dispatch listening).1 = some l →
        (perform {} ops).current = some m → (perform {} ops).enabled m = true →
        (perform {} ops).Outranks l m)
      ∧ ∀ before first middle second l, first.delivered? (perform {} before) = some l →
        Operation.delivered? (perform {} (before ++ first :: middle)) second = some l →
        ∃ more op rest, middle = more ++ op :: rest ∧ op.Ends l (before ++ first :: more) := by
  refine ⟨?_, fun ops _ _ _ => outranks_of_dispatch (currentPending_perform ops), ?_⟩
  · intro ops l hl
    have hcurrent := currentPending_perform ops
    refine ⟨l.isLt, hcurrent l hl, ?_⟩
    intro op hop
    -- Nothing that acknowledges a line delivers one.
    have hnone : op.delivered? (perform {} ops) = none := by cases op <;> first | rfl | cases hop
    refine Option.eq_none_iff_forall_ne_some.mpr fun m hm => ?_
    obtain hdelivered | ⟨-, hclears, hkept⟩ := (current_apply hcurrent op m).mp hm
    · rw [hnone] at hdelivered
      cases hdelivered
    · rw [hl] at hkept
      cases hkept
      exact hclears (.inr hop)
  · intro before first middle second l hfirst hsecond
    have hstart : (perform {} (before ++ [first])).current = some l := by
      rw [perform_append]
      exact (current_delivered hfirst).2
    obtain hkept | ⟨more, op, rest, heq, hended⟩ :=
      kept_or_ended current_or_ended hstart middle
    · rw [List.append_assoc, List.singleton_append] at hkept
      exact absurd hkept (current_delivered hsecond).1
    · rw [List.append_assoc, List.singleton_append] at hended
      exact ⟨more, op, rest, heq, hended⟩

/-- Line 9 preempts line 4, and after its acknowledgement line 4 is delivered again. -/
def preemption : List Operation :=
  [.setMasterEnable true, .writeWord 0x004 0x210, .setPriority 4 10, .setPriority 9 1, .assert 4,
    .dispatch true, .assert 9, .dispatch true, .acknowledge 9]

theorem deliveries_disciplined_preemption :
    ((perform {} preemption).dispatch true).1 = some 4
      ∧ (perform {} (preemption.take 7)).Outranks 9 4
      ∧ ∃ more op rest, preemption.drop 6 = more ++ op :: rest
        ∧ op.Ends 4 (preemption.take 5 ++ .dispatch true :: more) :=
  ⟨by decide +kernel,
    deliveries_disciplined.2.1 (preemption.take 7) true 9 4 (by decide +kernel)
      (by decide +kernel) (by decide +kernel),
    deliveries_disciplined.2.2 (preemption.take 5) (.dispatch true) (preemption.drop 6)
      (.dispatch true) 4 (by decide +kernel) (by decide +kernel)⟩

end Rv32Soc.InterruptController
