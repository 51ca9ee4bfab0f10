import Rv32Soc.Proofs.Dispatch
import Rv32Soc.Proofs.Histories

/-!
# What makes a line pending

The pending flag of a line is a latch. A request sets it: the line is asserted
by the host, or a poll finds a source on it that requests an interrupt. An
acknowledgement of the line or a reset clears it, and nothing else touches it,
neither masks nor priorities nor deliveries. So whether a line is pending can
be told from the history alone, without a look at the controller: it has been
requested, and not been cleared since.

What a poll finds depends on the sources that are registered by then, and
these too are told from the history.
-/

namespace Rv32Soc.InterruptController

/-! ## Sources -/

theorem sources_assert (c : InterruptController) (l : Line) :
    (c.assert l).sources = c.sources := by
  unfold assert
  split <;> rfl

theorem sources_acknowledge (c : InterruptController) (l : Line) :
    (c.acknowledge l).1.sources = c.sources := by
  unfold acknowledge
  split <;> rfl

theorem sources_acknowledgeAll (c : InterruptController) (lines : List Line) :
    (c.acknowledgeAll lines).1.sources = c.sources := by
  induction lines generalizing c with
  | nil => rfl
  | cons l rest ih => exact (ih (c.acknowledge l).1).trans (c.sources_acknowledge l)

theorem sources_poll (c : InterruptController) (asserting : Nat → Bool) :
    (c.poll asserting).sources = c.sources :=
  List.foldlRecOn _ assert (motive := fun c' => c'.sources = c.sources) rfl
    fun c' h l _ => (c'.sources_assert l).trans h

theorem sources_dispatch (c : InterruptController) (listening : Bool) :
    (c.dispatch listening).2.sources = c.sources := by
  obtain ⟨l, -, -, -, -, heq⟩ | ⟨heq, -⟩ := c.dispatch_cases listening <;> rw [heq]

theorem sources_writeWord (offset value : Word) (c : InterruptController) :
    (stateAfter (writeWord offset value c)).sources = c.sources := by
  unfold writeWord
  split
  · rfl
  · rw [stateAfter_ok, setEnables]
  · exact c.sources_acknowledgeAll _
  · split <;> rfl

theorem sources_onLine (c : InterruptController) (line : Nat) {f : Line → InterruptController}
    (hf : ∀ l, (f l).sources = c.sources) : (c.onLine line f).sources = c.sources := by
  unfold onLine
  split
  · exact hf _
  · rfl

/-- An operation adds the source that it registers, if it registers one, and keeps the others. -/
theorem sources_apply (c : InterruptController) (op : Operation) :
    (op.apply c).sources = c.sources ++ op.registration?.toList := by
  cases op with
  | register slot line =>
      simp only [Operation.apply, onLine, Operation.registration?]
      cases lineOfNat line with
      | ok l => rfl
      | error e => exact (List.append_nil _).symm
  | setMasterEnable _ | reset | readWord _ => exact (List.append_nil _).symm
  | setEnabled line enable =>
      exact (c.sources_onLine line (f := (c.setEnabled · enable)) fun _ => rfl).trans
        (List.append_nil _).symm
  | setPriority line priority =>
      exact (c.sources_onLine line (f := (c.setPriority · priority)) fun _ => rfl).trans
        (List.append_nil _).symm
  | assert line => exact (c.sources_onLine line c.sources_assert).trans (List.append_nil _).symm
  | acknowledge line =>
      exact (c.sources_onLine line c.sources_acknowledge).trans (List.append_nil _).symm
  | poll asserting => exact (c.sources_poll asserting).trans (List.append_nil _).symm
  | dispatch listening => exact (c.sources_dispatch listening).trans (List.append_nil _).symm
  | writeWord offset value =>
      exact (sources_writeWord offset value c).trans (List.append_nil _).symm

/-- The sources that a history registers, in order. -/
def registered (ops : List Operation) : List (Nat × Line) :=
  ops.filterMap Operation.registration?

theorem sources_perform (ops : List Operation) : (perform {} ops).sources = registered ops := by
  induction ops using List.reverseRecOn with
  | nil => rfl
  | append_singleton ops op ih =>
      rw [perform_append, registered, List.filterMap_append, ← registered, ← ih]
      refine (sources_apply _ op).trans ?_
      cases hop : op.registration? <;> simp [hop]

/-! ## Requests and acknowledgements -/

/-- The operation acknowledges the line, by its number or as a bit of a register write. -/
def Operation.Acknowledges (l : Line) : Operation → Prop
  | acknowledge line => line = l
  | writeWord offset value => registerIndex offset = 3 ∧ value.getLsbD l = true
  | _ => False

/-- After the operation no earlier request for the line counts. -/
def Operation.Clears (l : Line) (op : Operation) : Prop :=
  op = .reset ∨ op.Acknowledges l

/-- The operation requests the line, where these sources are registered. -/
def Operation.Requests (sources : List (Nat × Line)) (l : Line) : Operation → Prop
  | assert line => line = l
  | poll asserting => ∃ slot, (slot, l) ∈ sources ∧ asserting slot = true
  | _ => False

/-- The line has been requested, and neither acknowledged since nor the controller reset. -/
def Requested (l : Line) : List Operation → Prop :=
  Since (fun before op => op.Requests (registered before) l) (¬·.Clears l)

/-! ## What each operation does to the flag -/

theorem lineOfNat_eq_ok {n : Nat} {l : Line} : lineOfNat n = .ok l ↔ n = l := by
  unfold lineOfNat
  constructor
  · intro h
    split at h <;> cases h
    rfl
  · rintro rfl
    rw [dif_pos l.isLt]

theorem pending_setLine (c : InterruptController) (l m : Line) (state : LineState) :
    (c.setLine l state).pending m = if l = m then state.pending else c.pending m := by
  simp only [pending, setLine, Fin.getElem_fin, Vector.getElem_set, Fin.ext_iff]
  split <;> rfl

/-- A line that keeps its flag may change otherwise. -/
theorem pending_setLine_of_eq (c : InterruptController) {l : Line} (m : Line) {state : LineState}
    (h : state.pending = c.pending l) : (c.setLine l state).pending m = c.pending m := by
  rw [pending_setLine]
  split
  · next hm => rw [h, hm]
  · rfl

theorem pending_onLine (c : InterruptController) (line : Nat) (m : Line)
    {f : Line → InterruptController} (hf : ∀ l, (f l).pending m = c.pending m) :
    (c.onLine line f).pending m = c.pending m := by
  unfold onLine
  split
  · exact hf _
  · rfl

theorem pending_assert (c : InterruptController) (l m : Line) :
    (c.assert l).pending m = true ↔ l = m ∨ c.pending m = true := by
  unfold assert
  split
  · next h =>
      refine ⟨.inr, ?_⟩
      rintro (rfl | hm)
      · exact h
      · exact hm
  · show (c.setLine l _).pending m = true ↔ _
    rw [pending_setLine]
    split
    · next hm => simp [hm]
    · next hm => simp [hm]

theorem pending_foldl_assert (c : InterruptController) (lines : List Line) (m : Line) :
    (lines.foldl assert c).pending m = true ↔ m ∈ lines ∨ c.pending m = true := by
  induction lines generalizing c with
  | nil => simp
  | cons l rest ih =>
      rw [List.foldl_cons, ih, pending_assert, List.mem_cons, ← or_assoc, eq_comm (a := l),
        or_comm (a := m ∈ rest)]

theorem pending_poll (c : InterruptController) (asserting : Nat → Bool) (m : Line) :
    (c.poll asserting).pending m = true
      ↔ (∃ slot, (slot, m) ∈ c.sources ∧ asserting slot = true) ∨ c.pending m = true := by
  rw [poll, pending_foldl_assert]
  refine or_congr_left ?_
  simp

theorem pending_acknowledge (c : InterruptController) (l m : Line) :
    (c.acknowledge l).1.pending m = true ↔ l ≠ m ∧ c.pending m = true := by
  unfold acknowledge
  split
  · show (c.setLine l _).pending m = true ↔ _
    rw [pending_setLine]
    split
    · next hm => simp [hm]
    · next hm => simp [hm]
  · next h =>
      refine ⟨fun hm => ⟨?_, hm⟩, And.right⟩
      rintro rfl
      exact h hm

theorem pending_acknowledgeAll (c : InterruptController) (lines : List Line) (m : Line) :
    (c.acknowledgeAll lines).1.pending m = true ↔ m ∉ lines ∧ c.pending m = true := by
  induction lines generalizing c with
  | nil => exact ⟨fun h => ⟨List.not_mem_nil, h⟩, And.right⟩
  | cons l rest ih =>
      refine (ih (c.acknowledge l).1).trans ?_
      rw [pending_acknowledge, List.mem_cons, not_or, ← and_assoc, and_comm (a := m ∉ rest),
        ne_comm]

theorem pending_dispatch (c : InterruptController) (listening : Bool) (m : Line) :
    (c.dispatch listening).2.pending m = c.pending m := by
  obtain ⟨l, -, -, -, -, heq⟩ | ⟨heq, -⟩ := c.dispatch_cases listening <;> rw [heq]
  rfl

theorem pending_writeWord (c : InterruptController) (offset value : Word) (m : Line) :
    (stateAfter (writeWord offset value c)).pending m = true
      ↔ ¬(registerIndex offset = 3 ∧ value.getLsbD m = true) ∧ c.pending m = true := by
  unfold writeWord
  split
  · next h => simp [h, setMasterEnable, pending]
  · next h => simp [h, setEnables, pending]
  · next h =>
      refine (c.pending_acknowledgeAll _ m).trans ?_
      simp [h]
  · next h =>
      have hother : ¬(registerIndex offset = 3 ∧ value.getLsbD m = true) := fun hiar => h hiar.1
      split
      · next l _ =>
          have hkept : (c.setPriority l (value.setWidth 8)).pending m = c.pending m :=
            c.pending_setLine_of_eq m rfl
          rw [stateAfter_ok, hkept]
          exact (and_iff_right hother).symm
      · exact (and_iff_right hother).symm

/-- After an operation a line is pending if it requested it, or if it did not clear a flag that
was set before. -/
theorem pending_apply (c : InterruptController) (op : Operation) (m : Line) :
    (op.apply c).pending m = true
      ↔ op.Requests c.sources m ∨ ¬op.Clears m ∧ c.pending m = true := by
  -- What neither requests nor clears a line leaves its flag.
  have hother : ¬op.Requests c.sources m → ¬op.Clears m → (op.apply c).pending m = c.pending m →
      ((op.apply c).pending m = true
        ↔ op.Requests c.sources m ∨ ¬op.Clears m ∧ c.pending m = true) := by
    intro hrequests hclears hkept
    simp [hrequests, hclears, hkept]
  cases op with
  | setMasterEnable _ | readWord _ => exact hother id (by rintro (h | h) <;> cases h) rfl
  | setEnabled line enable =>
      exact hother id (by rintro (h | h) <;> cases h)
        (c.pending_onLine line m fun l => c.pending_setLine_of_eq m rfl)
  | setPriority line priority =>
      exact hother id (by rintro (h | h) <;> cases h)
        (c.pending_onLine line m fun l => c.pending_setLine_of_eq m rfl)
  | register slot line =>
      exact hother id (by rintro (h | h) <;> cases h) (c.pending_onLine line m fun l => rfl)
  | dispatch listening =>
      exact hother id (by rintro (h | h) <;> cases h) (c.pending_dispatch listening m)
  | reset =>
      simp [Operation.apply, Operation.Requests, Operation.Clears, reset, pending]
  | assert line =>
      simp only [Operation.apply, Operation.Requests, Operation.Clears, Operation.Acknowledges,
        onLine, reduceCtorEq, or_self, not_false_eq_true, true_and]
      cases hline : lineOfNat line with
      | ok l => rw [lineOfNat_eq_ok.mp hline, ← Fin.ext_iff]; exact c.pending_assert l m
      | error e =>
          have hne : line ≠ m := fun heq => by rw [lineOfNat_eq_ok.mpr heq] at hline; cases hline
          simp [hne]
  | acknowledge line =>
      simp only [Operation.apply, Operation.Requests, Operation.Clears, Operation.Acknowledges,
        onLine, reduceCtorEq, false_or]
      cases hline : lineOfNat line with
      | ok l => rw [lineOfNat_eq_ok.mp hline, ← Fin.ext_iff]; exact c.pending_acknowledge l m
      | error e =>
          have hne : line ≠ m := fun heq => by rw [lineOfNat_eq_ok.mpr heq] at hline; cases hline
          simp [hne]
  | poll asserting =>
      simp only [Operation.Clears, Operation.Acknowledges, reduceCtorEq, or_self,
        not_false_eq_true, true_and]
      exact c.pending_poll asserting m
  | writeWord offset value =>
      simp only [Operation.Requests, Operation.Clears, Operation.Acknowledges, reduceCtorEq,
        false_or]
      exact c.pending_writeWord offset value m

/-- A line is pending just if it has been requested since it was last acknowledged and since the
last reset. -/
theorem pending_perform (ops : List Operation) (m : Line) :
    (perform {} ops).pending m = true ↔ Requested m ops := by
  induction ops using List.reverseRecOn with
  | nil =>
      refine ⟨fun h => absurd h ?_, fun h => absurd h not_since_nil⟩
      simp [perform, pending]
  | append_singleton ops op ih =>
      rw [perform_append, Requested, since_snoc, ← Requested, ← ih, ← sources_perform]
      exact pending_apply _ op m

end Rv32Soc.InterruptController
