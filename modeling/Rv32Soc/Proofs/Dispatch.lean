import Rv32Soc.Proofs.Slots

/-!
# The shortcut of dispatch loses nothing

The controller decides on a delivery only if something has changed since the
last one. That is a shortcut, and it is right only if whatever can change the
decision also notes that something has changed. The invariant says what the
shortcut relies on: as long as nothing has changed, the most urgent line is
the current one, or there is none. Every operation keeps it, be it called by
the host or made of a register write; so in every state that the controller
can get into, a line is delivered exactly when it ought to be.
-/

namespace Rv32Soc.InterruptController

/-! ## Operations -/

/-- Everything that can be done to a controller. Lines are plain numbers here, as a host gives
them, and may be wrong; so may offsets. -/
inductive Operation where
  | setMasterEnable (enable : Bool)
  | setEnabled (line : Nat) (enable : Bool)
  | setPriority (line : Nat) (priority : Byte)
  | assert (line : Nat)
  | acknowledge (line : Nat)
  | register (slot line : Nat)
  | poll (asserting : Nat → Bool)
  | dispatch (listening : Bool)
  | reset
  | readWord (offset : Word)
  | writeWord (offset value : Word)

/-- Do something with a line, if the number names one. -/
def onLine (c : InterruptController) (line : Nat) (f : Line → InterruptController) :
    InterruptController :=
  match lineOfNat line with
  | .ok l => f l
  | .error _ => c

/-- The state that an operation leaves. -/
def Operation.apply (c : InterruptController) : Operation → InterruptController
  | setMasterEnable enable => c.setMasterEnable enable
  | setEnabled line enable => c.onLine line (c.setEnabled · enable)
  | setPriority line priority => c.onLine line (c.setPriority · priority)
  | assert line => c.onLine line c.assert
  | acknowledge line => c.onLine line fun l => (c.acknowledge l).1
  | register slot line => c.onLine line (c.register slot)
  | poll asserting => c.poll asserting
  | dispatch listening => (c.dispatch listening).2
  | reset => c.reset
  | readWord _ => c
  | writeWord offset value => stateAfter (InterruptController.writeWord offset value c)

/-- The slot and the line that an operation registers, if it registers one. -/
def Operation.registration? : Operation → Option (Nat × Line)
  | register slot line =>
      match lineOfNat line with
      | .ok l => some (slot, l)
      | .error _ => none
  | _ => none

/-- The state after a run of operations. -/
def perform (c : InterruptController) (ops : List Operation) : InterruptController :=
  ops.foldl Operation.apply c

theorem perform_append (c : InterruptController) (ops more : List Operation) :
    c.perform (ops ++ more) = (c.perform ops).perform more :=
  List.foldl_append

/-! ## The decision -/

/-- Either a line is delivered, or nothing happens; and in each case why. -/
theorem dispatch_cases (c : InterruptController) (listening : Bool) :
    (∃ l, listening = true ∧ c.changed = true ∧ c.next? = some l ∧ c.current ≠ some l
      ∧ c.dispatch listening = (some l, { c with changed := false, current := some l }))
    ∨ (c.dispatch listening = (none, c)
      ∧ (listening = true → c.changed = true → ∀ l, c.next? = some l → c.current = some l)) := by
  unfold dispatch
  split
  · next hopen =>
      obtain ⟨hchanged, hlistening⟩ := Bool.and_eq_true_iff.mp hopen
      split
      · next hnone =>
          right
          refine ⟨rfl, ?_⟩
          intro _ _ l hl
          rw [hnone] at hl
          cases hl
      · next l hnext =>
          split
          · next hcurrent =>
              right
              refine ⟨rfl, ?_⟩
              intro _ _ l' hl'
              rw [hnext] at hl'
              cases hl'
              exact hcurrent
          · next hcurrent => exact .inl ⟨l, hlistening, hchanged, hnext, hcurrent, rfl⟩
  · next hclosed =>
      right
      refine ⟨rfl, ?_⟩
      intro hlistening hchanged
      rw [hlistening, hchanged] at hclosed
      exact absurd rfl hclosed

/-! ## The invariant -/

/-- Unless something has changed, the most urgent line is the current one, or there is none. -/
def Settled (c : InterruptController) : Prop :=
  c.changed = false → c.next? = none ∨ c.next? = c.current

theorem settled_of_changed {c : InterruptController} (h : c.changed = true) : Settled c := by
  intro hnot
  rw [h] at hnot
  cases hnot

theorem settled_assert {c : InterruptController} (h : Settled c) (l : Line) :
    Settled (c.assert l) := by
  unfold assert
  split
  · exact h
  · exact settled_of_changed rfl

theorem settled_acknowledge {c : InterruptController} (h : Settled c) (l : Line) :
    Settled (c.acknowledge l).1 := by
  unfold acknowledge
  split
  · exact settled_of_changed rfl
  · exact h

theorem settled_acknowledgeAll {c : InterruptController} (h : Settled c) (lines : List Line) :
    Settled (c.acknowledgeAll lines).1 := by
  induction lines generalizing c with
  | nil => exact h
  | cons l rest ih => exact ih (settled_acknowledge h l)

theorem settled_poll {c : InterruptController} (h : Settled c) (asserting : Nat → Bool) :
    Settled (c.poll asserting) := by
  unfold poll
  induction (c.sources.filter fun source => asserting source.1).map (·.2) generalizing c with
  | nil => exact h
  | cons l rest ih => exact ih (settled_assert h l)

theorem settled_dispatch {c : InterruptController} (h : Settled c) (listening : Bool) :
    Settled (c.dispatch listening).2 := by
  obtain ⟨l, -, -, hnext, -, heq⟩ | ⟨heq, -⟩ := c.dispatch_cases listening
  · rw [heq]
    intro _
    exact .inr hnext
  · rw [heq]
    exact h

theorem settled_writeWord {c : InterruptController} (h : Settled c) (offset value : Word) :
    Settled (stateAfter (writeWord offset value c)) := by
  unfold writeWord
  split
  · exact settled_of_changed rfl
  · exact settled_of_changed rfl
  · exact settled_acknowledgeAll h _
  · split
    · exact settled_of_changed rfl
    · exact h

theorem settled_onLine {c : InterruptController} (h : Settled c) (line : Nat)
    {f : Line → InterruptController} (hf : ∀ l, Settled (f l)) : Settled (c.onLine line f) := by
  unfold onLine
  split
  · exact hf _
  · exact h

/-- Every operation keeps the invariant. -/
theorem settled_apply {c : InterruptController} (h : Settled c) (op : Operation) :
    Settled (op.apply c) := by
  cases op with
  | setMasterEnable enable => exact settled_of_changed rfl
  | setEnabled line enable => exact settled_onLine h line fun _ => settled_of_changed rfl
  | setPriority line priority => exact settled_onLine h line fun _ => settled_of_changed rfl
  | assert line => exact settled_onLine h line (settled_assert h)
  | acknowledge line => exact settled_onLine h line (settled_acknowledge h)
  -- A new source changes neither the lines nor the flag.
  | register slot line => exact settled_onLine h line fun _ => h
  | poll asserting => exact settled_poll h asserting
  | dispatch listening => exact settled_dispatch h listening
  | reset => exact fun _ => .inl rfl
  | readWord offset => exact h
  | writeWord offset value => exact settled_writeWord h offset value

theorem settled_perform {c : InterruptController} (h : Settled c) (ops : List Operation) :
    Settled (c.perform ops) := by
  induction ops generalizing c with
  | nil => exact h
  | cons op rest ih => exact ih (settled_apply h op)

theorem settled_new : Settled {} :=
  fun _ => .inl rfl

/-! ## Deliveries -/

theorem dispatch_of_settled {c : InterruptController} (h : Settled c) (listening : Bool) :
    (∃ l, listening = true ∧ c.next? = some l ∧ c.current ≠ some l
      ∧ c.dispatch listening = (some l, { c with changed := false, current := some l }))
    ∨ (c.dispatch listening = (none, c)
      ∧ ∀ l, listening = true → c.next? = some l → c.current = some l) := by
  obtain ⟨l, hlistening, -, hnext, hcurrent, heq⟩ | ⟨heq, hwhy⟩ := c.dispatch_cases listening
  · exact .inl ⟨l, hlistening, hnext, hcurrent, heq⟩
  · right
    refine ⟨heq, ?_⟩
    intro l hlistening hnext
    cases hchanged : c.changed with
    | true => exact hwhy hlistening hchanged l hnext
    | false =>
        obtain hnone | hcurrent := h hchanged
        · rw [hnone] at hnext
          cases hnext
        · rw [← hcurrent, hnext]

/-- Once it has decided for a hart that listens, the controller has nothing left to deliver. -/
theorem next?_dispatch {c : InterruptController} (h : Settled c) :
    (c.dispatch true).2.next? = none
      ∨ (c.dispatch true).2.next? = (c.dispatch true).2.current := by
  obtain ⟨l, -, hnext, -, heq⟩ | ⟨heq, hwhy⟩ := dispatch_of_settled h true
  · rw [heq]
    exact .inr hnext
  · rw [heq]
    cases hnext : c.next? with
    | none => exact .inl rfl
    | some l => exact .inr (hwhy l rfl hnext).symm

/-- Whatever has been done to a controller, the next dispatch delivers a line exactly when the
hart listens, the line is the most urgent and it is not current already. The line delivered
becomes the current one, and a dispatch that delivers none leaves the current line. -/
theorem dispatch_exact (ops : List Operation) (listening : Bool) :
    let c := perform {} ops
    (∀ l, (c.dispatch listening).1 = some l
        ↔ listening = true ∧ c.next? = some l ∧ c.current ≠ some l)
      ∧ (∀ l, (c.dispatch listening).1 = some l → (c.dispatch listening).2.current = some l)
      ∧ ((c.dispatch listening).1 = none → (c.dispatch listening).2.current = c.current) := by
  intro c
  have hsettled : Settled c := settled_perform settled_new ops
  obtain ⟨l, hlistening, hnext, hcurrent, heq⟩ | ⟨heq, hwhy⟩ :=
    dispatch_of_settled hsettled listening
  · rw [heq]
    refine ⟨?_, fun _ h => h, nofun⟩
    intro l'
    constructor
    · intro h
      cases h
      exact ⟨hlistening, hnext, hcurrent⟩
    · rintro ⟨-, hnext', -⟩
      rw [hnext] at hnext'
      exact hnext'
  · rw [heq]
    refine ⟨?_, nofun, fun _ => rfl⟩
    intro l
    constructor
    · intro h
      cases h
    · rintro ⟨hlistening, hnext, hcurrent⟩
      exact absurd (hwhy l hlistening hnext) hcurrent

end Rv32Soc.InterruptController
