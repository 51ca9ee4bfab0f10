import Rv32Soc.Proofs.Arbitration
import Rv32Soc.Proofs.PendingLines

/-!
# Lines that join and leave a contest

A line competes while it is pending and enabled, and the answer of the
controller depends on nothing but which lines compete and on their priorities.
So an operation that touches only one line, and not its priority, leaves the
order among the others as it was. If that line joins, the answer is as before
or is that line, since any other would have to outrank what it did not outrank
before; if it leaves, only its own place becomes free.

Both follow from one fact on two controllers that agree but for whether one
line competes, used once in each direction.
-/

namespace Rv32Soc.InterruptController

variable {c c' : InterruptController} {l m : Line}

/-- The line would be delivered if there were no other. -/
def Competes (c : InterruptController) (l : Line) : Prop :=
  c.pending l = true ∧ c.enabled l = true

/-! ## The answer -/

theorem next?_eq_some_iff : c.next? = some l ↔ c.masterEnable = true ∧ c.Competes l
    ∧ ∀ m, m ≠ l → c.Competes m → c.Outranks l m := by
  simp only [next?_eq_some, mem_candidates, Competes]
  exact and_congr_right fun _ => and_congr_right fun _ => forall_congr' fun _ => forall_comm

theorem next?_eq_none : c.next? = none ↔ c.masterEnable = false ∨ ∀ l, ¬c.Competes l := by
  have hcompetes : c.candidates = [] ↔ ∀ l, ¬c.Competes l := by
    simp only [List.eq_nil_iff_forall_not_mem, mem_candidates, Competes]
  rw [← hcompetes, next?]
  cases hmaster : c.masterEnable with
  | false => simp
  | true => cases c.candidates <;> simp

/-! ## Controllers that agree but for one line -/

/-- The controllers differ at most in whether the line competes. -/
structure SameBut (m : Line) (c c' : InterruptController) : Prop where
  masterEnable : c'.masterEnable = c.masterEnable
  priority : ∀ l, c'.priority l = c.priority l
  competes : ∀ l, l ≠ m → (c'.Competes l ↔ c.Competes l)

namespace SameBut

theorem symm (h : SameBut m c c') : SameBut m c' c where
  masterEnable := h.masterEnable.symm
  priority l := (h.priority l).symm
  competes l hl := (h.competes l hl).symm

theorem outranks (h : SameBut m c c') (k l : Line) : c'.Outranks k l ↔ c.Outranks k l := by
  rw [Outranks, h.priority, h.priority, Outranks]

/-- Another line stays the answer, as long as it outranks the one in question. -/
theorem next?_kept (h : SameBut m c c') (hnext : c.next? = some l) (hne : l ≠ m)
    (hm : c'.Competes m → c.Outranks l m) : c'.next? = some l := by
  obtain ⟨hmaster, hl, hfirst⟩ := next?_eq_some_iff.mp hnext
  refine next?_eq_some_iff.mpr
    ⟨h.masterEnable.trans hmaster, (h.competes l hne).mpr hl, fun k hk hcompetes => ?_⟩
  rw [h.outranks]
  by_cases hkm : k = m
  · subst hkm
    exact hm hcompetes
  · exact hfirst k hk ((h.competes k hkm).mp hcompetes)

/-- A line that leaves the contest leaves the answer to the others. -/
theorem next?_left (h : SameBut m c c') (hleft : ¬c'.Competes m) (hnext : c.next? = some l)
    (hne : l ≠ m) : c'.next? = some l :=
  h.next?_kept hnext hne fun hm => absurd hm hleft

/-- A line that joins the contest becomes the answer or changes nothing. -/
theorem next?_joined (h : SameBut m c c') (hjoined : c.Competes m → c'.Competes m) :
    c'.next? = c.next? ∨ c'.next? = some m := by
  cases hnext : c'.next? with
  | none =>
      left
      refine (next?_eq_none.mpr ?_).symm
      obtain hoff | hnobody := next?_eq_none.mp hnext
      · exact .inl (h.masterEnable.symm.trans hoff)
      · refine .inr fun k hk => hnobody k ?_
        by_cases hkm : k = m
        · subst hkm
          exact hjoined hk
        · exact (h.competes k hkm).mpr hk
  | some k =>
      by_cases hkm : k = m
      · exact .inr (congrArg some hkm)
      · obtain ⟨-, -, hfirst⟩ := next?_eq_some_iff.mp hnext
        -- Seen from afterwards, the line leaves and another one stays the answer.
        have hbefore : c.next? = some k := h.symm.next?_kept hnext hkm fun hm =>
          hfirst m (Ne.symm hkm) (hjoined hm)
        exact .inl hbefore.symm

end SameBut

/-! ## Operations on one line -/

theorem sameBut_of_lines {state : LineState} (hmaster : c'.masterEnable = c.masterEnable)
    (hlines : c'.lines = c.lines.set m state m.isLt) (hpriority : state.priority = c.priority m) :
    SameBut m c c' where
  masterEnable := hmaster
  priority l := by
    rw [priority, hlines, Fin.getElem_fin, Vector.getElem_set]
    split
    · next heq => rw [hpriority, Fin.ext heq]
    · rfl
  competes l hl := by
    have hkept : c'.lines[l] = c.lines[l] := by
      rw [hlines]
      exact Vector.getElem_set_ne _ _ fun heq => hl (Fin.ext heq.symm)
    rw [Competes, pending, enabled, hkept]
    rfl

theorem sameBut_assert (c : InterruptController) (m : Line) : SameBut m c (c.assert m) := by
  unfold assert
  split
  · exact ⟨rfl, fun _ => rfl, fun _ _ => .rfl⟩
  · exact sameBut_of_lines rfl rfl rfl

theorem sameBut_setEnabled (c : InterruptController) (m : Line) (enable : Bool) :
    SameBut m c (c.setEnabled m enable) :=
  sameBut_of_lines rfl rfl rfl

theorem sameBut_acknowledge (c : InterruptController) (m : Line) :
    SameBut m c (c.acknowledge m).1 := by
  unfold acknowledge
  split
  · exact sameBut_of_lines rfl rfl rfl
  · exact ⟨rfl, fun _ => rfl, fun _ _ => .rfl⟩

theorem enabled_assert (c : InterruptController) (m : Line) :
    (c.assert m).enabled m = c.enabled m := by
  unfold assert
  split
  · rfl
  · simp [setLine, enabled]

theorem competes_setEnabled (c : InterruptController) (m : Line) (enable : Bool) :
    (c.setEnabled m enable).Competes m ↔ c.pending m = true ∧ enable = true := by
  simp [Competes, setEnabled, setLine, pending, enabled]

/-! ## The contest -/

/-- The answer is the one line that competes and comes before every other that does, by its
priority or else by its place; there is none just if interrupts are off or no line competes. A
line that is asserted or enabled changes the answer to itself at most, and one that is masked or
acknowledged takes the answer from no other. -/
theorem next?_settles_contest :
    (∀ (c : InterruptController) (l : Line), c.next? = some l ↔
        c.masterEnable = true ∧ c.pending l = true ∧ c.enabled l = true
          ∧ ∀ m, m ≠ l → c.pending m = true → c.enabled m = true →
            c.priority l < c.priority m ∨ c.priority l = c.priority m ∧ l < m)
      ∧ (∀ c : InterruptController, c.next? = none ↔
          c.masterEnable = false ∨ ∀ l, ¬(c.pending l = true ∧ c.enabled l = true))
      ∧ (∀ (c : InterruptController) (m : Line),
          ((c.assert m).next? = c.next? ∨ (c.assert m).next? = some m)
            ∧ ((c.setEnabled m true).next? = c.next? ∨ (c.setEnabled m true).next? = some m))
      ∧ ∀ (c : InterruptController) (l m : Line), c.next? = some l → m ≠ l →
          (c.setEnabled m false).next? = some l ∧ (c.acknowledge m).1.next? = some l := by
  refine ⟨fun c l => ?_, fun c => next?_eq_none, fun c m => ⟨?_, ?_⟩,
    fun c l m hnext hne => ⟨?_, ?_⟩⟩
  · rw [next?_eq_some_iff, Competes, and_assoc]
    simp only [Competes, and_imp, Outranks]
  · refine (c.sameBut_assert m).next?_joined fun h => ?_
    exact ⟨(c.pending_assert m m).mpr (.inl rfl), (c.enabled_assert m).trans h.2⟩
  · refine (c.sameBut_setEnabled m true).next?_joined fun h => ?_
    exact (c.competes_setEnabled m true).mpr ⟨h.1, rfl⟩
  · refine (c.sameBut_setEnabled m false).next?_left ?_ hnext hne.symm
    rw [competes_setEnabled]
    exact fun h => Bool.false_ne_true h.2
  · refine (c.sameBut_acknowledge m).next?_left ?_ hnext hne.symm
    exact fun h => ((c.pending_acknowledge m m).mp h.1).1 rfl

/-- Lines 3, 9 and 17 compete, the last two with the same priority. -/
def contested : InterruptController :=
  perform { masterEnable := true } [.setPriority 3 7, .setPriority 17 2, .setPriority 9 2,
    .setEnabled 3 true, .setEnabled 17 true, .setEnabled 9 true, .assert 3, .assert 17, .assert 9]

/-- Line 9 stays the answer when line 17 leaves, though line 17 is as urgent. -/
theorem next?_settles_contest_equals : contested.next? = some 9 ∧ (17 : Line) ≠ 9
    ∧ (contested.setEnabled 17 false).next? = some 9
    ∧ (contested.acknowledge 17).1.next? = some 9 := by
  have hnext : contested.next? = some 9 := by decide
  have hne : (17 : Line) ≠ 9 := by decide
  obtain ⟨-, -, -, hleaves⟩ := next?_settles_contest
  exact ⟨hnext, hne, hleaves contested 9 17 hnext hne⟩

end Rv32Soc.InterruptController
