import Mathlib.Data.List.Induction
import Rv32Soc.Proofs.Dispatch

/-!
# Which line is the most urgent

Lines are compared by their priority numbers, and those of one priority by
their place. That is a strict order in which any two lines compare, so that of
any candidates one outranks all the others. The controller finds it in one go
over the candidates: as they come in ascending order, it is enough to let a
later one win only with a lesser priority number.
-/

namespace Rv32Soc.InterruptController

variable {c : InterruptController} {k l m : Line}

/-! ## The order of lines -/

/-- The first line is more urgent than the second. -/
def Outranks (c : InterruptController) (l m : Line) : Prop :=
  c.priority l < c.priority m ∨ c.priority l = c.priority m ∧ l < m

theorem outranks_iff : c.Outranks l m ↔ (c.priority l).toNat < (c.priority m).toNat
    ∨ (c.priority l).toNat = (c.priority m).toNat ∧ l.val < m.val := by
  rw [Outranks, BitVec.lt_def, BitVec.toNat_inj, Fin.lt_def]

theorem Outranks.trans (h₁ : c.Outranks k l) (h₂ : c.Outranks l m) : c.Outranks k m := by
  rw [outranks_iff] at *
  omega

theorem Outranks.asymm (h : c.Outranks l m) : ¬c.Outranks m l := by
  rw [outranks_iff] at *
  omega

/-! ## The search -/

theorem mem_candidates : l ∈ c.candidates ↔ c.pending l = true ∧ c.enabled l = true := by
  simp [candidates]

theorem candidates_ascend (c : InterruptController) : c.candidates.Pairwise (· < ·) :=
  (List.pairwise_lt_finRange 32).filter _

/-- Of two lines in ascending order the one that stands outranks the other. -/
theorem moreUrgent_cases (h : l < m) :
    (c.moreUrgent l m = m ∧ c.Outranks m l) ∨ (c.moreUrgent l m = l ∧ c.Outranks l m) := by
  rw [outranks_iff, outranks_iff, moreUrgent]
  rw [Fin.lt_def] at h
  split
  · next hless => exact .inl ⟨rfl, .inl hless⟩
  · next hless =>
      rw [BitVec.lt_def] at hless
      right
      refine ⟨rfl, ?_⟩
      omega

/-- Of lines in ascending order the one that is found outranks the others. -/
theorem foldl_moreUrgent {first : Line} {rest : List Line}
    (h : (first :: rest).Pairwise (· < ·)) :
    rest.foldl c.moreUrgent first ∈ first :: rest
      ∧ ∀ m ∈ first :: rest, m ≠ rest.foldl c.moreUrgent first →
          c.Outranks (rest.foldl c.moreUrgent first) m := by
  induction rest using List.reverseRecOn with
  | nil => simp
  | append_singleton rest l ih =>
      rw [← List.cons_append, List.pairwise_append] at h
      obtain ⟨hfound, hbest⟩ := ih h.1
      have hlast := h.2.2 _ hfound l (List.mem_singleton.mpr rfl)
      rw [List.foldl_append, List.foldl_cons, List.foldl_nil, ← List.cons_append]
      obtain ⟨heq, hwins⟩ | ⟨heq, hstands⟩ := moreUrgent_cases (c := c) hlast
      · rw [heq]
        refine ⟨List.mem_append_right _ (List.mem_singleton.mpr rfl), ?_⟩
        intro m hm hne
        obtain hm | hm := List.mem_append.mp hm
        · by_cases hold : m = rest.foldl c.moreUrgent first
          · rw [hold]
            exact hwins
          · exact hwins.trans (hbest m hm hold)
        · exact absurd (List.mem_singleton.mp hm) hne
      · rw [heq]
        refine ⟨List.mem_append_left _ hfound, ?_⟩
        intro m hm hne
        obtain hm | hm := List.mem_append.mp hm
        · exact hbest m hm hne
        · rw [List.mem_singleton.mp hm]
          exact hstands

/-- The line to be delivered next is the candidate that outranks all others. -/
theorem next?_eq_some : c.next? = some l ↔ c.masterEnable = true ∧ l ∈ c.candidates
    ∧ ∀ m ∈ c.candidates, m ≠ l → c.Outranks l m := by
  unfold next?
  split
  · next hmaster =>
      have hascend := c.candidates_ascend
      cases hcandidates : c.candidates with
      | nil => simp
      | cons first rest =>
          rw [hcandidates] at hascend
          obtain ⟨hfound, hbest⟩ := foldl_moreUrgent (c := c) hascend
          constructor
          · intro h
            rw [← Option.some.inj h]
            exact ⟨hmaster, hfound, hbest⟩
          · rintro ⟨-, hl, hfirst⟩
            by_cases hsame : rest.foldl c.moreUrgent first = l
            · exact congrArg some hsame
            · exact absurd (hbest l hl (Ne.symm hsame)) (hfirst _ hfound hsame).asymm
  · next hmaster => simp [hmaster]

end Rv32Soc.InterruptController
