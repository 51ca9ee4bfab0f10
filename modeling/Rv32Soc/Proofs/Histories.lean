import Mathlib.Data.List.Induction

/-!
# Histories

A history is a list of things that happened, the latest at the end. Two ways
of speaking about one come back in several places: that something has happened
and nothing undid it since, and that a state goes on until something ends it.
Both are decided by looking at what came last.
-/

namespace Rv32Soc

variable {α : Type}

/-- What is found in a history that goes one further is either the last or found before. -/
theorem snoc_eq_append_cons {history before after : List α} {x y : α} :
    history ++ [x] = before ++ y :: after
      ↔ (history = before ∧ x = y ∧ after = [])
        ∨ ∃ rest, history = before ++ y :: rest ∧ after = rest ++ [x] := by
  constructor
  · intro h
    obtain rfl | ⟨rest, last, rfl⟩ := List.eq_nil_or_concat after
    · obtain ⟨hbefore, hlast⟩ := List.append_inj' h rfl
      exact .inl ⟨hbefore, List.singleton_inj.mp hlast, rfl⟩
    · rw [List.concat_eq_append] at h ⊢
      rw [← List.cons_append, ← List.append_assoc] at h
      obtain ⟨hbefore, hlast⟩ := List.append_inj' h rfl
      exact .inr ⟨rest, hbefore, by rw [List.singleton_inj.mp hlast]⟩
  · rintro (⟨rfl, rfl, rfl⟩ | ⟨rest, rfl, rfl⟩)
    · rfl
    · rw [List.append_assoc, List.cons_append]

/-- Something has happened that `P` says of it and what was before, and of all since then `Q`
holds. -/
def Since (P : List α → α → Prop) (Q : α → Prop) (history : List α) : Prop :=
  ∃ before x after, history = before ++ x :: after ∧ P before x ∧ ∀ y ∈ after, Q y

variable {P : List α → α → Prop} {Q : α → Prop}

theorem not_since_nil : ¬Since P Q [] := by
  rintro ⟨before, x, after, h, -⟩
  exact List.append_ne_nil_of_right_ne_nil before (List.cons_ne_nil x after) h.symm

theorem since_snoc {history : List α} {x : α} :
    Since P Q (history ++ [x]) ↔ P history x ∨ Q x ∧ Since P Q history := by
  constructor
  · rintro ⟨before, y, after, h, hy, hafter⟩
    obtain ⟨rfl, rfl, -⟩ | ⟨rest, rfl, rfl⟩ := snoc_eq_append_cons.mp h
    · exact .inl hy
    · rw [List.forall_mem_append, List.forall_mem_singleton] at hafter
      exact .inr ⟨hafter.2, before, y, rest, rfl, hy, hafter.1⟩
  · rintro (hx | ⟨hx, before, y, after, rfl, hy, hafter⟩)
    · exact ⟨history, x, [], rfl, hx, nofun⟩
    · refine ⟨before, y, after ++ [x], by rw [List.append_assoc, List.cons_append], hy, ?_⟩
      rw [List.forall_mem_append, List.forall_mem_singleton]
      exact ⟨hafter, hx⟩

/-- A state that each further step keeps or ends is kept to the last or was ended by some step. -/
theorem kept_or_ended {S : List α → Prop} {E : List α → α → Prop}
    (hstep : ∀ history x, S history → S (history ++ [x]) ∨ E history x) {history : List α}
    (hstart : S history) (more : List α) :
    S (history ++ more)
      ∨ ∃ before x after, more = before ++ x :: after ∧ E (history ++ before) x := by
  induction more using List.reverseRecOn with
  | nil => exact .inl (by rwa [List.append_nil])
  | append_singleton more x ih =>
      obtain hkept | ⟨before, y, after, rfl, hended⟩ := ih
      · rw [← List.append_assoc]
        obtain hnext | hended := hstep _ x hkept
        · exact .inl hnext
        · exact .inr ⟨more, x, [], rfl, hended⟩
      · exact .inr ⟨before, y, after ++ [x], by rw [List.append_assoc, List.cons_append], hended⟩

end Rv32Soc
