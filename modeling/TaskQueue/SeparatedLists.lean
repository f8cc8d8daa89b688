import Mathlib.Data.List.Basic

/-!
# Lists joined at a separator

When two lists joined at the same separator are equal, either their parts are, or one
separator occurs inside a part of the other.
-/

namespace TaskQueue.SeparatedLists

universe u

variable {α : Type u} {a b c d w : List α} {s : α}

/-- Equal joined lists have equal parts, or the cut of one lies further back. -/
theorem append_cons_eq_iff : a ++ s :: b = c ++ s :: d ↔
    (a = c ∧ b = d) ∨ (∃ w, a = c ++ s :: w ∧ d = w ++ s :: b) ∨
      ∃ w, c = a ++ s :: w ∧ b = w ++ s :: d := by
  constructor
  · intro h
    rcases List.append_eq_append_iff.1 h with ⟨e, rfl, he⟩ | ⟨e, rfl, he⟩
    · cases e with
      | nil => exact .inl ⟨by simp, by simpa using he⟩
      | cons x w =>
        obtain ⟨rfl, rfl⟩ : s = x ∧ b = w ++ s :: d := by simpa using he
        exact .inr (.inr ⟨w, rfl, rfl⟩)
    · cases e with
      | nil => exact .inl ⟨by simp, by simpa using he.symm⟩
      | cons x w =>
        obtain ⟨rfl, rfl⟩ : s = x ∧ d = w ++ s :: b := by simpa using he
        exact .inr (.inl ⟨w, rfl, rfl⟩)
  · rintro (⟨rfl, rfl⟩ | ⟨w, rfl, rfl⟩ | ⟨w, rfl, rfl⟩) <;> simp

/-- A list has one last separator. -/
theorem last_unique (hb : s ∉ b) (hd : s ∉ d) :
    a ++ s :: b = c ++ s :: d ↔ a = c ∧ b = d := by
  rw [append_cons_eq_iff]
  constructor
  · rintro (h | ⟨w, -, rfl⟩ | ⟨w, -, rfl⟩)
    · exact h
    · simp at hd
    · simp at hb
  · exact .inl

theorem suffix_append_iff : w <:+ a ++ b ↔ w <:+ b ∨ ∃ v, v ≠ [] ∧ v <:+ a ∧ w = v ++ b := by
  constructor
  · rintro ⟨t, ht⟩
    rcases List.append_eq_append_iff.1 ht with ⟨e, rfl, rfl⟩ | ⟨e, rfl, rfl⟩
    · cases e with
      | nil => exact .inl List.suffix_rfl
      | cons x v => exact .inr ⟨x :: v, by simp, List.suffix_append t _, rfl⟩
    · exact .inl (List.suffix_append e w)
  · rintro (h | ⟨v, -, h, rfl⟩)
    · exact List.suffix_append_of_suffix h
    · exact List.suffix_append_self_iff.2 h

/-- A suffix that starts with the separator and has no other lies behind every other
separator. -/
theorem cons_suffix_append_cons_iff (hw : s ∉ w) :
    s :: w <:+ a ++ s :: b ↔ s :: w <:+ s :: b := by
  constructor
  · rintro ⟨t, ht⟩
    rcases append_cons_eq_iff.1 ht with ⟨-, rfl⟩ | ⟨v, -, rfl⟩ | ⟨v, -, rfl⟩
    · exact List.suffix_rfl
    · exact ⟨s :: v, by simp⟩
    · simp at hw
  · exact fun h => h.trans (List.suffix_append a _)

/-- Behind the last separator of a list only one such suffix is left. -/
theorem cons_suffix_last_iff (hw : s ∉ w) (hb : s ∉ b) : s :: w <:+ a ++ s :: b ↔ w = b := by
  rw [cons_suffix_append_cons_iff hw]
  constructor
  · rintro ⟨t, ht⟩
    exact ((last_unique (c := []) hw hb).1 ht).2
  · rintro rfl
    exact List.suffix_rfl

end TaskQueue.SeparatedLists
