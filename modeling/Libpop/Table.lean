import Mathlib.Algebra.Group.Defs
import Mathlib.Data.List.Basic
import Mathlib.Tactic.Abel
import Mathlib.Tactic.Lemma

/-!
# Tables of threads

The threads of a program, or the calls in flight, as a list of which a step rewrites one entry.
-/

namespace Table

variable {α : Type*} {l : List α} {i j : Nat} {a b : α}

/-- An entry of the rewritten table is the new one or an old one elsewhere. -/
lemma getElem?_set_cases (h : (l.set i a)[j]? = some b) :
    j = i ∧ b = a ∨ j ≠ i ∧ l[j]? = some b := by
  by_cases hj : i = j
  · subst hj
    have hlt : i < l.length := by
      obtain ⟨hlt, -⟩ := List.getElem?_eq_some_iff.mp h
      simpa using hlt
    rw [List.getElem?_set_self hlt, Option.some.injEq] at h
    exact .inl ⟨rfl, h.symm⟩
  · rw [List.getElem?_set_ne hj] at h
    exact .inr ⟨fun heq => hj heq.symm, h⟩

lemma getElem?_set_self_of_some (h : l[i]? = some a) (b : α) : (l.set i b)[i]? = some b := by
  obtain ⟨hi, -⟩ := List.getElem?_eq_some_iff.mp h
  exact List.getElem?_set_self hi

lemma getElem?_concat (l : List α) (a : α) (j : Nat) :
    (l ++ [a])[j]? = if j = l.length then some a else l[j]? := by
  split
  next hlast => rw [hlast, List.getElem?_concat_length]
  next hne =>
    rcases Nat.lt_or_gt_of_ne hne with hlt | hgt
    · rw [List.getElem?_append_left hlt]
    · rw [List.getElem?_append_right (Nat.le_of_lt hgt), List.getElem?_eq_none (by simp; omega),
        List.getElem?_eq_none (Nat.le_of_lt hgt)]

/-- An entry of the extended table is an old one or the new one at the end. -/
lemma getElem?_concat_cases (h : (l ++ [a])[j]? = some b) :
    l[j]? = some b ∨ j = l.length ∧ b = a := by
  rw [getElem?_concat] at h
  split at h
  next hlast => exact .inr ⟨hlast, (Option.some.inj h).symm⟩
  · exact .inl h

/-- What the entries add up to changes by the difference of the two. -/
lemma sum_map_set {M : Type*} [AddCommMonoid M] (f : α → M) (h : l[i]? = some a) (b : α) :
    ((l.set i b).map f).sum + f a = (l.map f).sum + f b := by
  induction l generalizing i with
  | nil => cases h
  | cons c l ih =>
    cases i with
    | zero =>
      rw [List.getElem?_cons_zero, Option.some.injEq] at h
      subst h
      simp only [List.set_cons_zero, List.map_cons, List.sum_cons]
      abel
    | succ i =>
      rw [List.getElem?_cons_succ] at h
      have hrest := ih h
      simp only [List.set_cons_succ, List.map_cons, List.sum_cons]
      rw [add_assoc, hrest, add_assoc]

end Table
