import Mathlib.Order.MinMax
import Mathlib.Tactic.Lemma
import Mathlib.Tactic.TypeStar

/-!
# Sorting by exchanges of neighbours

An exchange puts two neighbours of a vector in order. It only moves elements, and it carries a
least element one place down: what is least from its place on stays so under exchanges behind
it. A vector whose elements are all least from their places on is sorted.
-/

namespace Exchange

variable {α : Type*} [LinearOrder α] {N : Nat}

/-- Puts the elements at `i - 1` and `i` in order. -/
def exchange (a : Vector α N) (i : Nat) (h : i < N) : Vector α N :=
  if a[i - 1] > a[i] then a.swap (i - 1) i else a

/-- No element behind `k` is less than the one at `k`. -/
def LeastAt (a : Vector α N) (k : Nat) : Prop :=
  ∀ (hk : k < N) (j : Nat) (hj : j < N), k ≤ j → a[k] ≤ a[j]

variable {a : Vector α N} {i : Nat}

lemma exchange_perm (a : Vector α N) (h : i < N) : (exchange a i h).toList.Perm a.toList := by
  unfold exchange
  split
  · exact (Vector.swap_perm _ h).toList
  · exact List.Perm.refl _

lemma getElem_exchange (h : i < N) {j : Nat} (hj : j < N) :
    (exchange a i h)[j] =
      if j = i - 1 then min a[i - 1] a[i] else if j = i then max a[i - 1] a[i] else a[j] := by
  unfold exchange
  by_cases hgt : a[i - 1] > a[i]
  · simp only [if_pos hgt, Vector.getElem_swap, min_eq_right hgt.le, max_eq_left hgt.le]
  · have hle := not_lt.mp hgt
    simp only [if_neg hgt, min_eq_left hle, max_eq_right hle]
    split
    · rename_i he
      simp only [he]
    · split
      · rename_i he
        simp only [he]
      · rfl

/-- An exchange carries the least element down. -/
lemma LeastAt.exchange_pred (h : i < N) (hleast : LeastAt a i) :
    LeastAt (exchange a i h) (i - 1) := by
  intro hk j hj hle
  rw [getElem_exchange h, getElem_exchange h, if_pos rfl]
  split
  · exact le_rfl
  · split
    · exact min_le_max
    · exact (min_le_right _ _).trans (hleast h j hj (by omega))

/-- What is least from its place on stays so under an exchange behind it. -/
lemma LeastAt.exchange_of_lt (h : i < N) {k : Nat} (hki : k < i - 1) (hleast : LeastAt a k) :
    LeastAt (exchange a i h) k := by
  intro hk j hj hle
  rw [getElem_exchange h, getElem_exchange h, if_neg (by omega), if_neg (by omega)]
  split
  · exact le_min (hleast hk (i - 1) (by omega) (by omega)) (hleast hk i h (by omega))
  · split
    · exact (hleast hk i h (by omega)).trans (le_max_right _ _)
    · exact hleast hk j hj hle

theorem pairwise_of_leastAt (hleast : ∀ k < N, LeastAt a k) : a.toList.Pairwise (· ≤ ·) := by
  rw [List.pairwise_iff_getElem]
  intro i j hi hj hij
  rw [Vector.length_toList] at hi hj
  rw [Vector.getElem_toList, Vector.getElem_toList]
  exact hleast i hi hi j hj hij.le

end Exchange
