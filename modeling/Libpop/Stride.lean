import Mathlib.Data.Finset.Union
import Mathlib.Order.Interval.Finset.Nat
import Mathlib.Tactic.Lemma

/-!
# Walks by a fixed stride

Positions `a + i * n` below an end `b`. A walk by strides has room for a whole stride at
every one of its positions exactly when the stride divides the distance, and a walk that
returns to its start after `c` positions is the walk of its index modulo `c`.
-/

namespace Stride

variable {a b n : Nat}

lemma room_iff (hn : 0 < n) (hab : a ≤ b) :
    (∀ i, a + i * n < b → a + (i + 1) * n ≤ b) ↔ n ∣ b - a := by
  constructor
  · intro h
    have hdiv := Nat.div_add_mod (b - a) n
    have hmod := Nat.mod_lt (b - a) hn
    by_contra hdvd
    have hpos : (b - a) % n ≠ 0 := fun hzero => hdvd (Nat.dvd_of_mod_eq_zero hzero)
    -- the last position below the end
    have hlast := h ((b - a) / n)
    rw [Nat.add_mul, Nat.mul_comm, Nat.one_mul] at hlast
    omega
  · rintro ⟨q, hq⟩ i hi
    have hlt : i < q := by
      apply Nat.lt_of_mul_lt_mul_left (a := n)
      rw [Nat.mul_comm n i]
      omega
    have hle : (i + 1) * n ≤ n * q := Nat.mul_comm n q ▸ Nat.mul_le_mul_right n hlt
    omega

/-- The steps until the walk is no longer below its end. -/
def count (a b n : Nat) : Nat :=
  (b - a + n - 1) / n

lemma lt_count_iff (hn : 0 < n) {i : Nat} : i < count a b n ↔ a + i * n < b := by
  unfold count
  rw [Nat.lt_iff_add_one_le, Nat.le_div_iff_mul_le hn, Nat.add_mul, Nat.one_mul]
  omega

/-- The index after `k` in a walk of `c` positions that starts over. -/
def turn (c k : Nat) : Nat :=
  if k + 1 < c then k + 1 else 0

lemma turn_lt {c k : Nat} (hk : k < c) : turn c k < c := by
  unfold turn
  split <;> omega

lemma turn_add_mod {c k : Nat} (hk : k < c) (j : Nat) : (turn c k + j) % c = (k + (j + 1)) % c := by
  unfold turn
  split
  · congr 1
    omega
  · have hend : k + (j + 1) = 0 + j + c := by omega
    rw [hend, Nat.add_mod_right]

/-! ### Pieces of equal length -/

lemma disjoint_Ico {w i j : Nat} (hij : i ≠ j) :
    Disjoint (Finset.Ico (w * i) (w * (i + 1))) (Finset.Ico (w * j) (w * (j + 1))) := by
  rw [Finset.disjoint_left]
  intro x hi hj
  rw [Finset.mem_Ico] at hi hj
  rcases Nat.lt_or_gt_of_ne hij with hlt | hlt
  · have hle : w * (i + 1) ≤ w * j := Nat.mul_le_mul_left w hlt
    omega
  · have hle : w * (j + 1) ≤ w * i := Nat.mul_le_mul_left w hlt
    omega

lemma biUnion_Ico (w c : Nat) :
    (Finset.range c).biUnion (fun i => Finset.Ico (w * i) (w * (i + 1))) = Finset.Ico 0 (w * c) := by
  induction c with
  | zero => rfl
  | succ c ih =>
    rw [Finset.range_add_one, Finset.biUnion_insert, ih, Finset.union_comm]
    apply Finset.Ico_union_Ico_eq_Ico (Nat.zero_le _)
    exact Nat.mul_le_mul_left w (Nat.le_succ c)

end Stride
