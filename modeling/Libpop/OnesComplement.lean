import Mathlib.Data.Nat.ModEq
import Mathlib.Algebra.BigOperators.Group.List.Basic
import Mathlib.Tactic.Lemma

/-!
# Ones' complement sums

Sums of words of a fixed width in which the carry goes around: a word is at most `m`, all ones,
and a sum beyond `m` is reduced by `m`. Such a sum is congruent to the plain one modulo `m`,
and of the two zeros it is the word 0 only when every summand is. These facts determine it,
whatever the order of its summands.
-/

namespace OnesComplement

variable {m : Nat}

/-- Addition with end-around carry. -/
def add (m a b : Nat) : Nat :=
  if a + b > m then a + b - m else a + b

def sum (m s : Nat) (ws : List Nat) : Nat :=
  ws.foldl (add m) s

lemma add_le {a b : Nat} (ha : a ≤ m) (hb : b ≤ m) : add m a b ≤ m := by
  unfold add
  split <;> omega

lemma add_modEq (a b : Nat) : add m a b ≡ a + b [MOD m] := by
  unfold add
  split
  · rename_i hgt
    have hback : a + b - m + m = a + b := by omega
    rw [Nat.ModEq, ← hback, Nat.add_mod_right, Nat.add_sub_cancel]
  · rfl

lemma add_eq_zero_iff {a b : Nat} : add m a b = 0 ↔ a = 0 ∧ b = 0 := by
  unfold add
  split <;> omega

variable {s : Nat} {ws : List Nat}

lemma sum_cons (w : Nat) : sum m s (w :: ws) = sum m (add m s w) ws :=
  rfl

lemma sum_append (as bs : List Nat) : sum m s (as ++ bs) = sum m (sum m s as) bs :=
  List.foldl_append

lemma sum_le (hs : s ≤ m) (hws : ∀ w ∈ ws, w ≤ m) : sum m s ws ≤ m := by
  induction ws generalizing s with
  | nil => exact hs
  | cons w ws ih =>
    rw [sum_cons]
    apply ih (add_le hs (hws w List.mem_cons_self))
    intro v hv
    exact hws v (List.mem_cons_of_mem w hv)

theorem sum_modEq (s : Nat) (ws : List Nat) : sum m s ws ≡ s + ws.sum [MOD m] := by
  induction ws generalizing s with
  | nil => rfl
  | cons w ws ih =>
    rw [sum_cons, List.sum_cons, ← Nat.add_assoc]
    exact (ih _).trans ((add_modEq s w).add_right _)

theorem sum_eq_zero_iff : sum m s ws = 0 ↔ s + ws.sum = 0 := by
  induction ws generalizing s with
  | nil => simp [sum]
  | cons w ws ih =>
    rw [sum_cons, ih, List.sum_cons, Nat.add_eq_zero_iff, add_eq_zero_iff]
    omega

/-- A sum that is a multiple of all ones, of words that are not all zero, is all ones. -/
theorem sum_eq_allOnes (hs : s ≤ m) (hws : ∀ w ∈ ws, w ≤ m) (hpos : 0 < s + ws.sum)
    (hdvd : m ∣ s + ws.sum) : sum m s ws = m := by
  have hle := sum_le hs hws
  have hne : sum m s ws ≠ 0 := by
    rw [Ne, sum_eq_zero_iff]
    omega
  have hmod : m ∣ sum m s ws := (Nat.modEq_zero_iff_dvd.mp
    ((sum_modEq s ws).trans (Nat.modEq_zero_iff_dvd.mpr hdvd)))
  exact le_antisymm hle (Nat.le_of_dvd (Nat.pos_of_ne_zero hne) hmod)

/-- A sum depends only on the plain total. -/
theorem sum_congr {s' : Nat} {ws' : List Nat} (hs : s ≤ m) (hws : ∀ w ∈ ws, w ≤ m) (hs' : s' ≤ m)
    (hws' : ∀ w ∈ ws', w ≤ m) (htotal : s + ws.sum = s' + ws'.sum) : sum m s ws = sum m s' ws' := by
  have hle := sum_le hs hws
  have hle' := sum_le hs' hws'
  have hmod : sum m s ws ≡ sum m s' ws' [MOD m] := by
    have htot := sum_modEq (m := m) s ws
    rw [htotal] at htot
    exact htot.trans (sum_modEq s' ws').symm
  have hzero : sum m s ws = 0 ↔ sum m s' ws' = 0 := by
    rw [sum_eq_zero_iff, sum_eq_zero_iff, htotal]
  -- two words of one residue that differ are 0 and all ones
  by_cases h0 : sum m s ws = 0
  · rw [h0, hzero.mp h0]
  · have h0' := mt hzero.mpr h0
    rcases le_total (sum m s ws) (sum m s' ws') with h | h
    · have hdvd := (Nat.modEq_iff_dvd' h).mp hmod
      have heq := Nat.eq_zero_of_dvd_of_lt hdvd (by omega)
      omega
    · have hdvd := (Nat.modEq_iff_dvd' h).mp hmod.symm
      have heq := Nat.eq_zero_of_dvd_of_lt hdvd (by omega)
      omega

end OnesComplement
