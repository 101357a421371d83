import Mathlib.Data.List.Basic
import Mathlib.Data.List.Infix
import Mathlib.Data.List.Nodup
import Mathlib.Tactic.Lemma

/-!
# Slots of a ring

The entries that pass through a ring of `n` slots are numbered from 0 on, and entry `k`
lives in slot `k % n`. A window of at most `n` consecutive entries has its slots to itself.
-/

namespace Circular

/-- The slots of `len` consecutive entries from entry `start` on. -/
def slots (n start len : Nat) : List Nat :=
  (List.range len).map fun k => (start + k) % n

variable {n start len : Nat}

@[simp]
lemma length_slots : (slots n start len).length = len := by
  simp [slots]

lemma mem_slots {x : Nat} : x ∈ slots n start len ↔ ∃ k < len, (start + k) % n = x := by
  simp [slots]

lemma slots_mod : slots n (start % n) len = slots n start len := by
  unfold slots
  apply List.map_congr_left
  intro k _
  rw [Nat.mod_add_mod]

lemma slots_append (more : Nat) :
    slots n start len ++ slots n (start + len) more = slots n start (len + more) := by
  unfold slots
  rw [List.range_add, List.map_append, List.map_map]
  congr 1
  apply List.map_congr_left
  intro k _
  rw [Function.comp_apply, Nat.add_assoc]

lemma slots_split {mid stop : Nat} (h : start ≤ mid) (h' : mid ≤ stop) :
    slots n start (mid - start) ++ slots n mid (stop - mid) = slots n start (stop - start) := by
  obtain ⟨len, rfl⟩ := Nat.exists_eq_add_of_le h
  obtain ⟨more, rfl⟩ := Nat.exists_eq_add_of_le h'
  rw [Nat.add_sub_cancel_left, Nat.add_sub_cancel_left, slots_append, Nat.add_assoc,
    Nat.add_sub_cancel_left]

lemma slots_succ : slots n start (len + 1) = slots n start len ++ [(start + len) % n] :=
  (slots_append 1).symm

lemma slots_prefix {more : Nat} (h : len ≤ more) : slots n start len <+: slots n start more := by
  obtain ⟨rest, rfl⟩ := Nat.exists_eq_add_of_le h
  rw [← slots_append]
  exact List.prefix_append _ _

lemma take_slots {k : Nat} (h : k ≤ len) : (slots n start len).take k = slots n start k := by
  obtain ⟨rest, rfl⟩ := Nat.exists_eq_add_of_le h
  rw [← slots_append]
  exact List.take_left' length_slots

lemma drop_slots {k : Nat} (h : k ≤ len) :
    (slots n start len).drop k = slots n (start + k) (len - k) := by
  obtain ⟨rest, rfl⟩ := Nat.exists_eq_add_of_le h
  rw [← slots_append, Nat.add_sub_cancel_left]
  exact List.drop_left' length_slots

/-- Entries of one window of `n` share no slot. -/
lemma notMem_slots {later more x : Nat} (hle : start + len ≤ later)
    (hwin : later + more ≤ start + n) (hx : x ∈ slots n later more) : x ∉ slots n start len := by
  intro hy
  obtain ⟨j, hj, rfl⟩ := mem_slots.mp hx
  obtain ⟨k, hk, he⟩ := mem_slots.mp hy
  have hlt : later + j - (start + k) < n := by omega
  have hmod : (later + j - (start + k)) % n = 0 := Nat.sub_mod_eq_zero_of_mod_eq he.symm
  rw [Nat.mod_eq_of_lt hlt] at hmod
  omega

lemma nodup_slots (h : len ≤ n) : (slots n start len).Nodup := by
  induction len with
  | zero => simp [slots]
  | succ len ih =>
    rw [slots_succ, ← List.concat_eq_append]
    have hnew : (start + len) % n ∈ slots n (start + len) 1 := mem_slots.mpr ⟨0, Nat.one_pos, rfl⟩
    exact List.Nodup.concat (notMem_slots le_rfl (by omega) hnew) (ih (by omega))

end Circular
