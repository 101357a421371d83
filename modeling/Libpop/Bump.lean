import Mathlib.Algebra.GroupWithZero.Nat
import Mathlib.Data.Set.BooleanAlgebra
import Mathlib.Order.CompletePartialOrder
import Mathlib.Order.Interval.Set.Disjoint
import Mathlib.Tactic.Lemma

/-!
# Bump allocation

An allocator that never takes anything back and hands out the next free units of its
region. The extents it has handed out are packed: each starts where the one before it
ended.
-/

namespace Bump

/-- An extent of `len` units from unit `start` on. -/
structure Extent where
  start : Nat
  len : Nat

namespace Extent

def stop (e : Extent) : Nat :=
  e.start + e.len

/-- The bytes of an extent with units of `unit` bytes, in a region that starts at `base`. -/
def bytes (base unit : Nat) (e : Extent) : Set Nat :=
  Set.Ico (base + e.start * unit) (base + e.stop * unit)

lemma bytes_subset {e : Extent} {cap : Nat} (h : e.stop ≤ cap) (base unit : Nat) :
    e.bytes base unit ⊆ Set.Ico base (base + cap * unit) := by
  have hstop : e.stop * unit ≤ cap * unit := Nat.mul_le_mul_right unit h
  exact Set.Ico_subset_Ico (Nat.le_add_right _ _) (Nat.add_le_add_left hstop base)

lemma disjoint_bytes {e f : Extent} (h : e.stop ≤ f.start) (base unit : Nat) :
    Disjoint (e.bytes base unit) (f.bytes base unit) := by
  have hstop : e.stop * unit ≤ f.start * unit := Nat.mul_le_mul_right unit h
  apply Set.disjoint_left.mpr
  intro x hx hy
  have hlt := hx.2
  have hge := hy.1
  omega

end Extent

/-- The extents handed out so far, oldest first, and the first free unit. -/
inductive Packed : List Extent → Nat → Prop
  | nil : Packed [] 0
  | snoc {es : List Extent} {used : Nat} (h : Packed es used) (n : Nat) :
      Packed (es ++ [⟨used, n⟩]) (used + n)

lemma Packed.sum_len {es : List Extent} {used : Nat} (h : Packed es used) :
    (es.map Extent.len).sum = used := by
  induction h with
  | nil => rfl
  | snoc h n ih => simp [ih]

lemma Packed.stop_le {es : List Extent} {used : Nat} (h : Packed es used) :
    ∀ e ∈ es, e.stop ≤ used := by
  induction h with
  | nil => simp
  | snoc h n ih =>
    intro e he
    rcases List.mem_append.mp he with hold | hnew
    · exact (ih e hold).trans (Nat.le_add_right _ _)
    · rw [List.mem_singleton.mp hnew]
      exact le_rfl

lemma Packed.pairwise {es : List Extent} {used : Nat} (h : Packed es used) :
    es.Pairwise (fun e f => e.stop ≤ f.start) := by
  induction h with
  | nil => exact List.Pairwise.nil
  | snoc h n ih =>
    apply List.pairwise_append.mpr
    refine ⟨ih, List.pairwise_singleton _ _, ?_⟩
    intro e he f hf
    rw [List.mem_singleton.mp hf]
    exact h.stop_le e he

end Bump
