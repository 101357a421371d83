import Mathlib.Data.List.Basic
import Mathlib.Data.List.Infix
import Mathlib.Logic.Function.Basic
import Mathlib.Tactic.Lemma

/-!
# Descriptor rings

A producer writes descriptors into the slots of a ring, posts them, and gets the slots back
some time after a consumer has taken the descriptors out, in order, at times of its own. The
descriptors are numbered from 0 on and number `e` goes into slot `e % size`. A producer that
never has more than `size - 1` descriptors out is not noticed by the consumer: it takes every
descriptor as it was written.
-/

namespace Descriptors

variable {α : Type*}

/-- The slots, every descriptor written so far, how many were posted, taken and given back, and
what the consumer has found. -/
structure Ring (α : Type*) where
  size : Nat
  slot : Nat → α
  written : List α
  posted : Nat
  taken : Nat
  reclaimed : Nat
  found : List α

namespace Ring

def write (r : Ring α) (a : α) : Ring α :=
  { r with slot := Function.update r.slot (r.written.length % r.size) a, written := r.written ++ [a] }

def post (r : Ring α) : Ring α :=
  { r with posted := r.written.length }

def take (r : Ring α) : Ring α :=
  { r with taken := r.taken + 1, found := r.found ++ [r.slot (r.taken % r.size)] }

def reclaim (r : Ring α) (n : Nat) : Ring α :=
  { r with reclaimed := r.reclaimed + n }

/-- The counts are in order, one slot is left, the slots that are out hold what was written, and
the consumer has found what was written. -/
structure Inv (r : Ring α) : Prop where
  reclaimed_le : r.reclaimed ≤ r.taken
  taken_le : r.taken ≤ r.posted
  posted_le : r.posted ≤ r.written.length
  room : r.written.length < r.reclaimed + r.size
  slots : ∀ e, r.reclaimed ≤ e → e < r.written.length → r.written[e]? = some (r.slot (e % r.size))
  found : r.found = r.written.take r.taken

variable {r : Ring α}

lemma Inv.write (h : r.Inv) (hroom : r.written.length + 1 < r.reclaimed + r.size)
    (a : α) : (r.write a).Inv := by
  have hreclaimed := h.reclaimed_le
  have htaken := h.taken_le
  have hposted := h.posted_le
  have hlen : (r.write a).written.length = r.written.length + 1 := by simp [Ring.write]
  refine ⟨hreclaimed, htaken, ?_, ?_, ?_, ?_⟩
  · rw [hlen]
    exact hposted.trans (Nat.le_succ _)
  · rw [hlen]
    exact hroom
  · intro e hlow hhigh
    rw [hlen] at hhigh
    rcases Nat.lt_succ_iff_lt_or_eq.mp hhigh with hold | rfl
    · -- an older descriptor is less than a round behind, so in another slot
      have hne : e % r.size ≠ r.written.length % r.size := by
        intro hsame
        have hdiv : (r.written.length - e) % r.size = 0 := Nat.sub_mod_eq_zero_of_mod_eq hsame.symm
        have hsmall : r.written.length - e < r.size := by
          change r.reclaimed ≤ e at hlow
          omega
        rw [Nat.mod_eq_of_lt hsmall] at hdiv
        omega
      dsimp only [Ring.write]
      rw [List.getElem?_append_left hold, Function.update_of_ne hne]
      exact h.slots e hlow hold
    · simp [Ring.write]
  · dsimp only [Ring.write]
    rw [List.take_append_of_le_length (htaken.trans hposted)]
    exact h.found

lemma Inv.post (h : r.Inv) : r.post.Inv :=
  ⟨h.reclaimed_le, h.taken_le.trans h.posted_le, le_rfl, h.room, h.slots, h.found⟩

lemma Inv.take (h : r.Inv) (hmore : r.taken < r.posted) : r.take.Inv := by
  have hposted := h.posted_le
  refine ⟨h.reclaimed_le.trans (Nat.le_succ _), hmore, hposted, h.room, h.slots, ?_⟩
  have hslot := h.slots r.taken h.reclaimed_le (by omega)
  dsimp only [Ring.take]
  rw [List.take_add_one, hslot, h.found]
  rfl

lemma Inv.reclaim (h : r.Inv) {n : Nat} (hn : r.reclaimed + n ≤ r.taken) : (r.reclaim n).Inv := by
  have hroom := h.room
  refine ⟨hn, h.taken_le, h.posted_le, ?_, ?_, h.found⟩
  · dsimp only [Ring.reclaim]
    omega
  · intro e hlow
    exact h.slots e ((Nat.le_add_right _ _).trans hlow)

end Ring

end Descriptors
