import Libpop.Buf

/-!
# Netmap rings

A netmap ring and the helpers of `net/netmap_user.h` that the applications call. The indices
go around the slots; netmap keeps `cur` and `tail` in this order behind `head`.
-/

namespace Libpop

structure NetmapRing where
  numSlots : Nat
  head : Nat
  cur : Nat
  tail : Nat
  slot : Nat → NetmapSlot

namespace NetmapRing

/-- How far `j` is ahead of `i` around the ring. -/
def ahead (r : NetmapRing) (i j : Nat) : Nat :=
  if i ≤ j then j - i else j + r.numSlots - i

structure Valid (r : NetmapRing) : Prop where
  head_lt : r.head < r.numSlots
  cur_lt : r.cur < r.numSlots
  tail_lt : r.tail < r.numSlots
  order : r.ahead r.head r.cur ≤ r.ahead r.head r.tail

end NetmapRing

def nmRingSpace (r : NetmapRing) : Nat :=
  r.ahead r.cur r.tail

def nmRingNext (r : NetmapRing) (i : Nat) : Nat :=
  if i + 1 = r.numSlots then 0 else i + 1

lemma nmRingNext_eq {r : NetmapRing} {i : Nat} (h : i < r.numSlots) :
    nmRingNext r i = (i + 1) % r.numSlots := by
  unfold nmRingNext
  by_cases he : i + 1 = r.numSlots
  · rw [if_pos he, he, Nat.mod_self]
  · rw [if_neg he, Nat.mod_eq_of_lt (by omega)]

def nmRingEmpty (r : NetmapRing) : Bool :=
  decide (r.head = r.tail)

end Libpop
