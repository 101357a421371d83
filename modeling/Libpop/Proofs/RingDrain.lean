import Libpop.Circular
import Libpop.Execution
import Libpop.RxRing

/-!
# Draining a receive ring

The loops that empty a receive ring move `head` one slot on until it meets `tail`. The distance
around the ring is their measure: it is the number of iterations, the slots visited are those
of the cyclic interval in their order, and the counters are sums over it.
-/

namespace Libpop.Proofs
open Execution NetmapRing

/-! ### Walking around a ring -/

section Walk

variable {r : NetmapRing} {i j : Nat}

lemma ahead_lt (hi : i < r.numSlots) (hj : j < r.numSlots) : r.ahead i j < r.numSlots := by
  unfold ahead
  split <;> omega

lemma add_ahead_mod (hi : i < r.numSlots) (hj : j < r.numSlots) :
    (i + r.ahead i j) % r.numSlots = j := by
  unfold ahead
  split
  · rw [Nat.add_sub_cancel' ‹i ≤ j›, Nat.mod_eq_of_lt hj]
  · have hsum : i + (j + r.numSlots - i) = j + r.numSlots := by omega
    rw [hsum, Nat.add_mod_right, Nat.mod_eq_of_lt hj]

lemma add_mod_ne_of_lt_ahead (hi : i < r.numSlots) (hj : j < r.numSlots) {k : Nat}
    (hk : k < r.ahead i j) : (i + k) % r.numSlots ≠ j := by
  unfold ahead at hk
  by_cases hwrap : i + k < r.numSlots
  · rw [Nat.mod_eq_of_lt hwrap]
    split at hk <;> omega
  · have hlt : i + k - r.numSlots < r.numSlots := by
      split at hk <;> omega
    rw [Nat.mod_eq_sub_mod (by omega), Nat.mod_eq_of_lt hlt]
    split at hk <;> omega

end Walk

section Release

variable {r : NetmapRing} (hh : r.head < r.numSlots)

@[simp] lemma release_iterate_numSlots (r : NetmapRing) (k : Nat) :
    (release^[k] r).numSlots = r.numSlots := by
  induction k with
  | zero => rfl
  | succ k ih =>
    rw [Function.iterate_succ_apply']
    exact ih

@[simp] lemma release_iterate_tail (r : NetmapRing) (k : Nat) : (release^[k] r).tail = r.tail := by
  induction k with
  | zero => rfl
  | succ k ih =>
    rw [Function.iterate_succ_apply']
    exact ih

@[simp] lemma release_iterate_slot (r : NetmapRing) (k : Nat) : (release^[k] r).slot = r.slot := by
  induction k with
  | zero => rfl
  | succ k ih =>
    rw [Function.iterate_succ_apply']
    exact ih

include hh

lemma release_iterate_head (k : Nat) : (release^[k] r).head = (r.head + k) % r.numSlots := by
  induction k with
  | zero => exact (Nat.mod_eq_of_lt hh).symm
  | succ k ih =>
    have hlt : (r.head + k) % r.numSlots < r.numSlots := Nat.mod_lt _ (Nat.zero_lt_of_lt hh)
    rw [Function.iterate_succ_apply']
    change nmRingNext (release^[k] r) (release^[k] r).head = _
    rw [nmRingNext_eq (by rw [ih, release_iterate_numSlots]; exact hlt), ih,
      release_iterate_numSlots, Nat.mod_add_mod, Nat.add_assoc]

/-- `cur` goes along with `head` from the first iteration on. -/
lemma release_iterate_cur {k : Nat} (hk : k ≠ 0) :
    (release^[k] r).cur = (r.head + k) % r.numSlots := by
  obtain ⟨k, rfl⟩ := Nat.exists_eq_succ_of_ne_zero hk
  rw [← release_iterate_head hh, Function.iterate_succ_apply']
  rfl

variable (ht : r.tail < r.numSlots)

include ht

lemma nmRingEmpty_last : nmRingEmpty (release^[r.ahead r.head r.tail] r) = true := by
  unfold nmRingEmpty
  rw [decide_eq_true_eq, release_iterate_head hh, release_iterate_tail]
  exact add_ahead_mod hh ht

lemma nmRingEmpty_before {k : Nat} (hk : k < r.ahead r.head r.tail) :
    nmRingEmpty (release^[k] r) = false := by
  unfold nmRingEmpty
  rw [decide_eq_false_iff_not, release_iterate_head hh, release_iterate_tail]
  exact add_mod_ne_of_lt_ahead hh ht hk

end Release

/-- What emptying a ring leaves: `head` and, if there was anything to release, `cur` at `tail`. -/
def emptied (r : NetmapRing) : NetmapRing :=
  { r with head := r.tail, cur := if r.head = r.tail then r.cur else r.tail }

lemma release_iterate_ahead {r : NetmapRing} (hh : r.head < r.numSlots) (ht : r.tail < r.numSlots) :
    release^[r.ahead r.head r.tail] r = emptied r := by
  have hhead := release_iterate_head hh (r.ahead r.head r.tail)
  rw [add_ahead_mod hh ht] at hhead
  have hcur :
      (release^[r.ahead r.head r.tail] r).cur = if r.head = r.tail then r.cur else r.tail := by
    by_cases he : r.head = r.tail
    · have hzero : r.ahead r.head r.tail = 0 := by
        unfold ahead
        rw [if_pos he.le]
        omega
      rw [hzero, if_pos he]
      rfl
    · have hne : r.ahead r.head r.tail ≠ 0 := by
        unfold ahead
        split <;> omega
      rw [if_neg he, release_iterate_cur hh hne]
      exact add_ahead_mod hh ht
  have hslots := release_iterate_numSlots r (r.ahead r.head r.tail)
  have htail := release_iterate_tail r (r.ahead r.head r.tail)
  have hslot := release_iterate_slot r (r.ahead r.head r.tail)
  generalize release^[r.ahead r.head r.tail] r = s at *
  cases s
  simp_all [emptied]

theorem flush_eq {r : NetmapRing} (hh : r.head < r.numSlots) (ht : r.tail < r.numSlots) :
    r.flush = some (emptied r) := by
  unfold flush
  rw [Loop.whileLoop_eq_some_iff]
  refine ⟨r.ahead r.head r.tail, ahead_lt hh ht, release_iterate_ahead hh ht, ?_, ?_⟩
  · rw [← release_iterate_ahead hh ht, nmRingEmpty_last hh ht]
    rfl
  · intro j hj
    rw [nmRingEmpty_before hh ht hj]
    rfl

/-! ### The receivers -/

/-- Eight times the lengths of `k` slots from `head` on. -/
def drainedBits (r : NetmapRing) (k : Nat) : Nat :=
  8 * ((Circular.slots r.numSlots r.head k).map fun i => (r.slot i).len.toNat).sum

lemma toNat_slotBits (len : BitVec 16) :
    ((len.setWidth 32) <<< 3).setWidth 64 = BitVec.ofNat 64 (8 * len.toNat) := by
  have hlt := len.isLt
  apply BitVec.eq_of_toNat_eq
  rw [BitVec.toNat_setWidth, Word.toNat_shiftLeft_mul, BitVec.toNat_setWidth, BitVec.toNat_ofNat]
  omega

lemma drainedBits_succ (r : NetmapRing) (k : Nat) :
    drainedBits r (k + 1) = drainedBits r k + 8 * (r.slot ((r.head + k) % r.numSlots)).len.toNat := by
  unfold drainedBits
  rw [Circular.slots_succ, List.map_append, List.sum_append, Nat.mul_add]
  simp

lemma drainBody_iterate {r : NetmapRing} (hh : r.head < r.numSlots) (k : Nat) :
    drainBody^[k] ⟨r, 0, 0, []⟩ = ⟨release^[k] r, BitVec.ofNat 64 k, BitVec.ofNat 64 (drainedBits r k),
      Circular.slots r.numSlots r.head k⟩ := by
  induction k with
  | zero => rfl
  | succ k ih =>
    rw [Function.iterate_succ_apply', ih, Function.iterate_succ_apply', drainedBits_succ,
      Circular.slots_succ, BitVec.ofNat_add, BitVec.ofNat_add]
    unfold drainBody
    dsimp only
    rw [toNat_slotBits, release_iterate_slot, release_iterate_head hh]
    rfl

lemma receiverDrain_eq {r : NetmapRing} (hh : r.head < r.numSlots) (ht : r.tail < r.numSlots) :
    receiverDrain r = some ⟨emptied r, BitVec.ofNat 64 (r.ahead r.head r.tail),
      BitVec.ofNat 64 (drainedBits r (r.ahead r.head r.tail)),
      Circular.slots r.numSlots r.head (r.ahead r.head r.tail)⟩ := by
  unfold receiverDrain
  rw [Loop.whileLoop_eq_some_iff]
  refine ⟨r.ahead r.head r.tail, ahead_lt hh ht, ?_, ?_, ?_⟩
  · rw [drainBody_iterate hh, release_iterate_ahead hh ht]
  · rw [← release_iterate_ahead hh ht, nmRingEmpty_last hh ht]
    rfl
  · intro j hj
    rw [drainBody_iterate hh, nmRingEmpty_before hh ht hj]
    rfl

/-- `cur` is not written in a ring that was empty, but netmap's order of the indices has it at `tail`
then. -/
lemma emptied_cur {r : NetmapRing} (h : r.head ≠ r.tail ∨ r.Valid) : (emptied r).cur = r.tail := by
  unfold emptied
  split
  · rename_i he
    have h := h.resolve_left (not_not.mpr he)
    have horder := h.order
    have hcur := h.cur_lt
    have hhead := h.head_lt
    unfold ahead at horder
    dsimp only
    split at horder <;> split at horder <;> omega
  · rfl

/-- For every receive ring with `head` and `tail` in range the drain loop of a receiver ends with
the ring empty, has visited the slots from `head` to `tail` once and in their order, and has
counted them and eight times their lengths; the thread's counters grow by as much. netmap's
order of the indices is needed only for the `cur` of a ring that was empty before. -/
theorem receiver_drains {r : NetmapRing} (hh : r.head < r.numSlots) (ht : r.tail < r.numSlots) :
    ∃ s, receiverDrain r = some s ∧
      s.ring.head = r.tail ∧ s.ring.tail = r.tail ∧
        (r.head ≠ r.tail ∨ r.Valid → s.ring.cur = r.tail) ∧
      s.ring.numSlots = r.numSlots ∧ s.ring.slot = r.slot ∧
      s.visited = Circular.slots r.numSlots r.head (r.ahead r.head r.tail) ∧ s.visited.Nodup ∧
      s.npkts = BitVec.ofNat 64 (r.ahead r.head r.tail) ∧
      s.nbits = BitVec.ofNat 64 (8 * (s.visited.map fun i => (r.slot i).len.toNat).sum) ∧
      ∀ (th : Receiver) (sync : RxSync), th.stopped = false → sync.apply th.ring = r →
        receiverStep th (some sync) =
          some { th with ring := s.ring, npkts := th.npkts + s.npkts, nbits := th.nbits + s.nbits } := by
  refine ⟨_, receiverDrain_eq hh ht, rfl, rfl, emptied_cur, rfl, rfl, rfl, ?_, rfl, rfl, ?_⟩
  · exact Circular.nodup_slots (ahead_lt hh ht).le
  · intro th sync hrun hsync
    unfold receiverStep
    rw [if_neg (by simp [hrun])]
    simp only [hsync, receiverDrain_eq hh ht]

/-- Five slots, of which 4 and 0 have been received. -/
def wrappedRing : NetmapRing :=
  ⟨5, 4, 4, 1, fun i => ⟨BitVec.ofNat 16 (60 + i), 0, 0⟩⟩

theorem receiver_drains_wrapped :
    wrappedRing.Valid ∧ ∃ s, receiverDrain wrappedRing = some s ∧ s.visited = [4, 0] ∧ s.npkts = 2 ∧
      s.nbits = 992 ∧ s.ring.head = 1 ∧ s.ring.cur = 1 := by
  have hvalid : wrappedRing.Valid := ⟨by decide, by decide, by decide, by decide⟩
  obtain ⟨s, hs, hhead, -, hcur, -, -, hvisited, -, hnpkts, hnbits, -⟩ :=
    receiver_drains hvalid.head_lt hvalid.tail_lt
  have hslots : s.visited = [4, 0] := by
    rw [hvisited]
    decide
  refine ⟨hvalid, s, hs, hslots, hnpkts, ?_, hhead, hcur (.inr hvalid)⟩
  rw [hnbits, hslots]
  decide

/-! ### Whole runs of a receiver -/

/-- The slots that hold what a `NIOCRXSYNC` has received. -/
def arrived (numSlots : Nat) (sync : RxSync) : List Nat :=
  Circular.slots numSlots sync.head
    (if sync.head ≤ sync.tail then sync.tail - sync.head else sync.tail + numSlots - sync.head)

def arrivedBits (numSlots : Nat) (sync : RxSync) : Nat :=
  8 * ((arrived numSlots sync).map fun i => (sync.len i).toNat).sum

/-- netmap answers with indices in range. -/
def SyncInRange (numSlots : Nat) (sync : RxSync) : Prop :=
  sync.head < numSlots ∧ sync.tail < numSlots

lemma receiverStep_sync {s : Receiver} (hrun : s.stopped = false) {sync : RxSync}
    (hsync : SyncInRange s.ring.numSlots sync) :
    receiverStep s (some sync) = some
      { s with ring := emptied (sync.apply s.ring)
               npkts := s.npkts + BitVec.ofNat 64 (arrived s.ring.numSlots sync).length
               nbits := s.nbits + BitVec.ofNat 64 (arrivedBits s.ring.numSlots sync) } := by
  have hdrain := receiverDrain_eq (r := sync.apply s.ring) hsync.1 hsync.2
  unfold receiverStep
  rw [if_neg (by simp [hrun])]
  simp only [hdrain, arrived, Circular.length_slots]
  rfl

/-- Over a run of passes the counters of a receiver grow by the packets that netmap has delivered
and by their bits. -/
theorem receiver_counts {s : Receiver} (hrun : s.stopped = false) {syncs : List RxSync}
    (hsyncs : ∀ sync ∈ syncs, SyncInRange s.ring.numSlots sync) :
    ∃ t, exec receiverStep s (syncs.map some) = some t ∧
      t.npkts = s.npkts + BitVec.ofNat 64 (syncs.map fun sync => (arrived s.ring.numSlots sync).length).sum ∧
      t.nbits = s.nbits + BitVec.ofNat 64 (syncs.map (arrivedBits s.ring.numSlots)).sum := by
  induction syncs generalizing s with
  | nil => exact ⟨s, rfl, by simp, by simp⟩
  | cons sync syncs ih =>
    have hstep := receiverStep_sync hrun (hsyncs sync List.mem_cons_self)
    obtain ⟨t, ht, hnpkts, hnbits⟩ := ih (s := { s with
        ring := emptied (sync.apply s.ring)
        npkts := s.npkts + BitVec.ofNat 64 (arrived s.ring.numSlots sync).length
        nbits := s.nbits + BitVec.ofNat 64 (arrivedBits s.ring.numSlots sync) })
      hrun fun later hm => hsyncs later (List.mem_cons_of_mem sync hm)
    refine ⟨t, (exec_cons hstep).mpr ht, ?_, ?_⟩
    · rw [hnpkts, List.map_cons, List.sum_cons, BitVec.ofNat_add, ← BitVec.add_assoc]
      rfl
    · rw [hnbits, List.map_cons, List.sum_cons, BitVec.ofNat_add, ← BitVec.add_assoc]
      rfl

end Libpop.Proofs
