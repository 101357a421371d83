import Libpop.Descriptors
import Libpop.Receive
import Libpop.Proofs.NmgenTransmit
import Libpop.Proofs.RxRings

/-!
# The receive path

The ring of a receiver as a descriptor ring that netmap fills and the receiver empties. Whatever
the NIC does while the loop runs, each packet is counted once, with its length and in order, and
the NIC writes no packet over one that was not counted yet.
-/

namespace Libpop.Proofs
open Execution NetmapRing

/-! ### Deliveries -/

/-- A receive ring whose first packet went into slot `base`: the slots before it are taken as used. -/
def rxDescriptors (base : Nat) (ring : NetmapRing) (delivered : List (BitVec 16))
    (drained returned : Nat) (seen : List (BitVec 16)) : Descriptors.Ring (BitVec 16) where
  size := ring.numSlots
  slot := fun i => (ring.slot i).len
  written := List.replicate base 0 ++ delivered
  posted := base + delivered.length
  taken := base + drained
  reclaimed := base + returned
  found := List.replicate base 0 ++ seen

structure RxQueue (base : Nat) (ring : NetmapRing) (delivered : List (BitVec 16))
    (drained returned : Nat) (seen : List (BitVec 16)) : Prop where
  queue : (rxDescriptors base ring delivered drained returned seen).Inv
  head : ring.head = (base + drained) % ring.numSlots
  tail : ring.tail = (base + delivered.length) % ring.numSlots

section Queue

variable {base drained returned : Nat} {ring : NetmapRing} {delivered seen : List (BitVec 16)}

lemma RxQueue.room (h : RxQueue base ring delivered drained returned seen) :
    returned ≤ drained ∧ drained ≤ delivered.length ∧
      delivered.length < returned + ring.numSlots := by
  have hreclaimed := h.queue.reclaimed_le
  have htaken := h.queue.taken_le
  have hroom := h.queue.room
  dsimp only [rxDescriptors] at hreclaimed htaken hroom
  rw [List.length_append, List.length_replicate] at hroom
  omega

lemma RxQueue.deliver (h : RxQueue base ring delivered drained returned seen)
    (hroom : delivered.length + 1 < returned + ring.numSlots) (len : BitVec 16) :
    RxQueue base (ring.deliver len) (delivered ++ [len]) drained returned seen := by
  obtain ⟨hreturned, hdrained, -⟩ := h.room
  have hlen : (List.replicate base (0 : BitVec 16) ++ delivered).length = base + delivered.length := by
    simp
  have hwrite := (h.queue.write (by dsimp only [rxDescriptors]; omega) len).post
  have hslot : (fun i => ((ring.deliver len).slot i).len) =
      Function.update (fun i => (ring.slot i).len) ((base + delivered.length) % ring.numSlots) len := by
    funext i
    dsimp only [NetmapRing.deliver]
    rw [h.tail]
    by_cases hi : i = (base + delivered.length) % ring.numSlots
    · rw [hi, Function.update_self, Function.update_self]
    · rw [Function.update_of_ne hi, Function.update_of_ne hi]
  refine ⟨?_, h.head, ?_⟩
  · dsimp only [rxDescriptors, Descriptors.Ring.write, Descriptors.Ring.post] at hwrite
    unfold rxDescriptors
    rw [hslot]
    simpa [hlen, Nat.add_assoc, NetmapRing.deliver] using hwrite
  · have htail : ring.tail < ring.numSlots := h.tail ▸ Nat.mod_lt _ (by omega)
    dsimp only [NetmapRing.deliver]
    rw [nmRingNext_eq htail, h.tail, Nat.mod_add_mod, List.length_append, List.length_singleton,
      Nat.add_assoc]

lemma RxQueue.delivers (lens : List (BitVec 16))
    (h : RxQueue base ring delivered drained returned seen)
    (hroom : delivered.length + lens.length < returned + ring.numSlots) :
    RxQueue base (lens.foldl NetmapRing.deliver ring) (delivered ++ lens) drained returned seen := by
  induction lens generalizing ring delivered with
  | nil => simpa using h
  | cons len lens ih =>
    rw [List.length_cons] at hroom
    have hrest := ih (h.deliver (by omega) len) (by
      rw [List.length_append, List.length_singleton]
      change _ < returned + ring.numSlots
      omega)
    rwa [List.append_assoc] at hrest

/-- The slots that were released go back to the NIC. -/
lemma RxQueue.giveBack (h : RxQueue base ring delivered drained returned seen) :
    RxQueue base ring delivered drained drained seen := by
  obtain ⟨hreturned, -, -⟩ := h.room
  have hreclaim := h.queue.reclaim (n := drained - returned) (by dsimp only [rxDescriptors]; omega)
  refine ⟨?_, h.head, h.tail⟩
  have hsum : base + returned + (drained - returned) = base + drained := by omega
  dsimp only [rxDescriptors, Descriptors.Ring.reclaim] at hreclaim
  rw [hsum] at hreclaim
  exact hreclaim

lemma RxQueue.empty_iff (h : RxQueue base ring delivered drained returned seen) :
    nmRingEmpty ring = true ↔ drained = delivered.length := by
  obtain ⟨hreturned, hdrained, hroom⟩ := h.room
  unfold nmRingEmpty
  rw [decide_eq_true_iff, h.head, h.tail]
  constructor
  · intro hsame
    have hdiv := Nat.sub_mod_eq_zero_of_mod_eq hsame.symm
    rw [Nat.mod_eq_of_lt (by omega)] at hdiv
    omega
  · intro hsame
    rw [hsame]

/-- A turn of the drain loop. -/
lemma RxQueue.drain (h : RxQueue base ring delivered drained returned seen)
    (hmore : drained < delivered.length) :
    RxQueue base ring.release delivered (drained + 1) returned (seen ++ [(ring.slot ring.head).len]) := by
  obtain ⟨hreturned, -, hroom⟩ := h.room
  have htake := h.queue.take (by dsimp only [rxDescriptors]; omega)
  refine ⟨?_, ?_, h.tail⟩
  · dsimp only [rxDescriptors, Descriptors.Ring.take] at htake
    rw [← h.head, List.append_assoc] at htake
    exact htake
  · have hhead : ring.head < ring.numSlots := h.head ▸ Nat.mod_lt _ (by omega)
    dsimp only [NetmapRing.release]
    rw [nmRingNext_eq hhead, h.head, Nat.mod_add_mod, Nat.add_assoc]

lemma RxQueue.seen_eq (h : RxQueue base ring delivered drained returned seen) :
    seen = delivered.take drained := by
  have hfound := h.queue.found
  dsimp only [rxDescriptors] at hfound
  have hlen : (List.replicate base (0 : BitVec 16)).length = base := List.length_replicate
  rw [List.take_append, hlen, List.take_of_length_le (by omega)] at hfound
  have hrest := List.append_cancel_left hfound
  rwa [Nat.add_sub_cancel_left] at hrest

end Queue

/-! ### The loop -/

/-- Eight times the sum of the lengths. -/
def bitsOfLens (lens : List (BitVec 16)) : Nat :=
  8 * (lens.map BitVec.toNat).sum

/-- The counters of the thread are behind while a pass goes on. -/
structure RecvInv (ring : NetmapRing) (s : RecvState) : Prop where
  queue : RxQueue ring.head s.pass.ring (s.received.take s.delivered) s.drained s.returned s.seen
  delivered_le : s.delivered ≤ s.received.length
  received_lt : s.received.length < s.returned + ring.numSlots
  numSlots : s.pass.ring.numSlots = ring.numSlots
  ptrs : ∀ i, (s.pass.ring.slot i).ptr = (ring.slot i).ptr
  npkts : s.npkts + (if s.pc = .drain then s.pass.npkts else 0) = BitVec.ofNat 64 s.drained
  nbits : s.nbits + (if s.pc = .drain then s.pass.nbits else 0) = BitVec.ofNat 64 (bitsOfLens s.seen)

section Loop

variable {ring : NetmapRing} {s t : RecvState}

lemma foldl_deliver_kept (lens : List (BitVec 16)) (r : NetmapRing) :
    (lens.foldl NetmapRing.deliver r).numSlots = r.numSlots ∧
      ∀ i, ((lens.foldl NetmapRing.deliver r).slot i).ptr = (r.slot i).ptr := by
  induction lens generalizing r with
  | nil => exact ⟨rfl, fun _ => rfl⟩
  | cons len lens ih =>
    obtain ⟨hnum, hptr⟩ := ih (r.deliver len)
    refine ⟨hnum, fun i => (hptr i).trans ?_⟩
    dsimp only [NetmapRing.deliver]
    by_cases hi : i = r.tail
    · rw [hi, Function.update_self]
    · rw [Function.update_of_ne hi]

lemma RecvInv.length_take (h : RecvInv ring s) :
    (s.received.take s.delivered).length = s.delivered := by
  rw [List.length_take, Nat.min_eq_left h.delivered_le]

/-- The NIC has a slot for another packet. -/
lemma RecvInv.receive (h : RecvInv ring s) (len : BitVec 16)
    (hroom : s.received.length + 1 < s.returned + s.pass.ring.numSlots) :
    RecvInv ring { s with received := s.received ++ [len] } := by
  refine { h with queue := ?_, delivered_le := ?_, received_lt := ?_ }
  · dsimp only
    rw [List.take_append_of_le_length h.delivered_le]
    exact h.queue
  · rw [List.length_append]
    exact Nat.le_add_right_of_le h.delivered_le
  · rw [List.length_append, List.length_singleton, ← h.numSlots]
    exact hroom

lemma RecvInv.sync (h : RecvInv ring s) (hpc : s.pc = .top) {n : Nat}
    (hn : s.delivered + n ≤ s.received.length) :
    RecvInv ring { s with
      pc := .drain
      pass := ⟨((s.received.drop s.delivered).take n).foldl NetmapRing.deliver s.pass.ring, 0, 0, []⟩
      delivered := s.delivered + n, returned := s.drained } := by
  obtain ⟨hreturned, -, -⟩ := h.queue.room
  have hlen : ((s.received.drop s.delivered).take n).length = n := by
    rw [List.length_take, List.length_drop]
    omega
  obtain ⟨hnum, hptr⟩ := foldl_deliver_kept ((s.received.drop s.delivered).take n) s.pass.ring
  have hlt := h.received_lt
  have hslots := h.numSlots
  have hqueue := h.queue.giveBack.delivers ((s.received.drop s.delivered).take n) (by
    rw [h.length_take, hlen]
    omega)
  rw [← List.take_add] at hqueue
  refine ⟨hqueue, hn, ?_, hnum.trans hslots, fun i => (hptr i).trans (h.ptrs i), ?_, ?_⟩
  · dsimp only
    omega
  · have hnpkts := h.npkts
    rw [hpc] at hnpkts
    exact hnpkts
  · have hnbits := h.nbits
    rw [hpc] at hnbits
    exact hnbits

lemma RecvInv.drain (h : RecvInv ring s) (hpc : s.pc = .drain)
    (hempty : nmRingEmpty s.pass.ring = false) :
    RecvInv ring { s with
      pass := drainBody s.pass, drained := s.drained + 1
      seen := s.seen ++ [(s.pass.ring.slot s.pass.ring.head).len] } := by
  obtain ⟨-, hle, -⟩ := h.queue.room
  have hne : ¬s.drained = (s.received.take s.delivered).length := by
    rw [← h.queue.empty_iff, hempty]
    decide
  refine { h with queue := h.queue.drain (by omega), npkts := ?_, nbits := ?_ }
  · have hnpkts := h.npkts
    rw [if_pos hpc] at hnpkts
    dsimp only [drainBody]
    rw [if_pos hpc, ← BitVec.add_assoc, hnpkts, BitVec.ofNat_add]
    rfl
  · have hnbits := h.nbits
    rw [if_pos hpc] at hnbits
    have hbits : bitsOfLens (s.seen ++ [(s.pass.ring.slot s.pass.ring.head).len]) =
        bitsOfLens s.seen + 8 * (s.pass.ring.slot s.pass.ring.head).len.toNat := by
      simp [bitsOfLens, Nat.mul_add]
    dsimp only [drainBody]
    rw [if_pos hpc, ← BitVec.add_assoc, hnbits, toNat_slotBits, hbits, BitVec.ofNat_add]

/-- The end of a pass: the thread has counted all that was delivered. -/
lemma RecvInv.pass (h : RecvInv ring s) (hpc : s.pc = .drain) :
    RecvInv ring { s with pc := .top, npkts := s.npkts + s.pass.npkts, nbits := s.nbits + s.pass.nbits } := by
  refine { h with npkts := ?_, nbits := ?_ }
  · have hnpkts := h.npkts
    rw [if_pos hpc] at hnpkts
    dsimp only
    rw [if_neg (by decide), hnpkts]
    exact BitVec.add_zero _
  · have hnbits := h.nbits
    rw [if_pos hpc] at hnbits
    dsimp only
    rw [if_neg (by decide), hnbits]
    exact BitVec.add_zero _

lemma RecvInv.stop (h : RecvInv ring s) (hpc : s.pc = .top) {pc : RecvPc} (hne : pc ≠ .drain) :
    RecvInv ring { s with pc := pc } := by
  refine { h with npkts := ?_, nbits := ?_ }
  · have hnpkts := h.npkts
    rw [if_neg (by simp [hpc])] at hnpkts
    dsimp only
    rw [if_neg hne, hnpkts]
  · have hnbits := h.nbits
    rw [if_neg (by simp [hpc])] at hnbits
    dsimp only
    rw [if_neg hne, hnbits]

lemma recvInv_step (s : RecvState) (op : RecvOp) (t : RecvState) (h : RecvInv ring s)
    (hs : recvStep s op = some t) : RecvInv ring t := by
  cases op with
  | receive len =>
    simp only [recvStep] at hs
    split at hs
    · rename_i hroom
      cases hs
      exact h.receive len hroom
    · cases hs
  | sync deliver =>
    cases deliver with
    | none =>
      simp only [recvStep] at hs
      split at hs
      · rename_i hpc
        cases hs
        exact h.stop hpc (by decide)
      · cases hs
    | some n =>
      simp only [recvStep] at hs
      split at hs
      · rename_i hok
        cases hs
        exact h.sync hok.1 hok.2
      · cases hs
  | drain =>
    simp only [recvStep] at hs
    split at hs
    · rename_i hpc
      split at hs
      · cases hs
        exact h.pass hpc
      · rename_i hempty
        cases hs
        exact h.drain hpc (by simpa using hempty)
    · cases hs
  | leave =>
    simp only [recvStep] at hs
    split at hs
    · rename_i hpc
      cases hs
      exact h.stop hpc (by decide)
    · cases hs

lemma recvInv_init (hh : ring.head < ring.numSlots) (ht : ring.tail < ring.numSlots) :
    RecvInv ring (recvInit ring) := by
  have hlt := ahead_lt hh ht
  have hpending : (recvInit ring).received.length = ring.ahead ring.head ring.tail := by
    simp [recvInit]
  have htake : (recvInit ring).received.take (recvInit ring).delivered = (recvInit ring).received :=
    List.take_length
  refine ⟨?_, le_rfl, ?_, rfl, fun _ => rfl, rfl, rfl⟩
  · rw [htake]
    refine ⟨⟨le_rfl, Nat.le_add_right _ _, ?_, ?_, ?_, ?_⟩, ?_, ?_⟩
    · simp [rxDescriptors]
    · dsimp only [rxDescriptors]
      rw [List.length_append, List.length_replicate, hpending]
      change _ < ring.head + 0 + ring.numSlots
      omega
    · intro e hlow hhigh
      dsimp only [rxDescriptors] at hlow hhigh ⊢
      rw [List.length_append, List.length_replicate, hpending] at hhigh
      change ring.head + 0 ≤ e at hlow
      have hsum : ring.head + (e - ring.head) = e := by omega
      rw [List.getElem?_append_right (by rw [List.length_replicate]; omega), List.length_replicate]
      dsimp only [recvInit]
      rw [List.getElem?_map, Circular.slots, List.getElem?_map, List.getElem?_range (by omega)]
      rw [Option.map_some, Option.map_some, hsum]
    · simp [rxDescriptors, recvInit]
    · exact (Nat.mod_eq_of_lt hh).symm
    · rw [hpending]
      exact (add_ahead_mod hh ht).symm
  · rw [hpending]
    change _ < 0 + ring.numSlots
    omega

/-- Packets that were not drained yet are in different slots. -/
lemma RecvInv.slots_ne (h : RecvInv ring s) {k k' : Nat} (hk : s.drained ≤ k) (hlt : k < k')
    (hk' : k' < s.received.length) :
    (ring.head + k) % ring.numSlots ≠ (ring.head + k') % ring.numSlots := by
  obtain ⟨hreturned, -, -⟩ := h.queue.room
  have hreceived := h.received_lt
  intro hsame
  have hdiv := Nat.sub_mod_eq_zero_of_mod_eq hsame.symm
  rw [Nat.mod_eq_of_lt (by omega)] at hdiv
  omega

end Loop

/-! ### From the setup on -/

/-- The memory that the NIC writes packet `k` to. -/
def packetWindow (r : RxRing) (base : Nat) (s : RecvState) (k : Nat) : Set (BitVec 64) :=
  Word.span (s.pass.ring.slot ((base + k) % r.ring.numSlots)).ptr r.nrBufSize.toNat

/-- Two packets through a ring of two slots, which has one slot for the NIC at a time. -/
def twoReceived : List RecvOp :=
  [.receive 60, .sync (some 1), .drain, .drain, .sync (some 0), .drain, .receive 1500, .sync (some 1), .drain,
    .drain, .leave]

end Libpop.Proofs
