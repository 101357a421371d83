import Libpop.Descriptors
import Libpop.NmgenSend
import Libpop.Proofs.NmgenFrames
import Libpop.Proofs.RingDrain
import Libpop.Proofs.TranslationDomain

/-!
# What nmgen transmits

The sender fills only slots that netmap has given back, so the NIC finds every slot as it was
filled, and each packet that goes out is one of those that the build loop has left in the
buffer. The counters are those of the packets handed over, and a sender that was cancelled ends
only when all of them were sent.
-/

namespace Libpop.Proofs
open Execution Nmgen

/-! ### Indices and counts -/

/-- Counts less than a round apart are as far apart as their indices. -/
lemma ahead_mod {r : NetmapRing} {i j : Nat} (hle : i ≤ j) (hlt : j < i + r.numSlots) :
    r.ahead (i % r.numSlots) (j % r.numSlots) = j - i := by
  have hi : i % r.numSlots < r.numSlots := Nat.mod_lt _ (by omega)
  obtain ⟨d, rfl⟩ := Nat.exists_eq_add_of_le hle
  have hd : (i + d) % r.numSlots = (i % r.numSlots + d) % r.numSlots := by rw [Nat.mod_add_mod]
  unfold NetmapRing.ahead
  rw [hd]
  generalize i % r.numSlots = x at hi
  by_cases hwrap : x + d < r.numSlots
  · rw [Nat.mod_eq_of_lt hwrap, if_pos (by omega)]
    omega
  · have hmod : (x + d) % r.numSlots = x + d - r.numSlots := by
      rw [Nat.mod_eq_sub_mod (by omega), Nat.mod_eq_of_lt (by omega)]
    rw [hmod, if_neg (by omega)]
    omega

/-- The ring of a sender as a descriptor ring. -/
def descriptors (s : SendState) : Descriptors.Ring NetmapSlot where
  size := s.ring.numSlots
  slot := s.ring.slot
  written := s.written
  posted := s.posted
  taken := s.transmitted
  reclaimed := s.reclaimed
  found := s.sent

/-- A slot as the loop fills it, for one of the packets. -/
def Filled (conf : SendConf) (slot : NetmapSlot) : Prop :=
  ∃ b < (conf.gen.batch.signExtend 64).toNat, ∃ old, slot = fillSlot conf b old

/-- `k` times the bits of a packet. -/
def bitsOf (conf : SendConf) (k : Nat) : BitVec 64 :=
  BitVec.ofNat 64 k * pktBits conf.gen

lemma bitsOf_add (conf : SendConf) (k l : Nat) :
    bitsOf conf (k + l) = bitsOf conf k + bitsOf conf l := by
  unfold bitsOf
  rw [BitVec.ofNat_add, BitVec.add_mul]

lemma bitsOf_one (conf : SendConf) : bitsOf conf 1 = pktBits conf.gen :=
  BitVec.one_mul _

/-- The locals while `b` slots of a pass have been filled. -/
structure Pass (conf : SendConf) (s : SendState) : Prop where
  head : s.thread.head = s.written.length % s.ring.numSlots
  written : s.written.length = s.posted + s.thread.b
  npkts : s.thread.npkts = BitVec.ofNat 64 s.thread.b
  nbits : s.thread.nbits = bitsOf conf s.thread.b

def SendPcInv (conf : SendConf) (s : SendState) : Prop :=
  match s.thread.pc with
  | .slot => Pass conf s ∧ s.thread.b < s.thread.batch ∧
      s.thread.batch ≤ (conf.gen.batch.signExtend 64).toNat ∧
        s.posted + s.thread.batch < s.reclaimed + s.ring.numSlots
  | .publish => Pass conf s
  | .done => s.written.length = s.posted ∧ s.reclaimed = s.posted
  | _ => s.written.length = s.posted

structure SendInv (conf : SendConf) (s : SendState) : Prop where
  queue : (descriptors s).Inv
  head : s.ring.head = s.posted % s.ring.numSlots
  cur : s.ring.cur = s.posted % s.ring.numSlots
  tail : s.ring.tail = (s.reclaimed + s.ring.numSlots - 1) % s.ring.numSlots
  filled : ∀ slot ∈ s.written, Filled conf slot
  npkts : s.npkts = BitVec.ofNat 64 s.posted
  nbits : s.nbits = bitsOf conf s.posted
  pc : SendPcInv conf s

section Steps

variable {conf : SendConf} {s : SendState}

lemma SendInv.numSlots_pos (h : SendInv conf s) : 0 < s.ring.numSlots := by
  have hroom := h.queue.room
  have hle := h.queue.reclaimed_le.trans (h.queue.taken_le.trans h.queue.posted_le)
  dsimp only [descriptors] at hroom hle
  omega

/-- The space that the thread finds is what is left of the ring but one slot. -/
lemma SendInv.space (h : SendInv conf s) :
    nmRingSpace s.ring = s.reclaimed + s.ring.numSlots - 1 - s.posted := by
  have hroom := h.queue.room
  have hposted := h.queue.posted_le
  have hreclaimed := h.queue.reclaimed_le
  have htaken := h.queue.taken_le
  dsimp only [descriptors] at hroom hposted hreclaimed htaken
  unfold nmRingSpace
  rw [h.cur, h.tail]
  exact ahead_mod (by omega) (by omega)

lemma nmTxPending_iff (h : SendInv conf s) :
    nmTxPending s.ring = false ↔ s.reclaimed = s.posted := by
  have hpos := h.numSlots_pos
  have hroom := h.queue.room
  have hposted := h.queue.posted_le
  have hreclaimed := h.queue.reclaimed_le
  have htaken := h.queue.taken_le
  dsimp only [descriptors] at hroom hposted hreclaimed htaken
  have htail : s.ring.tail < s.ring.numSlots := h.tail ▸ Nat.mod_lt _ hpos
  have hnext : nmRingNext s.ring s.ring.tail = s.reclaimed % s.ring.numSlots := by
    have hsum : s.reclaimed + s.ring.numSlots - 1 + 1 = s.reclaimed + s.ring.numSlots := by omega
    rw [nmRingNext_eq htail, h.tail, Nat.mod_add_mod, hsum, Nat.add_mod_right]
  unfold nmTxPending
  rw [decide_eq_false_iff_not, not_not, hnext, h.head]
  constructor
  · intro hsame
    have hdiv : (s.posted - s.reclaimed) % s.ring.numSlots = 0 :=
      Nat.sub_mod_eq_zero_of_mod_eq hsame.symm
    rw [Nat.mod_eq_of_lt (by omega)] at hdiv
    omega
  · intro hsame
    rw [hsame]

/-- Between the passes everything that was filled is handed over. -/
lemma SendInv.idle (h : SendInv conf s) (hpc : s.thread.pc = .top ∨ s.thread.pc = .drain) :
    s.written.length = s.posted := by
  have hinv := h.pc
  rcases hpc with hpc | hpc
  · simpa only [SendPcInv, hpc] using hinv
  · simpa only [SendPcInv, hpc] using hinv

/-- The invariant does not depend on the locals but through the place in the loop. -/
lemma SendInv.setThread (h : SendInv conf s) {t : SendThread}
    (hpc : SendPcInv conf { s with thread := t }) : SendInv conf { s with thread := t } :=
  { h with pc := hpc }

/-- `NIOCTXSYNC` at the top of the loop or while draining. -/
lemma SendInv.giveBack (h : SendInv conf s) {n : Nat} (hn : s.reclaimed + n ≤ s.transmitted)
    (hpc : s.thread.pc = .top ∨ s.thread.pc = .drain) : SendInv conf (s.giveBack n) := by
  have hpos := h.numSlots_pos
  refine { h with queue := h.queue.reclaim hn, tail := ?_, pc := ?_ }
  · dsimp only [SendState.giveBack]
    rw [h.tail, Nat.mod_add_mod]
    congr 1
    omega
  · have hwritten := h.idle hpc
    rcases hpc with hpc | hpc
    · simpa only [SendPcInv, SendState.giveBack, hpc] using hwritten
    · simpa only [SendPcInv, SendState.giveBack, hpc] using hwritten

lemma SendPcInv.afterFill {t : SendThread} (hpass : Pass conf { s with thread := t })
    (hbatch : t.batch ≤ (conf.gen.batch.signExtend 64).toNat)
    (hroom : s.posted + t.batch < s.reclaimed + s.ring.numSlots) :
    SendPcInv conf { s with thread := Nmgen.afterFill t } := by
  unfold Nmgen.afterFill
  split
  · rename_i hb
    exact ⟨⟨hpass.head, hpass.written, hpass.npkts, hpass.nbits⟩, hb, hbatch, hroom⟩
  · exact ⟨hpass.head, hpass.written, hpass.npkts, hpass.nbits⟩

lemma sendBatch_le (gen : NmgenParam) (space : Nat) :
    sendBatch gen space ≤ space ∧ sendBatch gen space ≤ (gen.batch.signExtend 64).toNat := by
  unfold sendBatch
  split <;> omega

lemma SendInv.sync (h : SendInv conf s) (hpc : s.thread.pc = .top) {n : Nat}
    (hn : s.reclaimed + n ≤ s.transmitted) (hspace : nmRingSpace (s.giveBack n).ring ≠ 0) :
    SendInv conf { s.giveBack n with
      thread := Nmgen.afterFill ⟨.top, (s.giveBack n).ring.head,
        sendBatch conf.gen (nmRingSpace (s.giveBack n).ring), 0, 0, 0⟩ } := by
  have hgiven := h.giveBack hn (.inl hpc)
  have hwritten := hgiven.idle (.inl hpc)
  obtain ⟨hbatch, hmax⟩ := sendBatch_le conf.gen (nmRingSpace (s.giveBack n).ring)
  have hroom := hgiven.space
  apply hgiven.setThread
  apply SendPcInv.afterFill
  · refine ⟨?_, hwritten, rfl, ?_⟩
    · dsimp only
      rw [hgiven.head, hwritten]
    · simp [bitsOf]
  · exact hmax
  · dsimp only
    omega

/-- A slot that netmap has given back is filled. -/
lemma SendInv.fill (h : SendInv conf s) (hpc : s.thread.pc = .slot) :
    SendInv conf { s with
      ring := { s.ring with
        slot := Function.update s.ring.slot s.thread.head
          (fillSlot conf s.thread.b (s.ring.slot s.thread.head)) }
      thread := Nmgen.afterFill { s.thread with
        npkts := s.thread.npkts + 1, nbits := s.thread.nbits + pktBits conf.gen
        head := nmRingNext s.ring s.thread.head, b := s.thread.b + 1 }
      written := s.written ++ [fillSlot conf s.thread.b (s.ring.slot s.thread.head)] } := by
  have hpos := h.numSlots_pos
  have hinv := h.pc
  simp only [SendPcInv, hpc] at hinv
  obtain ⟨hpass, hb, hbatch, hroom⟩ := hinv
  have hwritten := hpass.written
  have hqueue :=
    h.queue.write (by dsimp only [descriptors]; omega)
      (fillSlot conf s.thread.b (s.ring.slot s.thread.head))
  dsimp only [descriptors, Descriptors.Ring.write] at hqueue
  rw [← hpass.head] at hqueue
  refine ⟨hqueue, h.head, h.cur, h.tail, ?_, h.npkts, h.nbits, ?_⟩
  · intro slot hslot
    rcases List.mem_append.mp hslot with hold | hnew
    · exact h.filled slot hold
    · exact ⟨s.thread.b, by omega, _, List.mem_singleton.mp hnew⟩
  · apply SendPcInv.afterFill (s := { s with
      ring := { s.ring with
        slot := Function.update s.ring.slot s.thread.head
          (fillSlot conf s.thread.b (s.ring.slot s.thread.head)) }
      written := s.written ++ [fillSlot conf s.thread.b (s.ring.slot s.thread.head)] })
    · constructor
      · have hhead : s.thread.head < s.ring.numSlots := hpass.head ▸ Nat.mod_lt _ hpos
        dsimp only
        rw [nmRingNext_eq hhead, hpass.head, Nat.mod_add_mod, List.length_append,
          List.length_singleton]
      · dsimp only
        rw [List.length_append, List.length_singleton]
        omega
      · dsimp only
        rw [hpass.npkts, BitVec.ofNat_add]
        rfl
      · dsimp only
        rw [hpass.nbits, bitsOf_add, bitsOf_one]
    · exact hbatch
    · exact hroom

lemma SendInv.publish (h : SendInv conf s) (hpc : s.thread.pc = .publish) :
    SendInv conf { s with
      ring := { s.ring with head := s.thread.head, cur := s.thread.head }
      thread := { s.thread with pc := .top }
      npkts := s.npkts + s.thread.npkts, nbits := s.nbits + s.thread.nbits
      posted := s.written.length } := by
  have hpass := h.pc
  simp only [SendPcInv, hpc] at hpass
  refine ⟨h.queue.post, hpass.head, hpass.head, h.tail, h.filled, ?_, ?_, rfl⟩
  · dsimp only
    rw [h.npkts, hpass.npkts, hpass.written, BitVec.ofNat_add]
  · dsimp only
    rw [h.nbits, hpass.nbits, hpass.written, bitsOf_add]

lemma SendInv.transmit (h : SendInv conf s) (hmore : s.transmitted < s.posted) :
    SendInv conf { s with
      transmitted := s.transmitted + 1
      sent := s.sent ++ [s.ring.slot (s.transmitted % s.ring.numSlots)] } := by
  refine { h with queue := h.queue.take hmore, pc := ?_ }
  have hinv := h.pc
  unfold SendPcInv at hinv ⊢
  dsimp only at hinv ⊢
  split at hinv
  · exact ⟨⟨hinv.1.head, hinv.1.written, hinv.1.npkts, hinv.1.nbits⟩, hinv.2⟩
  · exact ⟨hinv.head, hinv.written, hinv.npkts, hinv.nbits⟩
  · exact hinv
  · exact hinv

lemma sendInv_step (s : SendState) (op : SendOp) (t : SendState) (h : SendInv conf s)
    (hs : sendStep conf s op = some t) : SendInv conf t := by
  cases op with
  | sync reclaim =>
    cases reclaim with
    | none =>
      simp only [sendStep] at hs
      split at hs
      · rename_i hpc
        cases hs
        exact h.setThread (h.idle (.inl hpc))
      · cases hs
    | some n =>
      simp only [sendStep] at hs
      split at hs
      · rename_i hpc
        split at hs
        · cases hs
          exact h.giveBack hpc.2 (.inl hpc.1)
        · rename_i hspace
          cases hs
          exact h.sync hpc.1 hpc.2 hspace
      · cases hs
  | slot =>
    simp only [sendStep] at hs
    split at hs
    · rename_i hpc
      cases hs
      exact h.fill hpc
    · cases hs
  | publish =>
    simp only [sendStep] at hs
    split at hs
    · rename_i hpc
      cases hs
      exact h.publish hpc
    · cases hs
  | leave =>
    simp only [sendStep] at hs
    split at hs
    · rename_i hpc
      cases hs
      exact h.setThread (h.idle (.inl hpc))
    · cases hs
  | drain n =>
    simp only [sendStep] at hs
    split at hs
    · rename_i hpc
      split at hs
      · split at hs
        · rename_i hn
          cases hs
          exact h.giveBack hn (.inr hpc)
        · cases hs
      · rename_i hpending
        cases hs
        exact h.setThread ⟨h.idle (.inr hpc), (nmTxPending_iff h).mp (by simpa using hpending)⟩
    · cases hs
  | transmit =>
    simp only [sendStep] at hs
    split at hs
    · rename_i hmore
      cases hs
      exact h.transmit hmore
    · cases hs

lemma sendInv_init (conf : SendConf) {numSlots : Nat} (hpos : 0 < numSlots)
    (slot : Nat → NetmapSlot) : SendInv conf (sendInit numSlots slot) := by
  refine ⟨⟨le_rfl, le_rfl, le_rfl, ?_, ?_, rfl⟩, ?_, ?_, ?_, ?_, rfl, ?_, rfl⟩
  · simpa [descriptors, sendInit] using hpos
  · simp [descriptors, sendInit]
  · simp [sendInit]
  · simp [sendInit]
  · dsimp only [sendInit]
    rw [Nat.zero_add, Nat.mod_eq_of_lt (by omega)]
  · simp [sendInit]
  · simp [sendInit, bitsOf]

/-- A sender that was cancelled has nothing left in the ring. -/
lemma SendInv.drained {c : SendConf} {s : SendState} (h : SendInv c s)
    (hdone : s.thread.pc = .done) :
    s.transmitted = s.posted ∧ s.sent = s.written ∧ s.sent.length = s.posted := by
  have hpc := h.pc
  simp only [SendPcInv, hdone] at hpc
  obtain ⟨hwritten, hreclaimed⟩ := hpc
  have hle := h.queue.reclaimed_le
  have hposted := h.queue.taken_le
  have hfound := h.queue.found
  dsimp only [descriptors] at hle hposted hfound
  have htransmitted : s.transmitted = s.posted := by omega
  have hsent : s.sent = s.written := by
    rw [hfound, htransmitted, ← hwritten, List.take_length]
  exact ⟨htransmitted, hsent, hsent ▸ hwritten⟩

end Steps

/-! ### The packets -/

/-- A context of whole pages whose ends do not wrap. -/
structure WholePages (mem : PopMem) : Prop where
  size : mem.size.toNat = mem.numPages.toNat * 4096
  alloced_le : mem.allocedPages.toNat ≤ mem.numPages.toNat
  virt : mem.mem.toNat + mem.size.toNat < 2 ^ 64
  phys : mem.paddr.toNat + mem.size.toNat < 2 ^ 64

/-- A packet that fits a frame has the length that the options say. -/
lemma toNat_pktlen {gen : NmgenParam} (hlen : gen.len.toNat ≤ 2048) :
    gen.pktlen.toNat = gen.len.toNat := by
  unfold NmgenParam.len at hlen ⊢
  by_cases hsign : 2 * gen.pktlen.toNat < 2 ^ 32
  · exact (Word.toNat_signExtend_of_lt (by decide) hsign).symm
  · rw [Word.toNat_signExtend_of_ge (by decide) (by omega)] at hlen
    omega

lemma bitsOf_eq {conf : SendConf} {gen : NmgenParam} (hgen : conf.gen = gen)
    (hlen : gen.len.toNat ≤ 2048) (k : Nat) :
    bitsOf conf k = BitVec.ofNat 64 (8 * gen.len.toNat * k) := by
  have hshift : (gen.pktlen <<< 3).toNat = 8 * gen.len.toNat := by
    rw [Word.toNat_shiftLeft_mul, toNat_pktlen hlen]
    omega
  have hbits : (pktBits gen).toNat = 8 * gen.len.toNat := by
    unfold pktBits
    rw [Word.toNat_signExtend_of_lt (by decide) (by omega), hshift]
  apply BitVec.eq_of_toNat_eq
  unfold bitsOf
  rw [BitVec.toNat_mul, BitVec.toNat_ofNat, BitVec.toNat_ofNat, hgen, hbits, Nat.mod_mul_mod,
    Nat.mul_comm]

section Packets

variable {gen : NmgenParam} {addr : BitVec 64} {mem mem' : PopMem} {malloc : Bool} {pbuf : Pbuf}
  (hmem : WholePages mem) (hmax : gen.batch.toNat ≤ 64)
  (halloc : senderAlloc gen addr mem malloc = some (mem', .ok pbuf))

include hmem hmax halloc

/-- The buffer of a sender is at the first free page and has room for its frames. -/
lemma senderBuffer : (popBufData pbuf).toNat = mem.mem.toNat + mem.allocedPages.toNat * 4096 ∧
    mem.allocedPages.toNat * 4096 + frameSize * gen.batch.toNat ≤ mem.size.toNat := by
  have hsize := hmem.size
  have hle := hmem.alloced_le
  have hvirt := hmem.virt
  have hoff : (mem.allocedPages <<< pageShift).toNat = mem.allocedPages.toNat * 4096 := by
    rw [Word.toNat_shiftLeft_mul]
    unfold pageShift
    omega
  have hdata : (popBufData pbuf).toNat = mem.mem.toNat + mem.allocedPages.toNat * 4096 := by
    have hfresh := popBufAllocPut_fresh (senderBytes_le hmax) halloc
    rw [hfresh.data_eq, hfresh.vaddr, BitVec.toNat_add, hoff]
    omega
  refine ⟨hdata, ?_⟩
  have halloc' := halloc
  unfold senderAlloc at halloc'
  rcases popBufAllocPut_cases (senderBytes_le hmax) addr mem malloc with ⟨hroom, -⟩ | ⟨-, e, hfail⟩
  · have hpages := hroom.1
    rw [toNat_senderBytes hmax, BitVec.toNat_sub_of_le hle] at hpages
    unfold frameSize at hpages ⊢
    omega
  · rw [hfail] at halloc'
    cases halloc'

lemma toNat_pktsPhy (ns : BitVec 16) {b : Nat} (hb : b < gen.batch.toNat) :
    ((senderConf gen ns mem pbuf).pktsPhy b).toNat =
      mem.paddr.toNat + (mem.allocedPages.toNat * 4096 + frameSize * b) := by
  obtain ⟨hdata, hroom⟩ := senderBuffer hmem hmax halloc
  have hvirt := hmem.virt
  have hphys := hmem.phys
  unfold frameSize at hroom ⊢
  have hvaddr : (popBufData pbuf + BitVec.ofNat 64 (2048 * b)).toNat =
      mem.mem.toNat + (mem.allocedPages.toNat * 4096 + 2048 * b) := by
    rw [BitVec.toNat_add, hdata, BitVec.toNat_ofNat]
    omega
  have hoff : (popBufData pbuf + BitVec.ofNat 64 (2048 * b) - mem.mem).toNat =
      mem.allocedPages.toNat * 4096 + 2048 * b := by
    rw [BitVec.toNat_sub_of_le (by rw [BitVec.le_def]; omega), hvaddr]
    omega
  change (popVirtToPhys mem (popBufData pbuf + BitVec.ofNat 64 (2048 * b))).toNat = _
  rw [popVirtToPhys_of_le hvirt (by omega) (by omega), BitVec.toNat_add, hoff]
  omega

/-- For a slot that was filled for packet `b` the NIC fetches this packet. -/
lemma dma_fillSlot (hlen : gen.len.toNat ≤ 2048) (ns : BitVec 16) (cpu : Nat)
    (rand : Nat → BitVec 31) (m : Bytes.Mem) {b : Nat} (hb : b < gen.batch.toNat)
    (old : NetmapSlot) :
    dma mem (buildPackets gen cpu rand (popBufData pbuf).toNat m gen.batch.toNat)
        (fillSlot (senderConf gen ns mem pbuf) b old) =
      builtPacket gen cpu rand (popBufData pbuf).toNat m b := by
  obtain ⟨hdata, -⟩ := senderBuffer hmem hmax halloc
  have hptr : (fillSlot (senderConf gen ns mem pbuf) b old).ptr.toNat =
      mem.paddr.toNat + (mem.allocedPages.toNat * 4096 + frameSize * b) :=
    toNat_pktsPhy hmem hmax halloc ns hb
  have hslotlen : (fillSlot (senderConf gen ns mem pbuf) b old).len.toNat = gen.len.toNat := by
    change (gen.pktlen.setWidth 16).toNat = gen.len.toNat
    rw [BitVec.toNat_setWidth, toNat_pktlen hlen, Nat.mod_eq_of_lt (by omega)]
  have hkept : FramesKept gen cpu rand (popBufData pbuf).toNat pbuf.size.toNat m :=
    framesKept_of_fits cpu rand m (.inl hlen) (senderAlloc_size hmax halloc)
  unfold dma builtPacket
  rw [hslotlen, hptr]
  apply List.map_congr_left
  intro j hj
  rw [← hkept.frames b hb j (List.mem_range.mp hj), hdata]
  congr 1
  omega

end Packets

/-- Along every run of a sender with its NIC, whose packets fit their frames, the NIC finds the
slots as they were filled and in their order, each with the flag and with one of the packets
that were built; the counters are those of the packets handed over; and a cancelled sender
that has ended has had all of them sent. -/
theorem nmgen_sends_built {gen : NmgenParam} {addr : BitVec 64} {mem mem' : PopMem} {malloc : Bool}
    {pbuf : Pbuf} (hmem : WholePages mem) (hmax : gen.batch.toNat ≤ 64)
    (hlen : gen.len.toNat ≤ 2048) (halloc : senderAlloc gen addr mem malloc = some (mem', .ok pbuf))
    (cpu : Nat) (rand : Nat → BitVec 31) (m : Bytes.Mem) (ns : BitVec 16) {numSlots : Nat}
    (hpos : 0 < numSlots) (slot : Nat → NetmapSlot) {ops : List SendOp} {s : SendState}
    (h : exec (sendStep (senderConf gen ns mem pbuf)) (sendInit numSlots slot) ops = some s) :
    s.sent = s.written.take s.transmitted ∧
      (∀ d ∈ s.sent, d.flags &&& ns = ns ∧ ∃ b < gen.batch.toNat,
        dma mem (buildPackets gen cpu rand (popBufData pbuf).toNat m gen.batch.toNat) d =
          builtPacket gen cpu rand (popBufData pbuf).toNat m b) ∧
      s.npkts = BitVec.ofNat 64 s.posted ∧
        s.nbits = BitVec.ofNat 64 (8 * gen.len.toNat * s.posted) ∧
      (s.thread.pc = .done → s.sent = s.written ∧ s.sent.length = s.posted) := by
  have hinv := exec_invariant sendInv_step (sendInv_init (senderConf gen ns mem pbuf) hpos slot) h
  have hfound : s.sent = s.written.take s.transmitted := hinv.queue.found
  have hbatch : (gen.batch.signExtend 64).toNat = gen.batch.toNat :=
    Word.toNat_signExtend_of_lt (by decide) (by omega)
  refine ⟨hfound, ?_, hinv.npkts, ?_, ?_⟩
  · intro d hd
    rw [hfound] at hd
    obtain ⟨b, hb, old, rfl⟩ := hinv.filled d (List.mem_of_mem_take hd)
    have hb' : b < gen.batch.toNat := lt_of_lt_of_eq hb hbatch
    have hdma := dma_fillSlot hmem hmax halloc hlen ns cpu rand m hb' old
    exact ⟨Word.or_and_self old.flags ns, b, hb', hdma⟩
  · have hgen : (senderConf gen ns mem pbuf).gen = gen := rfl
    rw [hinv.nbits]
    exact bitsOf_eq hgen hlen s.posted
  · intro hdone
    exact (hinv.drained hdone).2

/-- Two packets in a ring of three slots, the second one sent while the thread drains. -/
def twoSent : List SendOp :=
  [.sync (some 0), .slot, .slot, .publish, .transmit, .leave, .drain 1, .transmit, .drain 1, .drain 0]

/-- `nmgen -b 2`. -/
theorem nmgen_sends_two : ∃ mem' pbuf s,
    senderAlloc (defaultParam 60 2 (by decide)) 0x1000 senderMem true = some (mem', .ok pbuf) ∧
      exec (sendStep (senderConf (defaultParam 60 2 (by decide)) 0x40 senderMem pbuf))
        (sendInit 3 fun _ => ⟨0, 0, 0⟩) twoSent = some s ∧
      s.npkts = 2 ∧ s.nbits = 960 ∧ s.sent.length = 2 ∧
      ∀ d ∈ s.sent, ∃ b < 2, dma senderMem (buildPackets (defaultParam 60 2 (by decide)) 0 (fun _ => 0)
        (popBufData pbuf).toNat (fun _ => 0) 2) d =
          builtPacket (defaultParam 60 2 (by decide)) 0 (fun _ => 0)
            (popBufData pbuf).toNat (fun _ => 0) b := by
  have halloc : senderAlloc (defaultParam 60 2 (by decide)) 0x1000 senderMem true =
      some ({ senderMem with allocedPages := 1 },
        .ok ⟨⟨0x7f0000000000, 0x80000000, 4096, 0, 4096⟩, 0x1000⟩) := rfl
  have hrun : exec (sendStep (senderConf (defaultParam 60 2 (by decide)) 0x40 senderMem
      ⟨⟨0x7f0000000000, 0x80000000, 4096, 0, 4096⟩,
        0x1000⟩)) (sendInit 3 fun _ => ⟨0, 0, 0⟩) twoSent = some _ := rfl
  have hmem : WholePages senderMem := ⟨rfl, by decide, by decide, by decide⟩
  obtain ⟨-, hsent, hnpkts, hnbits, hdone⟩ :=
    nmgen_sends_built hmem (by decide) (by decide) halloc 0
      (fun _ => 0) (fun _ => 0) 0x40 (by decide) _ hrun
  exact ⟨_, _, _, halloc, hrun, hnpkts, hnbits, (hdone rfl).2, fun d hd => (hsent d hd).2⟩

end Libpop.Proofs
