import Libpop.Proofs.DiskToWire
import Libpop.Proofs.NvgenWalk
import Libpop.Proofs.StoredFrames

/-!
# From store to the wire

A device that store has filled, read by nvgen: the bytes that the NIC takes from the packet
buffer are UDP packets of store, each of the length it was stored with, in the order of the
reads.
-/

namespace Libpop.Proofs
open Bytes Execution Store

/-! ### The packets of store -/

/-- The packet of store with a source port. -/
def udpPacket (len : Nat) (sport : BitVec 16) : List (BitVec 8) :=
  (List.range len).map (buildUdpPkt ⟨[0, 0, 0, 0, 0, 0], 0, sport⟩ (fun _ => 0) 0 len)

/-- The source port of frame `f` of the device: the first LBA of the pass that wrote it and its
number in the pass. -/
def storePort (p : StoreParam) (f : Nat) : BitVec 16 :=
  BitVec.ofNat 16 (f / p.batch.toNat * p.nblocks.toNat + f % p.batch.toNat)

def storedPacket (p : StoreParam) (f : Nat) : List (BitVec 8) :=
  udpPacket p.pktlen (storePort p f)

/-- The frame at an address holds a packet and its length. -/
structure HoldsPacket (m : Mem) (addr len : Nat) (sport : BitVec 16) : Prop where
  bytes : ∀ i < len, m (addr + i) = buildUdpPkt ⟨[0, 0, 0, 0, 0, 0], 0, sport⟩ (fun _ => 0) 0 len i
  desc : getPktlenFromDesc m addr = BitVec.ofNat 32 len

lemma HoldsPacket.congr {m m' : Mem} {addr addr' len : Nat} {sport : BitVec 16}
    (h : HoldsPacket m addr len sport) (hlen : len ≤ frameSize)
    (hm : ∀ i < frameSize, m' (addr' + i) = m (addr + i)) : HoldsPacket m' addr' len sport := by
  refine ⟨fun i hi => (hm i (by omega)).trans (h.bytes i hi), ?_⟩
  rw [← h.desc]
  apply get32_congr
  intro k hk
  rw [Nat.add_assoc, Nat.add_assoc]
  apply hm
  unfold frameSize
  omega

/-- `build_pkt` leaves nothing of what the buffer held before in the packet. -/
lemma holdsPacket_buildPkt (m : Mem) (buf : Nat) {len : Nat} (hlen : len + 4 ≤ frameSize)
    (id : BitVec 32) : HoldsPacket (buildPkt m buf len id) buf len (id.setWidth 16) := by
  refine ⟨?_, get32_write_le32 _⟩
  intro i hi
  have hclear : ∀ i < len, Bytes.set m buf len 0 (buf + i) =
      Bytes.set (fun _ => 0) 0 len 0 (0 + i) := by
    intro i hi
    rw [set_inside hi, set_inside hi]
  unfold buildPkt setPktlenInDesc
  rw [write_outside (by omega)]
  have hpacket :=
    foldl_write_shift hclear (pktHeader ⟨[0, 0, 0, 0, 0, 0], 0, id.setWidth 16⟩ len) i hi
  rw [Nat.zero_add] at hpacket
  exact hpacket

lemma holdsPacket_buildFrames (p : StoreParam) (lba : BitVec 64) (m : Mem) {n b : Nat} (h : b < n) :
    HoldsPacket (buildFrames p lba m n) (frameSize * b) p.pktlen
      (((lba + BitVec.ofNat 64 b).setWidth 32).setWidth 16) := by
  have hlen := p.pktlen_le
  induction n with
  | zero => omega
  | succ n ih =>
    by_cases hb : b = n
    · subst hb
      exact holdsPacket_buildPkt _ _ (by unfold frameSize; omega) _
    · apply (ih (by omega)).congr (by unfold frameSize; omega)
      intro i hi
      rw [buildFrames]
      unfold frameSize at hi ⊢
      exact buildPkt_outside (by unfold frameSize; omega) (by unfold frameSize; omega)

/-- A pass from LBA `nblocks * j` on is the `j`-th one. -/
lemma storePort_pass {p : StoreParam} {lba : BitVec 64} {j b : Nat}
    (hlba : lba.toNat = p.nblocks.toNat * j) (hb : b < p.batch.toNat) :
    ((lba + BitVec.ofNat 64 b).setWidth 32).setWidth 16 = storePort p (p.batch.toNat * j + b) := by
  have hpos : 0 < p.batch.toNat := by omega
  have hdiv : (p.batch.toNat * j + b) / p.batch.toNat = j := by
    rw [Nat.mul_add_div hpos, Nat.div_eq_of_lt hb, Nat.add_zero]
  have hmod : (p.batch.toNat * j + b) % p.batch.toNat = b := by
    rw [Nat.mul_add_mod, Nat.mod_eq_of_lt hb]
  unfold storePort
  rw [hdiv, hmod, Nat.mul_comm j, ← hlba]
  apply BitVec.eq_of_toNat_eq
  simp only [BitVec.toNat_setWidth, BitVec.toNat_add, BitVec.toNat_ofNat]
  omega

/-- Below the current LBA every frame of the device holds its packet. -/
def PacketsInv (p : StoreParam) (s : StoreState) : Prop :=
  ∀ f, frameSize * (f + 1) ≤ s.lba.toNat * 2 ^ p.blockshift →
    HoldsPacket s.disk (frameSize * f) p.pktlen (storePort p f)

lemma packetsInv_step {p : StoreParam} (h : EvenBatches p) {s t : StoreState} {ret : Int}
    (hpass : OnPass p s) (hpackets : PacketsInv p s)
    (hs : storeStep p s ret = some t) : PacketsInv p t := by
  have hlen := p.pktlen_le
  unfold PacketsInv at hpackets ⊢
  rcases storeStep_cases hs with ⟨hlba, hdisk, -⟩ | ⟨hlt, hlba, hdisk, -⟩
  · rwa [hlba, hdisk]
  · obtain ⟨j, hj⟩ := hpass.whole
    have haddr : s.lba.toNat * 2 ^ p.blockshift = frameSize * (p.batch.toNat * j) := by
      rw [hj, Nat.mul_right_comm, h.bytes, Nat.mul_assoc]
    have hnew : t.lba.toNat * 2 ^ p.blockshift =
        frameSize * (p.batch.toNat * j + p.batch.toNat) := by
      rw [hlba, h.next hpass hlt, Nat.add_mul, haddr, h.bytes, Nat.mul_add]
    rw [haddr] at hpackets
    intro f hf
    rw [hnew] at hf
    have hf' : f < p.batch.toNat * j + p.batch.toNat := Nat.le_of_mul_le_mul_left hf (by decide)
    rw [hdisk, haddr, h.bytes]
    by_cases hbefore : f < p.batch.toNat * j
    · apply (hpackets f (Nat.mul_le_mul_left _ hbefore)).congr (by unfold frameSize; omega)
      intro i hi
      apply copy_outside
      unfold frameSize at hi ⊢
      omega
    · obtain ⟨b, rfl⟩ := Nat.exists_eq_add_of_le (not_lt.mp hbefore)
      have hb : b < p.batch.toNat := by omega
      rw [← storePort_pass hj hb]
      apply (holdsPacket_buildFrames p s.lba s.pbuf hb).congr (by unfold frameSize; omega)
      intro i hi
      rw [Nat.mul_add, Nat.add_assoc, copy_inside, Nat.zero_add]
      unfold frameSize at hi ⊢
      omega

/-- A finished run has left its packet in every frame of its range. -/
theorem store_packets {p : StoreParam} (h : EvenBatches p) {pbuf disk : Mem} {rets : List Int}
    {s : StoreState} (hrun : exec (storeStep p) (storeInit p pbuf disk) rets = some s)
    (hdone : ¬s.lba < p.lbaEnd) {f : Nat}
    (hf : frameSize * (f + 1) ≤ p.lbaEnd.toNat * 2 ^ p.blockshift) :
    HoldsPacket s.disk (frameSize * f) p.pktlen (storePort p f) := by
  have hstep (s : StoreState) (ret : Int) (t : StoreState) (hinv : OnPass p s ∧ PacketsInv p s)
      (hs : storeStep p s ret = some t) : OnPass p t ∧ PacketsInv p t :=
    ⟨onPass_step h s ret t hinv.1 hs, packetsInv_step h hinv.1 hinv.2 hs⟩
  have hinit : PacketsInv p (storeInit p pbuf disk) := by
    intro f hf
    have hzero : (storeInit p pbuf disk).lba = 0 := h.start
    rw [hzero] at hf
    simp [frameSize] at hf
  obtain ⟨-, hpackets⟩ := exec_invariant hstep ⟨onPass_init h pbuf disk, hinit⟩ hrun
  have hend : p.lbaEnd.toNat ≤ s.lba.toNat := not_lt.mp hdone
  exact hpackets f (hf.trans (Nat.mul_le_mul_right _ hend))

/-- The packet is the first `len` bytes of its frame. -/
lemma HoldsPacket.take_frame {m : Mem} {addr len : Nat} {sport : BitVec 16}
    (h : HoldsPacket m addr len sport) (hlen : len ≤ frameSize) :
    ((List.range frameSize).map fun i => m (addr + i)).take len = udpPacket len sport := by
  rw [← List.map_take, List.take_range, Nat.min_eq_left hlen, udpPacket]
  apply List.map_congr_left
  intro i hi
  exact h.bytes i (List.mem_range.mp hi)

/-- The length of a frame fits the `uint16_t` of a slot. -/
lemma toNat_slotLen {len : Nat} (hlen : len ≤ frameSize) :
    ((BitVec.ofNat 32 len).setWidth 16).toNat = len := by
  unfold frameSize at hlen
  rw [BitVec.toNat_setWidth, BitVec.toNat_ofNat]
  omega

/-- The NIC takes the packet, and nothing of what follows it in the frame. -/
lemma HoldsPacket.slotBytes {m : Mem} {f len : Nat} {sport : BitVec 16}
    (h : HoldsPacket m (frameSize * f) len sport) (hlen : len ≤ frameSize) :
    slotBytes (frameAt m f) = udpPacket len sport := by
  have hget : ∀ i < frameSize, (frameAt m f).getD i 0 = m (frameSize * f + i) := by
    intro i hi
    simp [frameAt, hi]
  have hdesc : getPktlenFromDesc (fun i => (frameAt m f).getD i 0) 0 = BitVec.ofNat 32 len := by
    rw [← h.desc]
    apply get32_congr
    intro k hk
    rw [Nat.zero_add, Nat.add_assoc]
    apply hget
    unfold frameSize
    omega
  unfold Libpop.slotBytes
  rw [hdesc, toNat_slotLen hlen]
  exact h.take_frame hlen

/-! ### The reads of nvgen -/

/-- The NVMe thread of the whole system, with the reads that it has issued. -/
def asNvme {α : Type} (s : WireState α) : NvmeState :=
  ⟨s.tx.threads.ring, s.tx.threads.unvme, s.reads⟩

/-- The NVMe thread in the ring takes its own step. -/
lemma ringStep_unvmeStep {conf : NvgenConf} {s s' : RingState} {op : UnvmeOp}
    (h : ringStep conf s (.unvme op) = some s') :
    ∃ read, unvmeStep conf s.ring s.unvme op = some (s'.ring, s'.unvme, read) := by
  simp only [ringStep] at h
  split at h
  · cases h
  · rename_i ring th read hstep
    cases h
    exact ⟨some read, hstep⟩
  · rename_i ring th hstep
    refine ⟨none, ?_⟩
    rw [hstep]
    split at h <;> cases h <;> rfl

section Wire

variable {α : Type} {conf : NvgenConf} {numSlots : Nat} {disk : Nat → α}
  {s t : WireState α} {op : WireOp}

/-- A step of the system is a step of the NVMe thread, or it leaves that thread alone. -/
lemma wireStep_nvme (hs : wireStep conf numSlots disk s op = some t) :
    (∃ op', nvmeStep conf (asNvme s) (.unvme op') = some (asNvme t)) ∨
      t.tx.threads.unvme = s.tx.threads.unvme ∧ t.reads = s.reads := by
  simp only [wireStep] at hs
  split at hs
  · cases hs
  · rename_i tx htx
    cases hs
    cases op with
    | unvme op =>
      cases txStep_move htx with
      | unvme op threads hpoll hring =>
        obtain ⟨read, hstep⟩ := ringStep_unvmeStep hring
        have hissued : issuedBy conf s.tx.threads op = read := by
          unfold issuedBy
          rw [hstep]
        refine .inl ⟨op, ?_⟩
        simp only [nvmeStep, asNvme, WireOp.issued, hstep, hissued]
        cases read <;> rfl
    | netmap op =>
      cases txStep_move htx with
      | netmap op threads hsync hring =>
        cases ringStep_reader hring <;> exact .inr ⟨rfl, List.append_nil _⟩
    | arrive i =>
      cases txStep_move htx with
      | arrived i n data read hread => exact .inr ⟨rfl, List.append_nil _⟩
    | post =>
      cases txStep_move htx with
      | posted hpc => exact .inr ⟨rfl, List.append_nil _⟩
    | transmit =>
      cases txStep_move htx with
      | transmitted x rest hqueued => exact .inr ⟨rfl, List.append_nil _⟩

lemma walkInv_wire (hlong : conf.lbaStart.toNat + 128 < conf.lbaEnd.toNat)
    (hle : conf.nvbatch.toNat ≤ 128) (hsafe : SafeWalk conf) (h : WalkInv conf (asNvme s))
    (hs : wireStep conf numSlots disk s op = some t) : WalkInv conf (asNvme t) := by
  rcases wireStep_nvme hs with ⟨op', hstep⟩ | ⟨hunvme, hreads⟩
  · exact walkInv_step hlong hle hsafe _ _ _ h hstep
  · obtain ⟨hplan, hlba, hin⟩ := h
    simp only [asNvme] at hplan hlba hin
    refine ⟨?_, ?_, ?_⟩ <;> simp only [asNvme, hunvme, hreads] <;> assumption

end Wire

/-- Reads that stay below the end of store's range find stored packets. -/
lemma packets_stored {p : StoreParam} {device : Mem} (hblock : p.blockshift = 12)
    (hpackets : ∀ f, frameSize * (f + 1) ≤ p.lbaEnd.toNat * 2 ^ p.blockshift →
      HoldsPacket device (frameSize * f) p.pktlen (storePort p f))
    {read : Aread} (hread : read.lba.toNat + read.nblocks.toNat ≤ p.lbaEnd.toNat) :
    (read.packets (frameAt device)).map slotBytes = read.packets (storedPacket p) := by
  have hlen := p.pktlen_le
  unfold Aread.packets
  rw [List.map_map]
  apply List.map_congr_left
  intro k hk
  have hk' := List.mem_range.mp hk
  have hholds : HoldsPacket device (frameSize * (2 * read.lba.toNat + k)) p.pktlen
      (storePort p (2 * read.lba.toNat + k)) := by
    apply hpackets
    rw [hblock]
    unfold frameSize
    omega
  have hframe : p.pktlen ≤ frameSize := by
    unfold frameSize
    omega
  rw [Function.comp_apply, hholds.slotBytes hframe, storedPacket]

/-- Store fills a device of 4 KiB blocks, and nvgen reads a part of what store has written, with a
walk that stays in its range. In every run that keeps the stream, the bytes that the NIC takes
are an initial part of the stored packets that the reads have asked for. -/
theorem stored_packets_sent {p : StoreParam} (hp : EvenBatches p) (hblock : p.blockshift = 12)
    {pbuf device : Mem} {rets : List Int} {stored : StoreState}
    (hstore : exec (storeStep p) (storeInit p pbuf device) rets = some stored)
    (hdone : ¬stored.lba < p.lbaEnd) (conf : NvgenConf)
    (hlong : conf.lbaStart.toNat + 128 < conf.lbaEnd.toNat) (hle : conf.nvbatch.toNat ≤ 128)
    (hsafe : SafeWalk conf) (hrange : conf.lbaEnd.toNat ≤ p.lbaEnd.toNat) (numSlots : Nat)
    (frames : Nat → List (BitVec 8)) {ops : List WireOp}
    (hg : Guarded (wireStep conf numSlots (frameAt stored.disk)) (KeepsStream conf (frameAt stored.disk))
      (wireInit conf frames) ops) :
    Throughout (wireStep conf numSlots (frameAt stored.disk))
      (fun s => s.tx.sent.map slotBytes <+: packetStream (storedPacket p) s.reads)
      (wireInit conf frames) ops := by
  have hstep (s : WireState (List (BitVec 8))) (op : WireOp) (t : WireState (List (BitVec 8)))
      (h : StreamInv (frameAt stored.disk) s ∧ WalkInv conf (asNvme s))
      (hop : KeepsStream conf (frameAt stored.disk) s op)
      (hs : wireStep conf numSlots (frameAt stored.disk) s op = some t) :
      StreamInv (frameAt stored.disk) t ∧ WalkInv conf (asNvme t) :=
    ⟨streamInv_step s op t h.1 hop hs, walkInv_wire hlong hle hsafe h.2 hs⟩
  refine throughout_of_guarded ?_ hstep ⟨streamInv_init conf frames, walkInv_init hlong hsafe⟩ hg
  rintro s ⟨hstream, hwalk⟩
  have hsent : s.tx.sent <+: packetStream (frameAt stored.disk) s.reads := by
    rw [hstream.kept.sent]
    exact (List.take_prefix _ _).trans hstream.handedOver
  have hpackets : (packetStream (frameAt stored.disk) s.reads).map slotBytes =
      packetStream (storedPacket p) s.reads := by
    unfold packetStream
    rw [List.map_flatMap]
    apply List.flatMap_congr
    intro read hread
    apply packets_stored hblock fun f hf => store_packets hp hstore hdone hf
    have hin := (hwalk.reads read hread).2
    rw [BitVec.toNat_setWidth_of_le (by decide)] at hin
    omega
  rw [← hpackets]
  exact hsent.map slotBytes

/-- One pass of store over 256 blocks. -/
def storedBlocks : StoreParam :=
  .ofBatch 512 256 12 (by decide)

lemma storedBlocks_even : EvenBatches storedBlocks :=
  ⟨rfl, by decide, by decide, by decide, by decide⟩

/-- The first pass of nvgen over what store has written, two blocks that become four packets. -/
def fourPackets : List WireOp :=
  [.unvme .avail, .unvme (.aread 0), .arrive 0, .unvme (.apoll 0), .unvme .publish,
    .netmap (.load (some 1023)), .netmap .slot, .netmap .slot, .netmap .slot, .netmap .slot, .post,
    .netmap .publish, .transmit, .transmit]

theorem stored_packets_sent_four :
    ∃ stored,
      exec (storeStep storedBlocks) (storeInit storedBlocks (fun _ => 0) fun _ => 0) [0] = some stored ∧
      Throughout (wireStep ⟨4, 2, .seq, 0, 150⟩ 1024 (frameAt stored.disk))
        (fun s => s.tx.sent.map slotBytes <+: packetStream (storedPacket storedBlocks) s.reads)
        (wireInit ⟨4, 2, .seq, 0, 150⟩ fun _ => []) fourPackets := by
  have hrun :
      exec (storeStep storedBlocks) (storeInit storedBlocks (fun _ => 0) fun _ => 0) [0] = some _ := rfl
  refine ⟨_, hrun, ?_⟩
  exact stored_packets_sent storedBlocks_even rfl hrun (by decide) ⟨4, 2, .seq, 0, 150⟩
    (by decide) (by decide)
    (Or.inl ⟨by decide, Or.inl rfl⟩) (by decide) 1024 (fun _ => []) (by decide +kernel)

end Libpop.Proofs
