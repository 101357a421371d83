import Libpop.Descriptors
import Libpop.GeneratorSend
import Libpop.Proofs.GeneratorArrays
import Libpop.Proofs.NmgenTransmit
import Libpop.Proofs.StorageFormat

/-!
# From the device to the wire, through generator

A thread of generator reads into the same buffers in every iteration, without a look at what the
NIC has sent. As long as the NIC has taken everything when an iteration with free slots starts, the
polls succeed and no slot too many is filled, the NIC finds every slot as it was filled, and the
frames that go out are those of the device, in the order in which the commands ask for them.
-/

namespace Libpop.Proofs
open Bytes Execution Generator

/-! ### Addresses -/

/-- The buffers of a thread as `pop_buf_alloc` gives them out: inside the region, and apart. -/
structure BuffersApart (p : GenParam) (g : GenBuffers) : Prop where
  region : g.mem.mem.toNat + g.mem.size.toNat < 2 ^ 64
  inside : ∀ vb < p.nvbatch, g.mem.mem.toNat ≤ (g.data vb).toNat ∧
    (g.data vb).toNat + frameSize * p.batch ≤ g.mem.mem.toNat + g.mem.size.toNat
  apart : ∀ vb < p.nvbatch, ∀ vb' < p.nvbatch, vb ≠ vb' →
    (g.data vb).toNat + frameSize * p.batch ≤ (g.data vb').toNat ∨
      (g.data vb').toNat + frameSize * p.batch ≤ (g.data vb).toNat

section Addresses

variable {p : GenParam} {g : GenBuffers} {vb b vb' b' : Nat}

lemma toNat_pkt (h : BuffersApart p g) (hvb : vb < p.nvbatch) (hb : b < p.batch) :
    (g.pkt vb b).toNat = (g.data vb).toNat + frameSize * b := by
  have hregion := h.region
  have hinside := (h.inside vb hvb).2
  have hmul : frameSize * b ≤ frameSize * p.batch := Nat.mul_le_mul_left _ hb.le
  unfold GenBuffers.pkt
  rw [BitVec.toNat_add, BitVec.toNat_ofNat, Nat.mod_eq_of_lt (by omega),
    Nat.mod_eq_of_lt (by omega)]

lemma popVirtToPhys_pkt (h : BuffersApart p g) (hvb : vb < p.nvbatch) (hb : b < p.batch) :
    popVirtToPhys g.mem (g.pkt vb b) = g.mem.paddr + (g.pkt vb b - g.mem.mem) := by
  have hinside := h.inside vb hvb
  have hmul : frameSize * b ≤ frameSize * p.batch := Nat.mul_le_mul_left _ hb.le
  apply popVirtToPhys_of_le h.region
  · rw [toNat_pkt h hvb hb]
    omega
  · rw [toNat_pkt h hvb hb]
    omega

/-- Different frames have different addresses. -/
lemma pkt_injective (h : BuffersApart p g) (hvb : vb < p.nvbatch) (hb : b < p.batch)
    (hvb' : vb' < p.nvbatch) (hb' : b' < p.batch)
    (hsame : popVirtToPhys g.mem (g.pkt vb b) = popVirtToPhys g.mem (g.pkt vb' b')) :
    vb = vb' ∧ b = b' := by
  rw [popVirtToPhys_pkt h hvb hb, popVirtToPhys_pkt h hvb' hb'] at hsame
  have hvirt : g.pkt vb b = g.pkt vb' b' := by
    have hoffset := (BitVec.add_right_inj _).mp hsame
    exact (BitVec.sub_left_inj _).mp hoffset
  have hnat := congrArg BitVec.toNat hvirt
  rw [toNat_pkt h hvb hb, toNat_pkt h hvb' hb'] at hnat
  have hlow : frameSize * (b + 1) ≤ frameSize * p.batch := Nat.mul_le_mul_left _ hb
  have hlow' : frameSize * (b' + 1) ≤ frameSize * p.batch := Nat.mul_le_mul_left _ hb'
  by_cases hsame : vb = vb'
  · subst hsame
    refine ⟨rfl, ?_⟩
    unfold frameSize at hnat
    omega
  · have hapart := h.apart vb hvb vb' hvb' hsame
    unfold frameSize at hnat hlow hlow' hapart
    omega

lemma frameBehind_pkt (h : BuffersApart p g) (hvb : vb < p.nvbatch) (hb : b < p.batch) :
    frameBehind p g (popVirtToPhys g.mem (g.pkt vb b)) = some (vb, b) := by
  have hmem : (vb, b) ∈ (List.range p.nvbatch).flatMap fun vb =>
      (List.range p.batch).map fun b => (vb, b) := by
    simp [hvb, hb]
  unfold frameBehind
  cases hfind : List.find? _ _ with
  | none =>
    have hno := List.find?_eq_none.mp hfind (vb, b) hmem
    simp at hno
  | some x =>
    obtain ⟨vb', b'⟩ := x
    have hfound := List.mem_of_find?_eq_some hfind
    have haddr := List.find?_some hfind
    simp only [List.mem_flatMap, List.mem_map, List.mem_range, Prod.mk.injEq,
      decide_eq_true_eq] at hfound haddr
    obtain ⟨_, hvb', _, hb', rfl, rfl⟩ := hfound
    obtain ⟨rfl, rfl⟩ := pkt_injective h hvb' hb' hvb hb haddr
    rfl

end Addresses

/-! ### The ring -/

/-- The ring of a thread as a descriptor ring; what is filled is posted by the same iteration. -/
def genRing (s : GenTx) : Descriptors.Ring NetmapSlot where
  size := s.thread.ring.numSlots
  slot := s.thread.ring.slot
  written := s.written.map Fill.slot
  posted := s.written.length
  taken := s.transmitted
  reclaimed := s.reclaimed
  found := s.sent.map Sent.slot

/-- The ring while an iteration fills slots. -/
def fillRing (s : GenTx) (f : Filling) : Descriptors.Ring NetmapSlot :=
  { genRing s with slot := f.slot, written := (s.written ++ f.fills).map Fill.slot }

section Fill

variable {p : GenParam} {g : GenBuffers} {s : GenTx} {f : Filling}

/-- One more slot is written. -/
lemma fillRing_fillSlot (hhead : HeadAt s.thread.ring s.written.length f) (vb b : Nat) :
    ∃ slot, slot.flags &&& g.nsPhyIndirect = g.nsPhyIndirect ∧
      (fillSlot p g s.thread.ring vb b f).fills = f.fills ++ [⟨f.head, vb, b, slot⟩] ∧
      fillRing s (fillSlot p g s.thread.ring vb b f) = (fillRing s f).write slot := by
  obtain ⟨slot, hflags, hslot, hfills⟩ : ∃ slot, slot.flags = (f.slot f.head).flags ||| g.nsPhyIndirect ∧
      (fillSlot p g s.thread.ring vb b f).slot = Function.update f.slot f.head slot ∧
      (fillSlot p g s.thread.ring vb b f).fills = f.fills ++ [⟨f.head, vb, b, slot⟩] := ⟨_, rfl, rfl, rfl⟩
  refine ⟨slot, ?_, hfills, ?_⟩
  · rw [hflags]
    exact Word.or_and_self _ _
  · have hindex :
        f.head = ((s.written ++ f.fills).map Fill.slot).length % s.thread.ring.numSlots := by
      rw [List.length_map, List.length_append]
      exact hhead
    unfold fillRing Descriptors.Ring.write genRing
    dsimp only
    rw [hslot, hfills, ← List.append_assoc, List.map_append, hindex]
    rfl

/-- What the slots of the ring hold while an iteration fills them. -/
structure FillInv (g : GenBuffers) (s : GenTx) (f : Filling) : Prop where
  queue : (fillRing s f).Inv
  head : HeadAt s.thread.ring s.written.length f
  flags : ∀ x ∈ f.fills, x.slot.flags &&& g.nsPhyIndirect = g.nsPhyIndirect

lemma fillInv_fillBatch (h : FillInv g s f) (vb n : Nat)
    (hroom : s.written.length + (f.fills.length + n) < s.reclaimed + s.thread.ring.numSlots) :
    FillInv g s (fillBatch p g s.thread.ring vb f n) := by
  have hpos : 0 < s.thread.ring.numSlots := by
    have hle := h.queue.reclaimed_le.trans h.queue.taken_le
    dsimp only [fillRing, genRing] at hle
    omega
  induction n with
  | zero => exact h
  | succ n ih =>
    have ih := ih (by omega)
    obtain ⟨slot, hflags, hfills, hring⟩ := fillRing_fillSlot (p := p) (g := g) ih.head vb n
    rw [fillBatch]
    refine ⟨?_, ?_, ?_⟩
    · rw [hring]
      apply ih.queue.write
      dsimp only [fillRing, genRing]
      rw [List.length_map, List.length_append, length_fillBatch]
      omega
    · exact headAt_fillBatch p g hpos h.head vb (n + 1)
    · rw [hfills]
      intro x hx
      rcases List.mem_append.mp hx with hx | hx
      · exact ih.flags x hx
      · obtain rfl := List.mem_singleton.mp hx
        exact hflags

lemma arrive_slot (p : GenParam) (disk : Mem) (reads : List GenRead) (vb : Nat) (f : Filling) :
    (arrive p disk reads vb f).slot = f.slot := by
  unfold arrive
  split <;> rfl

/-- The arrival of data and the counters are nothing to the ring. -/
lemma FillInv.arrive (h : FillInv g s f) (disk : Mem) (reads : List GenRead) (vb ncmds : Nat) :
    FillInv g s { arrive p disk reads vb f with ncmds := ncmds } := by
  obtain ⟨hfills, hhead⟩ := arrive_fills p disk reads vb f
  have hslot := arrive_slot p disk reads vb f
  obtain ⟨hqueue, hat, hflags⟩ := h
  refine ⟨?_, ?_, ?_⟩
  · unfold fillRing at hqueue ⊢
    dsimp only
    rwa [hfills, hslot]
  · unfold HeadAt at hat ⊢
    dsimp only
    rwa [hfills, hhead]
  · dsimp only
    rwa [hfills]

lemma fillInv_fillLoop (h : FillInv g s f) (disk : Mem) (reads : List GenRead) (poll : Nat → Int)
    (nvbatch rest n : Nat)
    (hroom : s.written.length + (fillLoop p g s.thread.ring disk reads poll nvbatch rest f n).fills.length <
      s.reclaimed + s.thread.ring.numSlots) :
    FillInv g s (fillLoop p g s.thread.ring disk reads poll nvbatch rest f n) := by
  induction n with
  | zero => exact h
  | succ n ih =>
    rw [fillLoop] at hroom ⊢
    dsimp only at hroom ⊢
    split at hroom
    · rename_i hfailed
      rw [if_pos hfailed]
      exact ih hroom
    · rename_i hok
      rw [if_neg hok]
      rw [length_fillBatch] at hroom
      refine fillInv_fillBatch (FillInv.arrive (ih ?_) disk reads n _) n _ hroom
      dsimp only at hroom
      rw [(arrive_fills p disk reads n _).1] at hroom
      omega

end Fill

/-! ### One iteration -/

lemma syncOut_ring (p : GenParam) (env : GenEnv) (space npkts nbytes ncmds nbytesNvme : Nat)
    (th : GenThread) :
    (syncOut p env space npkts nbytes ncmds nbytesNvme th).ring =
      { th.ring with
        cur := if space < p.bpkts then th.ring.tail else th.ring.cur
        tail := env.txsync.getD th.ring.tail } := by
  unfold syncOut
  cases env.txsync <;> dsimp only <;> split <;> rfl

/-- The ring after an iteration. -/
lemma threadBody_ring {p : GenParam} {g : GenBuffers} {disk : Mem} {th t : GenThread} {env : GenEnv}
    (h : threadBody p g disk th env = some t) :
    (nmRingSpace th.ring = 0 ∧ t.bufs = th.bufs ∧
      t.ring = { th.ring with cur := th.ring.tail, tail := env.txsync.getD th.ring.tail }) ∨
    (nmRingSpace th.ring ≠ 0 ∧ ∃ reads, t.reads = reads ∧ t.bufs = (filling p g disk th env reads).bufs ∧
      t.fills = (filling p g disk th env reads).fills ∧
      t.ring = { th.ring with
        head := (filling p g disk th env reads).head
        slot := (filling p g disk th env reads).slot
        cur := if nmRingSpace th.ring < p.bpkts then th.ring.tail else (filling p g disk th env reads).head
        tail := env.txsync.getD th.ring.tail }) := by
  have hbpkts : 0 < p.bpkts := Nat.mul_pos p.batch_pos p.nvbatch_pos
  unfold threadBody at h
  split at h
  · cases h
  · dsimp only at h
    by_cases hspace : nmRingSpace th.ring = 0
    · rw [if_pos hspace, Option.some.injEq] at h
      subst h
      refine .inl ⟨hspace, (syncOut_kept ..).bufs, ?_⟩
      rw [syncOut_ring, hspace, if_pos hbpkts]
    · rw [if_neg hspace] at h
      split at h
      · cases h
      · rename_i reads lba _
        cases h
        have hkept :=
          syncOut_kept p env (nmRingSpace th.ring) (filling p g disk th env reads).fills.length
          (filling p g disk th env reads).nbytes (filling p g disk th env reads).ncmds
          (reads.length * (p.nblocks <<< p.blockshift))
          { th with
            lba := lba, reads := reads, fills := (filling p g disk th env reads).fills
            bufs := (filling p g disk th env reads).bufs
            ring := { th.ring with
              head := (filling p g disk th env reads).head, cur := (filling p g disk th env reads).head
              slot := (filling p g disk th env reads).slot } }
        exact .inr ⟨hspace, reads, hkept.reads, hkept.bufs, hkept.fills, syncOut_ring ..⟩

/-! ### What the frames hold -/

/-- The frame that slot `x` points at is the one at `addr` of the device, and the slot has its
length. -/
structure Loaded (p : GenParam) (g : GenBuffers) (disk : Mem) (bufs : Nat → Mem) (x : Fill)
    (addr : Nat) : Prop where
  vb_lt : x.vb < p.nvbatch
  b_lt : x.b < p.batch
  describes : Describes g bufs x
  frame : ∀ i < frameSize, bufs x.vb (frameSize * x.b + i) = disk (addr + i)

/-- A frame of the device with the length in its descriptor. -/
def deviceFrame (disk : Mem) (addr : Nat) : BitVec 16 × List (BitVec 8) :=
  ((getPktlenFromDesc disk addr).setWidth 16, frameBytes disk addr)

section Iteration

variable {p : GenParam} {g : GenBuffers} {disk : Mem}

lemma Loaded.deviceFrame_eq {bufs : Nat → Mem} {x : Fill} {addr : Nat}
    (h : Loaded p g disk bufs x addr) :
    (x.slot.len, frameBytes (bufs x.vb) (frameSize * x.b)) = deviceFrame disk addr := by
  have hdesc : getPktlenFromDesc (bufs x.vb) (frameSize * x.b) = getPktlenFromDesc disk addr := by
    apply get32_congr
    intro k hk
    rw [Nat.add_assoc, Nat.add_assoc]
    apply h.frame
    unfold frameSize
    omega
  have hbytes : frameBytes (bufs x.vb) (frameSize * x.b) = frameBytes disk addr := by
    unfold frameBytes
    apply List.map_congr_left
    intro i hi
    exact h.frame i (List.mem_range.mp hi)
  rw [deviceFrame, h.describes.2, hdesc, hbytes]

/-- The slots are filled in the order of the commands. -/
lemma fillLoop_order (r : NetmapRing) (reads : List GenRead) {poll : Nat → Int} (nvbatch rest : Nat)
    (f : Filling) {n : Nat} (hpoll : ∀ vb < n, poll vb = 0) :
    (fillLoop p g r disk reads poll nvbatch rest f n).fills.map (fun x => (x.vb, x.b)) =
      f.fills.map (fun x => (x.vb, x.b)) ++
        (List.range n).flatMap fun vb => (List.range (p.batchOf nvbatch rest vb)).map fun b => (vb, b) := by
  induction n with
  | zero => simp [fillLoop]
  | succ n ih =>
    have ih := ih fun vb hvb => hpoll vb (by omega)
    rw [fillLoop]
    dsimp only
    rw [if_neg (not_not.mpr (hpoll n (by omega))), frames_fillBatch]
    dsimp only
    rw [(arrive_fills p disk reads n _).1, ih, List.range_succ, List.flatMap_append,
      List.append_assoc]
    simp

lemma mem_readFrames {nvbatch rest : Nat} {reads : List GenRead} {y : GenRead × Nat}
    (h : y ∈ readFrames p nvbatch rest reads) :
    y.1 ∈ reads ∧ y.2 < p.batchOf nvbatch rest y.1.vb := by
  obtain ⟨read, hread, hy⟩ := List.mem_flatMap.mp h
  obtain ⟨b, hb, rfl⟩ := List.mem_map.mp hy
  exact ⟨hread, List.mem_range.mp hb⟩

/-- The slots of an iteration hold the frames that its commands ask for, one by one. -/
lemma iteration_loaded (hfake : p.fakePacket = false)
    (hwhole : frameSize * p.batch ≤ p.nblocks * p.blocksize) {th t : GenThread} {env : GenEnv}
    (h : threadBody p g disk th env = some t) (hspace : nmRingSpace th.ring ≠ 0)
    (hpoll : ∀ vb < (p.plan (nmRingSpace th.ring)).1, env.poll vb = 0) :
    List.Forall₂ (Loaded p g disk t.bufs) t.fills
      ((readFrames p (p.plan (nmRingSpace th.ring)).1 (p.plan (nmRingSpace th.ring)).2
        t.reads).map (deviceAddr p)) := by
  obtain hfull | ⟨hvb, hnblocks, hfrom⟩ := threadBody_filledFrom hfake h hpoll
  · exact absurd hfull.1 hspace
  obtain ⟨-, -, hmove⟩ := threadBody_move h
  cases hmove with
  | full hfull => exact absurd hfull hspace
  | filled reads _ hreading hreads hfills _ _ =>
    have hkeys : t.fills.map (fun x => (x.vb, x.b)) =
        (readFrames p (p.plan (nmRingSpace th.ring)).1 (p.plan (nmRingSpace th.ring)).2 t.reads).map
          fun y => (y.1.vb, y.2) := by
      rw [hfills, filling, fillLoop_order _ _ _ _ _ hpoll, List.map_nil, List.nil_append,
        List.range_eq_range', ← hvb, readFrames, List.flatMap_map, List.map_flatMap]
      simp [Function.comp_def]
    have hpairs := List.forall₂_eq_eq_eq ▸ hkeys
    rw [List.forall₂_map_left_iff, List.forall₂_map_right_iff, List.forall₂_iff_zip] at hpairs
    obtain ⟨hlen, hzip⟩ := hpairs
    rw [List.forall₂_map_right_iff, List.forall₂_iff_zip]
    refine ⟨hlen, ?_⟩
    rintro x ⟨read, b⟩ hxy
    obtain ⟨hx, hy⟩ := List.of_mem_zip hxy
    obtain ⟨hxvb, hxb⟩ := Prod.mk.inj (hzip hxy)
    obtain ⟨hread, hb⟩ := mem_readFrames hy
    obtain ⟨hlt, -, hdesc⟩ := hfrom.frame x hx
    have hbatch : b < p.batch := hb.trans_le (batchOf_le p _ _)
    refine ⟨hlt.trans_le (plan_le p _), hxb ▸ hbatch, hdesc, ?_⟩
    intro i hi
    have hbound : frameSize * (b + 1) ≤ frameSize * p.batch := Nat.mul_le_mul_left _ hbatch
    rw [hxvb, hxb, hfrom.data read hread (hxvb ▸ hlt), deviceAddr, Nat.add_assoc]
    rw [hnblocks read hread]
    rw [Nat.mul_add] at hbound
    dsimp only
    omega

end Iteration

/-! ### Invariants -/

/-- The NIC finds the slots as they were filled, what it has sent are the frames of the device,
and so are those that it has still to send. -/
structure FramesInv (p : GenParam) (g : GenBuffers) (disk : Mem) (s : GenTx) : Prop where
  queue : (genRing s).Inv
  flags : ∀ x ∈ s.written, x.slot.flags &&& g.nsPhyIndirect = g.nsPhyIndirect
  asked : s.asked.length = s.written.length
  pending : List.Forall₂ (Loaded p g disk s.thread.bufs) (s.written.drop s.transmitted)
    (s.asked.drop s.transmitted)
  sent : s.sent.map (fun y => (y.slot.len, y.frame)) = (s.asked.take s.transmitted).map (deviceFrame disk)

/-- The indices of the ring, as counts. The thread may have moved `cur` up to the tail. -/
structure IndexInv (s : GenTx) : Prop where
  head : s.thread.ring.head = s.written.length % s.thread.ring.numSlots
  cur : ∃ c, s.written.length ≤ c ∧ c < s.reclaimed + s.thread.ring.numSlots ∧
    s.thread.ring.cur = c % s.thread.ring.numSlots
  tail : s.thread.ring.tail = (s.reclaimed + s.thread.ring.numSlots - 1) % s.thread.ring.numSlots

section Transmit

variable {p : GenParam} {g : GenBuffers} {disk : Mem} {s : GenTx}

lemma framesInv_transmit (hg : BuffersApart p g) (h : FramesInv p g disk s)
    (hmore : s.transmitted < s.written.length) : FramesInv p g disk (s.transmit p g) := by
  have hask : s.transmitted < s.asked.length := h.asked ▸ hmore
  have hpending := h.pending
  rw [List.drop_eq_getElem_cons hmore, List.drop_eq_getElem_cons hask] at hpending
  obtain ⟨hloaded, hrest⟩ := List.forall₂_cons.mp hpending
  -- the slot in the ring is the one that was filled
  have hslot : s.thread.ring.slot (s.transmitted % s.thread.ring.numSlots) =
      (s.written[s.transmitted]).slot := by
    have hfound := h.queue.slots s.transmitted h.queue.reclaimed_le (by simpa [genRing] using hmore)
    dsimp only [genRing] at hfound
    rw [List.getElem?_map, List.getElem?_eq_getElem hmore, Option.map_some,
      Option.some.injEq] at hfound
    exact hfound.symm
  have hbehind : frameBehind p g (s.written[s.transmitted]).slot.ptr =
      some ((s.written[s.transmitted]).vb, (s.written[s.transmitted]).b) := by
    rw [hloaded.describes.1]
    exact frameBehind_pkt hg hloaded.vb_lt hloaded.b_lt
  have hstep : s.transmit p g = { s with
      transmitted := s.transmitted + 1
      sent := s.sent ++ [⟨(s.written[s.transmitted]).slot,
        frameBytes (s.thread.bufs (s.written[s.transmitted]).vb)
          (frameSize * (s.written[s.transmitted]).b)⟩] } := by
    unfold GenTx.transmit
    rw [hslot]
    dsimp only
    rw [hbehind]
  have hqueue : genRing (s.transmit p g) = (genRing s).take := by
    unfold GenTx.transmit genRing Descriptors.Ring.take
    simp
  refine ⟨hqueue ▸ h.queue.take hmore, ?_, ?_, ?_, ?_⟩
  · exact h.flags
  · exact h.asked
  · exact hrest
  · rw [hstep]
    dsimp only
    rw [List.map_append, h.sent, List.take_add_one, List.getElem?_eq_getElem hask, List.map_append,
      List.map_singleton, hloaded.deviceFrame_eq]
    rfl

lemma transmits_kept (s : GenTx) (k : Nat) :
    (s.transmits p g k).thread = s.thread ∧ (s.transmits p g k).written = s.written ∧
      (s.transmits p g k).reclaimed = s.reclaimed ∧
        (s.transmits p g k).transmitted = s.transmitted + k := by
  induction k with
  | zero => exact ⟨rfl, rfl, rfl, rfl⟩
  | succ k ih =>
    obtain ⟨hthread, hwritten, hreclaimed, htransmitted⟩ := ih
    exact ⟨hthread, hwritten, hreclaimed, congrArg (· + 1) htransmitted⟩

lemma framesInv_transmits (hg : BuffersApart p g) (h : FramesInv p g disk s) {k : Nat}
    (hk : s.transmitted + k ≤ s.written.length) : FramesInv p g disk (s.transmits p g k) := by
  induction k with
  | zero => exact h
  | succ k ih =>
    obtain ⟨-, hwritten, -, htransmitted⟩ := transmits_kept (p := p) (g := g) s k
    apply framesInv_transmit hg (ih (by omega))
    rw [hwritten, htransmitted]
    omega

/-- Slots that were sent are given back. -/
lemma FramesInv.reclaim (h : FramesInv p g disk s) {n : Nat}
    (hn : s.reclaimed + n ≤ s.transmitted) :
    FramesInv p g disk { s with reclaimed := s.reclaimed + n } :=
  { h with queue := h.queue.reclaim hn }

end Transmit

/-! ### Runs -/

/-- When there are free slots, the NIC has taken everything, every poll succeeds, and the free slots
are enough for a full iteration or not a multiple of the batch. -/
def KeepsFrames (p : GenParam) (s : GenTx) : GenTxOp → Prop
  | .iterate _ poll _ => nmRingSpace s.thread.ring ≠ 0 →
      s.transmitted = s.written.length ∧ (∀ vb < (p.plan (nmRingSpace s.thread.ring)).1, poll vb = 0) ∧
        (p.bpkts ≤ nmRingSpace s.thread.ring ∨ ¬p.batch ∣ nmRingSpace s.thread.ring)
  | .transmit => True

instance (p : GenParam) (s : GenTx) (op : GenTxOp) : Decidable (KeepsFrames p s op) :=
  match op with
  | .iterate _ poll _ => inferInstanceAs (Decidable (nmRingSpace s.thread.ring ≠ 0 →
      s.transmitted = s.written.length ∧ (∀ vb < (p.plan (nmRingSpace s.thread.ring)).1, poll vb = 0) ∧
        (p.bpkts ≤ nmRingSpace s.thread.ring ∨ ¬p.batch ∣ nmRingSpace s.thread.ring)))
  | .transmit => inferInstanceAs (Decidable True)

section Runs

variable {p : GenParam} {g : GenBuffers} {disk : Mem} {s : GenTx}

lemma FramesInv.numSlots_pos (h : FramesInv p g disk s) : 0 < s.thread.ring.numSlots := by
  have hroom := h.queue.room
  have hle := h.queue.reclaimed_le.trans (h.queue.taken_le.trans h.queue.posted_le)
  dsimp only [genRing] at hroom hle
  omega

/-- The space that an iteration finds is what is left of the ring behind `cur`, but one slot. -/
lemma space_add (h : FramesInv p g disk s) {c : Nat} (hc : s.written.length ≤ c)
    (hc' : c < s.reclaimed + s.thread.ring.numSlots)
    (hcur : s.thread.ring.cur = c % s.thread.ring.numSlots)
    (htail : s.thread.ring.tail = (s.reclaimed + s.thread.ring.numSlots - 1) % s.thread.ring.numSlots) :
    c + nmRingSpace s.thread.ring + 1 = s.reclaimed + s.thread.ring.numSlots := by
  have hpos := h.numSlots_pos
  have hreclaimed := h.queue.reclaimed_le
  have htaken := h.queue.taken_le
  dsimp only [genRing] at hreclaimed htaken
  have hspace : nmRingSpace s.thread.ring = s.reclaimed + s.thread.ring.numSlots - 1 - c := by
    unfold nmRingSpace
    rw [hcur, htail]
    exact ahead_mod (by omega) (by omega)
  omega

/-- An iteration fills no more slots than it finds free. -/
lemma fills_le_space {t : GenThread} {rand : Nat → BitVec 31} {poll : Nat → Int}
    {sync : Option (Nat × Nat)} (hindex : IndexInv s) (hpos : 0 < s.thread.ring.numSlots)
    (hop : KeepsFrames p s (.iterate rand poll sync))
    (h : threadBody p g disk s.thread (genEnv s.thread.ring rand poll sync) = some t) :
    t.fills.length ≤ nmRingSpace s.thread.ring := by
  by_cases hspace : nmRingSpace s.thread.ring = 0
  · obtain ⟨-, -, hmove⟩ := threadBody_move h
    cases hmove with
    | full _ _ _ hfills =>
      rw [hfills]
      exact Nat.zero_le _
    | filled _ hfree => exact absurd hspace hfree
  · obtain ⟨-, hpoll, hfits⟩ := hop hspace
    have hhead : s.thread.ring.head < s.thread.ring.numSlots := hindex.head ▸ Nat.mod_lt _ hpos
    have hlen := (threadBody_fills hpos hhead (Nat.pos_of_ne_zero hspace) h).1
    have hover : ¬Overfills p (nmRingSpace s.thread.ring) poll := by
      rintro ⟨hshort, hdvd, -⟩
      rcases hfits with hfits | hfits
      · omega
      · exact hfits hdvd
    rw [hlen]
    exact ((planned_iff p _ _).mpr hover).1

/-- The slots of an iteration are written and posted. -/
lemma queue_fill {t : GenThread} {env : GenEnv} {reads : List GenRead}
    (hframes : FramesInv p g disk s)
    (hhead : s.thread.ring.head = s.written.length % s.thread.ring.numSlots)
    (hfills : t.fills = (filling p g disk s.thread env reads).fills)
    (hslot : t.ring.slot = (filling p g disk s.thread env reads).slot)
    (hsize : t.ring.numSlots = s.thread.ring.numSlots)
    (hroom : s.written.length + t.fills.length < s.reclaimed + s.thread.ring.numSlots) :
    (genRing (s.fill p t)).Inv ∧ ∀ x ∈ t.fills, x.slot.flags &&& g.nsPhyIndirect = g.nsPhyIndirect := by
  have hstart : FillInv g s ⟨s.thread.ring.head, s.thread.ring.slot, s.thread.bufs, 0, 0, []⟩ := by
    refine ⟨?_, hhead, by simp⟩
    unfold fillRing
    dsimp only
    rw [List.append_nil]
    exact hframes.queue
  have hinv : FillInv g s (filling p g disk s.thread env reads) :=
    fillInv_fillLoop hstart disk reads env.poll _ _ _ (hfills ▸ hroom)
  refine ⟨?_, hfills ▸ hinv.flags⟩
  have hring : genRing (s.fill p t) = (fillRing s (filling p g disk s.thread env reads)).post := by
    unfold genRing fillRing Descriptors.Ring.post GenTx.fill
    dsimp only
    rw [hfills, hslot, hsize, List.length_map]
    rfl
  rw [hring]
  exact hinv.queue.post

lemma framesInv_fill (hfake : p.fakePacket = false)
    (hwhole : frameSize * p.batch ≤ p.nblocks * p.blocksize) {t : GenThread}
    {rand : Nat → BitVec 31} {poll : Nat → Int} {sync : Option (Nat × Nat)}
    (hframes : FramesInv p g disk s) (hindex : IndexInv s)
    (hop : KeepsFrames p s (.iterate rand poll sync))
    (h : threadBody p g disk s.thread (genEnv s.thread.ring rand poll sync) = some t) :
    FramesInv p g disk (s.fill p t) := by
  have hle := fills_le_space hindex hframes.numSlots_pos hop h
  obtain ⟨c, hc, hc', hcur⟩ := hindex.cur
  have hspace := space_add hframes hc hc' hcur hindex.tail
  rcases threadBody_ring h with ⟨hfull, hbufs, hring⟩ | ⟨hfree, reads, hreads, hbufs, hfills, hring⟩
  · obtain ⟨-, -, hmove⟩ := threadBody_move h
    cases hmove with
    | filled _ hfree => exact absurd hfull hfree
    | full _ _ hreads hfills =>
      have hsame : s.fill p t = { s with thread := t } := by
        unfold GenTx.fill
        rw [hreads, hfills, List.append_nil]
        dsimp only [readFrames]
        rw [List.flatMap_nil, List.map_nil, List.append_nil]
      have hqueue : genRing { s with thread := t } = genRing s := by
        unfold genRing
        rw [hring]
      rw [hsame]
      refine { hframes with queue := hqueue ▸ hframes.queue, pending := ?_ }
      dsimp only
      rw [hbufs]
      exact hframes.pending
  · obtain ⟨hidle, hpoll, -⟩ := hop hfree
    have hloaded := iteration_loaded hfake hwhole h hfree hpoll
    have hlen := hloaded.length_eq
    obtain ⟨hqueue, hflags⟩ :=
      queue_fill hframes hindex.head hfills (by rw [hring]) (by rw [hring]) (by omega)
    have hasked := hframes.asked
    refine ⟨hqueue, ?_, ?_, ?_, ?_⟩
    · intro x hx
      rcases List.mem_append.mp hx with hx | hx
      · exact hframes.flags x hx
      · exact hflags x hx
    · change (s.asked ++ _).length = (s.written ++ t.fills).length
      rw [List.length_append, List.length_append, hasked, ← hlen]
    · change List.Forall₂ _ ((s.written ++ t.fills).drop s.transmitted) ((s.asked ++ _).drop s.transmitted)
      rw [hidle, List.drop_left, ← hasked, List.drop_left]
      exact hloaded
    · change s.sent.map _ = ((s.asked ++ _).take s.transmitted).map _
      rw [List.take_append_of_le_length (by omega)]
      exact hframes.sent

/-- The indices after an iteration whose `NIOCTXSYNC` has given `n` slots back. -/
lemma indexInv_iterate {t : GenThread} {u : GenTx} {env : GenEnv} {n : Nat}
    (hframes : FramesInv p g disk s) (hindex : IndexInv s)
    (h : threadBody p g disk s.thread env = some t)
    (hle : t.fills.length ≤ nmRingSpace s.thread.ring)
    (htail : env.txsync.getD s.thread.ring.tail = (s.thread.ring.tail + n) % s.thread.ring.numSlots)
    (hthread : u.thread = t) (hwritten : u.written = s.written ++ t.fills)
    (hreclaimed : u.reclaimed = s.reclaimed + n) : IndexInv u := by
  have hpos := hframes.numSlots_pos
  obtain ⟨c, hc, hc', hcur⟩ := hindex.cur
  have hspace := space_add hframes hc hc' hcur hindex.tail
  have htail' : env.txsync.getD s.thread.ring.tail =
      (s.reclaimed + n + s.thread.ring.numSlots - 1) % s.thread.ring.numSlots := by
    rw [htail, hindex.tail, Nat.mod_add_mod]
    congr 1
    omega
  rcases threadBody_ring h with ⟨hfull, -, hring⟩ | ⟨hfree, reads, -, -, hfills, hring⟩
  · obtain ⟨-, -, hmove⟩ := threadBody_move h
    cases hmove with
    | filled _ hfree => exact absurd hfull hfree
    | full _ _ _ hfills =>
      rw [hfills, List.append_nil] at hwritten
      refine ⟨?_, ⟨s.reclaimed + s.thread.ring.numSlots - 1, ?_, ?_, ?_⟩, ?_⟩
      · rw [hthread, hring, hwritten]
        exact hindex.head
      · rw [hwritten]
        omega
      · rw [hthread, hring, hreclaimed]
        dsimp only
        omega
      · rw [hthread, hring]
        exact hindex.tail
      · rw [hthread, hring, hreclaimed]
        exact htail'
  · have hhead : (filling p g disk s.thread env reads).head =
        (s.written.length + t.fills.length) % s.thread.ring.numSlots := by
      have hstart : HeadAt s.thread.ring s.written.length
          ⟨s.thread.ring.head, s.thread.ring.slot, s.thread.bufs, 0, 0, []⟩ := hindex.head
      rw [hfills]
      exact headAt_fillLoop p g hpos hstart disk reads env.poll _ _ _
    refine ⟨?_, ?_, ?_⟩
    · rw [hthread, hring, hwritten, List.length_append]
      exact hhead
    · by_cases hshort : nmRingSpace s.thread.ring < p.bpkts
      · refine ⟨s.reclaimed + s.thread.ring.numSlots - 1, ?_, ?_, ?_⟩
        · rw [hwritten, List.length_append]
          omega
        · rw [hthread, hring, hreclaimed]
          dsimp only
          omega
        · rw [hthread, hring]
          dsimp only
          rw [if_pos hshort]
          exact hindex.tail
      · refine ⟨s.written.length + t.fills.length, ?_, ?_, ?_⟩
        · rw [hwritten, List.length_append]
        · rw [hthread, hring, hreclaimed]
          dsimp only
          omega
        · rw [hthread, hring]
          dsimp only
          rw [if_neg hshort]
          exact hhead
    · rw [hthread, hring, hreclaimed]
      exact htail'

lemma genTxInv_step (hfake : p.fakePacket = false)
    (hwhole : frameSize * p.batch ≤ p.nblocks * p.blocksize) (hg : BuffersApart p g) (s : GenTx)
    (op : GenTxOp) (u : GenTx) (h : FramesInv p g disk s ∧ IndexInv s) (hop : KeepsFrames p s op)
    (hs : genTxStep p g disk s op = some u) : FramesInv p g disk u ∧ IndexInv u := by
  obtain ⟨hframes, hindex⟩ := h
  cases op with
  | transmit =>
    simp only [genTxStep] at hs
    split at hs
    · rename_i hmore
      cases hs
      exact ⟨framesInv_transmit hg hframes hmore, hindex.head, hindex.cur, hindex.tail⟩
    · cases hs
  | iterate rand poll sync =>
    simp only [genTxStep] at hs
    split at hs
    · cases hs
    · rename_i t hbody
      have hle := fills_le_space hindex hframes.numSlots_pos hop hbody
      have hfill := framesInv_fill hfake hwhole hframes hindex hop hbody
      cases sync with
      | none =>
        cases hs
        refine ⟨hfill, indexInv_iterate (n := 0) hframes hindex hbody hle ?_ rfl rfl rfl⟩
        have htail : s.thread.ring.tail < s.thread.ring.numSlots :=
          hindex.tail ▸ Nat.mod_lt _ hframes.numSlots_pos
        exact (Nat.mod_eq_of_lt htail).symm
      | some sync =>
        obtain ⟨k, n⟩ := sync
        dsimp only at hs
        split at hs
        · rename_i hsync
          cases hs
          obtain ⟨hthread, hwritten, hreclaimed, htransmitted⟩ :=
            transmits_kept (p := p) (g := g) (s.fill p t) k
          have hsent := framesInv_transmits hg hfill hsync.1
          have hreclaim := hsent.reclaim (n := n) (by rw [hreclaimed, htransmitted]; exact hsync.2)
          rw [hreclaimed] at hreclaim
          exact ⟨hreclaim, indexInv_iterate hframes hindex hbody hle rfl hthread hwritten rfl⟩
        · cases hs

lemma genTxInv_init (disk : Mem) {numSlots : Nat} (hpos : 0 < numSlots) (n : Nat)
    (slot : Nat → NetmapSlot) (bufs : Nat → Mem) :
    FramesInv p g disk (genTxInit p n numSlots slot bufs) ∧
      IndexInv (genTxInit p n numSlots slot bufs) := by
  refine ⟨⟨?_, by simp [genTxInit], rfl, .nil, rfl⟩, ?_⟩
  · exact ⟨le_rfl, le_rfl, le_rfl, by simpa [genRing, genTxInit, spawn] using hpos,
      by simp [genRing, genTxInit], rfl⟩
  · refine ⟨(Nat.zero_mod _).symm, ⟨0, le_rfl, ?_, (Nat.zero_mod _).symm⟩, ?_⟩
    · simpa [genTxInit, spawn] using hpos
    · have hlast : (0 + numSlots - 1) % numSlots = numSlots - 1 := by
        rw [Nat.zero_add]
        exact Nat.mod_eq_of_lt (by omega)
      exact hlast.symm

end Runs

lemma twoByTwoBuffers_apart : BuffersApart twoByTwo twoByTwoBuffers :=
  ⟨by decide, by decide +kernel, by decide +kernel⟩

/-- Two iterations of two commands with two frames each, the second when the first has been sent. -/
def eightFrames : List GenTxOp :=
  [.iterate (fun _ => 0) (fun _ => 0) (some (2, 1)), .transmit, .transmit,
    .iterate (fun _ => 0) (fun _ => 0) (some (0, 3)), .transmit]

/-- The second iteration does not wait: frame 2 of the device is asked for, and frame 6 goes out. -/
theorem generator_overtakes_nic :
    (exec (genTxStep twoByTwo twoByTwoBuffers fun i => BitVec.ofNat 8 (i / 2048))
      (genTxInit twoByTwo 0 16 (fun _ => ⟨0, 0, 0⟩) fun _ _ => 0)
      [.iterate (fun _ => 0) (fun _ => 0) (some (2, 0)),
        .iterate (fun _ => 0) (fun _ => 0) (some (1, 0))]).map
        (fun s => (s.asked[2]?, (s.sent.map fun y => y.frame.head?)[2]?)) =
          some (some (2048 * 2), some (some 6)) := by
  decide +kernel

end Libpop.Proofs
