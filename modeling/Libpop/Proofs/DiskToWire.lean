import Libpop.Proofs.ZeroCopy
import Libpop.Wire

/-!
# The packets of nvgen are the blocks of its device

While the slot ring is kept a queue, every poll succeeds, and every read is issued inside the
packet buffer and clear of the queue of the NIC, the ring, its two threads, the device and the
NIC together are one queue: the NIC sends the halves of the blocks that were asked for, in the
order in which they were asked for, without a gap or a repetition.
-/

namespace Libpop.Proofs
open Execution

/-- The read that is issued ends inside the packet buffer. -/
def FitsBuffer {α : Type} (conf : NvgenConf) (s : TxState α) (op : WireOp) : Prop :=
  ∀ read ∈ op.issued conf s, read.slot.toNat + 2 * read.nblocks.toNat ≤ slotNum

/-- The ring is kept a queue, polls succeed and reads are issued where nothing is lost. -/
def KeepsStream {α : Type} (conf : NvgenConf) (disk : Nat → α) (s : WireState α)
    (op : WireOp) : Prop :=
  KeepsQueue conf s.tx (op.toTx disk s.tx) ∧
    AheadOfNic conf s.tx (op.toTx disk s.tx) ∧ FitsBuffer conf s.tx op

/-! ### The stream -/

section Stream

variable {α : Type} {disk : Nat → α}

@[simp]
lemma length_packets (read : Aread) : (read.packets disk).length = 2 * read.nblocks.toNat := by
  simp [Aread.packets]

lemma getElem?_packets {read : Aread} {k : Nat} (hk : k < 2 * read.nblocks.toNat) :
    (read.packets disk)[k]? = some (disk (2 * read.lba.toNat + k)) := by
  simp [Aread.packets, hk]

@[simp]
lemma packetStream_snoc (reads : List Aread) (read : Aread) :
    packetStream disk (reads ++ [read]) = packetStream disk reads ++ read.packets disk := by
  simp [packetStream]

end Stream

/-- The packets of a read are entries `start`, `start + 1`, … of the stream, and its slots are
theirs. -/
structure Lands {α : Type} (disk : Nat → α) (stream : List α) (read : Aread)
    (start : Nat) : Prop where
  slot : read.slot.toNat = start % 256
  fits : read.slot.toNat + 2 * read.nblocks.toNat ≤ 256
  stream : ∀ k < 2 * read.nblocks.toNat, stream[start + k]? = some (disk (2 * read.lba.toNat + k))

lemma Lands.append {α : Type} {disk : Nat → α} {stream : List α} {read : Aread} {start : Nat}
    (h : Lands disk stream read start) (more : List α) :
    Lands disk (stream ++ more) read start := by
  refine ⟨h.slot, h.fits, fun k hk => ?_⟩
  have hold := h.stream k hk
  obtain ⟨hlt, -⟩ := List.getElem?_eq_some_iff.mp hold
  rw [List.getElem?_append_left hlt, hold]

/-- An entry in a slot of the read, within one round of the ring with the entries of the read, is
one of them. -/
lemma Lands.entry {α : Type} {disk : Nat → α} {stream : List α} {read : Aread} {start : Nat}
    (h : Lands disk stream read start) {e base : Nat} (hx : e % 256 ∈ read.target)
    (hstart : base ≤ start) (hend : start + 2 * read.nblocks.toNat ≤ base + 256) (hlow : base ≤ e)
    (hhigh : e < base + 256) :
    ∃ k < 2 * read.nblocks.toNat, e = start + k ∧ e % 256 = read.slot.toNat + k := by
  have hrange := mem_target.mp hx
  have hslot := h.slot
  have hfits := h.fits
  unfold reach slotNum at hrange
  exact ⟨e % 256 - read.slot.toNat, by omega, by omega, by omega⟩

/-- The entries of the ring from the oldest one that is not released to the newest one that was
asked for are those of the stream: outstanding reads bring theirs, and the other slots hold
theirs. -/
structure StreamInv {α : Type} (disk : Nat → α) (s : WireState α) : Prop where
  load : LoadInv s.tx
  kept : KeptInv s.tx
  length : (packetStream disk s.reads).length = s.tx.threads.published.length + s.tx.threads.filled.length
  outstanding : ∀ c ∈ s.tx.outstanding, ∃ start,
    s.tx.threads.published.length ≤ start ∧
      start + 2 * c.2.nblocks.toNat ≤ s.tx.threads.published.length + s.tx.threads.filled.length ∧
      Lands disk (packetStream disk s.reads) c.2 start
  loaded : ∀ e, s.tx.threads.released ≤ e → e < s.tx.threads.published.length + s.tx.threads.filled.length →
    (∀ c ∈ s.tx.outstanding, e % 256 ∉ c.2.target) →
      (packetStream disk s.reads)[e]? = some (s.tx.frames (e % 256))
  handedOver : s.tx.handedOver <+: packetStream disk s.reads

section Steps

variable {α : Type} {disk : Nat → α} {conf : NvgenConf} {numSlots : Nat} {s : WireState α}

/-- A step that leaves the packet buffer and the reads alone. Entries may be published once
nothing is outstanding, and released at any time. -/
lemma StreamInv.frame (h : StreamInv disk s) {tx : TxState α} (hload : LoadInv tx)
    (hkept : KeptInv tx) (houtstanding : tx.outstanding = s.tx.outstanding)
    (hframes : tx.frames = s.tx.frames) (hhanded : tx.handedOver = s.tx.handedOver)
    (htotal : tx.threads.published.length + tx.threads.filled.length =
      s.tx.threads.published.length + s.tx.threads.filled.length)
    (hpublished : s.tx.outstanding = [] ∨ tx.threads.published = s.tx.threads.published)
    (hreleased : s.tx.threads.released ≤ tx.threads.released) : StreamInv disk ⟨tx, s.reads⟩ := by
  refine ⟨hload, hkept, h.length.trans htotal.symm, ?_, ?_, ?_⟩
  · dsimp only
    rw [houtstanding, htotal]
    rcases hpublished with hnil | hsame
    · simp [hnil]
    · rw [hsame]
      exact h.outstanding
  · dsimp only
    rw [houtstanding, htotal, hframes]
    intro e he
    exact h.loaded e (hreleased.trans he)
  · dsimp only
    rw [hhanded]
    exact h.handedOver

/-- A new read asks for the next packets of the stream. -/
lemma StreamInv.issued (h : StreamInv disk s) (hpc : s.tx.threads.unvme.pc = .issue) {read : Aread}
    (hread : read = ⟨s.tx.threads.unvme.head, s.tx.threads.unvme.lba, s.tx.threads.unvme.nblocks⟩)
    (hfits : read.slot.toNat + 2 * read.nblocks.toNat ≤ slotNum) {threads : RingState}
    (hpublished : threads.published = s.tx.threads.published)
    (hfilled : threads.filled = s.tx.threads.filled ++ read.slots s.tx.threads.ring)
    (hreleased : threads.released = s.tx.threads.released)
    (hload : LoadInv (s.tx.issue threads (some read)))
    (hkept : KeptInv (s.tx.issue threads (some read))) :
    StreamInv disk ⟨s.tx.issue threads (some read), s.reads ++ [read]⟩ := by
  have hlen := h.length
  have hslots : (read.slots s.tx.threads.ring).length = 2 * read.nblocks.toNat := by
    simp [Aread.slots]
  have hhead :
      read.slot.toNat = (s.tx.threads.published.length + s.tx.threads.filled.length) % 256 :=
    hread ▸ (h.load.ring.issue hpc).1
  refine ⟨hload, hkept, ?_, ?_, ?_, ?_⟩
  · dsimp only [TxState.issue]
    rw [packetStream_snoc, List.length_append, length_packets, hpublished, hfilled,
      List.length_append, hslots]
    omega
  · dsimp only [TxState.issue]
    rw [packetStream_snoc, hpublished, hfilled, List.length_append, hslots]
    intro c hc
    rcases List.mem_append.mp hc with hc | hc
    · obtain ⟨start, hle, hend, hlands⟩ := h.outstanding c hc
      exact ⟨start, hle, by omega, hlands.append _⟩
    · obtain rfl := List.mem_singleton.mp hc
      refine ⟨_, Nat.le_add_right _ _, le_of_eq (Nat.add_assoc _ _ _), hhead, hfits, fun k hk => ?_⟩
      rw [List.getElem?_append_right (by omega), hlen, Nat.add_sub_cancel_left]
      exact getElem?_packets hk
  · dsimp only [TxState.issue]
    rw [packetStream_snoc, hpublished, hfilled, hreleased, List.length_append, hslots]
    intro e hlow hhigh hclear
    have hnot : e % 256 ∉ read.target := hclear (s.tx.commands, read) (by simp)
    by_cases hold : e < s.tx.threads.published.length + s.tx.threads.filled.length
    · rw [List.getElem?_append_left (by omega)]
      exact h.loaded e hlow hold fun c hc => hclear c (List.mem_append_left _ hc)
    · -- the entries of the read itself are still to come
      refine absurd (mem_target.mpr ?_) hnot
      unfold reach
      unfold slotNum at hfits ⊢
      omega
  · dsimp only [TxState.issue]
    rw [packetStream_snoc]
    exact h.handedOver.trans (List.prefix_append _ _)

/-- A read that is served brings its entries. -/
lemma StreamInv.arrive (h : StreamInv disk s) {i n : Nat} {read : Aread}
    (hread : s.tx.outstanding[i]? = some (n, read)) {tx : TxState α}
    (htx : tx = { s.tx with
      outstanding := s.tx.outstanding.eraseIdx i
      frames := fun x => if x ∈ read.target then s.tx.served disk i x else s.tx.frames x })
    (hload : LoadInv tx) (hkept : KeptInv tx) : StreamInv disk ⟨tx, s.reads⟩ := by
  subst htx
  have hwin := h.load.ring.filled_window
  have hpub := h.load.ring.released_le.trans h.load.ring.handed_le
  refine ⟨hload, hkept, h.length, ?_, ?_, h.handedOver⟩
  · intro c hc
    exact h.outstanding c (List.mem_of_mem_eraseIdx hc)
  · intro e hlow hhigh hclear
    dsimp only at hlow hhigh hclear ⊢
    by_cases hx : e % 256 ∈ read.target
    · obtain ⟨start, hle, hend, hlands⟩ := h.outstanding _ (List.mem_of_getElem? hread)
      obtain ⟨k, hk, rfl, hslot⟩ := hlands.entry hx (hpub.trans hle) (by omega) hlow (by omega)
      rw [if_pos hx, hlands.stream k hk]
      simp only [TxState.served, hread]
      rw [hslot, Nat.add_sub_cancel_left]
    · rw [if_neg hx]
      apply h.loaded e hlow hhigh
      intro c hc
      rcases List.mem_iff_getElem?.mp hc with ⟨j, hj⟩
      by_cases hij : j = i
      · rw [hij, hread] at hj
        cases hj
        exact hx
      · exact hclear c (List.mem_eraseIdx_iff_getElem?.mpr ⟨j, hij, hj⟩)

/-- The slots that are handed over hold the next packets of the stream. -/
lemma StreamInv.post (h : StreamInv disk s) {tx : TxState α}
    (htx : tx = { s.tx with
      posted := s.tx.threads.handed.length
      handedOver := s.tx.handedOver ++ (s.tx.threads.handed.drop s.tx.posted).map s.tx.frames })
    (hload : LoadInv tx) (hkept : KeptInv tx) : StreamInv disk ⟨tx, s.reads⟩ := by
  subst htx
  refine ⟨hload, hkept, h.length, h.outstanding, h.loaded, ?_⟩
  have hposted := h.load.posted_le
  have hreleased := h.load.released_le
  have hhanded := h.load.ring.handed_le
  have hlen := h.kept.length
  have hnew := congrArg (List.drop s.tx.posted) h.load.ring.handed
  rw [Circular.drop_slots hposted, Nat.zero_add] at hnew
  have hclear := h.load.loadedWhenPosted
  obtain ⟨rest, hrest⟩ := h.handedOver
  dsimp only
  rw [← hrest, List.prefix_append_right_inj, hnew, List.prefix_iff_getElem?]
  intro k hk
  rw [List.length_map, Circular.length_slots] at hk
  have hentry : (packetStream disk s.reads)[s.tx.posted + k]? =
      some (s.tx.frames ((s.tx.posted + k) % 256)) := by
    apply h.loaded
    · omega
    · omega
    · intro c hc hx
      apply hclear c hc _ hx
      rw [hnew]
      exact Circular.mem_slots.mpr ⟨k, hk, rfl⟩
  rw [← hrest, List.getElem?_append_right (by omega), hlen, Nat.add_sub_cancel_left] at hentry
  rw [hentry]
  simp [Circular.slots]

lemma StreamInv.unvme (h : StreamInv disk s) {op : UnvmeOp} {threads : RingState}
    (hring : ringStep conf s.tx.threads (.unvme op) = some threads)
    (hfits : FitsBuffer conf s.tx (.unvme op))
    (hload : LoadInv (s.tx.issue threads (issuedBy conf s.tx.threads op)))
    (hkept : KeptInv (s.tx.issue threads (issuedBy conf s.tx.threads op))) :
    StreamInv disk ⟨s.tx.issue threads (issuedBy conf s.tx.threads op),
      s.reads ++ (issuedBy conf s.tx.threads op).toList⟩ := by
  obtain ⟨ring, t, read, hstep, hwriter⟩ := ringStep_writer hring
  have hpass := h.load.pass
  have hissued : issuedBy conf s.tx.threads op = read := by
    unfold issuedBy
    rw [hstep]
  simp only [FitsBuffer, WireOp.issued] at hfits
  rw [hissued] at hload hkept hfits ⊢
  cases hwriter with
  | issued rand lba hpc => exact h.issued hpc rfl (hfits _ rfl) rfl rfl rfl hload hkept
  | published hpc =>
    simp only [PassInv, hpc] at hpass
    rw [Option.toList_none, List.append_nil]
    refine h.frame hload hkept rfl rfl rfl ?_ (.inl hpass) le_rfl
    simp [TxState.issue]
  | idle | left | planned | polled =>
    rw [Option.toList_none, List.append_nil]
    exact h.frame hload hkept rfl rfl rfl rfl (.inr rfl) le_rfl

lemma StreamInv.netmap (h : StreamInv disk s) {op : NetmapOp} {threads : RingState}
    (hring : ringStep conf s.tx.threads (.netmap op) = some threads)
    (hload : LoadInv { s.tx with threads := threads })
    (hkept : KeptInv { s.tx with threads := threads }) :
    StreamInv disk ⟨{ s.tx with threads := threads }, s.reads⟩ := by
  cases ringStep_reader hring with
  | released hpc => exact h.frame hload hkept rfl rfl rfl rfl (.inr rfl) h.load.ring.released_le
  | idle | left | loaded | handed => exact h.frame hload hkept rfl rfl rfl rfl (.inr rfl) le_rfl

lemma streamInv_step (s : WireState α) (op : WireOp) (t : WireState α) (h : StreamInv disk s)
    (hg : KeepsStream conf disk s op) (hs : wireStep conf numSlots disk s op = some t) :
    StreamInv disk t := by
  obtain ⟨hqueue, hahead, hfits⟩ := hg
  have hloaded : LoadedWhenPosted s.tx (op.toTx disk s.tx) := by
    cases op with
    | post => exact h.load.loadedWhenPosted
    | _ => trivial
  simp only [wireStep] at hs
  split at hs
  · cases hs
  · rename_i tx htx
    cases hs
    have hload := loadInv_step _ _ _ h.load hqueue htx
    have hkept := keptInv_step _ _ _ h.kept ⟨hahead, hloaded⟩ htx
    cases op with
    | unvme op =>
      cases txStep_move htx with
      | unvme op threads hpoll hring => exact h.unvme hring hfits hload hkept
    | arrive i =>
      cases txStep_move htx with
      | arrived i n data read hread =>
        simp only [WireOp.issued, Option.toList_none, List.append_nil]
        exact h.arrive hread rfl hload hkept
    | netmap op =>
      cases txStep_move htx with
      | netmap op threads hsync hring =>
        simp only [WireOp.issued, Option.toList_none, List.append_nil]
        exact h.netmap hring hload hkept
    | post =>
      cases txStep_move htx with
      | posted hpc =>
        simp only [WireOp.issued, Option.toList_none, List.append_nil]
        exact h.post rfl hload hkept
    | transmit =>
      cases txStep_move htx with
      | transmitted x rest hqueued =>
        simp only [WireOp.issued, Option.toList_none, List.append_nil]
        exact h.frame hload hkept rfl rfl rfl rfl (.inr rfl) le_rfl

lemma streamInv_init (conf : NvgenConf) (frames : Nat → α) :
    StreamInv disk (wireInit conf frames) where
  load := ⟨ringInv_init conf, le_rfl, le_rfl, by simp [wireInit, txInit], by simp [wireInit, txInit], rfl⟩
  kept := ⟨queueInv_init conf frames, rfl, rfl, rfl, by simp [wireInit, txInit]⟩
  length := rfl
  outstanding := by simp [wireInit, txInit]
  loaded := by simp [wireInit, txInit, ringInit]
  handedOver := List.prefix_rfl

end Steps

/-- In every run that keeps the stream, what the NIC has sent is an initial part of the packets
that the reads have asked for. -/
theorem wire_carries_disk {α : Type} (conf : NvgenConf) (numSlots : Nat) (disk frames : Nat → α)
    {ops : List WireOp}
    (hg : Guarded (wireStep conf numSlots disk) (KeepsStream conf disk) (wireInit conf frames) ops) :
    Throughout (wireStep conf numSlots disk) (fun s => s.tx.sent <+: packetStream disk s.reads)
      (wireInit conf frames) ops := by
  apply throughout_of_guarded _ streamInv_step (streamInv_init conf frames) hg
  intro s h
  rw [h.kept.sent]
  exact (List.take_prefix _ _).trans h.handedOver

instance {α : Type} (conf : NvgenConf) (s : TxState α) (op : WireOp) :
    Decidable (FitsBuffer conf s op) := by
  unfold FitsBuffer
  infer_instance

instance {α : Type} (conf : NvgenConf) (disk : Nat → α) (s : WireState α) (op : WireOp) :
    Decidable (KeepsStream conf disk s op) := by
  unfold KeepsStream
  infer_instance

/-- A read, three packets of it handed over and sent, and the next read meanwhile. -/
def threePackets : List WireOp :=
  [.unvme .avail, .unvme (.aread 0), .arrive 0, .unvme (.apoll 0), .unvme .publish,
    .netmap (.load (some 1023)), .netmap .slot, .netmap .slot, .netmap .slot, .post,
    .netmap .publish, .unvme .avail, .transmit, .unvme (.aread 0), .transmit, .transmit]

theorem wire_carries_three :
    (exec (wireStep threeConf 1024 (· + 7)) (wireInit threeConf fun _ => 0) threePackets).map
        (fun s => (s.tx.sent, s.reads)) = some ([7, 8, 9], [⟨0, 0, 64⟩, ⟨128, 64, 64⟩]) ∧
      Throughout (wireStep threeConf 1024 (· + 7)) (fun s => s.tx.sent <+: packetStream (· + 7) s.reads)
        (wireInit threeConf fun _ => 0) threePackets :=
  ⟨by decide +kernel, wire_carries_disk threeConf 1024 (· + 7) (fun _ => 0) (by decide +kernel)⟩

end Libpop.Proofs
