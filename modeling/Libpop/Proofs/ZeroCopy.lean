import Libpop.Proofs.NicQueue

/-!
# Ownership of the frames in nvgen

As long as every read keeps off the queue of the NIC, and no slot is handed over with a read
into it outstanding, every packet is sent as it was handed over. Nothing in nvgen ensures the
first: a slot counts as free for the NVMe thread while it waits in the netmap ring. It holds
when each pass of the NVMe thread starts with room for what the NIC has still to send.
-/

namespace Libpop.Proofs
open Execution

/-! ### The contents of the packets -/

/-- No slot is handed over while a read into it is outstanding. -/
def LoadedWhenPosted {α : Type} (s : TxState α) : TxOp α → Prop
  | .post => ∀ c ∈ s.outstanding, ∀ x ∈ c.2.target, x ∉ s.threads.handed.drop s.posted
  | _ => True

/-- What was sent and what is queued is as it was handed over, and no outstanding read goes
into the queue. -/
structure KeptInv {α : Type} (s : TxState α) : Prop where
  queue : QueueInv s
  length : s.handedOver.length = s.posted
  sent : s.sent = s.handedOver.take s.transmitted
  contents : s.queued.map s.frames = s.handedOver.drop s.transmitted
  outstanding : ∀ c ∈ s.outstanding, ∀ x ∈ c.2.target, x ∉ s.queued

section Contents

variable {α : Type} {s : TxState α}

lemma queued_of_counts {t : TxState α} (h : QueueInv s) (ht : QueueInv t)
    (htransmitted : t.transmitted = s.transmitted)
    (hposted : t.posted = s.posted) : t.queued = s.queued := by
  rw [h.queued_eq, ht.queued_eq, htransmitted, hposted]

lemma KeptInv.issue (h : KeptInv s) {threads : RingState} {read : Option Aread}
    (hqueue : QueueInv (s.issue threads read))
    (hclear : ∀ r ∈ read, Clear s.transmitted (s.posted - s.transmitted) r) :
    KeptInv (s.issue threads read) := by
  cases read with
  | none =>
    have hqueued : (s.issue threads none).queued = s.queued :=
      queued_of_counts h.queue hqueue rfl rfl
    refine ⟨hqueue, h.length, h.sent, ?_, ?_⟩
    · rw [hqueued]
      exact h.contents
    · rw [hqueued]
      exact h.outstanding
  | some read =>
    have hqueued : (s.issue threads (some read)).queued = s.queued :=
      queued_of_counts h.queue hqueue rfl rfl
    refine ⟨hqueue, h.length, h.sent, ?_, ?_⟩
    · rw [hqueued]
      exact h.contents
    · rw [hqueued]
      intro c hc
      rcases List.mem_append.mp hc with hc | hc
      · exact h.outstanding c hc
      · obtain rfl := List.mem_singleton.mp hc
        rw [h.queue.queued_eq]
        exact (clear_iff _ _ _).mpr (hclear read rfl)

/-- The data of an outstanding read arrives outside the queue. -/
lemma KeptInv.arrive (h : KeptInv s) {i n : Nat} {read : Aread}
    (hread : s.outstanding[i]? = some (n, read)) (data : Nat → α) :
    KeptInv { s with
      outstanding := s.outstanding.eraseIdx i
      frames := fun x => if x ∈ read.target then data x else s.frames x } := by
  have hclear := h.outstanding _ (List.mem_of_getElem? hread)
  refine ⟨⟨h.queue.handed, h.queue.transmitted_le, h.queue.posted_le⟩, h.length, h.sent, ?_, ?_⟩
  · refine Eq.trans ?_ h.contents
    apply List.map_congr_left
    intro x hx
    exact if_neg fun hmem => hclear x hmem hx
  · intro c hc
    exact h.outstanding c (List.mem_of_mem_eraseIdx hc)

lemma KeptInv.post (h : KeptInv s) (hload : LoadedWhenPosted s .post) :
    KeptInv { s with
      posted := s.threads.handed.length
      handedOver := s.handedOver ++ (s.threads.handed.drop s.posted).map s.frames } := by
  have hqueue : QueueInv { s with
      posted := s.threads.handed.length
      handedOver := s.handedOver ++ (s.threads.handed.drop s.posted).map s.frames } :=
    ⟨h.queue.handed, h.queue.transmitted_le.trans h.queue.posted_le, le_rfl⟩
  have hlen := h.length
  have hle := h.queue.transmitted_le
  have hposted := h.queue.posted_le
  have hnew : s.threads.handed.drop s.posted =
      Circular.slots 256 s.posted (s.threads.handed.length - s.posted) := by
    have hdrop := congrArg (List.drop s.posted) h.queue.handed.handed
    rwa [Circular.drop_slots hposted, Nat.zero_add] at hdrop
  have hqueued : Circular.slots 256 s.transmitted (s.threads.handed.length - s.transmitted) =
      s.queued ++ s.threads.handed.drop s.posted := by
    rw [h.queue.queued_eq, hnew]
    exact (Circular.slots_split hle hposted).symm
  refine ⟨hqueue, ?_, ?_, ?_, ?_⟩
  · simp only [List.length_append, List.length_map, List.length_drop]
    omega
  · dsimp only
    rw [List.take_append_of_le_length (by omega)]
    exact h.sent
  · rw [hqueue.queued_eq]
    dsimp only
    rw [hqueued, List.map_append, h.contents, List.drop_append_of_le_length (by omega)]
  · intro c hc x hx
    rw [hqueue.queued_eq]
    dsimp only
    rw [hqueued, List.mem_append, not_or]
    exact ⟨h.outstanding c hc x hx, hload c hc x hx⟩

lemma KeptInv.transmit (h : KeptInv s) {x : Nat} {rest : List Nat}
    (hqueued : s.queued = x :: rest) :
    KeptInv { s with transmitted := s.transmitted + 1, sent := s.sent ++ [s.frames x] } := by
  have hcontents := h.contents
  rw [hqueued, List.map_cons] at hcontents
  have hrest :
      TxState.queued { s with transmitted := s.transmitted + 1, sent := s.sent ++ [s.frames x] } = rest := by
    unfold TxState.queued at hqueued ⊢
    dsimp only
    rw [← List.drop_drop, hqueued]
    rfl
  have hhead : s.handedOver[s.transmitted]? = some (s.frames x) := by
    rw [← List.head?_drop, ← hcontents, List.head?_cons]
  refine ⟨⟨h.queue.handed, h.queue.transmitted_lt hqueued, h.queue.posted_le⟩, h.length, ?_, ?_, ?_⟩
  · dsimp only
    rw [List.take_add_one, hhead, h.sent]
    rfl
  · rw [hrest]
    dsimp only
    rw [← List.drop_drop, ← hcontents]
    rfl
  · intro c hc y hy
    rw [hrest]
    intro hmem
    apply h.outstanding c hc y hy
    rw [hqueued]
    exact List.mem_cons_of_mem x hmem

lemma keptInv_step {conf : NvgenConf} {numSlots : Nat} (s : TxState α) (op : TxOp α) (t : TxState α)
    (h : KeptInv s) (hg : AheadOfNic conf s op ∧ LoadedWhenPosted s op)
    (hs : txStep conf numSlots s op = some t) : KeptInv t := by
  have hqueue := queueInv_step s op t h.queue hs
  cases txStep_move hs with
  | unvme op threads hpoll hring => exact h.issue hqueue hg.1
  | arrived i n data read hread => exact h.arrive hread data
  | netmap op threads hsync hring =>
    have hqueued := queued_of_counts h.queue hqueue rfl rfl
    refine ⟨hqueue, h.length, h.sent, ?_, ?_⟩
    · rw [hqueued]
      exact h.contents
    · rw [hqueued]
      exact h.outstanding
  | posted hpc => exact h.post hg.2
  | transmitted x rest hqueued => exact h.transmit hqueued

end Contents

/-! ### Loads before hand-over -/

/-- The ring is kept a queue and every poll succeeds. -/
def KeepsQueue {α : Type} (conf : NvgenConf) (s : TxState α) : TxOp α → Prop
  | .unvme (.apoll ret) => ret = 0
  | .unvme op => KeepsFifo conf s.threads (.unvme op)
  | .netmap op => KeepsFifo conf s.threads (.netmap op)
  | _ => True

instance {α : Type} (conf : NvgenConf) (s : TxState α) (op : TxOp α) :
    Decidable (KeepsQueue conf s op) := by
  unfold KeepsQueue
  split <;> infer_instance

instance {α : Type} (conf : NvgenConf) (s : TxState α) (op : TxOp α) :
    Decidable (AheadOfNic conf s op) := by
  unfold AheadOfNic Clear
  split <;> infer_instance

lemma KeepsQueue.unvme {α : Type} {conf : NvgenConf} {s : TxState α} {op : UnvmeOp}
    (h : KeepsQueue conf s (.unvme op)) : KeepsFifo conf s.threads (.unvme op) := by
  cases op with
  | apoll ret => trivial
  | _ => exact h

/-- Only commands of the current pass that were not polled yet are outstanding. -/
def PassInv (commands : Nat) (outstanding : List (Nat × Aread)) (t : UnvmeThread) : Prop :=
  match t.pc with
  | .issue => ∀ c ∈ outstanding, commands ≤ c.1 + t.b.toNat
  | .poll =>
    t.b.toNat < t.batch.toNat ∧ ∀ c ∈ outstanding, commands + t.b.toNat ≤ c.1 + t.batch.toNat
  | _ => outstanding = []

section Pass

variable {commands : Nat} {outstanding : List (Nat × Aread)}

lemma outstanding_nil (hnumber : ∀ c ∈ outstanding, c.1 < commands)
    (h : ∀ c ∈ outstanding, commands ≤ c.1) : outstanding = [] := by
  apply List.eq_nil_iff_forall_not_mem.mpr
  intro c hc
  exact absurd (hnumber c hc) (not_lt.mpr (h c hc))

lemma PassInv.subset {t : UnvmeThread} {fewer : List (Nat × Aread)}
    (h : PassInv commands outstanding t) (hsub : fewer ⊆ outstanding) :
    PassInv commands fewer t := by
  unfold PassInv at h ⊢
  cases hpc : t.pc with
  | issue =>
    simp only [hpc] at h ⊢
    exact fun c hc => h c (hsub hc)
  | poll =>
    simp only [hpc] at h ⊢
    exact ⟨h.1, fun c hc => h.2 c (hsub hc)⟩
  | top | publish | done =>
    simp only [hpc] at h ⊢
    exact List.subset_nil.mp (h ▸ hsub)

lemma PassInv.afterIssue {t : UnvmeThread} (hnumber : ∀ c ∈ outstanding, c.1 < commands)
    (hb : t.b.toNat ≤ t.batch.toNat) (h : ∀ c ∈ outstanding, commands ≤ c.1 + t.b.toNat) :
    PassInv commands outstanding (Libpop.afterIssue t) := by
  rcases afterIssue_cases t with ⟨-, he⟩ | ⟨hlast, ⟨hpos, he⟩ | ⟨hzero, he⟩⟩
  · rw [he]
    exact h
  · rw [he]
    refine ⟨hpos, fun c hc => ?_⟩
    have hall := h c hc
    rw [BitVec.lt_def] at hlast
    change commands + 0 ≤ c.1 + t.batch.toNat
    omega
  · rw [he]
    apply outstanding_nil hnumber
    intro c hc
    have hall := h c hc
    have hbatch : t.batch.toNat = 0 := congrArg BitVec.toNat hzero
    omega

lemma number_issued (hnumber : ∀ c ∈ outstanding, c.1 < commands) (read : Aread) :
    ∀ c ∈ outstanding ++ [(commands, read)], c.1 < commands + 1 := by
  intro c hc
  rcases List.mem_append.mp hc with hc | hc
  · exact (hnumber c hc).trans (Nat.lt_succ_self _)
  · obtain rfl := List.mem_singleton.mp hc
    exact Nat.lt_succ_self _

lemma PassInv.issued {t : UnvmeThread} (hpc : t.pc = .issue) (hb : t.b.toNat < t.batch.toNat)
    (hnumber : ∀ c ∈ outstanding, c.1 < commands) (h : PassInv commands outstanding t)
    (read : Aread) (ring : NvgenRing) (lba : BitVec 32) :
    PassInv (commands + 1) (outstanding ++ [(commands, read)])
      (Libpop.afterIssue (Proofs.issued ring t lba)) := by
  have hnext : (t.b + 1).toNat = t.b.toNat + 1 := Word.toNat_add_one_of_lt hb
  apply PassInv.afterIssue (number_issued hnumber read)
  · dsimp only [Proofs.issued]
    omega
  · simp only [PassInv, hpc] at h
    dsimp only [Proofs.issued]
    intro c hc
    rcases List.mem_append.mp hc with hc | hc
    · have hle := h c hc
      omega
    · obtain rfl := List.mem_singleton.mp hc
      dsimp only
      omega

/-- The command that was polled is no longer outstanding. -/
lemma PassInv.afterPoll {t : UnvmeThread} (hpc : t.pc = .poll)
    (hnumber : ∀ c ∈ outstanding, c.1 < commands) (h : PassInv commands outstanding t)
    (hpolled : ∀ c ∈ outstanding, c.1 + t.batch.toNat ≠ commands + t.b.toNat) (nbytes : BitVec 64) :
    PassInv commands outstanding (Libpop.afterPoll { t with nbytes := nbytes, b := t.b + 1 }) := by
  simp only [PassInv, hpc] at h
  obtain ⟨hb, hrest⟩ := h
  have hnext : (t.b + 1).toNat = t.b.toNat + 1 := Word.toNat_add_one_of_lt hb
  have hmore : ∀ c ∈ outstanding, commands + (t.b.toNat + 1) ≤ c.1 + t.batch.toNat := by
    intro c hc
    have hle := hrest c hc
    have hne := hpolled c hc
    omega
  rcases afterPoll_cases { t with nbytes := nbytes, b := t.b + 1 } with ⟨hlt, he⟩ | ⟨hlast, he⟩
  · rw [he]
    refine ⟨hlt, ?_⟩
    dsimp only
    rw [hnext]
    exact hmore
  · rw [he]
    rw [BitVec.lt_def] at hlast
    dsimp only at hlast
    apply outstanding_nil hnumber
    intro c hc
    have hle := hmore c hc
    omega

end Pass

/-- What is outstanding was filled in this pass. -/
structure LoadInv {α : Type} (s : TxState α) : Prop where
  ring : RingInv s.threads
  released_le : s.threads.released ≤ s.posted
  posted_le : s.posted ≤ s.threads.handed.length
  number : ∀ c ∈ s.outstanding, c.1 < s.commands
  filled : ∀ c ∈ s.outstanding, ∀ x ∈ c.2.target, x ∈ s.threads.filled
  pass : PassInv s.commands s.outstanding s.threads.unvme

lemma LoadInv.loadedWhenPosted {α : Type} {s : TxState α} (h : LoadInv s) :
    LoadedWhenPosted s .post := by
  intro c hc x hx
  have hfilled := h.filled c hc x hx
  have hhanded := h.ring.handed_le
  have hposted := h.posted_le
  have hreleased := h.released_le
  have hwin := h.ring.filled_window
  have hnew := congrArg (List.drop s.posted) h.ring.handed
  rw [Circular.drop_slots hposted, Nat.zero_add] at hnew
  rw [hnew]
  rw [h.ring.filled] at hfilled
  exact Circular.notMem_slots (by omega) (by omega) hfilled

section Load

variable {α : Type} {conf : NvgenConf} {s : TxState α}

lemma LoadInv.unvme (h : LoadInv s) {op : UnvmeOp} {threads : RingState} (hpoll : s.PollOk op)
    (hg : KeepsQueue conf s (.unvme op))
    (hring : ringStep conf s.threads (.unvme op) = some threads) :
    LoadInv (s.issue threads (issuedBy conf s.threads op)) := by
  have hthreads := ringInv_step _ _ _ h.ring hg.unvme hring
  obtain ⟨hhanded, hreleased, -, -, -⟩ := ringStep_unvme_frame hring
  have hrel : threads.released ≤ s.posted := hreleased ▸ h.released_le
  have hpos : s.posted ≤ threads.handed.length := hhanded ▸ h.posted_le
  have hpass := h.pass
  obtain ⟨ring, t, read, hstep, hmove⟩ := ringStep_writer hring
  have hissued : issuedBy conf s.threads op = read := by
    unfold issuedBy
    rw [hstep]
  rw [hissued]
  cases hmove with
  | idle hpc => exact h
  | left op hpc =>
    simp only [PassInv, hpc] at hpass
    exact ⟨hthreads, hrel, hpos, h.number, h.filled, hpass⟩
  | planned batch nblocks hpc hplan =>
    simp only [PassInv, hpc] at hpass
    refine ⟨hthreads, hrel, hpos, h.number, h.filled,
      PassInv.afterIssue h.number (Nat.zero_le _) ?_⟩
    dsimp only [TxState.issue]
    rw [hpass]
    simp
  | issued rand lba hpc =>
    obtain ⟨-, -, -, hb⟩ := h.ring.issue hpc
    refine ⟨hthreads, hrel, hpos, number_issued h.number _, ?_, hpass.issued hpc hb h.number _ _ _⟩
    intro c hc x hx
    rcases List.mem_append.mp hc with hc | hc
    · exact List.mem_append_left _ (h.filled c hc x hx)
    · obtain rfl := List.mem_singleton.mp hc
      apply List.mem_append_right
      rw [read_slots_eq h.ring.mask]
      exact mem_slots_of_target hx
  | polled ret nbytes hpc =>
    exact ⟨hthreads, hrel, hpos, h.number, h.filled, hpass.afterPoll hpc h.number (hpoll hg) nbytes⟩
  | published hpc =>
    simp only [PassInv, hpc] at hpass
    refine ⟨hthreads, hrel, hpos, h.number, ?_, hpass⟩
    dsimp only [TxState.issue]
    rw [hpass]
    simp

lemma ringStep_netmap_frame {s s' : RingState} {op : NetmapOp}
    (hs : ringStep conf s (.netmap op) = some s') :
    s'.unvme = s.unvme ∧ s'.filled = s.filled ∧ s'.published = s.published ∧
      (s'.released = s.released ∨ op = .publish ∧ s'.released = s.handed.length) := by
  cases ringStep_reader hs with
  | released hpc => exact ⟨rfl, rfl, rfl, .inr ⟨rfl, rfl⟩⟩
  | idle | left | loaded | handed => exact ⟨rfl, rfl, rfl, .inl rfl⟩

lemma LoadInv.netmap {numSlots : Nat} (h : LoadInv s) {op : NetmapOp} {threads : RingState}
    (hsync : s.SyncOk numSlots op) (hg : KeepsFifo conf s.threads (.netmap op))
    (hring : ringStep conf s.threads (.netmap op) = some threads) :
    LoadInv { s with threads := threads } := by
  obtain ⟨hunvme, hfilled, -, hreleased⟩ := ringStep_netmap_frame hring
  refine ⟨ringInv_step _ _ _ h.ring hg hring, ?_, h.posted_le.trans (ringStep_handed_le hring),
    h.number, ?_, ?_⟩
  · rcases hreleased with hsame | ⟨rfl, hnow⟩
    · exact hsame ▸ h.released_le
    · -- the head of the netmap ring was moved first
      have hposted : s.posted = s.threads.handed.length := hsync
      dsimp only
      rw [hnow, hposted]
  · dsimp only
    rw [hfilled]
    exact h.filled
  · dsimp only
    rw [hunvme]
    exact h.pass

lemma loadInv_step {numSlots : Nat} (s : TxState α) (op : TxOp α) (t : TxState α) (h : LoadInv s)
    (hg : KeepsQueue conf s op) (hs : txStep conf numSlots s op = some t) : LoadInv t := by
  cases txStep_move hs with
  | unvme op threads hpoll hring => exact h.unvme hpoll hg hring
  | arrived i n data read hread =>
    have hsub : s.outstanding.eraseIdx i ⊆ s.outstanding := List.eraseIdx_subset
    exact ⟨h.ring, h.released_le, h.posted_le, fun c hc => h.number c (hsub hc),
      fun c hc => h.filled c (hsub hc), h.pass.subset hsub⟩
  | netmap op threads hsync hring => exact h.netmap hsync hg hring
  | posted hpc => exact ⟨h.ring, h.ring.released_le, le_rfl, h.number, h.filled, h.pass⟩
  | transmitted x rest hqueued =>
    exact ⟨h.ring, h.released_le, h.posted_le, h.number, h.filled, h.pass⟩

end Load

/-- While the ring is kept a queue and every poll succeeds, the reads into a slot have arrived
when it is handed over. -/
theorem loadedWhenPosted_of_queue {α : Type} {conf : NvgenConf} {numSlots : Nat} {frames : Nat → α}
    {ops : List (TxOp α)}
    (hg : Guarded (txStep conf numSlots) (KeepsQueue conf) (txInit conf frames) ops) :
    Guarded (txStep conf numSlots) LoadedWhenPosted (txInit conf frames) ops := by
  have hinit : LoadInv (txInit conf frames) :=
    ⟨ringInv_init conf, le_rfl, le_rfl, by simp [txInit], by simp [txInit], rfl⟩
  apply Guarded.mono _ loadInv_step hinit hg
  intro s op h _
  cases op with
  | post => exact h.loadedWhenPosted
  | _ => trivial

/-! ### Passes that keep off the queue -/

/-- How many slots a pass of the NVMe thread fills that starts now. -/
def passSlots (conf : NvgenConf) (ring : NvgenRing) : Nat :=
  2 * min conf.nvbatch.toNat (ring.writeAvail.toNat / 2)

/-- The slots published and not released, those released and not sent, and those of the pass that
starts now are together no more than the ring has. -/
def FitsRing {α : Type} (conf : NvgenConf) (s : TxState α) : Prop :=
  passSlots conf s.threads.ring = 0 ∨
    usedSlots s.threads.ring + (s.threads.released - s.transmitted) + passSlots conf s.threads.ring ≤ slotNum

/-- Each pass of the NVMe thread starts with a gap and fits behind the queue of the NIC, each pass of
the netmap thread keeps to the published slots. -/
def KeepsOffQueue {α : Type} (conf : NvgenConf) (s : TxState α) : TxOp α → Prop
  | .unvme .avail => LeavesGap conf s.threads.ring ∧ FitsRing conf s
  | .netmap (.load (some space)) => TakesPublished conf s.threads.ring space
  | _ => True

instance {α : Type} (conf : NvgenConf) (s : TxState α) (op : TxOp α) :
    Decidable (KeepsOffQueue conf s op) := by
  unfold KeepsOffQueue FitsRing LeavesGap TakesPublished
  split <;> infer_instance

/-- A pass that is under way ends before it comes around to the next slot that the NIC sends. -/
structure OwnedInv {α : Type} (s : TxState α) : Prop where
  queue : QueueInv s
  ring : RingInv s.threads
  ahead : s.threads.unvme.pc = .issue → 0 < s.threads.unvme.nblocks.toNat →
    s.threads.published.length + 2 * (s.threads.unvme.nblocks.toNat * s.threads.unvme.batch.toNat) ≤
      s.transmitted + 256

section Owned

variable {α : Type} {conf : NvgenConf} {s : TxState α}

lemma KeepsOffQueue.unvme {op : UnvmeOp} (h : KeepsOffQueue conf s (.unvme op)) :
    KeepsFifo conf s.threads (.unvme op) := by
  cases op with
  | avail => exact h.1
  | _ => trivial

lemma KeepsOffQueue.netmap {op : NetmapOp} (h : KeepsOffQueue conf s (.netmap op)) :
    KeepsFifo conf s.threads (.netmap op) := by
  cases op with
  | load txsync =>
    cases txsync with
    | none => trivial
    | some space => exact h
  | _ => trivial

/-- The pass that is planned in this state. -/
lemma OwnedInv.planned (h : OwnedInv s) (hfits : FitsRing conf s) {batch nblocks : BitVec 32}
    (hplan : passPlan conf s.threads.ring.writeAvail = some (batch, nblocks))
    (hpos : 0 < nblocks.toNat * batch.toNat) :
    s.threads.published.length + 2 * (nblocks.toNat * batch.toNat) ≤ s.transmitted + 256 := by
  obtain ⟨hspace, hnv, -⟩ := passPlan_some hplan
  have hused := h.ring.usedSlots_eq
  have hle := h.ring.released_le.trans h.ring.handed_le
  have hsize : 2 * (nblocks.toNat * batch.toNat) ≤ passSlots conf s.threads.ring := by
    unfold passSlots
    omega
  unfold FitsRing slotNum at hfits
  omega

/-- A read of the pass keeps off the queue. -/
lemma OwnedInv.clear (h : OwnedInv s) (hpc : s.threads.unvme.pc = .issue) :
    Clear s.transmitted (s.posted - s.transmitted)
      ⟨s.threads.unvme.head, s.threads.unvme.lba, s.threads.unvme.nblocks⟩ := by
  rcases Nat.eq_zero_or_pos s.threads.unvme.nblocks.toNat with hnone | hpos
  · exact .inr (.inl (by simp [reach, hnone]))
  obtain ⟨hhead, -, hf, hb⟩ := h.ring.issue hpc
  have hahead := h.ahead hpc hpos
  have htransmitted := h.queue.transmitted_le
  have hposted := h.queue.posted_le
  have hhanded := h.ring.handed_le
  have hnext : s.threads.unvme.nblocks.toNat * (s.threads.unvme.b.toNat + 1) ≤
      s.threads.unvme.nblocks.toNat * s.threads.unvme.batch.toNat := Nat.mul_le_mul_left _ hb
  rw [Nat.mul_add, Nat.mul_one] at hnext
  rw [← clear_iff]
  intro x hx
  have hslots := mem_slots_of_target hx
  dsimp only at hslots
  rw [hhead, Circular.slots_mod] at hslots
  exact Circular.notMem_slots (by omega) (by omega) hslots

lemma OwnedInv.aheadOfNic (h : OwnedInv s) (op : TxOp α) : AheadOfNic conf s op := by
  cases op with
  | unvme op =>
    intro read hread
    unfold issuedBy at hread
    split at hread
    · cases hread
    · rename_i ring t issued hstep
      cases unvmeStep_move hstep with
      | issued rand lba hpc =>
        obtain rfl := Option.some.inj hread
        exact h.clear hpc
      | idle | left | planned | polled | published => cases hread
  | arrive | netmap | post | transmit => trivial

/-- The pass of the NVMe thread goes on as far ahead as it was planned. -/
lemma OwnedInv.unvme_ahead (h : OwnedInv s) {op : UnvmeOp} {threads : RingState}
    (hg : KeepsOffQueue conf s (.unvme op))
    (hring : ringStep conf s.threads (.unvme op) = some threads) (hpc' : threads.unvme.pc = .issue)
    (hpos : 0 < threads.unvme.nblocks.toNat) :
    threads.published.length + 2 * (threads.unvme.nblocks.toNat * threads.unvme.batch.toNat) ≤
      s.transmitted + 256 := by
  obtain ⟨ring, t, read, -, hmove⟩ := ringStep_writer hring
  cases hmove with
  | idle hpc => exact h.ahead hpc' hpos
  | left op hpc => cases hpc'
  | planned batch nblocks hpc hplan =>
    rcases afterIssue_cases (passStart s.threads.ring s.threads.unvme batch nblocks) with
      ⟨hlt, he⟩ | ⟨-, ⟨-, he⟩ | ⟨-, he⟩⟩
    · rw [he] at hpos ⊢
      exact h.planned hg.2 hplan (Nat.mul_pos hpos (Nat.zero_lt_of_lt hlt))
    · rw [he] at hpc'
      cases hpc'
    · rw [he] at hpc'
      cases hpc'
  | issued rand lba hpc =>
    rcases afterIssue_cases (issued s.threads.ring s.threads.unvme lba) with ⟨-, he⟩ | ⟨-, ⟨-, he⟩ | ⟨-, he⟩⟩
    · rw [he] at hpos ⊢
      exact h.ahead hpc hpos
    · rw [he] at hpc'
      cases hpc'
    · rw [he] at hpc'
      cases hpc'
  | polled ret nbytes hpc =>
    rcases afterPoll_cases { s.threads.unvme with nbytes := nbytes, b := s.threads.unvme.b + 1 } with
      ⟨-, he⟩ | ⟨-, he⟩
    · rw [he] at hpc'
      cases hpc'
    · rw [he] at hpc'
      cases hpc'
  | published hpc => cases hpc'

lemma ownedInv_step {numSlots : Nat} (s : TxState α) (op : TxOp α) (t : TxState α) (h : OwnedInv s)
    (hg : KeepsOffQueue conf s op) (hs : txStep conf numSlots s op = some t) : OwnedInv t := by
  have hqueue := queueInv_step s op t h.queue hs
  cases txStep_move hs with
  | unvme op threads hpoll hring =>
    have hthreads := ringInv_step _ _ _ h.ring hg.unvme hring
    have hahead := h.unvme_ahead hg hring
    cases hread : issuedBy conf s.threads op with
    | none =>
      rw [hread] at hqueue
      exact ⟨hqueue, hthreads, hahead⟩
    | some read =>
      rw [hread] at hqueue
      exact ⟨hqueue, hthreads, hahead⟩
  | arrived i n data read hread => exact ⟨hqueue, h.ring, h.ahead⟩
  | netmap op threads hsync hring =>
    obtain ⟨hunvme, -, hpublished, -⟩ := ringStep_netmap_frame hring
    refine ⟨hqueue, ringInv_step _ _ _ h.ring hg.netmap hring, ?_⟩
    dsimp only
    rw [hunvme, hpublished]
    exact h.ahead
  | posted hpc => exact ⟨hqueue, h.ring, h.ahead⟩
  | transmitted x rest hqueued =>
    refine ⟨hqueue, h.ring, fun hpc hpos => ?_⟩
    have hahead := h.ahead hpc hpos
    dsimp only
    omega

lemma ownedInv_init (conf : NvgenConf) (frames : Nat → α) : OwnedInv (txInit conf frames) :=
  ⟨queueInv_init conf frames, ringInv_init conf, fun hpc => nomatch hpc⟩

end Owned

/-! ### Runs -/

/-- A poll finds its command completed. -/
def PollSucceeds {α : Type} : TxOp α → Prop
  | .unvme (.apoll ret) => ret = 0
  | _ => True

lemma KeepsOffQueue.keepsQueue {α : Type} {conf : NvgenConf} {s : TxState α} {op : TxOp α}
    (h : KeepsOffQueue conf s op) (hpolled : PollSucceeds op) : KeepsQueue conf s op := by
  cases op with
  | unvme op =>
    cases op with
    | apoll ret => exact hpolled
    | avail | aread | publish | leave => exact h.unvme
  | netmap op => exact h.netmap
  | arrive | post | transmit => trivial

/-- While each pass of the NVMe thread starts with room in the ring for itself and for what the NIC has
still to send, no read goes into a slot that is handed over and not sent. If every poll succeeds
as well, every packet is sent with the content it had when it was handed over. -/
theorem frames_owned {α : Type} (conf : NvgenConf) (numSlots : Nat) (frames : Nat → α)
    {ops : List (TxOp α)}
    (hg : Guarded (txStep conf numSlots) (KeepsOffQueue conf) (txInit conf frames) ops) :
    Throughout (txStep conf numSlots) (fun s => s.overwritten = []) (txInit conf frames) ops ∧
    ((∀ op ∈ ops, PollSucceeds op) →
      Throughout (txStep conf numSlots) (fun s => s.sent <+: s.handedOver) (txInit conf frames) ops) := by
  have hahead : Guarded (txStep conf numSlots) (AheadOfNic conf) (txInit conf frames) ops :=
    hg.mono (fun _ op h _ => h.aheadOfNic op) ownedInv_step (ownedInv_init conf frames)
  constructor
  · exact (throughout_iff_guarded queueInv_step overwritten_step (queueInv_init conf frames) rfl).mpr hahead
  · intro hpolled
    have hqueue : Guarded (txStep conf numSlots) (KeepsQueue conf) (txInit conf frames) ops :=
      (hg.and (guarded_of_forall_mem hpolled _)).mono (fun _ _ h hk => hk.1.keepsQueue hk.2)
        (fun s op t h hk hs => ownedInv_step s op t h hk.1 hs) (ownedInv_init conf frames)
    have hinit : KeptInv (txInit conf frames) :=
      ⟨queueInv_init conf frames, rfl, rfl, rfl, by simp [txInit]⟩
    apply throughout_of_guarded _ keptInv_step hinit (hahead.and (loadedWhenPosted_of_queue hqueue))
    intro s h
    rw [h.sent]
    exact List.take_prefix _ _

/-- Options `-b 3 -B 64 -w seq`. -/
def threeConf : NvgenConf :=
  ⟨3, 64, .seq, 0, 0xf0000⟩

/-- A pass of the NVMe thread whose data arrives before the poll. -/
def filledWith (data : Nat → Nat) : List (TxOp Nat) :=
  [.unvme .avail, .unvme (.aread 0), .arrive 0 data, .unvme (.apoll 0), .unvme .publish]

/-- A pass of the netmap thread with the ring of the NIC empty. -/
def handsThree : List (TxOp Nat) :=
  [.netmap (.load (some 1023)), .netmap .slot, .netmap .slot, .netmap .slot, .post, .netmap .publish]

/-- Three packets are handed over and sent while the next pass of the NVMe thread is under way. -/
theorem frames_owned_three :
    Throughout (txStep threeConf 1024) (fun s => s.overwritten = []) (txInit threeConf fun _ => 0)
      (filledWith (· + 1) ++ handsThree ++
        [.unvme .avail, .transmit, .unvme (.aread 0), .transmit, .transmit]) ∧
    Throughout (txStep threeConf 1024) (fun s => s.sent <+: s.handedOver) (txInit threeConf fun _ => 0)
      (filledWith (· + 1) ++ handsThree ++
        [.unvme .avail, .transmit, .unvme (.aread 0), .transmit, .transmit]) := by
  have hg : Guarded (txStep threeConf 1024) (KeepsOffQueue threeConf) (txInit threeConf fun _ => 0)
      (filledWith (· + 1) ++ handsThree ++
        [.unvme .avail, .transmit, .unvme (.aread 0), .transmit, .transmit]) := by
    decide +kernel
  obtain ⟨howned, hsent⟩ := frames_owned threeConf 1024 (fun _ => 0) hg
  exact ⟨howned, hsent (by simp [filledWith, handsThree, PollSucceeds])⟩

/-- The NIC does not send the first three packets until the NVMe thread comes around to them. -/
def lateNic : List (TxOp Nat) :=
  filledWith (fun _ => 1) ++ handsThree ++ filledWith (fun _ => 2) ++
    [.unvme .avail, .unvme (.aread 0), .arrive 0 fun _ => 3, .transmit]

/-- Slots 0 and 1 are read into while they are queued, and packet 0 is sent with the new data,
although the ring is kept a queue and every poll succeeds. -/
theorem late_nic_sends_overwritten :
    Guarded (txStep threeConf 1024) (KeepsQueue threeConf) (txInit threeConf fun _ => 0) lateNic ∧
    (exec (txStep threeConf 1024) (txInit threeConf fun _ => 0) lateNic).map
      (fun s => (s.overwritten, s.handedOver, s.sent)) = some ([0, 1], [1, 1, 1], [3]) ∧
    ¬Throughout (txStep threeConf 1024) (fun s => s.overwritten = []) (txInit threeConf fun _ => 0) lateNic ∧
    ¬Throughout (txStep threeConf 1024) (fun s => s.sent <+: s.handedOver)
      (txInit threeConf fun _ => 0) lateNic := by
  have hrun : (exec (txStep threeConf 1024) (txInit threeConf fun _ => 0) lateNic).map
      (fun s => (s.overwritten, s.handedOver, s.sent)) = some ([0, 1], [1, 1, 1], [3]) := by
    decide +kernel
  refine ⟨by decide +kernel, hrun, not_throughout_of_map hrun ?_, not_throughout_of_map hrun ?_⟩
  · intro s hs hclean
    rw [hclean] at hs
    cases hs
  · intro s hs hprefix
    obtain ⟨-, hrest⟩ := Prod.mk.inj hs
    obtain ⟨hhanded, hsent⟩ := Prod.mk.inj hrest
    rw [hhanded, hsent] at hprefix
    exact absurd hprefix (by decide)

end Libpop.Proofs
