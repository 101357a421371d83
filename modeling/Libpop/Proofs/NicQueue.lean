import Libpop.Proofs.SlotRing
import Libpop.Transmit

/-!
# The queue of the NIC

The netmap thread releases a slot to the NVMe thread when it has queued it, not when the NIC
has sent it. The slots in the queue of the NIC are always consecutive ones of the ring, so a
read keeps off them exactly when it starts behind the queue and ends before it comes around
to the next slot to be sent.
-/

namespace Libpop.Proofs

/-! ### What the netmap thread has handed over -/

/-- The slots handed to netmap are consecutive, whatever the NVMe thread does. -/
structure HandedInv (s : RingState) : Prop where
  mask : s.ring.mask = 255
  tail : s.ring.tail.toNat = s.released % 256
  handed : s.handed = Circular.slots 256 0 s.handed.length
  reader : match s.netmap.pc with
    | .top | .done => s.handed.length = s.released
    | .slot | .publish => s.netmap.tail.toNat = s.handed.length % 256

/-- The NVMe thread leaves what belongs to the netmap thread. -/
lemma ringStep_unvme_frame {conf : NvgenConf} {s s' : RingState} {op : UnvmeOp}
    (hs : ringStep conf s (.unvme op) = some s') :
    s'.handed = s.handed ∧ s'.released = s.released ∧ s'.netmap = s.netmap ∧
      s'.ring.mask = s.ring.mask ∧
      s'.ring.tail = s.ring.tail := by
  obtain ⟨ring, t, read, -, hmove⟩ := ringStep_writer hs
  cases hmove <;> exact ⟨rfl, rfl, rfl, rfl, rfl⟩

lemma HandedInv.afterSlot {s : RingState} (h : HandedInv s) {t : NetmapThread}
    (htail : t.tail.toNat = s.handed.length % 256) :
    HandedInv { s with netmap := Libpop.afterSlot t } := by
  refine { h with reader := ?_ }
  rcases afterSlot_cases t with ⟨-, he⟩ | ⟨-, he⟩
  · rw [he]
    exact htail
  · rw [he]
    exact htail

lemma handedInv_step {conf : NvgenConf} {s s' : RingState} {op : RingOp} (h : HandedInv s)
    (hs : ringStep conf s op = some s') : HandedInv s' := by
  cases op with
  | unvme op =>
    obtain ⟨hhanded, hreleased, hnetmap, hmask, htail⟩ := ringStep_unvme_frame hs
    constructor
    · rw [hmask]
      exact h.mask
    · rw [htail, hreleased]
      exact h.tail
    · rw [hhanded]
      exact h.handed
    · rw [hnetmap, hhanded, hreleased]
      exact h.reader
  | netmap op =>
    cases ringStep_reader hs with
    | idle txsync hpc => exact h
    | left op hpc =>
      refine { h with reader := ?_ }
      simpa only [hpc] using h.reader
    | loaded space hpc =>
      have htop : s.handed.length = s.released := by
        simpa only [hpc] using h.reader
      exact h.afterSlot (htop ▸ h.tail)
    | handed hpc =>
      have htail : s.netmap.tail.toNat = s.handed.length % 256 := by
        simpa only [hpc] using h.reader
      have hlen : (s.handed ++ [s.netmap.tail.toNat]).length = s.handed.length + 1 := by simp
      have hnext : HandedInv { s with
          handed := s.handed ++ [s.netmap.tail.toNat]
          netmap := ⟨.publish, s.netmap.batch, s.ring.readNext s.netmap.tail, s.netmap.b⟩ } := by
        refine ⟨h.mask, h.tail, ?_, ?_⟩
        · dsimp only
          rw [hlen, Circular.slots_succ, Nat.zero_add, ← htail, ← h.handed]
        · dsimp only
          rw [toNat_readNext h.mask, hlen, htail]
          omega
      exact hnext.afterSlot hnext.reader
    | released hpc =>
      have htail : s.netmap.tail.toNat = s.handed.length % 256 := by
        simpa only [hpc] using h.reader
      exact ⟨h.mask, htail, h.handed, rfl⟩

lemma ringStep_handed_le {conf : NvgenConf} {s s' : RingState} {op : RingOp}
    (hs : ringStep conf s op = some s') : s.handed.length ≤ s'.handed.length := by
  cases op with
  | unvme op => rw [(ringStep_unvme_frame hs).1]
  | netmap op => cases ringStep_reader hs <;> simp

inductive TxMove {α : Type} (conf : NvgenConf) (numSlots : Nat)
    (s : TxState α) : TxOp α → TxState α → Prop
  | unvme (op : UnvmeOp) (threads : RingState) (hpoll : s.PollOk op)
      (hring : ringStep conf s.threads (.unvme op) = some threads) :
      TxMove conf numSlots s (.unvme op) (s.issue threads (issuedBy conf s.threads op))
  | arrived (i n : Nat) (data : Nat → α) (read : Aread) (hread : s.outstanding[i]? = some (n, read)) :
      TxMove conf numSlots s (.arrive i data) { s with
        outstanding := s.outstanding.eraseIdx i
        frames := fun x => if x ∈ read.target then data x else s.frames x }
  | netmap (op : NetmapOp) (threads : RingState) (hsync : s.SyncOk numSlots op)
      (hring : ringStep conf s.threads (.netmap op) = some threads) :
      TxMove conf numSlots s (.netmap op) { s with threads := threads }
  | posted (hpc : s.threads.netmap.pc = .publish) :
      TxMove conf numSlots s .post { s with
        posted := s.threads.handed.length
        handedOver := s.handedOver ++ (s.threads.handed.drop s.posted).map s.frames }
  | transmitted (x : Nat) (rest : List Nat) (hqueued : s.queued = x :: rest) :
      TxMove conf numSlots s .transmit
        { s with transmitted := s.transmitted + 1, sent := s.sent ++ [s.frames x] }

theorem txStep_move {α : Type} {conf : NvgenConf} {numSlots : Nat} {s t : TxState α} {op : TxOp α}
    (hs : txStep conf numSlots s op = some t) : TxMove conf numSlots s op t := by
  cases op with
  | unvme op =>
    simp only [txStep] at hs
    split at hs
    · rename_i hpoll
      split at hs
      · cases hs
      · rename_i threads hring
        cases hs
        exact .unvme op threads hpoll hring
    · cases hs
  | arrive i data =>
    simp only [txStep] at hs
    split at hs
    · cases hs
    · rename_i n read hread
      cases hs
      exact .arrived i n data read hread
  | netmap op =>
    simp only [txStep] at hs
    split at hs
    · rename_i hsync
      split at hs
      · cases hs
      · rename_i threads hring
        cases hs
        exact .netmap op threads hsync hring
    · cases hs
  | post =>
    simp only [txStep] at hs
    split at hs
    · rename_i hpc
      cases hs
      exact .posted hpc
    · cases hs
  | transmit =>
    simp only [txStep] at hs
    split at hs
    · cases hs
    · rename_i x rest hqueued
      cases hs
      exact .transmitted x rest hqueued

/-- The NIC is behind the netmap ring and that behind the netmap thread. -/
structure QueueInv {α : Type} (s : TxState α) : Prop where
  handed : HandedInv s.threads
  transmitted_le : s.transmitted ≤ s.posted
  posted_le : s.posted ≤ s.threads.handed.length

section Queue

variable {α : Type} {s : TxState α}

lemma QueueInv.queued_eq (h : QueueInv s) :
    s.queued = Circular.slots 256 s.transmitted (s.posted - s.transmitted) := by
  have htake : s.threads.handed.take s.posted = Circular.slots 256 0 s.posted := by
    rw [h.handed.handed]
    exact Circular.take_slots h.posted_le
  unfold TxState.queued
  rw [htake, Circular.drop_slots h.transmitted_le, Nat.zero_add]

lemma QueueInv.transmitted_lt (h : QueueInv s) {x : Nat} {rest : List Nat}
    (hqueued : s.queued = x :: rest) : s.transmitted < s.posted := by
  have hlen := congrArg List.length (h.queued_eq.symm.trans hqueued)
  rw [Circular.length_slots, List.length_cons] at hlen
  omega

lemma queueInv_step {conf : NvgenConf} {numSlots : Nat} (s : TxState α) (op : TxOp α)
    (t : TxState α) (h : QueueInv s) (hs : txStep conf numSlots s op = some t) : QueueInv t := by
  cases txStep_move hs with
  | unvme op threads hpoll hring =>
    have hthreads := handedInv_step h.handed hring
    have hle := h.posted_le.trans (ringStep_handed_le hring)
    cases issuedBy conf s.threads op with
    | none => exact ⟨hthreads, h.transmitted_le, hle⟩
    | some read => exact ⟨hthreads, h.transmitted_le, hle⟩
  | arrived i n data read hread => exact ⟨h.handed, h.transmitted_le, h.posted_le⟩
  | netmap op threads hsync hring =>
    exact ⟨handedInv_step h.handed hring, h.transmitted_le,
      h.posted_le.trans (ringStep_handed_le hring)⟩
  | posted hpc => exact ⟨h.handed, h.transmitted_le.trans h.posted_le, le_rfl⟩
  | transmitted x rest hqueued => exact ⟨h.handed, h.transmitted_lt hqueued, h.posted_le⟩

lemma queueInv_init (conf : NvgenConf) (frames : Nat → α) : QueueInv (txInit conf frames) :=
  ⟨⟨rfl, rfl, rfl, rfl⟩, le_rfl, le_rfl⟩

end Queue

/-! ### Reads and the queue -/

/-- How many slots of the packet buffer a read writes. -/
def reach (read : Aread) : Nat :=
  min (2 * read.nblocks.toNat) (slotNum - read.slot.toNat)

/-- How far around the ring a read starts from the next slot that the NIC sends. -/
def lead (transmitted : Nat) (read : Aread) : Nat :=
  (read.slot.toNat + slotNum - transmitted % slotNum) % slotNum

/-- A read keeps off the `queued` slots from the next one to be sent on: there are none, it
writes none, or it starts behind them and ends before it comes around. -/
def Clear (transmitted queued : Nat) (read : Aread) : Prop :=
  queued = 0 ∨ reach read = 0 ∨ queued ≤ lead transmitted read ∧ lead transmitted read + reach read ≤ slotNum

lemma mem_target {read : Aread} {x : Nat} :
    x ∈ read.target ↔ read.slot.toNat ≤ x ∧ x < read.slot.toNat + reach read := by
  unfold Aread.target reach
  simp only [List.mem_filter, List.mem_map, List.mem_range, decide_eq_true_eq]
  constructor
  · rintro ⟨⟨j, hj, rfl⟩, hx⟩
    omega
  · intro hx
    exact ⟨⟨x - read.slot.toNat, by omega, by omega⟩, by omega⟩

/-- The destination of a read lies in the slots that the ring counts for it. -/
lemma mem_slots_of_target {read : Aread} {x : Nat} (hx : x ∈ read.target) :
    x ∈ Circular.slots 256 read.slot.toNat (2 * read.nblocks.toNat) := by
  have hrange := mem_target.mp hx
  unfold reach slotNum at hrange
  refine Circular.mem_slots.mpr ⟨x - read.slot.toNat, by omega, ?_⟩
  omega

lemma clear_iff (transmitted queued : Nat) (read : Aread) :
    (∀ x ∈ read.target, x ∉ Circular.slots 256 transmitted queued) ↔
      Clear transmitted queued read := by
  have hreach : reach read = 0 ∨ read.slot.toNat + reach read ≤ 256 := by
    unfold reach slotNum
    omega
  unfold Clear lead slotNum
  constructor
  · intro h
    by_contra hnot
    by_cases hstart : (read.slot.toNat + 256 - transmitted % 256) % 256 < queued
    · -- the read starts at a queued slot
      apply h read.slot.toNat (mem_target.mpr (by omega))
      exact Circular.mem_slots.mpr ⟨_, hstart, by omega⟩
    · -- it comes around to the next slot to be sent
      apply h (transmitted % 256) (mem_target.mpr (by omega))
      exact Circular.mem_slots.mpr ⟨0, by omega, by omega⟩
  · intro h x hx hmem
    obtain ⟨k, hk, rfl⟩ := Circular.mem_slots.mp hmem
    have hrange := mem_target.mp hx
    omega

/-- Every read is issued clear of the queue of the NIC. -/
def AheadOfNic {α : Type} (conf : NvgenConf) (s : TxState α) : TxOp α → Prop
  | .unvme op =>
    ∀ read ∈ issuedBy conf s.threads op, Clear s.transmitted (s.posted - s.transmitted) read
  | _ => True

/-- A read is clear of the queue exactly when none of its slots is recorded. -/
lemma filter_queued_iff {α : Type} {s : TxState α} (h : QueueInv s) (read : Aread) :
    read.target.filter (· ∈ s.queued) = [] ↔
      Clear s.transmitted (s.posted - s.transmitted) read := by
  rw [← clear_iff, ← h.queued_eq, List.filter_eq_nil_iff]
  simp only [decide_eq_true_eq]

lemma overwritten_step {α : Type} {conf : NvgenConf} {numSlots : Nat} (s : TxState α) (op : TxOp α)
    (t : TxState α) (h : QueueInv s) (hclean : s.overwritten = [])
    (hs : txStep conf numSlots s op = some t) : t.overwritten = [] ↔ AheadOfNic conf s op := by
  cases txStep_move hs with
  | unvme op threads hpoll hring =>
    unfold AheadOfNic
    cases hread : issuedBy conf s.threads op with
    | none => simpa [TxState.issue, hread] using hclean
    | some read =>
      dsimp only [TxState.issue]
      rw [hclean, List.nil_append, filter_queued_iff h]
      simp [hread]
  | arrived | netmap | posted | transmitted => exact iff_of_true hclean trivial

end Libpop.Proofs
