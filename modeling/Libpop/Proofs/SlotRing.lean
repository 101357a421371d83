import Libpop.Circular
import Libpop.Proofs.NvmeReads

/-!
# The slot ring as a queue

Entry `k` that the NVMe thread publishes lives in slot `k % 256`, and equal indices have to
mean an empty ring. The ring is a queue along every run in which no pass of the NVMe thread
is sized to use up all free slots and no pass of the netmap thread takes more than there is
behind a wrapped index.
-/

namespace Libpop.Proofs
open Execution

/-- What was handed to netmap is an initial part of what was published, and no slot was filled
between its publication and its release. -/
def Fifo (s : RingState) : Prop :=
  s.handed <+: s.published ∧ s.clobbered = []

/-- A pass of the NVMe thread cannot close the ring: the reader is behind the writer, the
number of free slots is odd, or the pass is too short for them. -/
def LeavesGap (conf : NvgenConf) (ring : NvgenRing) : Prop :=
  ring.tail < ring.head ∨ freeSlots ring % 2 = 1 ∨ 2 * conf.nvbatch.toNat < freeSlots ring

/-- A pass of the netmap thread keeps to the published slots: the writer is not behind the
reader, or the pass is short enough. -/
def TakesPublished (conf : NvgenConf) (ring : NvgenRing) (space : BitVec 32) : Prop :=
  ring.tail ≤ ring.head ∨ min conf.batch.toNat (space.toNat - space.toNat % 2) ≤ usedSlots ring

def KeepsFifo (conf : NvgenConf) (s : RingState) : RingOp → Prop
  | .unvme .avail => LeavesGap conf s.ring
  | .netmap (.load (some space)) => TakesPublished conf s.ring space
  | _ => True

/-! ### Steps of the netmap thread -/

lemma toNat_readNext {r : NvgenRing} (hm : r.mask = 255) (tail : BitVec 32) :
    (r.readNext tail).toNat = (tail.toNat + 1) % 256 :=
  toNat_writeNextBatch hm tail 1

/-- With the writer's index at or above the reader's the unsigned difference is exact. -/
lemma toNat_readAvail {r : NvgenRing} (hh : r.head.toNat < 256) (h : r.tail ≤ r.head) :
    r.readAvail.toNat = usedSlots r := by
  have hle : r.tail.toNat ≤ r.head.toNat := h
  have hpos : ¬r.head - r.tail < 0 := Nat.not_lt_zero _
  unfold NvgenRing.readAvail usedSlots
  rw [if_neg hpos, BitVec.toNat_sub_of_le h]
  omega

lemma netmapBatch_le (conf : NvgenConf) (space loaded : BitVec 32) :
    (netmapBatch conf space loaded).toNat ≤ loaded.toNat ∧
      (netmapBatch conf space loaded).toNat ≤
        min conf.batch.toNat (space.toNat - space.toNat % 2) := by
  have heven := Word.toNat_and_not_one space
  unfold netmapBatch
  dsimp only
  split <;> split <;> rename_i h1 h2 <;> rw [gt_iff_lt, BitVec.lt_def] at h1 h2 <;> omega

lemma netmapBatch_le_used {conf : NvgenConf} {ring : NvgenRing} {space : BitVec 32}
    (hh : ring.head.toNat < 256) (hg : TakesPublished conf ring space) :
    (netmapBatch conf space ring.readAvail).toNat ≤ usedSlots ring := by
  obtain ⟨hloaded, hmin⟩ := netmapBatch_le conf space ring.readAvail
  rcases hg with hle | hshort
  · exact toNat_readAvail hh hle ▸ hloaded
  · exact hmin.trans hshort

inductive NetmapMove (conf : NvgenConf) (ring : NvgenRing) (t : NetmapThread) :
    NetmapOp → NvgenRing × NetmapThread × Option (BitVec 32) → Prop
  | idle (txsync : Option (BitVec 32)) (hpc : t.pc = .top) :
      NetmapMove conf ring t (.load txsync) (ring, t, none)
  | left (op : NetmapOp) (hpc : t.pc = .top) (hop : op ≠ .publish) :
      NetmapMove conf ring t op (ring, { t with pc := .done }, none)
  | loaded (space : BitVec 32) (hpc : t.pc = .top) :
      NetmapMove conf ring t (.load (some space))
        (ring, afterSlot { t with batch := netmapBatch conf space ring.readAvail, tail := ring.tail, b := 0 },
          none)
  | handed (hpc : t.pc = .slot) :
      NetmapMove conf ring t .slot
        (ring, afterSlot { t with tail := ring.readNext t.tail, b := t.b + 1 }, some t.tail)
  | released (hpc : t.pc = .publish) :
      NetmapMove conf ring t .publish ({ ring with tail := t.tail }, { t with pc := .top }, none)

theorem netmapStep_move {conf : NvgenConf} {ring : NvgenRing} {t : NetmapThread} {op : NetmapOp}
    {res : NvgenRing × NetmapThread × Option (BitVec 32)}
    (h : netmapStep conf ring t op = some res) : NetmapMove conf ring t op res := by
  unfold netmapStep at h
  split at h
  · rename_i hpc
    split at h
    · cases h
      exact .idle _ hpc
    · split at h
      · cases h
        exact .left _ hpc (by simp)
      · split at h
        · cases h
          exact .idle _ hpc
        · cases h
          exact .loaded _ hpc
  · rename_i hpc
    cases h
    exact .handed hpc
  · rename_i hpc
    cases h
    exact .released hpc
  · rename_i hpc
    cases h
    exact .left _ hpc (by simp)
  · cases h

lemma afterSlot_cases (t : NetmapThread) :
    (t.b < t.batch ∧ afterSlot t = { t with pc := .slot }) ∨
      ¬t.b < t.batch ∧ afterSlot t = { t with pc := .publish } := by
  unfold afterSlot
  by_cases hb : t.b < t.batch
  · rw [if_pos hb]
    exact .inl ⟨hb, rfl⟩
  · rw [if_neg hb]
    exact .inr ⟨hb, rfl⟩

/-! ### Steps of both threads -/

/-- The steps of the NVMe thread, with the read it issues. -/
inductive WriterMove (conf : NvgenConf) (s : RingState) : UnvmeOp → Option Aread → RingState → Prop
  | idle (hpc : s.unvme.pc = .top) : WriterMove conf s .avail none s
  | left (op : UnvmeOp) (hpc : s.unvme.pc = .top) :
      WriterMove conf s op none { s with unvme := { s.unvme with pc := .done } }
  | planned (batch nblocks : BitVec 32) (hpc : s.unvme.pc = .top)
      (hplan : passPlan conf s.ring.writeAvail = some (batch, nblocks)) :
      WriterMove conf s .avail none { s with unvme := afterIssue (passStart s.ring s.unvme batch nblocks) }
  | issued (rand : BitVec 31) (lba : BitVec 32) (hpc : s.unvme.pc = .issue) :
      WriterMove conf s (.aread rand) (some ⟨s.unvme.head, s.unvme.lba, s.unvme.nblocks⟩) { s with
        unvme := afterIssue (issued s.ring s.unvme lba)
        filled := s.filled ++ Aread.slots ⟨s.unvme.head, s.unvme.lba, s.unvme.nblocks⟩ s.ring
        clobbered := s.clobbered ++
          (Aread.slots ⟨s.unvme.head, s.unvme.lba, s.unvme.nblocks⟩ s.ring).filter (· ∈ s.pending) }
  | polled (ret : Int) (nbytes : BitVec 64) (hpc : s.unvme.pc = .poll) :
      WriterMove conf s (.apoll ret) none
        { s with unvme := afterPoll { s.unvme with nbytes := nbytes, b := s.unvme.b + 1 } }
  | published (hpc : s.unvme.pc = .publish) :
      WriterMove conf s .publish none { s with
        ring := { s.ring with head := s.unvme.head }, unvme := { s.unvme with pc := .top }
        published := s.published ++ s.filled, filled := [] }

theorem ringStep_writer {conf : NvgenConf} {s s' : RingState} {op : UnvmeOp}
    (hs : ringStep conf s (.unvme op) = some s') :
    ∃ ring t read, unvmeStep conf s.ring s.unvme op = some (ring, t, read) ∧
      WriterMove conf s op read s' := by
  simp only [ringStep] at hs
  split at hs
  · cases hs
  · rename_i ring t read hstep
    cases hs
    refine ⟨ring, t, some read, hstep, ?_⟩
    cases unvmeStep_move hstep with
    | issued rand lba hpc => exact .issued rand lba hpc
  · rename_i ring t hstep
    refine ⟨ring, t, none, hstep, ?_⟩
    cases unvmeStep_move hstep with
    | idle hpc =>
      cases hs
      exact .idle hpc
    | left op hpc hop =>
      cases op with
      | publish => exact absurd rfl hop
      | _ =>
        cases hs
        exact .left _ hpc
    | planned batch nblocks hpc hplan =>
      cases hs
      exact .planned batch nblocks hpc hplan
    | polled ret nbytes hpc =>
      cases hs
      exact .polled ret nbytes hpc
    | published hpc =>
      cases hs
      exact .published hpc

/-- The steps of the netmap thread. -/
inductive ReaderMove (conf : NvgenConf) (s : RingState) : NetmapOp → RingState → Prop
  | idle (txsync : Option (BitVec 32)) (hpc : s.netmap.pc = .top) : ReaderMove conf s (.load txsync) s
  | left (op : NetmapOp) (hpc : s.netmap.pc = .top) :
      ReaderMove conf s op { s with netmap := { s.netmap with pc := .done } }
  | loaded (space : BitVec 32) (hpc : s.netmap.pc = .top) :
      ReaderMove conf s (.load (some space)) { s with
        netmap := afterSlot { s.netmap with
          batch := netmapBatch conf space s.ring.readAvail, tail := s.ring.tail, b := 0 } }
  | handed (hpc : s.netmap.pc = .slot) :
      ReaderMove conf s .slot { s with
        netmap := afterSlot { s.netmap with tail := s.ring.readNext s.netmap.tail, b := s.netmap.b + 1 }
        handed := s.handed ++ [s.netmap.tail.toNat] }
  | released (hpc : s.netmap.pc = .publish) :
      ReaderMove conf s .publish { s with
        ring := { s.ring with tail := s.netmap.tail }, netmap := { s.netmap with pc := .top }
        released := s.handed.length }

theorem ringStep_reader {conf : NvgenConf} {s s' : RingState} {op : NetmapOp}
    (hs : ringStep conf s (.netmap op) = some s') : ReaderMove conf s op s' := by
  simp only [ringStep] at hs
  split at hs
  · cases hs
  · rename_i ring t slot hstep
    cases hs
    cases netmapStep_move hstep with
    | handed hpc => exact .handed hpc
  · rename_i ring t hstep
    cases netmapStep_move hstep with
    | idle txsync hpc =>
      cases hs
      exact .idle txsync hpc
    | left op hpc hop =>
      cases op with
      | publish => exact absurd rfl hop
      | _ =>
        cases hs
        exact .left _ hpc
    | loaded space hpc =>
      cases hs
      exact .loaded space hpc
    | released hpc =>
      cases hs
      exact .released hpc

/-! ### Entries in flight -/

/-- The writer with `p` entries published, `r` released and `f` filled in this pass: the pass
ends less than a round ahead of the reader. -/
def WriterInv (p r f : Nat) (t : UnvmeThread) : Prop :=
  match t.pc with
  | .top | .done => f = 0
  | .issue => t.head.toNat = (p + f) % 256 ∧ p + 2 * (t.nblocks.toNat * t.batch.toNat) < r + 256 ∧
      f = 2 * (t.nblocks.toNat * t.b.toNat) ∧ t.b.toNat < t.batch.toNat
  | .poll | .publish => t.head.toNat = (p + f) % 256 ∧ p + f < r + 256

/-- The reader with `p` entries published, `r` released and `h` handed over. -/
def ReaderInv (p r h : Nat) (t : NetmapThread) : Prop :=
  match t.pc with
  | .top | .done => h = r
  | .slot =>
    t.tail.toNat = h % 256 ∧ r + t.batch.toNat ≤ p ∧ h = r + t.b.toNat ∧ t.b.toNat < t.batch.toNat
  | .publish => t.tail.toNat = h % 256

/-- Entries carry consecutive numbers from publication to release, less than a round of them
is pending, and each thread is where its counts say. -/
structure RingInv (s : RingState) : Prop where
  mask : s.ring.mask = 255
  head : s.ring.head.toNat = s.published.length % 256
  tail : s.ring.tail.toNat = s.released % 256
  published : s.published = Circular.slots 256 0 s.published.length
  handed : s.handed = Circular.slots 256 0 s.handed.length
  filled : s.filled = Circular.slots 256 s.published.length s.filled.length
  released_le : s.released ≤ s.handed.length
  handed_le : s.handed.length ≤ s.published.length
  window : s.published.length < s.released + 256
  clean : s.clobbered = []
  writer : WriterInv s.published.length s.released s.filled.length s.unvme
  reader : ReaderInv s.published.length s.released s.handed.length s.netmap

lemma RingInv.fifo {s : RingState} (h : RingInv s) : Fifo s := by
  refine ⟨?_, h.clean⟩
  rw [h.handed, h.published]
  exact Circular.slots_prefix h.handed_le

lemma RingInv.usedSlots_eq {s : RingState} (h : RingInv s) :
    usedSlots s.ring = s.published.length - s.released := by
  have hle := h.released_le.trans h.handed_le
  have hwin := h.window
  unfold usedSlots
  rw [h.head, h.tail]
  omega

lemma WriterInv.mono {p r r' f : Nat} {t : UnvmeThread} (h : WriterInv p r f t) (hr : r ≤ r') :
    WriterInv p r' f t := by
  unfold WriterInv at h ⊢
  cases hpc : t.pc with
  | top | done => simpa only [hpc] using h
  | issue =>
    simp only [hpc] at h ⊢
    exact ⟨h.1, by omega, h.2.2⟩
  | poll | publish =>
    simp only [hpc] at h ⊢
    exact ⟨h.1, by omega⟩

lemma ReaderInv.mono {p p' r h : Nat} {t : NetmapThread} (hi : ReaderInv p r h t) (hp : p ≤ p') :
    ReaderInv p' r h t := by
  unfold ReaderInv at hi ⊢
  cases hpc : t.pc with
  | top | done | publish => simpa only [hpc] using hi
  | slot =>
    simp only [hpc] at hi ⊢
    exact ⟨hi.1, hi.2.1.trans hp, hi.2.2⟩

lemma WriterInv.afterIssue {p r f : Nat} {t : UnvmeThread} (hhead : t.head.toNat = (p + f) % 256)
    (hroom : p + 2 * (t.nblocks.toNat * t.batch.toNat) < r + 256)
    (hf : f = 2 * (t.nblocks.toNat * t.b.toNat)) (hb : t.b.toNat ≤ t.batch.toNat) :
    WriterInv p r f (Libpop.afterIssue t) := by
  have hdone : f ≤ 2 * (t.nblocks.toNat * t.batch.toNat) := by
    rw [hf]
    exact Nat.mul_le_mul_left 2 (Nat.mul_le_mul_left _ hb)
  rcases afterIssue_cases t with ⟨hlt, he⟩ | ⟨-, ⟨-, he⟩ | ⟨-, he⟩⟩
  · rw [he]
    exact ⟨hhead, hroom, hf, hlt⟩
  · rw [he]
    exact ⟨hhead, by omega⟩
  · rw [he]
    exact ⟨hhead, by omega⟩

lemma WriterInv.planned {conf : NvgenConf} {s : RingState} (h : RingInv s)
    (hg : LeavesGap conf s.ring) {batch nblocks : BitVec 32}
    (hplan : passPlan conf s.ring.writeAvail = some (batch, nblocks)) :
    WriterInv s.published.length s.released 0
      (Libpop.afterIssue (passStart s.ring s.unvme batch nblocks)) := by
  obtain ⟨hspace, hnv, -⟩ := passPlan_some hplan
  have hused := h.usedSlots_eq
  have hle := h.released_le.trans h.handed_le
  have hwin := h.window
  have hh : s.ring.head.toNat < 256 := h.head ▸ Nat.mod_lt _ (by decide)
  have ht : s.ring.tail.toNat < 256 := h.tail ▸ Nat.mod_lt _ (by decide)
  rw [toNat_writeAvail hh ht] at hspace
  have hgap : 2 * (nblocks.toNat * batch.toNat) < freeSlots s.ring := by
    unfold LeavesGap at hg
    unfold freeSlots at hspace hg ⊢
    rcases hg with hbehind | hodd | hshort
    · rw [if_pos (BitVec.lt_def.mp hbehind)] at hspace
      omega
    · split at hspace <;> omega
    · omega
  apply WriterInv.afterIssue
  · exact h.head
  · dsimp only [passStart]
    unfold freeSlots at hgap
    omega
  · simp [passStart]
  · simp [passStart]

lemma read_slots_eq {ring : NvgenRing} (hm : ring.mask = 255) (read : Aread) :
    read.slots ring = Circular.slots 256 read.slot.toNat (2 * read.nblocks.toNat) := by
  unfold Aread.slots Circular.slots
  apply List.map_congr_left
  intro k _
  rw [toNat_writeNextBatch hm, BitVec.toNat_ofNat]
  omega

lemma RingInv.pending_eq {s : RingState} (h : RingInv s) :
    s.pending = Circular.slots 256 s.released (s.published.length - s.released) := by
  unfold RingState.pending
  rw [h.published, Circular.length_slots, Circular.drop_slots (h.released_le.trans h.handed_le),
    Nat.zero_add]

section Issue

variable {s : RingState} (h : RingInv s) (hpc : s.unvme.pc = .issue)

include h hpc

lemma RingInv.issue : s.unvme.head.toNat = (s.published.length + s.filled.length) % 256 ∧
    s.published.length + 2 * (s.unvme.nblocks.toNat * s.unvme.batch.toNat) < s.released + 256 ∧
    s.filled.length = 2 * (s.unvme.nblocks.toNat * s.unvme.b.toNat) ∧
    s.unvme.b.toNat < s.unvme.batch.toNat := by
  have hw := h.writer
  simpa only [WriterInv, hpc] using hw

/-- The read that is about to be issued ends less than a round ahead of the reader. -/
lemma RingInv.issue_end :
    s.published.length + (s.filled.length + 2 * s.unvme.nblocks.toNat) < s.released + 256 := by
  obtain ⟨-, hroom, hf, hb⟩ := h.issue hpc
  have hnext : s.unvme.nblocks.toNat * (s.unvme.b.toNat + 1) ≤
      s.unvme.nblocks.toNat * s.unvme.batch.toNat :=
    Nat.mul_le_mul_left _ hb
  rw [Nat.mul_add] at hnext
  omega

lemma RingInv.nblocks_lt : 2 * s.unvme.nblocks.toNat < 256 := by
  have hend := h.issue_end hpc
  have hle := h.released_le.trans h.handed_le
  omega

lemma RingInv.read_slots (lba : BitVec 32) :
    Aread.slots ⟨s.unvme.head, lba, s.unvme.nblocks⟩ s.ring =
      Circular.slots 256 (s.published.length + s.filled.length) (2 * s.unvme.nblocks.toNat) := by
  rw [read_slots_eq h.mask]
  dsimp only
  rw [(h.issue hpc).1, Circular.slots_mod]

lemma RingInv.read_clean (lba : BitVec 32) :
    (Aread.slots ⟨s.unvme.head, lba, s.unvme.nblocks⟩ s.ring).filter (· ∈ s.pending) = [] := by
  have hle := h.released_le.trans h.handed_le
  have hend := h.issue_end hpc
  apply List.filter_eq_nil_iff.mpr
  intro x hx
  rw [h.read_slots hpc] at hx
  rw [h.pending_eq]
  have hnot : x ∉ Circular.slots 256 s.released (s.published.length - s.released) :=
    Circular.notMem_slots (by omega) (by omega) hx
  simpa using hnot

lemma WriterInv.issued (lba : BitVec 32) :
    WriterInv s.published.length s.released (s.filled.length + 2 * s.unvme.nblocks.toNat)
      (Libpop.afterIssue (Proofs.issued s.ring s.unvme lba)) := by
  obtain ⟨hhead, hroom, hf, hb⟩ := h.issue hpc
  have hlt := h.nblocks_lt hpc
  have hadvance : (s.unvme.nblocks <<< 1).toNat = 2 * s.unvme.nblocks.toNat :=
    Word.toNat_shiftLeft_one _ (by omega)
  have hnext : (s.unvme.b + 1).toNat = s.unvme.b.toNat + 1 := Word.toNat_add_one_of_lt hb
  apply WriterInv.afterIssue
  · dsimp only [Proofs.issued]
    rw [toNat_writeNextBatch h.mask, hhead, hadvance]
    omega
  · exact hroom
  · dsimp only [Proofs.issued]
    rw [hnext, hf, Nat.mul_add, Nat.mul_add, Nat.mul_one]
  · dsimp only [Proofs.issued]
    rw [hnext]
    exact hb

end Issue

lemma RingInv.filled_window {s : RingState} (h : RingInv s) :
    s.published.length + s.filled.length < s.released + 256 := by
  have hw := h.writer
  have hwin := h.window
  cases hpc : s.unvme.pc with
  | top | done =>
    simp only [WriterInv, hpc] at hw
    omega
  | issue =>
    have hend := h.issue_end hpc
    omega
  | poll | publish =>
    simp only [WriterInv, hpc] at hw
    exact hw.2

lemma ReaderInv.afterSlot {p r h : Nat} {t : NetmapThread} (htail : t.tail.toNat = h % 256)
    (hroom : r + t.batch.toNat ≤ p) (hh : h = r + t.b.toNat) :
    ReaderInv p r h (Libpop.afterSlot t) := by
  rcases afterSlot_cases t with ⟨hlt, he⟩ | ⟨-, he⟩
  · rw [he]
    exact ⟨htail, hroom, hh, hlt⟩
  · rw [he]
    exact htail

lemma RingInv.filled_of_top {s : RingState} (h : RingInv s) (hpc : s.unvme.pc = .top) :
    s.filled.length = 0 := by
  have hw := h.writer
  simpa only [WriterInv, hpc] using hw

/-- A step of the writer that fills and publishes nothing. -/
lemma RingInv.setUnvme {s : RingState} (h : RingInv s) {t : UnvmeThread}
    (hw : WriterInv s.published.length s.released s.filled.length t) :
    RingInv { s with unvme := t } :=
  { h with writer := hw }

lemma RingInv.fill {s : RingState} (h : RingInv s) (hpc : s.unvme.pc = .issue) (lba : BitVec 32) :
    RingInv { s with
      unvme := Libpop.afterIssue (issued s.ring s.unvme lba)
      filled := s.filled ++ Aread.slots ⟨s.unvme.head, s.unvme.lba, s.unvme.nblocks⟩ s.ring
      clobbered := s.clobbered ++
        (Aread.slots ⟨s.unvme.head, s.unvme.lba, s.unvme.nblocks⟩ s.ring).filter (· ∈ s.pending) } := by
  refine { h with filled := ?_, clean := ?_, writer := ?_ }
  · dsimp only
    rw [h.read_slots hpc, List.length_append, Circular.length_slots, ← Circular.slots_append,
      ← h.filled]
  · dsimp only
    rw [h.read_clean hpc, h.clean]
    rfl
  · dsimp only
    rw [h.read_slots hpc, List.length_append, Circular.length_slots]
    exact WriterInv.issued h hpc lba

lemma RingInv.publish {s : RingState} (h : RingInv s) (hpc : s.unvme.pc = .publish) :
    RingInv { s with
      ring := { s.ring with head := s.unvme.head }, unvme := { s.unvme with pc := .top }
      published := s.published ++ s.filled, filled := [] } := by
  have hw : s.unvme.head.toNat = (s.published.length + s.filled.length) % 256 ∧
      s.published.length + s.filled.length < s.released + 256 := by
    simpa only [WriterInv, hpc] using h.writer
  have hgrow : s.published.length ≤ (s.published ++ s.filled).length := by simp
  refine { h with
    head := ?_, published := ?_, filled := rfl, handed_le := h.handed_le.trans hgrow, window := ?_
    writer := rfl, reader := h.reader.mono hgrow }
  · rw [List.length_append]
    exact hw.1
  · dsimp only
    rw [List.length_append, ← Circular.slots_append, Nat.zero_add, ← h.filled, ← h.published]
  · dsimp only
    rw [List.length_append]
    exact hw.2

lemma RingInv.unvme {conf : NvgenConf} {s : RingState} (h : RingInv s) {op : UnvmeOp}
    {s' : RingState} (hg : KeepsFifo conf s (.unvme op))
    (hs : ringStep conf s (.unvme op) = some s') : RingInv s' := by
  obtain ⟨ring, t, read, -, hmove⟩ := ringStep_writer hs
  cases hmove with
  | idle hpc => exact h
  | left op hpc => exact h.setUnvme (h.filled_of_top hpc)
  | planned batch nblocks hpc hplan =>
    apply h.setUnvme
    rw [h.filled_of_top hpc]
    exact WriterInv.planned h hg hplan
  | issued rand lba hpc => exact h.fill hpc lba
  | polled ret nbytes hpc =>
    apply h.setUnvme
    have hw := h.writer
    simp only [WriterInv, hpc] at hw
    rcases afterPoll_cases { s.unvme with nbytes := nbytes, b := s.unvme.b + 1 } with ⟨-, he⟩ | ⟨-, he⟩
    · rw [he]
      exact hw
    · rw [he]
      exact hw
  | published hpc => exact h.publish hpc

/-- A step of the reader that hands over and releases nothing. -/
lemma RingInv.setNetmap {s : RingState} (h : RingInv s) {t : NetmapThread}
    (hr : ReaderInv s.published.length s.released s.handed.length t) :
    RingInv { s with netmap := t } :=
  { h with reader := hr }

lemma RingInv.handed_of_top {s : RingState} (h : RingInv s) (hpc : s.netmap.pc = .top) :
    s.handed.length = s.released := by
  have hr := h.reader
  simpa only [ReaderInv, hpc] using hr

lemma ReaderInv.loaded {conf : NvgenConf} {s : RingState} (h : RingInv s) (hpc : s.netmap.pc = .top)
    {space : BitVec 32} (hg : TakesPublished conf s.ring space) :
    ReaderInv s.published.length s.released s.handed.length
      (Libpop.afterSlot { s.netmap with
        batch := netmapBatch conf space s.ring.readAvail, tail := s.ring.tail, b := 0 }) := by
  have hh : s.ring.head.toNat < 256 := h.head ▸ Nat.mod_lt _ (by decide)
  have hbatch := netmapBatch_le_used hh hg
  have hle := h.released_le.trans h.handed_le
  rw [h.usedSlots_eq] at hbatch
  rw [h.handed_of_top hpc]
  apply ReaderInv.afterSlot
  · exact h.tail
  · dsimp only
    omega
  · rfl

lemma RingInv.handOver {s : RingState} (h : RingInv s) (hpc : s.netmap.pc = .slot) :
    RingInv { s with
      netmap := Libpop.afterSlot { s.netmap with tail := s.ring.readNext s.netmap.tail, b := s.netmap.b + 1 }
      handed := s.handed ++ [s.netmap.tail.toNat] } := by
  have hr : s.netmap.tail.toNat = s.handed.length % 256 ∧
      s.released + s.netmap.batch.toNat ≤ s.published.length ∧
      s.handed.length = s.released + s.netmap.b.toNat ∧ s.netmap.b.toNat < s.netmap.batch.toNat := by
    simpa only [ReaderInv, hpc] using h.reader
  obtain ⟨htail, hroom, hcount, hb⟩ := hr
  have hlen : (s.handed ++ [s.netmap.tail.toNat]).length = s.handed.length + 1 := by simp
  have hnext : (s.netmap.b + 1).toNat = s.netmap.b.toNat + 1 := Word.toNat_add_one_of_lt hb
  refine { h with handed := ?_, released_le := ?_, handed_le := ?_, reader := ?_ }
  · dsimp only
    rw [hlen, Circular.slots_succ, Nat.zero_add, ← htail, ← h.handed]
  · dsimp only
    omega
  · dsimp only
    omega
  · dsimp only
    rw [hlen]
    apply ReaderInv.afterSlot
    · dsimp only
      rw [toNat_readNext h.mask, htail]
      omega
    · exact hroom
    · dsimp only
      omega

lemma RingInv.release {s : RingState} (h : RingInv s) (hpc : s.netmap.pc = .publish) :
    RingInv { s with
      ring := { s.ring with tail := s.netmap.tail }, netmap := { s.netmap with pc := .top }
      released := s.handed.length } := by
  have htail : s.netmap.tail.toNat = s.handed.length % 256 := by
    simpa only [ReaderInv, hpc] using h.reader
  have hwin := h.window
  have hle := h.released_le
  refine { h with
    tail := htail, released_le := le_rfl, window := ?_, writer := h.writer.mono hle, reader := rfl }
  dsimp only
  omega

lemma RingInv.netmap {conf : NvgenConf} {s : RingState} (h : RingInv s) {op : NetmapOp}
    {s' : RingState} (hg : KeepsFifo conf s (.netmap op))
    (hs : ringStep conf s (.netmap op) = some s') : RingInv s' := by
  cases ringStep_reader hs with
  | idle txsync hpc => exact h
  | left op hpc => exact h.setNetmap (h.handed_of_top hpc)
  | loaded space hpc => exact h.setNetmap (ReaderInv.loaded h hpc hg)
  | handed hpc => exact h.handOver hpc
  | released hpc => exact h.release hpc

lemma ringInv_step {conf : NvgenConf} (s : RingState) (op : RingOp) (s' : RingState) (h : RingInv s)
    (hg : KeepsFifo conf s op) (hs : ringStep conf s op = some s') : RingInv s' := by
  cases op with
  | unvme op => exact h.unvme hg hs
  | netmap op => exact h.netmap hg hs

lemma ringInv_init (conf : NvgenConf) : RingInv (ringInit conf) where
  mask := rfl
  head := rfl
  tail := rfl
  published := rfl
  handed := rfl
  filled := rfl
  released_le := le_rfl
  handed_le := le_rfl
  window := by simp [ringInit]
  clean := rfl
  writer := rfl
  reader := rfl

/-- In every interleaving of the two threads whose passes leave a gap and keep to the published
slots, the ring is a queue in every state. -/
theorem slot_ring_is_fifo (conf : NvgenConf) {ops : List RingOp}
    (hg : Guarded (ringStep conf) (KeepsFifo conf) (ringInit conf) ops) :
    Throughout (ringStep conf) Fifo (ringInit conf) ops := by
  apply throughout_of_guarded _ ringInv_step (ringInv_init conf) hg
  intro s h
  exact h.fifo

instance (conf : NvgenConf) (s : RingState) (op : RingOp) : Decidable (KeepsFifo conf s op) := by
  unfold KeepsFifo LeavesGap TakesPublished
  split <;> infer_instance

/-- One pass of each thread, interleaved, with `-b 64 -B 8 -w seq`. -/
theorem slot_ring_is_fifo_one_pass :
    Throughout (ringStep ⟨64, 8, .seq, 0, 0xf0000⟩) Fifo (ringInit ⟨64, 8, .seq, 0, 0xf0000⟩)
      [.unvme .avail, .unvme (.aread 0), .netmap (.load (some 512)), .unvme (.apoll 0), .unvme .publish,
        .netmap (.load (some 3)), .unvme .avail, .netmap .slot, .unvme (.aread 0), .netmap .slot,
        .netmap .publish] :=
  slot_ring_is_fifo _ (by decide)

/-- Options `-b 64 -B 128 -w seq`. -/
def fullConf : NvgenConf :=
  ⟨64, 128, .seq, 0, 0xf0000⟩

/-- Two passes of the NVMe thread, with the netmap thread not running. -/
def twoFills : List RingOp :=
  [.unvme .avail, .unvme (.aread 0), .unvme (.apoll 0), .unvme .publish, .unvme .avail, .unvme (.aread 0)]

/-- The first pass publishes all 256 slots, which leaves equal indices, and the second fills
slot 0 and those after it again although none has been released. -/
theorem slot_ring_refills_published :
    (exec (ringStep fullConf) (ringInit fullConf) twoFills).map
      (fun s => (s.published.length, s.released, s.clobbered.head?)) = some (256, 0, some 0) ∧
    ¬Throughout (ringStep fullConf) Fifo (ringInit fullConf) twoFills := by
  have hrun : (exec (ringStep fullConf) (ringInit fullConf) twoFills).map
      (fun s => (s.published.length, s.released, s.clobbered.head?)) = some (256, 0, some 0) := by
    decide +kernel
  refine ⟨hrun, not_throughout_of_map hrun ?_⟩
  intro s hobs hfifo
  simp [hfifo.2] at hobs

end Libpop.Proofs
