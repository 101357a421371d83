import Mathlib.Algebra.Group.Action.Defs
import Mathlib.Algebra.Order.BigOperators.Group.Finset
import Libpop.Generator

/-!
# How many slots an iteration fills

The number of commands, the size of the last batch and the sentinel `rest == 0` decide how
many slots of the netmap ring an iteration of generator fills. When the free slots are a
multiple of the batch but fewer than a full iteration, one batch too many is planned, and
only a failed poll keeps the iteration inside its space.
-/

namespace Libpop.Proofs
open Generator

section Loops

variable (p : GenParam) (g : GenBuffers) (r : NetmapRing)

lemma length_fillBatch (vb : Nat) (f : Filling) (n : Nat) :
    (fillBatch p g r vb f n).fills.length = f.fills.length + n := by
  induction n with
  | zero => rfl
  | succ n ih =>
    simp only [fillBatch, fillSlot, List.length_append, List.length_singleton]
    rw [ih, Nat.add_assoc]

lemma arrive_fills (disk : Bytes.Mem) (reads : List GenRead) (vb : Nat) (f : Filling) :
    (arrive p disk reads vb f).fills = f.fills ∧ (arrive p disk reads vb f).head = f.head := by
  unfold arrive
  split
  · exact ⟨rfl, rfl⟩
  · exact ⟨rfl, rfl⟩

/-- The slots that command `vb` fills when it is polled. -/
def filledBy (nvbatch rest : Nat) (poll : Nat → Int) (vb : Nat) : Nat :=
  if poll vb = 0 then p.batchOf nvbatch rest vb else 0

lemma length_fillLoop (disk : Bytes.Mem) (reads : List GenRead) (poll : Nat → Int)
    (nvbatch rest : Nat) (f : Filling) (n : Nat) :
    (fillLoop p g r disk reads poll nvbatch rest f n).fills.length =
      f.fills.length + ∑ vb ∈ Finset.range n, filledBy p nvbatch rest poll vb := by
  induction n with
  | zero => rfl
  | succ n ih =>
    rw [Finset.sum_range_succ, ← Nat.add_assoc, ← ih, fillLoop, filledBy]
    by_cases hok : poll n = 0
    · rw [if_neg (not_not.mpr hok), if_pos hok, length_fillBatch]
      dsimp only
      rw [(arrive_fills p disk reads n _).1]
    · rw [if_pos hok, if_neg hok, Nat.add_zero]

/-- The local head is as many slots ahead of where it started as slots have been filled. -/
def HeadAt (start : Nat) (f : Filling) : Prop :=
  f.head = (start + f.fills.length) % r.numSlots

variable {r}

lemma headAt_fillBatch (hn : 0 < r.numSlots) {start : Nat} {f : Filling} (h : HeadAt r start f)
    (vb n : Nat) : HeadAt r start (fillBatch p g r vb f n) := by
  induction n with
  | zero => exact h
  | succ n ih =>
    have hlt : (fillBatch p g r vb f n).head < r.numSlots := ih ▸ Nat.mod_lt _ hn
    unfold HeadAt at ih ⊢
    simp only [fillBatch, fillSlot, List.length_append, List.length_singleton]
    rw [nmRingNext_eq hlt, ih, Nat.mod_add_mod, Nat.add_assoc]

lemma headAt_fillLoop (hn : 0 < r.numSlots) {start : Nat} {f : Filling} (h : HeadAt r start f)
    (disk : Bytes.Mem) (reads : List GenRead) (poll : Nat → Int) (nvbatch rest n : Nat) :
    HeadAt r start (fillLoop p g r disk reads poll nvbatch rest f n) := by
  induction n with
  | zero => exact h
  | succ n ih =>
    unfold fillLoop
    dsimp only
    split
    · exact ih
    · apply headAt_fillBatch p g hn
      obtain ⟨hfills, hhead⟩ := arrive_fills p disk reads n
        (fillLoop p g r disk reads poll nvbatch rest f n)
      unfold HeadAt at ih ⊢
      dsimp only
      rw [hfills, hhead]
      exact ih

end Loops

/-! ### The plan of an iteration -/

section Plan

variable {p : GenParam} {poll : Nat → Int}

lemma plan_le (p : GenParam) (space : Nat) : (p.plan space).1 ≤ p.nvbatch := by
  have hpos : 0 < p.batch := p.batch_pos
  unfold GenParam.plan
  split
  · exact le_refl _
  · rename_i hshort
    have hlt : space / p.batch < p.nvbatch := Nat.div_lt_of_lt_mul (not_le.mp hshort)
    exact hlt

lemma batchOf_le (p : GenParam) (space vb : Nat) :
    p.batchOf (p.plan space).1 (p.plan space).2 vb ≤ p.batch := by
  have hpos : 0 < p.batch := p.batch_pos
  have hmod := Nat.mod_lt space hpos
  unfold GenParam.batchOf
  split
  · exact le_refl _
  · unfold GenParam.plan
    split
    · exact Nat.zero_le _
    · exact hmod.le

lemma filledBy_le (nvbatch vb : Nat) : filledBy p nvbatch 0 poll vb ≤ p.batch := by
  unfold filledBy GenParam.batchOf
  split <;> simp

lemma sum_filledBy_ok {nvbatch rest n : Nat} (h : ∀ vb < n, poll vb = 0) :
    ∑ vb ∈ Finset.range n, filledBy p nvbatch rest poll vb =
      ∑ vb ∈ Finset.range n, p.batchOf nvbatch rest vb := by
  apply Finset.sum_congr rfl
  intro vb hvb
  rw [filledBy, if_pos (h vb (Finset.mem_range.mp hvb))]

/-- Without a rest every command is used for a whole batch. -/
lemma sum_batchOf_zero (nvbatch n : Nat) :
    ∑ vb ∈ Finset.range n, p.batchOf nvbatch 0 vb = n * p.batch := by
  simp [GenParam.batchOf]

/-- With a rest the last command is used for no more than that. -/
lemma sum_batchOf_rest {rest : Nat} (hrest : rest ≠ 0) (n : Nat) :
    ∑ vb ∈ Finset.range (n + 1), p.batchOf (n + 1) rest vb = n * p.batch + rest := by
  have hfull : ∀ vb ∈ Finset.range n, p.batchOf (n + 1) rest vb = p.batch := by
    intro vb hvb
    have hlt := Finset.mem_range.mp hvb
    unfold GenParam.batchOf
    rw [if_pos (.inr (by omega))]
  have hlast : p.batchOf (n + 1) rest n = rest := by
    unfold GenParam.batchOf
    rw [if_neg (by omega)]
  rw [Finset.sum_range_succ, Finset.sum_congr rfl hfull, hlast, Finset.sum_const, Finset.card_range,
    smul_eq_mul]

lemma sum_filledBy_le (p : GenParam) (poll : Nat → Int) (nvbatch rest n : Nat) :
    ∑ vb ∈ Finset.range n, filledBy p nvbatch rest poll vb ≤
      ∑ vb ∈ Finset.range n, p.batchOf nvbatch rest vb := by
  apply Finset.sum_le_sum
  intro vb _
  unfold filledBy
  split
  · exact le_refl _
  · exact Nat.zero_le _

/-- A failed poll saves a whole batch when there is no rest. -/
lemma sum_filledBy_fail {nvbatch n : Nat} (h : ∃ vb < n + 1, poll vb ≠ 0) :
    ∑ vb ∈ Finset.range (n + 1), filledBy p nvbatch 0 poll vb ≤ n * p.batch := by
  obtain ⟨vb, hvb, hfail⟩ := h
  have hmem : vb ∈ Finset.range (n + 1) := Finset.mem_range.mpr hvb
  have hzero : filledBy p nvbatch 0 poll vb = 0 := if_neg hfail
  calc ∑ k ∈ Finset.range (n + 1), filledBy p nvbatch 0 poll k
      = ∑ k ∈ (Finset.range (n + 1)).erase vb, filledBy p nvbatch 0 poll k :=
        (Finset.sum_erase _ hzero).symm
    _ ≤ ∑ _k ∈ (Finset.range (n + 1)).erase vb, p.batch :=
        Finset.sum_le_sum fun k _ => filledBy_le nvbatch k
    _ = n * p.batch := by
        rw [Finset.sum_const, Finset.card_erase_of_mem hmem, Finset.card_range, smul_eq_mul]
        rfl

end Plan

/-- The free slots are a multiple of the batch, but too few for a full iteration, and every
poll succeeds. -/
def Overfills (p : GenParam) (space : Nat) (poll : Nat → Int) : Prop :=
  space < p.bpkts ∧ p.batch ∣ space ∧ ∀ vb < space / p.batch + 1, poll vb = 0

/-- All slots filled by an iteration that finds `space` free ones. -/
def planned (p : GenParam) (space : Nat) (poll : Nat → Int) : Nat :=
  ∑ vb ∈ Finset.range (p.plan space).1, filledBy p (p.plan space).1 (p.plan space).2 poll vb

lemma planned_iff (p : GenParam) (space : Nat) (poll : Nat → Int) :
    (planned p space poll ≤ space ∧ ((∀ vb < (p.plan space).1, poll vb = 0) →
      planned p space poll = min space (p.batch * p.nvbatch))) ↔ ¬Overfills p space poll := by
  have hb := p.batch_pos
  have hdiv := Nat.div_add_mod space p.batch
  unfold planned Overfills GenParam.plan
  by_cases hfull : p.bpkts ≤ space
  · rw [if_pos hfull]
    have hle := sum_filledBy_le p poll p.nvbatch 0 p.nvbatch
    have hmul : p.nvbatch * p.batch = p.bpkts := Nat.mul_comm _ _
    have hbp : p.batch * p.nvbatch = p.bpkts := rfl
    rw [sum_batchOf_zero, hmul] at hle
    refine iff_of_true ⟨hle.trans hfull, fun hok => ?_⟩ (fun hover => absurd hover.1 (not_lt.mpr hfull))
    dsimp only
    rw [sum_filledBy_ok hok, sum_batchOf_zero, hmul, hbp, min_eq_right hfull]
  · rw [if_neg hfull]
    have hmin : min space (p.batch * p.nvbatch) = space := min_eq_left (not_le.mp hfull).le
    dsimp only
    rw [hmin]
    have hq : space / p.batch * p.batch = p.batch * (space / p.batch) := Nat.mul_comm _ _
    by_cases hrest : space % p.batch = 0
    · have hdvd := Nat.dvd_of_mod_eq_zero hrest
      rw [hrest]
      have hspace : space / p.batch * p.batch = space := Nat.div_mul_cancel hdvd
      by_cases hok : ∀ vb < space / p.batch + 1, poll vb = 0
      · -- all of the `space / batch + 1` commands are used in full
        refine iff_of_false ?_ (not_not.mpr ⟨not_le.mp hfull, hdvd, hok⟩)
        rintro ⟨hle, -⟩
        rw [sum_filledBy_ok hok, sum_batchOf_zero, Nat.add_mul, hspace] at hle
        omega
      · refine iff_of_true ⟨?_, fun hall => absurd hall hok⟩ (fun hover => hok hover.2.2)
        have hfail : ∃ vb < space / p.batch + 1, poll vb ≠ 0 := by
          simpa using hok
        exact (sum_filledBy_fail hfail).trans hspace.le
    · have hle := sum_filledBy_le p poll (space / p.batch + 1) (space % p.batch)
        (space / p.batch + 1)
      rw [sum_batchOf_rest hrest] at hle
      refine iff_of_true ⟨by omega, fun hok => ?_⟩ (fun hover => hrest (Nat.mod_eq_zero_of_dvd hover.2.1))
      rw [sum_filledBy_ok hok, sum_batchOf_rest hrest]
      omega

/-! ### One iteration -/

/-- The space counts from `cur`, so it never exceeds what is free behind `head`. -/
lemma nmRingSpace_le {r : NetmapRing} (h : r.Valid) : nmRingSpace r ≤ r.ahead r.head r.tail := by
  have horder := h.order
  have hhead := h.head_lt
  have hcur := h.cur_lt
  have htail := h.tail_lt
  unfold nmRingSpace NetmapRing.ahead at *
  split at horder <;> split at horder <;> split <;> omega

/-- What `sync_out` leaves alone. -/
structure Kept (th t : GenThread) : Prop where
  lbaStart : t.lbaStart = th.lbaStart
  lbaEnd : t.lbaEnd = th.lbaEnd
  lba : t.lba = th.lba
  reads : t.reads = th.reads
  fills : t.fills = th.fills
  bufs : t.bufs = th.bufs
  head : t.ring.head = th.ring.head

lemma syncOut_kept (p : GenParam) (env : GenEnv) (space npkts nbytes ncmds nbytesNvme : Nat)
    (th : GenThread) : Kept th (syncOut p env space npkts nbytes ncmds nbytesNvme th) := by
  unfold syncOut
  dsimp only
  split <;> split <;> exact ⟨rfl, rfl, rfl, rfl, rfl, rfl, rfl⟩

lemma submit_vb {p : GenParam} {lbaStart lbaEnd : BitVec 64} {rand : Nat → BitVec 31} {vb n : Nat}
    {lba last : BitVec 64} {reads : List GenRead}
    (h : submit p lbaStart lbaEnd rand vb n lba = some (reads, last)) :
    reads.map GenRead.vb = List.range' vb n := by
  induction n generalizing vb lba reads with
  | zero =>
    cases h
    rfl
  | succ n ih =>
    unfold submit at h
    split at h
    · cases h
    · split at h
      · cases h
      · rename_i hrest
        cases h
        rw [List.map_cons, ih hrest, List.range'_succ]

lemma submit_nblocks {p : GenParam} {lbaStart lbaEnd : BitVec 64} {rand : Nat → BitVec 31}
    {vb n : Nat} {lba last : BitVec 64} {reads : List GenRead}
    (h : submit p lbaStart lbaEnd rand vb n lba = some (reads, last)) :
    ∀ read ∈ reads, read.nblocks = p.nblocks := by
  induction n generalizing vb lba reads with
  | zero =>
    cases h
    simp
  | succ n ih =>
    unfold submit at h
    split at h
    · cases h
    · split at h
      · cases h
      · rename_i hrest
        cases h
        intro read hread
        rcases List.mem_cons.mp hread with rfl | hread
        · rfl
        · exact ih hrest read hread

/-- The read commands of an iteration with free slots, and the LBA after them. -/
def reading (p : GenParam) (th : GenThread) (env : GenEnv) : Option (List GenRead × BitVec 64) :=
  if p.fakePacket then some ([], th.lba)
  else submit p th.lbaStart th.lbaEnd env.rand 0 (p.plan (nmRingSpace th.ring)).1 th.lba

/-- The fill loop of an iteration that has issued `reads`. -/
def filling (p : GenParam) (g : GenBuffers) (disk : Bytes.Mem) (th : GenThread) (env : GenEnv)
    (reads : List GenRead) : Filling :=
  fillLoop p g th.ring disk reads env.poll (p.plan (nmRingSpace th.ring)).1
    (p.plan (nmRingSpace th.ring)).2
    ⟨th.ring.head, th.ring.slot, th.bufs, 0, 0, []⟩ (p.plan (nmRingSpace th.ring)).1

/-- An iteration finds the ring full, or reads and fills slots. -/
inductive GenMove (p : GenParam) (g : GenBuffers) (disk : Bytes.Mem) (th : GenThread) (env : GenEnv)
    (t : GenThread) :
    Prop
  | full (hspace : nmRingSpace th.ring = 0) (hlba : t.lba = th.lba)
      (hreads : t.reads = []) (hfills : t.fills = [])
  | filled (reads : List GenRead) (hspace : nmRingSpace th.ring ≠ 0)
      (hreading : reading p th env = some (reads, t.lba))
      (hreads : t.reads = reads) (hfills : t.fills = (filling p g disk th env reads).fills)
      (hbufs : t.bufs = (filling p g disk th env reads).bufs)
      (hhead : t.ring.head = (filling p g disk th env reads).head)

lemma threadBody_move {p : GenParam} {g : GenBuffers} {disk : Bytes.Mem} {th t : GenThread}
    {env : GenEnv} (h : threadBody p g disk th env = some t) :
    t.lbaStart = th.lbaStart ∧ t.lbaEnd = th.lbaEnd ∧ GenMove p g disk th env t := by
  unfold threadBody at h
  split at h
  · cases h
  · dsimp only at h
    by_cases hspace : nmRingSpace th.ring = 0
    · rw [if_pos hspace, Option.some.injEq] at h
      have hkept := h ▸ syncOut_kept p env (nmRingSpace th.ring) 0 0 0 0
        { th with noSlot := th.noSlot + 1, reads := [], fills := [] }
      exact ⟨hkept.lbaStart, hkept.lbaEnd, .full hspace hkept.lba hkept.reads hkept.fills⟩
    · rw [if_neg hspace] at h
      cases hreading : reading p th env with
      | none =>
        unfold reading at hreading
        rw [hreading] at h
        cases h
      | some res =>
        obtain ⟨reads, lba⟩ := res
        have hsubmit := hreading
        unfold reading at hsubmit
        rw [hsubmit, Option.some.injEq] at h
        have hkept :=
          h ▸ syncOut_kept p env (nmRingSpace th.ring)
            (filling p g disk th env reads).fills.length _ _ _
            { th with
              lba := lba
              reads := reads
              fills := (filling p g disk th env reads).fills
              bufs := _
              ring := _ }
        refine ⟨hkept.lbaStart, hkept.lbaEnd,
          .filled reads hspace ?_ hkept.reads hkept.fills hkept.bufs hkept.head⟩
        rw [hreading, hkept.lba]

/-- What an iteration with free slots leaves. -/
lemma threadBody_fills {p : GenParam} {g : GenBuffers} {disk : Bytes.Mem} {th t : GenThread}
    {env : GenEnv} (hn : 0 < th.ring.numSlots) (hhead : th.ring.head < th.ring.numSlots)
    (hspace : 0 < nmRingSpace th.ring) (h : threadBody p g disk th env = some t) :
    t.fills.length = planned p (nmRingSpace th.ring) env.poll ∧
      t.ring.head = (th.ring.head + t.fills.length) % th.ring.numSlots := by
  obtain ⟨-, -, hmove⟩ := threadBody_move h
  cases hmove with
  | full hfull => exact absurd hfull hspace.ne'
  | filled reads _ _ _ hfills _ hring =>
    rw [hring, hfills]
    constructor
    · unfold filling
      rw [length_fillLoop, List.length_nil, Nat.zero_add]
      rfl
    · apply headAt_fillLoop p g hn
      exact (Nat.mod_eq_of_lt hhead).symm

/-- An iteration with free slots fills at most these, and exactly as many as it may when every
poll succeeds, if and only if it does not overfill; within its space the new head does not
pass the tail. -/
theorem iteration_fills_iff {p : GenParam} {g : GenBuffers} {disk : Bytes.Mem} {th t : GenThread}
    {env : GenEnv} (hring : th.ring.Valid) (hspace : 0 < nmRingSpace th.ring)
    (h : threadBody p g disk th env = some t) :
    ((t.fills.length ≤ nmRingSpace th.ring ∧
        ((∀ vb < (p.plan (nmRingSpace th.ring)).1, env.poll vb = 0) →
          t.fills.length = min (nmRingSpace th.ring) (p.batch * p.nvbatch))) ↔
      ¬Overfills p (nmRingSpace th.ring) env.poll) ∧
    t.ring.head = (th.ring.head + t.fills.length) % th.ring.numSlots ∧
    (t.fills.length ≤ nmRingSpace th.ring → t.fills.length ≤ th.ring.ahead th.ring.head th.ring.tail) := by
  obtain ⟨hlen, hhead⟩ := threadBody_fills (Nat.zero_lt_of_lt hring.head_lt) hring.head_lt hspace h
  refine ⟨?_, hhead, fun hle => hle.trans (nmRingSpace_le hring)⟩
  rw [hlen]
  exact planned_iff p _ _

/-! ### Two commands of two frames -/

def twoByTwo : GenParam :=
  .ofOptions 2 2 1 .seq 0 0x40000 false 9 (by decide)

def twoByTwoBuffers : GenBuffers :=
  ⟨⟨-1, "hugepage".toList, ⟨0, 0, 0, 0, 0⟩, 0x7f0000000000, 0x40000000, 0x400000, 1024, 0⟩,
    fun vb => 0x7f0000000000 + BitVec.ofNat 64 (4096 * vb), 0x4000⟩

/-- A thread at the start of its range, with a ring of eight slots. -/
def atStart (tail : Nat) : GenThread :=
  ⟨true, 0, 0x40000, 0, ⟨8, 0, 0, tail, fun _ => ⟨0, 0, 0⟩⟩, fun _ _ => 0, 0, 0, 0, 0, 0, [], []⟩

/-- Every poll succeeds and the ring drains. -/
def allPolled : GenEnv :=
  ⟨fun _ => 0, fun _ => 0, some 7⟩

/-- Three free slots: a full batch and a rest of one. -/
theorem iteration_fills_three :
    ∃ t, threadBody twoByTwo twoByTwoBuffers (fun _ => 0) (atStart 3) allPolled = some t ∧
      t.fills.length = min 3 4 := by
  obtain ⟨t, ht⟩ : ∃ t, threadBody twoByTwo twoByTwoBuffers (fun _ => 0) (atStart 3) allPolled = some t :=
    ⟨_, rfl⟩
  have hring : (atStart 3).ring.Valid := ⟨by decide, by decide, by decide, by decide⟩
  have hno : ¬Overfills twoByTwo 3 allPolled.poll := by
    rintro ⟨-, hdvd, -⟩
    exact absurd hdvd (by decide)
  exact ⟨t, ht, ((iteration_fills_iff hring (by decide) ht).1.mpr hno).2 fun _ _ => rfl⟩

/-- Two free slots: two commands of two frames each, and the head is two slots past the tail. -/
theorem iteration_overfills_two :
    nmRingSpace (atStart 2).ring = 2 ∧
      (threadBody twoByTwo twoByTwoBuffers (fun _ => 0) (atStart 2) allPolled).map
        (fun t => (t.fills.map Fill.index, t.ring.head)) = some ([0, 1, 2, 3], 4) := by
  exact ⟨rfl, rfl⟩

end Libpop.Proofs
