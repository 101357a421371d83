import Mathlib.Data.List.Nodup
import Libpop.Proofs.GeneratorWalk
import Libpop.Proofs.StoreWalk

/-!
# Frames from store to generator

Generator reads whole blocks and cuts them into frames of 2048 bytes from the first byte on.
On a disk written by store this finds the frames when every read starts at a frame and is long
enough for the slots it is used for. The options do not ensure either: with 4 KiB blocks an odd
batch is rounded down to fewer frames than it has slots, and with blocks smaller than a frame
a random walk, or the range of a second thread, starts at any block.
-/

namespace Libpop.Proofs
open Bytes Execution Generator

/-! ### The commands of an iteration -/

section Reads

variable {reads : List GenRead} {n : Nat} (h : reads.map GenRead.vb = List.range' 0 n)

include h

lemma vb_lt {read : GenRead} (hmem : read ∈ reads) : read.vb < n := by
  have hvb := List.mem_map_of_mem (f := GenRead.vb) hmem
  rw [h, List.mem_range'_1] at hvb
  omega

lemma exists_read {vb : Nat} (hvb : vb < n) : ∃ read ∈ reads, read.vb = vb := by
  apply List.mem_map.mp
  rw [h, List.mem_range'_1]
  omega

/-- A buffer is read into once. -/
lemma read_unique {read read' : GenRead} (hmem : read ∈ reads) (hmem' : read' ∈ reads)
    (hvb : read.vb = read'.vb) : read = read' := by
  have hnodup : (reads.map GenRead.vb).Nodup := h ▸ List.nodup_range'
  exact List.inj_on_of_nodup_map hnodup hmem hmem' hvb

end Reads

/-! ### The loops of an iteration -/

/-- A filled slot describes a frame of the buffers. -/
def Describes (g : GenBuffers) (bufs : Nat → Mem) (x : Fill) : Prop :=
  x.slot.ptr = popVirtToPhys g.mem (g.pkt x.vb x.b) ∧
    x.slot.len = (getPktlenFromDesc (bufs x.vb) (frameSize * x.b)).setWidth 16

lemma Describes.congr {g : GenBuffers} {bufs bufs' : Nat → Mem} {x : Fill} (h : Describes g bufs x)
    (hbufs : bufs' x.vb = bufs x.vb) : Describes g bufs' x := by
  unfold Describes
  rw [hbufs]
  exact h

section Loops

variable {p : GenParam} (hfake : p.fakePacket = false) (g : GenBuffers) (r : NetmapRing)

include hfake

lemma fillBatch_spec (vb : Nat) (f : Filling) (n : Nat) :
    (fillBatch p g r vb f n).bufs = f.bufs ∧
      ∃ new, (fillBatch p g r vb f n).fills = f.fills ++ new ∧
        new.map (fun x => (x.vb, x.b)) = (List.range n).map (fun b => (vb, b)) ∧
        ∀ x ∈ new, Describes g f.bufs x := by
  induction n with
  | zero => exact ⟨rfl, [], (List.append_nil _).symm, rfl, by simp⟩
  | succ n ih =>
    obtain ⟨hbufs, new, hfills, hmap, hdesc⟩ := ih
    rw [fillBatch]
    unfold fillSlot
    simp only [hfake, Bool.false_eq_true, if_false, Function.update_eq_self, hbufs, hfills,
      true_and]
    refine ⟨new ++ [_], List.append_assoc _ _ _, ?_, ?_⟩
    · rw [List.map_append, hmap, List.range_succ, List.map_append]
      rfl
    · intro x hx
      rcases List.mem_append.mp hx with hx | hx
      · exact hdesc x hx
      · obtain rfl := List.mem_singleton.mp hx
        exact ⟨rfl, rfl⟩

omit hfake in
lemma arrive_other (p : GenParam) (disk : Mem) (reads : List GenRead) {vb k : Nat} (f : Filling)
    (h : k ≠ vb) : (arrive p disk reads vb f).bufs k = f.bufs k := by
  unfold arrive
  split
  · rfl
  · exact Function.update_of_ne h _ _

omit hfake in
lemma arrive_data {disk : Mem} {reads : List GenRead} {n : Nat}
    (hreads : reads.map GenRead.vb = List.range' 0 n) {read : GenRead} (hmem : read ∈ reads)
    (f : Filling) {i : Nat} (hi : i < read.nblocks * p.blocksize) :
    (arrive p disk reads read.vb f).bufs read.vb i = disk (read.lba.toNat * p.blocksize + i) := by
  unfold arrive
  split
  · rename_i hnone
    have hno := List.find?_eq_none.mp hnone read hmem
    simp at hno
  · rename_i found hfound
    have hvb : found.vb = read.vb := by simpa using List.find?_some hfound
    obtain rfl := read_unique hreads (List.mem_of_find?_eq_some hfound) hmem hvb
    dsimp only
    rw [Function.update_self]
    have hcopy :
        copy (f.bufs found.vb) 0 disk (found.lba.toNat * p.blocksize) (found.nblocks * p.blocksize)
        (0 + i) = disk (found.lba.toNat * p.blocksize + i) := copy_inside hi
    rwa [Nat.zero_add] at hcopy

/-- Buffers and filled slots once `n` commands have completed. -/
structure FilledFrom (p : GenParam) (g : GenBuffers) (disk : Mem) (reads : List GenRead)
    (nvbatch rest n : Nat) (bufs : Nat → Mem) (fills : List Fill) : Prop where
  data : ∀ read ∈ reads, read.vb < n → ∀ i < read.nblocks * p.blocksize,
    bufs read.vb i = disk (read.lba.toNat * p.blocksize + i)
  frame : ∀ x ∈ fills, x.vb < n ∧ x.b < p.batchOf nvbatch rest x.vb ∧ Describes g bufs x
  all : ∀ vb < n, ∀ b < p.batchOf nvbatch rest vb, ∃ x ∈ fills, x.vb = vb ∧ x.b = b

omit hfake in
/-- Command `n` completes. -/
lemma FilledFrom.next {disk : Mem} {reads : List GenRead} {nvbatch rest n : Nat}
    {bufs bufs' : Nat → Mem} {fills new : List Fill}
    (h : FilledFrom p g disk reads nvbatch rest n bufs fills) (hother : ∀ k < n, bufs' k = bufs k)
    (hdata : ∀ read ∈ reads, read.vb = n → ∀ i < read.nblocks * p.blocksize,
      bufs' read.vb i = disk (read.lba.toNat * p.blocksize + i))
    (hmap : new.map (fun x => (x.vb, x.b)) = (List.range (p.batchOf nvbatch rest n)).map (fun b => (n, b)))
    (hdesc : ∀ x ∈ new, Describes g bufs' x) :
    FilledFrom p g disk reads nvbatch rest (n + 1) bufs' (fills ++ new) := by
  constructor
  · intro read hmem hvb i hi
    by_cases hlast : read.vb = n
    · exact hdata read hmem hlast i hi
    · rw [hother _ (by omega)]
      exact h.data read hmem (by omega) i hi
  · intro x hx
    rcases List.mem_append.mp hx with hx | hx
    · obtain ⟨hvb, hb, hold⟩ := h.frame x hx
      exact ⟨by omega, hb, hold.congr (hother _ hvb)⟩
    · have hpair : (x.vb, x.b) ∈ (List.range (p.batchOf nvbatch rest n)).map (fun b => (n, b)) :=
        hmap ▸ List.mem_map_of_mem (f := fun x : Fill => (x.vb, x.b)) hx
      obtain ⟨b, hb, heq⟩ := List.mem_map.mp hpair
      obtain ⟨hvb, rfl⟩ := Prod.mk.inj heq
      rw [← hvb]
      exact ⟨by omega, List.mem_range.mp hb, hdesc x hx⟩
  · intro vb hvb b hb
    by_cases hlast : vb = n
    · subst hlast
      have hpair : (vb, b) ∈ new.map (fun x => (x.vb, x.b)) :=
        hmap ▸ List.mem_map_of_mem (f := fun b => (vb, b)) (List.mem_range.mpr hb)
      obtain ⟨x, hx, heq⟩ := List.mem_map.mp hpair
      obtain ⟨hxvb, hxb⟩ := Prod.mk.inj heq
      exact ⟨x, List.mem_append_right _ hx, hxvb, hxb⟩
    · obtain ⟨x, hx, hxvb, hxb⟩ := h.all vb (by omega) b hb
      exact ⟨x, List.mem_append_left _ hx, hxvb, hxb⟩

lemma filledFrom_fillLoop {disk : Mem} {reads : List GenRead} {nvbatch rest : Nat}
    (hreads : reads.map GenRead.vb = List.range' 0 nvbatch) {poll : Nat → Int} {f : Filling}
    (hf : f.fills = []) {n : Nat} (hpoll : ∀ vb < n, poll vb = 0) :
    FilledFrom p g disk reads nvbatch rest n (fillLoop p g r disk reads poll nvbatch rest f n).bufs
      (fillLoop p g r disk reads poll nvbatch rest f n).fills := by
  induction n with
  | zero =>
    refine ⟨by simp, ?_, by simp⟩
    intro x hx
    rw [fillLoop, hf] at hx
    cases hx
  | succ n ih =>
    have ih := ih fun vb hvb => hpoll vb (hvb.trans n.lt_succ_self)
    rw [fillLoop]
    dsimp only
    rw [if_neg (not_not.mpr (hpoll n n.lt_succ_self))]
    set before := fillLoop p g r disk reads poll nvbatch rest f n
    obtain ⟨hbufs, new, hfills, hmap, hdesc⟩ := fillBatch_spec hfake g r n
      { arrive p disk reads n before with ncmds := (arrive p disk reads n before).ncmds + 1 }
      (p.batchOf nvbatch rest n)
    rw [hbufs, hfills]
    dsimp only at hdesc ⊢
    rw [(arrive_fills p disk reads n before).1]
    apply ih.next g
    · intro k hk
      exact arrive_other p disk reads before hk.ne
    · intro read hmem hvb i hi
      rw [← hvb]
      exact arrive_data hreads hmem before hi
    · exact hmap
    · exact hdesc

end Loops

/-! ### Iterations -/

/-- The iterations in question: every poll succeeds, the reads lie below `lbaEnd`, and no more
slots are filled than are free. -/
def admittedBody (p : GenParam) (g : GenBuffers) (disk : Mem) (th : GenThread)
    (env : GenEnv) : Option GenThread :=
  match threadBody p g disk th env with
  | none => none
  | some t =>
    if (∀ vb < (p.plan (nmRingSpace th.ring)).1, env.poll vb = 0) ∧
        (∀ read ∈ t.reads, read.lba.toNat + read.nblocks ≤ p.lbaEnd.toNat) ∧
        t.fills.length ≤ nmRingSpace th.ring then some t
    else none

lemma admittedBody_some {p : GenParam} {g : GenBuffers} {disk : Mem} {th t : GenThread}
    {env : GenEnv} (h : admittedBody p g disk th env = some t) :
    threadBody p g disk th env = some t ∧
      (∀ vb < (p.plan (nmRingSpace th.ring)).1, env.poll vb = 0) ∧
      ∀ read ∈ t.reads, read.lba.toNat + read.nblocks ≤ p.lbaEnd.toNat := by
  unfold admittedBody at h
  split at h
  · cases h
  · rename_i hbody
    split at h
    · rename_i hadm
      cases h
      exact ⟨hbody, hadm.1, hadm.2.1⟩
    · cases h

/-- What an iteration leaves when every poll succeeds. -/
lemma threadBody_filledFrom {p : GenParam} (hfake : p.fakePacket = false) {g : GenBuffers}
    {disk : Mem} {th t : GenThread} {env : GenEnv} (h : threadBody p g disk th env = some t)
    (hpoll : ∀ vb < (p.plan (nmRingSpace th.ring)).1, env.poll vb = 0) :
    (nmRingSpace th.ring = 0 ∧ t.fills = []) ∨
      (t.reads.map GenRead.vb = List.range' 0 (p.plan (nmRingSpace th.ring)).1 ∧
        (∀ read ∈ t.reads, read.nblocks = p.nblocks) ∧
        FilledFrom p g disk t.reads (p.plan (nmRingSpace th.ring)).1 (p.plan (nmRingSpace th.ring)).2
          (p.plan (nmRingSpace th.ring)).1 t.bufs t.fills) := by
  obtain ⟨-, -, hmove⟩ := threadBody_move h
  cases hmove with
  | full hspace _ _ hfills => exact .inl ⟨hspace, hfills⟩
  | filled reads hspace hreading hreads hfills hbufs _ =>
    unfold reading at hreading
    rw [hfake, if_neg Bool.false_ne_true] at hreading
    rw [hreads, hfills, hbufs]
    have hvb := submit_vb hreading
    exact .inr ⟨hvb, submit_nblocks hreading, filledFrom_fillLoop hfake g th.ring hvb rfl hpoll⟩

/-- Every slot filled by the last iteration points at a frame that one of its reads has loaded
and store has built, and holds the length of its packet. -/
def HoldsStored (p : GenParam) (g : GenBuffers) (disk : Mem) (frames : List Nat) (len : Nat)
    (t : GenThread) : Prop :=
  ∀ x ∈ t.fills, x.slot.ptr = popVirtToPhys g.mem (g.pkt x.vb x.b) ∧ x.slot.len.toNat = len ∧
    ∃ read ∈ t.reads, read.vb = x.vb ∧ frameSize * (x.b + 1) ≤ read.nblocks * p.blocksize ∧
      read.lba.toNat * p.blocksize + frameSize * x.b ∈ frames ∧
      (∀ i < frameSize, t.bufs x.vb (frameSize * x.b + i) =
        disk (read.lba.toNat * p.blocksize + frameSize * x.b + i)) ∧
      IsFrame (t.bufs x.vb) (frameSize * x.b) len

lemma batchOf_pos (p : GenParam) (nvbatch rest vb : Nat) : 0 < p.batchOf nvbatch rest vb := by
  have hb := p.batch_pos
  unfold GenParam.batchOf
  split <;> omega

section Disk

variable {p : GenParam} {g : GenBuffers} {disk : Mem} {frames : List Nat} {len : Nat}

section Filled

variable {t : GenThread} {nvbatch rest : Nat} (hvbs : t.reads.map GenRead.vb = List.range' 0 nvbatch)
  (hfilled : FilledFrom p g disk t.reads nvbatch rest nvbatch t.bufs t.fills)

include hvbs hfilled

lemma reads_of_holdsStored (haligned : ∀ addr ∈ frames, frameSize ∣ addr)
    (hholds : HoldsStored p g disk frames len t) {read : GenRead} (hmem : read ∈ t.reads) :
    frameSize ∣ read.lba.toNat * p.blocksize ∧
      frameSize * p.batchOf nvbatch rest read.vb ≤ read.nblocks * p.blocksize := by
  -- the frame of slot `b` of this read
  have hslot : ∀ b < p.batchOf nvbatch rest read.vb, frameSize * (b + 1) ≤
      read.nblocks * p.blocksize ∧ frameSize ∣ read.lba.toNat * p.blocksize + frameSize * b := by
    intro b hb
    obtain ⟨x, hx, hxvb, rfl⟩ := hfilled.all read.vb (vb_lt hvbs hmem) b hb
    obtain ⟨-, -, read', hmem', hvb', hlong, hframe, -⟩ := hholds x hx
    obtain rfl := read_unique hvbs hmem' hmem (hvb'.trans hxvb)
    exact ⟨hlong, haligned _ hframe⟩
  have hpos := batchOf_pos p nvbatch rest read.vb
  have hfirst := (hslot 0 hpos).2
  have hlast := (hslot _ (Nat.sub_one_lt_of_lt hpos)).1
  rw [Nat.sub_add_cancel hpos] at hlast
  exact ⟨hfirst, hlast⟩

lemma holdsStored_of_reads (hlen : len < 2 ^ 16)
    (hdisk : ∀ f, frameSize * (f + 1) ≤ p.lbaEnd.toNat * p.blocksize →
      frameSize * f ∈ frames ∧ IsFrame disk (frameSize * f) len)
    (hin : ∀ read ∈ t.reads, read.lba.toNat + read.nblocks ≤ p.lbaEnd.toNat)
    (hreads : ∀ read ∈ t.reads, frameSize ∣ read.lba.toNat * p.blocksize ∧
      frameSize * p.batchOf nvbatch rest read.vb ≤ read.nblocks * p.blocksize) :
    HoldsStored p g disk frames len t := by
  intro x hx
  obtain ⟨hvb, hb, hptr, hxlen⟩ := hfilled.frame x hx
  obtain ⟨read, hmem, hrvb⟩ := exists_read hvbs hvb
  obtain ⟨⟨j, hj⟩, hlong⟩ := hreads read hmem
  rw [← hrvb] at hb
  have hcover : frameSize * (x.b + 1) ≤ read.nblocks * p.blocksize :=
    (Nat.mul_le_mul_left _ hb).trans hlong
  have hend : frameSize * (j + x.b + 1) ≤ p.lbaEnd.toNat * p.blocksize := by
    calc frameSize * (j + x.b + 1) = read.lba.toNat * p.blocksize + frameSize * (x.b + 1) := by
          rw [hj, ← Nat.mul_add, Nat.add_assoc]
      _ ≤ read.lba.toNat * p.blocksize + read.nblocks * p.blocksize := Nat.add_le_add_left hcover _
      _ = (read.lba.toNat + read.nblocks) * p.blocksize := (Nat.add_mul _ _ _).symm
      _ ≤ p.lbaEnd.toNat * p.blocksize := Nat.mul_le_mul_right _ (hin read hmem)
  obtain ⟨hframe, hbuilt⟩ := hdisk (j + x.b) hend
  have haddr : read.lba.toNat * p.blocksize + frameSize * x.b = frameSize * (j + x.b) := by
    rw [hj, Nat.mul_add]
  have hbytes : ∀ i < frameSize, t.bufs x.vb (frameSize * x.b + i) =
      disk (read.lba.toNat * p.blocksize + frameSize * x.b + i) := by
    intro i hi
    rw [← hrvb, hfilled.data read hmem (hrvb ▸ hvb) _ ?_, Nat.add_assoc]
    rw [Nat.mul_add, Nat.mul_one] at hcover
    omega
  have hloaded : IsFrame (t.bufs x.vb) (frameSize * x.b) len :=
    hbuilt.congr fun i hi => haddr ▸ hbytes i hi
  refine ⟨hptr, ?_, read, hmem, hrvb, hcover, haddr ▸ hframe, hbytes, hloaded⟩
  rw [hxlen, hloaded.pktlen, BitVec.toNat_setWidth, BitVec.toNat_ofNat]
  omega

end Filled

end Disk

/-! ### Options -/

/-- A batch is whole blocks or fits into one. Frames are whole blocks as well, or a sequential walk
starts at a frame in every thread. -/
def FramesAgree (p : GenParam) : Prop :=
  (p.blocksize ∣ frameSize * p.batch ∨ frameSize * p.batch ≤ p.blocksize) ∧
    (frameSize ∣ p.blocksize ∨ p.walk = .seq ∧ (p.ncpus = 1 ∨ frameSize ∣ width p * p.blocksize))

instance (p : GenParam) : Decidable (FramesAgree p) := by
  unfold FramesAgree
  infer_instance

section Options

variable {p : GenParam}

lemma batch_shift (p : GenParam) : p.batch <<< 11 = frameSize * p.batch := by
  rw [Nat.shiftLeft_eq, Nat.mul_comm]
  rfl

/-- A read is long enough for a batch. -/
lemma whole_iff (p : GenParam) : frameSize * p.batch ≤ p.nblocks * p.blocksize ↔
    p.blocksize ∣ frameSize * p.batch ∨ frameSize * p.batch ≤ p.blocksize := by
  unfold GenParam.nblocks
  rw [batch_shift]
  by_cases hle : p.blocksize ≤ frameSize * p.batch
  · rw [if_pos hle, Nat.shiftRight_eq_div_pow]
    have hdown : frameSize * p.batch / p.blocksize * p.blocksize ≤ frameSize * p.batch :=
      Nat.div_mul_le_self _ _
    constructor
    · intro hlong
      exact .inl (Dvd.intro_left _ (le_antisymm hdown hlong))
    · rintro (hdvd | hone)
      · exact (Nat.div_mul_cancel hdvd).ge
      · have heq : p.blocksize = frameSize * p.batch := le_antisymm hle hone
        exact (Nat.div_mul_cancel heq.dvd).ge
  · rw [if_neg hle, Nat.one_mul]
    exact ⟨.inr, fun _ => (not_le.mp hle).le⟩

lemma nblocks_pos (p : GenParam) : 1 ≤ p.nblocks := by
  unfold GenParam.nblocks
  split
  · rename_i hle
    rw [Nat.shiftRight_eq_div_pow]
    exact (Nat.one_le_div_iff (Nat.two_pow_pos _)).mpr hle
  · exact le_refl _

/-- Reads of blocks smaller than a frame are exactly a batch. -/
lemma nblocks_frames (hsmall : ¬frameSize ∣ p.blocksize) :
    p.nblocks * p.blocksize = frameSize * p.batch := by
  have hframe : frameSize = 2 ^ 11 := rfl
  have hshift : p.blockshift ≤ 11 := by
    by_contra hlarge
    exact hsmall (hframe ▸ Nat.pow_dvd_pow 2 (by omega))
  have hdvd : p.blocksize ∣ frameSize * p.batch :=
    Nat.dvd_mul_right_of_dvd (hframe ▸ Nat.pow_dvd_pow 2 hshift) _
  have hpos : 0 < frameSize * p.batch := Nat.mul_pos (by decide) p.batch_pos
  unfold GenParam.nblocks
  rw [batch_shift, if_pos (Nat.le_of_dvd hpos hdvd), Nat.shiftRight_eq_div_pow]
  exact Nat.div_mul_cancel hdvd

section Zero

variable (hzero : p.lbaStart = 0)

include hzero

lemma width_from_zero : (p.lbaEnd - p.lbaStart).toNat / p.ncpus = width p := by
  unfold width
  rw [hzero]
  have hnone : p.lbaEnd - 0 = p.lbaEnd := BitVec.sub_zero _
  have hnat : (0 : BitVec 64).toNat = 0 := rfl
  rw [hnone, hnat, Nat.sub_zero]

lemma toNat_range {n : Nat} (hn : n < p.ncpus) :
    (p.range n).1.toNat = width p * n ∧ (p.range n).2.toNat = width p * n + width p := by
  rw [genRange_length p hn, (genRange_toNat p hn).1, width_from_zero hzero]
  exact ⟨rfl, rfl⟩

/-- The walk of a thread goes from frame to frame. -/
lemma FramesAgree.walk (h : FramesAgree p) {n : Nat} (hn : n < p.ncpus) :
    frameSize ∣ (p.range n).1.toNat * p.blocksize ∧
      ∀ lba rand lba', frameSize ∣ lba.toNat * p.blocksize →
        generatorWalk p.walk (p.range n).1 (p.range n).2 (BitVec.ofNat 64 p.nblocks) lba rand =
          some lba' →
        frameSize ∣ lba'.toNat * p.blocksize := by
  by_cases hblock : frameSize ∣ p.blocksize
  · exact ⟨Nat.dvd_mul_left_of_dvd hblock _, fun _ _ _ _ _ => Nat.dvd_mul_left_of_dvd hblock _⟩
  · obtain ⟨hseq, hcpus⟩ := h.2.resolve_left hblock
    have hstart : frameSize ∣ (p.range n).1.toNat * p.blocksize := by
      rw [(toNat_range hzero hn).1]
      rcases hcpus with hone | hdvd
      · have hfirst : n = 0 := by omega
        simp [hfirst]
      · rw [Nat.mul_right_comm]
        exact Nat.dvd_mul_right_of_dvd hdvd _
    refine ⟨hstart, ?_⟩
    intro lba rand lba' hlba hnext
    rw [generatorWalk, hseq, Generator.nextLba, Option.some.injEq] at hnext
    split at hnext
    · rw [← hnext, BitVec.toNat_add, toNat_genNblocks]
      apply frameSize_dvd_wrap
      rw [Nat.add_mul, nblocks_frames hblock]
      exact Nat.dvd_add hlba (Nat.dvd_mul_right _ _)
    · rwa [← hnext]

end Zero

end Options

/-! ### Iterations over a whole ring -/

/-- The walk has room for `m` more commands and the one after them. -/
structure WalkRoom (p : GenParam) (lbaStart lbaEnd : BitVec 64) (m : Nat)
    (lba : BitVec 64) : Prop where
  long : lbaStart.toNat + p.nblocks < lbaEnd.toNat
  here : lba.toNat + p.nblocks ≤ lbaEnd.toNat
  ahead : p.walk = .seq → lba.toNat + (m + 1) * p.nblocks ≤ lbaEnd.toNat

section Walk

variable {p : GenParam} {lbaStart lbaEnd lba : BitVec 64} {m : Nat}

lemma WalkRoom.next (h : WalkRoom p lbaStart lbaEnd (m + 1) lba) (rand : BitVec 31) :
    ∃ lba', generatorWalk p.walk lbaStart lbaEnd (BitVec.ofNat 64 p.nblocks) lba rand = some lba' ∧
      WalkRoom p lbaStart lbaEnd m lba' := by
  have hblocks := toNat_genNblocks p
  have hpos := nblocks_pos p
  have hlong := h.long
  cases hwalk : p.walk with
  | seq =>
    have hahead := h.ahead hwalk
    have hmany : (m + 1 + 1) * p.nblocks = (m + 1) * p.nblocks + p.nblocks := Nat.succ_mul _ _
    have hone : 1 * p.nblocks ≤ (m + 1) * p.nblocks := Nat.mul_le_mul_right _ (Nat.le_add_left 1 m)
    have hmore : lba.toNat + (BitVec.ofNat 64 p.nblocks).toNat < lbaEnd.toNat := by
      rw [hblocks]
      omega
    obtain ⟨lba', hnext, hto⟩ := generatorWalk_forward lbaStart rand hmore
    rw [hblocks] at hto
    exact ⟨lba', hnext, h.long, by omega, fun _ => by omega⟩
  | random =>
    rw [← hblocks] at hlong
    obtain ⟨hne, -, hin⟩ := random_inside rand hlong
    refine ⟨_, by rw [generatorWalk, Generator.nextLba, if_neg hne], h.long, hblocks ▸ hin, ?_⟩
    intro hseq
    rw [hwalk] at hseq
    cases hseq

/-- With room for them all commands are issued and end in the range. -/
lemma WalkRoom.submit (h : WalkRoom p lbaStart lbaEnd m lba) (rand : Nat → BitVec 31) (vb : Nat) :
    ∃ reads last, submit p lbaStart lbaEnd rand vb m lba = some (reads, last) ∧
      ∀ read ∈ reads, read.lba.toNat + read.nblocks ≤ lbaEnd.toNat := by
  induction m generalizing lba vb with
  | zero => exact ⟨[], lba, rfl, by simp⟩
  | succ m ih =>
    obtain ⟨next, hnext, hroom⟩ := h.next (rand vb)
    obtain ⟨reads, last, hrest, hin⟩ := ih hroom (vb + 1)
    have hnext' : Generator.nextLba p.walk lba lbaStart lbaEnd (BitVec.ofNat 64 p.nblocks) (rand vb) =
        some next := hnext
    refine ⟨⟨vb, lba, p.nblocks⟩ :: reads, last, ?_, List.forall_mem_cons.mpr ⟨h.here, hin⟩⟩
    rw [Generator.submit, hnext']
    dsimp only
    rw [hrest]

/-- From a range that starts at 0, `rand()` takes a random walk to the LBA it returns. -/
lemma random_to_one {nblocks lba' : BitVec 64} (hstart : lbaStart.toNat = 0)
    (hlong : nblocks.toNat + 1 < lbaEnd.toNat)
    (h : generatorWalk .random lbaStart lbaEnd nblocks lba 1 = some lba') : lba' = 1 := by
  have hrange := @toNat_random_range lbaStart lbaEnd nblocks (by omega)
  rw [generatorWalk, Generator.nextLba] at h
  split at h
  · cases h
  · obtain rfl := Option.some.inj h
    apply BitVec.eq_of_toNat_eq
    have hone : ((1 : BitVec 31).setWidth 64).toNat = 1 := rfl
    have hrest : 1 % (lbaEnd.toNat - lbaStart.toNat - nblocks.toNat) = 1 :=
      Nat.mod_eq_of_lt (by omega)
    rw [BitVec.toNat_add, BitVec.toNat_umod, hone, hrange, hrest, hstart]
    rfl

/-- The first command is at the LBA where the loop starts, and the walk ends with a call of `next_lba`. -/
lemma submit_ends {rand : Nat → BitVec 31} {vb n : Nat} {last : BitVec 64} {reads : List GenRead}
    (h : submit p lbaStart lbaEnd rand vb (n + 1) lba = some (reads, last)) :
    ⟨vb, lba, p.nblocks⟩ ∈ reads ∧
      ∃ lba', generatorWalk p.walk lbaStart lbaEnd (BitVec.ofNat 64 p.nblocks) lba' (rand (vb + n)) =
        some last := by
  induction n generalizing vb lba reads with
  | zero =>
    unfold submit at h
    split at h
    · cases h
    · rename_i hnext
      cases h
      exact ⟨List.mem_cons_self, lba, hnext⟩
  | succ n ih =>
    rw [Generator.submit] at h
    split at h
    · cases h
    · split at h
      · cases h
      · rename_i hrest
        cases h
        obtain ⟨-, lba', hlast⟩ := ih hrest
        rw [Nat.add_right_comm] at hlast
        exact ⟨List.mem_cons_self, lba', hlast⟩

end Walk

/-- The answers of a system in which every poll succeeds. -/
def polled (rand : BitVec 31) (tail : Nat) : GenEnv :=
  ⟨fun _ => rand, fun _ => 0, some tail⟩

/-- A running thread that finds the free slots of a whole iteration, and room for its commands. -/
structure FullIteration (p : GenParam) (th : GenThread) : Prop where
  running : th.running = true
  head : th.ring.head < th.ring.numSlots
  space : nmRingSpace th.ring = p.bpkts
  room : WalkRoom p th.lbaStart th.lbaEnd p.nvbatch th.lba
  range : th.lbaEnd.toNat ≤ p.lbaEnd.toNat

section FullRing

variable {p : GenParam} (g : GenBuffers) (disk : Mem) {th : GenThread}

lemma plan_bpkts (p : GenParam) : p.plan p.bpkts = (p.nvbatch, 0) :=
  if_pos (le_refl _)

lemma bpkts_pos (p : GenParam) : 0 < p.bpkts :=
  Nat.mul_pos p.batch_pos p.nvbatch_pos

/-- A sync that succeeds after a whole iteration gives the ring a new tail. -/
lemma syncOut_full (rand : BitVec 31) (tail npkts nbytes ncmds nbytesNvme : Nat) (th : GenThread) :
    (syncOut p (polled rand tail) p.bpkts npkts nbytes ncmds nbytesNvme th).ring =
      { th.ring with tail := tail } ∧
      (syncOut p (polled rand tail) p.bpkts npkts nbytes ncmds nbytesNvme th).running =
        th.running := by
  unfold syncOut
  rw [if_neg (lt_irrefl _)]
  exact ⟨rfl, rfl⟩

/-- All commands are issued, and the ring has as many slots as before. -/
lemma FullIteration.body (h : FullIteration p th) (hfake : p.fakePacket = false) (rand : BitVec 31)
    (tail : Nat) :
    ∃ t, threadBody p g disk th (polled rand tail) = some t ∧ t.running = true ∧
      t.ring.numSlots = th.ring.numSlots ∧ t.ring.cur = t.ring.head ∧ t.ring.tail = tail ∧
      submit p th.lbaStart th.lbaEnd (fun _ => rand) 0 p.nvbatch th.lba = some (t.reads, t.lba) ∧
      ∀ read ∈ t.reads, read.lba.toNat + read.nblocks ≤ th.lbaEnd.toNat := by
  obtain ⟨reads, last, hsubmit, hin⟩ := h.room.submit (fun _ => rand) 0
  have hspace : nmRingSpace th.ring ≠ 0 := h.space ▸ (bpkts_pos p).ne'
  have hgo : ¬th.running = false := by simp [h.running]
  unfold threadBody
  rw [if_neg hgo]
  dsimp only
  rw [if_neg hspace, h.space, plan_bpkts, hfake, if_neg Bool.false_ne_true]
  have hsubmit' : submit p th.lbaStart th.lbaEnd (polled rand tail).rand 0 p.nvbatch th.lba =
      some (reads, last) := hsubmit
  dsimp only
  rw [hsubmit']
  dsimp only
  refine ⟨_, rfl, ?_⟩
  generalize hfilled : fillLoop p g th.ring disk reads (polled rand tail).poll p.nvbatch 0 _ p.nvbatch = f
  have hkept := syncOut_kept p (polled rand tail) p.bpkts f.fills.length f.nbytes f.ncmds
    (reads.length * (p.nblocks <<< p.blockshift))
    { th with lba := last, reads := reads, fills := f.fills, bufs := f.bufs
              ring := { th.ring with head := f.head, cur := f.head, slot := f.slot } }
  obtain ⟨hring, hrun⟩ := syncOut_full (p := p) rand tail f.fills.length f.nbytes f.ncmds
    (reads.length * (p.nblocks <<< p.blockshift))
    { th with lba := last, reads := reads, fills := f.fills, bufs := f.bufs
              ring := { th.ring with head := f.head, cur := f.head, slot := f.slot } }
  rw [hring, hrun, hkept.reads, hkept.lba]
  exact ⟨h.running, rfl, rfl, rfl, hsubmit, hin⟩

/-- The iteration is one of those in question, and ends with the head a whole iteration further. -/
lemma FullIteration.admitted (h : FullIteration p th) (hfake : p.fakePacket = false)
    (rand : BitVec 31) (tail : Nat) :
    ∃ t, admittedBody p g disk th (polled rand tail) = some t ∧ t.running = true ∧
      t.ring.numSlots = th.ring.numSlots ∧
        t.ring.head = (th.ring.head + p.bpkts) % th.ring.numSlots ∧
      t.ring.cur = t.ring.head ∧ t.ring.tail = tail ∧
      submit p th.lbaStart th.lbaEnd (fun _ => rand) 0 p.nvbatch th.lba =
        some (t.reads, t.lba) := by
  obtain ⟨t, ht, hrun, hslots, hcur, htail, hsubmit, hin⟩ := h.body g disk hfake rand tail
  have hspace : 0 < nmRingSpace th.ring := h.space ▸ bpkts_pos p
  obtain ⟨hlen, hhead⟩ := threadBody_fills (Nat.zero_lt_of_lt h.head) h.head hspace ht
  have hover : ¬Overfills p p.bpkts (polled rand tail).poll := fun hover => lt_irrefl _ hover.1
  obtain ⟨-, hall⟩ := (planned_iff p p.bpkts _).mpr hover
  have hfills : t.fills.length = p.bpkts := by
    rw [hlen, h.space, hall fun _ _ => rfl]
    exact min_self _
  have hfree : t.fills.length ≤ nmRingSpace th.ring := (hfills.trans h.space.symm).le
  refine ⟨t, ?_, hrun, hslots, hfills ▸ hhead, hcur, htail, hsubmit⟩
  unfold admittedBody
  rw [ht]
  exact if_pos ⟨fun _ _ => rfl, fun read hread => (hin read hread).trans h.range, hfree⟩

/-- When its slots hold frames, the first command of a whole iteration is at a frame and long enough. -/
lemma FullIteration.frames (h : FullIteration p th) (hfake : p.fakePacket = false)
    {rand : BitVec 31} {tail : Nat} {t : GenThread}
    (ht : admittedBody p g disk th (polled rand tail) = some t) {frames : List Nat} {len : Nat}
    (haligned : ∀ addr ∈ frames, frameSize ∣ addr) (hholds : HoldsStored p g disk frames len t)
    (hsubmit : submit p th.lbaStart th.lbaEnd (fun _ => rand) 0 p.nvbatch th.lba = some (t.reads, t.lba)) :
    frameSize ∣ th.lba.toNat * p.blocksize ∧ frameSize * p.batch ≤ p.nblocks * p.blocksize := by
  obtain ⟨hbody, hpoll, -⟩ := admittedBody_some ht
  obtain ⟨nvbatch, hnv⟩ := Nat.exists_eq_add_of_le' p.nvbatch_pos
  have hfirst : ⟨0, th.lba, p.nblocks⟩ ∈ t.reads := by
    rw [hnv] at hsubmit
    exact (submit_ends hsubmit).1
  rcases threadBody_filledFrom hfake hbody hpoll with ⟨hfull, -⟩ | ⟨hvbs, -, hfilled⟩
  · rw [h.space] at hfull
    exact absurd hfull (bpkts_pos p).ne'
  · obtain ⟨hstart, hlong⟩ := reads_of_holdsStored hvbs hfilled haligned hholds hfirst
    rw [h.space, plan_bpkts] at hlong
    exact ⟨hstart, hlong⟩

end FullRing

/-! ### Runs -/

/-- Every thread fills its slots with frames of store, in every iteration in question. -/
def SendsStored (p : GenParam) (g : GenBuffers) (disk : Mem) (frames : List Nat)
    (len : Nat) : Prop :=
  ∀ n < p.ncpus, ∀ ring bufs envs,
    Throughout (admittedBody p g disk) (HoldsStored p g disk frames len) (spawn p n ring bufs) envs

/-- A ring with the free slots of a whole iteration. -/
def freeRing (p : GenParam) : NetmapRing :=
  ⟨p.bpkts + 1, 0, 0, p.bpkts, fun _ => ⟨0, 0, 0⟩⟩

section Runs

variable {p : GenParam} (hfake : p.fakePacket = false) (hzero : p.lbaStart = 0)
  {g : GenBuffers} {disk : Mem} {frames : List Nat} {len : Nat}

include hfake hzero

lemma sendsStored_of_framesAgree (h : FramesAgree p) (hlen : len < 2 ^ 16)
    (hdisk : ∀ f, frameSize * (f + 1) ≤ p.lbaEnd.toNat * p.blocksize →
      frameSize * f ∈ frames ∧ IsFrame disk (frameSize * f) len) : SendsStored p g disk frames len := by
  intro n hn ring bufs envs
  obtain ⟨hstart, hwalk⟩ := h.walk hzero hn
  have hlong := (whole_iff p).mpr h.1
  have hstep : ∀ th env t, Walked p n (fun lba => frameSize ∣ lba.toNat * p.blocksize) th ∧
      HoldsStored p g disk frames len th → True → admittedBody p g disk th env = some t →
      Walked p n (fun lba => frameSize ∣ lba.toNat * p.blocksize) t ∧ HoldsStored p g disk frames len t := by
    intro th env t hth _ ht
    obtain ⟨hbody, hpoll, hin⟩ := admittedBody_some ht
    have hwalked := walked_step hwalk th env t hth.1 hbody
    refine ⟨hwalked, ?_⟩
    rcases threadBody_filledFrom hfake hbody hpoll with ⟨-, hnil⟩ | ⟨hvbs, hblocks, hfilled⟩
    · unfold HoldsStored
      rw [hnil]
      simp
    · refine holdsStored_of_reads hvbs hfilled hlen hdisk hin
        fun read hread => ⟨hwalked.reads read hread, ?_⟩
      rw [hblocks read hread]
      exact (Nat.mul_le_mul_left _ (batchOf_le p _ _)).trans hlong
  have hinit : Walked p n (fun lba => frameSize ∣ lba.toNat * p.blocksize) (spawn p n ring bufs) :=
    ⟨rfl, rfl, hstart, by simp [spawn]⟩
  exact throughout_of_guarded (fun _ h => h.2) hstep
    ⟨hinit, by simp [HoldsStored, spawn]⟩ (guarded_true _ envs)

omit hfake in
/-- Every thread has a first whole iteration. -/
lemma fullIteration_spawn (hroom : (p.nvbatch + 2) * p.nblocks ≤ width p) {n : Nat}
    (hn : n < p.ncpus) (bufs : Nat → Mem) : FullIteration p (spawn p n (freeRing p) bufs) := by
  obtain ⟨hstart, hend⟩ := toNat_range hzero hn
  have hpos := nblocks_pos p
  rw [Nat.add_mul] at hroom
  have hlast : width p * n + width p ≤ p.lbaEnd.toNat := by
    have hmul : width p * (n + 1) ≤ width p * p.ncpus := Nat.mul_le_mul_left _ hn
    have hall : width p * p.ncpus ≤ p.lbaEnd.toNat - p.lbaStart.toNat := Nat.div_mul_le_self _ _
    rw [Nat.mul_succ] at hmul
    omega
  refine ⟨rfl, Nat.succ_pos _, ?_, ⟨?_, ?_, ?_⟩, ?_⟩
  · simp [spawn, freeRing, nmRingSpace, NetmapRing.ahead]
  · change (p.range n).1.toNat + p.nblocks < (p.range n).2.toNat
    omega
  · change (p.range n).1.toNat + p.nblocks ≤ (p.range n).2.toNat
    omega
  · intro _
    change (p.range n).1.toNat + (p.nvbatch + 1) * p.nblocks ≤ (p.range n).2.toNat
    rw [Nat.add_mul]
    omega
  · change (p.range n).2.toNat ≤ p.lbaEnd.toNat
    omega

/-- A random walk takes the first thread from block 0 to block 1, for a second whole iteration. -/
lemma random_second_iteration (hroom : (p.nvbatch + 2) * p.nblocks ≤ width p)
    (hwalk : p.walk = .random) (g : GenBuffers) (disk : Mem) (bufs : Nat → Mem) :
    ∃ t, admittedBody p g disk (spawn p 0 (freeRing p) bufs) (polled 1 (p.bpkts - 1)) = some t ∧
      t.lba = 1 ∧ FullIteration p t := by
  have hiter := fullIteration_spawn hzero hroom p.ncpus_pos bufs
  obtain ⟨t, ht, hrun, hslots, hhead, hcur, htail, hsubmit⟩ :=
    hiter.admitted g disk hfake 1 (p.bpkts - 1)
  obtain ⟨hstart, hend, -⟩ := threadBody_move (admittedBody_some ht).1
  obtain ⟨hfrom, hto⟩ := toNat_range hzero p.ncpus_pos
  have hpos := nblocks_pos p
  have hbpkts := bpkts_pos p
  have hmany : (p.nvbatch + 2) * p.nblocks = p.nvbatch * p.nblocks + 2 * p.nblocks :=
    Nat.add_mul _ _ _
  have hone : 1 * p.nblocks ≤ p.nvbatch * p.nblocks := Nat.mul_le_mul_right _ p.nvbatch_pos
  have hslots' : t.ring.numSlots = p.bpkts + 1 := hslots
  have hhead' : t.ring.head = p.bpkts := by
    rw [hhead]
    change (0 + p.bpkts) % (p.bpkts + 1) = p.bpkts
    rw [Nat.zero_add, Nat.mod_eq_of_lt (Nat.lt_succ_self _)]
  have hlba : t.lba = 1 := by
    obtain ⟨nvbatch, hnv⟩ := Nat.exists_eq_add_of_le' p.nvbatch_pos
    rw [hnv] at hsubmit
    obtain ⟨-, lba', hlast⟩ := submit_ends hsubmit
    rw [hwalk] at hlast
    refine random_to_one hfrom ?_ hlast
    rw [toNat_genNblocks]
    change p.nblocks + 1 < (p.range 0).2.toNat
    omega
  refine ⟨t, ht, hlba, hrun, by omega, ?_, ⟨?_, ?_, ?_⟩, ?_⟩
  · unfold nmRingSpace NetmapRing.ahead
    rw [hcur, htail, hhead', if_neg (by omega)]
    omega
  · rw [hstart, hend]
    exact hiter.room.long
  · rw [hlba, hend]
    change 1 + p.nblocks ≤ (p.range 0).2.toNat
    omega
  · intro hseq
    rw [hwalk] at hseq
    cases hseq
  · rw [hend]
    exact hiter.range

lemma framesAgree_of_sendsStored (hroom : (p.nvbatch + 2) * p.nblocks ≤ width p)
    (haligned : ∀ addr ∈ frames, frameSize ∣ addr)
    (h : SendsStored p g disk frames len) : FramesAgree p := by
  -- the first command of every thread
  have hfirst : ∀ n < p.ncpus, frameSize ∣ (p.range n).1.toNat * p.blocksize ∧
      frameSize * p.batch ≤ p.nblocks * p.blocksize := by
    intro n hn
    have hiter := fullIteration_spawn hzero hroom hn fun _ _ => 0
    obtain ⟨t, ht, -, -, -, -, -, hsubmit⟩ := hiter.admitted g disk hfake 0 0
    have hholds := (h n hn (freeRing p) (fun _ _ => 0) [polled 0 0]).last ((exec_cons ht).mpr rfl)
    exact hiter.frames g disk hfake ht haligned hholds hsubmit
  refine ⟨(whole_iff p).mp (hfirst 0 p.ncpus_pos).2, ?_⟩
  by_cases hblock : frameSize ∣ p.blocksize
  · exact .inl hblock
  · right
    constructor
    · cases hwalk : p.walk with
      | seq => rfl
      | random =>
        obtain ⟨t, ht, hlba, hiter⟩ :=
          random_second_iteration hfake hzero hroom hwalk g disk fun _ _ => 0
        obtain ⟨u, hu, -, -, -, -, -, hsubmit⟩ := hiter.admitted g disk hfake 0 0
        have hrun : exec (admittedBody p g disk) (spawn p 0 (freeRing p) fun _ _ => 0)
            [polled 1 (p.bpkts - 1), polled 0 0] = some u := (exec_cons ht).mpr ((exec_cons hu).mpr rfl)
        have hholds := (h 0 p.ncpus_pos (freeRing p) (fun _ _ => 0) _).last hrun
        have hstart := (hiter.frames g disk hfake hu haligned hholds hsubmit).1
        have hone : (1 : BitVec 64).toNat = 1 := rfl
        rw [hlba, hone, Nat.one_mul] at hstart
        exact absurd hstart hblock
    · by_cases hone : p.ncpus = 1
      · exact .inl hone
      · have hcpus := p.ncpus_pos
        have hsecond := (hfirst 1 (by omega)).1
        rw [(toNat_range hzero (by omega)).1, Nat.mul_one] at hsecond
        exact .inr hsecond

end Runs

/-- Over a disk that a finished run of store has written from block 0 on, every thread of generator
fills its slots with frames of store when the options agree. They have to, as soon as there are
blocks for the commands of one iteration and two more. -/
theorem generator_sends_stored_iff {sp : Store.StoreParam} (hshift : sp.blockshift < 32)
    (hstart : sp.lbaStart = 0) {s₀ s : Store.StoreState} (hstarts : Starts sp s₀) {rets : List Int}
    (hstore : exec (Store.storeStep sp) s₀ rets = some s) (hdone : ¬s.lba < sp.lbaEnd)
    {p : GenParam} (hblock : p.blockshift = sp.blockshift) (hzero : p.lbaStart = 0)
    (hend : p.lbaEnd = sp.lbaEnd) (hfake : p.fakePacket = false) (g : GenBuffers) :
    (FramesAgree p → SendsStored p g s.disk s.frames sp.pktlen) ∧
      ((p.nvbatch + 2) * p.nblocks ≤ width p →
        SendsStored p g s.disk s.frames sp.pktlen → FramesAgree p) := by
  have hint : 0 ≤ sp.nblocks.toInt := (starts_iff hshift).mp ⟨s₀, hstarts⟩
  obtain ⟨pbuf, disk, rfl⟩ := hstarts.init
  obtain ⟨hframes, haligned⟩ := store_frames hstart hint hstore hdone
  have hlen := sp.pktlen_le
  rw [← hend, ← hblock] at hframes
  exact ⟨fun h => sendsStored_of_framesAgree hfake hzero h (by omega) hframes,
    fun hroom => framesAgree_of_sendsStored hfake hzero hroom haligned⟩

/-! ### A disk of four frames -/

/-- Two passes of store, each with two frames of 64 bytes. -/
def twoPasses (blockshift : Nat) (lbaEnd : BitVec 64) : Store.StoreParam :=
  .ofBatch 2 lbaEnd blockshift (by decide)

/-- One command of `batch` frames at a time, over the blocks that store has written. -/
def oneRead (batch blockshift : Nat) (lbaEnd : BitVec 64) (hpos : 1 ≤ batch)
    (hle : batch ≤ 32) : GenParam :=
  .ofOptions batch 1 1 .seq 0 lbaEnd false blockshift ⟨⟨hpos, hle⟩, by decide⟩

def emptyRing : NetmapRing :=
  ⟨8, 0, 0, 7, fun _ => ⟨0, 0, 0⟩⟩

lemma twoPasses_starts (blockshift : Nat) (lbaEnd : BitVec 64)
    (hint : 0 ≤ (twoPasses blockshift lbaEnd).nblocks.toInt) :
    Starts (twoPasses blockshift lbaEnd)
      (Store.storeInit (twoPasses blockshift lbaEnd) (fun _ => 0) fun _ => 0) :=
  starts_large hint _ _

/-- Blocks of 512 bytes, a batch of two: both reads are two whole frames. -/
theorem generator_sends_stored_two :
    ∃ s, exec (Store.storeStep (twoPasses 9 16)) (Store.storeInit (twoPasses 9 16) (fun _ => 0) (fun _ => 0))
        [0, 0] = some s ∧
      SendsStored (oneRead 2 9 16 (by decide) (by decide)) twoByTwoBuffers s.disk s.frames 64 := by
  obtain ⟨s, hs⟩ : ∃ s, exec (Store.storeStep (twoPasses 9 16))
      (Store.storeInit (twoPasses 9 16) (fun _ => 0) (fun _ => 0)) [0, 0] = some s := ⟨_, rfl⟩
  have hdone : ¬s.lba < (twoPasses 9 16).lbaEnd := by
    cases hs
    decide
  refine ⟨s, hs, ?_⟩
  exact (generator_sends_stored_iff (by decide) rfl (twoPasses_starts 9 16 (by decide)) hs hdone
    rfl rfl rfl rfl
    twoByTwoBuffers).1 (by decide)

/-- Blocks of 4 KiB, a batch of three: one block is read for three slots, and the third slot
points behind it. -/
theorem generator_sends_unread_frame :
    Starts (twoPasses 12 2) (Store.storeInit (twoPasses 12 2) (fun _ => 0) fun _ => 0) ∧
      EvenBatches (twoPasses 12 2) ∧
      ∃ s, exec (Store.storeStep (twoPasses 12 2))
        (Store.storeInit (twoPasses 12 2) (fun _ => 0) (fun _ => 0))
        [0, 0] = some s ∧ ¬s.lba < (twoPasses 12 2).lbaEnd ∧
      (exec (admittedBody (oneRead 3 12 2 (by decide) (by decide)) twoByTwoBuffers s.disk)
        (spawn (oneRead 3 12 2 (by decide) (by decide)) 0 emptyRing (fun _ _ => 0)) [allPolled]).map
          (fun t => (t.reads, t.fills.map fun x => (x.vb, x.b), t.fills[2]?.map fun x => x.slot.len)) =
        some ([⟨0, 0, 1⟩], [(0, 0), (0, 1), (0, 2)], some 0) ∧
      ¬SendsStored (oneRead 3 12 2 (by decide) (by decide)) twoByTwoBuffers s.disk s.frames 64 := by
  obtain ⟨s, hs⟩ : ∃ s, exec (Store.storeStep (twoPasses 12 2))
      (Store.storeInit (twoPasses 12 2) (fun _ => 0) (fun _ => 0)) [0, 0] = some s := ⟨_, rfl⟩
  have heven : EvenBatches (twoPasses 12 2) := ⟨rfl, by decide, by decide, by decide, by decide⟩
  have hdone : ¬s.lba < (twoPasses 12 2).lbaEnd := by
    cases hs
    decide
  have hrun : (exec (admittedBody (oneRead 3 12 2 (by decide) (by decide)) twoByTwoBuffers s.disk)
      (spawn (oneRead 3 12 2 (by decide) (by decide)) 0 emptyRing (fun _ _ => 0)) [allPolled]).map
        (fun t => (t.reads, t.fills.map fun x => (x.vb, x.b), t.fills[2]?.map fun x => x.slot.len)) =
      some ([⟨0, 0, 1⟩], [(0, 0), (0, 1), (0, 2)], some 0) := by
    cases hs
    decide +kernel
  refine ⟨twoPasses_starts 12 2 (by decide), heven, s, hs, hdone, hrun, fun hsends => ?_⟩
  refine not_throughout_of_map hrun ?_ (hsends 0 (by decide) emptyRing (fun _ _ => 0) [allPolled])
  intro t ht hholds
  obtain ⟨hreads, hrest⟩ := Prod.mk.inj ht
  have hthird : (0, 2) ∈ t.fills.map fun x => (x.vb, x.b) := by
    rw [(Prod.mk.inj hrest).1]
    decide
  obtain ⟨x, hx, hxb⟩ := List.mem_map.mp hthird
  obtain ⟨-, -, read, hmem, -, hlong, -⟩ := hholds x hx
  rw [hreads, List.mem_singleton] at hmem
  rw [hmem, (Prod.mk.inj hxb).2] at hlong
  exact absurd hlong (by decide)

end Libpop.Proofs
