import Libpop.Mb
import Libpop.Proofs.BufferAllocation

/-!
# The copies of mb

Every iteration of a copy loop computes its target from `nwrite` where it should use `i`. All
copies of a run go to or come from the block behind the bytes that were put in the buffer, and
none touches them. The source has `nwrite` bytes and `size` of them are copied.
-/

namespace Libpop.Proofs
open Mb

/-- The options for which the products of `main` are `int` values and there is something to copy. -/
structure MbAdmitted (p : MbParam) : Prop where
  nwrite : 1 ≤ p.nwrite.toInt
  nloop : 1 ≤ p.nloop.toInt
  size : 1 ≤ p.size.toInt
  product : p.size.toInt * p.nwrite.toInt < 2 ^ 31

/-- A `memcpy` by its two sides: pop memory and the source allocation. -/
structure Copy where
  target : BitVec 64
  source : BitVec 64
  len : BitVec 64

def MemOp.copy? (dir : Direction) : MemOp → Option Copy
  | .memcpy dst src len => match dir with
    | .write => some ⟨dst, src, len⟩
    | .read => some ⟨src, dst, len⟩
  | .clflushopt _ => none

def copies (dir : Direction) (loop : List MemOp) : List Copy :=
  loop.filterMap (MemOp.copy? dir)

/-- The copy has a byte in common with block `i` of the buffer at `addr`. -/
def Copy.touches (c : Copy) (p : MbParam) (addr : BitVec 64) (i : Nat) : Bool :=
  decide (i * p.size.toNat < (c.target - addr).toNat + c.len.toNat ∧
    (c.target - addr).toNat < (i + 1) * p.size.toNat)

def TargetsInside (p : MbParam) (addr src : BitVec 64) (len : Nat) : Prop :=
  ∀ loop ∈ mbRun p addr src, ∀ c ∈ copies p.dir loop, Word.span c.target c.len.toNat ⊆ Word.span addr len

def SourcesInside (p : MbParam) (addr src : BitVec 64) : Prop :=
  ∀ loop ∈ mbRun p addr src, ∀ c ∈ copies p.dir loop,
    Word.span c.source c.len.toNat ⊆ Word.span src p.nwrite.toNat

structure CopiesInside (p : MbParam) (addr src : BitVec 64) : Prop where
  targets : TargetsInside p addr src (p.nwrite.toNat * p.size.toNat)
  sources : SourcesInside p addr src
  blocks : ∀ loop ∈ mbRun p addr src, ∀ i < p.nwrite.toNat,
    (copies p.dir loop).countP (·.touches p addr i) = 1

/-! ### The copy that is made -/

/-- The copy of every iteration. -/
def iterationCopy (p : MbParam) (addr src : BitVec 64) : Copy :=
  ⟨addr + (p.nwrite * p.size).signExtend 64, src, p.size.signExtend 64⟩

lemma copies_clflushOpt (dir : Direction) (addr nline : BitVec 64) :
    copies dir (clflushOpt addr nline) = [] := by
  unfold copies clflushOpt
  rw [List.filterMap_map, List.filterMap_eq_nil_iff]
  intro li _
  rfl

lemma copies_mbCopy (p : MbParam) (addr src : BitVec 64) :
    copies p.dir (mbCopy p addr src) = [iterationCopy p addr src] := by
  have hflush : ∀ dir target, copies dir
      (if p.hugepage then clflushOpt target (p.nline.signExtend 64) else []) = [] := by
    intro dir target
    split
    · exact copies_clflushOpt dir target _
    · rfl
  unfold mbCopy
  cases p.dir with
  | write => exact congrArg (iterationCopy p addr src :: ·) (hflush .write _)
  | read =>
    exact List.filterMap_append.trans (congrArg (· ++ [iterationCopy p addr src]) (hflush .read _))

lemma copies_mbLoop (p : MbParam) (addr src : BitVec 64) :
    copies p.dir (mbLoop p addr src) =
      List.replicate p.nwrite.toInt.toNat (iterationCopy p addr src) := by
  unfold copies mbLoop
  rw [List.filterMap_flatMap]
  have hbody :
      (fun _ : Nat => (mbCopy p addr src).filterMap (MemOp.copy? p.dir)) =
        fun _ => [iterationCopy p addr src] :=
    funext fun _ => copies_mbCopy p addr src
  rw [hbody, ← List.map_eq_flatMap, List.map_const', List.length_range]

/-! ### Options without overflow -/

lemma toNat_eq_toInt {x : BitVec 32} (h : 1 ≤ x.toInt) : (x.toNat : Int) = x.toInt := by
  have hlow := mt BitVec.toInt_neg_iff.mpr (by omega : ¬x.toInt < 0)
  exact (BitVec.toInt_eq_toNat_of_lt (not_le.mp hlow)).symm

section Admitted

variable {p : MbParam} (h : MbAdmitted p)
include h

lemma MbAdmitted.positive : 0 < p.nwrite.toNat ∧ 0 < p.nloop.toInt.toNat ∧ 0 < p.size.toNat := by
  have hnwrite := toNat_eq_toInt h.nwrite
  have hsize := toNat_eq_toInt h.size
  have hnwrite1 := h.nwrite
  have hnloop1 := h.nloop
  have hsize1 := h.size
  refine ⟨by omega, by omega, by omega⟩

lemma MbAdmitted.product_lt : p.nwrite.toNat * p.size.toNat < 2 ^ 31 := by
  have hprod := h.product
  rw [← toNat_eq_toInt h.nwrite, ← toNat_eq_toInt h.size, mul_comm] at hprod
  exact_mod_cast hprod

lemma MbAdmitted.size_lt : p.size.toNat < 2 ^ 31 :=
  (Nat.le_mul_of_pos_left _ h.positive.1).trans_lt h.product_lt

lemma MbAdmitted.toNat_len : (p.size.signExtend 64).toNat = p.size.toNat := by
  have hlt := h.size_lt
  exact Word.toNat_signExtend_of_lt (by decide) (by omega)

/-- The products of the two `int` values do not overflow. -/
lemma MbAdmitted.toNat_offset :
    ((p.nwrite * p.size).signExtend 64).toNat = p.nwrite.toNat * p.size.toNat := by
  have hlt := h.product_lt
  exact Word.toNat_signExtend_mul (by decide) (by omega)

lemma MbAdmitted.toNat_poplen : p.poplen.toNat = p.nwrite.toNat * p.size.toNat := by
  unfold MbParam.poplen
  rw [BitVec.mul_comm, h.toNat_offset]

/-! ### Where the copies go -/

lemma copies_of_mem_mbRun {addr src : BitVec 64} {loop : List MemOp}
    (hl : loop ∈ mbRun p addr src) :
    copies p.dir loop = List.replicate p.nwrite.toNat (iterationCopy p addr src) := by
  rw [List.eq_of_mem_replicate hl, copies_mbLoop, ← toNat_eq_toInt h.nwrite, Int.toNat_natCast]

/-- There is one copy to look at. -/
lemma forall_copies_iff (addr src : BitVec 64) (P : Copy → Prop) :
    (∀ loop ∈ mbRun p addr src, ∀ c ∈ copies p.dir loop, P c) ↔ P (iterationCopy p addr src) := by
  obtain ⟨hnwrite, hnloop, -⟩ := h.positive
  constructor
  · intro hall
    have hloop : mbLoop p addr src ∈ mbRun p addr src := List.mem_replicate.mpr ⟨hnloop.ne', rfl⟩
    apply hall _ hloop
    rw [copies_of_mem_mbRun h hloop]
    exact List.mem_replicate.mpr ⟨hnwrite.ne', rfl⟩
  · intro hc loop hloop c hmem
    rw [copies_of_mem_mbRun h hloop] at hmem
    rw [List.eq_of_mem_replicate hmem]
    exact hc

lemma targetsInside_iff (addr src : BitVec 64) (len : Nat) :
    TargetsInside p addr src len ↔ (p.nwrite.toNat + 1) * p.size.toNat ≤ len := by
  have hprod := h.product_lt
  have hsize := h.size_lt
  unfold TargetsInside
  rw [forall_copies_iff h addr src fun c => Word.span c.target c.len.toNat ⊆ Word.span addr len]
  unfold iterationCopy
  dsimp only
  rw [Word.span_add_subset_iff, h.toNat_offset, h.toNat_len, Nat.add_one_mul]
  · rw [h.toNat_len]
    exact h.positive.2.2
  · rw [h.toNat_offset, h.toNat_len]
    omega

lemma sourcesInside_iff (addr src : BitVec 64) :
    SourcesInside p addr src ↔ p.size.toNat ≤ p.nwrite.toNat := by
  have hsize := h.size_lt
  unfold SourcesInside
  rw [forall_copies_iff h addr src fun c => Word.span c.source c.len.toNat ⊆ Word.span src p.nwrite.toNat]
  -- the copy starts at offset 0 of the source
  have hzero : Word.span (src + 0#64) p.size.toNat ⊆ Word.span src p.nwrite.toNat ↔
      p.size.toNat ≤ p.nwrite.toNat := by
    rw [Word.span_add_subset_iff h.positive.2.2, BitVec.toNat_zero, Nat.zero_add]
    rw [BitVec.toNat_zero]
    omega
  rw [BitVec.add_zero] at hzero
  unfold iterationCopy
  dsimp only
  rw [h.toNat_len, hzero]

/-- The target begins where the last block ends. -/
lemma iterationCopy_touches (addr src : BitVec 64) {i : Nat} (hi : i < p.nwrite.toNat) :
    (iterationCopy p addr src).touches p addr i = false := by
  have hoff : ((iterationCopy p addr src).target - addr).toNat = p.nwrite.toNat * p.size.toNat := by
    unfold iterationCopy
    dsimp only
    rw [BitVec.add_comm, BitVec.add_sub_cancel, h.toNat_offset]
  have hblock : (i + 1) * p.size.toNat ≤ p.nwrite.toNat * p.size.toNat := Nat.mul_le_mul_right _ hi
  unfold Copy.touches
  rw [decide_eq_false_iff_not, hoff]
  omega

lemma countP_touches {addr src : BitVec 64} {loop : List MemOp} (hl : loop ∈ mbRun p addr src)
    {i : Nat} (hi : i < p.nwrite.toNat) : (copies p.dir loop).countP (·.touches p addr i) = 0 := by
  rw [copies_of_mem_mbRun h hl, List.countP_eq_zero]
  intro c hc
  rw [List.eq_of_mem_replicate hc, iterationCopy_touches h addr src hi]
  exact Bool.false_ne_true

/-- The copies of no benchmark are inside: no copy touches a block of the buffer. A copy stays in
the source only if it has `size` bytes, and in the pages of the buffer only if rounding left a block. -/
theorem mb_copies_outside (addr src : BitVec 64) {mem mem' : PopMem} {malloc : Bool} {pbuf : Pbuf}
    (ha : mbAlloc p addr mem malloc = some (mem', .ok pbuf)) :
    ¬CopiesInside p (popBufData pbuf) src ∧
      (∀ loop ∈ mbRun p (popBufData pbuf) src, ∀ i < p.nwrite.toNat,
        (copies p.dir loop).countP (·.touches p (popBufData pbuf) i) = 0) ∧
      (SourcesInside p (popBufData pbuf) src ↔ p.size.toNat ≤ p.nwrite.toNat) ∧
      (TargetsInside p (popBufData pbuf) src pbuf.size.toNat ↔
        (p.nwrite.toNat + 1) * p.size.toNat ≤
          (p.nwrite.toNat * p.size.toNat + 4095) / 4096 * 4096) := by
  obtain ⟨-, -, hsize⟩ := h.positive
  have hlen := h.toNat_poplen
  have hlt := h.product_lt
  have hfresh : FreshPbuf mem p.poplen.toNat pbuf := popBufAllocPut_fresh (by omega) ha
  refine ⟨?_, fun loop hl i hi => countP_touches h hl hi, sourcesInside_iff h _ _, ?_⟩
  · intro hinside
    have hend := (targetsInside_iff h _ _ _).mp hinside.targets
    rw [Nat.add_one_mul] at hend
    omega
  · rw [targetsInside_iff h, hfresh.size, hlen]

end Admitted

/-- A context on one hugepage. -/
def mbMem : PopMem :=
  ⟨-1, [], ⟨0, 0, 0, 0, 0⟩, 0x7f0000000000, 0x80000000, 0x200000, 512, 0⟩

/-- With the options of `main` the pages of the buffer hide the target. -/
theorem mb_copies_outside_of_defaults :
    ∃ mem' pbuf, mbAlloc ⟨100, 100, 64, true, .write⟩ 0x1000 mbMem true = some (mem', .ok pbuf) ∧
      ¬CopiesInside ⟨100, 100, 64, true, .write⟩ (popBufData pbuf) 0x6000 ∧
      SourcesInside ⟨100, 100, 64, true, .write⟩ (popBufData pbuf) 0x6000 ∧
      TargetsInside ⟨100, 100, 64, true, .write⟩ (popBufData pbuf) 0x6000 pbuf.size.toNat := by
  have hp : MbAdmitted ⟨100, 100, 64, true, .write⟩ := ⟨by decide, by decide, by decide, by decide⟩
  have ha : mbAlloc ⟨100, 100, 64, true, .write⟩ 0x1000 mbMem true =
      some ({ mbMem with allocedPages := 2 },
        .ok ⟨⟨0x7f0000000000, 0x80000000, 8192, 0, 6400⟩, 0x1000⟩) := rfl
  obtain ⟨hout, -, hsource, htarget⟩ := mb_copies_outside hp 0x1000 0x6000 ha
  exact ⟨_, _, ha, hout, hsource.mpr (by decide), htarget.mpr (by decide)⟩

/-- One block of a page: the copy reads 4096 bytes of a source of one byte and writes the page behind
the buffer. -/
theorem mb_writes_behind_buffer :
    ∃ mem' pbuf, mbAlloc ⟨1, 1, 4096, false, .write⟩ 0x1000 mbMem true = some (mem', .ok pbuf) ∧
      popBufData pbuf = 0x7f0000000000 ∧ pbuf.size = 4096 ∧
      mbRun ⟨1, 1, 4096, false, .write⟩ (popBufData pbuf) 0x6000 =
        [[.memcpy 0x7f0000001000 0x6000 4096]] ∧
      ¬CopiesInside ⟨1, 1, 4096, false, .write⟩ (popBufData pbuf) 0x6000 := by
  have hp : MbAdmitted ⟨1, 1, 4096, false, .write⟩ := ⟨by decide, by decide, by decide, by decide⟩
  have ha : mbAlloc ⟨1, 1, 4096, false, .write⟩ 0x1000 mbMem true =
      some ({ mbMem with allocedPages := 1 },
        .ok ⟨⟨0x7f0000000000, 0x80000000, 4096, 0, 4096⟩, 0x1000⟩) := rfl
  refine ⟨_, _, ha, rfl, rfl, by decide +kernel, ?_⟩
  intro hinside
  exact absurd ((sourcesInside_iff hp _ _).mp hinside.sources) (by decide)

end Libpop.Proofs
