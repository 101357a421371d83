import Libpop.Proofs.BufferAllocation

/-!
# Physical addresses in a hugepage context

A context keeps the physical address of its first byte and extrapolates from it, while the
page table is free to put every 2 MiB page elsewhere. The two agree exactly when the huge
pages of the context lie one behind the other.
-/

namespace Libpop.Proofs
open Execution

/-- The number of huge pages behind a mapping of `size` bytes. -/
def hugePages (size : BitVec 64) : Nat :=
  (size.toNat + 2097151) / 2097152

/-- A hugepage mapping as the kernel makes it, and a pagemap that can be read and shows it:
huge page `i` of the mapping lies in the physical 2 MiB frame `frames i`. -/
structure HugeMapped (pagemap : Pagemap) (addr size : BitVec 64) (frames : Nat → Nat) : Prop where
  opened : pagemap.opened = true
  pagesize : pagemap.pagesize = 4096
  lseek : ∀ pos, 0 ≤ pagemap.lseek pos
  size_pos : 0 < size.toNat
  aligned : 2097152 ∣ addr.toNat
  user : addr.toNat + hugePages size * 2097152 ≤ 2 ^ 47
  frames_lt : ∀ i < hugePages size, frames i < 2 ^ 31
  entry : ∀ k < hugePages size * 512,
    (pagemap.read (BitVec.ofNat 64 ((addr.toNat / 4096 + k) * 8))).1 = 8 ∧
      (pagemap.read (BitVec.ofNat 64 ((addr.toNat / 4096 + k) * 8))).2 ≠ 0 ∧
      (pagemap.read (BitVec.ofNat 64 ((addr.toNat / 4096 + k) * 8))).2 &&& 0x7fffffffffffff =
        BitVec.ofNat 64 (frames (k / 512) * 512 + k % 512)

/-- The cheap translations agree with the page-table walk, for every address of the context
and every byte of every buffer it ever returns. -/
def TranslationsAgree (pagemap : Pagemap) (mem : PopMem) : Prop :=
  (∀ v : BitVec 64, mem.mem.toNat ≤ v.toNat → v.toNat < mem.mem.toNat + mem.size.toNat →
    popVirtToPhys mem v = virtToPhys pagemap v) ∧
  ∀ ops s, exec bufStep (bufInit mem) ops = some s → ∀ a ∈ s.allocations, ∀ i < a.pbuf.size,
    a.pbuf.paddr + i = virtToPhys pagemap (a.pbuf.vaddr + i)

section Mapped

variable {pagemap : Pagemap} {addr size : BitVec 64} {frames : Nat → Nat}

lemma HugeMapped.toNat_add (h : HugeMapped pagemap addr size frames) {d : Nat}
    (hd : d < hugePages size * 2097152) : (addr + BitVec.ofNat 64 d).toNat = addr.toNat + d := by
  have huser := h.user
  rw [BitVec.toNat_add, BitVec.toNat_ofNat]
  omega

/-- Where the page-table walk finds byte `d` of the mapping. -/
lemma HugeMapped.toNat_virtToPhys (h : HugeMapped pagemap addr size frames) {d : Nat}
    (hd : d < hugePages size * 2097152) :
    (virtToPhys pagemap (addr + BitVec.ofNat 64 d)).toNat =
      frames (d / 2097152) * 2097152 + d % 2097152 := by
  have huser := h.user
  obtain ⟨q, hq⟩ := h.aligned
  have hk : d / 4096 < hugePages size * 512 := by omega
  have hframe := h.frames_lt (d / 2097152) (by omega)
  obtain ⟨hrc, hne, hmask⟩ := h.entry (d / 4096) hk
  have hlit : (4096 : BitVec 64).toNat = 4096 := rfl
  have hpage : (addr.toNat + d) / 4096 = addr.toNat / 4096 + d / 4096 := by omega
  have hpos : (addr + BitVec.ofNat 64 d) / 4096 * 8 =
      BitVec.ofNat 64 ((addr.toNat / 4096 + d / 4096) * 8) := by
    apply BitVec.eq_of_toNat_eq
    rw [BitVec.toNat_mul, BitVec.toNat_udiv, h.toNat_add hd, BitVec.toNat_ofNat, ← hpage]
    rfl
  have hrest : ((addr + BitVec.ofNat 64 d) % 4096).toNat = d % 4096 := by
    rw [BitVec.toNat_umod, h.toNat_add hd, hlit]
    omega
  have hread : ¬((pagemap.read (BitVec.ofNat 64 ((addr.toNat / 4096 + d / 4096) * 8))).1 < 1 ∨
      (pagemap.read (BitVec.ofNat 64 ((addr.toNat / 4096 + d / 4096) * 8))).2 = 0) := by
    rw [hrc]
    exact not_or.mpr ⟨by decide, hne⟩
  unfold virtToPhys
  rw [if_pos h.opened]
  dsimp only
  rw [h.pagesize, hpos, if_neg (not_lt.mpr (h.lseek _)), if_neg hread, hmask, BitVec.toNat_add,
    BitVec.toNat_mul, BitVec.toNat_ofNat, hrest]
  have hdiv : d / 4096 / 512 = d / 2097152 := by rw [Nat.div_div_eq_div_mul]
  rw [hlit, hdiv]
  omega

end Mapped

lemma size_le_hugePages (size : BitVec 64) : size.toNat ≤ hugePages size * 2097152 := by
  unfold hugePages
  omega

lemma popMemInitHugepage_some {env : HugepageEnv} {size : BitVec 64} {mem : PopMem}
    (h : popMemInitHugepage env size = some mem) :
    mem.paddr = virtToPhys env.pagemap mem.mem ∧ mem.allocedPages = 0 ∧
      mem.numPages = (mem.size + (1 <<< pageShift) - 1) >>> pageShift := by
  unfold popMemInitHugepage at h
  split at h
  · dsimp only at h
    split at h
    · cases h
    · split at h
      · cases h
      · cases h
        exact ⟨rfl, rfl, rfl⟩
  · cases h

/-- Inside the context the cheap translation extrapolates from its first byte. -/
lemma popVirtToPhys_of_mem {mem : PopMem} {v : BitVec 64}
    (hend : mem.mem.toNat + mem.size.toNat < 2 ^ 64) (hlo : mem.mem.toNat ≤ v.toNat)
    (hhi : v.toNat < mem.mem.toNat + mem.size.toNat) :
    popVirtToPhys mem v = mem.paddr + (v - mem.mem) := by
  have hstop : (mem.mem + mem.size).toNat = mem.mem.toNat + mem.size.toNat := by
    rw [BitVec.toNat_add]
    omega
  unfold popVirtToPhys
  rw [if_neg]
  rw [gt_iff_lt, BitVec.lt_def, BitVec.lt_def, hstop]
  omega

section Context

variable {env : HugepageEnv} {size : BitVec 64} {mem : PopMem} {frames : Nat → Nat}
  (hinit : popMemInitHugepage env size = some mem) (h : HugeMapped env.pagemap mem.mem mem.size frames)

include hinit h

lemma toNat_numPages : mem.numPages.toNat = (mem.size.toNat + 4095) / 4096 := by
  have huser := h.user
  have hsize := size_le_hugePages mem.size
  have hsum : (mem.size + (1 <<< pageShift) - 1).toNat = mem.size.toNat + 4095 := by
    unfold pageShift
    have hone : (1 <<< 12 : BitVec 64) = 4096 := rfl
    rw [hone]
    bv_omega
  rw [(popMemInitHugepage_some hinit).2.2, Word.toNat_shiftRight_div, hsum]
  rfl

lemma toNat_paddr : mem.paddr.toNat = frames 0 * 2097152 := by
  have hpos : 0 < hugePages mem.size * 2097152 := h.size_pos.trans_le (size_le_hugePages mem.size)
  have hwalk := h.toNat_virtToPhys hpos
  rw [(popMemInitHugepage_some hinit).1]
  simpa using hwalk

/-- At byte `d` the extrapolation is right exactly if the huge page of `d` is where it would
be behind the first one. -/
lemma extrapolates_iff {d : Nat} (hd : d < hugePages mem.size * 2097152) :
    mem.paddr + BitVec.ofNat 64 d = virtToPhys env.pagemap (mem.mem + BitVec.ofNat 64 d) ↔
      frames (d / 2097152) = frames 0 + d / 2097152 := by
  have huser := h.user
  have hfirst := h.frames_lt 0 (by omega)
  rw [← BitVec.toNat_inj, h.toNat_virtToPhys hd, BitVec.toNat_add, BitVec.toNat_ofNat,
    toNat_paddr hinit h]
  omega

omit hinit in
lemma popVirtToPhys_add {d : Nat} (hd : d < mem.size.toNat) :
    popVirtToPhys mem (mem.mem + BitVec.ofNat 64 d) = mem.paddr + BitVec.ofNat 64 d := by
  have huser := h.user
  have hsize := size_le_hugePages mem.size
  have hv := h.toNat_add (hd.trans_le hsize)
  rw [popVirtToPhys_of_mem (by omega) (by omega) (by omega), BitVec.add_comm mem.mem,
    BitVec.add_sub_cancel]

lemma pages_le_hugePages : mem.numPages.toNat * 4096 ≤ hugePages mem.size * 2097152 := by
  rw [toNat_numPages hinit h]
  unfold hugePages
  omega

/-- Byte `i` of a returned buffer is byte `d` of the context, on both sides of the translation. -/
lemma buffer_offset {ops : List BufOp} {s : BufState}
    (hrun : exec bufStep (bufInit mem) ops = some s) {a : Allocation} (ha : a ∈ s.allocations)
    {i : BitVec 64} (hi : i < a.pbuf.size) :
    ∃ d < hugePages mem.size * 2097152, a.pbuf.vaddr + i = mem.mem + BitVec.ofNat 64 d ∧
      a.pbuf.paddr + i = mem.paddr + BitVec.ofNat 64 d := by
  have huser := h.user
  have hfirst := h.frames_lt 0 (by have := h.size_pos; have := size_le_hugePages mem.size; omega)
  have hpages := pages_le_hugePages hinit h
  have hpaddr := toNat_paddr hinit h
  have hinv := carveInv_reachable (by omega) (by omega) (popMemInitHugepage_some hinit).2.1 hrun
  obtain ⟨hvaddr, hsize, hlinear, -⟩ := hinv.carved a ha
  have hstop := (hinv.packed.stop_le _ (List.mem_map_of_mem ha)).trans hinv.le
  have hstop' : (extentOf mem a).start + requestPages a ≤ mem.numPages.toNat := hstop
  have hlt : i.toNat < requestPages a * 4096 := hsize ▸ hi
  have hbyte : (extentOf mem a).start * 4096 + i.toNat < mem.numPages.toNat * 4096 := by omega
  refine ⟨(extentOf mem a).start * 4096 + i.toNat, hbyte.trans_le hpages, ?_, ?_⟩
  · apply BitVec.eq_of_toNat_eq
    rw [BitVec.toNat_add, BitVec.toNat_add, BitVec.toNat_ofNat, hvaddr]
    omega
  · apply BitVec.eq_of_toNat_eq
    rw [BitVec.toNat_add, BitVec.toNat_add, BitVec.toNat_ofNat]
    omega

end Context

/-- In a hugepage context the cheap translations agree with the page-table walk exactly when
its huge pages are physically contiguous. -/
theorem translations_agree_iff {env : HugepageEnv} {size : BitVec 64} {mem : PopMem}
    {frames : Nat → Nat} (hinit : popMemInitHugepage env size = some mem)
    (h : HugeMapped env.pagemap mem.mem mem.size frames) :
    TranslationsAgree env.pagemap mem ↔ ∀ i < hugePages mem.size, frames i = frames 0 + i := by
  constructor
  · rintro ⟨hagree, -⟩ i hi
    have hlt : i * 2097152 < mem.size.toNat := by
      unfold hugePages at hi
      omega
    have hd : i * 2097152 < hugePages mem.size * 2097152 :=
      hlt.trans_le (size_le_hugePages mem.size)
    have hv := h.toNat_add hd
    have hat := hagree (mem.mem + BitVec.ofNat 64 (i * 2097152)) (by omega) (by omega)
    rw [popVirtToPhys_add h hlt, extrapolates_iff hinit h hd] at hat
    rwa [Nat.mul_div_cancel i (by decide)] at hat
  · intro hcontig
    have hall : ∀ d < hugePages mem.size * 2097152,
        mem.paddr + BitVec.ofNat 64 d = virtToPhys env.pagemap (mem.mem + BitVec.ofNat 64 d) := by
      intro d hd
      rw [extrapolates_iff hinit h hd]
      exact hcontig _ (by omega)
    constructor
    · intro v hlo hhi
      have hd : v.toNat - mem.mem.toNat < mem.size.toNat := by omega
      have hv : v = mem.mem + BitVec.ofNat 64 (v.toNat - mem.mem.toNat) := by
        apply BitVec.eq_of_toNat_eq
        rw [h.toNat_add (hd.trans_le (size_le_hugePages mem.size))]
        omega
      rw [hv, popVirtToPhys_add h hd]
      exact hall _ (hd.trans_le (size_le_hugePages mem.size))
    · intro ops s hrun a ha i hi
      obtain ⟨d, hd, hvaddr, hpaddr⟩ := buffer_offset hinit h hrun ha hi
      rw [hvaddr, hpaddr]
      exact hall d hd

/-! ### Two huge pages -/

/-- A pagemap that shows a hugepage mapping at `addr`, with the present bit set. -/
def hugePagemap (addr : Nat) (frames : Nat → Nat) : Pagemap where
  opened := true
  pagesize := 4096
  lseek := fun pos => pos.toNat
  read := fun pos =>
    let k := pos.toNat / 8 - addr / 4096
    (8, BitVec.ofNat 64 (2 ^ 63 + (frames (k / 512) * 512 + k % 512)))

lemma hugeMapped_hugePagemap {addr size : BitVec 64} {frames : Nat → Nat} (hpos : 0 < size.toNat)
    (hal : 2097152 ∣ addr.toNat) (huser : addr.toNat + hugePages size * 2097152 ≤ 2 ^ 47)
    (hframes : ∀ i < hugePages size, frames i < 2 ^ 31) :
    HugeMapped (hugePagemap addr.toNat frames) addr size frames where
  opened := rfl
  pagesize := rfl
  lseek := fun pos => Int.natCast_nonneg _
  size_pos := hpos
  aligned := hal
  user := huser
  frames_lt := hframes
  entry := by
    intro k hk
    have hframe := hframes (k / 512) (by omega)
    have hindex : (BitVec.ofNat 64 ((addr.toNat / 4096 + k) * 8)).toNat / 8 - addr.toNat / 4096 =
        k := by
      rw [BitVec.toNat_ofNat]
      omega
    dsimp only [hugePagemap]
    rw [hindex]
    refine ⟨rfl, ?_, ?_⟩
    · intro hzero
      have hz := congrArg BitVec.toNat hzero
      rw [BitVec.toNat_ofNat] at hz
      simp at hz
      omega
    · apply BitVec.eq_of_toNat_eq
      have hlow :=
        Word.toNat_and_low (BitVec.ofNat 64 (2 ^ 63 + (frames (k / 512) * 512 + k % 512)))
          55 (by decide)
      rw [BitVec.toNat_ofNat] at hlow ⊢
      refine hlow.trans ?_
      omega

/-- A system with 64 huge pages that maps at 0x7f0000000000. -/
def hugeEnv (frames : Nat → Nat) : HugepageEnv :=
  ⟨true, some 64, fun _ => some 0x7f0000000000,
    hugePagemap (0x7f0000000000 : BitVec 64).toNat frames⟩

/-- The context of two huge pages, the first one in frame 512. -/
def twoHugePages : PopMem :=
  ⟨-1, "hugepage".toList, ⟨0, 0, 0, 0, 0⟩, 0x7f0000000000, 0x40000000, 0x400000, 1024, 0⟩

lemma hugeMapped_two (frames : Nat → Nat) (hframes : ∀ i < 2, frames i < 2 ^ 31) :
    HugeMapped (hugeEnv frames).pagemap twoHugePages.mem twoHugePages.size frames :=
  hugeMapped_hugePagemap (by decide) (by decide) (by decide) hframes

theorem translations_agree_contiguous :
    popMemInitHugepage (hugeEnv (· + 512)) 0x400000 = some twoHugePages ∧
      TranslationsAgree (hugeEnv (· + 512)).pagemap twoHugePages := by
  have hinit : popMemInitHugepage (hugeEnv (· + 512)) 0x400000 = some twoHugePages := by decide
  have hmapped := hugeMapped_two (· + 512) (by decide)
  refine ⟨hinit, (translations_agree_iff hinit hmapped).mpr ?_⟩
  intro i _
  omega

/-- With the second huge page in frame 100 the first byte of it is mistranslated. -/
theorem translations_disagree_scattered :
    popMemInitHugepage (hugeEnv fun i => if i = 0 then 512 else 100) 0x400000 = some twoHugePages ∧
      HugeMapped (hugeEnv fun i => if i = 0 then 512 else 100).pagemap twoHugePages.mem twoHugePages.size
        (fun i => if i = 0 then 512 else 100) ∧
      popVirtToPhys twoHugePages 0x7f0000200000 = 0x40200000 ∧
      virtToPhys (hugeEnv fun i => if i = 0 then 512 else 100).pagemap 0x7f0000200000 = 0xc800000 ∧
      ¬TranslationsAgree (hugeEnv fun i => if i = 0 then 512 else 100).pagemap twoHugePages := by
  refine ⟨by decide, hugeMapped_two _ (by decide), by decide, by decide, ?_⟩
  rintro ⟨hagree, -⟩
  have hat := hagree 0x7f0000200000 (by decide) (by decide)
  exact absurd hat (by decide)

end Libpop.Proofs
