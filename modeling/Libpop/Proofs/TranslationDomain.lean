import Libpop.Proofs.DeviceTranslation

/-!
# The addresses that pop_virt_to_phys translates

The translator compares an address with the size of its context in bytes, end included, while
the allocator hands out whole pages, counted up for hugepages and down for a device. The
addresses translated are the bytes of the region only when the pages reach one byte beyond
the size.
-/

namespace Libpop.Proofs
open Execution

lemma popMemInit_some {env : InitEnv} {s t : Process} {dev : Option (List Char)} {size : BitVec 64}
    {ctx : Context} (h : popMemInit env s dev size = (t, some ctx)) :
    ctx.mem.paddr = virtToPhys env.pagemap ctx.mem.mem ∧ ctx.mem.allocedPages = 0 := by
  cases dev with
  | none =>
    obtain ⟨-, hctx⟩ := Prod.mk.inj h
    obtain ⟨mem, hmem, rfl⟩ := Option.map_eq_some_iff.mp hctx
    obtain ⟨hpaddr, h0, -⟩ := popMemInitHugepage_some hmem
    exact ⟨hpaddr, h0⟩
  | some dev =>
    obtain ⟨file, ppdev, -, -, -, -, hpaddr, -, h0⟩ := popMemInitDevice_some h
    exact ⟨hpaddr, h0⟩

lemma toNat_pages_up (size : BitVec 64) :
    ((size + (1 <<< pageShift) - 1) >>> pageShift).toNat = (size.toNat + 4095) % 2 ^ 64 / 4096 := by
  have hone : (1 <<< pageShift : BitVec 64) = 4096 := rfl
  have hsum : (size + (1 <<< pageShift) - 1).toNat = (size.toNat + 4095) % 2 ^ 64 := by
    rw [hone]
    bv_omega
  rw [Word.toNat_shiftRight_div, hsum]
  rfl

lemma popMemInitHugepage_size {env : HugepageEnv} {size : BitVec 64} {mem : PopMem}
    (h : popMemInitHugepage env size = some mem) :
    (getNrHugepages env).slt 0 = false ∧ mem.size = hugepageSize (getNrHugepages env) size := by
  unfold popMemInitHugepage at h
  split at h
  · dsimp only at h
    split at h
    · cases h
    · rename_i hneg
      split at h
      · cases h
      · cases h
        exact ⟨by simpa using hneg, rfl⟩
  · cases h

/-- The default is a multiple of 2 MiB, also when it overflows. -/
lemma toNat_hugepageSize_mod (nr : BitVec 32) (size : BitVec 64) :
    (hugepageSize nr size).toNat % 4096 = size.toNat % 4096 := by
  unfold hugepageSize
  split
  · rfl
  · rename_i hzero
    have hmul : (2097152 * nr.sdiv 4).toNat = 2097152 * (nr.sdiv 4).toNat % 2 ^ 32 :=
      BitVec.toNat_mul _ _
    have hlit : (0 : BitVec 64).toNat % 4096 = 0 := rfl
    rw [not_not.mp hzero, hlit, BitVec.toNat_signExtend, BitVec.toNat_setWidth, hmul]
    split <;> omega

/-- A translation is found for the bytes that can be handed out and for no other address. -/
def TranslatesRegion (mem : PopMem) : Prop :=
  ∀ v : BitVec 64, popVirtToPhys mem v ≠ 0 ↔ v.toNat ∈ regionBytes mem

/-- Every byte of a buffer is translated to the byte of the buffer's physical range. -/
def TranslatesBuffers (mem : PopMem) : Prop :=
  ∀ ops s, exec bufStep (bufInit mem) ops = some s → ∀ a ∈ s.allocations, ∀ v : BitVec 64,
    v.toNat ∈ bufBytes a.pbuf → popVirtToPhys mem v = a.pbuf.paddr + (v - a.pbuf.vaddr)

section Bounds

variable {mem : PopMem} (hv : mem.mem.toNat + mem.size.toNat < 2 ^ 64)

include hv

lemma popVirtToPhys_of_le {v : BitVec 64} (hlo : mem.mem.toNat ≤ v.toNat)
    (hhi : v.toNat ≤ mem.mem.toNat + mem.size.toNat) :
    popVirtToPhys mem v = mem.paddr + (v - mem.mem) := by
  have hstop : (mem.mem + mem.size).toNat = mem.mem.toNat + mem.size.toNat := by
    rw [BitVec.toNat_add]
    omega
  unfold popVirtToPhys
  rw [if_neg]
  rw [gt_iff_lt, BitVec.lt_def, BitVec.lt_def, hstop]
  omega

lemma popVirtToPhys_of_outside {v : BitVec 64}
    (hout : v.toNat < mem.mem.toNat ∨ mem.mem.toNat + mem.size.toNat < v.toNat) :
    popVirtToPhys mem v = 0 := by
  have hstop : (mem.mem + mem.size).toNat = mem.mem.toNat + mem.size.toNat := by
    rw [BitVec.toNat_add]
    omega
  unfold popVirtToPhys
  rw [if_pos]
  rwa [gt_iff_lt, BitVec.lt_def, BitVec.lt_def, hstop]

lemma popVirtToPhys_ne_zero_iff (hbase : mem.paddr ≠ 0)
    (hp : mem.paddr.toNat + mem.size.toNat < 2 ^ 64) (v : BitVec 64) :
    popVirtToPhys mem v ≠ 0 ↔
      mem.mem.toNat ≤ v.toNat ∧ v.toNat ≤ mem.mem.toNat + mem.size.toNat := by
  constructor
  · intro hne
    by_contra hout
    apply hne
    apply popVirtToPhys_of_outside hv
    omega
  · rintro ⟨hlo, hhi⟩ hzero
    rw [popVirtToPhys_of_le hv hlo hhi] at hzero
    apply hbase
    bv_omega

lemma translatesRegion_iff (hfit : mem.mem.toNat + mem.numPages.toNat * 4096 ≤ 2 ^ 64)
    (hbase : mem.paddr ≠ 0) (hp : mem.paddr.toNat + mem.size.toNat < 2 ^ 64) :
    TranslatesRegion mem ↔ mem.numPages.toNat * 4096 = mem.size.toNat + 1 := by
  unfold TranslatesRegion
  simp only [popVirtToPhys_ne_zero_iff hv hbase hp, regionBytes, Set.mem_Ico]
  constructor
  · intro h
    have hlast := h (mem.mem + mem.size)
    rw [BitVec.toNat_add, Nat.mod_eq_of_lt hv] at hlast
    by_cases hend : mem.mem.toNat + mem.size.toNat + 1 = 2 ^ 64
    · omega
    · have hnext := h (BitVec.ofNat 64 (mem.mem.toNat + mem.size.toNat + 1))
      rw [BitVec.toNat_ofNat, Nat.mod_eq_of_lt (by omega)] at hnext
      omega
  · intro hend v
    have hlt := v.isLt
    omega

lemma translatesBuffers_of_le (h0 : mem.allocedPages = 0)
    (hpages : mem.numPages.toNat * 4096 ≤ mem.size.toNat + 1) : TranslatesBuffers mem := by
  intro ops s hrun a ha v hmem
  obtain ⟨start, nr, hfit, hbuf⟩ := (pageInv_reachable h0 hrun).carved a ha
  rw [hbuf] at hmem ⊢
  simp only [bufBytes, carvedBuf, Set.mem_Ico] at hmem
  have hsize : (nr <<< pageShift).toNat ≤ nr.toNat * 4096 := by
    rw [Word.toNat_shiftLeft_mul]
    exact Nat.mod_le _ _
  have hstart : (start <<< pageShift).toNat = start.toNat * 4096 := by
    rw [Word.toNat_shiftLeft_mul]
    unfold pageShift
    omega
  -- a buffer that has the byte has a page, so it starts below the last one
  rw [BitVec.toNat_add, hstart, Nat.mod_eq_of_lt (by omega)] at hmem
  rw [popVirtToPhys_of_le hv (by omega) (by omega)]
  exact (Word.add_offset_sub _ _ _ _).symm

end Bounds

/-- What `mmap` without a wanted address returns when it succeeds. -/
structure MmapAddress (addr : BitVec 64) : Prop where
  ne_zero : addr ≠ 0
  aligned : addr.toNat % 4096 = 0

section Contexts

variable {env : InitEnv} {s t : Process} {dev : Option (List Char)} {size : BitVec 64}
  {ctx : Context}
  (hinit : popMemInit env s dev size = (t, some ctx)) (hmmap : MmapAddress ctx.mem.mem)
  (hv : ctx.mem.mem.toNat + ctx.mem.size.toNat < 2 ^ 64)

include hinit hmmap hv

/-- The pages of a context, rounded up for hugepages and down for a device. -/
lemma popMemInit_numPages :
    (dev = none ∧ ctx.mem.numPages.toNat = (ctx.mem.size.toNat + 4095) / 4096 ∧
      ctx.mem.size.toNat % 4096 = size.toNat % 4096) ∨
    (dev ≠ none ∧ ctx.mem.numPages.toNat = ctx.mem.size.toNat / 4096) := by
  cases dev with
  | none =>
    obtain ⟨-, hctx⟩ := Prod.mk.inj hinit
    obtain ⟨mem, hmem, rfl⟩ := Option.map_eq_some_iff.mp hctx
    have hpos : 4096 ≤ mem.mem.toNat := by
      have hne : mem.mem.toNat ≠ 0 := fun h => hmmap.ne_zero (BitVec.eq_of_toNat_eq h)
      have hal := hmmap.aligned
      dsimp only at hal
      omega
    left
    refine ⟨rfl, ?_, ?_⟩
    · dsimp only at hv ⊢
      rw [(popMemInitHugepage_some hmem).2.2, toNat_pages_up]
      omega
    · rw [(popMemInitHugepage_size hmem).2]
      exact toNat_hugepageSize_mod _ _
  | some dev =>
    obtain ⟨file, ppdev, -, -, -, -, -, hnum, -⟩ := popMemInitDevice_some hinit
    right
    refine ⟨nofun, ?_⟩
    rw [hnum, Word.toNat_shiftRight_div]
    rfl

lemma translatesBuffers_context
    (h : dev ≠ none ∨ size.toNat % 4096 = 0 ∨ size.toNat % 4096 = 4095) :
    TranslatesBuffers ctx.mem := by
  apply translatesBuffers_of_le hv (popMemInit_some hinit).2
  rcases popMemInit_numPages hinit hmmap hv with ⟨hdev, hnum, hmod⟩ | ⟨-, hnum⟩
  · have hsize := h.resolve_left (not_not.mpr hdev)
    omega
  · omega

end Contexts

/-- The addresses translated are the bytes of the region, and those of buffers are translated to the
bytes of their physical ranges, exactly in a hugepage context for one byte less than whole pages.
The buffers alone are translated in every device context and for whole pages too. -/
theorem translation_domain_iff {env : InitEnv} {s t : Process} {dev : Option (List Char)}
    {size : BitVec 64} {ctx : Context} (hinit : popMemInit env s dev size = (t, some ctx))
    (hmmap : MmapAddress ctx.mem.mem) (hbase : ctx.mem.paddr ≠ 0)
    (hv : ctx.mem.mem.toNat + ctx.mem.size.toNat < 2 ^ 64)
    (hp : ctx.mem.paddr.toNat + ctx.mem.size.toNat < 2 ^ 64) :
    ((TranslatesRegion ctx.mem ∧ TranslatesBuffers ctx.mem) ↔ dev = none ∧ size.toNat % 4096 = 4095) ∧
      (dev ≠ none ∨ size.toNat % 4096 = 0 → TranslatesBuffers ctx.mem) := by
  have hal := hmmap.aligned
  have hpages := popMemInit_numPages hinit hmmap hv
  have hfit : ctx.mem.mem.toNat + ctx.mem.numPages.toNat * 4096 ≤ 2 ^ 64 := by
    rcases hpages with ⟨-, hnum, -⟩ | ⟨-, hnum⟩ <;> omega
  constructor
  · rw [translatesRegion_iff hv hfit hbase hp]
    constructor
    · rintro ⟨hexact, -⟩
      rcases hpages with ⟨hdev, hnum, hmod⟩ | ⟨-, hnum⟩
      · exact ⟨hdev, by omega⟩
      · omega
    · rintro ⟨hdev, hsize⟩
      refine ⟨?_, translatesBuffers_context hinit hmmap hv (.inr (.inr hsize))⟩
      rcases hpages with ⟨-, hnum, hmod⟩ | ⟨hno, -⟩
      · omega
      · exact absurd hdev hno
  · intro h
    apply translatesBuffers_context hinit hmmap hv
    exact h.imp_right .inl

/-! ### Three contexts -/

/-- The system of `hugeEnv` with huge pages one behind the other. -/
def hugeInit : InitEnv :=
  { cardInit with toHugepageEnv := hugeEnv (· + 512) }

/-- The hugepage context for a request of one byte less than a page. -/
def shortPage : PopMem :=
  ⟨-1, "hugepage".toList, ⟨0, 0, 0, 0, 0⟩, 0x7f0000000000, 0x40000000, 0xfff, 1, 0⟩

theorem translation_domain_of_shortPage :
    (popMemInit hugeInit processInit none 0xfff).2 = some ⟨shortPage, none, none⟩ ∧
      TranslatesRegion shortPage ∧ TranslatesBuffers shortPage := by
  have hinit : popMemInit hugeInit processInit none 0xfff =
      (processInit.openFd, some ⟨shortPage, none, none⟩) := rfl
  have hmmap : MmapAddress shortPage.mem := ⟨by decide, by decide⟩
  exact ⟨rfl, (translation_domain_iff hinit hmmap (by decide) (by decide) (by decide)).1.mpr (by decide)⟩

/-- The hugepage context for a request of 5000 bytes. -/
def fiveThousand : PopMem :=
  ⟨-1, "hugepage".toList, ⟨0, 0, 0, 0, 0⟩, 0x7f0000000000, 0x40000000, 5000, 2, 0⟩

/-- In a context of two huge pages the address behind the last byte is translated; in one of
5000 bytes the end of the only buffer it can hand out is not. -/
theorem translation_domain_fails :
    (popMemInit hugeInit processInit none 0x400000).2 = some ⟨twoHugePages, none, none⟩ ∧
      popVirtToPhys twoHugePages 0x7f0000400000 = 0x40400000 ∧
      (0x7f0000400000 : BitVec 64).toNat ∉ regionBytes twoHugePages ∧
        ¬TranslatesRegion twoHugePages ∧
      (popMemInit hugeInit processInit none 5000).2 = some ⟨fiveThousand, none, none⟩ ∧
      popVirtToPhys fiveThousand 0x7f0000001fff = 0 ∧ ¬TranslatesRegion fiveThousand ∧
      ¬TranslatesBuffers fiveThousand := by
  have hout : (0x7f0000400000 : BitVec 64).toNat ∉ regionBytes twoHugePages := by
    simp [regionBytes, twoHugePages]
  have hin : (0x7f0000001fff : BitVec 64).toNat ∈ regionBytes fiveThousand := by
    simp [regionBytes, fiveThousand]
  refine ⟨rfl, by decide, hout, ?_, rfl, by decide, ?_, ?_⟩
  · intro h
    exact hout ((h 0x7f0000400000).mp (by decide))
  · intro h
    exact (h 0x7f0000001fff).mpr hin (by decide)
  · intro h
    have hrun : exec bufStep (bufInit fiveThousand) [.alloc 8192 true] =
        some ⟨{ fiveThousand with allocedPages := 2 },
          [⟨8192, ⟨0x7f0000000000, 0x40000000, 0x2000, 0, 0⟩⟩], [0]⟩ := rfl
    have hbyte : (0x7f0000001fff : BitVec 64).toNat ∈
        bufBytes ⟨0x7f0000000000, 0x40000000, 0x2000, 0, 0⟩ := by
      simp [bufBytes]
    have hat := h _ _ hrun _ (List.mem_singleton.mpr rfl) _ hbyte
    exact absurd hat (by decide)

end Libpop.Proofs
