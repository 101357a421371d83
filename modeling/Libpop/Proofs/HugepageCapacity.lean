import Libpop.Proofs.TranslationDomain

/-!
# The size of a hugepage context

The default size is a quarter of the system's huge pages, in `int` arithmetic, which overflows
from 4096 huge pages on. Whatever the size became, the pages that the allocator hands out are
those of the size rounded up.
-/

namespace Libpop.Proofs
open Execution

/-- The size that `pop_mem_init` is to give a hugepage context. -/
def intendedSize (nr : BitVec 32) (size : BitVec 64) : Nat :=
  if size ≠ 0 then size.toNat else 2097152 * (nr.toNat / 4)

/-! ### The default size -/

section Quarter

variable {nr : BitVec 32} (hnr : nr.slt 0 = false)

include hnr

lemma msb_of_nonneg : nr.msb = false :=
  BitVec.slt_zero_eq_msb.symm.trans hnr

lemma toNat_lt_of_nonneg : nr.toNat < 2 ^ 31 := by
  have hlt := BitVec.msb_eq_false_iff_two_mul_lt.mp (msb_of_nonneg hnr)
  omega

lemma toNat_quarter : (nr.sdiv 4).toNat = nr.toNat / 4 := by
  have hfour : (4 : BitVec 32).msb = false := rfl
  rw [BitVec.sdiv_eq, msb_of_nonneg hnr, hfour]
  rfl

lemma toNat_quarterBytes : (2097152 * nr.sdiv 4).toNat = 2097152 * (nr.toNat / 4) % 2 ^ 32 := by
  rw [BitVec.toNat_mul, toNat_quarter hnr]
  rfl

lemma toNat_hugepageSize_zero :
    (hugepageSize nr 0).toNat =
      if 2097152 * (nr.toNat / 4) % 2 ^ 32 < 2 ^ 31 then 2097152 * (nr.toNat / 4) % 2 ^ 32
      else 2097152 * (nr.toNat / 4) % 2 ^ 32 + (2 ^ 64 - 2 ^ 32) := by
  have hint := toNat_quarterBytes hnr
  have hzero : hugepageSize nr 0 = (2097152 * nr.sdiv 4).signExtend 64 := rfl
  rw [hzero, ← hint]
  by_cases hlt : (2097152 * nr.sdiv 4).toNat < 2 ^ 31
  · rw [if_pos hlt]
    exact Word.toNat_signExtend_of_lt (by decide) (by omega)
  · rw [if_neg hlt]
    exact Word.toNat_signExtend_of_ge (by decide) (by omega)

lemma hugepageSize_eq_iff (size : BitVec 64) :
    (hugepageSize nr size).toNat = intendedSize nr size ↔ size ≠ 0 ∨ nr.toNat < 4096 := by
  by_cases hsize : size = 0
  · subst hsize
    have hlt := toNat_lt_of_nonneg hnr
    have hintended : intendedSize nr 0 = 2097152 * (nr.toNat / 4) := rfl
    rw [toNat_hugepageSize_zero hnr, hintended]
    simp only [ne_eq, not_true_eq_false, false_or]
    split <;> omega
  · unfold hugepageSize intendedSize
    rw [if_pos hsize, if_pos hsize]
    exact iff_of_true rfl (.inl hsize)

/-- Rounding the size up to pages does not wrap, not even when the default was negative. -/
lemma hugepageSize_le {size : BitVec 64} (hsize : size.toNat < 2 ^ 47) :
    (hugepageSize nr size).toNat + 4095 < 2 ^ 64 := by
  by_cases hzero : size = 0
  · subst hzero
    rw [toNat_hugepageSize_zero hnr]
    split <;> omega
  · unfold hugepageSize
    rw [if_pos hzero]
    omega

end Quarter

/-! ### What the allocator hands out -/

def obtainedPages (s : BufState) : Nat :=
  (s.allocations.map requestPages).sum

/-- No run obtains more than this many pages, and one of requests for one page obtains them one
by one until there are none left. -/
structure Capacity (mem : PopMem) (pages : Nat) : Prop where
  most : ∀ ops s, exec bufStep (bufInit mem) ops = some s → obtainedPages s ≤ pages
  exact : ∀ sizes : List (BitVec 64), (∀ size ∈ sizes, 0 < size.toNat ∧ size.toNat ≤ 4096) →
    ∃ s, exec bufStep (bufInit mem) (sizes.map (.alloc · true)) = some s ∧
      obtainedPages s = min sizes.length pages

lemma nrPages_one {size : BitVec 64} (hpos : 0 < size.toNat) (hle : size.toNat ≤ 4096) :
    nrPages size = some 1 := by
  have hone : (1 : BitVec 64).toNat = 1 := rfl
  rw [nrPages_eq_some_iff]
  omega

lemma bufStep_onePage {mem : PopMem} {s : BufState} (h : PageInv mem s) {size : BitVec 64}
    (hpos : 0 < size.toNat) (hle : size.toNat ≤ 4096) :
    ∃ t, bufStep s (.alloc size true) = some t ∧ PageInv mem t ∧
      t.mem.allocedPages.toNat = min (s.mem.allocedPages.toNat + 1) mem.numPages.toNat := by
  have hone : (1 : BitVec 64).toNat = 1 := rfl
  have hnum : s.mem.numPages = mem.numPages := by rw [h.context]
  have hused := h.le
  have hsub : (s.mem.numPages - s.mem.allocedPages).toNat =
      mem.numPages.toNat - s.mem.allocedPages.toNat := by
    rw [hnum]
    exact BitVec.toNat_sub_of_le hused
  by_cases hroom : s.mem.numPages - s.mem.allocedPages < 1
  · have hs : bufStep s (.alloc size true) = some s := by
      simp only [bufStep, popBufAlloc, nrPages_one hpos hle, if_pos hroom]
    refine ⟨s, hs, h, ?_⟩
    rw [BitVec.lt_def] at hroom
    omega
  · have hs : bufStep s (.alloc size true) = some
        { mem := { s.mem with allocedPages := s.mem.allocedPages + 1 }
          allocations := s.allocations ++ [⟨size, carvedBuf s.mem 1⟩]
          live := s.live ++ [s.allocations.length] } := by
      simp only [bufStep, popBufAlloc, nrPages_one hpos hle, if_neg hroom, if_true]
      rfl
    refine ⟨_, hs, pageInv_step s _ _ h hs, ?_⟩
    obtain ⟨hfit, hadd⟩ := allocedPages_add (hnum ▸ h.le) hroom
    rw [hnum] at hfit
    dsimp only
    omega

lemma exec_onePages {mem : PopMem} {sizes : List (BitVec 64)}
    (hsizes : ∀ size ∈ sizes, 0 < size.toNat ∧ size.toNat ≤ 4096) {s : BufState}
    (h : PageInv mem s) :
    ∃ t, exec bufStep s (sizes.map (.alloc · true)) = some t ∧
      t.mem.allocedPages.toNat = min (s.mem.allocedPages.toNat + sizes.length) mem.numPages.toNat := by
  induction sizes generalizing s with
  | nil =>
    have hle := h.le
    refine ⟨s, rfl, ?_⟩
    simp only [List.length_nil]
    omega
  | cons size sizes ih =>
    obtain ⟨hpos, hle⟩ := hsizes size List.mem_cons_self
    obtain ⟨t, hs, ht, hnext⟩ := bufStep_onePage h hpos hle
    obtain ⟨u, hu, hall⟩ := ih (fun size hm => hsizes size (List.mem_cons_of_mem _ hm)) ht
    refine ⟨u, (exec_cons hs).mpr hu, ?_⟩
    rw [hall, hnext, List.length_cons]
    omega

lemma capacity_numPages {mem : PopMem} (h0 : mem.allocedPages = 0) :
    Capacity mem mem.numPages.toNat := by
  constructor
  · intro ops s hrun
    have hinv := pageInv_reachable h0 hrun
    exact hinv.pages.symm.trans_le hinv.le
  · intro sizes hsizes
    obtain ⟨s, hrun, hused⟩ := exec_onePages hsizes (pageInv_bufInit h0)
    refine ⟨s, hrun, ?_⟩
    have hzero : (bufInit mem).mem.allocedPages.toNat = 0 := by simp [bufInit, h0]
    rw [obtainedPages, ← (pageInv_reachable h0 hrun).pages, hused, hzero, Nat.zero_add]

/-- A hugepage context hands out the pages of its size rounded up, and its size is the intended one
exactly when it was asked for or the system has fewer than 4096 huge pages. -/
theorem hugepage_capacity {env : InitEnv} {s t : Process} {size : BitVec 64} {ctx : Context}
    {nr : BitVec 32} (hinit : popMemInit env s none size = (t, some ctx))
    (hnr : env.nrHugepages = some nr) (hsize : size.toNat < 2 ^ 47) :
    Capacity ctx.mem ((ctx.mem.size.toNat + 4095) / 4096) ∧
      (ctx.mem.size.toNat = intendedSize nr size ↔ size ≠ 0 ∨ nr.toNat < 4096) := by
  obtain ⟨-, hctx⟩ := Prod.mk.inj hinit
  obtain ⟨mem, hmem, rfl⟩ := Option.map_eq_some_iff.mp hctx
  have hget : getNrHugepages env.toHugepageEnv = nr := by
    rw [getNrHugepages, hnr]
    rfl
  obtain ⟨hnonneg, hsz⟩ := popMemInitHugepage_size hmem
  rw [hget] at hnonneg hsz
  obtain ⟨-, h0, hnum⟩ := popMemInitHugepage_some hmem
  have hle := hugepageSize_le hnonneg hsize
  constructor
  · have hpages : mem.numPages.toNat = (mem.size.toNat + 4095) / 4096 := by
      rw [hnum, toNat_pages_up, hsz]
      omega
    rw [← hpages]
    exact capacity_numPages h0
  · rw [hsz]
    exact hugepageSize_eq_iff hnonneg size

def hugeCount (nr : BitVec 32) : InitEnv :=
  { hugeInit with nrHugepages := some nr }

theorem hugepage_capacity_of_sixtyFour :
    (popMemInit (hugeCount 64) processInit none 0).2.map (fun ctx => ctx.mem.size.toNat) =
        some (2097152 * 16) ∧
      intendedSize 64 0 = 2097152 * 16 ∧
      ∀ t ctx, popMemInit (hugeCount 64) processInit none 0 = (t, some ctx) →
        Capacity ctx.mem ((ctx.mem.size.toNat + 4095) / 4096) ∧
          ctx.mem.size.toNat = intendedSize 64 0 := by
  refine ⟨rfl, rfl, ?_⟩
  intro t ctx hinit
  obtain ⟨hcap, hiff⟩ := hugepage_capacity hinit rfl (by decide)
  exact ⟨hcap, hiff.mpr (.inr (by decide))⟩

/-- With 16 GiB and four more huge pages the default is 2 MiB. With half of it `mmap` is asked for a
negative number of bytes. -/
theorem default_size_overflows :
    (popMemInit (hugeCount 8196) processInit none 0).2.map (fun ctx => (ctx.mem.size, ctx.mem.numPages)) =
        some (0x200000, 512) ∧
      intendedSize 8196 0 = 2097152 * 2049 ∧
      hugepageSize 4096 0 = 0xffffffff80000000 ∧ intendedSize 4096 0 = 2147483648 :=
  ⟨rfl, rfl, rfl, rfl⟩

end Libpop.Proofs
