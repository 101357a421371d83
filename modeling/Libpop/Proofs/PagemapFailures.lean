import Libpop.Proofs.TranslationDomain

/-!
# Failed translations

`virt_to_phys` reports a failure as address 0, and `pop_mem_init` takes any answer. A context
has the physical address of its first byte exactly when /proc/self/pagemap could be read far
enough to hold a frame number that is not hidden; with every other outcome the context is
made all the same, and its buffers carry the wrong address on.
-/

namespace Libpop.Proofs
open Execution

/-- The entry of a present page in /proc/self/pagemap: flags over a frame number of 55 bits, which
readers without privilege see as zero. -/
def pagemapEntry (flags : BitVec 9) (hidden : Bool) (frame : BitVec 55) : BitVec 64 :=
  flags ++ (if hidden then 0 else frame)

/-- An entry that was zero before a read of its first `count` bytes. -/
def entryRead (count : Int) (entry : BitVec 64) : BitVec 64 :=
  BitVec.ofNat 64 (entry.toNat % 2 ^ (8 * count.toNat))

/-- What the system answers for the page of `addr`, which lies in `frame`. The open and the seek
may fail, and the read returns an error or any count up to the size of the entry. Frame 0 and
frames beyond 64-bit addresses are never mapped. -/
structure PagemapAnswers (pagemap : Pagemap) (addr : BitVec 64) (frame : BitVec 55)
    (flags : BitVec 9) (hidden : Bool) (count : Int) : Prop where
  pagesize : pagemap.pagesize = 4096
  frame_pos : 0 < frame.toNat
  frame_lt : frame.toNat < 2 ^ 52
  count_le : count ≤ 8
  read : pagemap.read (addr / 4096 * 8) = (count, entryRead count (pagemapEntry flags hidden frame))

def physicalAddr (frame : BitVec 55) (addr : BitVec 64) : BitVec 64 :=
  BitVec.ofNat 64 (frame.toNat * 4096 + addr.toNat % 4096)

/-- The pagemap gave a frame number away, and the read was long enough for all of it. -/
structure FrameRead (pagemap : Pagemap) (addr : BitVec 64) (frame : BitVec 55) (hidden : Bool)
    (count : Int) : Prop where
  opened : pagemap.opened = true
  lseek : 0 ≤ pagemap.lseek (addr / 4096 * 8)
  some_read : 1 ≤ count
  visible : hidden = false
  whole : frame.toNat < 2 ^ (8 * count.toNat)

lemma toNat_pagemapEntry (flags : BitVec 9) (hidden : Bool) (frame : BitVec 55) :
    (pagemapEntry flags hidden frame).toNat = flags.toNat * 2 ^ 55 + if hidden then 0 else frame.toNat := by
  have happ : ∀ low : BitVec 55, (flags ++ low).toNat = flags.toNat * 2 ^ 55 + low.toNat := by
    intro low
    rw [BitVec.toNat_append, ← Nat.shiftLeft_add_eq_or_of_lt low.isLt, Nat.shiftLeft_eq]
  unfold pagemapEntry
  rw [happ]
  cases hidden <;> rfl

lemma toNat_entryRead_frame (flags : BitVec 9) (hidden : Bool) (frame : BitVec 55) {count : Int}
    (hcount : count ≤ 8) :
    (entryRead count (pagemapEntry flags hidden frame) &&& 0x7fffffffffffff).toNat =
      (if hidden then 0 else frame.toNat) % 2 ^ (8 * count.toNat) := by
  have hmask :=
    Word.toNat_and_low (entryRead count (pagemapEntry flags hidden frame)) 55 (by decide)
  refine hmask.trans ?_
  unfold entryRead
  rw [toNat_pagemapEntry, BitVec.toNat_ofNat]
  have hlow : (if hidden then 0 else frame.toNat) < 2 ^ 55 := by
    split
    · decide
    · exact frame.isLt
  generalize (if hidden then 0 else frame.toNat) = low at hlow ⊢
  have hflags := flags.isLt
  have hbytes : count.toNat ≤ 8 := by omega
  generalize count.toNat = bytes at hbytes ⊢
  interval_cases bytes <;> omega

section Answers

variable {pagemap : Pagemap} {addr : BitVec 64} {frame : BitVec 55} {flags : BitVec 9}
  {hidden : Bool} {count : Int} (h : PagemapAnswers pagemap addr frame flags hidden count)

include h

lemma toNat_physicalAddr :
    (physicalAddr frame addr).toNat = frame.toNat * 4096 + addr.toNat % 4096 := by
  have hlt := h.frame_lt
  unfold physicalAddr
  rw [BitVec.toNat_ofNat]
  omega

lemma physicalAddr_ne_zero : physicalAddr frame addr ≠ 0 := by
  have hpos := h.frame_pos
  intro hzero
  have hnat := congrArg BitVec.toNat hzero
  have hlit : (0 : BitVec 64).toNat = 0 := rfl
  rw [toNat_physicalAddr h, hlit] at hnat
  omega

lemma toNat_translated (hpfn : (if hidden then 0 else frame.toNat) % 2 ^ (8 * count.toNat) < 2 ^ 52) :
    ((entryRead count (pagemapEntry flags hidden frame) &&& 0x7fffffffffffff) * 4096 + addr % 4096).toNat =
      (if hidden then 0 else frame.toNat) % 2 ^ (8 * count.toNat) * 4096 + addr.toNat % 4096 := by
  have hlit : (4096 : BitVec 64).toNat = 4096 := rfl
  rw [BitVec.toNat_add, BitVec.toNat_mul, BitVec.toNat_umod, hlit,
    toNat_entryRead_frame flags hidden frame h.count_le]
  omega

theorem virtToPhys_eq_physicalAddr_iff :
    virtToPhys pagemap addr = physicalAddr frame addr ↔
      FrameRead pagemap addr frame hidden count := by
  have hne := physicalAddr_ne_zero h
  have hpos := h.frame_pos
  have hlt := h.frame_lt
  have hpfn : (if hidden then 0 else frame.toNat) % 2 ^ (8 * count.toNat) < 2 ^ 52 := by
    refine lt_of_le_of_lt (Nat.mod_le _ _) ?_
    split <;> omega
  unfold virtToPhys
  by_cases hopen : pagemap.opened = true
  · rw [if_pos hopen, h.pagesize]
    by_cases hseek : pagemap.lseek (addr / 4096 * 8) < 0
    · rw [if_pos hseek]
      exact iff_of_false hne.symm fun hf => absurd hf.lseek (by omega)
    · rw [if_neg hseek, h.read]
      dsimp only
      by_cases hfail : count < 1 ∨ entryRead count (pagemapEntry flags hidden frame) = 0
      · rw [if_pos hfail]
        refine iff_of_false hne.symm ?_
        intro hf
        rcases hfail with hcount | hzero
        · exact absurd hf.some_read (by omega)
        · have hread := toNat_entryRead_frame flags hidden frame h.count_le
          have hlit : ((0 : BitVec 64) &&& 0x7fffffffffffff).toNat = 0 := rfl
          rw [hzero, hlit, hf.visible, if_neg Bool.false_ne_true,
            Nat.mod_eq_of_lt hf.whole] at hread
          omega
      · rw [if_neg hfail, ← BitVec.toNat_inj, toNat_translated h hpfn, toNat_physicalAddr h]
        constructor
        · intro heq
          have hframe : (if hidden then 0 else frame.toNat) % 2 ^ (8 * count.toNat) = frame.toNat := by
            omega
          cases hidden with
          | true =>
            simp only [if_true, Nat.zero_mod] at hframe
            omega
          | false =>
            rw [if_neg Bool.false_ne_true] at hframe
            refine ⟨hopen, by omega, by omega, rfl, ?_⟩
            rw [← hframe]
            exact Nat.mod_lt _ (by positivity)
        · intro hf
          rw [hf.visible, if_neg Bool.false_ne_true, Nat.mod_eq_of_lt hf.whole]
  · rw [if_neg hopen]
    exact iff_of_false hne.symm fun hf => hopen hf.opened

end Answers

/-- The context starts at the physical address `phys`, and every buffer that it ever hands out is
as far from it as from the first mapped byte. -/
structure StartsAt (mem : PopMem) (phys : BitVec 64) : Prop where
  base : mem.paddr = phys
  buffers : ∀ ops s, exec bufStep (bufInit mem) ops = some s → ∀ a ∈ s.allocations,
    a.pbuf.paddr = phys + (a.pbuf.vaddr - mem.mem)

lemma startsAt_iff {mem : PopMem} (h0 : mem.allocedPages = 0) (phys : BitVec 64) :
    StartsAt mem phys ↔ mem.paddr = phys := by
  refine ⟨StartsAt.base, ?_⟩
  rintro rfl
  refine ⟨rfl, ?_⟩
  intro ops s hrun a ha
  obtain ⟨start, nr, -, hbuf⟩ := (pageInv_reachable h0 hrun).carved a ha
  rw [hbuf]
  simp only [carvedBuf]
  rw [BitVec.add_comm mem.mem, BitVec.add_sub_cancel]

lemma mapDevice_isSome_pagemap (env : InitEnv) (pagemap : Pagemap) (s : Process) (dev : List Char)
    (reg : P2pmemReg) :
    (mapDevice { env with pagemap := pagemap } s dev reg).2.isSome =
      (mapDevice env s dev reg).2.isSome := by
  unfold mapDevice
  dsimp only
  generalize s.openNode env.openPopdev env.node (popdevPath reg) = node
  obtain ⟨s', out⟩ := node
  cases out with
  | none => rfl
  | some files =>
    obtain ⟨fd, file⟩ := files
    dsimp only
    cases s'.mmapNode file (env.mmap reg.size) reg.size <;> rfl

/-- No outcome of the lookup keeps `pop_mem_init` from returning a context. -/
lemma popMemInit_isSome_pagemap (env : InitEnv) (pagemap : Pagemap) (s : Process)
    (dev : Option (List Char)) (size : BitVec 64) :
    (popMemInit { env with pagemap := pagemap } s dev size).2.isSome =
      (popMemInit env s dev size).2.isSome := by
  cases dev with
  | none =>
    simp only [popMemInit, Option.isSome_map]
    unfold popMemInitHugepage
    dsimp only [getNrHugepages]
    cases env.malloc with
    | false => rfl
    | true =>
      rw [if_pos rfl, if_pos rfl]
      by_cases hneg : (env.nrHugepages.getD (-1)).slt 0 = true
      · rw [if_pos hneg, if_pos hneg]
      · rw [if_neg hneg, if_neg hneg]
        cases env.mmap (hugepageSize (env.nrHugepages.getD (-1)) size) <;> rfl
  | some dev =>
    simp only [popMemInit, popMemInitDevice]
    split
    · split
      · rfl
      · split
        · split
          · rfl
          · exact mapDevice_isSome_pagemap env pagemap _ dev _
        · rfl
    · rfl

/-- For every outcome of the lookup: the context is returned as with any other, and it and its
buffers carry the physical address of its first byte exactly when the frame number was read. -/
theorem context_translated_iff {env : InitEnv} {s t : Process} {dev : Option (List Char)}
    {size : BitVec 64} {ctx : Context} {frame : BitVec 55} {flags : BitVec 9} {hidden : Bool}
    {count : Int} (hinit : popMemInit env s dev size = (t, some ctx))
    (hans : PagemapAnswers env.pagemap ctx.mem.mem frame flags hidden count) :
    (StartsAt ctx.mem (physicalAddr frame ctx.mem.mem) ↔
      FrameRead env.pagemap ctx.mem.mem frame hidden count) ∧
    ∀ pagemap, (popMemInit { env with pagemap := pagemap } s dev size).2.isSome = true := by
  obtain ⟨hpaddr, h0⟩ := popMemInit_some hinit
  constructor
  · rw [startsAt_iff h0, hpaddr]
    exact virtToPhys_eq_physicalAddr_iff hans
  · intro pagemap
    rw [popMemInit_isSome_pagemap, hinit]
    rfl

/-! ### Outcomes for a context in frame 0x40000 -/

def pagemapInit (opened hidden : Bool) (count : Int) : InitEnv :=
  { hugeInit with pagemap := ⟨opened, 4096, fun _ => 0, fun _ =>
      (count, entryRead count (pagemapEntry 256 hidden 0x40000))⟩ }

lemma pagemapAnswers_init (opened hidden : Bool) {count : Int} (hcount : count ≤ 8) :
    PagemapAnswers (pagemapInit opened hidden count).pagemap 0x7f0000000000 0x40000 256 hidden count :=
  ⟨rfl, by decide, by decide, hcount, rfl⟩

theorem context_translated_whole_entry :
    (popMemInit (pagemapInit true false 8) processInit none 0x400000).2 =
      some ⟨twoHugePages, none, none⟩ ∧
      StartsAt twoHugePages (physicalAddr 0x40000 twoHugePages.mem) := by
  have hinit : popMemInit (pagemapInit true false 8) processInit none 0x400000 =
      (processInit.openFd, some ⟨twoHugePages, none, none⟩) := rfl
  have hread : FrameRead (pagemapInit true false 8).pagemap twoHugePages.mem 0x40000 false 8 :=
    ⟨rfl, by decide, by decide, rfl, by decide⟩
  refine ⟨congrArg Prod.snd hinit, ?_⟩
  exact (context_translated_iff hinit (pagemapAnswers_init true false (by decide))).1.mpr hread

/-- Without access to the pagemap, with a hidden frame number and after a read of two bytes a
context is made for physical address 0, and its first buffer is at address 0. -/
theorem context_without_translation :
    (∀ env ∈ [pagemapInit false false 8, pagemapInit true true 8, pagemapInit true false 2],
      (popMemInit env processInit none 0x400000).2 =
        some ⟨{ twoHugePages with paddr := 0 }, none, none⟩) ∧
      physicalAddr 0x40000 0x7f0000000000 = 0x40000000 ∧
      (bufStep (bufInit { twoHugePages with paddr := 0 }) (.alloc 4096 true)).map BufState.allocations =
        some [⟨4096, ⟨0x7f0000000000, 0, 0x1000, 0, 0⟩⟩] ∧
      ¬StartsAt { twoHugePages with paddr := 0 } (physicalAddr 0x40000 0x7f0000000000) := by
  refine ⟨by decide, by decide, rfl, ?_⟩
  intro h
  exact absurd h.base (by decide)

end Libpop.Proofs
