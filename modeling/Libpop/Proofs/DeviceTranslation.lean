import Libpop.Proofs.BufferWindow
import Libpop.Proofs.ContextAccounts
import Libpop.Proofs.HugepageTranslation

/-!
# Physical addresses in a device context

The fault handler of the module maps the card's memory page by page, while the library
looks up the first page once and extrapolates, through the allocator and the offset of a
buffer. Both give every byte of the context the same physical address.
-/

namespace Libpop.Proofs
open Buffer Execution

/-- A fault at `v` maps a frame in which `v` has the physical address `pa`. -/
def MapsTo (env : FaultEnv) (ppdev : Option PopDev) (vma : Vma) (v pa : BitVec 64) : Prop :=
  ∃ pfn, popDevMemFault env (some ppdev) (vma.pgoffAt v) = .page pfn ∧ pa = (pfn <<< pageShift) + v % 4096

/-- What is assumed of the kernel: `virt_to_phys` is linear over the memory of the device, its
frames are valid and not frame 0, and the pagemap of the process shows the frame that the
fault handler maps at the start of the area. -/
structure P2pmemMapped (env : FaultEnv) (pagemap : Pagemap) (ppdev : PopDev)
    (vma : Vma) : Prop where
  linear : ∀ d < ppdev.size.toNat, env.virtToPhys (ppdev.p2pmem + BitVec.ofNat 64 d) =
    env.virtToPhys ppdev.p2pmem + BitVec.ofNat 64 d
  bounded : (env.virtToPhys ppdev.p2pmem).toNat + ppdev.size.toNat < 2 ^ 64
  frame : ∀ d < ppdev.size.toNat, env.virtToPhys (ppdev.p2pmem + BitVec.ofNat 64 d) >>> pageShift ≠ 0 ∧
    env.pfnValid (env.virtToPhys (ppdev.p2pmem + BitVec.ofNat 64 d) >>> pageShift) = true
  opened : pagemap.opened = true
  pagesize : pagemap.pagesize = 4096
  lseek : ∀ pos, 0 ≤ pagemap.lseek pos
  read : 1 ≤ (pagemap.read (vma.vmStart / 4096 * 8)).1
  first : ∀ pfn, popDevMemFault env (some (some ppdev)) (vma.pgoffAt vma.vmStart) = .page pfn →
    (pagemap.read (vma.vmStart / 4096 * 8)).2 &&& 0x7fffffffffffff = pfn

/-! ### The fault handler -/

section Mapped

variable {env : FaultEnv} {pagemap : Pagemap} {ppdev : PopDev} {mem size : BitVec 64}
  (hw : (Process.nodeVma mem size).WellFormed) (hsize : size = ppdev.size)
  (h : P2pmemMapped env pagemap ppdev (Process.nodeVma mem size))

/-- The area does not wrap around, and it starts on a page. -/
lemma nodeVma_bounds (hw : (Process.nodeVma mem size).WellFormed) :
    mem.toNat + size.toNat < 2 ^ 64 ∧ 0 < size.toNat ∧ mem.toNat % 4096 = 0 := by
  obtain ⟨⟨hlt, ⟨q, hq⟩, -⟩, -⟩ := hw
  have hup := Word.toNat_roundUp size
  simp only [Process.nodeVma, BitVec.lt_def, BitVec.toNat_add, pageSize, pageShift] at hlt hq
  have hmem := mem.isLt
  have hs := size.isLt
  split at hup <;> omega

include hsize h in
lemma popDevMemFault_page {v : BitVec 64} (hlo : mem ≤ v) (hhi : v.toNat < mem.toNat + size.toNat) :
    ∃ pfn, popDevMemFault env (some (some ppdev)) ((Process.nodeVma mem size).pgoffAt v) =
      .page pfn ∧
      pfn ≠ 0 ∧ pfn.toNat = (env.virtToPhys ppdev.p2pmem).toNat / 4096 + (v.toNat - mem.toNat) / 4096 := by
  have hlo' : mem.toNat ≤ v.toNat := hlo
  have hv := v.isLt
  have hbound := h.bounded
  have hsub : (v - mem).toNat = v.toNat - mem.toNat := BitVec.toNat_sub_of_le hlo
  generalize hd : (v.toNat - mem.toNat) / 4096 * 4096 = d
  have hlt : d < ppdev.size.toNat := by
    rw [← hsize]
    omega
  have hpage : (Process.nodeVma mem size).pgoffAt v <<< pageShift = BitVec.ofNat 64 d := by
    apply BitVec.eq_of_toNat_eq
    have hoff : (Process.nodeVma mem size).pgoffAt v = (v - mem) >>> pageShift := BitVec.zero_add _
    rw [hoff, Word.toNat_shiftLeft_mul, Word.toNat_shiftRight_div, hsub, BitVec.toNat_ofNat, ← hd]
    rfl
  obtain ⟨hne, hvalid⟩ := h.frame d hlt
  have hpa : env.virtToPhys (ppdev.p2pmem + BitVec.ofNat 64 d) ≠ 0 := by
    intro hzero
    rw [hzero] at hne
    exact hne rfl
  refine ⟨env.virtToPhys (ppdev.p2pmem + BitVec.ofNat 64 d) >>> pageShift, ?_, hne, ?_⟩
  · simp only [popDevMemFault, hpage]
    rw [if_neg hpa, if_pos hvalid]
  · rw [Word.toNat_shiftRight_div, h.linear d hlt, BitVec.toNat_add, BitVec.toNat_ofNat,
      Nat.mod_eq_of_lt (by omega : d < 2 ^ 64), Nat.mod_eq_of_lt (by omega)]
    unfold pageShift
    omega

include hw hsize h in
/-- The library's lookup of the first page. -/
lemma toNat_virtToPhys_first :
    (virtToPhys pagemap mem).toNat = (env.virtToPhys ppdev.p2pmem).toNat / 4096 * 4096 := by
  obtain ⟨hend, hpos, hal⟩ := nodeVma_bounds hw
  obtain ⟨pfn, hfault, hne, hpfn⟩ := popDevMemFault_page hsize h (BitVec.le_refl mem) (by omega)
  have hbound := h.bounded
  have hfirst : (pagemap.read (mem / 4096 * 8)).2 &&& 0x7fffffffffffff = pfn := h.first pfn hfault
  have hread : 1 ≤ (pagemap.read (mem / 4096 * 8)).1 := h.read
  have hentry : (pagemap.read (mem / 4096 * 8)).2 ≠ 0 := by
    intro hzero
    rw [hzero] at hfirst
    exact hne (hfirst.symm.trans BitVec.zero_and)
  have hlit : (4096 : BitVec 64).toNat = 4096 := rfl
  unfold virtToPhys
  rw [if_pos h.opened]
  dsimp only
  rw [h.pagesize, if_neg (not_lt.mpr (h.lseek _)), if_neg (not_or.mpr ⟨not_lt.mpr hread, hentry⟩),
    hfirst, BitVec.toNat_add, BitVec.toNat_mul, BitVec.toNat_umod, hlit, hal, hpfn]
  omega

include hw hsize h in
/-- Extrapolation from the first page is right for every byte of the area. -/
lemma mapsTo_linear {v : BitVec 64} (hlo : mem ≤ v) (hhi : v.toNat < mem.toNat + size.toNat) :
    MapsTo env (some ppdev) (Process.nodeVma mem size) v (virtToPhys pagemap mem + (v - mem)) := by
  obtain ⟨hend, hpos, hal⟩ := nodeVma_bounds hw
  obtain ⟨pfn, hfault, -, hpfn⟩ := popDevMemFault_page hsize h hlo hhi
  refine ⟨pfn, hfault, ?_⟩
  have hlo' : mem.toNat ≤ v.toNat := hlo
  have hbound := h.bounded
  have hsz : ppdev.size.toNat = size.toNat := by rw [hsize]
  have hlit : (4096 : BitVec 64).toNat = 4096 := rfl
  apply BitVec.eq_of_toNat_eq
  rw [BitVec.toNat_add, BitVec.toNat_add, toNat_virtToPhys_first hw hsize h,
    BitVec.toNat_sub_of_le hlo, Word.toNat_shiftLeft_mul, hpfn, BitVec.toNat_umod, hlit]
  unfold pageShift
  omega

end Mapped

/-! ### Contexts and their buffers -/

lemma popMemInitDevice_some {env : InitEnv} {s t : Process} {dev : List Char} {size : BitVec 64}
    {ctx : Context} (h : popMemInitDevice env s dev size = (t, some ctx)) :
    ∃ file ppdev, ctx.file = some file ∧
      t.device.files[file]? = some (mappedFile ppdev ctx.mem.mem ctx.mem.size) ∧
      ppdev.id ∈ t.device.registry.devList.map PopDev.id ∧
      (Process.nodeVma ctx.mem.mem ctx.mem.size).WellFormed ∧
      ctx.mem.paddr = virtToPhys env.pagemap ctx.mem.mem ∧
      ctx.mem.numPages = ctx.mem.size >>> pageShift ∧ ctx.mem.allocedPages = 0 := by
  unfold popMemInitDevice at h
  split at h
  · split at h
    · cases h
    · split at h
      · dsimp only at h
        split at h
        · cases h
        · rcases mapDevice_cases env _ dev _ with
            ⟨u, he, -⟩ | ⟨u, mem, ppdev, hmaps, hr, -, hfile, he⟩
          · rw [he] at h
            cases h
          · rw [he] at h
            obtain ⟨rfl, hctx⟩ := Prod.mk.inj h
            obtain rfl := Option.some.inj hctx
            refine ⟨_, ppdev, rfl, hfile, ?_, hmaps.area, rfl, rfl, rfl⟩
            rw [hr.ids]
            exact List.mem_map_of_mem hmaps.node.find.2
      · cases h
  · cases h

/-- A buffer is as far from the start of the context on both sides of the translation, and its
data moves both addresses by the same offset. -/
lemma popBufPaddr_eq {mem : PopMem} {a : Allocation} (ha : Carved mem a) {pbuf : Pbuf}
    (hv : pbuf.vaddr = a.pbuf.vaddr) (hp : pbuf.paddr = a.pbuf.paddr) :
    popBufPaddr pbuf = mem.paddr + (popBufData pbuf - mem.mem) := by
  have hlin := ha.linear
  unfold popBufPaddr popBufData
  rw [hv, hp]
  bv_omega

lemma pbufStep_frame {buf : PopBuf} (pbuf : Pbuf) (call : Adjust × BitVec 64) (pbuf' : Pbuf)
    (h : pbuf.vaddr = buf.vaddr ∧ pbuf.paddr = buf.paddr) (hs : pbufStep pbuf call = some pbuf') :
    pbuf'.vaddr = buf.vaddr ∧ pbuf'.paddr = buf.paddr := by
  simp only [pbufStep, Option.some.injEq] at hs
  obtain ⟨offset, length, he⟩ := popBufAdjust_frame pbuf call.1 call.2
  rw [← hs, he]
  exact h

section Buffers

variable {mem : PopMem} {s : BufState} (h : CarveInv mem s) {a : Allocation}
  (ha : a ∈ s.allocations)

include h ha

lemma buffer_in_pages :
    mem.mem.toNat ≤ a.pbuf.vaddr.toNat ∧
      a.pbuf.vaddr.toNat + a.pbuf.size.toNat ≤ mem.mem.toNat + mem.numPages.toNat * 4096 := by
  have hstop : (extentOf mem a).start + requestPages a ≤ mem.numPages.toNat :=
    (h.packed.stop_le _ (List.mem_map_of_mem ha)).trans h.le
  have hvaddr := (h.carved a ha).vaddr
  have hsize := (h.carved a ha).size
  omega

/-- Below 2^63 the data of a buffer never leaves it. -/
lemma data_in_buffer {addr : BitVec 64} {calls : List (Adjust × BitVec 64)} {pbuf : Pbuf}
    (hend : mem.mem.toNat + mem.numPages.toNat * 4096 < 2 ^ 64) (hsize : a.pbuf.size.toNat < 2 ^ 63)
    (hlen : ∀ call ∈ calls, call.2.toNat < 2 ^ 63)
    (hrun : exec pbufStep ⟨a.pbuf, addr⟩ calls = some pbuf) :
    a.pbuf.vaddr.toNat ≤ (popBufData pbuf).toNat ∧
      (popBufData pbuf).toNat + pbuf.length.toNat ≤ a.pbuf.vaddr.toNat + a.pbuf.size.toNat := by
  obtain ⟨hoff, hzero⟩ := (h.carved a ha).empty
  obtain ⟨-, hpages⟩ := buffer_in_pages h ha
  have hstart : Tracks a.pbuf addr ⟨a.pbuf, addr⟩ (Window.empty a.pbuf.size.toNat) := by
    refine ⟨?_, ?_, rfl⟩
    · rw [hoff]
      rfl
    · rw [hoff, hzero]
      rfl
  obtain ⟨w, -, htracks⟩ := exec_simulation (tracks_step hsize) hstart hlen hrun
  have hfits := w.fits
  have hstop := htracks.length
  unfold popBufData
  rw [htracks.vaddr, BitVec.toNat_add]
  omega

end Buffers

/-- For a device context whose node is mapped in the size of the device: `pop_virt_to_phys` is
the physical address of the byte that the fault handler maps there, for every address of the
context, and so is `pop_buf_paddr` for the data of every buffer after any calls on it. With
lengths below 2^63 in a context below 2^63 that data stays inside the context. -/
theorem device_translations_agree {env : InitEnv} {s t : Process} {dev : List Char}
    {size : BitVec 64} {ctx : Context} (hinit : popMemInit env s (some dev) size = (t, some ctx)) :
    ∃ file ppdev vma, ctx.file.bind (t.device.files[·]?) = some file ∧
      file.privateData.bind t.device.registry.popDevAt = some ppdev ∧ file.maps = [vma] ∧
      ∀ fenv, ctx.mem.size = ppdev.size → P2pmemMapped fenv env.pagemap ppdev vma →
        (∀ v, ctx.mem.mem ≤ v → v.toNat < ctx.mem.mem.toNat + ctx.mem.size.toNat →
          MapsTo fenv (some ppdev) vma v (popVirtToPhys ctx.mem v)) ∧
        ∀ ops bufs, exec bufStep (bufInit ctx.mem) ops = some bufs → ∀ a ∈ bufs.allocations,
          ∀ addr calls pbuf, exec pbufStep ⟨a.pbuf, addr⟩ calls = some pbuf →
            (∀ i, ctx.mem.mem ≤ popBufData pbuf + i →
              (popBufData pbuf + i).toNat < ctx.mem.mem.toNat + ctx.mem.size.toNat →
                MapsTo fenv (some ppdev) vma (popBufData pbuf + i) (popBufPaddr pbuf + i)) ∧
            (ctx.mem.size.toNat < 2 ^ 63 → (∀ call ∈ calls, call.2.toNat < 2 ^ 63) →
              ctx.mem.mem.toNat ≤ (popBufData pbuf).toNat ∧
                (popBufData pbuf).toNat + pbuf.length.toNat ≤
                  ctx.mem.mem.toNat + ctx.mem.size.toNat) := by
  obtain ⟨i, object, hfile, hf, hid, hw, hpaddr, hpages, halloc⟩ := popMemInitDevice_some hinit
  cases hat : t.device.registry.popDevAt object.id with
  | none => exact absurd hid (popDevAt_none_iff.mp hat)
  | some ppdev =>
    refine ⟨mappedFile object ctx.mem.mem ctx.mem.size, ppdev,
      Process.nodeVma ctx.mem.mem ctx.mem.size, ?_, hat, rfl, ?_⟩
    · rw [hfile]
      exact hf
    · intro fenv hsize hk
      have hlinear : ∀ v, ctx.mem.mem ≤ v → v.toNat < ctx.mem.mem.toNat + ctx.mem.size.toNat →
          MapsTo fenv (some ppdev) (Process.nodeVma ctx.mem.mem ctx.mem.size) v
            (ctx.mem.paddr + (v - ctx.mem.mem)) := by
        intro v hlo hhi
        rw [hpaddr]
        exact mapsTo_linear hw hsize hk hlo hhi
      obtain ⟨hend, -, -⟩ := nodeVma_bounds hw
      have hbound := hk.bounded
      rw [← hsize] at hbound
      have hfirst := toNat_virtToPhys_first hw hsize hk
      have hnum : ctx.mem.numPages.toNat = ctx.mem.size.toNat / 4096 := by
        rw [hpages, Word.toNat_shiftRight_div]
        rfl
      refine ⟨?_, ?_⟩
      · intro v hlo hhi
        rw [popVirtToPhys_of_mem hend hlo hhi]
        exact hlinear v hlo hhi
      · intro ops bufs hrun a ha addr calls pbuf hcalls
        have hcarve := carveInv_reachable (by omega) (by rw [hpaddr]; omega) halloc hrun
        obtain ⟨hlow, hhigh⟩ := buffer_in_pages hcarve ha
        obtain ⟨hv, hp⟩ := exec_invariant pbufStep_frame ⟨rfl, rfl⟩ hcalls
        refine ⟨?_, ?_⟩
        · intro i hlo hhi
          have hpa :
              popBufPaddr pbuf + i = ctx.mem.paddr + (popBufData pbuf + i - ctx.mem.mem) := by
            rw [popBufPaddr_eq (hcarve.carved a ha) hv hp]
            bv_omega
          rw [hpa]
          exact hlinear _ hlo hhi
        · intro hsmall hlen
          have hdata := data_in_buffer hcarve ha (by omega) (by omega) hlen hcalls
          omega

/-- The kernel's linear map over the memory of the card. -/
def cardFault : FaultEnv :=
  ⟨fun addr => addr - 0xffff888000000000, fun _ => true⟩

/-- The context that `pop_mem_init` returns for the card, and the object behind its node. -/
def cardContext : Context :=
  ⟨⟨3, "17:00.0".toList, ⟨0, 0x17, 0, 0, 0x10000⟩, 0x7f0000000000, 0x380000000, 0x10000, 16, 0⟩,
    some 0, some 7⟩

def cardPopDev : PopDev :=
  ⟨0, 7, "pop/0000:17:00.0".toList, 0xffff888380000000, 0x10000, 1⟩

lemma p2pmemMapped_card :
    P2pmemMapped cardFault cardInit.pagemap cardPopDev (Process.nodeVma 0x7f0000000000 0x10000) := by
  have hphys : ∀ d < 0x10000, (cardFault.virtToPhys (cardPopDev.p2pmem + BitVec.ofNat 64 d)).toNat =
      0x380000000 + d := by
    intro d hd
    simp only [cardFault, cardPopDev]
    bv_omega
  refine ⟨?_, by decide, ?_, rfl, rfl, fun _ => le_refl _, by decide, ?_⟩
  · intro d hd
    have hd' : d < 0x10000 := hd
    apply BitVec.eq_of_toNat_eq
    rw [hphys d hd']
    simp only [cardFault, cardPopDev]
    bv_omega
  · intro d hd
    refine ⟨fun hzero => ?_, rfl⟩
    have hz := congrArg BitVec.toNat hzero
    rw [Word.toNat_shiftRight_div, hphys d hd] at hz
    simp [pageShift] at hz
    omega
  · intro pfn hfault
    obtain rfl : 0x380000 = pfn := FaultResult.page.inj hfault
    decide

/-- In the context of the card the last byte but one of its 64 KiB is translated as the fault
handler maps it. -/
theorem device_translations_agree_card :
    ∃ t, popMemInit cardInit processInit (some "17:00.0".toList) 0 = (t, some cardContext) ∧
      popVirtToPhys cardContext.mem 0x7f000000fffe = 0x38000fffe ∧
      MapsTo cardFault (some cardPopDev) (Process.nodeVma 0x7f0000000000 0x10000) 0x7f000000fffe
        (popVirtToPhys cardContext.mem 0x7f000000fffe) := by
  refine ⟨_, rfl, by decide, ?_⟩
  obtain ⟨file, ppdev, vma, hfile, hpp, hmaps, hall⟩ := device_translations_agree
    (show popMemInit cardInit processInit (some "17:00.0".toList) 0 = (_, some cardContext) from rfl)
  obtain rfl := Option.some.inj hfile
  obtain rfl : cardPopDev = ppdev := Option.some.inj hpp
  obtain rfl : Process.nodeVma 0x7f0000000000 0x10000 = vma := List.head_eq_of_cons_eq hmaps
  exact (hall cardFault rfl p2pmemMapped_card).1 _ (by decide) (by decide)

end Libpop.Proofs
