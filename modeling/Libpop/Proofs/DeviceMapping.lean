import Libpop.Proofs.DeviceLifetime

/-!
# Pages that a device mapping can reach

`pop_dev_mmap` checks the window of a mapping once and `pop_dev_mem_fault` relies on it.
Growing a mapping does not come back to the driver, and a mapping that outlives its device may
meet another device at the address of the freed one. The pages installed by faults stay inside
the p2pmem block along every run that unregisters no open device and whose growths keep to the
window the driver would have accepted.
-/

namespace Libpop.Proofs
open Execution

/-- The window of the mapping lies inside the block of the device. -/
def Fits (vma : Vma) (ppdev : PopDev) : Prop :=
  vma.vmPgoff.toNat * pageSize + vma.length ≤ ppdev.size.toNat

/-- The installed page lies inside the block of its device. -/
def InstalledInside (page : Install) : Prop :=
  page.pgoff.toNat * pageSize + pageSize ≤ page.ppdev.size.toNat

instance (vma : Vma) (ppdev : PopDev) : Decidable (Fits vma ppdev) := by
  unfold Fits
  infer_instance

/-- Growths of a mapping keep to the block of the device behind it. -/
def GrowsInside (s : DeviceState) : DeviceOp → Prop
  | .mremap i j newStart newEnd =>
      ∀ file vma, s.files[i]? = some file → file.maps[j]? = some vma →
        ∀ ppdev ∈ s.registry.devList, file.privateData = some ppdev.id →
          Fits ⟨newStart, newEnd, vma.vmPgoff⟩ ppdev
  | _ => True

/-- An operation that pulls no device from under a mapping and grows none past its block. -/
def KeepsWindows (s : DeviceState) (op : DeviceOp) : Prop :=
  SparesOpenFiles s op ∧ GrowsInside s op

/-- For a window that does not wrap, the driver's check is the bound itself. -/
lemma popDevMmap_eq_zero_iff {vma : Vma} (hw : vma.WellFormed) (ppdev : PopDev) :
    popDevMmap (some ppdev) vma = 0 ↔ Fits vma ppdev := by
  obtain ⟨⟨hlt, -, -⟩, hwrap⟩ := hw
  have hlt' : vma.vmStart.toNat < vma.vmEnd.toNat := hlt
  have hoff : (vma.vmPgoff <<< pageShift).toNat = vma.vmPgoff.toNat * pageSize := by
    rw [Word.toNat_shiftLeft_mul]
    exact Nat.mod_eq_of_lt (lt_of_le_of_lt (Nat.le_add_right _ _) hwrap)
  have hlen : (vma.vmEnd - vma.vmStart).toNat = vma.length := BitVec.toNat_sub_of_le hlt'.le
  have hsum : (vma.vmPgoff <<< pageShift + (vma.vmEnd - vma.vmStart)).toNat =
      vma.vmPgoff.toNat * pageSize + vma.length := by
    rw [BitVec.toNat_add, hoff, hlen, Nat.mod_eq_of_lt hwrap]
  unfold popDevMmap Fits
  dsimp only
  rw [← hsum]
  split
  · rename_i hgt
    exact iff_of_false (by decide) (not_le.mpr hgt)
  · rename_i hgt
    exact iff_of_true rfl (not_lt.mp hgt)

/-- Between page boundaries the page of an address lies inside the window. -/
lemma page_in_window {first last addr pgoff size : Nat} (hfirst : 4096 ∣ first)
    (hlast : 4096 ∣ last) (hlo : first ≤ addr) (hhi : addr < last)
    (hfits : pgoff * 4096 + (last - first) ≤ size) (hsize : size < 2 ^ 64) :
    pgoff * 4096 ≤ (pgoff + (addr - first) / 4096) % 2 ^ 64 * 4096 ∧
      (pgoff + (addr - first) / 4096) % 2 ^ 64 * 4096 + 4096 ≤ pgoff * 4096 + (last - first) := by
  have hdvd : 4096 ∣ last - first := Nat.dvd_sub hlast hfirst
  have hpage : (addr - first) / 4096 < (last - first) / 4096 :=
    Nat.div_lt_div_of_lt_of_dvd hdvd (Nat.sub_lt_sub_right hlo hhi)
  have hlen : (last - first) / 4096 * 4096 = last - first := Nat.div_mul_cancel hdvd
  generalize (addr - first) / 4096 = page at hpage ⊢
  generalize (last - first) / 4096 = pages at hpage hlen
  rw [← hlen] at hfits ⊢
  have hlt : pgoff + page < 2 ^ 64 := by omega
  rw [Nat.mod_eq_of_lt hlt]
  omega

/-- The page of a fault lies inside the window of the mapping. -/
lemma pgoffAt_window {vma : Vma} {ppdev : PopDev} {addr : BitVec 64} (hal : vma.Aligned)
    (hfits : Fits vma ppdev) (ha : vma.Contains addr) :
    vma.vmPgoff.toNat * pageSize ≤ (vma.pgoffAt addr).toNat * pageSize ∧
      (vma.pgoffAt addr).toNat * pageSize + pageSize ≤
        vma.vmPgoff.toNat * pageSize + vma.length := by
  obtain ⟨hlo, hhi⟩ := ha
  obtain ⟨-, hstart, hend⟩ := hal
  have hlo' : vma.vmStart.toNat ≤ addr.toNat := hlo
  have hhi' : addr.toNat < vma.vmEnd.toNat := hhi
  have hpage : ((addr - vma.vmStart) >>> pageShift).toNat =
      (addr.toNat - vma.vmStart.toNat) / 4096 := by
    rw [Word.toNat_shiftRight_div, BitVec.toNat_sub_of_le hlo']
    rfl
  unfold Vma.pgoffAt
  rw [BitVec.toNat_add, hpage]
  exact page_in_window hstart hend hlo' hhi' hfits ppdev.size.isLt

/-- A fault inside a mapping that fits installs a page of the block. -/
lemma pgoffAt_inside {vma : Vma} {ppdev : PopDev} {addr : BitVec 64} (hal : vma.Aligned)
    (hfits : Fits vma ppdev) (ha : vma.Contains addr) : InstalledInside ⟨ppdev, vma.pgoffAt addr⟩ :=
  (pgoffAt_window hal hfits ha).2.trans hfits

/-- The mappings of a file fit the device behind it. -/
def FileInv (r : Registry) (file : OpenFile) : Prop :=
  (∀ vma ∈ file.maps, vma.Aligned) ∧
    ∀ vma ∈ file.maps, ∀ ppdev ∈ r.devList, file.privateData = some ppdev.id → Fits vma ppdev

lemma fileInv_of_closed {r : Registry} {file : OpenFile}
    (ho : file.isOpen = false) : FileInv r file := by
  have hmaps : file.maps = [] := by
    simp [OpenFile.isOpen] at ho
    exact ho.2
  simp [FileInv, hmaps]

/-- What a run with guarded growths keeps. -/
structure MappingInv (s : DeviceState) : Prop where
  registry : RegistryInv s.registry
  files : ∀ file ∈ s.files, FileInv s.registry file
  inside : ∀ page ∈ s.installed, InstalledInside page

lemma MappingInv.sameDevices {s : DeviceState} (h : MappingInv s) {r : Registry}
    (hr : SameDevices s.registry r) : MappingInv { s with registry := r } where
  registry := h.registry.sameDevices hr
  files := by
    intro file hfile
    obtain ⟨hal, hfits⟩ := h.files file hfile
    refine ⟨hal, ?_⟩
    intro vma hv ppdev hm hp
    obtain ⟨d, hd, hid, -, hsize⟩ := hr.mem hm
    have hfit := hfits vma hv d hd (hid ▸ hp)
    unfold Fits at hfit ⊢
    rwa [← hsize]
  inside := h.inside

/-- A device that an ioctl puts on the list is an object that was not live before. -/
lemma popIoctl_fresh (env : KernelEnv) (r : Registry) (cmd : IoctlCmd) (reg : P2pmemReg) :
    ∀ d ∈ (popIoctl env r cmd reg).registry.devList, d ∈ r.devList ∨ d.id ∉ r.objs := by
  intro d hd
  cases cmd with
  | p2pmemReg =>
    rcases devList_reg env r reg with ⟨he, -⟩ | ⟨pdev, p2pmem, -, he⟩
    · exact .inl (he ▸ hd)
    · rw [he] at hd
      rcases List.mem_append.mp hd with hold | hnew
      · exact .inl hold
      · rw [List.mem_singleton.mp hnew]
        exact .inr (env.kmallocAddr r.objs).property
  | p2pmemUnreg =>
    have hx := popIoctl_unreg_exit env r reg
    generalize popIoctl env r .p2pmemUnreg reg = res at hx hd
    cases hx with
    | unregistered pdev ppdev hc hlookup hf => exact .inl (List.mem_of_mem_filter hd)
    | _ => exact .inl hd
  | other cmd => exact .inl hd

/-- The device of a mapping is on the list, so a registration finds its address taken. -/
lemma MappingInv.ioctl {s : DeviceState} (h : MappingInv s) (hsafe : DeviceSafe s) (env : KernelEnv)
    (cmd : IoctlCmd) (reg : P2pmemReg) :
    MappingInv { s with registry := (popIoctl env s.registry cmd reg).registry } where
  registry := popIoctl_inv h.registry env cmd reg
  files := by
    intro file hfile
    obtain ⟨hal, hfits⟩ := h.files file hfile
    refine ⟨hal, ?_⟩
    intro vma hv ppdev hm hp
    rcases popIoctl_fresh env s.registry cmd reg ppdev hm with hold | hnew
    · exact hfits vma hv ppdev hold hp
    · obtain ⟨j, hj⟩ := List.mem_iff_getElem?.mp hv
      obtain ⟨d, hd, hpd⟩ := hsafe.1 file hfile (isOpen_of_getElem? hj)
      rw [hp, Option.some.injEq] at hpd
      exact absurd (hpd ▸ h.registry.ids_live d hd) hnew
  inside := h.inside

lemma NewMap.aligned {s : DeviceState} {i : Nat} {file : OpenFile} {op : DeviceOp} {vma : Vma}
    (h : NewMap s i file op vma) : vma.Aligned := by
  cases h with
  | accepted _ ppdev hw hp hm hok => exact hw.1
  | grown j old newStart newEnd hj ha => exact ha

lemma NewMap.fits {s : DeviceState} {i : Nat} {file : OpenFile} {op : DeviceOp} {vma : Vma}
    (hr : RegistryInv s.registry) (hi : s.files[i]? = some file) (hg : GrowsInside s op)
    (h : NewMap s i file op vma) {d : PopDev} (hd : d ∈ s.registry.devList)
    (hp : file.privateData = some d.id) : Fits vma d := by
  cases h with
  | accepted _ ppdev hw hp' hm hok =>
    rw [hp', Option.some.injEq] at hp
    have heq : ppdev = d := List.inj_on_of_nodup_map hr.ids_nodup hm hd hp
    exact heq ▸ (popDevMmap_eq_zero_iff hw ppdev).mp hok
  | grown j old newStart newEnd hj ha => exact hg file old hi hj d hd hp

lemma mappingInv_step (s : DeviceState) (op : DeviceOp) (t : DeviceState) (hsafe : DeviceSafe s)
    (h : MappingInv s) (hg : GrowsInside s op) (hs : deviceStep s op = some t) : MappingInv t := by
  cases deviceStep_move hs with
  | ioctl env cmd reg => exact h.ioctl hsafe env cmd reg
  | idle _ r hop hr => exact h.sameDevices hr
  | opened env name r ppdev hm hr =>
    refine ⟨h.registry.sameDevices hr, ?_, h.inside⟩
    intro file hfile
    rcases List.mem_append.mp hfile with hold | hnew
    · exact (h.sameDevices hr).files file hold
    · rw [List.mem_singleton.mp hnew]
      exact ⟨by simp, by simp⟩
  | stale _ files file id hop hi ho hp hn hfs =>
    refine ⟨h.registry, ?_, h.inside⟩
    intro f hf
    rcases hfs f hf with hold | ⟨-, hclosed⟩
    · exact h.files f hold
    · exact fileInv_of_closed hclosed
  | kept _ i file file' hop hi ho hp hmaps =>
    refine ⟨h.registry, ?_, h.inside⟩
    intro f hf
    rcases List.mem_or_eq_of_mem_set hf with hold | rfl
    · exact h.files f hold
    · obtain ⟨hal, hfits⟩ := h.files file (List.mem_of_getElem? hi)
      refine ⟨?_, ?_⟩
      · intro vma hv
        rcases hmaps vma hv with hold | hnew
        · exact hal vma hold
        · exact hnew.aligned
      · intro vma hv d hd hpd
        rw [hp] at hpd
        rcases hmaps vma hv with hold | hnew
        · exact hfits vma hold d hd hpd
        · exact hnew.fits h.registry hi hg hd hpd
  | faulted i j addr env file vma ppdev hi hj ha hp hm =>
    have hv := List.mem_of_getElem? hj
    obtain ⟨hal, hfits⟩ := h.files file (List.mem_of_getElem? hi)
    refine ⟨h.registry, h.files, ?_⟩
    intro page hpage
    rcases List.mem_append.mp hpage with hold | hnew
    · exact h.inside page hold
    · rw [List.mem_singleton.mp hnew]
      exact pgoffAt_inside (hal vma hv) (hfits vma hv ppdev hm hp) ha
  | released _ i file' r hop hp ho hr =>
    refine ⟨h.registry.sameDevices hr, ?_, h.inside⟩
    intro f hf
    rcases mem_set_closed hp ho f hf with hold | ⟨-, hclosed⟩
    · exact (h.sameDevices hr).files f hold
    · exact fileInv_of_closed hclosed

/-- Along a run that unregisters no device somebody has open, and in which every growth of a mapping
keeps to the block of its device, every page that a fault installs is a page of that block. -/
theorem faults_install_own_pages {ops : List DeviceOp}
    (hg : Guarded deviceStep KeepsWindows deviceInit ops) :
    Throughout deviceStep (fun s => ∀ page ∈ s.installed, InstalledInside page) deviceInit ops := by
  have hinit : DeviceSafe deviceInit ∧ MappingInv deviceInit :=
    ⟨⟨by simp [deviceInit], rfl⟩, registryInv_popInit, by simp [deviceInit], by simp [deviceInit]⟩
  have hstep : ∀ s op t, DeviceSafe s ∧ MappingInv s → KeepsWindows s op →
      deviceStep s op = some t → DeviceSafe t ∧ MappingInv t := by
    intro s op t h hop hs
    exact ⟨(deviceSafe_step_iff s op t h.1 hs).mpr hop.1, mappingInv_step s op t h.1 h.2 hop.2 hs⟩
  exact throughout_of_guarded (fun s h => h.2.inside) hstep hinit hg

/-- One page of the card, mapped and touched at its last byte. -/
theorem faults_install_own_pages_of_card :
    Throughout deviceStep (fun s => ∀ page ∈ s.installed, InstalledInside page) deviceInit
      [.ioctl cardEnv .p2pmemReg { cardReg with size := 1 }, .open cardEnv "0000:17:00.0".toList,
        .mmap 0 ⟨0x7f0000000000, 0x7f0000001000, 0⟩,
        .mremap 0 0 0x7f0000004000 0x7f0000005000,
        .fault 0 0 0x7f0000004fff ⟨id, fun _ => true⟩] := by
  apply faults_install_own_pages
  refine ⟨⟨trivial, trivial⟩, ⟨trivial, trivial⟩, ⟨trivial, trivial⟩, ⟨trivial, ?_⟩,
    ⟨trivial, trivial⟩, trivial⟩
  intro file vma hfile hvma ppdev hm _
  cases hfile
  cases hvma
  cases hm with
  | head => decide
  | tail _ hm => cases hm

/-- A block of one page, mapped, grown to two pages and touched behind its end. -/
def foreignPageRun : List DeviceOp :=
  [.ioctl cardEnv .p2pmemReg { cardReg with size := 1 }, .open cardEnv "0000:17:00.0".toList,
    .mmap 0 ⟨0x7f0000000000, 0x7f0000001000, 0⟩,
    .mremap 0 0 0x7f0000000000 0x7f0000002000,
    .fault 0 0 0x7f0000001000 ⟨id, fun _ => true⟩]

/-- A mapping of two pages that outlives its device: the card is registered again with one page, and
the new object takes the place of the freed one. -/
def reusedObjectRun : List DeviceOp :=
  [.ioctl cardEnv .p2pmemReg { cardReg with size := 8192 }, .open cardEnv "0000:17:00.0".toList,
    .mmap 0 ⟨0x7f0000000000, 0x7f0000002000, 0⟩,
    .ioctl cardEnv .p2pmemUnreg cardReg, .ioctl cardEnv .p2pmemReg { cardReg with size := 4096 },
    .fault 0 0 0x7f0000001000 ⟨id, fun _ => true⟩]

/-- A run that ends with page 1 of a block of 4096 bytes installed. -/
lemma not_throughout_of_second_page {ops : List DeviceOp}
    (hrun : (exec deviceStep deviceInit ops).map
      (fun s => s.installed.map fun page => (page.pgoff, page.ppdev.size)) = some [(1, 4096)]) :
    ¬Throughout deviceStep (fun s => ∀ page ∈ s.installed, InstalledInside page) deviceInit ops := by
  apply not_throughout_of_map hrun
  intro s hobs hinside
  have hmem : ((1 : BitVec 64), (4096 : BitVec 64)) ∈
      s.installed.map fun page => (page.pgoff, page.ppdev.size) := by simp [hobs]
  obtain ⟨page, hpage, he⟩ := List.mem_map.mp hmem
  have hin := hinside page hpage
  unfold InstalledInside at hin
  rw [(Prod.mk.inj he).1, (Prod.mk.inj he).2] at hin
  exact absurd hin (by decide)

/-- Either fault installs page 1 of a block of 4096 bytes. -/
theorem grown_mapping_installs_foreign_page :
    (exec deviceStep deviceInit foreignPageRun).map
      (fun s => s.installed.map fun page => (page.pgoff, page.ppdev.size)) = some [(1, 4096)] ∧
    (exec deviceStep deviceInit reusedObjectRun).map
      (fun s => s.installed.map fun page => (page.pgoff, page.ppdev.size)) = some [(1, 4096)] ∧
    ¬Throughout deviceStep (fun s => ∀ page ∈ s.installed, InstalledInside page) deviceInit foreignPageRun ∧
    ¬Throughout deviceStep (fun s => ∀ page ∈ s.installed, InstalledInside page)
      deviceInit reusedObjectRun := by
  have hgrown : (exec deviceStep deviceInit foreignPageRun).map
      (fun s => s.installed.map fun page => (page.pgoff, page.ppdev.size)) = some [(1, 4096)] := by
    decide
  have hreused : (exec deviceStep deviceInit reusedObjectRun).map
      (fun s => s.installed.map fun page => (page.pgoff, page.ppdev.size)) = some [(1, 4096)] := by
    decide
  exact ⟨hgrown, hreused, not_throughout_of_second_page hgrown,
    not_throughout_of_second_page hreused⟩

end Libpop.Proofs
