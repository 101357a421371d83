import Mathlib.Data.List.Pairwise
import Mathlib.Data.Set.BooleanAlgebra
import Mathlib.Order.CompletePartialOrder
import Mathlib.Order.Interval.Set.Disjoint
import Libpop.Proofs.DeviceMapping

/-!
# Mappings of different devices

Each device node gives access to one p2pmem block, and the pools hand out blocks that nobody
holds. As long as nobody unregisters a device that is open and no mapping is grown past its
block, whatever the processes do: a mapping reaches only memory of the block of its device,
this block has not been given back, and mappings of different devices reach no common byte.
-/

namespace Libpop.Proofs
open Execution

/-- The kernel addresses of a block of p2pmem. -/
def spanFrom (p2pmem size : BitVec 64) : Set Nat :=
  Set.Ico p2pmem.toNat (p2pmem.toNat + size.toNat)

def blockBytes (d : PopDev) : Set Nat :=
  spanFrom d.p2pmem d.size

/-- The memory of a device that faults in a mapping can reach. -/
def windowBytes (d : PopDev) (vma : Vma) : Set Nat :=
  Set.Ico (d.p2pmem.toNat + vma.vmPgoff.toNat * pageSize)
    (d.p2pmem.toNat + vma.vmPgoff.toNat * pageSize + vma.length)

lemma windowBytes_subset {d : PopDev} {vma : Vma} (h : Fits vma d) :
    windowBytes d vma ⊆ blockBytes d := by
  unfold Fits at h
  apply Set.Ico_subset_Ico
  · omega
  · omega

/-- What a fault inside a mapping installs is the frame of a page that the mapping reaches. -/
theorem popDevMemFault_window {d : PopDev} {vma : Vma} {addr : BitVec 64} {env : FaultEnv}
    {pfn : BitVec 64} (hal : vma.Aligned) (hfits : Fits vma d)
    (hblock : d.p2pmem.toNat + d.size.toNat ≤ 2 ^ 64) (ha : vma.Contains addr)
    (hpage : popDevMemFault env (some (some d)) (vma.pgoffAt addr) = .page pfn) :
    ∃ va : BitVec 64, pfn = env.virtToPhys va >>> pageShift ∧
      Set.Ico va.toNat (va.toNat + pageSize) ⊆ windowBytes d vma := by
  have hinside : (vma.pgoffAt addr).toNat * pageSize + pageSize ≤ d.size.toNat :=
    pgoffAt_inside hal hfits ha
  obtain ⟨hlower, hupper⟩ := pgoffAt_window hal hfits ha
  have hva : (d.p2pmem + (vma.pgoffAt addr <<< pageShift)).toNat =
      d.p2pmem.toNat + (vma.pgoffAt addr).toNat * pageSize := by
    rw [BitVec.toNat_add, Word.toNat_shiftLeft_mul]
    change (d.p2pmem.toNat + (vma.pgoffAt addr).toNat * pageSize % 2 ^ 64) % 2 ^ 64 = _
    unfold pageSize at hinside ⊢
    omega
  refine ⟨d.p2pmem + (vma.pgoffAt addr <<< pageShift), ?_, ?_⟩
  · simp only [popDevMemFault] at hpage
    split at hpage
    · cases hpage
    · split at hpage
      · cases hpage
        rfl
      · cases hpage
  · rw [hva]
    apply Set.Ico_subset_Ico
    · omega
    · omega

/-- The pool gives out a block that no listed device holds. -/
def FreshBlock (s : DeviceState) : DeviceOp → Prop
  | .ioctl env .p2pmemReg reg => ∀ pdev p2pmem, env.lookup reg = some pdev →
      env.pciAllocP2pmem pdev (requestSize env pdev reg.size) = some p2pmem →
        ∀ d ∈ s.registry.devList, Disjoint (blockBytes d)
          (spanFrom p2pmem (requestSize env pdev reg.size))
  | _ => True

/-- Blocks of listed devices share no byte. -/
def BlocksDisjoint (r : Registry) : Prop :=
  r.devList.Pairwise fun d e => Disjoint (blockBytes d) (blockBytes e)

section Blocks

variable {r t : Registry}

lemma BlocksDisjoint.sameDevices (h : BlocksDisjoint r)
    (hr : SameDevices r t) : BlocksDisjoint t := by
  have hbytes : t.devList.map blockBytes = r.devList.map blockBytes := by
    have hmap := congrArg (List.map blockBytes) hr.1
    rw [List.map_map, List.map_map] at hmap
    exact hmap
  unfold BlocksDisjoint at h ⊢
  rw [← List.pairwise_map (R := Disjoint)] at h ⊢
  rwa [hbytes]

/-- A registration that succeeds lists the block that the pool gave out. -/
lemma devList_published (env : KernelEnv) (r : Registry) (reg : P2pmemReg) :
    (popIoctl env r .p2pmemReg reg).registry.devList = r.devList ∨
      ∃ pdev p2pmem d, env.lookup reg = some pdev ∧
        env.pciAllocP2pmem pdev (requestSize env pdev reg.size) = some p2pmem ∧
        blockBytes d = spanFrom p2pmem (requestSize env pdev reg.size) ∧
        (popIoctl env r .p2pmemReg reg).registry.devList = r.devList ++ [d] := by
  have hx := popIoctl_reg_exit env r reg
  generalize popIoctl env r .p2pmemReg reg = res at hx ⊢
  cases hx with
  | report pdev res hc hd hp hres =>
    rw [regReport_devList env reg pdev res]
    cases hres with
    | published p2pmem hf ha hk hm => exact .inr ⟨pdev, p2pmem, _, hd, ha, rfl, rfl⟩
    | _ => exact .inl rfl
  | _ => exact .inl rfl

lemma blocksDisjoint_ioctl {s : DeviceState} (h : BlocksDisjoint s.registry) (env : KernelEnv)
    (cmd : IoctlCmd) (reg : P2pmemReg) (hop : FreshBlock s (.ioctl env cmd reg)) :
    BlocksDisjoint (popIoctl env s.registry cmd reg).registry := by
  unfold BlocksDisjoint at h ⊢
  cases cmd with
  | p2pmemReg =>
    rcases devList_published env s.registry reg with hsame | ⟨pdev, p2pmem, d, hpdev, halloc, hbytes, hlist⟩
    · rwa [hsame]
    · rw [hlist, List.pairwise_append]
      refine ⟨h, List.pairwise_singleton _ _, ?_⟩
      intro e he d' hd'
      rw [List.mem_singleton.mp hd', hbytes]
      exact hop pdev p2pmem hpdev halloc e he
  | p2pmemUnreg =>
    have hx := popIoctl_unreg_exit env s.registry reg
    generalize popIoctl env s.registry .p2pmemUnreg reg = res at hx ⊢
    cases hx with
    | unregistered pdev ppdev hc hd hf => exact h.filter _
    | _ => exact h
  | other cmd => exact h

lemma blocksDisjoint_step {s t : DeviceState} {op : DeviceOp} (h : BlocksDisjoint s.registry)
    (hop : FreshBlock s op) (hs : deviceStep s op = some t) : BlocksDisjoint t.registry := by
  cases deviceStep_move hs with
  | ioctl env cmd reg => exact blocksDisjoint_ioctl h env cmd reg hop
  | idle _ r hop hr => exact h.sameDevices hr
  | opened env name r ppdev hm hr => exact h.sameDevices hr
  | stale _ files file id hop hi ho hp hn hfs => exact h
  | kept _ i file file' hop hi ho hp hmaps => exact h
  | faulted i j addr env file vma ppdev hi hj ha hp hm => exact h
  | released _ i file' r hop hp ho hr => exact h.sameDevices hr

end Blocks

/-! ### Isolation -/

/-- An operation that pulls no device from under an open file, grows no mapping past its block, and
for which the pool gives out a block that nobody holds. -/
def KeepsApart (s : DeviceState) (op : DeviceOp) : Prop :=
  SparesOpenFiles s op ∧ GrowsInside s op ∧ FreshBlock s op

/-- Every mapping reaches only the block of a listed device, mappings of different devices reach no
common byte, and every page that a fault has installed was one of its device. -/
structure Isolated (s : DeviceState) : Prop where
  own : ∀ file ∈ s.files, ∀ vma ∈ file.maps,
    ∃ d ∈ s.registry.devList, file.privateData = some d.id ∧ windowBytes d vma ⊆ blockBytes d
  apart : ∀ file ∈ s.files, ∀ vma ∈ file.maps, ∀ file' ∈ s.files, ∀ vma' ∈ file'.maps,
    ∀ d ∈ s.registry.devList, ∀ d' ∈ s.registry.devList, file.privateData = some d.id →
      file'.privateData = some d'.id → d.id ≠ d'.id → Disjoint (windowBytes d vma) (windowBytes d' vma')
  installed : ∀ page ∈ s.installed, InstalledInside page

/-- What the three conditions keep. -/
structure IsolationInv (s : DeviceState) : Prop where
  safe : DeviceSafe s
  mapping : MappingInv s
  blocks : BlocksDisjoint s.registry

lemma IsolationInv.isolated {s : DeviceState} (h : IsolationInv s) : Isolated s := by
  have hfits {file : OpenFile} {vma : Vma} {d : PopDev} (hfile : file ∈ s.files) (hvma : vma ∈ file.maps)
      (hd : d ∈ s.registry.devList) (hp : file.privateData = some d.id) : windowBytes d vma ⊆ blockBytes d :=
    windowBytes_subset ((h.mapping.files file hfile).2 vma hvma d hd hp)
  refine ⟨?_, ?_, h.mapping.inside⟩
  · intro file hfile vma hvma
    have hopen : file.isOpen = true := by
      obtain ⟨j, hj⟩ := List.mem_iff_getElem?.mp hvma
      exact isOpen_of_getElem? hj
    obtain ⟨d, hd, hp⟩ := h.safe.1 file hfile hopen
    exact ⟨d, hd, hp, hfits hfile hvma hd hp⟩
  · intro file hfile vma hvma file' hfile' vma' hvma' d hd d' hd' hp hp' hne
    have : Std.Symm fun d e : PopDev => Disjoint (blockBytes d) (blockBytes e) :=
      ⟨fun _ _ hdisjoint => hdisjoint.symm⟩
    have hdisjoint : Disjoint (blockBytes d) (blockBytes d') :=
      h.blocks.forall hd hd' fun hsame => hne (congrArg PopDev.id hsame)
    exact hdisjoint.mono (hfits hfile hvma hd hp) (hfits hfile' hvma' hd' hp')

lemma isolationInv_step (s : DeviceState) (op : DeviceOp) (t : DeviceState) (h : IsolationInv s)
    (hop : KeepsApart s op) (hs : deviceStep s op = some t) : IsolationInv t :=
  ⟨(deviceSafe_step_iff s op t h.safe hs).mpr hop.1,
    mappingInv_step s op t h.safe h.mapping hop.2.1 hs, blocksDisjoint_step h.blocks hop.2.2 hs⟩

/-- Whatever any number of processes do with the module and its nodes, device mappings are isolated
along every run of operations that keep the devices apart. -/
theorem device_mappings_isolated {ops : List DeviceOp}
    (hops : Guarded deviceStep KeepsApart deviceInit ops) :
    Throughout deviceStep Isolated deviceInit ops := by
  have hinit : IsolationInv deviceInit :=
    ⟨⟨by simp [deviceInit], rfl⟩, ⟨registryInv_popInit, by simp [deviceInit], by simp [deviceInit]⟩,
      List.Pairwise.nil⟩
  exact throughout_of_guarded (fun _ h => h.isolated) isolationInv_step hinit hops

/-- A second card in slot 0000:18:00.0, with memory of its own. -/
def twoCards : KernelEnv :=
  { cardEnv with
    pciGetDomainBusAndSlot := fun domain bus devfn =>
      if domain = 0 ∧ bus = 0x17 ∧ devfn = 0 then some 7
      else if domain = 0 ∧ bus = 0x18 ∧ devfn = 0 then some 8
      else none
    pciName := fun pdev => if pdev = 7 then "0000:17:00.0".toList else "0000:18:00.0".toList
    pciAllocP2pmem := fun pdev _ => if pdev = 7 then some 0xffff888380000000 else some 0xffff888390000000 }

/-- Both cards are registered, mapped and touched. -/
def twoMappings : List DeviceOp :=
  [.ioctl twoCards .p2pmemReg cardReg, .ioctl twoCards .p2pmemReg { cardReg with bus := 0x18 },
    .open twoCards "0000:17:00.0".toList, .open twoCards "0000:18:00.0".toList,
    .mmap 0 ⟨0x7f0000000000, 0x7f0000001000, 0⟩, .mmap 1 ⟨0x7f0000004000, 0x7f0000006000, 1⟩,
    .fault 1 0 0x7f0000005000 ⟨id, fun _ => true⟩]

theorem two_cards_isolated :
    (exec deviceStep deviceInit twoMappings).map
      (fun s => s.installed.map fun page => (page.ppdev.pdev, page.pgoff)) =
      some [(8, 2)] ∧ Throughout deviceStep Isolated deviceInit twoMappings := by
  refine ⟨by decide +kernel, device_mappings_isolated ?_⟩
  have hfirst : KeepsApart deviceInit (.ioctl twoCards .p2pmemReg cardReg) :=
    ⟨trivial, trivial, fun _ _ _ _ d hd => absurd hd (List.not_mem_nil)⟩
  refine ⟨hfirst, ⟨trivial, trivial, ?_⟩, ⟨trivial, trivial, trivial⟩, ⟨trivial, trivial, trivial⟩,
    ⟨trivial, trivial, trivial⟩, ⟨trivial, trivial, trivial⟩, ⟨trivial, trivial, trivial⟩, trivial⟩
  intro pdev p2pmem hpdev halloc d hd
  cases hpdev
  cases halloc
  rw [List.mem_singleton.mp hd]
  exact Set.Ico_disjoint_Ico.mpr (by decide)

end Libpop.Proofs
