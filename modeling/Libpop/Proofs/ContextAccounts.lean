import Libpop.Context
import Libpop.Proofs.DeviceMapping
import Libpop.Table

/-!
# Resources of contexts

The descriptors of a process and the devices it has registered, against its live contexts.
The hugepage branch and `pop_mem_exit` each open a file that they never close, and a device
that was registered stays so when a later call of the same `pop_mem_init` fails: the report
of the size, the open of the node or its mapping. These are the only ways in which the
accounts go wrong, and each is a condition on what the system answers.
-/

namespace Libpop.Proofs
open Execution

/-- The registered PCI devices. -/
def Process.devices (s : Process) : List PciDev :=
  s.device.registry.devList.map PopDev.pdev

structure Accounted (s : Process) : Prop where
  fds : ∀ fd : Nat, fd ∈ s.fds ↔ ∃ ctx ∈ s.contexts, ctx.mem.fd = fd
  devices : ∀ pdev, pdev ∈ Process.devices s ↔ ∃ ctx ∈ s.contexts, ctx.pdev = some pdev

/-! ### Descriptors -/

lemma freshFd_notMem (s : Process) : s.freshFd ∉ s.fds := by
  -- one more candidate than there are descriptors
  cases hf : (List.range' 3 (s.fds.length + 1)).find? (· ∉ s.fds) with
  | some fd =>
    have hp := List.find?_some hf
    rw [Process.freshFd, hf]
    simpa using hp
  | none =>
    have hsub : List.range' 3 (s.fds.length + 1) ⊆ s.fds := by
      intro fd hfd
      simpa using List.find?_eq_none.mp hf fd hfd
    have hle := (List.subperm_of_subset List.nodup_range' hsub).length_le
    rw [List.length_range'] at hle
    omega

lemma erase_freshFd (s : Process) : (s.fds ++ [s.freshFd]).erase s.freshFd = s.fds := by
  rw [List.erase_append_right _ (freshFd_notMem s)]
  simp

/-! ### The part of `pop_mem_init` behind the ioctl -/

lemma SameDevices.pdevs {r s : Registry} (h : SameDevices r s) :
    s.devList.map PopDev.pdev = r.devList.map PopDev.pdev := by
  have hmap := congrArg (List.map PopDev.pdev) h.1
  simpa [List.map_map, Function.comp_def] using hmap

lemma deviceStep_sameDevices {s t : DeviceState} {op : DeviceOp}
    (hop : ∀ env cmd reg, op ≠ .ioctl env cmd reg) (h : deviceStep s op = some t) :
    SameDevices s.registry t.registry := by
  cases deviceStep_move h with
  | ioctl env cmd reg => exact absurd rfl (hop env cmd reg)
  | idle _ r _ hr => exact hr
  | opened env name r ppdev hm hr => exact hr
  | released _ i file' r _ hp ho hr => exact hr
  | _ => exact .refl _

/-- What is left of a `pop_mem_init` that did not change the list: nothing when it failed, and one
more descriptor, that of the new context, when it did not. -/
structure Mapped (s t : Process) (out : Option Context) : Prop where
  contexts : t.contexts = s.contexts
  registry : SameDevices s.device.registry t.device.registry
  failed : out = none → t.fds = s.fds
  mapped : ∀ ctx, out = some ctx → t.fds = s.fds ++ [s.freshFd] ∧ ctx.mem.fd = s.freshFd ∧
    ∃ pdev ∈ Process.devices t, ctx.pdev = some pdev

lemma Mapped.refl (s : Process) : Mapped s s none :=
  ⟨rfl, .refl _, fun _ => rfl, by simp⟩

lemma Mapped.devices {s t : Process} {out : Option Context} (h : Mapped s t out) :
    Process.devices t = Process.devices s :=
  h.registry.pdevs

lemma openNode_cases (s : Process) (allowed : Bool) (env : KernelEnv) (path : List Char) :
    (∃ t, s.openNode allowed env path = (t, none) ∧ Mapped s t none ∧
      (allowed = true → ∀ ppdev, ¬NodeOf env s.device.registry (lastComponent path) ppdev)) ∨
      ∃ r ppdev, allowed = true ∧ NodeOf env s.device.registry (lastComponent path) ppdev ∧
        SameDevices s.device.registry r ∧ s.openNode allowed env path =
          ({ s.openFd with device := { s.device with
              registry := r, files := s.device.files ++ [⟨some ppdev.id, true, []⟩] } },
            some (s.freshFd, s.device.files.length)) := by
  unfold Process.openNode
  by_cases ha : allowed = true
  · rw [if_pos ha]
    obtain ⟨r, hr, ⟨hno, he⟩ | ⟨ppdev, hnode, he⟩⟩ :=
      deviceStep_open_cases s.device env (lastComponent path)
    · rw [he]
      dsimp only
      rw [if_neg (lt_irrefl _)]
      exact .inl ⟨_, rfl, ⟨rfl, hr, fun _ => rfl, by simp⟩, fun _ => hno⟩
    · rw [he]
      dsimp only
      rw [if_pos (by simp)]
      exact .inr ⟨r, ppdev, ha, hnode, hr, rfl⟩
  · rw [if_neg ha]
    exact .inl ⟨s, rfl, .refl s, fun hallowed => absurd hallowed ha⟩

/-- The file of a node with one mapping, of all the registered memory asked for. -/
def mappedFile (ppdev : PopDev) (mem size : BitVec 64) : OpenFile :=
  ⟨some ppdev.id, true, [Process.nodeVma mem size]⟩

/-- The driver is asked about the object that the file of the node refers to. -/
lemma mmapNode_eq {s : Process} {file : Nat} {ppdev d : PopDev}
    (hf : s.device.files[file]? = some ⟨some ppdev.id, true, []⟩)
    (hat : s.device.registry.popDevAt ppdev.id = some d) (addr size : BitVec 64) :
    s.mmapNode file (some addr) size =
      if (Process.nodeVma addr size).WellFormed ∧ popDevMmap (some d) (Process.nodeVma addr size) = 0 then
        some ({ s with device := s.device.setFile file (mappedFile ppdev addr size) }, addr)
      else none := by
  simp only [Process.mmapNode, deviceStep, hf, true_and]
  by_cases hw : (Process.nodeVma addr size).WellFormed
  · simp only [hw, if_true, true_and, DeviceState.withPopDev, hat]
    by_cases hok : popDevMmap (some d) (Process.nodeVma addr size) = 0
    · have hlen : file < s.device.files.length := (List.getElem?_eq_some_iff.mp hf).1
      simp [hok, DeviceState.setFile, hlen, mappedFile]
    · simp [hok, hf]
  · simp [hw]

lemma closeNode_sameDevices (s : Process) (fd file : Nat) :
    SameDevices s.device.registry (s.closeNode fd file).device.registry := by
  cases hc : deviceStep s.device (.close file) with
  | none =>
    simp only [Process.closeNode, hc, Option.getD_none]
    exact .refl _
  | some device =>
    simp only [Process.closeNode, hc, Option.getD_some]
    exact deviceStep_sameDevices (by simp) hc

/-- The device behind a file is registered when the object the file refers to is listed. -/
lemma nodeDevice_mem {s : Process} {file : Nat} {f : OpenFile} {id : PopDevId}
    (hf : s.device.files[file]? = some f) (hp : f.privateData = some id)
    (hid : id ∈ s.device.registry.devList.map PopDev.id) :
    ∃ pdev ∈ Process.devices s, s.nodeDevice file = some pdev := by
  cases ha : s.device.registry.popDevAt id with
  | none => exact absurd hid (popDevAt_none_iff.mp ha)
  | some ppdev =>
    refine ⟨ppdev.pdev, List.mem_map_of_mem (popDevAt_some ha).1, ?_⟩
    simp [Process.nodeDevice, hf, hp, ha]

/-- What the system has to answer for the open of the node and its mapping. -/
structure Maps (env : InitEnv) (r : Registry) (reg : P2pmemReg) (ppdev : PopDev)
    (addr : BitVec 64) : Prop where
  allowed : env.openPopdev = true
  node : NodeOf env.node r (lastComponent (popdevPath reg)) ppdev
  mmap : env.mmap reg.size = some addr
  area : (Process.nodeVma addr reg.size).WellFormed

/-- The object at an address is the listed one, up to its reference count. -/
lemma RegistryInv.popDevAt_same {r t : Registry} (h : RegistryInv r) (hr : SameDevices r t)
    {ppdev d : PopDev} (hm : ppdev ∈ r.devList) (hat : t.popDevAt ppdev.id = some d) :
    d.pdev = ppdev.pdev ∧ d.size = ppdev.size := by
  obtain ⟨hd, hid⟩ := popDevAt_some hat
  obtain ⟨d', hd', hid', hpdev, hsize⟩ := hr.mem hd
  obtain rfl : d' = ppdev := List.inj_on_of_nodup_map h.ids_nodup hd' hm (hid'.trans hid)
  exact ⟨hpdev.symm, hsize.symm⟩

/-- There is still an object at the address of a listed device. -/
lemma SameDevices.exists_popDevAt {r t : Registry} (hr : SameDevices r t) {ppdev : PopDev}
    (hm : ppdev ∈ r.devList) : ∃ d, t.popDevAt ppdev.id = some d := by
  apply Option.ne_none_iff_exists'.mp
  intro hnone
  rw [popDevAt_none_iff, hr.ids] at hnone
  exact hnone (List.mem_map_of_mem hm)

/-- A node that was opened and is closed again leaves nothing behind. -/
lemma mapped_closeNode {s : Process} {r : Registry} (hr : SameDevices s.device.registry r)
    (files : List OpenFile) (file : Nat) :
    Mapped s (Process.closeNode { s.openFd with device := { s.device with
      registry := r, files := files } } s.freshFd file) none :=
  ⟨rfl, hr.trans (closeNode_sameDevices _ _ _), fun _ => erase_freshFd s, by simp⟩

/-- The open of the node fails, its mapping fails, or both succeed and the context is built. -/
lemma mapDevice_cases (env : InitEnv) (s : Process) (dev : List Char) (reg : P2pmemReg) :
    (∃ t, mapDevice env s dev reg = (t, none) ∧ Mapped s t none ∧
      (RegistryInv s.device.registry → ∀ ppdev addr, Maps env s.device.registry reg ppdev addr →
        ¬Fits (Process.nodeVma addr reg.size) ppdev)) ∨
      ∃ t mem ppdev, Maps env s.device.registry reg ppdev mem ∧
        SameDevices s.device.registry t.device.registry ∧
        t = { s.openFd with device := { s.device with
          registry := t.device.registry, files := s.device.files ++ [mappedFile ppdev mem reg.size] } } ∧
        t.device.files[s.device.files.length]? = some (mappedFile ppdev mem reg.size) ∧
        mapDevice env s dev reg = (t, some
          { mem := { fd := s.freshFd, devname := dev.take popPciDevnameMax, reg := reg, mem := mem
                     paddr := virtToPhys env.pagemap mem, size := reg.size
                     numPages := reg.size >>> pageShift, allocedPages := 0 }
            file := some s.device.files.length, pdev := t.nodeDevice s.device.files.length }) := by
  unfold mapDevice
  rcases openNode_cases s env.openPopdev env.node (popdevPath reg) with
    ⟨t, he, hm, hno⟩ | ⟨r, ppdev, hallowed, hnode, hr, he⟩
  · rw [he]
    exact .inl ⟨t, rfl, hm, fun _ ppdev addr hmaps => absurd hmaps.node (hno hmaps.allowed ppdev)⟩
  · rw [he]
    dsimp only
    generalize hs : ({ s.openFd with device := _ } : Process) = opened
    have hlisted := hnode.find.2
    have hf : opened.device.files[s.device.files.length]? = some ⟨some ppdev.id, true, []⟩ := by
      rw [← hs]
      exact List.getElem?_concat_length
    have hreg : opened.device.registry = r := by rw [← hs]
    have hclosed : Mapped s (opened.closeNode s.freshFd s.device.files.length) none := by
      rw [← hs]
      exact mapped_closeNode hr _ _
    obtain ⟨d, hat⟩ : ∃ d, opened.device.registry.popDevAt ppdev.id = some d := by
      rw [hreg]
      exact hr.exists_popDevAt hlisted
    cases hmmap : env.mmap reg.size with
    | none =>
      refine .inl ⟨_, rfl, hclosed, fun _ ppdev' addr hmaps => ?_⟩
      rw [hmaps.mmap] at hmmap
      cases hmmap
    | some addr =>
      rw [mmapNode_eq hf hat]
      by_cases hok : (Process.nodeVma addr reg.size).WellFormed ∧
          popDevMmap (some d) (Process.nodeVma addr reg.size) = 0
      · rw [if_pos hok]
        refine .inr ⟨_, addr, ppdev, ⟨hallowed, hnode, hmmap, hok.1⟩, ?_, ?_, ?_, rfl⟩
        · rw [← hs]
          exact hr
        · rw [← hs]
          simp [Process.openFd, DeviceState.setFile]
        · exact Table.getElem?_set_self_of_some hf _
      · rw [if_neg hok]
        refine .inl ⟨_, rfl, hclosed, fun hinv ppdev' addr' hmaps hfits => ?_⟩
        -- the answers determine the device and the address
        have hsame := hmaps.node.2
        rw [hnode.2, Option.some.injEq] at hsame
        subst hsame
        have haddr := hmaps.mmap
        rw [hmmap, Option.some.injEq] at haddr
        subst haddr
        apply hok
        refine ⟨hmaps.area, (popDevMmap_eq_zero_iff hmaps.area d).mpr ?_⟩
        rw [hreg] at hat
        unfold Fits at hfits ⊢
        rwa [(hinv.popDevAt_same hr hlisted hat).2]

lemma mapDevice_mapped (env : InitEnv) (s : Process) (dev : List Char) (reg : P2pmemReg) :
    Mapped s (mapDevice env s dev reg).1 (mapDevice env s dev reg).2 := by
  rcases mapDevice_cases env s dev reg with
    ⟨t, he, hm, -⟩ | ⟨t, mem, ppdev, hmaps, hr, ht, hfile, he⟩
  · rw [he]
    exact hm
  · rw [he]
    refine ⟨?_, hr, by simp, ?_⟩
    · rw [ht]
      rfl
    · rintro ctx ⟨rfl⟩
      refine ⟨?_, rfl, ?_⟩
      · rw [ht]
        rfl
      · refine nodeDevice_mem hfile rfl ?_
        rw [hr.ids]
        exact List.mem_map_of_mem hmaps.node.find.2

/-- The context is one of the device whose node was opened. -/
lemma mapDevice_pdev_iff {env : InitEnv} {s : Process} {dev : List Char} {reg : P2pmemReg}
    {pdev : PciDev} {ppdev : PopDev} (hinv : RegistryInv s.device.registry)
    (hfind : popFindDev s.device.registry pdev = some ppdev)
    (hfits : ∀ addr, (Process.nodeVma addr reg.size).WellFormed →
      Fits (Process.nodeVma addr reg.size) ppdev) :
    (mapDevice env s dev reg).2.bind Context.pdev = some pdev ↔
      nodeCard env.node (lastComponent (popdevPath reg)) = some pdev ∧
        ∃ addr, Maps env s.device.registry reg ppdev addr := by
  constructor
  · intro hret
    rcases mapDevice_cases env s dev reg with
      ⟨t, he, -, -⟩ | ⟨t, mem, ppdev', hmaps, hr, -, hfile, he⟩
    · rw [he] at hret
      cases hret
    · obtain ⟨hcard, hlisted⟩ := hmaps.node.find
      rw [he] at hret
      simp only [Option.bind_some, Process.nodeDevice, hfile, mappedFile] at hret
      obtain ⟨d, hat, hd⟩ := Option.map_eq_some_iff.mp hret
      have hpdev : ppdev'.pdev = pdev := (hinv.popDevAt_same hr hlisted hat).1.symm.trans hd
      have hsame : (nodeCard env.node (lastComponent (popdevPath reg))).bind (popFindDev s.device.registry) =
          some ppdev := by
        rw [hcard, hpdev]
        exact hfind
      rw [hmaps.node.2, Option.some.injEq] at hsame
      exact ⟨hpdev ▸ hcard, mem, hsame ▸ hmaps⟩
  · rintro ⟨hcard, addr, hmaps⟩
    rcases mapDevice_cases env s dev reg with
      ⟨t, -, -, hno⟩ | ⟨t, mem, ppdev', hmaps', hr, -, hfile, he⟩
    · exact absurd (hfits addr hmaps.area) (hno hinv ppdev addr hmaps)
    · obtain ⟨hcard', hlisted⟩ := hmaps'.node.find
      obtain ⟨p, -, hp⟩ := nodeDevice_mem hfile rfl (by
        rw [hr.ids]
        exact List.mem_map_of_mem hlisted)
      rw [he]
      simp only [Option.bind_some, hp]
      simp only [Process.nodeDevice, hfile, mappedFile, Option.bind_some] at hp
      obtain ⟨d, hat, rfl⟩ := Option.map_eq_some_iff.mp hp
      rw [(hinv.popDevAt_same hr hlisted hat).1, ← hcard', hcard]

/-! ### One call -/

/-- `pop_mem_init` reaches the ioctl with this request, which adds the device. -/
structure AddsDevice (env : InitEnv) (s : Process) (dev : List Char) (size : BitVec 64)
    (reg : P2pmemReg) (pdev : PciDev) : Prop where
  malloc : env.malloc = true
  parsed : parseSlot zeroReg dev = some reg
  opened : env.openDevpop = true
  registers : Registers env.reg s.device.registry { reg with size := size } pdev

/-- The size that `mmap` is then asked for: the one that the ioctl reports, or the one of the call
when the size of the block is negative as an `int` and nothing is reported. -/
def mappedSize (env : KernelEnv) (pdev : PciDev) (size : BitVec 64) : BitVec 64 :=
  if 0 ≤ Word.toInt32 (requestSize env pdev size) then
    BitVec.ofInt 64 (Word.toInt32 (requestSize env pdev size))
  else size

/-- The answers with which a call that has added a device goes on to return a context for it: a
size that has to be reported is, the path is that of a node, the node can be opened and has the
device behind it, and there is a place for the mapping. -/
structure ReturnsDevice (env : InitEnv) (s : Process) (size : BitVec 64) (reg : P2pmemReg)
    (pdev : PciDev) : Prop where
  reported : 0 ≤ Word.toInt32 (requestSize env.reg pdev size) → env.reg.copyToUser = true
  node : "pop/".toList ++ lastComponent (popdevPath reg) ∈
    s.device.registry.miscs.map Prod.snd ++ [nodeName env.reg.pciName pdev]
  allowed : env.openPopdev = true
  card : nodeCard env.node (lastComponent (popdevPath reg)) = some pdev
  mapped : ∃ addr, env.mmap (mappedSize env.reg pdev size) = some addr ∧
    (Process.nodeVma addr (mappedSize env.reg pdev size)).WellFormed

/-- Calls that keep the accounts: a hugepage context that fails before nr_hugepages is open, a
device context unless it adds a device and then fails on the way to it, and the exit of a
device context that fails to open /dev/boogiepop. -/
def KeepsAccounts (s : Process) : ProcessOp → Prop
  | .init env none _ => env.malloc = false ∨ env.nrHugepages = none
  | .init env (some dev) size =>
    ∀ reg pdev, AddsDevice env s dev size reg pdev → ReturnsDevice env s size reg pdev
  | .exit env k => ∀ ctx, s.contexts[k]? = some ctx → ctx.mem.fd = -1 ∨ env.openDevpop = false

/-- A hugepage context has neither descriptor nor device. -/
def ContextsMarked (s : Process) : Prop :=
  ∀ ctx ∈ s.contexts, ctx.mem.fd = -1 ∧ ctx.pdev = none ∨ ∃ fd : Nat, ctx.mem.fd = fd

/-- The devices behind a registration: those before it and the one that it adds. -/
lemma mem_devices_reg_iff (env : KernelEnv) (r : Registry) (reg : P2pmemReg) (pdev : PciDev) :
    pdev ∈ (popIoctl env r .p2pmemReg reg).registry.devList.map PopDev.pdev ↔
      pdev ∈ r.devList.map PopDev.pdev ∨ Registers env r reg pdev := by
  rcases devList_reg env r reg with ⟨he, hno⟩ | ⟨p, p2pmem, hreg, he⟩
  · rw [he]
    exact (or_iff_left (hno pdev)).symm
  · rw [he, List.map_append, List.mem_append]
    refine or_congr_right ⟨fun h => ?_, fun h => ?_⟩
    · rw [List.map_singleton, List.mem_singleton] at h
      exact h ▸ hreg
    · have hsame := h.found
      rw [hreg.found, Option.some.injEq] at hsame
      exact List.mem_singleton.mpr hsame.symm

/-- The process when its registration has returned and /dev/boogiepop is closed again. -/
def afterReg (s : Process) (env : KernelEnv) (reg : P2pmemReg) : Process :=
  { s with device := { s.device with registry := (popIoctl env s.device.registry .p2pmemReg reg).registry } }

/-- The part of `pop_mem_init` from the ioctl on. -/
lemma popMemInitDevice_eq {env : InitEnv} {s : Process} {dev : List Char} {size : BitVec 64}
    {reg : P2pmemReg} (hm : env.malloc = true) (hp : parseSlot zeroReg dev = some reg)
    (ho : env.openDevpop = true) :
    popMemInitDevice env s dev size =
      if (popIoctl env.reg s.device.registry .p2pmemReg { reg with size := size }).ret = 0 then
        mapDevice env (afterReg s env.reg { reg with size := size }) dev
          ((popIoctl env.reg s.device.registry .p2pmemReg { reg with size := size }).copied.getD
            { reg with size := size })
      else (afterReg s env.reg { reg with size := size }, none) := by
  have hclosed : (s.openFd.ioctl env.reg .p2pmemReg { reg with size := size }).1.closeFd s.freshFd =
      afterReg s env.reg { reg with size := size } :=
    congrArg (fun fds => { afterReg s env.reg { reg with size := size } with fds := fds }) (erase_freshFd s)
  unfold popMemInitDevice
  rw [if_pos hm, hp]
  dsimp only
  rw [if_pos ho, hclosed, ite_not]
  rfl

/-- The call as far as the ioctl changes the registry and nothing else, and the rest of it
leaves the registry alone. -/
lemma popMemInitDevice_cases (env : InitEnv) (s : Process) (dev : List Char) (size : BitVec 64) :
    ∃ u, u.contexts = s.contexts ∧ u.fds = s.fds ∧
      (∀ pdev, pdev ∈ Process.devices u ↔
        pdev ∈ Process.devices s ∨ ∃ reg, AddsDevice env s dev size reg pdev) ∧
      Mapped u (popMemInitDevice env s dev size).1 (popMemInitDevice env s dev size).2 := by
  -- a call that ends before the ioctl
  have hearly : (∀ reg pdev, ¬AddsDevice env s dev size reg pdev) →
      popMemInitDevice env s dev size = (s, none) → ∃ u, u.contexts = s.contexts ∧ u.fds = s.fds ∧
        (∀ pdev, pdev ∈ Process.devices u ↔
          pdev ∈ Process.devices s ∨ ∃ reg, AddsDevice env s dev size reg pdev) ∧
        Mapped u (popMemInitDevice env s dev size).1 (popMemInitDevice env s dev size).2 := by
    intro hno he
    refine ⟨s, rfl, rfl, fun pdev => (or_iff_left ?_).symm, he ▸ .refl s⟩
    rintro ⟨reg, ha⟩
    exact hno reg pdev ha
  by_cases hm : env.malloc = true
  · cases hp : parseSlot zeroReg dev with
    | none =>
      refine hearly (fun reg pdev ha => ?_) (by simp [popMemInitDevice, hm, hp])
      have hparsed := ha.parsed
      rw [hp] at hparsed
      cases hparsed
    | some reg =>
      by_cases ho : env.openDevpop = true
      · refine ⟨afterReg s env.reg { reg with size := size }, rfl, rfl, ?_, ?_⟩
        · intro pdev
          refine (mem_devices_reg_iff env.reg s.device.registry { reg with size := size } pdev).trans ?_
          refine or_congr_right ⟨fun h => ⟨reg, hm, hp, ho, h⟩, ?_⟩
          rintro ⟨reg', ha⟩
          have hsame := ha.parsed
          rw [hp, Option.some.injEq] at hsame
          exact hsame ▸ ha.registers
        · rw [popMemInitDevice_eq hm hp ho]
          split
          · exact mapDevice_mapped env _ dev _
          · exact .refl _
      · exact hearly (fun reg' pdev ha => ho ha.opened) (by simp [popMemInitDevice, hm, hp, ho])
  · exact hearly (fun reg pdev ha => hm ha.malloc) (by simp [popMemInitDevice, hm])

/-! ### A device that was added -/

lemma toNat_ofInt_toInt32 {x : BitVec 64} (h : 0 ≤ Word.toInt32 x) :
    (BitVec.ofInt 64 (Word.toInt32 x)).toNat = x.toNat % 2 ^ 32 := by
  rw [Word.toInt32_eq] at h ⊢
  rw [BitVec.toNat_ofInt]
  split at h <;> omega

/-- The driver accepts a mapping of the size that was reported, or asked for. -/
lemma fits_mappedSize {env : KernelEnv} {pdev : PciDev} {size addr : BitVec 64} {ppdev : PopDev}
    (hsize : ppdev.size = requestSize env pdev size)
    (hw : (Process.nodeVma addr (mappedSize env pdev size)).WellFormed) :
    Fits (Process.nodeVma addr (mappedSize env pdev size)) ppdev := by
  have hlen : (Word.roundUp pageShift (mappedSize env pdev size)).toNat ≤
      (requestSize env pdev size).toNat := by
    unfold mappedSize
    split
    next hnn =>
      obtain ⟨q, hq⟩ := pageSize_dvd_requestSize env pdev size
      have hup := Word.toNat_roundUp (BitVec.ofInt 64 (Word.toInt32 (requestSize env pdev size)))
      rw [toNat_ofInt_toInt32 hnn] at hup
      unfold pageShift
      rw [hup]
      unfold pageSize at hq
      split <;> omega
    next hneg =>
      by_cases hzero : size = 0
      · subst hzero
        exact Nat.zero_le _
      · unfold requestSize
        rw [if_neg hzero]
  have hwidth : (Process.nodeVma addr (mappedSize env pdev size)).length ≤
      (Word.roundUp pageShift (mappedSize env pdev size)).toNat := by
    simp only [Vma.length, Process.nodeVma, BitVec.toNat_add]
    have hmod :=
      Nat.mod_le (addr.toNat + (Word.roundUp pageShift (mappedSize env pdev size)).toNat) (2 ^ 64)
    omega
  have hoff : (Process.nodeVma addr (mappedSize env pdev size)).vmPgoff.toNat = 0 := rfl
  unfold Fits
  rw [hsize, hoff, Nat.zero_mul, Nat.zero_add]
  exact hwidth.trans hlen

/-- What a registration answers, as `pop_mem_init` reads it. -/
lemma regReport_answer (env : KernelEnv) (reg : P2pmemReg) (pdev : PciDev) (res : RegisterResult) :
    ((regReport env reg pdev res).ret = 0 ↔ (0 ≤ res.ret → env.copyToUser = true)) ∧
      ((regReport env reg pdev res).ret = 0 → (regReport env reg pdev res).copied.getD reg =
        { reg with size := if 0 ≤ res.ret then BitVec.ofInt 64 res.ret else reg.size }) := by
  unfold regReport
  by_cases hneg : res.ret < 0
  · have hnn : ¬0 ≤ res.ret := by omega
    rw [if_pos hneg, if_neg hnn]
    exact ⟨iff_of_true rfl fun hpos => absurd hpos hnn, fun _ => rfl⟩
  · have hnn : 0 ≤ res.ret := by omega
    rw [if_neg hneg]
    by_cases hcopy : env.copyToUser = true
    · rw [if_pos hcopy, if_pos hnn]
      exact ⟨iff_of_true rfl fun _ => hcopy, fun _ => rfl⟩
    · rw [if_neg hcopy]
      refine ⟨iff_of_false (by simp [devPutOut, efault]) fun h => hcopy (h hnn), fun h => ?_⟩
      simp [devPutOut, efault] at h

/-- The list and the nodes behind a registration that adds its device. -/
lemma Registers.listed {env : KernelEnv} {r : Registry} {reg : P2pmemReg} {pdev : PciDev}
    (h : Registers env r reg pdev) :
    (∃ ppdev, popFindDev (popIoctl env r .p2pmemReg reg).registry pdev = some ppdev ∧
      ppdev.size = requestSize env pdev reg.size) ∧
    (popIoctl env r .p2pmemReg reg).registry.miscs.map Prod.snd =
      r.miscs.map Prod.snd ++ [nodeName env.pciName pdev] := by
  obtain ⟨p2pmem, heq⟩ := h.popIoctl_eq
  rw [heq]
  constructor
  · refine ⟨newPopDev env (r.pciDevGet pdev) pdev p2pmem (requestSize env pdev reg.size), ?_, rfl⟩
    have hnew : r.devList.find? (fun ppdev => ppdev.pdev == pdev) = none := h.new
    unfold popFindDev
    rw [regReport_devList]
    simp [registered, List.find?_append, hnew, newPopDev]
  · rcases regReport_registry env reg pdev
      ⟨registered env (r.pciDevGet pdev) pdev p2pmem (requestSize env pdev reg.size),
        Word.toInt32 (requestSize env pdev reg.size), none⟩ with he | he
    all_goals
      rw [he]
      simp [registered, newPopDev]

/-- What the caller of a registration that adds its device is told. -/
lemma Registers.answer {env : KernelEnv} {r : Registry} {reg : P2pmemReg} {pdev : PciDev}
    (h : Registers env r reg pdev) :
    ((popIoctl env r .p2pmemReg reg).ret = 0 ↔
      (0 ≤ Word.toInt32 (requestSize env pdev reg.size) → env.copyToUser = true)) ∧
    ((popIoctl env r .p2pmemReg reg).ret = 0 → (popIoctl env r .p2pmemReg reg).copied.getD reg =
      { reg with size := mappedSize env pdev reg.size }) := by
  obtain ⟨p2pmem, heq⟩ := h.popIoctl_eq
  rw [heq]
  exact regReport_answer env reg pdev _

lemma popdevPath_size (reg : P2pmemReg) (size : BitVec 64) :
    popdevPath { reg with size := size } = popdevPath reg :=
  rfl

/-- Once its device is added, a call returns a context for it exactly when the answers that follow
are the right ones. -/
lemma AddsDevice.returns_iff {env : InitEnv} {s : Process} {dev : List Char} {size : BitVec 64}
    {reg : P2pmemReg} {pdev : PciDev} (h : AddsDevice env s dev size reg pdev)
    (hinv : RegistryInv s.device.registry) :
    (popMemInitDevice env s dev size).2.bind Context.pdev = some pdev ↔
      ReturnsDevice env s size reg pdev := by
  obtain ⟨hret, hcopied⟩ := h.registers.answer
  obtain ⟨⟨ppdev, hfind, hsize⟩, hmiscs⟩ := h.registers.listed
  have hinv' : RegistryInv (afterReg s env.reg { reg with size := size }).device.registry :=
    popIoctl_inv hinv env.reg .p2pmemReg { reg with size := size }
  rw [popMemInitDevice_eq h.malloc h.parsed h.opened]
  by_cases hrep : 0 ≤ Word.toInt32 (requestSize env.reg pdev size) → env.reg.copyToUser = true
  · have hzero := hret.mpr hrep
    have hfits : ∀ addr, (Process.nodeVma addr (mappedSize env.reg pdev size)).WellFormed →
        Fits (Process.nodeVma addr (mappedSize env.reg pdev size)) ppdev :=
      fun addr => @fits_mappedSize env.reg pdev size addr ppdev hsize
    rw [if_pos hzero, hcopied hzero]
    have hreturns : ReturnsDevice env s size reg pdev ↔
        "pop/".toList ++ lastComponent (popdevPath reg) ∈
            s.device.registry.miscs.map Prod.snd ++ [nodeName env.reg.pciName pdev] ∧
          env.openPopdev = true ∧ nodeCard env.node (lastComponent (popdevPath reg)) = some pdev ∧
          ∃ addr, env.mmap (mappedSize env.reg pdev size) = some addr ∧
            (Process.nodeVma addr (mappedSize env.reg pdev size)).WellFormed :=
      ⟨fun h => ⟨h.node, h.allowed, h.card, h.mapped⟩,
        fun h => ⟨hrep, h.1, h.2.1, h.2.2.1, h.2.2.2⟩⟩
    rw [hreturns]
    generalize mappedSize env.reg pdev size = asked at hfits ⊢
    refine (@mapDevice_pdev_iff env _ dev { reg with size := asked } pdev ppdev
      hinv' hfind hfits).trans ⟨?_, ?_⟩
    · rintro ⟨hcard, addr, hmaps⟩
      have hnode := hmaps.node.1
      rw [afterReg, hmiscs] at hnode
      exact ⟨hnode, hmaps.allowed, hcard, addr, hmaps.mmap, hmaps.area⟩
    · rintro ⟨hnode, hallowed, hcard, addr, hmmap, harea⟩
      rw [← hmiscs] at hnode
      refine ⟨hcard, addr, hallowed, ⟨hnode, ?_⟩, hmmap, harea⟩
      rw [popdevPath_size, hcard]
      exact hfind
  · rw [if_neg fun hzero => hrep (hret.mp hzero)]
    exact iff_of_false (by simp) fun hreturns => hrep hreturns.reported

section Added

variable {s v : Process} {P : PciDev → Prop} (h : Accounted s) (hctx : v.contexts = s.contexts)
  (hv : ∀ pdev, pdev ∈ Process.devices v ↔ pdev ∈ Process.devices s ∨ P pdev)
  (hadds : ∀ pdev, P pdev → pdev ∉ Process.devices s)

include h hctx hv hadds

/-- Without a new context no device may have been added. -/
lemma accounted_failed_iff (hfds : v.fds = s.fds) : Accounted v ↔ ∀ pdev, ¬P pdev := by
  constructor
  · intro ht pdev ha
    have hin := (ht.devices pdev).mp ((hv pdev).mpr (.inr ha))
    rw [hctx, ← h.devices] at hin
    exact hadds pdev ha hin
  · intro hno
    refine ⟨?_, ?_⟩
    · rw [hfds, hctx]
      exact h.fds
    · intro pdev
      rw [hv, hctx, ← h.devices]
      exact or_iff_left (hno pdev)

/-- A new context has to be one for every device that was added. -/
lemma accounted_mapped_iff {ctx : Context} {fd : Nat} (hfds : v.fds = s.fds ++ [fd])
    (hnew : ctx.mem.fd = fd) {p : PciDev} (hpm : p ∈ Process.devices v) (hp : ctx.pdev = some p) :
    Accounted { v with contexts := v.contexts ++ [ctx] } ↔
      ∀ pdev, P pdev → ctx.pdev = some pdev := by
  have hdt : ∀ pdev, (∃ c ∈ v.contexts ++ [ctx], c.pdev = some pdev) ↔
      pdev ∈ Process.devices s ∨ ctx.pdev = some pdev := by
    intro pdev
    rw [hctx, h.devices]
    simp [or_and_right, exists_or]
  constructor
  · intro ht pdev ha
    have hin := (ht.devices pdev).mp ((hv pdev).mpr (.inr ha))
    exact ((hdt pdev).mp hin).resolve_left (hadds pdev ha)
  · intro hall
    refine ⟨?_, ?_⟩
    · intro k
      dsimp only
      rw [hfds, hctx, List.mem_append, h.fds]
      simp [or_and_right, exists_or, hnew, eq_comm]
    · intro pdev
      rw [hdt]
      refine (hv pdev).trans ⟨?_, ?_⟩
      · rintro (hin | ha)
        · exact .inl hin
        · exact .inr (hall pdev ha)
      · rintro (hin | hin)
        · exact .inl hin
        · rw [hp, Option.some.injEq] at hin
          exact hin ▸ (hv p).mp hpm

end Added

lemma AddsDevice.new {env : InitEnv} {s : Process} {dev : List Char} {size : BitVec 64}
    {pdev : PciDev} (h : ∃ reg, AddsDevice env s dev size reg pdev) : pdev ∉ Process.devices s := by
  obtain ⟨reg, ha⟩ := h
  exact popFindDev_none_iff.mp ha.registers.new

/-- The accounts ask of a device context that its device, if it was added, is the one returned. -/
lemma keepsAccounts_initDevice_iff {s : Process} (hinv : RegistryInv s.device.registry)
    {env : InitEnv} {dev : List Char} {size : BitVec 64} :
    KeepsAccounts s (.init env (some dev) size) ↔
      ∀ pdev, (∃ reg, AddsDevice env s dev size reg pdev) →
      (popMemInitDevice env s dev size).2.bind Context.pdev = some pdev := by
  constructor
  · rintro hkeeps pdev ⟨reg, ha⟩
    exact (ha.returns_iff hinv).mpr (hkeeps reg pdev ha)
  · intro hall reg pdev ha
    exact (ha.returns_iff hinv).mp (hall pdev ⟨reg, ha⟩)

lemma accounted_initDevice_iff {s t : Process} (hinv : RegistryInv s.device.registry)
    (h : Accounted s) {env : InitEnv} {dev : List Char} {size : BitVec 64}
    (hs : processStep s (.init env (some dev) size) = some t) :
    Accounted t ↔ KeepsAccounts s (.init env (some dev) size) := by
  obtain ⟨u, hc, hfd, hd, hmap⟩ := popMemInitDevice_cases env s dev size
  rw [keepsAccounts_initDevice_iff hinv]
  simp only [processStep, popMemInit] at hs
  generalize popMemInitDevice env s dev size = res at hs hmap ⊢
  obtain ⟨v, out⟩ := res
  have hv : ∀ pdev, pdev ∈ Process.devices v ↔
      pdev ∈ Process.devices s ∨ ∃ reg, AddsDevice env s dev size reg pdev := by
    rw [hmap.devices]
    exact hd
  have hctx : v.contexts = s.contexts := hmap.contexts.trans hc
  cases out with
  | none =>
    obtain rfl := Option.some.inj hs
    simp only [Option.bind_none, reduceCtorEq, imp_false]
    exact accounted_failed_iff h hctx hv (fun _ => AddsDevice.new) ((hmap.failed rfl).trans hfd)
  | some ctx =>
    obtain rfl := Option.some.inj hs
    obtain ⟨hfds, hnew, p, hpm, hp⟩ := hmap.mapped ctx rfl
    rw [hfd] at hfds
    exact accounted_mapped_iff h hctx hv (fun _ => AddsDevice.new) hfds hnew hpm hp

/-- A descriptor that no call before has opened belongs to no context either. -/
lemma not_accounted_of_leak {s t : Process} (h : Accounted s) (hin : s.freshFd ∈ t.fds)
    (hctx : ∀ ctx ∈ t.contexts, ctx ∈ s.contexts ∨ ctx.mem.fd = -1) : ¬Accounted t := by
  intro ht
  obtain ⟨ctx, hm, hfd⟩ := (ht.fds s.freshFd).mp hin
  rcases hctx ctx hm with hold | hold
  · exact freshFd_notMem s ((h.fds _).mpr ⟨ctx, hold, hfd⟩)
  · omega

lemma popMemInitHugepage_fd {env : HugepageEnv} {size : BitVec 64} {mem : PopMem}
    (h : popMemInitHugepage env size = some mem) :
    mem.fd = -1 ∧ env.malloc = true ∧ env.nrHugepages.isSome = true := by
  unfold popMemInitHugepage at h
  by_cases hm : env.malloc = true
  · rw [if_pos hm] at h
    cases hn : env.nrHugepages with
    | none =>
      have hslt : (getNrHugepages env).slt 0 = true := by
        rw [getNrHugepages, hn]
        rfl
      rw [if_pos hslt] at h
      cases h
    | some nr =>
      dsimp only at h
      split at h
      · cases h
      · split at h
        · cases h
        · rw [Option.some.injEq] at h
          exact ⟨h ▸ rfl, hm, rfl⟩
  · rw [if_neg hm] at h
    cases h

lemma accounted_initHugepage_iff {s t : Process} (h : Accounted s) {env : InitEnv}
    {size : BitVec 64} (hs : processStep s (.init env none size) = some t) :
    Accounted t ↔ KeepsAccounts s (.init env none size) := by
  simp only [processStep, popMemInit] at hs
  by_cases hopen : env.malloc = true ∧ env.nrHugepages.isSome = true
  · have hguard : ¬KeepsAccounts s (.init env none size) := by
      rintro (hm | hn)
      · rw [hm] at hopen
        exact Bool.noConfusion hopen.1
      · rw [hn] at hopen
        exact Bool.noConfusion hopen.2
    refine iff_of_false ?_ hguard
    rw [if_pos hopen] at hs
    cases hmem : popMemInitHugepage env.toHugepageEnv size with
    | none =>
      rw [hmem, Option.map_none] at hs
      obtain rfl := Option.some.inj hs
      exact not_accounted_of_leak h (by simp [Process.openFd]) fun ctx hm => .inl hm
    | some mem =>
      rw [hmem, Option.map_some] at hs
      obtain rfl := Option.some.inj hs
      refine not_accounted_of_leak h (by simp [Process.openFd]) ?_
      intro ctx hm
      rcases List.mem_append.mp hm with hm | hm
      · exact .inl hm
      · rw [List.mem_singleton.mp hm]
        exact .inr (popMemInitHugepage_fd hmem).1
  · have hmem : popMemInitHugepage env.toHugepageEnv size = none := by
      cases hmem : popMemInitHugepage env.toHugepageEnv size with
      | none => rfl
      | some mem => exact absurd (popMemInitHugepage_fd hmem).2 hopen
    rw [if_neg hopen, hmem, Option.map_none] at hs
    obtain rfl := Option.some.inj hs
    refine iff_of_true h ?_
    rw [not_and_or, Bool.not_eq_true, Option.not_isSome_iff_eq_none] at hopen
    exact hopen

/-- An entry without the property is not missed. -/
lemma exists_eraseIdx_iff {α : Type} {l : List α} {k : Nat} {a : α} (hk : l[k]? = some a)
    {P : α → Prop} (hP : ¬P a) : (∃ c ∈ l.eraseIdx k, P c) ↔ ∃ c ∈ l, P c := by
  constructor
  · rintro ⟨c, hc, hPc⟩
    exact ⟨c, List.mem_of_mem_eraseIdx hc, hPc⟩
  · rintro ⟨c, hc, hPc⟩
    obtain ⟨j, hj⟩ := List.mem_iff_getElem?.mp hc
    refine ⟨c, List.mem_eraseIdx_iff_getElem?.mpr ⟨j, ?_, hj⟩, hPc⟩
    rintro rfl
    rw [hk, Option.some.injEq] at hj
    exact hP (hj ▸ hPc)

lemma accounted_exit_iff {s t : Process} (hmark : ContextsMarked s) (h : Accounted s)
    {env : ExitEnv} {k : Nat} (hs : processStep s (.exit env k) = some t) :
    Accounted t ↔ KeepsAccounts s (.exit env k) := by
  simp only [processStep] at hs
  cases hk : s.contexts[k]? with
  | none => simp [hk] at hs
  | some ctx =>
    rw [hk] at hs
    obtain rfl := Option.some.inj hs
    have hguard : KeepsAccounts s (.exit env k) ↔ ctx.mem.fd = -1 ∨ env.openDevpop = false := by
      simp [KeepsAccounts, hk]
    have hmem := List.mem_of_getElem? hk
    rw [hguard]
    unfold popMemExit
    by_cases hfd : ctx.mem.fd = -1
    · rw [if_pos hfd]
      refine iff_of_true ?_ (.inl hfd)
      have hnone : ctx.pdev = none := by
        rcases hmark ctx hmem with ⟨-, hp⟩ | ⟨fd, hp⟩
        · exact hp
        · omega
      -- the context that goes had no part in either account
      refine ⟨?_, ?_⟩
      · intro fd
        rw [exists_eraseIdx_iff hk (by omega)]
        exact h.fds fd
      · intro pdev
        rw [exists_eraseIdx_iff hk (by simp [hnone])]
        exact h.devices pdev
    · rw [if_neg hfd]
      by_cases ho : env.openDevpop = true
      · rw [if_pos ho]
        refine iff_of_false ?_ (by simp [hfd, ho])
        have hne : ctx.mem.fd.toNat ≠ s.freshFd := by
          intro he
          rcases hmark ctx hmem with ⟨hp, -⟩ | ⟨fd, hp⟩
          · exact hfd hp
          · apply freshFd_notMem s
            exact (h.fds _).mpr ⟨ctx, hmem, by omega⟩
        dsimp only
        split
        · exact not_accounted_of_leak h (by simp [Process.ioctl, Process.openFd])
            fun c hc => .inl hc
        · refine not_accounted_of_leak h ?_ fun c hc => .inl (List.mem_of_mem_eraseIdx hc)
          exact (List.mem_erase_of_ne hne.symm).mpr (by simp [Process.ioctl, Process.openFd])
      · rw [if_neg ho]
        exact iff_of_true h (.inr (by simpa using ho))

/-! ### Runs -/

lemma popMemInit_marked (env : InitEnv) (s : Process) (dev : Option (List Char))
    (size : BitVec 64) :
    (popMemInit env s dev size).1.contexts = s.contexts ∧
      ∀ ctx, (popMemInit env s dev size).2 = some ctx →
        ctx.mem.fd = -1 ∧ ctx.pdev = none ∨ ∃ fd : Nat, ctx.mem.fd = fd := by
  cases dev with
  | none =>
    simp only [popMemInit]
    refine ⟨?_, ?_⟩
    · split <;> rfl
    · intro ctx hctx
      obtain ⟨mem, hmem, rfl⟩ := Option.map_eq_some_iff.mp hctx
      exact .inl ⟨(popMemInitHugepage_fd hmem).1, rfl⟩
  | some dev =>
    obtain ⟨u, hc, -, -, hmap⟩ := popMemInitDevice_cases env s dev size
    exact ⟨hmap.contexts.trans hc, fun ctx hctx => .inr ⟨u.freshFd, (hmap.mapped ctx hctx).2.1⟩⟩

lemma popMemInit_inv {s : Process} (h : RegistryInv s.device.registry) (env : InitEnv)
    (dev : Option (List Char)) (size : BitVec 64) :
    RegistryInv (popMemInit env s dev size).1.device.registry := by
  cases dev with
  | none =>
    simp only [popMemInit]
    split <;> exact h
  | some dev =>
    cases hp : parseSlot zeroReg dev with
    | none =>
      simp only [popMemInit, popMemInitDevice, hp]
      split <;> exact h
    | some reg =>
      by_cases hready : env.malloc = true ∧ env.openDevpop = true
      · have hreg := popIoctl_inv h env.reg .p2pmemReg { reg with size := size }
        simp only [popMemInit]
        rw [popMemInitDevice_eq hready.1 hp hready.2]
        split
        · exact hreg.sameDevices (mapDevice_mapped env _ dev _).registry
        · exact hreg
      · have hnone : popMemInitDevice env s dev size = (s, none) := by
          unfold popMemInitDevice
          rcases not_and_or.mp hready with hm | ho
          · rw [if_neg hm]
          · rw [hp]
            simp [ho]
        simp only [popMemInit, hnone]
        exact h

lemma contextsMarked_step (s : Process) (op : ProcessOp) (t : Process) (h : ContextsMarked s)
    (hs : processStep s op = some t) : ContextsMarked t := by
  cases op with
  | init env dev size =>
    obtain ⟨hc, hnew⟩ := popMemInit_marked env s dev size
    simp only [processStep] at hs
    generalize popMemInit env s dev size = res at hs hc hnew
    obtain ⟨u, out⟩ := res
    cases out with
    | none =>
      obtain rfl := Option.some.inj hs
      intro ctx hm
      exact h ctx (hc ▸ hm)
    | some ctx' =>
      obtain rfl := Option.some.inj hs
      intro ctx hm
      rcases List.mem_append.mp hm with hm | hm
      · exact h ctx (hc ▸ hm)
      · rw [List.mem_singleton.mp hm]
        exact hnew ctx' rfl
  | exit env k =>
    simp only [processStep] at hs
    cases hk : s.contexts[k]? with
    | none => simp [hk] at hs
    | some ctx' =>
      rw [hk] at hs
      obtain rfl := Option.some.inj hs
      have hsub : ∀ ctx ∈ (popMemExit env s k ctx').1.contexts, ctx ∈ s.contexts := by
        intro ctx
        unfold popMemExit
        split
        · exact List.mem_of_mem_eraseIdx
        · split
          · dsimp only
            split
            · exact id
            · exact List.mem_of_mem_eraseIdx
          · exact id
      exact fun ctx hm => h ctx (hsub ctx hm)

/-- The registry after a call is the one after its ioctl, up to reference counts. -/
lemma registryInv_processStep (s : Process) (op : ProcessOp) (t : Process)
    (h : RegistryInv s.device.registry) (hs : processStep s op = some t) :
    RegistryInv t.device.registry := by
  cases op with
  | init env dev size =>
    have hinit : RegistryInv (popMemInit env s dev size).1.device.registry :=
      popMemInit_inv h env dev size
    simp only [processStep] at hs
    generalize popMemInit env s dev size = res at hs hinit
    obtain ⟨u, out⟩ := res
    cases out with
    | none =>
      obtain rfl := Option.some.inj hs
      exact hinit
    | some ctx =>
      obtain rfl := Option.some.inj hs
      exact hinit
  | exit env k =>
    simp only [processStep] at hs
    split at hs
    · cases hs
    next ctx hk =>
      obtain rfl := Option.some.inj hs
      have hunreg := popIoctl_inv h env.unreg .p2pmemUnreg ctx.mem.reg
      unfold popMemExit
      split
      · exact h
      · split
        · dsimp only
          split
          · exact hunreg
          · have hsame :=
              closeNode_sameDevices (s.openFd.ioctl env.unreg .p2pmemUnreg ctx.mem.reg).1
              ctx.mem.fd.toNat (ctx.file.getD s.device.files.length)
            exact hunreg.sameDevices hsame
        · exact h

lemma accounted_step_iff (s : Process) (op : ProcessOp) (t : Process)
    (hinv : ContextsMarked s ∧ RegistryInv s.device.registry) (h : Accounted s)
    (hs : processStep s op = some t) : Accounted t ↔ KeepsAccounts s op := by
  cases op with
  | init env dev size =>
    cases dev with
    | none => exact accounted_initHugepage_iff h hs
    | some dev => exact accounted_initDevice_iff hinv.2 h hs
  | exit env k => exact accounted_exit_iff hinv.1 h hs

lemma accounted_processInit : Accounted processInit := by
  constructor
  · simp [processInit]
  · simp [processInit, Process.devices, deviceInit, popInit]

/-! ### Calls that fail, and exits -/

/-- Two states in which a process holds the same descriptors and devices. -/
def SameHoldings (s t : Process) : Prop :=
  (∀ fd, fd ∈ t.fds ↔ fd ∈ s.fds) ∧ ∀ pdev, pdev ∈ Process.devices t ↔ pdev ∈ Process.devices s

lemma not_sameHoldings_of_leak {s t : Process} {fd : Nat} (hin : fd ∈ t.fds) (hnew : fd ∉ s.fds) :
    ¬SameHoldings s t :=
  fun h => hnew ((h.1 fd).mp hin)

lemma sameHoldings_null_iff {s : Process} (hinv : RegistryInv s.device.registry) {env : InitEnv}
    {dev : Option (List Char)} {size : BitVec 64} (hnull : (popMemInit env s dev size).2 = none) :
    SameHoldings s (popMemInit env s dev size).1 ↔ KeepsAccounts s (.init env dev size) := by
  cases dev with
  | none =>
    by_cases hopen : env.malloc = true ∧ env.nrHugepages.isSome = true
    · have hleak : s.freshFd ∈ (popMemInit env s none size).1.fds := by
        simp [popMemInit, hopen, Process.openFd]
      refine iff_of_false (not_sameHoldings_of_leak hleak (freshFd_notMem s)) ?_
      rintro (hm | hn)
      · simp [hm] at hopen
      · simp [hn] at hopen
    · have hsame : (popMemInit env s none size).1 = s := if_neg hopen
      rw [hsame]
      refine iff_of_true ⟨fun _ => Iff.rfl, fun _ => Iff.rfl⟩ ?_
      rw [not_and_or, Bool.not_eq_true, Option.not_isSome_iff_eq_none] at hopen
      exact hopen
  | some dev =>
    obtain ⟨u, -, hfd, hd, hmap⟩ := popMemInitDevice_cases env s dev size
    have hnull' : (popMemInitDevice env s dev size).2 = none := hnull
    rw [keepsAccounts_initDevice_iff hinv, hnull']
    simp only [Option.bind_none, reduceCtorEq, imp_false]
    have hfds : (popMemInitDevice env s dev size).1.fds = s.fds := (hmap.failed hnull').trans hfd
    constructor
    · intro hsame pdev hadds
      have hin : pdev ∈ Process.devices (popMemInitDevice env s dev size).1 := by
        rw [hmap.devices]
        exact (hd pdev).mpr (.inr hadds)
      exact AddsDevice.new hadds ((hsame.2 pdev).mp hin)
    · intro hno
      refine ⟨fun fd => by simp only [popMemInit, hfds], fun pdev => ?_⟩
      simp only [popMemInit, hmap.devices]
      exact (hd pdev).trans (or_iff_left (hno pdev))

/-- The descriptor of /dev/boogiepop, or of nr_hugepages, or the one of the context is left. -/
lemma not_sameHoldings_exit {s t : Process} {env : InitEnv} {dev : Option (List Char)}
    {size : BitVec 64} {ctx : Context} (hinit : popMemInit env s dev size = (t, some ctx))
    (xenv : ExitEnv) :
    ¬SameHoldings s (popMemExit xenv { t with contexts := t.contexts ++ [ctx] } t.contexts.length ctx).1 := by
  cases dev with
  | none =>
    obtain ⟨mem, hmem, rfl⟩ := Option.map_eq_some_iff.mp (congrArg Prod.snd hinit)
    obtain ⟨hfd, hopen⟩ := popMemInitHugepage_fd hmem
    have ht : s.openFd = t := (if_pos hopen).symm.trans (congrArg Prod.fst hinit)
    unfold popMemExit
    rw [if_pos hfd]
    refine not_sameHoldings_of_leak ?_ (freshFd_notMem s)
    rw [← ht]
    exact List.mem_append_right _ (List.mem_singleton_self _)
  | some dev =>
    obtain ⟨u, -, hfd, -, hmap⟩ := popMemInitDevice_cases env s dev size
    have hdev : popMemInitDevice env s dev size = (t, some ctx) := hinit
    rw [hdev] at hmap
    obtain ⟨hfds, hnew, -⟩ := hmap.mapped ctx rfl
    rw [hfd] at hfds
    have hold : ∀ fd, fd ∉ t.fds → fd ∉ s.fds := by
      intro fd hnot hin
      rw [hfds] at hnot
      exact hnot (List.mem_append_left _ hin)
    have hne : ctx.mem.fd ≠ -1 := by omega
    unfold popMemExit
    rw [if_neg hne]
    by_cases hopen : xenv.openDevpop = true
    · rw [if_pos hopen]
      have hin : t.freshFd ∈ t.fds ++ [t.freshFd] :=
        List.mem_append_right _ (List.mem_singleton_self _)
      have hlater : t.freshFd ≠ u.freshFd := by
        intro he
        apply freshFd_notMem t
        rw [hfds, he]
        exact List.mem_append_right _ (List.mem_singleton_self _)
      dsimp only
      split
      · exact not_sameHoldings_of_leak hin (hold _ (freshFd_notMem t))
      · refine not_sameHoldings_of_leak ?_ (hold _ (freshFd_notMem t))
        refine (List.mem_erase_of_ne ?_).mpr hin
        rwa [hnew, Int.toNat_natCast]
    · rw [if_neg hopen]
      have hin : u.freshFd ∈ t.fds := by
        rw [hfds]
        exact List.mem_append_right _ (List.mem_singleton_self _)
      refine not_sameHoldings_of_leak hin ?_
      rw [← hfd]
      exact freshFd_notMem u

/-- Descriptors and registered devices are those of the live contexts throughout a run exactly
when every call keeps the accounts. In the state after it, a `pop_mem_init` that returns NULL
leaves both as they were exactly when it does, and the `pop_mem_exit` of a context that was just
made never restores what was there before. -/
theorem contexts_accounted_iff (ops : List ProcessOp) :
    (Throughout processStep Accounted processInit ops ↔
      Guarded processStep KeepsAccounts processInit ops) ∧
    ∀ s, exec processStep processInit ops = some s →
      (∀ env dev size, (popMemInit env s dev size).2 = none →
        (SameHoldings s (popMemInit env s dev size).1 ↔ KeepsAccounts s (.init env dev size))) ∧
      ∀ env dev size t ctx xenv, popMemInit env s dev size = (t, some ctx) →
        ¬SameHoldings s
          (popMemExit xenv { t with contexts := t.contexts ++ [ctx] } t.contexts.length ctx).1 := by
  have hinit : ContextsMarked processInit ∧ RegistryInv processInit.device.registry :=
    ⟨by simp [ContextsMarked, processInit], registryInv_popInit⟩
  have hstep : ∀ s op t, ContextsMarked s ∧ RegistryInv s.device.registry →
      processStep s op = some t →
      ContextsMarked t ∧ RegistryInv t.device.registry := fun s op t h hs =>
    ⟨contextsMarked_step s op t h.1 hs, registryInv_processStep s op t h.2 hs⟩
  refine ⟨throughout_iff_guarded hstep accounted_step_iff hinit accounted_processInit,
    fun s hrun => ⟨?_, ?_⟩⟩
  · intro env dev size hnull
    exact sameHoldings_null_iff (exec_invariant hstep hinit hrun).2 hnull
  · intro env dev size t ctx xenv hmade
    exact not_sameHoldings_exit hmade xenv

/-- A system on which every call of `pop_mem_init` for the card succeeds. -/
def cardInit : InitEnv where
  malloc := true
  nrHugepages := none
  mmap := fun _ => some 0x7f0000000000
  pagemap := ⟨true, 4096, fun _ => 0, fun _ => (8, 0x8000000000380000)⟩
  openDevpop := true
  reg := cardEnv
  openPopdev := true
  node := cardEnv

/-- One device context, made and kept: the accounts are right. Without /dev/boogiepop the call
returns NULL and leaves nothing behind. -/
theorem contexts_accounted_card :
    Throughout processStep Accounted processInit [.init cardInit (some "17:00.0".toList) 0] ∧
      SameHoldings processInit (popMemInit { cardInit with openDevpop := false } processInit
        (some "17:00.0".toList) 0).1 := by
  have hcard := contexts_accounted_iff [.init cardInit (some "17:00.0".toList) 0]
  have hfirst := contexts_accounted_iff []
  refine ⟨hcard.1.mpr ⟨?_, trivial⟩, ((hfirst.2 processInit rfl).1 _ _ 0 rfl).mpr ?_⟩
  · intro reg pdev ha
    obtain rfl : cardReg = reg := Option.some.inj ha.parsed
    obtain rfl : 7 = pdev := Option.some.inj ha.registers.found
    exact ⟨fun _ => rfl, by decide, rfl, by decide, 0x7f0000000000, rfl, by decide⟩
  · intro reg pdev ha
    cases ha.opened

/-- The same context given back: the process is left with a descriptor. -/
theorem exit_leaves_descriptor :
    ¬Throughout processStep Accounted processInit
      [.init cardInit (some "17:00.0".toList) 0, .exit ⟨true, cardEnv⟩ 0] := by
  refine not_throughout_of_map (f := fun s => (s.fds, s.contexts)) (a := ([4], [])) (by rfl) ?_
  rintro t ht hacc
  obtain ⟨hfd, hctx⟩ := Prod.mk.inj ht
  have hin := (hacc.fds 4).mp (by simp [hfd])
  simp [hctx] at hin

end Libpop.Proofs
