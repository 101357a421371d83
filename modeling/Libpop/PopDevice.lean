import Libpop.Kmod

/-!
# Device nodes of boogiepop

The file operations of /dev/pop/<slot> and the system they are part of: any number of
processes registering and unregistering cards, opening their nodes, mapping them, growing
the mappings, touching pages and closing. A mapping keeps its file open, and
`misc_deregister` neither waits for open files nor revokes them.
-/

namespace Libpop

/-- The fields of `struct vm_area_struct` that the driver reads. -/
structure Vma where
  vmStart : BitVec 64
  vmEnd : BitVec 64
  vmPgoff : BitVec 64
  deriving DecidableEq

namespace Vma

def length (vma : Vma) : Nat :=
  vma.vmEnd.toNat - vma.vmStart.toNat

def Aligned (vma : Vma) : Prop :=
  vma.vmStart < vma.vmEnd ∧ pageSize ∣ vma.vmStart.toNat ∧ pageSize ∣ vma.vmEnd.toNat

/-- What the kernel has checked when it calls the driver's mmap. -/
def WellFormed (vma : Vma) : Prop :=
  vma.Aligned ∧ vma.vmPgoff.toNat * pageSize + vma.length < 2 ^ 64

instance (vma : Vma) : Decidable vma.Aligned := by
  unfold Aligned
  infer_instance

instance (vma : Vma) : Decidable vma.WellFormed := by
  unfold WellFormed
  infer_instance

def Contains (vma : Vma) (addr : BitVec 64) : Prop :=
  vma.vmStart ≤ addr ∧ addr < vma.vmEnd

instance (vma : Vma) (addr : BitVec 64) : Decidable (vma.Contains addr) := by
  unfold Contains
  infer_instance

/-- `vmf->pgoff` for a fault at `addr`. -/
def pgoffAt (vma : Vma) (addr : BitVec 64) : BitVec 64 :=
  vma.vmPgoff + ((addr - vma.vmStart) >>> pageShift)

end Vma

/-- Write to `refcnt` of the object at an address. -/
def Registry.updateRefcnt (r : Registry) (id : PopDevId) (f : BitVec 32 → BitVec 32) : Registry :=
  { r with devList := r.devList.map fun d => if d.id = id then { d with refcnt := f d.refcnt } else d }

/-- Read through a `pop_dev` pointer: the listed object at the address, which may be a later one
than the object that the pointer was taken from, and `none` when there is none. -/
def Registry.popDevAt (r : Registry) (id : PopDevId) : Option PopDev :=
  r.devList.find? (fun d => d.id == id)

def popFindDevByBusAndSlot (env : KernelEnv) (r : Registry) (domain bus devfn : BitVec 32) :
    Registry × Option PopDev :=
  match env.pciGetDomainBusAndSlot domain bus devfn with
  | none => (r, none)
  | some pdev =>
    let r := r.pciDevGet pdev
    let ppdev := popFindDev r pdev
    (r.pciDevPut pdev, ppdev)

/-- Outcome of `pop_dev_open`: the return value and `filp->private_data`. -/
structure OpenResult where
  registry : Registry
  ret : Int
  privateData : Option PopDevId

/-- `pop_dev_open` on a node whose last path component is `name`. -/
def popDevOpen (env : KernelEnv) (r : Registry) (name : List Char) : OpenResult :=
  match Scan.sscanf Scan.kernelHex Scan.fullSlot name with
  | [domain, bus, slot, func] =>
    match popFindDevByBusAndSlot env r (.ofNat 32 domain) (.ofNat 32 bus)
        (pciDevfn (.ofNat 32 slot) (.ofNat 32 func)) with
    | (r, none) => ⟨r, -einval, none⟩
    | (r, some ppdev) => ⟨r.updateRefcnt ppdev.id (· + 1), 0, some ppdev.id⟩
  | _ => ⟨r, -einval, none⟩

def popDevRelease (r : Registry) (ppdev : PopDev) : Registry :=
  r.updateRefcnt ppdev.id (· - 1)

/-- The one `whence` for which `pop_dev_llseek` reads the object behind the file. -/
def seekEnd : BitVec 32 := 2

def popDevMmap (ppdev : Option PopDev) (vma : Vma) : Int :=
  match ppdev with
  | none => -einval
  | some ppdev =>
    let off := vma.vmPgoff <<< pageShift
    let len := vma.vmEnd - vma.vmStart
    if off + len > ppdev.size then -enomem else 0

/-- The kernel's `virt_to_phys` and `pfn_valid`. -/
structure FaultEnv where
  virtToPhys : BitVec 64 → BitVec 64
  pfnValid : BitVec 64 → Bool

inductive FaultResult
  | einval
  | sigbus
  | page (pfn : BitVec 64)
  deriving DecidableEq

/-- `pop_dev_mem_fault`; the outer `none` is a mapping without a file. -/
def popDevMemFault (env : FaultEnv) (vmFile : Option (Option PopDev))
    (pgoff : BitVec 64) : FaultResult :=
  match vmFile with
  | none => .einval
  | some none => .einval
  | some (some ppdev) =>
    let pa := env.virtToPhys (ppdev.p2pmem + (pgoff <<< pageShift))
    if pa = 0 then .sigbus
    else
      let pfn := pa >>> pageShift
      if env.pfnValid pfn then .page pfn else .sigbus

/-- An open file of a device node, with its descriptor and the mappings that refer to it. -/
structure OpenFile where
  privateData : Option PopDevId
  fd : Bool
  maps : List Vma
  deriving DecidableEq

def OpenFile.isOpen (file : OpenFile) : Bool :=
  file.fd || !file.maps.isEmpty

/-- A page that a fault installed. -/
structure Install where
  ppdev : PopDev
  pgoff : BitVec 64
  deriving DecidableEq

/-- The module, the open files of its nodes, the freed `pop_dev` objects that some operation
went on to use, and the pages installed in mappings. -/
structure DeviceState where
  registry : Registry
  files : List OpenFile
  staleUses : List PopDevId
  installed : List Install

def deviceInit : DeviceState :=
  ⟨popInit, [], [], []⟩

inductive DeviceOp
  | ioctl (env : KernelEnv) (cmd : IoctlCmd) (reg : P2pmemReg)
  | open (env : KernelEnv) (name : List Char)
  | llseek (file : Nat) (whence : BitVec 32)
  | mmap (file : Nat) (vma : Vma)
  | mremap (file map : Nat) (newStart newEnd : BitVec 64)
  | fault (file map : Nat) (addr : BitVec 64) (env : FaultEnv)
  | munmap (file map : Nat)
  | close (file : Nat)

namespace DeviceState

def setFile (s : DeviceState) (i : Nat) (file : OpenFile) : DeviceState :=
  { s with files := s.files.set i file }

/-- Goes on with the object behind `private_data`, or records the use of a freed one. -/
def withPopDev (s : DeviceState) (file : OpenFile)
    (k : Option PopDev → DeviceState) : DeviceState :=
  match file.privateData with
  | none => k none
  | some id => match s.registry.popDevAt id with
    | none => { s with staleUses := s.staleUses ++ [id] }
    | some ppdev => k (some ppdev)

/-- Drops a reference to a file: `pop_dev_release` runs with the last one. -/
def fput (s : DeviceState) (i : Nat) (file : OpenFile) : DeviceState :=
  if file.isOpen then s.setFile i file
  else
    let closed := s.setFile i { file with privateData := none }
    closed.withPopDev file fun ppdev => match ppdev with
      | none => closed
      | some ppdev => { closed with registry := popDevRelease closed.registry ppdev }

end DeviceState

/-- One atomic operation of some process. -/
def deviceStep (s : DeviceState) (op : DeviceOp) : Option DeviceState :=
  match op with
  | .ioctl env cmd reg => some { s with registry := (popIoctl env s.registry cmd reg).registry }
  | .open env name =>
    -- without a registered node of that name the driver is not reached
    if s.registry.miscs.any (fun m => m.2 = "pop/".toList ++ name) then
      let res := popDevOpen env s.registry name
      if res.ret = 0 then
        some { s with registry := res.registry, files := s.files ++ [⟨res.privateData, true, []⟩] }
      else some { s with registry := res.registry }
    else some s
  | .llseek i whence => match s.files[i]? with
    | none => none
    | some file =>
      if file.fd = true then some (if whence = seekEnd then s.withPopDev file fun _ => s else s) else none
  | .mmap i vma => match s.files[i]? with
    | none => none
    | some file =>
      if file.fd = true ∧ vma.WellFormed then
        some (s.withPopDev file fun ppdev =>
          if popDevMmap ppdev vma = 0 then s.setFile i { file with maps := file.maps ++ [vma] } else s)
      else none
  | .mremap i j newStart newEnd => match s.files[i]? with
    | none => none
    | some file => match file.maps[j]? with
      | none => none
      | some vma =>
        let grown : Vma := ⟨newStart, newEnd, vma.vmPgoff⟩
        -- the driver did not set VM_DONTEXPAND, so it is not asked
        if grown.Aligned ∧ vma.length ≤ grown.length then
          some (s.setFile i { file with maps := file.maps.set j grown })
        else none
  | .fault i j addr env => match s.files[i]? with
    | none => none
    | some file => match file.maps[j]? with
      | none => none
      | some vma =>
        if vma.Contains addr then
          some (s.withPopDev file fun ppdev =>
            match ppdev, popDevMemFault env (some ppdev) (vma.pgoffAt addr) with
            | some ppdev, .page _ =>
              { s with installed := s.installed ++ [⟨ppdev, vma.pgoffAt addr⟩] }
            | _, _ => s)
        else none
  | .munmap i j => match s.files[i]? with
    | none => none
    | some file =>
      if j < file.maps.length then some (s.fput i { file with maps := file.maps.eraseIdx j }) else none
  | .close i => match s.files[i]? with
    | none => none
    | some file => if file.fd = true then some (s.fput i { file with fd := false }) else none

end Libpop
