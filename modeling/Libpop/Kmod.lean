import Mathlib.Logic.Function.Basic
import Libpop.Scan
import Libpop.Word

/-!
# The boogiepop kernel module

Embedding of `kmod/boogiepop.c`. What the module asks of the kernel is a `KernelEnv`: the
answer of every external call that one operation may make. The kernel resources the
module holds are part of its state, so that leaks and double releases can be stated: a
count of the references on each `pci_dev`, the p2pmem blocks taken and given back, the
live `pop_dev` objects and the registered misc devices.
-/

namespace Libpop

/-- Address of a `struct pci_dev`. -/
abbrev PciDev := Nat

/-- Address of a `struct pop_dev` from `kmalloc`, which may hand out the address of a freed
object again. -/
abbrev PopDevId := Nat

def pageShift : Nat := 12
def pageSize : Nat := 4096

def enodev : Int := 19
def enomem : Int := 12
def efault : Int := 14
def einval : Int := 22

/-- `struct pop_p2pmem_reg`, the argument of both ioctls. -/
structure P2pmemReg where
  domain : BitVec 32
  bus : BitVec 32
  slot : BitVec 32
  func : BitVec 32
  size : BitVec 64
  deriving DecidableEq

/-- A block of peer-to-peer memory with the device whose pool it came from. -/
structure P2pBlock where
  pdev : PciDev
  p2pmem : BitVec 64
  size : BitVec 64
  deriving DecidableEq

/-- `struct pop_dev`. -/
structure PopDev where
  id : PopDevId
  pdev : PciDev
  devname : List Char
  p2pmem : BitVec 64
  size : BitVec 64
  refcnt : BitVec 32
  deriving DecidableEq

def PopDev.block (ppdev : PopDev) : P2pBlock :=
  ⟨ppdev.pdev, ppdev.p2pmem, ppdev.size⟩

/-- The module's `struct boogiepop` and the kernel resources behind it. `refs` counts
`pci_get_domain_bus_and_slot` minus `pci_dev_put`, `allocs` and `frees` are the blocks that
went through `pci_alloc_p2pmem` and `pci_free_p2pmem`, `objs` the pop_dev objects not yet
passed to `kfree`, `miscs` the device nodes and `popMdev` says that /dev/boogiepop is there. -/
structure Registry where
  devList : List PopDev
  refs : PciDev → Int
  allocs : List P2pBlock
  frees : List P2pBlock
  objs : List PopDevId
  miscs : List (PopDevId × List Char)
  popMdev : Bool

namespace Registry

def pciDevGet (r : Registry) (pdev : PciDev) : Registry :=
  { r with refs := Function.update r.refs pdev (r.refs pdev + 1) }

def pciDevPut (r : Registry) (pdev : PciDev) : Registry :=
  { r with refs := Function.update r.refs pdev (r.refs pdev - 1) }

def pciAllocP2pmem (r : Registry) (block : P2pBlock) : Registry :=
  { r with allocs := r.allocs ++ [block] }

def pciFreeP2pmem (r : Registry) (block : P2pBlock) : Registry :=
  { r with frees := r.frees ++ [block] }

def kmalloc (r : Registry) (id : PopDevId) : Registry :=
  { r with objs := r.objs ++ [id] }

def kfree (r : Registry) (id : PopDevId) : Registry :=
  { r with objs := r.objs.erase id }

def miscRegister (r : Registry) (ppdev : PopDev) : Registry :=
  { r with miscs := r.miscs ++ [(ppdev.id, ppdev.devname)] }

def miscDeregister (r : Registry) (ppdev : PopDev) : Registry :=
  { r with miscs := r.miscs.filter (fun m => m.1 != ppdev.id) }

def listAddTail (r : Registry) (ppdev : PopDev) : Registry :=
  { r with devList := r.devList ++ [ppdev] }

def listDel (r : Registry) (ppdev : PopDev) : Registry :=
  { r with devList := r.devList.filter (fun d => d.id != ppdev.id) }

end Registry

/-- `PCI_DEVFN`. -/
def pciDevfn (slot func : BitVec 32) : BitVec 32 :=
  ((slot &&& 0x1f) <<< 3) ||| (func &&& 0x07)

/-- Answers of the external calls of one operation: `true` when `copy_from_user`,
`copy_to_user` and `kmalloc` succeed, the address that `kmalloc` then gives, which is any that
no live object has, the return value of `misc_register`, and the results of the PCI and
genalloc functions, `none` for a null pointer. -/
structure KernelEnv where
  copyFromUser : Bool
  pciGetDomainBusAndSlot : BitVec 32 → BitVec 32 → BitVec 32 → Option PciDev
  pciName : PciDev → List Char
  pciHasP2pmem : PciDev → Bool
  genPoolSize : PciDev → Option (BitVec 64)
  pciAllocP2pmem : PciDev → BitVec 64 → Option (BitVec 64)
  kmalloc : Bool
  kmallocAddr : (live : List PopDevId) → { id : PopDevId // id ∉ live }
  miscRegister : Int
  copyToUser : Bool

/-- The device both ioctls look up for a request. -/
def KernelEnv.lookup (env : KernelEnv) (reg : P2pmemReg) : Option PciDev :=
  env.pciGetDomainBusAndSlot reg.domain reg.bus (pciDevfn reg.slot reg.func)

/-- Why a requested operation did not complete. -/
inductive Failure
  | copyFromUser
  | unknownDevice
  | noP2pmem
  | allocP2pmem
  | kmalloc
  | miscRegister
  | copyToUser
  deriving DecidableEq

def popFindDev (r : Registry) (pdev : PciDev) : Option PopDev :=
  r.devList.find? (fun ppdev => ppdev.pdev == pdev)

/-- The size that registration asks the pool for: all of the pool for a request of 0, then
wrapped in pages. -/
def requestSize (env : KernelEnv) (pdev : PciDev) (size : BitVec 64) : BitVec 64 :=
  Word.roundUp pageShift (if size = 0 then (env.genPoolSize pdev).getD size else size)

structure RegisterResult where
  registry : Registry
  ret : Int
  failure : Option Failure

/-- The `DEVNAMELEN` bytes of the device name, the terminator included. -/
def devnamelen : Nat := 32

def popRegisterP2pmem (env : KernelEnv) (r : Registry) (pdev : PciDev) (size : BitVec 64) :
    RegisterResult :=
  match popFindDev r pdev with
  | some ppdev => ⟨r, Word.toInt32 ppdev.size, none⟩
  | none =>
    let size := requestSize env pdev size
    match env.pciAllocP2pmem pdev size with
    | none => ⟨r, -enomem, some .allocP2pmem⟩
    | some p2pmem =>
      let block : P2pBlock := ⟨pdev, p2pmem, size⟩
      let allocated := r.pciAllocP2pmem block
      if env.kmalloc then
        let addr := (env.kmallocAddr r.objs).val
        let ppdev : PopDev :=
          { id := addr, pdev := pdev, p2pmem := p2pmem, size := size, refcnt := 0
            devname := ("pop/".toList ++ env.pciName pdev).take (devnamelen - 1) }
        if env.miscRegister = 0 then
          ⟨((allocated.kmalloc addr).miscRegister ppdev).listAddTail ppdev, Word.toInt32 size, none⟩
        else ⟨(allocated.kmalloc addr).pciFreeP2pmem block, -einval, some .miscRegister⟩
      else ⟨allocated.pciFreeP2pmem block, -enomem, some .kmalloc⟩

def popUnregisterP2pmem (r : Registry) (ppdev : PopDev) : Registry :=
  let r := r.miscDeregister ppdev
  let r := r.pciFreeP2pmem ppdev.block
  let r := r.pciDevPut ppdev.pdev
  let r := r.listDel ppdev
  r.kfree ppdev.id

inductive IoctlCmd
  | p2pmemReg
  | p2pmemUnreg
  | other (cmd : BitVec 32)
  deriving DecidableEq

/-- Outcome of an ioctl: the value returned to user space, what `copy_to_user` wrote back
and, when the operation did not complete, the reason. -/
structure IoctlResult where
  registry : Registry
  ret : Int
  copied : Option P2pmemReg
  failure : Option Failure

/-- The exit `dev_put_out`. -/
def devPutOut (r : Registry) (pdev : PciDev) (ret : Int) (failure : Option Failure) :
    IoctlResult :=
  ⟨r.pciDevPut pdev, ret, none, failure⟩

/-- The end of `POP_P2PMEM_REG`, after the inner function returned its `int size`. -/
def regReport (env : KernelEnv) (reg : P2pmemReg) (pdev : PciDev) (res : RegisterResult) :
    IoctlResult :=
  -- `ret` is still 0 when the inner function reports an error through `size`
  if res.ret < 0 then devPutOut res.registry pdev 0 res.failure
  else if env.copyToUser then
    ⟨res.registry, 0, some { reg with size := BitVec.ofInt 64 res.ret }, none⟩
  else devPutOut res.registry pdev (-efault) (some .copyToUser)

def popIoctl (env : KernelEnv) (r : Registry) (cmd : IoctlCmd) (reg : P2pmemReg) : IoctlResult :=
  match cmd with
  | .p2pmemReg =>
    if env.copyFromUser then
      match env.lookup reg with
      | none => ⟨r, -enodev, none, some .unknownDevice⟩
      | some pdev =>
        let r := r.pciDevGet pdev
        if env.pciHasP2pmem pdev then
          regReport env reg pdev (popRegisterP2pmem env r pdev reg.size)
        else devPutOut r pdev (-einval) (some .noP2pmem)
    else ⟨r, -efault, none, some .copyFromUser⟩
  | .p2pmemUnreg =>
    if env.copyFromUser then
      match env.lookup reg with
      | none => ⟨r, -enodev, none, some .unknownDevice⟩
      | some pdev =>
        let r := r.pciDevGet pdev
        match popFindDev r pdev with
        | none => devPutOut r pdev (-enodev) (some .unknownDevice)
        | some ppdev => ⟨popUnregisterP2pmem r ppdev, 0, none, none⟩
    else ⟨r, -efault, none, some .copyFromUser⟩
  | .other _ => ⟨r, -einval, none, none⟩

/-- The state after `pop_init`, once /dev/boogiepop is registered. -/
def popInit : Registry :=
  { devList := [], refs := fun _ => 0, allocs := [], frees := [], objs := [], miscs := []
    popMdev := true }

/-- `list_for_each_safe` over the devices, then the module's own node. -/
def popExit (r : Registry) : Registry :=
  { r.devList.foldl popUnregisterP2pmem r with popMdev := false }

inductive RegistryOp
  | ioctl (env : KernelEnv) (cmd : IoctlCmd) (reg : P2pmemReg)
  | exit

/-- One atomic operation on the module; nothing reaches it once it is unloaded. -/
def registryStep (r : Registry) (op : RegistryOp) : Option Registry :=
  if r.popMdev then
    match op with
    | .ioctl env cmd reg => some (popIoctl env r cmd reg).registry
    | .exit => some (popExit r)
  else none

end Libpop
