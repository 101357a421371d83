import Mathlib.Data.List.DropRight
import Libpop.Mem
import Libpop.PopDevice
import Libpop.Print

/-!
# Contexts of a process

`pop_mem_init` and `pop_mem_exit` of `lib/libpop.c` for hugepages and for devices, in a
process that shares the kernel module with them: its open descriptors, the state of the
device nodes and the contexts it has not given back. Every system call may fail; the
kernel's side of those that reach the module is the one of the device nodes.
-/

namespace Libpop

/-- An `int` after a scan: the conversion at place `i`, or what it held when the scan ended
before that. -/
def scannedInt (values : List (BitVec 64)) (i : Nat) (old : BitVec 32) : BitVec 32 :=
  (values[i]?.map (BitVec.setWidth 32)).getD old

/-- The slot name in `pop_mem_init` and in the main function of pop-ioctl: first with the
domain, then without. The first scan has written to the fields when the second starts. -/
def parseSlot (reg : P2pmemReg) (dev : List Char) : Option P2pmemReg :=
  let full := Scan.sscanf Scan.scanUl Scan.fullSlot dev
  let reg := { reg with
    domain := scannedInt full 0 reg.domain, bus := scannedInt full 1 reg.bus
    slot := scannedInt full 2 reg.slot, func := scannedInt full 3 reg.func }
  if full.length < 4 then
    let short := Scan.sscanf Scan.scanUl Scan.shortSlot dev
    let reg := { reg with
      domain := 0, bus := scannedInt short 0 reg.bus
      slot := scannedInt short 1 reg.slot, func := scannedInt short 2 reg.func }
    if short.length < 3 then none else some reg
  else some reg

/-- The request after the `memset` of the structure it is in. -/
def zeroReg : P2pmemReg :=
  ⟨0, 0, 0, 0, 0⟩

/-- The text of `%04x:%02x:%02x.%x`. -/
def slotName (domain bus slot func : Nat) : List Char :=
  Print.hexPad 4 domain ++ ':' :: (Print.hexPad 2 bus ++ ':' :: (Print.hexPad 2 slot ++
    '.' :: Print.hex func))

/-- The bytes of `popdev` in `pop_mem_init`. -/
def popdevLen : Nat := 32

/-- The path of the device node that `pop_mem_init` opens. -/
def popdevPath (reg : P2pmemReg) : List Char :=
  Print.snprintf popdevLen
    ("/dev/pop/".toList ++ slotName reg.domain.toNat reg.bus.toNat reg.slot.toNat reg.func.toNat)

def lastComponent (path : List Char) : List Char :=
  path.rtakeWhile (· ≠ '/')

/-- The bytes of `mem->devname`. -/
def popPciDevnameMax : Nat := 16

/-- What `pop_mem_init` returned, with the open file behind `mem->fd` and the PCI device
behind that file; a hugepage context has neither. -/
structure Context where
  mem : PopMem
  file : Option Nat
  pdev : Option PciDev
  deriving DecidableEq

/-- A process that uses the library: its descriptors and the contexts it has not given back,
over the module and the open files of its nodes. -/
structure Process where
  device : DeviceState
  fds : List Nat
  contexts : List Context

namespace Process

/-- The lowest descriptor not in use; the standard streams have the first three. -/
def freshFd (s : Process) : Nat :=
  ((List.range' 3 (s.fds.length + 1)).find? (· ∉ s.fds)).getD 3

def openFd (s : Process) : Process :=
  { s with fds := s.fds ++ [s.freshFd] }

def closeFd (s : Process) (fd : Nat) : Process :=
  { s with fds := s.fds.erase fd }

def ioctl (s : Process) (env : KernelEnv) (cmd : IoctlCmd) (reg : P2pmemReg) :
    Process × IoctlResult :=
  let res := popIoctl env s.device.registry cmd reg
  ({ s with device := { s.device with registry := res.registry } }, res)

/-- Opens a device node: the descriptor and the place of its file, `none` when the system or
the driver refuses. -/
def openNode (s : Process) (allowed : Bool) (env : KernelEnv) (path : List Char) :
    Process × Option (Nat × Nat) :=
  if allowed then
    match deviceStep s.device (.open env (lastComponent path)) with
    | none => (s, none)
    | some device =>
      if s.device.files.length < device.files.length then
        ({ s.openFd with device := device }, some (s.freshFd, s.device.files.length))
      else ({ s with device := device }, none)
  else (s, none)

/-- The area of a mapping from the start of a node, at the address the system chose. -/
def nodeVma (addr size : BitVec 64) : Vma :=
  ⟨addr, addr + Word.roundUp pageShift size, 0⟩

/-- Maps the file of a node; `none` for `MAP_FAILED`. A mapping that the driver refused is not
among those of the file. -/
def mmapNode (s : Process) (file : Nat) (addr : Option (BitVec 64)) (size : BitVec 64) :
    Option (Process × BitVec 64) :=
  match addr with
  | none => none
  | some addr =>
    match deviceStep s.device (.mmap file (nodeVma addr size)) with
    | none => none
    | some device =>
      if device.files[file]?.map OpenFile.maps = s.device.files[file]?.map OpenFile.maps then none
      else some ({ s with device := device }, addr)

def closeNode (s : Process) (fd file : Nat) : Process :=
  { s.closeFd fd with device := (deviceStep s.device (.close file)).getD s.device }

/-- The PCI device behind the file of a node. -/
def nodeDevice (s : Process) (file : Nat) : Option PciDev :=
  ((s.device.files[file]?.bind OpenFile.privateData).bind s.device.registry.popDevAt).map PopDev.pdev

end Process

/-- Answers of the system to one `pop_mem_init`: those of the hugepage branch, whether
/dev/boogiepop and the node can be opened, and the kernel calls behind the ioctl and behind
`pop_dev_open`. -/
structure InitEnv extends HugepageEnv where
  openDevpop : Bool
  reg : KernelEnv
  openPopdev : Bool
  node : KernelEnv

/-- The last part of `pop_mem_init` for a device, from the open of its node on. -/
def mapDevice (env : InitEnv) (s : Process) (dev : List Char) (reg : P2pmemReg) :
    Process × Option Context :=
  match s.openNode env.openPopdev env.node (popdevPath reg) with
  | (s, none) => (s, none)
  | (s, some (fd, file)) =>
    match s.mmapNode file (env.mmap reg.size) reg.size with
    | none => (s.closeNode fd file, none)
    | some (s, mem) => (s, some
        { mem := { fd := fd, devname := dev.take popPciDevnameMax, reg := reg, mem := mem
                   paddr := virtToPhys env.pagemap mem, size := reg.size
                   numPages := reg.size >>> pageShift, allocedPages := 0 }
          file := some file, pdev := s.nodeDevice file })

/-- `pop_mem_init` with a slot name. -/
def popMemInitDevice (env : InitEnv) (s : Process) (dev : List Char) (size : BitVec 64) :
    Process × Option Context :=
  if env.malloc then
    match parseSlot zeroReg dev with
    | none => (s, none)
    | some reg =>
      if env.openDevpop then
        let fd := s.freshFd
        let reg := { reg with size := size }
        let (s, res) := s.openFd.ioctl env.reg .p2pmemReg reg
        let s := s.closeFd fd
        if res.ret ≠ 0 then (s, none)
        else mapDevice env s dev (res.copied.getD reg)
      else (s, none)
  else (s, none)

def popMemInit (env : InitEnv) (s : Process) (dev : Option (List Char)) (size : BitVec 64) :
    Process × Option Context :=
  match dev with
  | none =>
    -- `get_nr_hugepages` does not close its descriptor
    let s := if env.malloc = true ∧ env.nrHugepages.isSome = true then s.openFd else s
    (s, (popMemInitHugepage env.toHugepageEnv size).map fun mem => ⟨mem, none, none⟩)
  | some dev => popMemInitDevice env s dev size

/-- Answers of the system to one `pop_mem_exit`. -/
structure ExitEnv where
  openDevpop : Bool
  unreg : KernelEnv

/-- `pop_mem_exit` on the context at place `k`, with its return value. -/
def popMemExit (env : ExitEnv) (s : Process) (k : Nat) (ctx : Context) : Process × Int :=
  let released := fun s : Process => { s with contexts := s.contexts.eraseIdx k }
  if ctx.mem.fd = -1 then (released s, 0)
  else if env.openDevpop then
    -- the descriptor of /dev/boogiepop is never closed
    let (s, res) := s.openFd.ioctl env.unreg .p2pmemUnreg ctx.mem.reg
    if res.ret ≠ 0 then (s, -1)
    else (released (s.closeNode ctx.mem.fd.toNat (ctx.file.getD s.device.files.length)), 0)
  else (s, -1)

inductive ProcessOp
  | init (env : InitEnv) (dev : Option (List Char)) (size : BitVec 64)
  | exit (env : ExitEnv) (k : Nat)

def processInit : Process :=
  ⟨deviceInit, [], []⟩

/-- One call of the library. -/
def processStep (s : Process) : ProcessOp → Option Process
  | .init env dev size => match popMemInit env s dev size with
    | (s, none) => some s
    | (s, some ctx) => some { s with contexts := s.contexts ++ [ctx] }
  | .exit env k => match s.contexts[k]? with
    | none => none
    | some ctx => some (popMemExit env s k ctx).1

end Libpop
