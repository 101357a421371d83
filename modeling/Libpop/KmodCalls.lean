import Libpop.Kmod

/-!
# Concurrent ioctls of the kernel module

`pop_ioctl` of `kmod/boogiepop.c` is an `unlocked_ioctl` and takes no lock, so calls of several
processes interleave. Here a call takes a step for every access to `pop.dev_list` and for every
external call with an effect that others see. Each list operation is taken as atomic, a whole
traversal in `pop_find_dev` included, although nothing in the source makes it so: what two calls
do to the links of the list when their `list_add_tail` or `list_del` overlap is not modelled.
`misc_register` gives no name to two nodes, and `pci_name` is the same for all calls.
-/

namespace Libpop

/-- Where a call stands, with the locals that it still needs: in `pop_register_p2pmem` and behind it,
in `pop_unregister_p2pmem`, or at `dev_put_out`. -/
inductive CallPc
  | find (size : BitVec 64)
  | alloc (size : BitVec 64)
  | kmalloc (block : P2pBlock)
  | miscRegister (ppdev : PopDev)
  | listAdd (ppdev : PopDev)
  | report (size : Int)
  | findUnreg
  | miscDeregister (ppdev : PopDev)
  | free (ppdev : PopDev)
  | put (ppdev : PopDev)
  | listDel (ppdev : PopDev)
  | kfree (ppdev : PopDev)
  | devPut (ret : Int)
  | done (ret : Int)

structure Call where
  pdev : PciDev
  pc : CallPc

/-- The module and the calls that have found their device, in the order of their start. -/
structure CallState where
  registry : Registry
  calls : List Call

def callsInit : CallState :=
  ⟨popInit, []⟩

/-- The next step of a call on `pdev`; `none` after its return and for a `misc_register` that would
take a name twice. -/
def callStep (pciName : PciDev → List Char) (env : KernelEnv) (r : Registry) (pdev : PciDev) :
    CallPc → Option (Registry × CallPc)
  | .find size => match popFindDev r pdev with
    | some ppdev => some (r, .report (Word.toInt32 ppdev.size))
    | none => some (r, .alloc (requestSize env pdev size))
  | .alloc size => match env.pciAllocP2pmem pdev size with
    | none => some (r, .report (-enomem))
    | some p2pmem => some (r.pciAllocP2pmem ⟨pdev, p2pmem, size⟩, .kmalloc ⟨pdev, p2pmem, size⟩)
  | .kmalloc block =>
    if env.kmalloc then
      let addr := (env.kmallocAddr r.objs).val
      some (r.kmalloc addr, .miscRegister
        { id := addr, pdev := pdev, p2pmem := block.p2pmem, size := block.size, refcnt := 0
          devname := ("pop/".toList ++ pciName pdev).take (devnamelen - 1) })
    else some (r.pciFreeP2pmem block, .report (-enomem))
  | .miscRegister ppdev =>
    if env.miscRegister = 0 then
      if ppdev.devname ∈ r.miscs.map Prod.snd then none
      else some (r.miscRegister ppdev, .listAdd ppdev)
    else some (r.pciFreeP2pmem ppdev.block, .report (-einval))
  | .listAdd ppdev => some (r.listAddTail ppdev, .report (Word.toInt32 ppdev.size))
  | .report size =>
    if size < 0 then some (r, .devPut 0)
    else if env.copyToUser then some (r, .done 0) else some (r, .devPut (-efault))
  | .findUnreg => match popFindDev r pdev with
    | none => some (r, .devPut (-enodev))
    | some ppdev => some (r, .miscDeregister ppdev)
  | .miscDeregister ppdev => some (r.miscDeregister ppdev, .free ppdev)
  | .free ppdev => some (r.pciFreeP2pmem ppdev.block, .put ppdev)
  | .put ppdev => some (r.pciDevPut ppdev.pdev, .listDel ppdev)
  | .listDel ppdev => some (r.listDel ppdev, .kfree ppdev)
  | .kfree ppdev => some (r.kfree ppdev.id, .done 0)
  | .devPut ret => some (r.pciDevPut pdev, .done ret)
  | .done _ => none

inductive CallOp
  | enter (env : KernelEnv) (cmd : IoctlCmd) (reg : P2pmemReg)
  | step (i : Nat) (env : KernelEnv)

/-- The start of `pop_ioctl`: where the call goes on when it has found its device. -/
def callEntry (env : KernelEnv) (cmd : IoctlCmd) (reg : P2pmemReg) : Option Call :=
  if env.copyFromUser then
    match cmd, env.lookup reg with
    | .p2pmemReg, some pdev =>
      some ⟨pdev, if env.pciHasP2pmem pdev then .find reg.size else .devPut (-einval)⟩
    | .p2pmemUnreg, some pdev => some ⟨pdev, .findUnreg⟩
    | _, _ => none
  else none

/-- The next step of a call, or the start of one; a call that does not find its device leaves the
module alone. -/
def callsStep (pciName : PciDev → List Char) (s : CallState) : CallOp → Option CallState
  | .enter env cmd reg => match callEntry env cmd reg with
    | none => some s
    | some call => some ⟨s.registry.pciDevGet call.pdev, s.calls ++ [call]⟩
  | .step i env => match s.calls[i]? with
    | none => none
    | some call => match callStep pciName env s.registry call.pdev call.pc with
      | none => none
      | some (r, pc) => some ⟨r, s.calls.set i { call with pc := pc }⟩

end Libpop
