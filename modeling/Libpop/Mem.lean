import Libpop.Kmod
import Libpop.Loop

/-!
# Memory contexts of libpop

Embedding of the memory context and buffer allocation of `lib/libpop.c`: `pop_mem_t`,
`pop_buf_t`, `pop_buf_alloc` and `pop_buf_free`, the translations `pop_virt_to_phys` and
`virt_to_phys`, and `pop_mem_init` for hugepages.
-/

namespace Libpop

/-- `struct pop_mem`, without its mutex. -/
structure PopMem where
  fd : Int
  devname : List Char
  reg : P2pmemReg
  mem : BitVec 64
  paddr : BitVec 64
  size : BitVec 64
  numPages : BitVec 64
  allocedPages : BitVec 64
  deriving DecidableEq

/-- `struct pop_buf`, without the pointer to its context. -/
structure PopBuf where
  vaddr : BitVec 64
  paddr : BitVec 64
  size : BitVec 64
  offset : BitVec 64
  length : BitVec 64
  deriving DecidableEq

/-- The page-count loop of `pop_buf_alloc`. The shifted counter takes 2^52 values, so a loop
that has not ended after as many tests never does. -/
def nrPages (size : BitVec 64) : Option (BitVec 64) :=
  Loop.whileLoop (fun n : BitVec 64 => decide (n <<< pageShift < size)) (· + 1) (2 ^ 52) 0

inductive AllocError
  | enobufs
  | malloc
  deriving DecidableEq

/-- `pop_buf_alloc` under the mutex, given the outcome of its `malloc`; `none` when the
page-count loop does not end. -/
def popBufAlloc (mem : PopMem) (size : BitVec 64) (malloc : Bool) :
    Option (PopMem × Except AllocError PopBuf) :=
  match nrPages size with
  | none => none
  | some nr =>
    if mem.numPages - mem.allocedPages < nr then some (mem, .error .enobufs)
    else if malloc then
      some ({ mem with allocedPages := mem.allocedPages + nr },
        .ok { vaddr := mem.mem + (mem.allocedPages <<< pageShift)
              paddr := mem.paddr + (mem.allocedPages <<< pageShift)
              size := nr <<< pageShift, offset := 0, length := 0 })
    else some (mem, .error .malloc)

/-- A successful allocation with the size that was asked for. -/
structure Allocation where
  request : BitVec 64
  pbuf : PopBuf
  deriving DecidableEq

/-- A context, every allocation it has served and the descriptors not yet freed, by their
place in that list. -/
structure BufState where
  mem : PopMem
  allocations : List Allocation
  live : List Nat

inductive BufOp
  | alloc (size : BitVec 64) (malloc : Bool)
  | free (pbuf : Nat)

/-- `pop_buf_free` frees the descriptor and returns no pages. -/
def popBufFree (s : BufState) (pbuf : Nat) : BufState :=
  { s with live := s.live.erase pbuf }

/-- One call, atomic under the mutex. -/
def bufStep (s : BufState) : BufOp → Option BufState
  | .alloc size malloc => match popBufAlloc s.mem size malloc with
    | none => none
    | some (mem, .error _) => some { s with mem := mem }
    | some (mem, .ok pbuf) => some
        { mem := mem, allocations := s.allocations ++ [⟨size, pbuf⟩]
          live := s.live ++ [s.allocations.length] }
  | .free pbuf => if pbuf ∈ s.live then some (popBufFree s pbuf) else none

def bufInit (mem : PopMem) : BufState :=
  ⟨mem, [], []⟩

/-- What `virt_to_phys` sees of the system: whether /proc/self/pagemap opens, the page size,
the offset that `lseek` returns, and for a read at an offset the byte count and the value
of `entry` after it. -/
structure Pagemap where
  opened : Bool
  pagesize : BitVec 64
  lseek : BitVec 64 → Int
  read : BitVec 64 → Int × BitVec 64

def virtToPhys (pagemap : Pagemap) (addr : BitVec 64) : BitVec 64 :=
  if pagemap.opened then
    let pos := addr / pagemap.pagesize * 8
    if pagemap.lseek pos < 0 then 0
    else
      let (rc, entry) := pagemap.read pos
      if rc < 1 ∨ entry = 0 then 0
      else (entry &&& 0x7fffffffffffff) * pagemap.pagesize + addr % pagemap.pagesize
  else 0

def popVirtToPhys (mem : PopMem) (vaddr : BitVec 64) : BitVec 64 :=
  if vaddr < mem.mem ∨ vaddr > mem.mem + mem.size then 0
  else mem.paddr + (vaddr - mem.mem)

/-- Answers of the system to `pop_mem_init` for hugepages: `nrHugepages` is `none` when the
file cannot be opened and else what `atoi` makes of it, `mmap` is `none` for `MAP_FAILED`. -/
structure HugepageEnv where
  malloc : Bool
  nrHugepages : Option (BitVec 32)
  mmap : BitVec 64 → Option (BitVec 64)
  pagemap : Pagemap

def getNrHugepages (env : HugepageEnv) : BitVec 32 :=
  env.nrHugepages.getD (-1)

/-- The size of a hugepage context: the request, or a quarter of the hugepages in `int`
arithmetic. -/
def hugepageSize (nr : BitVec 32) (size : BitVec 64) : BitVec 64 :=
  if size ≠ 0 then size else (2097152 * nr.sdiv 4).signExtend 64

/-- `pop_mem_init` with a null device. -/
def popMemInitHugepage (env : HugepageEnv) (size : BitVec 64) : Option PopMem :=
  if env.malloc then
    let nr := getNrHugepages env
    if nr.slt 0 then none
    else
      let size := hugepageSize nr size
      match env.mmap size with
      | none => none
      | some mem => some
          { fd := -1, devname := "hugepage".toList, reg := ⟨0, 0, 0, 0, 0⟩, mem := mem
            paddr := virtToPhys env.pagemap mem, size := size
            numPages := (size + (1 <<< pageShift) - 1) >>> pageShift, allocedPages := 0 }
  else none

end Libpop
