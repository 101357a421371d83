import Libpop.Mem

/-!
# The mutex of a memory context

The threads of a program share a context, and `pop_buf_alloc` of `lib/libpop.c` runs under the
mutex of the context from its first to its last line. Here a call is a thread of its own that
takes a step for the lock, one for every test of the page-count loop and one for the rest of
the function, which ends with the unlock on each way out. What the threads are to see is the
context of a program that makes the calls one after the other.
-/

namespace Libpop

/-- `pop_buf_alloc` behind its loop, given the outcome of `malloc`. -/
def popBufCarve (mem : PopMem) (nr : BitVec 64) (malloc : Bool) :
    PopMem × Except AllocError PopBuf :=
  if mem.numPages - mem.allocedPages < nr then (mem, .error .enobufs)
  else if malloc then
    ({ mem with allocedPages := mem.allocedPages + nr },
      .ok { vaddr := mem.mem + (mem.allocedPages <<< pageShift)
            paddr := mem.paddr + (mem.allocedPages <<< pageShift)
            size := nr <<< pageShift, offset := 0, length := 0 })
  else (mem, .error .malloc)

inductive AllocPc
  | lock
  | count (nr : BitVec 64)
  | done (res : Except AllocError PopBuf)

/-- A thread in `pop_buf_alloc`, with the argument of the call. -/
structure AllocCall where
  size : BitVec 64
  pc : AllocPc

/-- A context with the thread that holds its mutex and the calls on it, one for each thread. -/
structure SharedMem where
  mem : PopMem
  mutex : Option Nat
  calls : List AllocCall

namespace SharedMem

def setCall (s : SharedMem) (i : Nat) (call : AllocCall) : SharedMem :=
  { s with calls := s.calls.set i call }

def acquire (s : SharedMem) (i : Nat) (size : BitVec 64) : SharedMem :=
  { s with mutex := some i, calls := s.calls.set i ⟨size, .count 0⟩ }

def release (s : SharedMem) (i : Nat) (size : BitVec 64) (out : PopMem × Except AllocError PopBuf) :
    SharedMem :=
  { mem := out.1, mutex := none, calls := s.calls.set i ⟨size, .done out.2⟩ }

end SharedMem

/-- Every thread is about to call `pop_buf_alloc` with its own size. -/
def sharedInit (mem : PopMem) (sizes : List (BitVec 64)) : SharedMem :=
  ⟨mem, none, sizes.map fun size => ⟨size, .lock⟩⟩

/-- The next step of a thread, with the outcome of `malloc` should the step call it; `none` while
it waits for the mutex and when its call has returned. -/
def sharedStep (s : SharedMem) (op : Nat × Bool) : Option SharedMem :=
  match s.calls[op.1]? with
  | none => none
  | some ⟨size, .lock⟩ =>
    if s.mutex = none then some (s.acquire op.1 size) else none
  | some ⟨size, .count nr⟩ =>
    if nr <<< pageShift < size then some (s.setCall op.1 ⟨size, .count (nr + 1)⟩)
    else some (s.release op.1 size (popBufCarve s.mem nr op.2))
  | some ⟨_, .done _⟩ => none

/-- A call that has returned, with its thread. -/
structure Returned where
  thread : Nat
  size : BitVec 64
  res : Except AllocError PopBuf

/-- The context of a program without threads and its calls so far. -/
structure AllocHistory where
  mem : PopMem
  returned : List Returned

/-- A whole call of `pop_buf_alloc` for a thread, with its argument and the outcome of `malloc`. -/
def historyStep (s : AllocHistory) (op : Nat × BitVec 64 × Bool) : Option AllocHistory :=
  match popBufAlloc s.mem op.2.1 op.2.2 with
  | none => none
  | some (mem, res) => some ⟨mem, s.returned ++ [⟨op.1, op.2.1, res⟩]⟩

end Libpop
