import Libpop.Mem
import Libpop.Window

/-!
# Operations on buffers

The accessors of `pop_buf_t` and the four operations that move the ends of its data, from
`lib/libpop.c`, and `pop_nm_set_buf` from `lib/pop_netmap.c`.
-/

namespace Libpop
open Buffer

/-- `struct pop_buf` with the pointer to its context. -/
structure Pbuf extends PopBuf where
  mem : BitVec 64
  deriving DecidableEq

def popBufData (pbuf : Pbuf) : BitVec 64 :=
  pbuf.vaddr + pbuf.offset

def popBufPaddr (pbuf : Pbuf) : BitVec 64 :=
  pbuf.paddr + pbuf.offset

/-- The operations return the buffer after the call and the pointer, `none` for a null one. -/
def popBufPut (pbuf : Pbuf) (len : BitVec 64) : Pbuf × Option (BitVec 64) :=
  if pbuf.offset + pbuf.length + len > pbuf.size then (pbuf, none)
  else
    let pbuf := { pbuf with length := pbuf.length + len }
    (pbuf, some (popBufData pbuf))

/-- `pop_buf_alloc` on the context at `addr` and, for the buffer it returns, `pop_buf_put` of as much;
an error is the null pointer. -/
def popBufAllocPut (addr : BitVec 64) (mem : PopMem) (size : BitVec 64) (malloc : Bool) :
    Option (PopMem × Except AllocError Pbuf) :=
  match popBufAlloc mem size malloc with
  | none => none
  | some (mem, .error e) => some (mem, .error e)
  | some (mem, .ok pbuf) => some (mem, .ok (popBufPut ⟨pbuf, addr⟩ size).1)

def popBufTrim (pbuf : Pbuf) (len : BitVec 64) : Pbuf × Option (BitVec 64) :=
  if pbuf.length < len then (pbuf, none)
  else
    let pbuf := { pbuf with length := pbuf.length - len }
    (pbuf, some (popBufData pbuf))

def popBufPull (pbuf : Pbuf) (len : BitVec 64) : Pbuf × Option (BitVec 64) :=
  if pbuf.length < len then (pbuf, none)
  else
    let pbuf := { pbuf with length := pbuf.length - len, offset := pbuf.offset + len }
    (pbuf, some (popBufData pbuf))

def popBufPush (pbuf : Pbuf) (len : BitVec 64) : Pbuf × Option (BitVec 64) :=
  if pbuf.offset < len then (pbuf, none)
  else
    let pbuf := { pbuf with length := pbuf.length + len, offset := pbuf.offset - len }
    (pbuf, some (popBufData pbuf))

def popBufLen (pbuf : Pbuf) : BitVec 64 :=
  pbuf.length - pbuf.offset

/-- One of the four calls. -/
def popBufAdjust (pbuf : Pbuf) (op : Adjust) (len : BitVec 64) : Pbuf × Option (BitVec 64) :=
  match op with
  | .put => popBufPut pbuf len
  | .trim => popBufTrim pbuf len
  | .pull => popBufPull pbuf len
  | .push => popBufPush pbuf len

def pbufStep (pbuf : Pbuf) (call : Adjust × BitVec 64) : Option Pbuf :=
  some (popBufAdjust pbuf call.1 call.2).1

/-- The fields of `struct netmap_slot` that libpop writes. -/
structure NetmapSlot where
  len : BitVec 16
  flags : BitVec 16
  ptr : BitVec 64
  deriving DecidableEq

/-- `pop_nm_set_buf`. The value of `NS_PHY_INDIRECT` is netmap's. -/
def popNmSetBuf (nsPhyIndirect : BitVec 16) (slot : NetmapSlot) (pbuf : Pbuf) : NetmapSlot :=
  { flags := slot.flags ||| nsPhyIndirect
    ptr := popBufPaddr pbuf
    len := (popBufLen pbuf).setWidth 16 }

end Libpop
