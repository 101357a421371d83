import Libpop.Buf
import Libpop.Packet

/-!
# The packets of nmgen

Embedding of the sender of `apps/nmgen.c` up to its transmit loop: the options, the checksum of
an IP header and the packets that a thread builds in its buffer, one every 2048 bytes. The
host is little-endian.
-/

namespace Libpop.Nmgen
open Bytes

/-- The options of `struct nmgen` that a sender reads. The parser bounds the batch from above and
takes any packet length; addresses are kept in network order. -/
structure NmgenParam where
  pktlen : BitVec 32
  batch : BitVec 32
  srcip : BitVec 32
  dstip : BitVec 32
  srcmac : Vector (BitVec 8) 6
  dstmac : Vector (BitVec 8) 6
  batch_le : batch.toInt ≤ 64

/-! ### The checksum -/

def checksumAdd (sum word : BitVec 32) : BitVec 32 :=
  if sum + word > 0xFFFF then sum + word - 0xFFFF else sum + word

/-- The loop of `checksum` after `n` iterations. -/
def checksumWords (m : Mem) (addr : Nat) (sum : BitVec 32) : Nat → BitVec 32
  | 0 => sum
  | n + 1 =>
    checksumAdd (checksumWords m addr sum n) ((swap16 (get16 m (addr + 2 * n))).setWidth 32)

def checksum (m : Mem) (data : Nat) (len : BitVec 16) (sum : BitVec 32) : BitVec 16 :=
  let i := (len &&& ~~~1#16).toNat
  let sum := checksumWords m data sum (i / 2)
  let sum := if i < len.toNat then checksumAdd sum ((m (data + i)).setWidth 32 <<< 8) else sum
  sum.setWidth 16

def wrapsum (sum : BitVec 32) : BitVec 16 :=
  swap16 ((~~~sum &&& 0xFFFF).setWidth 16)

/-! ### Packets -/

/-- The length of a packet as a `size_t`. -/
def NmgenParam.len (gen : NmgenParam) : BitVec 64 :=
  gen.pktlen.signExtend 64

/-- What `build_packet` writes before it takes the checksum, with the offsets in the packet. -/
def ipFields (gen : NmgenParam) : List (Nat × List (BitVec 8)) :=
  [(0, gen.dstmac.toList), (6, gen.srcmac.toList), (12, le16 (swap16 0x0800)),
    -- version and header length share a byte
    (14, [0x45]), (18, le16 0), (15, [0x10]),
    (16, le16 (swap16 ((gen.len - BitVec.ofNat 64 etherHdrLen).setWidth 16))),
    (20, le16 0), (22, [16]), (23, [17]), (24, le16 0), (26, le32 gen.srcip), (30, le32 gen.dstip)]

def udpFields (gen : NmgenParam) (cpu : Nat) (rand : BitVec 31) : List (Nat × List (BitVec 8)) :=
  [(38, le16 (swap16 ((gen.len - BitVec.ofNat 64 etherHdrLen - BitVec.ofNat 64 ipHdrLen).setWidth 16))),
    (36, le16 (swap16 (BitVec.ofNat 16 (60000 + cpu)))), (34, le16 (rand.setWidth 16)),
    (40, le16 0)]

def writeFields (m : Mem) (pkt : Nat) (fields : List (Nat × List (BitVec 8))) : Mem :=
  fields.foldl (fun m field => write m (pkt + field.1) field.2) m

/-- The packet when its checksum is taken. -/
def unsummedPacket (gen : NmgenParam) (m : Mem) (pkt : Nat) : Mem :=
  writeFields (Bytes.set m pkt gen.len.toNat 0) pkt (ipFields gen)

/-- `build_packet` by the thread of `cpu`, given the value of `rand()`. -/
def buildPacket (gen : NmgenParam) (cpu : Nat) (rand : BitVec 31) (m : Mem) (pkt : Nat) : Mem :=
  let m := unsummedPacket gen m pkt
  let sum := wrapsum ((checksum m (pkt + etherHdrLen) (BitVec.ofNat 16 ipHdrLen) 0).setWidth 32)
  writeFields (write m (pkt + 24) (le16 sum)) pkt (udpFields gen cpu rand)

/-! ### The sender -/

def senderAlloc (gen : NmgenParam) (addr : BitVec 64) (mem : PopMem) (malloc : Bool) :
    Option (PopMem × Except AllocError Pbuf) :=
  popBufAllocPut addr mem ((2048 * gen.batch).signExtend 64) malloc

/-- The memory after `n` iterations of the build loop of `nmgen_sender_body`, for the `pop_buf_data`
of its buffer. -/
def buildPackets (gen : NmgenParam) (cpu : Nat) (rand : Nat → BitVec 31) (data : Nat)
    (m : Mem) : Nat → Mem
  | 0 => m
  | n + 1 =>
    buildPacket gen cpu (rand n) (buildPackets gen cpu rand data m n) (data + frameSize * n)

end Libpop.Nmgen
