import Libpop.Bytes

/-!
# Packets in memory

The UDP packets that store and generator build in their buffers, byte by byte, and the
descriptor of `apps/pkt_desc.h`, which keeps the length of a packet in the last word of its
2 KiB frame.
-/

namespace Libpop
open Bytes

def frameSize : Nat := 2048

def etherHdrLen : Nat := 14
def ipHdrLen : Nat := 20

/-- `get_pktlen_from_desc(buf, 2048)` as a value. -/
def getPktlenFromDesc (m : Mem) (buf : Nat) : BitVec 32 :=
  get32 m (buf + (frameSize - 4))

/-- The same macro as the left side of an assignment. -/
def setPktlenInDesc (m : Mem) (buf : Nat) (length : BitVec 32) : Mem :=
  write m (buf + (frameSize - 4)) (le32 length)

/-- What the two versions of `build_pkt` write differently. -/
structure PktFields where
  etherShost : List (BitVec 8)
  ipTos : BitVec 8
  uhSport : BitVec 16

/-- The header fields with their offsets in the packet. -/
def pktHeader (fields : PktFields) (len : Nat) : List (Nat × List (BitVec 8)) :=
  [(0, [0xff, 0xff, 0xff, 0xff, 0xff, 0xff]), (6, fields.etherShost), (12, be16 0x0800),
    -- the IP header
    (14, [0x45]), (15, [fields.ipTos]), (16, be16 (BitVec.ofNat 16 (len - etherHdrLen))),
    (18, be16 0), (20, be16 0), (22, [16]), (23, [17]), (24, be16 0), (26, [10, 0, 0, 2]),
    (30, [10, 0, 0, 1]),
    -- the UDP header
    (34, be16 fields.uhSport), (36, be16 60000),
    (38, be16 (BitVec.ofNat 16 (len - etherHdrLen - ipHdrLen))), (40, be16 0)]

/-- The common body of `build_pkt`: the packet is cleared and its header fields are written. -/
def buildUdpPkt (fields : PktFields) (m : Mem) (buf len : Nat) : Mem :=
  (pktHeader fields len).foldl (fun m field => write m (buf + field.1) field.2) (Bytes.set m buf len 0)

end Libpop
