import Libpop.Proofs.GeneratorWalk
import Libpop.Proofs.GeneratorWire
import Libpop.Proofs.StoredToWire

/-!
# From store to the wire, through generator

The walk of a thread stays in its range, so on a device that store has filled every frame that
the thread asks for holds a packet of store, and these packets are what the NIC sends.
-/

namespace Libpop.Proofs
open Bytes Execution Generator Store

/-- What the commands of thread `n` have in common when the walk stays in its range. -/
structure RangeWalk (p : GenParam) (n : Nat) : Prop where
  pos : 1 ≤ p.nblocks
  long : p.nblocks < (p.range n).2.toNat - (p.range n).1.toNat
  max : (p.range n).2.toNat + p.nblocks < 2 ^ 64
  walk : p.walk = .random ∨ p.nblocks ∣ (p.range n).2.toNat - (p.range n).1.toNat

/-- The walk of `next_lba` leads here from the start of the range. -/
def OnWalk (p : GenParam) (n : Nat) (lba : BitVec 64) : Prop :=
  ∃ rands,
    exec (generatorWalk p.walk (p.range n).1 (p.range n).2 (BitVec.ofNat 64 p.nblocks)) (p.range n).1 rands =
    some lba

lemma RangeWalk.inside {p : GenParam} {n : Nat} (h : RangeWalk p n) {lba : BitVec 64}
    (hlba : OnWalk p n lba) : WalkInside (p.range n).1 (p.range n).2 p.nblocks lba := by
  obtain ⟨hpos, hlong, hmax, hwalk⟩ := h
  obtain ⟨rands, hrands⟩ := hlba
  rw [← toNat_genNblocks p] at hpos hlong hmax hwalk ⊢
  obtain ⟨lba', hlba', hin⟩ := generatorWalk_inside hpos hlong hmax hwalk rands
  rw [hrands, Option.some.injEq] at hlba'
  exact hlba' ▸ hin

/-- A frame of 2 KiB that ends below block `stop`. -/
def FrameBelow (p : GenParam) (stop addr : Nat) : Prop :=
  ∃ f, addr = frameSize * f ∧ frameSize * (f + 1) ≤ stop * p.blocksize

/-- A command on the walk asks for frames of the range. -/
lemma frameBelow_deviceAddr {p : GenParam} {n stop b : Nat} {read : GenRead} (hwalk : RangeWalk p n)
    (hshift : 11 ≤ p.blockshift) (hwhole : frameSize * p.batch ≤ p.nblocks * p.blocksize)
    (hstop : (p.range n).2.toNat ≤ stop) (hread : OnWalk p n read.lba) (hb : b < p.batch) :
    FrameBelow p stop (deviceAddr p (read, b)) := by
  have hin := (hwalk.inside hread).2
  have hblock : p.blocksize = frameSize * 2 ^ (p.blockshift - 11) := by
    have hpow : (2 : Nat) ^ p.blockshift = 2 ^ 11 * 2 ^ (p.blockshift - 11) := by
      rw [← Nat.pow_add, Nat.add_sub_of_le hshift]
    exact hpow
  refine ⟨read.lba.toNat * 2 ^ (p.blockshift - 11) + b, ?_, ?_⟩
  · rw [deviceAddr, hblock, Nat.mul_add, Nat.mul_left_comm]
  · have hframe : frameSize * (b + 1) ≤ frameSize * p.batch := Nat.mul_le_mul_left _ hb
    calc frameSize * (read.lba.toNat * 2 ^ (p.blockshift - 11) + b + 1)
        = read.lba.toNat * p.blocksize + frameSize * (b + 1) := by
          rw [hblock, Nat.add_assoc, Nat.mul_add, Nat.mul_left_comm]
      _ ≤ read.lba.toNat * p.blocksize + p.nblocks * p.blocksize := by omega
      _ = (read.lba.toNat + p.nblocks) * p.blocksize := (Nat.add_mul _ _ _).symm
      _ ≤ stop * p.blocksize := Nat.mul_le_mul_right _ (hin.trans hstop)

/-- The thread is on its walk and has asked for frames below `stop`. -/
structure AskedInv (p : GenParam) (n stop : Nat) (s : GenTx) : Prop where
  walked : Walked p n (OnWalk p n) s.thread
  asked : ∀ addr ∈ s.asked, FrameBelow p stop addr

lemma onWalk_next {p : GenParam} {n : Nat} (lba : BitVec 64) (rand : BitVec 31) (lba' : BitVec 64)
    (h : OnWalk p n lba)
    (hnext : generatorWalk p.walk (p.range n).1 (p.range n).2 (BitVec.ofNat 64 p.nblocks) lba rand =
      some lba') :
    OnWalk p n lba' := by
  obtain ⟨rands, hrands⟩ := h
  exact ⟨rands ++ [rand], exec_snoc hrands hnext⟩

section Runs

variable {p : GenParam} {g : GenBuffers} {disk : Mem} {n stop : Nat}

lemma transmits_asked (s : GenTx) (k : Nat) : (s.transmits p g k).asked = s.asked := by
  induction k with
  | zero => rfl
  | succ k ih => exact ih

lemma AskedInv.fill (hwalk : RangeWalk p n) (hshift : 11 ≤ p.blockshift)
    (hwhole : frameSize * p.batch ≤ p.nblocks * p.blocksize) (hstop : (p.range n).2.toNat ≤ stop)
    {s : GenTx} (h : AskedInv p n stop s) {t : GenThread} {env : GenEnv}
    (hbody : threadBody p g disk s.thread env = some t) : AskedInv p n stop (s.fill p t) := by
  have hwalked := walked_step onWalk_next s.thread env t h.walked hbody
  refine ⟨hwalked, ?_⟩
  intro addr haddr
  rcases List.mem_append.mp haddr with hold | hnew
  · exact h.asked addr hold
  · obtain ⟨⟨read, b⟩, hframe, rfl⟩ := List.mem_map.mp hnew
    obtain ⟨hread, hb⟩ := mem_readFrames hframe
    exact frameBelow_deviceAddr hwalk hshift hwhole hstop (hwalked.reads read hread)
      (hb.trans_le (batchOf_le p _ _))

lemma askedInv_step (hwalk : RangeWalk p n) (hshift : 11 ≤ p.blockshift)
    (hwhole : frameSize * p.batch ≤ p.nblocks * p.blocksize) (hstop : (p.range n).2.toNat ≤ stop)
    {s : GenTx} {op : GenTxOp} {u : GenTx} (h : AskedInv p n stop s)
    (hs : genTxStep p g disk s op = some u) : AskedInv p n stop u := by
  cases op with
  | transmit =>
    simp only [genTxStep] at hs
    split at hs
    · cases hs
      exact ⟨h.walked, h.asked⟩
    · cases hs
  | iterate rand poll sync =>
    simp only [genTxStep] at hs
    split at hs
    · cases hs
    · rename_i t hbody
      have hfill := h.fill hwalk hshift hwhole hstop hbody
      cases sync with
      | none =>
        cases hs
        exact hfill
      | some sync =>
        dsimp only at hs
        split at hs
        · cases hs
          refine ⟨?_, ?_⟩
          · dsimp only
            rw [(transmits_kept (p := p) (g := g) (s.fill p t) sync.1).1]
            exact hfill.walked
          · dsimp only
            rw [transmits_asked]
            exact hfill.asked
        · cases hs

end Runs

/-- What the NIC sends: as many bytes of the frame as the slot says. -/
def Sent.packet (y : Sent) : List (BitVec 8) :=
  y.frame.take y.slot.len.toNat

/-- A frame of the device that holds a packet of store is sent as this packet. -/
lemma take_deviceFrame {sp : StoreParam} {disk : Mem} {f : Nat}
    (h : HoldsPacket disk (frameSize * f) sp.pktlen (storePort sp f)) :
    (deviceFrame disk (frameSize * f)).2.take (deviceFrame disk (frameSize * f)).1.toNat =
      storedPacket sp f := by
  have hlen : sp.pktlen ≤ frameSize := by
    have hle := sp.pktlen_le
    unfold frameSize
    omega
  unfold deviceFrame frameBytes
  dsimp only
  rw [h.desc, toNat_slotLen hlen]
  exact h.take_frame hlen

/-- Two commands of two frames each, over the blocks that store has written. -/
def overStored : GenParam :=
  { twoByTwo with lbaEnd := 256, blockshift := 12 }

end Libpop.Proofs
