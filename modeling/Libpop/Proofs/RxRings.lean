import Libpop.Proofs.BufferAllocation
import Libpop.Proofs.RingDrain

/-!
# Receive rings over pop memory

The NIC writes a packet to the physical address in a slot and the application reads it at the
virtual address of the same index. Both are the buffer of the ring plus a 32-bit product, so
they name the same bytes. The setup has no way back: when it fails it has used a null buffer,
or it leaves the ring rewritten.
-/

namespace Libpop.Proofs
open NetmapRing

/-! ### The slot loops -/

lemma forSlots_eq (f : Nat → NetmapSlot → NetmapSlot) (r : NetmapRing) (n : Nat) :
    r.forSlots f n = { r with slot := fun i => if i < n then f i (r.slot i) else r.slot i } := by
  induction n with
  | zero => simp [forSlots]
  | succ n ih =>
    simp only [forSlots, ih]
    congr 1
    funext i
    by_cases hi : i = n
    · subst hi
      simp
    · rw [Function.update_of_ne hi]
      by_cases hlt : i < n
      · rw [if_pos hlt, if_pos (hlt.trans (Nat.lt_succ_self n))]
      · rw [if_neg hlt, if_neg (by omega)]

section Slots

variable {ns : BitVec 16} {pbuf : Pbuf} {r : RxRing} {i : Nat}

lemma rxringSlots_slot (hi : i < r.ring.numSlots) :
    (rxringSlots ns pbuf r).slot i = rxSlot ns pbuf r.nrBufSize i (r.ring.slot i) := by
  unfold rxringSlots
  rw [forSlots_eq]
  exact if_pos hi

lemma popNmRxringExit_slot {ring : NetmapRing} (hi : i < ring.numSlots) :
    (popNmRxringExit ns ring).slot i =
      { ring.slot i with flags := (ring.slot i).flags &&& ~~~ns, ptr := 0 } := by
  unfold popNmRxringExit
  rw [forSlots_eq]
  exact if_pos hi

variable (hprod : r.ring.numSlots * r.nrBufSize.toNat < 2 ^ 32)

include hprod

lemma toNat_bufBytes : (r.bufBytes.setWidth 64).toNat = r.ring.numSlots * r.nrBufSize.toNat := by
  have hslots := r.numSlots_lt
  unfold RxRing.bufBytes
  rw [BitVec.toNat_setWidth, BitVec.toNat_mul, BitVec.toNat_ofNat, Nat.mod_eq_of_lt hslots,
    Nat.mod_eq_of_lt hprod, Nat.mod_eq_of_lt (by omega)]

lemma toNat_slotOffset (hi : i < r.ring.numSlots) :
    ((r.nrBufSize * BitVec.ofNat 32 i).setWidth 64).toNat = i * r.nrBufSize.toNat ∧
      i * r.nrBufSize.toNat + r.nrBufSize.toNat ≤ r.ring.numSlots * r.nrBufSize.toNat := by
  have hslots := r.numSlots_lt
  have hend : i * r.nrBufSize.toNat + r.nrBufSize.toNat ≤ r.ring.numSlots * r.nrBufSize.toNat := by
    rw [← Nat.succ_mul]
    exact Nat.mul_le_mul_right _ hi
  refine ⟨?_, hend⟩
  rw [BitVec.toNat_setWidth, BitVec.toNat_mul, BitVec.toNat_ofNat,
    Nat.mod_eq_of_lt (by omega : i < 2 ^ 32),
    Nat.mul_comm, Nat.mod_eq_of_lt (by omega : i * r.nrBufSize.toNat < 2 ^ 32),
    Nat.mod_eq_of_lt (by omega)]

end Slots

/-- The call uses a null pointer, returns NULL from a ring that is rewritten and synced, or empties
the ring. -/
lemma popNmRxringInit_cases (env : RxInitEnv) (r : RxRing) (addr : BitVec 64) (mem : PopMem) :
    (¬Room mem (r.bufBytes.setWidth 64) env.mallocPbuf ∧
      popNmRxringInit env r addr mem = some ⟨mem, r.ring, .nullPbuf⟩) ∨
    (Room mem (r.bufBytes.setWidth 64) env.mallocPbuf ∧
      ∃ mem' pbuf, FreshPbuf mem (r.bufBytes.setWidth 64).toNat pbuf ∧
        popNmRxringInit env r addr mem =
          if env.malloc then
            (env.sync.apply (rxringRewind (rxringSlots env.nsPhyIndirect pbuf r))).flush.map
              fun ring => ⟨mem', env.flushed.apply ring, .rxring pbuf⟩
          else some ⟨mem', env.sync.apply (rxringRewind (rxringSlots env.nsPhyIndirect pbuf r)), .null⟩) := by
  have hlt := r.bufBytes.isLt
  have hwide : (r.bufBytes.setWidth 64).toNat = r.bufBytes.toNat :=
    BitVec.toNat_setWidth_of_le (by decide)
  have hreach : (r.bufBytes.setWidth 64).toNat ≤ 2 ^ 64 - 4096 := by omega
  unfold popNmRxringInit
  rcases popBufAllocPut_cases hreach addr mem env.mallocPbuf with
    ⟨hroom, mem', pbuf, hfresh, ha⟩ | ⟨hroom, e, ha⟩
  · right
    refine ⟨hroom, mem', pbuf, hfresh, ?_⟩
    rw [ha]
    dsimp only
    split
    · cases (env.sync.apply _).flush <;> rfl
    · rfl
  · left
    rw [ha]
    exact ⟨hroom, rfl⟩

/-! ### Rings that were set up -/

/-- The ring behind the slot loop, over the buffer of the ring: the flags, the windows of the slots
in physical memory and the buffers at which the application finds them. -/
structure RxLayout (ns : BitVec 16) (mem : PopMem) (r : RxRing) (pbuf : Pbuf) : Prop where
  flags : ∀ i < r.ring.numSlots, ((rxringSlots ns pbuf r).slot i).flags &&& ns = ns ∧
    ((rxringSlots ns pbuf r).slot i).flags &&& ~~~ns = (r.ring.slot i).flags &&& ~~~ns
  disjoint : ∀ i < r.ring.numSlots, ∀ j < r.ring.numSlots, i ≠ j →
    Disjoint (Word.span ((rxringSlots ns pbuf r).slot i).ptr r.nrBufSize.toNat)
      (Word.span ((rxringSlots ns pbuf r).slot j).ptr r.nrBufSize.toNat)
  inside : ∀ i < r.ring.numSlots,
    Word.span ((rxringSlots ns pbuf r).slot i).ptr r.nrBufSize.toNat ⊆ Word.span pbuf.paddr pbuf.size.toNat
  translated : ∀ i < r.ring.numSlots,
    mem.mem ≤ popNmRxringBuf pbuf r.nrBufSize (BitVec.ofNat 32 i) →
    popNmRxringBuf pbuf r.nrBufSize (BitVec.ofNat 32 i) ≤ mem.mem + mem.size →
    popVirtToPhys mem (popNmRxringBuf pbuf r.nrBufSize (BitVec.ofNat 32 i)) =
      ((rxringSlots ns pbuf r).slot i).ptr

lemma rxLayout_of_pbuf {ns : BitVec 16} {mem : PopMem} {r : RxRing} {pbuf : Pbuf}
    (hprod : r.ring.numSlots * r.nrBufSize.toNat < 2 ^ 32)
    (h : FreshPbuf mem (r.ring.numSlots * r.nrBufSize.toNat) pbuf) : RxLayout ns mem r pbuf := by
  have hptr : ∀ i < r.ring.numSlots, ((rxringSlots ns pbuf r).slot i).ptr =
      pbuf.paddr + (r.nrBufSize * BitVec.ofNat 32 i).setWidth 64 := by
    intro i hi
    rw [rxringSlots_slot hi, ← h.paddr_eq]
    rfl
  have hordered : ∀ i j, i < j → j < r.ring.numSlots →
      Disjoint (Word.span ((rxringSlots ns pbuf r).slot i).ptr r.nrBufSize.toNat)
        (Word.span ((rxringSlots ns pbuf r).slot j).ptr r.nrBufSize.toNat) := by
    intro i j hij hj
    obtain ⟨hi', -⟩ := toNat_slotOffset hprod (hij.trans hj)
    obtain ⟨hj', hend⟩ := toNat_slotOffset hprod hj
    have hstep : i * r.nrBufSize.toNat + r.nrBufSize.toNat ≤ j * r.nrBufSize.toNat := by
      rw [← Nat.succ_mul]
      exact Nat.mul_le_mul_right _ hij
    rw [hptr i (hij.trans hj), hptr j hj]
    apply Word.disjoint_span_add
    · rw [hi', hj']
      exact hstep
    · rw [hj']
      omega
  refine ⟨?_, ?_, ?_, ?_⟩
  · intro i hi
    rw [rxringSlots_slot hi]
    exact ⟨Word.or_and_self _ _, Word.or_and_not _ _⟩
  · intro i hi j hj hij
    rcases Nat.lt_or_gt_of_ne hij with hlt | hgt
    · exact hordered i j hlt hj
    · exact (hordered j i hgt hi).symm
  · intro i hi
    obtain ⟨hoff, hend⟩ := toNat_slotOffset hprod hi
    have hsize := h.size
    rw [hptr i hi]
    apply Word.span_add_subset
    · rw [hoff]
      omega
    · rw [hoff]
      omega
  · intro i hi hlo hhi
    rw [hptr i hi, h.paddr]
    unfold popNmRxringBuf at hlo hhi ⊢
    rw [h.data_eq, h.vaddr] at hlo hhi ⊢
    unfold popVirtToPhys
    rw [if_neg]
    · rw [BitVec.add_assoc mem.mem, BitVec.add_comm mem.mem, BitVec.add_sub_cancel,
        ← BitVec.add_assoc]
    · rintro (hbelow | habove)
      · exact absurd hlo (BitVec.not_le.mpr hbelow)
      · exact absurd hhi (BitVec.not_le.mpr habove)

/-- The exit takes from every slot that was clear what the setup put there. -/
def ExitRestores (ns : BitVec 16) (before ring : NetmapRing) : Prop :=
  ∀ i < before.numSlots, (before.slot i).flags &&& ns = 0 → (before.slot i).ptr = 0 →
    ((popNmRxringExit ns ring).slot i).flags = (before.slot i).flags ∧
      ((popNmRxringExit ns ring).slot i).ptr = (before.slot i).ptr

lemma exitRestores_of_flags {ns : BitVec 16} {r : RxRing} {pbuf : Pbuf} {ring : NetmapRing}
    (hslots : ring.numSlots = r.ring.numSlots)
    (hflags : ∀ i, (ring.slot i).flags = ((rxringSlots ns pbuf r).slot i).flags) :
    ExitRestores ns r.ring ring := by
  intro i hi hclear hptr
  rw [popNmRxringExit_slot (hslots.symm ▸ hi), hptr, hflags, rxringSlots_slot hi]
  exact ⟨Word.or_and_not_of_clear hclear, rfl⟩

lemma flush_slot {r r' : NetmapRing} (h : r.flush = some r') :
    r'.slot = r.slot ∧ r'.numSlots = r.numSlots := by
  unfold flush at h
  rw [Loop.whileLoop_eq_some_iff] at h
  obtain ⟨k, -, rfl, -⟩ := h
  exact ⟨release_iterate_slot r k, release_iterate_numSlots r k⟩

lemma popNmRxringInit_rxring {env : RxInitEnv} {r : RxRing} {addr : BitVec 64} {mem : PopMem}
    {out : RxInitOut} {pbuf : Pbuf} (hinit : popNmRxringInit env r addr mem = some out)
    (hret : out.ret = .rxring pbuf) :
    FreshPbuf mem (r.bufBytes.setWidth 64).toNat pbuf ∧
      ∃ ring, (env.sync.apply (rxringRewind (rxringSlots env.nsPhyIndirect pbuf r))).flush =
        some ring ∧
        out.ring = env.flushed.apply ring := by
  rcases popNmRxringInit_cases env r addr mem with ⟨-, hc⟩ | ⟨-, mem', pbuf', hp, hc⟩
  · rw [hinit] at hc
    cases hc
    cases hret
  · rw [hinit] at hc
    split at hc
    · obtain ⟨ring, hring, rfl⟩ := Option.map_eq_some_iff.mp hc.symm
      cases hret
      exact ⟨hp, ring, hring, rfl⟩
    · cases hc
      cases hret

/-- A sync and the flush loop leave the flags and the addresses of the slots. -/
lemma popNmRxringInit_slots {env : RxInitEnv} {r : RxRing} {addr : BitVec 64} {mem : PopMem}
    {out : RxInitOut} {pbuf : Pbuf} (hinit : popNmRxringInit env r addr mem = some out)
    (hret : out.ret = .rxring pbuf) :
    out.ring.numSlots = r.ring.numSlots ∧
      ∀ i, (out.ring.slot i).flags = ((rxringSlots env.nsPhyIndirect pbuf r).slot i).flags ∧
        (out.ring.slot i).ptr = ((rxringSlots env.nsPhyIndirect pbuf r).slot i).ptr := by
  obtain ⟨-, ring, hflush, hring⟩ := popNmRxringInit_rxring hinit hret
  obtain ⟨hslot, hnum⟩ := flush_slot hflush
  rw [hring]
  refine ⟨hnum.trans ?_, fun i => ?_⟩
  · change (rxringSlots env.nsPhyIndirect pbuf r).numSlots = r.ring.numSlots
    unfold rxringSlots
    rw [forSlots_eq]
  · change (ring.slot i).flags = _ ∧ (ring.slot i).ptr = _
    rw [hslot]
    exact ⟨rfl, rfl⟩

/-- A ring on which the setup succeeds has its slots over its own buffer, each where the application
looks for it, and keeps them to the end of the setup. The exit gives slots that were clear back as
they were, behind the slot loop as at the end of the setup. -/
theorem rxring_layout {env : RxInitEnv} {r : RxRing} {addr : BitVec 64} {mem : PopMem}
    {out : RxInitOut} {pbuf : Pbuf} (hprod : r.ring.numSlots * r.nrBufSize.toNat < 2 ^ 32)
    (hinit : popNmRxringInit env r addr mem = some out) (hret : out.ret = .rxring pbuf) :
    RxLayout env.nsPhyIndirect mem r pbuf ∧
      ExitRestores env.nsPhyIndirect r.ring (rxringSlots env.nsPhyIndirect pbuf r) ∧
      ExitRestores env.nsPhyIndirect r.ring out.ring ∧
      ∀ i < r.ring.numSlots,
        (out.ring.slot i).flags = ((rxringSlots env.nsPhyIndirect pbuf r).slot i).flags ∧
          (out.ring.slot i).ptr = ((rxringSlots env.nsPhyIndirect pbuf r).slot i).ptr := by
  obtain ⟨hpbuf, -⟩ := popNmRxringInit_rxring hinit hret
  obtain ⟨hnum, hkept⟩ := popNmRxringInit_slots hinit hret
  rw [toNat_bufBytes hprod] at hpbuf
  have hslots : (rxringSlots env.nsPhyIndirect pbuf r).numSlots = r.ring.numSlots := by
    unfold rxringSlots
    rw [forSlots_eq]
  exact ⟨rxLayout_of_pbuf hprod hpbuf, exitRestores_of_flags hslots fun _ => rfl,
    exitRestores_of_flags hnum fun i => (hkept i).1, fun i _ => hkept i⟩

def rxEnv (malloc : Bool) : RxInitEnv :=
  ⟨0x10, true, malloc, ⟨1, 1, 1, fun _ => 0⟩, ⟨1, 1, 1, fun _ => 0⟩⟩

def twoSlots : RxRing :=
  ⟨⟨2, 0, 0, 0, fun _ => ⟨0, 1, 0⟩⟩, 2048, by decide⟩

def rxMem : PopMem :=
  ⟨-1, [], ⟨0, 0, 0, 0, 0⟩, 0x7f0000000000, 0x80000000, 0x4000, 4, 1⟩

def rxBuf : Pbuf :=
  ⟨⟨0x7f0000001000, 0x80001000, 0x1000, 0, 0x1000⟩, 0⟩

theorem rxring_layout_of_twoSlots :
    (popNmRxringInit (rxEnv true) twoSlots 0 rxMem).map RxInitOut.ret = some (.rxring rxBuf) ∧
      RxLayout 0x10 rxMem twoSlots rxBuf ∧
        ExitRestores 0x10 twoSlots.ring (rxringSlots 0x10 rxBuf twoSlots) ∧
      ∀ i < 2, (twoSlots.ring.slot i).flags &&& 0x10 = 0 ∧ (twoSlots.ring.slot i).ptr = 0 := by
  have hret : (popNmRxringInit (rxEnv true) twoSlots 0 rxMem).map RxInitOut.ret =
      some (.rxring rxBuf) := rfl
  obtain ⟨out, hinit, hout⟩ := Option.map_eq_some_iff.mp hret
  obtain ⟨hlayout, hexit, -⟩ := rxring_layout (by decide) hinit hout
  exact ⟨hret, hlayout, hexit, by decide⟩

/-! ### Setups that fail -/

/-- What a setup that cannot complete has to leave alone. -/
structure Untouched (ring ring' : NetmapRing) : Prop where
  slots : ∀ i < ring.numSlots,
    (ring'.slot i).flags = (ring.slot i).flags ∧ (ring'.slot i).ptr = (ring.slot i).ptr
  head : ring'.head = ring.head
  cur : ring'.cur = ring.cur

/-- The call never uses a null buffer, and if it returns NULL the ring is as before. -/
def CleanFailure (env : RxInitEnv) (r : RxRing) (addr : BitVec 64) (mem : PopMem) : Prop :=
  ∀ out, popNmRxringInit env r addr mem = some out →
    out.ret ≠ .nullPbuf ∧ (out.ret = .null → Untouched r.ring out.ring)

/-- The slots carry the flag and the addresses that the setup would give them, and the indices are
those that netmap answers with. -/
structure AlreadySet (env : RxInitEnv) (r : RxRing) (mem : PopMem) : Prop where
  slots : ∀ i < r.ring.numSlots, (r.ring.slot i).flags ||| env.nsPhyIndirect = (r.ring.slot i).flags ∧
    (r.ring.slot i).ptr = mem.paddr + (mem.allocedPages <<< pageShift) +
      (r.nrBufSize * BitVec.ofNat 32 i).setWidth 64
  head : env.sync.head = r.ring.head
  cur : env.sync.cur = r.ring.cur

lemma untouched_iff {env : RxInitEnv} {r : RxRing} {mem : PopMem} {request : Nat} {pbuf : Pbuf}
    (h : FreshPbuf mem request pbuf) :
    Untouched r.ring (env.sync.apply (rxringRewind (rxringSlots env.nsPhyIndirect pbuf r))) ↔
      AlreadySet env r mem := by
  have hslot : ∀ i < r.ring.numSlots,
      ((env.sync.apply (rxringRewind (rxringSlots env.nsPhyIndirect pbuf r))).slot i).flags =
          (r.ring.slot i).flags ||| env.nsPhyIndirect ∧
        ((env.sync.apply (rxringRewind (rxringSlots env.nsPhyIndirect pbuf r))).slot i).ptr =
          mem.paddr + (mem.allocedPages <<< pageShift) + (r.nrBufSize * BitVec.ofNat 32 i).setWidth 64 := by
    intro i hi
    have hs : (rxringSlots env.nsPhyIndirect pbuf r).slot i = _ := rxringSlots_slot hi
    constructor
    · exact congrArg NetmapSlot.flags hs
    · rw [← h.paddr, ← h.paddr_eq]
      exact congrArg NetmapSlot.ptr hs
  constructor
  · intro hu
    refine ⟨?_, hu.head, hu.cur⟩
    intro i hi
    obtain ⟨hflags, hptr⟩ := hu.slots i hi
    rw [(hslot i hi).1] at hflags
    rw [(hslot i hi).2] at hptr
    exact ⟨hflags, hptr.symm⟩
  · intro hset
    refine ⟨?_, hset.head, hset.cur⟩
    intro i hi
    obtain ⟨hflags, hptr⟩ := hset.slots i hi
    rw [(hslot i hi).1, (hslot i hi).2]
    exact ⟨hflags, hptr.symm⟩

/-- The setup is clean exactly when the buffer can be allocated and either the descriptor can be too
or the ring already was as the setup leaves it. -/
theorem rxring_cleanFailure_iff (env : RxInitEnv) (r : RxRing) (addr : BitVec 64) (mem : PopMem) :
    CleanFailure env r addr mem ↔ Room mem (r.bufBytes.setWidth 64) env.mallocPbuf ∧
      (env.malloc = true ∨ AlreadySet env r mem) := by
  unfold CleanFailure
  rcases popNmRxringInit_cases env r addr mem with ⟨hroom, hc⟩ | ⟨hroom, mem', pbuf, hp, hc⟩
  · refine iff_of_false ?_ fun h => hroom h.1
    intro h
    exact (h _ hc).1 rfl
  · rw [hc]
    by_cases hm : env.malloc = true
    · refine iff_of_true ?_ ⟨hroom, .inl hm⟩
      intro out hout
      rw [if_pos hm] at hout
      obtain ⟨ring, -, rfl⟩ := Option.map_eq_some_iff.mp hout
      exact ⟨nofun, nofun⟩
    · rw [if_neg hm]
      constructor
      · intro h
        exact ⟨hroom, .inr ((untouched_iff hp).mp ((h _ rfl).2 rfl))⟩
      · rintro ⟨-, hset⟩ out hout
        cases hout
        refine ⟨nofun, fun _ => (untouched_iff hp).mpr (hset.resolve_left hm)⟩

/-- With too few pages the setup uses a null buffer; without memory for the descriptor it leaves the
slots at addresses of the device and the indices at the last slot. -/
theorem rxring_failure_leaves_ring :
    (popNmRxringInit (rxEnv true) twoSlots 0 { rxMem with allocedPages := 4 }).map RxInitOut.ret =
        some .nullPbuf ∧
      (popNmRxringInit (rxEnv false) twoSlots 0 rxMem).map
          (fun out => (out.ret, out.ring.slot 1, out.ring.head, out.ring.cur)) =
        some (.null, ⟨0, 0x11, 0x80001800⟩, 1, 1) ∧
      twoSlots.ring.slot 1 = ⟨0, 1, 0⟩ ∧ twoSlots.ring.head = 0 ∧
      ¬CleanFailure (rxEnv true) twoSlots 0 { rxMem with allocedPages := 4 } ∧
      ¬CleanFailure (rxEnv false) twoSlots 0 rxMem := by
  refine ⟨rfl, rfl, rfl, rfl, ?_, ?_⟩
  · intro h
    exact (h ⟨{ rxMem with allocedPages := 4 }, twoSlots.ring, .nullPbuf⟩ rfl).1 rfl
  · intro h
    have hret : (popNmRxringInit (rxEnv false) twoSlots 0 rxMem).map (fun out => (out.ret, out.ring.head)) =
        some (.null, 1) := rfl
    obtain ⟨out, hinit, hout⟩ := Option.map_eq_some_iff.mp hret
    obtain ⟨hnull, hhead⟩ := Prod.mk.inj hout
    have hsame := ((h out hinit).2 hnull).head
    rw [hhead] at hsame
    cases hsame

end Libpop.Proofs
