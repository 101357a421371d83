import Libpop.Execution
import Libpop.Store
import Libpop.Word

/-!
# The frames on a disk that store has written

A pass of store puts a batch of frames into its buffer, one every 2048 bytes, and writes whole
blocks. These always end with a frame, so that a finished run from block 0 leaves a frame at
every multiple of 2048 bytes of its range, and nowhere else has it written one.
-/

namespace Libpop.Proofs
open Bytes Execution Store

/-! ### Packets in a buffer -/

/-- The 2048 bytes at an address are what `build_pkt` left in a frame of store's buffer. -/
def IsFrame (m : Mem) (addr len : Nat) : Prop :=
  ∃ prev buf id, ∀ i < frameSize, m (addr + i) = buildPkt prev buf len id (buf + i)

lemma IsFrame.congr {m m' : Mem} {addr addr' len : Nat} (h : IsFrame m addr len)
    (hm : ∀ i < frameSize, m' (addr' + i) = m (addr + i)) : IsFrame m' addr' len := by
  obtain ⟨prev, buf, id, hframe⟩ := h
  exact ⟨prev, buf, id, fun i hi => (hm i hi).trans (hframe i hi)⟩

/-- The descriptor of a frame holds the length of its packet. -/
lemma IsFrame.pktlen {m : Mem} {addr len : Nat} (h : IsFrame m addr len) :
    getPktlenFromDesc m addr = BitVec.ofNat 32 len := by
  obtain ⟨prev, buf, id, hframe⟩ := h
  have hdesc : getPktlenFromDesc (buildPkt prev buf len id) buf = BitVec.ofNat 32 len :=
    get32_write_le32 _
  rw [← hdesc]
  apply get32_congr
  intro k hk
  rw [Nat.add_assoc, Nat.add_assoc]
  apply hframe
  unfold frameSize
  omega

lemma pktHeader_le {fields : PktFields} (hs : fields.etherShost.length = 6) (len : Nat) :
    ∀ f ∈ pktHeader fields len, f.1 + f.2.length ≤ 42 := by
  simp [pktHeader, be16, hs]

lemma buildPkt_outside {m : Mem} {buf len i : Nat} {id : BitVec 32} (hlen : len ≤ frameSize)
    (h : i < buf ∨ buf + frameSize ≤ i) : buildPkt m buf len id i = m i := by
  unfold frameSize at hlen h
  unfold buildPkt setPktlenInDesc buildUdpPkt
  rw [write_outside, foldl_write_outside, set_outside (by omega)]
  · intro f hf
    have hle := pktHeader_le rfl len f hf
    omega
  · have h4 : (le32 (BitVec.ofNat 32 len)).length = 4 := rfl
    rw [h4]
    unfold frameSize
    omega

lemma isFrame_buildFrames (p : StoreParam) (lba : BitVec 64) (m : Mem) {n b : Nat} (h : b < n) :
    IsFrame (buildFrames p lba m n) (frameSize * b) p.pktlen := by
  have hlen := p.pktlen_le
  induction n with
  | zero => omega
  | succ n ih =>
    by_cases hb : b = n
    · subst hb
      exact ⟨_, _, _, fun i _ => rfl⟩
    · apply (ih (by omega)).congr
      intro i hi
      rw [buildFrames]
      unfold frameSize at hi ⊢
      exact buildPkt_outside (by unfold frameSize; omega) (by unfold frameSize; omega)

/-! ### Sizes -/

/-- What a pass adds to the LBA, the `int` as an `unsigned long`. -/
def stride (p : StoreParam) : Nat :=
  (p.nblocks.signExtend 64).toNat

lemma toNat_buflen {p : StoreParam} (hfit : 2048 * p.batch.toNat < 2 ^ 31) :
    p.buflen.toNat = 2048 * p.batch.toNat := by
  unfold StoreParam.buflen
  have hsize : (2048 : BitVec 32).toNat = 2048 := rfl
  rw [BitVec.toNat_mul, hsize]
  exact Nat.mod_eq_of_lt (by omega)

lemma buflen_le (p : StoreParam) :
    p.buflen.toNat ≤ frameSize * p.batch.toNat ∧ frameSize ∣ p.buflen.toNat := by
  unfold StoreParam.buflen
  rw [BitVec.toNat_mul]
  exact ⟨Nat.mod_le _ _, (Nat.dvd_mod_iff (by decide)).mpr (Nat.dvd_mul_right _ _)⟩

/-- The shift keeps the sign of the buffer length. -/
lemma nblocks_nonneg_iff (p : StoreParam) : 0 ≤ p.nblocks.toInt ↔ p.buflen.toNat < 2 ^ 31 := by
  have hmsb : p.nblocks.msb = p.buflen.msb := BitVec.msb_sshiftRight
  rw [← not_lt, BitVec.toInt_neg_iff, ← ge_iff_le, ← BitVec.msb_eq_true_iff_two_mul_ge, hmsb,
    BitVec.msb_eq_true_iff_two_mul_ge]
  omega

lemma nblocks_nonneg {p : StoreParam} (hfit : 2048 * p.batch.toNat < 2 ^ 31) :
    0 ≤ p.nblocks.toInt := by
  rwa [nblocks_nonneg_iff, toNat_buflen hfit]

section Sizes

variable {p : StoreParam} (hint : 0 ≤ p.nblocks.toInt)

include hint

lemma toNat_storeBlocks : p.nblocks.toNat = p.buflen.toNat / 2 ^ p.blockshift := by
  have hmsb : p.buflen.msb = false := by
    have hlow := (nblocks_nonneg_iff p).mp hint
    rw [BitVec.msb_eq_false_iff_two_mul_lt]
    omega
  unfold StoreParam.nblocks
  rw [BitVec.sshiftRight_eq_of_msb_false hmsb, Word.toNat_shiftRight_div]

lemma nblocks_bytes_le : p.nblocks.toNat * 2 ^ p.blockshift ≤ p.buflen.toNat := by
  rw [toNat_storeBlocks hint]
  exact Nat.div_mul_le_self _ _

lemma stride_of_nonneg : stride p = p.nblocks.toNat := by
  have hlow := mt BitVec.toInt_neg_iff.mpr (not_lt.mpr hint)
  exact Word.toNat_signExtend_of_lt (by decide) (not_le.mp hlow)

/-- The blocks of a pass end with a frame, also where the batch was cut off. -/
lemma frameSize_dvd_nblocks : frameSize ∣ p.nblocks.toNat * 2 ^ p.blockshift := by
  have hframe : frameSize = 2 ^ 11 := rfl
  rcases Nat.le_total p.blockshift 11 with hsmall | hlarge
  · have hlen := (buflen_le p).2
    have hblock : 2 ^ p.blockshift ∣ p.buflen.toNat :=
      (hframe ▸ Nat.pow_dvd_pow 2 hsmall).trans hlen
    rwa [toNat_storeBlocks hint, Nat.div_mul_cancel hblock]
  · exact Nat.dvd_mul_left_of_dvd (hframe ▸ Nat.pow_dvd_pow 2 hlarge) _

lemma nblocks_bytes : p.nblocks.toNat * 2 ^ p.blockshift = frameSize * p.passFrames := by
  have hle := (nblocks_bytes_le hint).trans (buflen_le p).1
  have hcount : p.nblocks.toNat * 2 ^ p.blockshift / frameSize ≤ p.batch.toNat :=
    Nat.div_le_of_le_mul hle
  unfold StoreParam.passFrames
  rw [Nat.min_eq_right hcount, Nat.mul_div_cancel' (frameSize_dvd_nblocks hint)]

end Sizes

/-! ### Runs -/

/-- An LBA that wraps stays at the start of a frame, if it is at one. -/
lemma frameSize_dvd_wrap {lba blocksize : Nat} (h : frameSize ∣ lba * blocksize) :
    frameSize ∣ lba % 2 ^ 64 * blocksize := by
  have hlost : frameSize ∣ 2 ^ 64 * (lba / 2 ^ 64) * blocksize :=
    Nat.dvd_mul_right_of_dvd (Nat.dvd_mul_right_of_dvd (by decide) _) _
  rw [← Nat.mod_add_div lba (2 ^ 64), Nat.add_mul] at h
  exact (Nat.dvd_add_left hlost).mp h

/-- The LBA is at the start of a frame, below it the disk is frames, and these are the ones that
were written. -/
structure StoreInv (p : StoreParam) (s : StoreState) : Prop where
  start : frameSize ∣ s.lba.toNat * 2 ^ p.blockshift
  frames : ∀ f, frameSize * (f + 1) ≤ s.lba.toNat * 2 ^ p.blockshift →
    frameSize * f ∈ s.frames ∧ IsFrame s.disk (frameSize * f) p.pktlen
  aligned : ∀ addr ∈ s.frames, frameSize ∣ addr

lemma storeInv_init {p : StoreParam} (hstart : p.lbaStart = 0) (pbuf disk : Mem) :
    StoreInv p (storeInit p pbuf disk) := by
  have hzero : (storeInit p pbuf disk).lba.toNat = 0 := by
    unfold storeInit
    rw [hstart]
    rfl
  refine ⟨by simp [hzero], ?_, by simp [storeInit]⟩
  intro f hf
  rw [hzero] at hf
  unfold frameSize at hf
  omega

/-- A pass fails and leaves disk and LBA, or it writes its buffer and goes on. -/
lemma storeStep_cases {p : StoreParam} {s t : StoreState} {ret : Int}
    (hs : storeStep p s ret = some t) :
    (t.lba = s.lba ∧ t.disk = s.disk ∧ t.frames = s.frames) ∨
      (s.lba < p.lbaEnd ∧ t.lba.toNat = (s.lba.toNat + stride p) % 2 ^ 64 ∧
        t.disk = copy s.disk (s.lba.toNat * 2 ^ p.blockshift) (buildFrames p s.lba s.pbuf p.batch.toNat) 0
          (p.nblocks.toNat * 2 ^ p.blockshift) ∧
        t.frames = s.frames ++
          (List.range p.passFrames).map fun b => s.lba.toNat * 2 ^ p.blockshift + frameSize * b) := by
  unfold storeStep at hs
  split at hs
  · rename_i hgo
    dsimp only at hs
    split at hs
    · cases hs
      exact .inl ⟨rfl, rfl, rfl⟩
    · cases hs
      exact .inr ⟨hgo.2, BitVec.toNat_add _ _, rfl, rfl⟩
  · cases hs

/-- A pass that starts at frame `f₀` and writes `n` of its frames adds these to those before it. -/
lemma frames_written {p : StoreParam} {disk : Mem} {frames : List Nat} {f₀ n : Nat}
    (hn : n ≤ p.batch.toNat)
    (hold : ∀ f < f₀, frameSize * f ∈ frames ∧ IsFrame disk (frameSize * f) p.pktlen)
    (lba : BitVec 64) (pbuf : Mem) {f : Nat} (hf : f < f₀ + n) :
    frameSize * f ∈ frames ++ (List.range n).map (fun b => frameSize * f₀ + frameSize * b) ∧
      IsFrame (copy disk (frameSize * f₀) (buildFrames p lba pbuf p.batch.toNat) 0 (frameSize * n))
        (frameSize * f) p.pktlen := by
  by_cases hbefore : f < f₀
  · obtain ⟨hmem, hframe⟩ := hold f hbefore
    refine ⟨List.mem_append_left _ hmem, hframe.congr ?_⟩
    intro i hi
    apply copy_outside
    unfold frameSize at hi ⊢
    omega
  · obtain ⟨b, rfl⟩ := Nat.exists_eq_add_of_le (not_lt.mp hbefore)
    have hb : b < n := by omega
    rw [Nat.mul_add]
    refine ⟨List.mem_append_right _ (List.mem_map.mpr ⟨b, List.mem_range.mpr hb, rfl⟩), ?_⟩
    apply (isFrame_buildFrames p lba pbuf (hb.trans_le hn)).congr
    intro i hi
    rw [Nat.add_assoc, copy_inside, Nat.zero_add]
    unfold frameSize at hi ⊢
    omega

lemma storeInv_step {p : StoreParam} (hint : 0 ≤ p.nblocks.toInt) (s : StoreState) (ret : Int)
    (t : StoreState) (hinv : StoreInv p s) (hs : storeStep p s ret = some t) : StoreInv p t := by
  rcases storeStep_cases hs with ⟨hlba, hdisk, hframes⟩ | ⟨-, hlba, hdisk, hframes⟩
  · constructor
    · rw [hlba]
      exact hinv.start
    · rw [hlba, hdisk, hframes]
      exact hinv.frames
    · rw [hframes]
      exact hinv.aligned
  · obtain ⟨f₀, haddr⟩ := hinv.start
    have hbytes := nblocks_bytes hint
    -- where the pass ends, before the LBA wraps
    have hnext : (s.lba.toNat + stride p) * 2 ^ p.blockshift = frameSize * (f₀ + p.passFrames) := by
      rw [stride_of_nonneg hint, Nat.add_mul, haddr, hbytes, Nat.mul_add]
    constructor
    · rw [hlba]
      apply frameSize_dvd_wrap
      rw [hnext]
      exact Nat.dvd_mul_right _ _
    · intro f hf
      have hbelow : frameSize * (f + 1) ≤ frameSize * (f₀ + p.passFrames) := by
        rw [← hnext]
        refine hf.trans (Nat.mul_le_mul_right _ ?_)
        rw [hlba]
        exact Nat.mod_le _ _
      rw [hframes, hdisk, haddr, hbytes]
      have hold : ∀ f < f₀, frameSize * f ∈ s.frames ∧ IsFrame s.disk (frameSize * f) p.pktlen :=
        fun f hf => hinv.frames f (haddr ▸ Nat.mul_le_mul_left _ hf)
      exact frames_written (Nat.min_le_left _ _) hold s.lba s.pbuf
        (Nat.le_of_mul_le_mul_left hbelow (by decide))
    · intro addr ha
      rw [hframes] at ha
      rcases List.mem_append.mp ha with ha | ha
      · exact hinv.aligned addr ha
      · obtain ⟨b, -, rfl⟩ := List.mem_map.mp ha
        rw [haddr, ← Nat.mul_add]
        exact Nat.dvd_mul_right _ _

/-- A finished run has left a frame at every multiple of 2048 bytes of its range. -/
theorem store_frames {p : StoreParam} (hstart : p.lbaStart = 0) (hint : 0 ≤ p.nblocks.toInt)
    {pbuf disk : Mem} {rets : List Int} {s : StoreState}
    (hrun : exec (storeStep p) (storeInit p pbuf disk) rets = some s) (hdone : ¬s.lba < p.lbaEnd) :
    (∀ f, frameSize * (f + 1) ≤ p.lbaEnd.toNat * 2 ^ p.blockshift →
      frameSize * f ∈ s.frames ∧ IsFrame s.disk (frameSize * f) p.pktlen) ∧
      ∀ addr ∈ s.frames, frameSize ∣ addr := by
  have hinv := exec_invariant (storeInv_step hint) (storeInv_init hstart pbuf disk) hrun
  have hend : p.lbaEnd.toNat ≤ s.lba.toNat := not_lt.mp hdone
  exact ⟨fun f hf => hinv.frames f (hf.trans (Nat.mul_le_mul_right _ hend)), hinv.aligned⟩

/-! ### Runs that come out even -/

/-- The options of a run from block 0 in which a batch is a whole number of blocks that
divides the range, with sizes that fit an `int`. -/
structure EvenBatches (p : StoreParam) : Prop where
  start : p.lbaStart = 0
  pos : 0 < p.batch.toNat
  int : 2048 * p.batch.toNat < 2 ^ 31
  blocks : 2 ^ p.blockshift ∣ 2048 * p.batch.toNat
  divides : 2048 * p.batch.toNat / 2 ^ p.blockshift ∣ p.lbaEnd.toNat

/-- The LBA is a whole number of passes from the start. -/
structure OnPass (p : StoreParam) (s : StoreState) : Prop where
  whole : p.nblocks.toNat ∣ s.lba.toNat
  le : s.lba.toNat ≤ p.lbaEnd.toNat

section Even

variable {p : StoreParam} (h : EvenBatches p)

include h

lemma EvenBatches.nonneg : 0 ≤ p.nblocks.toInt :=
  nblocks_nonneg h.int

lemma EvenBatches.toNat_nblocks : p.nblocks.toNat = 2048 * p.batch.toNat / 2 ^ p.blockshift := by
  rw [toNat_storeBlocks h.nonneg, toNat_buflen h.int]

/-- A pass writes exactly the frames it has built. -/
lemma EvenBatches.bytes : p.nblocks.toNat * 2 ^ p.blockshift = frameSize * p.batch.toNat := by
  rw [h.toNat_nblocks]
  exact Nat.div_mul_cancel h.blocks

/-- There is room for a whole pass before the end of the range. -/
lemma EvenBatches.room {s : StoreState} (hpass : OnPass p s) (hlt : s.lba < p.lbaEnd) :
    s.lba.toNat + p.nblocks.toNat ≤ p.lbaEnd.toNat := by
  obtain ⟨j, hj⟩ := hpass.whole
  obtain ⟨e, he⟩ := h.divides
  rw [← h.toNat_nblocks] at he
  rw [BitVec.lt_def, hj, he] at hlt
  have hje : j < e := Nat.lt_of_mul_lt_mul_left hlt
  rw [hj, he]
  calc p.nblocks.toNat * j + p.nblocks.toNat = p.nblocks.toNat * (j + 1) := (Nat.mul_succ _ _).symm
    _ ≤ p.nblocks.toNat * e := Nat.mul_le_mul_left _ hje

lemma EvenBatches.next {s : StoreState} (hpass : OnPass p s) (hlt : s.lba < p.lbaEnd) :
    (s.lba.toNat + stride p) % 2 ^ 64 = s.lba.toNat + p.nblocks.toNat := by
  have hroom := h.room hpass hlt
  have hmax := p.lbaEnd.isLt
  rw [stride_of_nonneg h.nonneg]
  exact Nat.mod_eq_of_lt (by omega)

lemma onPass_init (pbuf disk : Mem) : OnPass p (storeInit p pbuf disk) := by
  have hzero : (storeInit p pbuf disk).lba.toNat = 0 := by
    unfold storeInit
    rw [h.start]
    rfl
  exact ⟨by simp [hzero], by omega⟩

lemma onPass_step (s : StoreState) (ret : Int) (t : StoreState) (hpass : OnPass p s)
    (hs : storeStep p s ret = some t) : OnPass p t := by
  rcases storeStep_cases hs with ⟨hlba, -, -⟩ | ⟨hlt, hlba, -, -⟩
  · exact ⟨hlba ▸ hpass.whole, hlba ▸ hpass.le⟩
  · rw [h.next hpass hlt] at hlba
    constructor
    · rw [hlba]
      exact Nat.dvd_add hpass.whole (Nat.dvd_refl _)
    · rw [hlba]
      exact h.room hpass hlt

end Even

end Libpop.Proofs
