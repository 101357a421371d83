import Libpop.Proofs.LbaWalks
import Libpop.Proofs.StorePass

/-!
# The blocks that store writes

A pass of the main loop tests only where its write starts, and goes on by a number of blocks
that was computed in `int`. The last write stays in the range when the passes divide it, and a
batch smaller than a block makes no progress at all. A batch whose number of blocks comes out
negative never gets to the loop: no context has the pages that are asked for.
-/

namespace Libpop.Proofs
open Bytes Execution Store

/-! ### The start of the loop -/

/-- The context of `pop_mem_init` before the first `pop_buf_alloc`, inside of a user address space. -/
structure FreshContext (mem : PopMem) : Prop where
  alloced : mem.allocedPages = 0
  pages : mem.numPages.toNat * 4096 ≤ 2 ^ 47

/-- The loop starts in this state. -/
def Starts (p : StoreParam) (s : StoreState) : Prop :=
  ∃ addr mem malloc pbuf disk, FreshContext mem ∧ storeStart p addr mem malloc pbuf disk = some s

/-- A context with room for the largest buffer that an `int` can ask for. -/
def largeContext : PopMem :=
  ⟨-1, [], ⟨0, 0, 0, 0, 0⟩, 0x7f0000000000, 0x80000000, 0x80000000, 0x80000, 0⟩

lemma freshContext_large : FreshContext largeContext :=
  ⟨rfl, by decide⟩

section Start

variable {p : StoreParam}

lemma storeStart_some {addr : BitVec 64} {mem : PopMem} {malloc : Bool} {pbuf disk : Mem}
    {s : StoreState} (h : storeStart p addr mem malloc pbuf disk = some s) :
    s = storeInit p pbuf disk ∧ ∃ mem' buf, storeAlloc p addr mem malloc = some (mem', .ok buf) := by
  unfold storeStart at h
  split at h
  · rename_i mem' buf ha
    exact ⟨(Option.some.inj h).symm, mem', buf, ha⟩
  · cases h

lemma Starts.init {s : StoreState} (h : Starts p s) : ∃ pbuf disk, s = storeInit p pbuf disk := by
  obtain ⟨_, _, _, pbuf, disk, -, hstart⟩ := h
  exact ⟨pbuf, disk, (storeStart_some hstart).1⟩

lemma storeStart_large (hint : 0 ≤ p.nblocks.toInt) (addr : BitVec 64) (pbuf disk : Mem) :
    storeStart p addr largeContext true pbuf disk = some (storeInit p pbuf disk) := by
  have hlow := poplen_lt hint
  have hroom : Room largeContext p.poplen true := by
    refine ⟨?_, rfl⟩
    have hpages : (largeContext.numPages - largeContext.allocedPages).toNat = 2 ^ 19 := by decide
    omega
  rcases popBufAllocPut_cases (by omega : p.poplen.toNat ≤ 2 ^ 64 - 4096) addr largeContext true with
    ⟨-, mem', buf, -, ha⟩ | ⟨hno, -⟩
  · unfold storeStart storeAlloc
    rw [ha]
  · exact absurd hroom hno

lemma starts_large (hint : 0 ≤ p.nblocks.toInt) (pbuf disk : Mem) :
    Starts p (storeInit p pbuf disk) :=
  ⟨0, largeContext, true, pbuf, disk, freshContext_large, storeStart_large hint 0 pbuf disk⟩

/-- A negative `nblocks` asks for nearly the whole address space. -/
lemma poplen_ge (hshift : p.blockshift < 32) (hint : p.nblocks.toInt < 0) :
    2 ^ 64 - 2 ^ 31 ≤ p.poplen.toNat := by
  have hneg : 2 ^ 31 ≤ p.buflen.toNat := not_lt.mp ((nblocks_nonneg_iff p).not.mp (not_le.mpr hint))
  -- shifting back clears the low bits and leaves the sign
  have hmsb : (p.nblocks <<< p.blockshift).msb = true := by
    unfold StoreParam.nblocks
    rw [Word.msb_sshiftRight_shiftLeft _ hshift, BitVec.msb_eq_true_iff_two_mul_ge]
    omega
  have hhigh := BitVec.msb_eq_true_iff_two_mul_ge.mp hmsb
  unfold StoreParam.poplen
  rw [Word.toNat_signExtend_of_ge (by decide) (by omega)]
  omega

lemma not_starts_of_neg (hshift : p.blockshift < 32) (hint : p.nblocks.toInt < 0)
    (s : StoreState) : ¬Starts p s := by
  rintro ⟨addr, mem, malloc, pbuf, disk, hfresh, hstart⟩
  obtain ⟨-, mem', buf, ha⟩ := storeStart_some hstart
  have hlen := poplen_ge hshift hint
  have hpages := hfresh.pages
  unfold storeAlloc popBufAllocPut at ha
  cases halloc : popBufAlloc mem p.poplen malloc with
  | none => simp [halloc] at ha
  | some out =>
    obtain ⟨mem'', res⟩ := out
    cases popBufAlloc_exit halloc with
    | failed e => simp [halloc] at ha
    | carved nr hn hroom =>
      obtain ⟨-, hnr⟩ := (nrPages_eq_some_iff _ _).mp hn
      have hall : mem.numPages - 0 = mem.numPages := BitVec.sub_zero _
      rw [hfresh.alloced, hall, BitVec.lt_def] at hroom
      omega

/-- The loop is reached exactly with a number of blocks that is not negative. -/
lemma starts_iff (hshift : p.blockshift < 32) : (∃ s, Starts p s) ↔ 0 ≤ p.nblocks.toInt := by
  constructor
  · rintro ⟨s, hs⟩
    exact not_lt.mp fun hneg => not_starts_of_neg hshift hneg s hs
  · intro hint
    exact ⟨_, starts_large hint (fun _ => 0) fun _ => 0⟩

end Start

section Passes

variable {p : StoreParam}

lemma storeStep_ok {s : StoreState} (hok : s.failed = false) (hlt : s.lba < p.lbaEnd) :
    ∃ t, storeStep p s 0 = some t ∧ t.failed = false ∧
      t.lba.toNat = (s.lba.toNat + stride p) % 2 ^ 64 := by
  unfold storeStep
  rw [if_pos ⟨hok, hlt⟩]
  exact ⟨_, rfl, rfl, BitVec.toNat_add _ _⟩

/-- A pass leaves the LBA, or starts below the end and goes on by a stride. -/
lemma storeStep_lba {s t : StoreState} {ret : Int} (h : storeStep p s ret = some t) :
    t.lba = s.lba ∨ (s.lba.toNat < p.lbaEnd.toNat ∧ t.lba.toNat = (s.lba.toNat + stride p) % 2 ^ 64) := by
  rcases storeStep_cases h with ⟨hlba, -, -⟩ | ⟨hlt, hlba, -, -⟩
  · exact Or.inl hlba
  · exact Or.inr ⟨hlt, hlba⟩

lemma storeStep_zero {s t : StoreState} (h : storeStep p s 0 = some t) :
    s.lba.toNat < p.lbaEnd.toNat ∧ t.lba.toNat = (s.lba.toNat + stride p) % 2 ^ 64 := by
  unfold storeStep at h
  split at h
  · rename_i hgo
    obtain rfl := Option.some.inj h
    exact ⟨hgo.2, BitVec.toNat_add _ _⟩
  · cases h

/-- Successful passes reach every stride that they can reach without wrapping. -/
lemma store_reaches (pbuf disk : Mem) {n : Nat}
    (hgo : ∀ i < n, p.lbaStart.toNat + i * stride p < p.lbaEnd.toNat ∧
      p.lbaStart.toNat + (i + 1) * stride p < 2 ^ 64) :
    ∃ s, exec (storeStep p) (storeInit p pbuf disk) (List.replicate n 0) = some s ∧
      s.failed = false ∧
      s.lba.toNat = p.lbaStart.toNat + n * stride p := by
  induction n with
  | zero => exact ⟨storeInit p pbuf disk, rfl, rfl, by rw [Nat.zero_mul, Nat.add_zero]; rfl⟩
  | succ n ih =>
    obtain ⟨s, hs, hok, hlba⟩ := ih fun i hi => hgo i (Nat.lt_succ_of_lt hi)
    obtain ⟨hlt, hmax⟩ := hgo n (Nat.lt_succ_self n)
    rw [Nat.add_mul, Nat.one_mul] at hmax ⊢
    obtain ⟨t, ht, htok, hto⟩ := storeStep_ok (p := p) hok (BitVec.lt_def.mpr (hlba ▸ hlt))
    refine ⟨t, ?_, htok, ?_⟩
    · rw [List.replicate_succ']
      exact exec_snoc hs ht
    · rw [hto, Nat.mod_eq_of_lt (by omega)]
      omega

/-- As long as no pass wraps, every run is a whole number of strides from the start. -/
lemma store_on_stride {pbuf disk : Mem} {rets : List Int} {s : StoreState}
    (hwrap : ∀ i, p.lbaStart.toNat + i * stride p < p.lbaEnd.toNat →
      p.lbaStart.toNat + (i + 1) * stride p < 2 ^ 64)
    (h : exec (storeStep p) (storeInit p pbuf disk) rets = some s) :
    ∃ i, s.lba.toNat = p.lbaStart.toNat + i * stride p := by
  have hstep : ∀ s ret t, (∃ i, s.lba.toNat = p.lbaStart.toNat + i * stride p) →
      storeStep p s ret = some t → ∃ i, t.lba.toNat = p.lbaStart.toNat + i * stride p := by
    rintro s ret t ⟨i, hi⟩ hstep
    rcases storeStep_lba hstep with hlba | ⟨hlt, hlba⟩
    · exact ⟨i, hlba ▸ hi⟩
    · have hnext := hwrap i (hi ▸ hlt)
      refine ⟨i + 1, ?_⟩
      rw [Nat.add_mul, Nat.one_mul] at hnext ⊢
      rw [hlba, Nat.mod_eq_of_lt (by omega)]
      omega
  exact exec_invariant hstep ⟨0, by rw [Nat.zero_mul, Nat.add_zero]; rfl⟩ h

lemma store_stalls {pbuf disk : Mem} {rets : List Int} {s : StoreState}
    (hstall : stride p = 0 ∨ p.lbaStart = p.lbaEnd)
    (h : exec (storeStep p) (storeInit p pbuf disk) rets = some s) : s.lba = p.lbaStart := by
  have hstay : ∀ s ret t, s.lba = p.lbaStart → storeStep p s ret = some t → t.lba = p.lbaStart := by
    intro s ret t hs hstep
    rcases storeStep_lba hstep with hlba | ⟨hlt, hlba⟩
    · exact hlba.trans hs
    · rcases hstall with hzero | hempty
      · apply BitVec.eq_of_toNat_eq
        rw [hlba, hzero, Nat.add_zero, Nat.mod_eq_of_lt s.lba.isLt, hs]
      · rw [hs, hempty] at hlt
        exact absurd hlt (lt_irrefl _)
  exact exec_invariant hstay rfl h

/-! ### Blocks -/

/-- Every write of every run is inside the range. -/
def WritesInside (p : StoreParam) : Prop :=
  ∀ s₀, Starts p s₀ → ∀ rets s, exec (storeStep p) s₀ rets = some s → s.failed = false → s.lba < p.lbaEnd →
    WalkInside p.lbaStart p.lbaEnd p.nblocks.toNat s.lba

lemma writesInside_of_zero (hle : p.lbaStart ≤ p.lbaEnd)
    (hzero : p.nblocks = 0) : WritesInside p := by
  intro s₀ hs₀ rets s hrun _ _
  obtain ⟨pbuf, disk, rfl⟩ := hs₀.init
  have hstall : stride p = 0 := by
    unfold stride
    rw [hzero]
    rfl
  rw [store_stalls (Or.inl hstall) hrun, hzero]
  exact ⟨le_refl _, hle⟩

lemma writesInside_of_dvd (hle : p.lbaStart ≤ p.lbaEnd) (hint : 0 ≤ p.nblocks.toInt)
    (hpos : 0 < p.nblocks.toNat) (hdvd : p.nblocks.toNat ∣ p.lbaEnd.toNat - p.lbaStart.toNat) :
    WritesInside p := by
  have hstride := stride_of_nonneg hint
  have hroom := (Stride.room_iff hpos hle).mpr hdvd
  have hmax := p.lbaEnd.isLt
  have hwrap : ∀ i, p.lbaStart.toNat + i * stride p < p.lbaEnd.toNat →
      p.lbaStart.toNat + (i + 1) * stride p < 2 ^ 64 := by
    intro i hi
    rw [hstride] at hi ⊢
    exact lt_of_le_of_lt (hroom i hi) hmax
  intro s₀ hs₀ rets s hrun _ hlt
  obtain ⟨pbuf, disk, rfl⟩ := hs₀.init
  obtain ⟨i, hi⟩ := store_on_stride hwrap hrun
  rw [hstride] at hi
  have hnext := hroom i (hi ▸ hlt)
  rw [Nat.add_mul, Nat.one_mul] at hnext
  exact ⟨by omega, by omega⟩

lemma dvd_of_writesInside (h : WritesInside p) (hle : p.lbaStart ≤ p.lbaEnd)
    (hint : 0 ≤ p.nblocks.toInt) (hpos : 0 < p.nblocks.toNat) :
    p.nblocks.toNat ∣ p.lbaEnd.toNat - p.lbaStart.toNat := by
  have hstride := stride_of_nonneg hint
  have hmax := p.lbaEnd.isLt
  rw [← Stride.room_iff hpos hle]
  intro i hi
  have hgo : ∀ j < i, p.lbaStart.toNat + j * stride p < p.lbaEnd.toNat ∧
      p.lbaStart.toNat + (j + 1) * stride p < 2 ^ 64 := by
    intro j hj
    rw [hstride]
    have hnext : (j + 1) * p.nblocks.toNat ≤ i * p.nblocks.toNat := Nat.mul_le_mul_right _ hj
    rw [Nat.add_mul, Nat.one_mul] at hnext ⊢
    omega
  obtain ⟨s, hs, hok, hlba⟩ := store_reaches (fun _ => 0) (fun _ => 0) hgo
  rw [hstride] at hlba
  have hin := (h _ (starts_large hint _ _) _ s hs hok (BitVec.lt_def.mpr (hlba ▸ hi))).2
  rw [Nat.add_mul, Nat.one_mul]
  omega

end Passes

/-- A batch of frames to write from LBA 0 on. -/
def writer (batch : BitVec 32) (lbaEnd : BitVec 64) (blockshift : Nat)
    (hbatch : batch.toNat < 2 ^ 31) : StoreParam :=
  .ofBatch batch lbaEnd blockshift hbatch

/-- Every successful pass advances the LBA. -/
def Advances (p : StoreParam) (s₀ : StoreState) : Prop :=
  ∀ n s t, exec (storeStep p) s₀ (List.replicate n 0) = some s → storeStep p s 0 = some t → s.lba < t.lba

/-- The loop ends when every write succeeds. -/
def Finishes (p : StoreParam) (s₀ : StoreState) : Prop :=
  ∃ n s, exec (storeStep p) s₀ (List.replicate n 0) = some s ∧ s.failed = false ∧ ¬s.lba < p.lbaEnd

/-- The LBA after the last pass. -/
def lastLba (p : StoreParam) : Nat :=
  p.lbaStart.toNat + Stride.count p.lbaStart.toNat p.lbaEnd.toNat (stride p) * stride p

section Termination

variable {p : StoreParam} {pbuf disk : Mem}

lemma stride_pos_iff (hint : 0 ≤ p.nblocks.toInt) : 0 < stride p ↔ 0 < p.nblocks.toInt := by
  have heq := BitVec.toInt_eq_toNat_cond p.nblocks
  rw [stride_of_nonneg hint]
  omega

lemma stride_pos_of_advances (h : Advances p (storeInit p pbuf disk))
    (hlt : p.lbaStart < p.lbaEnd) : 0 < stride p := by
  obtain ⟨t, ht, -, hlba⟩ := storeStep_ok (s := storeInit p pbuf disk) rfl hlt
  have hadvance : p.lbaStart.toNat < t.lba.toNat := h 0 _ t rfl ht
  have hlba' : t.lba.toNat = (p.lbaStart.toNat + stride p) % 2 ^ 64 := hlba
  omega

/-- While the LBA is below the end, an advancing pass does not wrap. -/
lemma no_wrap_of_advances (h : Advances p (storeInit p pbuf disk)) (hpos : 0 < stride p) {n : Nat}
    (hn : n ≤ Stride.count p.lbaStart.toNat p.lbaEnd.toNat (stride p)) :
    ∀ i < n, p.lbaStart.toNat + i * stride p < p.lbaEnd.toNat ∧
      p.lbaStart.toNat + (i + 1) * stride p < 2 ^ 64 := by
  induction n with
  | zero => exact fun i hi => absurd hi (Nat.not_lt_zero i)
  | succ n ih =>
    have hbelow := (Stride.lt_count_iff hpos).mp hn
    have hgo := ih (Nat.le_of_succ_le hn)
    obtain ⟨s, hs, hok, hlba⟩ := store_reaches pbuf disk hgo
    obtain ⟨t, ht, -, hto⟩ := storeStep_ok hok (BitVec.lt_def.mpr (hlba ▸ hbelow))
    have hadvance : s.lba.toNat < t.lba.toNat := h n s t hs ht
    have hstep := (p.nblocks.signExtend 64).isLt
    intro i hi
    rcases Nat.lt_succ_iff_lt_or_eq.mp hi with hi | rfl
    · exact hgo i hi
    · refine ⟨hbelow, ?_⟩
      rw [Nat.add_mul, Nat.one_mul]
      unfold stride at *
      omega

lemma no_wrap_of_last (hpos : 0 < stride p) (hmax : lastLba p < 2 ^ 64) {i : Nat}
    (hi : p.lbaStart.toNat + i * stride p < p.lbaEnd.toNat) :
    p.lbaStart.toNat + (i + 1) * stride p < 2 ^ 64 := by
  have hcount : i + 1 ≤ Stride.count p.lbaStart.toNat p.lbaEnd.toNat (stride p) :=
    (Stride.lt_count_iff hpos).mpr hi
  have hle := Nat.mul_le_mul_right (stride p) hcount
  unfold lastLba at hmax
  omega

lemma advances_of_last (hpos : 0 < stride p) (hmax : lastLba p < 2 ^ 64) :
    Advances p (storeInit p pbuf disk) := by
  intro n s t hs ht
  obtain ⟨i, hi⟩ := store_on_stride (fun i => no_wrap_of_last hpos hmax) hs
  obtain ⟨hlt, hlba⟩ := storeStep_zero ht
  have hwrap := no_wrap_of_last hpos hmax (hi ▸ hlt)
  rw [Nat.add_mul, Nat.one_mul] at hwrap
  rw [BitVec.lt_def, hlba, Nat.mod_eq_of_lt (by omega)]
  omega

end Termination

end Libpop.Proofs
