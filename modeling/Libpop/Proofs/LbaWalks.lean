import Libpop.Execution
import Libpop.Generator
import Libpop.Nvgen
import Libpop.Stride

/-!
# Walks over a range of LBAs

`next_lba` of the applications, iterated from the start of a range. A random walk stays in
every range that is longer than a command. The sequential walks differ in how far they look
ahead: generator goes on while the next command starts in the range, bench-nvme only while
the next command ends before the end of it.
-/

namespace Libpop.Proofs
open Execution

/-- The next command starts in the range and has room for its blocks. -/
def WalkInside (lbaStart lbaEnd : BitVec 64) (nblocks : Nat) (lba : BitVec 64) : Prop :=
  lbaStart.toNat ≤ lba.toNat ∧ lba.toNat + nblocks ≤ lbaEnd.toNat

instance (lbaStart lbaEnd : BitVec 64) (nblocks : Nat) (lba : BitVec 64) :
    Decidable (WalkInside lbaStart lbaEnd nblocks lba) :=
  inferInstanceAs (Decidable (_ ∧ _))

section Walks

variable {lba lbaStart lbaEnd nblocks : BitVec 64}

lemma toNat_random_range (hlong : lbaStart.toNat + nblocks.toNat ≤ lbaEnd.toNat) :
    (lbaEnd - lbaStart - nblocks).toNat = lbaEnd.toNat - lbaStart.toNat - nblocks.toNat := by
  bv_omega

/-- A random LBA of a range that is longer than a command. -/
lemma random_inside (rand : BitVec 31) (hlong : lbaStart.toNat + nblocks.toNat < lbaEnd.toNat) :
    lbaEnd - lbaStart - nblocks ≠ 0 ∧
      WalkInside lbaStart lbaEnd nblocks.toNat
        (rand.setWidth 64 % (lbaEnd - lbaStart - nblocks) + lbaStart) := by
  have hrange := toNat_random_range hlong.le
  have hmod :=
    Nat.mod_lt (rand.setWidth 64).toNat (show 0 < (lbaEnd - lbaStart - nblocks).toNat by omega)
  constructor
  · intro hzero
    have hempty : (0 : BitVec 64).toNat = 0 := rfl
    rw [hzero, hempty] at hrange
    omega
  · unfold WalkInside
    rw [BitVec.toNat_add, BitVec.toNat_umod]
    omega

/-! ### generator -/

/-- One call of `next_lba` of generator. -/
abbrev generatorWalk (walk : Generator.Walk) (lbaStart lbaEnd nblocks lba : BitVec 64)
    (rand : BitVec 31) : Option (BitVec 64) :=
  Generator.nextLba walk lba lbaStart lbaEnd nblocks rand

lemma generatorWalk_forward (lbaStart : BitVec 64) (rand : BitVec 31)
    (hmax : lba.toNat + nblocks.toNat < lbaEnd.toNat) :
    ∃ lba', generatorWalk .seq lbaStart lbaEnd nblocks lba rand = some lba' ∧
      lba'.toNat = lba.toNat + nblocks.toNat := by
  have hsum : (lba + nblocks).toNat = lba.toNat + nblocks.toNat := by bv_omega
  have hnext : lba + nblocks < lbaEnd := by
    rw [BitVec.lt_def, hsum]
    exact hmax
  exact ⟨lba + nblocks, by rw [generatorWalk, Generator.nextLba, if_pos hnext], hsum⟩

lemma generatorWalk_back (rand : BitVec 31) (hmax : lbaEnd.toNat ≤ lba.toNat + nblocks.toNat)
    (hsum : lba.toNat + nblocks.toNat < 2 ^ 64) :
    generatorWalk .seq lbaStart lbaEnd nblocks lba rand = some lbaStart := by
  have hnext : ¬lba + nblocks < lbaEnd := by bv_omega
  rw [generatorWalk, Generator.nextLba, if_neg hnext]

/-- A sequential walk visits every multiple of a command that starts in the range. -/
lemma generatorWalk_reaches (lbaStart : BitVec 64) {i : Nat}
    (hi : lba.toNat + i * nblocks.toNat < lbaEnd.toNat) :
    ∃ lba', exec (generatorWalk .seq lbaStart lbaEnd nblocks) lba (List.replicate i 0) = some lba' ∧
      lba'.toNat = lba.toNat + i * nblocks.toNat := by
  induction i generalizing lba with
  | zero => exact ⟨lba, rfl, by rw [Nat.zero_mul, Nat.add_zero]⟩
  | succ i ih =>
    rw [Nat.add_mul, Nat.one_mul] at hi ⊢
    have hmore : lba.toNat + nblocks.toNat < lbaEnd.toNat := by omega
    obtain ⟨next, hnext, hto⟩ := generatorWalk_forward lbaStart 0 hmore
    have hrest : next.toNat + i * nblocks.toNat < lbaEnd.toNat := by omega
    obtain ⟨last, hlast, hend⟩ := ih hrest
    refine ⟨last, ?_, by omega⟩
    rw [List.replicate_succ, exec_cons hnext]
    exact hlast

/-- Where a sequential walk can be: at a multiple of a command that starts in the range. -/
def OnStride (lbaStart lbaEnd : BitVec 64) (nblocks : Nat) (lba : BitVec 64) : Prop :=
  ∃ i, lba.toNat = lbaStart.toNat + i * nblocks ∧ lba.toNat < lbaEnd.toNat

lemma generatorWalk_onStride (rand : BitVec 31) (hmax : lbaEnd.toNat + nblocks.toNat < 2 ^ 64)
    (h : OnStride lbaStart lbaEnd nblocks.toNat lba) (hpos : lbaStart.toNat < lbaEnd.toNat) :
    ∃ lba', generatorWalk .seq lbaStart lbaEnd nblocks lba rand = some lba' ∧
      OnStride lbaStart lbaEnd nblocks.toNat lba' := by
  obtain ⟨i, hlba, hlt⟩ := h
  by_cases hmore : lba.toNat + nblocks.toNat < lbaEnd.toNat
  · obtain ⟨next, hnext, hto⟩ := generatorWalk_forward lbaStart rand hmore
    refine ⟨next, hnext, i + 1, ?_, by omega⟩
    rw [hto, hlba, Nat.add_mul, Nat.one_mul, Nat.add_assoc]
  · exact ⟨lbaStart, generatorWalk_back rand (by omega) (by omega), 0,
      by rw [Nat.zero_mul, Nat.add_zero], hpos⟩

/-- A random walk, or one whose reads divide the range, goes on for ever inside it. -/
lemma generatorWalk_inside {walk : Generator.Walk} (hpos : 1 ≤ nblocks.toNat)
    (hlong : nblocks.toNat < lbaEnd.toNat - lbaStart.toNat)
    (hmax : lbaEnd.toNat + nblocks.toNat < 2 ^ 64)
    (hwalk : walk = .random ∨ nblocks.toNat ∣ lbaEnd.toNat - lbaStart.toNat)
    (rands : List (BitVec 31)) :
    ∃ lba, exec (generatorWalk walk lbaStart lbaEnd nblocks) lbaStart rands = some lba ∧
      WalkInside lbaStart lbaEnd nblocks.toNat lba := by
  have hshort : lbaStart.toNat + nblocks.toNat < lbaEnd.toNat := by omega
  cases walk with
  | random =>
    have hstart : WalkInside lbaStart lbaEnd nblocks.toNat lbaStart := ⟨le_refl _, hshort.le⟩
    refine exec_total ?_ hstart rands
    intro lba rand _
    obtain ⟨hne, hin⟩ := random_inside rand hshort
    exact ⟨_, by rw [generatorWalk, Generator.nextLba, if_neg hne], hin⟩
  | seq =>
    have hdvd : nblocks.toNat ∣ lbaEnd.toNat - lbaStart.toNat :=
      hwalk.resolve_left (fun h => nomatch h)
    have hstart : OnStride lbaStart lbaEnd nblocks.toNat lbaStart :=
      ⟨0, by rw [Nat.zero_mul, Nat.add_zero], by omega⟩
    obtain ⟨lba, hrun, i, hlba, hlt⟩ :=
      exec_total (fun lba rand h => generatorWalk_onStride rand hmax h (by omega)) hstart rands
    have hin := (Stride.room_iff hpos (by omega)).mpr hdvd i (by omega)
    rw [Nat.add_mul, Nat.one_mul] at hin
    exact ⟨lba, hrun, by omega, by omega⟩

/-- The reads of generator stay in the range of its thread, whatever `rand()` returns and
however long it runs, exactly when the walk is random or a read divides the range. -/
theorem generator_walk_inside_iff (walk : Generator.Walk) (lbaStart lbaEnd nblocks : BitVec 64)
    (hpos : 1 ≤ nblocks.toNat) (hlong : nblocks.toNat < lbaEnd.toNat - lbaStart.toNat)
    (hmax : lbaEnd.toNat + nblocks.toNat < 2 ^ 64) :
    (∀ rands : List (BitVec 31), ∃ lba,
        exec (generatorWalk walk lbaStart lbaEnd nblocks) lbaStart rands = some lba ∧
        WalkInside lbaStart lbaEnd nblocks.toNat lba) ↔
      walk = .random ∨ nblocks.toNat ∣ lbaEnd.toNat - lbaStart.toNat := by
  refine ⟨fun h => ?_, generatorWalk_inside hpos hlong hmax⟩
  cases walk with
  | random => exact Or.inl rfl
  | seq =>
    -- the walk visits every multiple of a read, so each of them has to leave room for one
    refine Or.inr ((Stride.room_iff hpos (by omega)).mp fun i hi => ?_)
    obtain ⟨lba, hreach, hto⟩ := generatorWalk_reaches lbaStart hi
    obtain ⟨lba', hlba, -, hin⟩ := h (List.replicate i 0)
    rw [hreach, Option.some.injEq] at hlba
    subst hlba
    rw [Nat.add_mul, Nat.one_mul]
    omega

/-- Reads of three blocks over twelve. -/
theorem generator_walk_inside_multiple :
    (3 : BitVec 64).toNat ∣ (12 : BitVec 64).toNat - (0 : BitVec 64).toNat ∧
      ∀ rands : List (BitVec 31), ∃ lba,
        exec (generatorWalk .seq 0 12 3) 0 rands = some lba ∧
          WalkInside 0 12 (3 : BitVec 64).toNat lba :=
  ⟨by decide,
    (generator_walk_inside_iff .seq 0 12 3 (by decide) (by decide) (by decide)).mpr (Or.inr (by decide))⟩

/-- Reads of three blocks over ten: the fourth starts at the last block and leaves the range. -/
theorem generator_walk_past_end :
    1 ≤ (3 : BitVec 64).toNat ∧ (3 : BitVec 64).toNat < (10 : BitVec 64).toNat - (0 : BitVec 64).toNat ∧
      (10 : BitVec 64).toNat + (3 : BitVec 64).toNat < 2 ^ 64 ∧
      exec (generatorWalk .seq 0 10 3) 0 [0, 0, 0] = some 9 ∧
        ¬WalkInside 0 10 (3 : BitVec 64).toNat 9 := by
  decide

/-! ### bench-nvme -/

/-- One call of `next_lba` of bench-nvme in a sequential walk. -/
abbrev benchWalk (lbaStart lbaEnd nblocks lba : BitVec 64)
    (rand : BitVec 31) : Option (BitVec 64) :=
  nextLba .seq lba lbaStart lbaEnd nblocks rand

/-- The commands of a sequential walk before it starts over. -/
def benchTurn (lbaStart lbaEnd nblocks : BitVec 64) : Nat :=
  max 1 ((lbaEnd.toNat - lbaStart.toNat - 1) / nblocks.toNat)

lemma succ_lt_benchTurn_iff (hpos : 1 ≤ nblocks.toNat) {k : Nat} :
    k + 1 < benchTurn lbaStart lbaEnd nblocks ↔
      lbaStart.toNat + k * nblocks.toNat + 2 * nblocks.toNat < lbaEnd.toNat := by
  have hdiv := Nat.le_div_iff_mul_le (x := k + 2) (y := lbaEnd.toNat - lbaStart.toNat - 1) hpos
  rw [Nat.add_mul] at hdiv
  unfold benchTurn
  omega

/-- A command of the walk has room for its blocks. -/
lemma benchTurn_room (hpos : 1 ≤ nblocks.toNat)
    (hfit : nblocks.toNat ≤ lbaEnd.toNat - lbaStart.toNat) {k : Nat}
    (hk : k < benchTurn lbaStart lbaEnd nblocks) :
    lbaStart.toNat + (k + 1) * nblocks.toNat ≤ lbaEnd.toNat := by
  cases k with
  | zero => omega
  | succ k =>
    have hroom := (succ_lt_benchTurn_iff hpos).mp hk
    rw [Nat.add_mul, Nat.add_mul]
    omega

lemma benchWalk_turn (rand : BitVec 31) (hpos : 1 ≤ nblocks.toNat)
    (hfit : nblocks.toNat ≤ lbaEnd.toNat - lbaStart.toNat)
    (hmax : lbaEnd.toNat + nblocks.toNat < 2 ^ 64) {k : Nat}
    (hk : k < benchTurn lbaStart lbaEnd nblocks)
    (hlba : lba.toNat = lbaStart.toNat + k * nblocks.toNat) :
    ∃ lba', benchWalk lbaStart lbaEnd nblocks lba rand = some lba' ∧
      lba'.toNat = lbaStart.toNat + Stride.turn (benchTurn lbaStart lbaEnd nblocks) k * nblocks.toNat := by
  have hroom := benchTurn_room hpos hfit hk
  rw [Nat.add_mul, Nat.one_mul] at hroom
  have htwo : (nblocks <<< 1).toNat = 2 * nblocks.toNat :=
    Word.toNat_shiftLeft_one nblocks (by omega)
  have hahead : (lba + (nblocks <<< 1)).toNat = lba.toNat + 2 * nblocks.toNat := by
    rw [BitVec.toNat_add, htwo, Nat.mod_eq_of_lt (by omega)]
  have hmore : lba + (nblocks <<< 1) < lbaEnd ↔ k + 1 < benchTurn lbaStart lbaEnd nblocks := by
    rw [succ_lt_benchTurn_iff hpos, BitVec.lt_def, hahead, hlba]
  unfold Stride.turn
  by_cases hnext : k + 1 < benchTurn lbaStart lbaEnd nblocks
  · refine ⟨lba + nblocks, by rw [benchWalk, nextLba, if_pos (hmore.mpr hnext)], ?_⟩
    rw [if_pos hnext, Nat.add_mul, Nat.one_mul, BitVec.toNat_add, Nat.mod_eq_of_lt (by omega)]
    omega
  · refine ⟨lbaStart, by rw [benchWalk, nextLba, if_neg (mt hmore.mp hnext)], ?_⟩
    rw [if_neg hnext, Nat.zero_mul, Nat.add_zero]

/-- A walk is at the multiple of a command that the number of calls gives, counted in turns. -/
lemma benchWalk_run (hpos : 1 ≤ nblocks.toNat)
    (hfit : nblocks.toNat ≤ lbaEnd.toNat - lbaStart.toNat)
    (hmax : lbaEnd.toNat + nblocks.toNat < 2 ^ 64) (rands : List (BitVec 31)) {k : Nat}
    (hk : k < benchTurn lbaStart lbaEnd nblocks)
    (hlba : lba.toNat = lbaStart.toNat + k * nblocks.toNat) :
    ∃ lba', exec (benchWalk lbaStart lbaEnd nblocks) lba rands = some lba' ∧
      lba'.toNat = lbaStart.toNat +
        (k + rands.length) % benchTurn lbaStart lbaEnd nblocks * nblocks.toNat := by
  induction rands generalizing k lba with
  | nil => exact ⟨lba, rfl, by rw [List.length_nil, Nat.add_zero, Nat.mod_eq_of_lt hk, hlba]⟩
  | cons rand rands ih =>
    obtain ⟨next, hnext, hto⟩ := benchWalk_turn rand hpos hfit hmax hk hlba
    obtain ⟨last, hlast, hend⟩ := ih (Stride.turn_lt hk) hto
    refine ⟨last, (exec_cons hnext).mpr hlast, ?_⟩
    rw [hend, Stride.turn_add_mod hk, List.length_cons]

/-- The walk visits the commands that fit into the range in increasing order, all of them
before it starts over, and then repeats. -/
def CoversRange (lbaStart lbaEnd nblocks : BitVec 64) : Prop :=
  ∃ m, (∀ k, k < m ↔ lbaStart.toNat + (k + 1) * nblocks.toNat ≤ lbaEnd.toNat) ∧
    ∀ rands : List (BitVec 31), ∃ lba,
    exec (benchWalk lbaStart lbaEnd nblocks) lbaStart rands = some lba ∧
      lba.toNat = lbaStart.toNat + rands.length % m * nblocks.toNat

lemma lt_div_iff_fits (hpos : 1 ≤ nblocks.toNat)
    (hfit : nblocks.toNat ≤ lbaEnd.toNat - lbaStart.toNat) (k : Nat) :
    k < (lbaEnd.toNat - lbaStart.toNat) / nblocks.toNat ↔
      lbaStart.toNat + (k + 1) * nblocks.toNat ≤ lbaEnd.toNat := by
  rw [Nat.lt_iff_add_one_le, Nat.le_div_iff_mul_le hpos]
  omega

/-- Only a range that is a longer multiple of a command loses one. -/
lemma benchTurn_eq_iff (hpos : 1 ≤ nblocks.toNat)
    (hfit : nblocks.toNat ≤ lbaEnd.toNat - lbaStart.toNat) :
    benchTurn lbaStart lbaEnd nblocks = (lbaEnd.toNat - lbaStart.toNat) / nblocks.toNat ↔
      (nblocks.toNat ∣ lbaEnd.toNat - lbaStart.toNat → lbaEnd.toNat - lbaStart.toNat = nblocks.toNat) := by
  unfold benchTurn
  obtain ⟨r, hr⟩ : ∃ r, lbaEnd.toNat - lbaStart.toNat = r + 1 :=
    ⟨_, (Nat.sub_add_cancel (by omega)).symm⟩
  have hone : 1 ≤ (r + 1) / nblocks.toNat := (Nat.one_le_div_iff hpos).mpr (hr ▸ hfit)
  rw [hr, Nat.add_sub_cancel]
  rw [Nat.succ_div] at hone ⊢
  by_cases hdvd : nblocks.toNat ∣ r + 1
  · rw [if_pos hdvd] at hone ⊢
    have hzero : r / nblocks.toNat = 0 ↔ r + 1 = nblocks.toNat := by
      rw [Nat.div_eq_zero_iff_lt hpos]
      omega
    rw [← hzero]
    constructor
    · intro hmax _
      omega
    · intro hall
      rw [hall hdvd]
      rfl
  · rw [if_neg hdvd] at hone ⊢
    refine iff_of_true ?_ (fun h => absurd h hdvd)
    omega

/-- A sequential walk covers its range exactly when the range is no multiple of a command, or
a single one. -/
theorem bench_walk_covers_iff (lbaStart lbaEnd nblocks : BitVec 64) (hpos : 1 ≤ nblocks.toNat)
    (hfit : nblocks.toNat ≤ lbaEnd.toNat - lbaStart.toNat)
    (hmax : lbaEnd.toNat + nblocks.toNat < 2 ^ 64) :
    CoversRange lbaStart lbaEnd nblocks ↔
      (nblocks.toNat ∣ lbaEnd.toNat - lbaStart.toNat → lbaEnd.toNat - lbaStart.toNat = nblocks.toNat) := by
  have hturn : 0 < benchTurn lbaStart lbaEnd nblocks :=
    Nat.lt_of_lt_of_le Nat.zero_lt_one (Nat.le_max_left _ _)
  have hstart : lbaStart.toNat = lbaStart.toNat + 0 * nblocks.toNat := by
    rw [Nat.zero_mul, Nat.add_zero]
  have hrun := fun rands => benchWalk_run hpos hfit hmax rands hturn hstart
  rw [← benchTurn_eq_iff hpos hfit]
  constructor
  · rintro ⟨m, hm, hvisit⟩
    have hmdiv : m = (lbaEnd.toNat - lbaStart.toNat) / nblocks.toNat := by
      apply le_antisymm <;> apply le_of_forall_lt <;> intro k hk
      · exact (lt_div_iff_fits hpos hfit k).mpr ((hm k).mp hk)
      · exact (hm k).mpr ((lt_div_iff_fits hpos hfit k).mp hk)
    have hle : benchTurn lbaStart lbaEnd nblocks ≤ m :=
      le_of_forall_lt fun k hk => (hm k).mpr (benchTurn_room hpos hfit hk)
    -- after a whole turn the walk is back at the start
    obtain ⟨lba, hlba, hback⟩ := hrun (List.replicate (benchTurn lbaStart lbaEnd nblocks) 0)
    obtain ⟨lba', hlba', hm'⟩ := hvisit (List.replicate (benchTurn lbaStart lbaEnd nblocks) 0)
    rw [hlba, Option.some.injEq] at hlba'
    subst hlba'
    rw [List.length_replicate, Nat.zero_add, Nat.mod_self] at hback
    rw [List.length_replicate, hback] at hm'
    have hmod : benchTurn lbaStart lbaEnd nblocks % m = 0 := by
      apply Nat.eq_of_mul_eq_mul_right hpos
      omega
    rw [← hmdiv]
    exact le_antisymm hle (Nat.le_of_dvd hturn (Nat.dvd_of_mod_eq_zero hmod))
  · intro heq
    refine ⟨_, lt_div_iff_fits hpos hfit, fun rands => ?_⟩
    rw [← heq, ← Nat.zero_add rands.length]
    exact hrun rands

/-- Commands of three blocks over ten: the walk visits 0, 3 and 6. -/
theorem bench_walk_covers_ten : CoversRange 0 10 3 :=
  (bench_walk_covers_iff 0 10 3 (by decide) (by decide) (by decide)).mpr (fun h => absurd h (by decide))

/-- Commands of two blocks over eight: the walk turns back at 4, and 6 is never visited. -/
theorem bench_walk_skips_last :
    1 ≤ (2 : BitVec 64).toNat ∧ (2 : BitVec 64).toNat ≤ (8 : BitVec 64).toNat - (0 : BitVec 64).toNat ∧
      (8 : BitVec 64).toNat + (2 : BitVec 64).toNat < 2 ^ 64 ∧
      (0 : BitVec 64).toNat + (3 + 1) * (2 : BitVec 64).toNat ≤ (8 : BitVec 64).toNat ∧
      exec (benchWalk 0 8 2) 0 [0, 0] = some 4 ∧ exec (benchWalk 0 8 2) 0 [0, 0, 0] = some 0 ∧
      ¬CoversRange 0 8 2 := by
  refine ⟨by decide, by decide, by decide, by decide, by decide, by decide, ?_⟩
  rintro ⟨m, hm, hvisit⟩
  have hlt : 3 < m := (hm 3).mpr (by decide)
  obtain ⟨lba, hlba, hto⟩ := hvisit [0, 0, 0]
  have hzero : exec (benchWalk 0 8 2) 0 [0, 0, 0] = some 0 := by decide
  rw [hzero, Option.some.injEq] at hlba
  rw [← hlba, List.length_cons, List.length_cons, List.length_cons, List.length_nil,
    Nat.mod_eq_of_lt hlt] at hto
  exact absurd hto (by decide)

end Walks

end Libpop.Proofs
