import Mathlib.Data.List.Sort
import Mathlib.Order.Bounds.Basic
import Libpop.Mb

/-!
# The samples of mb

The nested loops carry the least of the remaining samples down to the place that the outer loop
has reached, so they sort. The first pass over the sorted samples then finds the extremes. The
second one compares with the extremes of all samples, never finds anything beyond them and
reports the least sample as the greatest of the percentile.
-/

namespace Libpop.Proofs
open Exchange Mb

variable {α : Type*} [LinearOrder α] {nloop : Nat}

/-! ### The sort -/

lemma sortInner_perm (n i : Nat) (h : i < nloop) (elapsed : Vector α nloop) :
    (sortInner n i h elapsed).toList.Perm elapsed.toList := by
  induction i generalizing elapsed with
  | zero => exact List.Perm.refl _
  | succ i ih =>
    unfold sortInner
    split
    · exact (ih _ _).trans (exchange_perm elapsed h)
    · exact List.Perm.refl _

/-- When the first `n` samples are in place and the one at `i` is the least from there on, the rest
of the loop puts the least of the others at `n`. -/
lemma sortInner_leastAt {n i : Nat} (h : i < nloop) (hn : n ≤ i) {elapsed : Vector α nloop}
    (hplaced : ∀ k < n, LeastAt elapsed k) (hleast : LeastAt elapsed i) :
    ∀ k < n + 1, LeastAt (sortInner n i h elapsed) k := by
  induction i generalizing elapsed with
  | zero =>
    intro k hk
    have hzero : k = 0 := by omega
    rw [hzero]
    exact hleast
  | succ i ih =>
    unfold sortInner
    by_cases hgt : i + 1 > n
    · rw [if_pos hgt]
      apply ih
      · omega
      · intro k hk
        exact (hplaced k hk).exchange_of_lt h (by omega)
      · exact hleast.exchange_pred h
    · rw [if_neg hgt]
      intro k hk
      by_cases hlast : k = i + 1
      · rw [hlast]
        exact hleast
      · exact hplaced k (by omega)

lemma sortOuter_perm (n : Nat) (h : n ≤ nloop) (elapsed : Vector α nloop) :
    (sortOuter n h elapsed).toList.Perm elapsed.toList := by
  induction n with
  | zero => exact List.Perm.refl _
  | succ n ih => exact (sortInner_perm n _ _ _).trans (ih _)

lemma sortOuter_leastAt (n : Nat) (h : n ≤ nloop) (elapsed : Vector α nloop) :
    ∀ k < n, LeastAt (sortOuter n h elapsed) k := by
  induction n with
  | zero => exact fun k hk => absurd hk (Nat.not_lt_zero k)
  | succ n ih =>
    apply sortInner_leastAt _ (by omega) (ih _)
    -- there is nothing behind the last sample
    intro hk j hj hle
    have hlast : j = nloop - 1 := by omega
    simp only [hlast, le_refl]

lemma mbSort_pairwise (elapsed : Vector α nloop) : (mbSort elapsed).toList.Pairwise (· ≤ ·) :=
  pairwise_of_leastAt (sortOuter_leastAt nloop le_rfl elapsed)

lemma mbSort_perm (elapsed : Vector α nloop) : (mbSort elapsed).toList.Perm elapsed.toList :=
  sortOuter_perm nloop le_rfl elapsed

/-- For every array of samples and every length: the exchange loops end with the samples in
non-decreasing order, and they are the samples that they began with. -/
theorem mbSort_sorts (elapsed : Vector α nloop) :
    (mbSort elapsed).toList.Pairwise (· ≤ ·) ∧ (mbSort elapsed).toList.Perm elapsed.toList :=
  ⟨mbSort_pairwise elapsed, mbSort_perm elapsed⟩

/-! ### The first pass -/

lemma extremeStep_self (s : Extremes α) (x : α) :
    extremeStep s s x = ⟨min s.min x, max s.max x⟩ := by
  unfold extremeStep
  rw [min_comm, min_def_lt, max_def_lt]

lemma foldl_extremeStep (l : List α) (s : Extremes α) :
    l.foldl (fun s x => extremeStep s s x) s = ⟨l.foldl min s.min, l.foldl max s.max⟩ := by
  induction l generalizing s with
  | nil => rfl
  | cons x l ih =>
    rw [List.foldl_cons, ih, extremeStep_self]
    rfl

/-- The pass begins with the first sample and reads it again, so it is over the samples alone. -/
lemma allSamples_spec (elapsed : Vector α nloop) (h : 0 < nloop) :
    IsLeast {x | x ∈ elapsed.toList} (allSamples elapsed h).min ∧
      IsGreatest {x | x ∈ elapsed.toList} (allSamples elapsed h).max := by
  have hfirst : elapsed[0] ∈ elapsed.toList := Vector.mem_toList_iff.mpr (Vector.getElem_mem h)
  have hsub : ∀ x ∈ elapsed[0] :: elapsed.toList, x ∈ elapsed.toList :=
    List.forall_mem_cons.mpr ⟨hfirst, fun x hx => hx⟩
  have hfoldMin : (elapsed[0] :: elapsed.toList).min? =
      some (elapsed.toList.foldl min elapsed[0]) := rfl
  have hfoldMax : (elapsed[0] :: elapsed.toList).max? =
      some (elapsed.toList.foldl max elapsed[0]) := rfl
  obtain ⟨hmin, hle⟩ := List.min?_eq_some_iff.mp hfoldMin
  obtain ⟨hmax, hge⟩ := List.max?_eq_some_iff.mp hfoldMax
  unfold allSamples
  rw [foldl_extremeStep]
  exact ⟨⟨hsub _ hmin, fun x hx => hle x (List.mem_cons_of_mem _ hx)⟩,
    ⟨hsub _ hmax, fun x hx => hge x (List.mem_cons_of_mem _ hx)⟩⟩

/-! ### The second pass -/

/-- Samples between the bounds that they are compared with replace nothing. -/
lemma foldl_extremeStep_of_between {bound : Extremes α} {l : List α}
    (h : ∀ x ∈ l, bound.min ≤ x ∧ x ≤ bound.max) (s : Extremes α) :
    l.foldl (fun s x => extremeStep bound s x) s = s := by
  induction l with
  | nil => rfl
  | cons x l ih =>
    obtain ⟨hx, hl⟩ := List.forall_mem_cons.mp h
    have hstep : extremeStep bound s x = s := by
      unfold extremeStep
      rw [if_neg (not_lt.mpr hx.1), if_neg (not_lt.mpr hx.2)]
    rw [List.foldl_cons, hstep]
    exact ih hl

lemma percentileSamples_eq (elapsed : Vector α nloop) (h : 0 < nloop) (nloop9 : Nat) :
    percentileSamples (allSamples elapsed h) elapsed h nloop9 = ⟨elapsed[0], elapsed[0]⟩ := by
  obtain ⟨hmin, hmax⟩ := allSamples_spec elapsed h
  apply foldl_extremeStep_of_between
  intro x hx
  have hmem := List.mem_of_mem_take hx
  exact ⟨hmin.2 hmem, hmax.2 hmem⟩

/-! ### Smallest samples -/

/-- The `k` smallest of a list of samples. -/
def smallest (k : Nat) (samples : List α) : List α :=
  (samples.insertionSort (· ≤ ·)).take k

lemma smallest_eq (k : Nat) (samples : Vector α nloop) :
    smallest k samples.toList = (mbSort samples).toList.take k := by
  have hperm := (List.perm_insertionSort (· ≤ ·) samples.toList).trans (mbSort_perm samples).symm
  unfold smallest
  rw [hperm.eq_of_pairwise' (List.pairwise_insertionSort (· ≤ ·) _) (mbSort_pairwise samples)]

/-- In a sorted list the least element fills a prefix. -/
lemma take_eq_least_iff {l : List α} (hl : l.Pairwise (· ≤ ·)) {x : α} (hx : ∀ y ∈ l, x ≤ y)
    {k : Nat} (hk : k ≤ l.length) : (∀ y ∈ l.take k, y = x) ↔ k ≤ l.count x := by
  induction l generalizing k with
  | nil =>
    have hzero : k = 0 := Nat.le_zero.mp hk
    simp [hzero]
  | cons z l ih =>
    obtain ⟨hz, hl⟩ := List.pairwise_cons.mp hl
    cases k with
    | zero => simp
    | succ k =>
      rw [List.take_succ_cons, List.forall_mem_cons]
      by_cases he : z = x
      · rw [he, List.count_cons_self, Nat.succ_le_succ_iff, and_iff_right rfl]
        exact ih hl (fun y hy => hx y (List.mem_cons_of_mem z hy)) (Nat.le_of_succ_le_succ hk)
      · have hlt : x < z := lt_of_le_of_ne (hx z List.mem_cons_self) (Ne.symm he)
        have hnone : (z :: l).count x = 0 := by
          rw [List.count_eq_zero, List.mem_cons, not_or]
          exact ⟨hlt.ne, fun hmem => absurd (hz x hmem) (not_le.mpr hlt)⟩
        rw [hnone]
        exact iff_of_false (fun h => he h.1) (Nat.not_succ_le_zero k)

/-! ### The report -/

/-- The extremes that are reported are those of all samples and of the `nloop9` smallest ones. -/
structure ReportsExtremes (samples : List α) (nloop9 : Nat) (r : MbReport α) : Prop where
  min : IsLeast {x | x ∈ samples} r.all.min
  max : IsGreatest {x | x ∈ samples} r.all.max
  min9 : IsLeast {x | x ∈ smallest nloop9 samples} r.percentile.min
  max9 : IsGreatest {x | x ∈ smallest nloop9 samples} r.percentile.max

section Report

variable (samples : Vector α nloop) (h : 0 < nloop)

lemma mbReport_all (nloop9 : Nat) :
    IsLeast {x | x ∈ samples.toList} (mbReport samples h nloop9).all.min ∧
      IsGreatest {x | x ∈ samples.toList} (mbReport samples h nloop9).all.max := by
  have hmem : {x | x ∈ samples.toList} = {x | x ∈ (mbSort samples).toList} := by
    ext x
    exact (mbSort_perm samples).mem_iff.symm
  rw [hmem]
  exact allSamples_spec (mbSort samples) h

lemma mbReport_percentile (nloop9 : Nat) :
    (mbReport samples h nloop9).percentile = ⟨(mbSort samples)[0], (mbSort samples)[0]⟩ :=
  percentileSamples_eq (mbSort samples) h nloop9

lemma mbSort_first_le : ∀ y ∈ (mbSort samples).toList, (mbSort samples)[0] ≤ y := by
  intro y hy
  obtain ⟨j, hj, rfl⟩ := Vector.mem_iff_getElem.mp (Vector.mem_toList_iff.mp hy)
  exact sortOuter_leastAt nloop le_rfl samples 0 h h j hj (Nat.zero_le j)

variable {nloop9 : Nat} (hpos : 1 ≤ nloop9)

include hpos

lemma mbSort_first_mem_smallest : (mbSort samples)[0] ∈ smallest nloop9 samples.toList := by
  rw [smallest_eq]
  apply List.mem_take_iff_getElem.mpr
  exact ⟨0, by rw [Vector.length_toList]; omega, by rw [Vector.getElem_toList]⟩

lemma mbReport_min9 :
    IsLeast {x | x ∈ smallest nloop9 samples.toList} (mbReport samples h nloop9).percentile.min := by
  rw [mbReport_percentile]
  refine ⟨mbSort_first_mem_smallest samples h hpos, ?_⟩
  intro x hx
  have hsmall : x ∈ smallest nloop9 samples.toList := hx
  rw [smallest_eq] at hsmall
  exact mbSort_first_le samples h x (List.mem_of_mem_take hsmall)

/-- The least sample is the greatest of the smallest ones when they are all the same. -/
lemma mbReport_max9_iff (hle : nloop9 ≤ nloop) :
    IsGreatest {x | x ∈ smallest nloop9 samples.toList} (mbReport samples h nloop9).percentile.max ↔
      nloop9 ≤ samples.toList.count (mbSort samples)[0] := by
  have hfirst := mbSort_first_le samples h
  have hcount := take_eq_least_iff (mbSort_pairwise samples) hfirst (k := nloop9)
    (by rw [Vector.length_toList]; exact hle)
  rw [mbReport_percentile, ← (mbSort_perm samples).count_eq, ← hcount, ← smallest_eq]
  constructor
  · rintro ⟨-, hge⟩ y hy
    have hy' := hy
    rw [smallest_eq] at hy'
    exact le_antisymm (hge hy) (hfirst y (List.mem_of_mem_take hy'))
  · intro hall
    exact ⟨mbSort_first_mem_smallest samples h hpos, fun y hy => (hall y hy).le⟩

end Report

/-- The report is right exactly when the least sample occurs `nloop9` times; of its four numbers
only the greatest of the percentile can be wrong. -/
theorem reports_extremes_iff (samples : Vector α nloop) (h : 0 < nloop) {nloop9 : Nat}
    (hpos : 1 ≤ nloop9) (hle : nloop9 ≤ nloop) :
    (ReportsExtremes samples.toList nloop9 (mbReport samples h nloop9) ↔
      ∃ x, (∀ y ∈ samples.toList, x ≤ y) ∧ nloop9 ≤ samples.toList.count x) ∧
      IsLeast {x | x ∈ samples.toList} (mbReport samples h nloop9).all.min ∧
      IsGreatest {x | x ∈ samples.toList} (mbReport samples h nloop9).all.max ∧
      IsLeast {x | x ∈ smallest nloop9 samples.toList} (mbReport samples h nloop9).percentile.min := by
  obtain ⟨hmin, hmax⟩ := mbReport_all samples h nloop9
  have hmin9 := mbReport_min9 samples h hpos
  have hmax9 := mbReport_max9_iff samples h hpos hle
  have hmem := (mbSort_perm samples).mem_iff (a := (mbSort samples)[0])
  refine ⟨⟨?_, ?_⟩, hmin, hmax, hmin9⟩
  · intro hr
    refine ⟨(mbSort samples)[0], ?_, hmax9.mp hr.max9⟩
    intro y hy
    exact mbSort_first_le samples h y ((mbSort_perm samples).mem_iff.mpr hy)
  · rintro ⟨x, hx, hcount⟩
    have hxmem : x ∈ samples.toList := List.count_pos_iff.mp (hpos.trans hcount)
    have heq : (mbSort samples)[0] = x := by
      apply le_antisymm
      · exact mbSort_first_le samples h x ((mbSort_perm samples).mem_iff.mpr hxmem)
      · exact hx _ (hmem.mp (Vector.mem_toList_iff.mpr (Vector.getElem_mem h)))
    exact ⟨hmin, hmax, hmin9, hmax9.mpr (heq ▸ hcount)⟩

theorem reports_extremes_of_equal :
    ReportsExtremes [7, 5, 5] 2 (mbReport #v[7, 5, 5] (by decide) 2) :=
  (reports_extremes_iff #v[7, 5, 5] (by decide) (by decide) (by decide)).1.mpr ⟨5, by decide, by decide⟩

/-- Three loops, of which 99 % are two: of the times 30, 10 and 20 the two smallest are 10 and 20,
and 10 is reported as the greatest of them. -/
theorem reports_least_as_greatest :
    smallest 2 [30, 10, 20] = [10, 20] ∧
      (mbReport #v[30, 10, 20] (by decide) 2).percentile = ⟨10, 10⟩ ∧
      ¬ReportsExtremes [30, 10, 20] 2 (mbReport #v[30, 10, 20] (by decide) 2) := by
  have hreport : (mbReport #v[30, 10, 20] (by decide) 2).percentile = ⟨10, 10⟩ := by decide +kernel
  refine ⟨by decide, hreport, ?_⟩
  intro hr
  have hmax9 := hr.max9
  rw [hreport] at hmax9
  exact absurd (hmax9.2 (by decide : 20 ∈ smallest 2 [30, 10, 20])) (by decide)

end Libpop.Proofs
