import Mathlib.Algebra.BigOperators.Intervals
import Mathlib.Algebra.Order.BigOperators.Group.Finset
import Mathlib.Algebra.Group.Nat.Defs
import Mathlib.Tactic.Lemma

/-!
# Sampled counters

A thread reads the counters of other threads one after the other, waits, reads them again and
reports by how much they have grown. The counters go on growing while they are read, so
neither reading is a state of the system. Still no growth is reported twice: what is reported
of a counter in one round ends before the next round begins.
-/

namespace Sampling
open Finset

/-- Between two rounds, or in the first or second reading, with the values read so far. -/
inductive Phase
  | idle
  | first (n : Nat) (x : Nat → Nat)
  | second (n : Nat) (x y : Nat → Nat)

/-- The first `n` values were read since the counters were at `lo`. -/
def Read (lo c x : Nat → Nat) (n : Nat) : Prop :=
  ∀ m < n, lo m ≤ x m ∧ x m ≤ c m

def Between (lo c : Nat → Nat) (N : Nat) : Phase → Prop
  | .idle => True
  | .first n x => n ≤ N ∧ Read lo c x n
  | .second n x y => n ≤ N ∧ Read lo c x N ∧ Read x c y n

/-- With the counters at `c`, no more was reported than their growth up to where the current
round has begun. -/
def Inv (N : Nat) (c : Nat → Nat) (reported : Nat) (phase : Phase) : Prop :=
  ∃ lo, (∀ m, lo m ≤ c m) ∧ reported ≤ ∑ m ∈ range N, lo m ∧ Between lo c N phase

variable {N n reported : Nat} {c c' x y lo : Nat → Nat} {phase : Phase}

lemma Read.mono (h : Read lo c x n) (hc : ∀ m, c m ≤ c' m) : Read lo c' x n :=
  fun m hm => ⟨(h m hm).1, (h m hm).2.trans (hc m)⟩

lemma Read.update (h : Read lo c x n) (hlo : lo n ≤ c n) :
    Read lo c (Function.update x n (c n)) (n + 1) := by
  intro m hm
  by_cases hmn : m = n
  · subst hmn
    rw [Function.update_self]
    exact ⟨hlo, le_rfl⟩
  · rw [Function.update_of_ne hmn]
    exact h m (by omega)

/-- A value that was read later leaves the sum of the others. -/
lemma sum_update (x : Nat → Nat) (n v : Nat) :
    ∑ m ∈ range (n + 1), Function.update x n v m = ∑ m ∈ range n, x m + v := by
  rw [sum_range_succ, Function.update_self]
  congr 1
  apply sum_congr rfl
  intro m hm
  exact Function.update_of_ne (mem_range.mp hm).ne _ _

lemma Read.sum_le (h : Read lo c x n) (hn : n ≤ N) : ∑ m ∈ range n, x m ≤ ∑ m ∈ range N, c m := by
  calc ∑ m ∈ range n, x m ≤ ∑ m ∈ range n, c m := sum_le_sum fun m hm => (h m (mem_range.mp hm)).2
    _ ≤ ∑ m ∈ range N, c m := sum_le_sum_of_subset (range_subset_range.mpr hn)

/-- One counter has grown. -/
lemma sum_grown_le {q u : Nat} (hq : c' q ≤ c q + u) (hothers : ∀ m, m ≠ q → c' m = c m) (N : Nat) :
    ∑ m ∈ range N, c' m ≤ ∑ m ∈ range N, c m + u := by
  have hpoint : ∀ m ∈ range N, c' m ≤ c m + if m = q then u else 0 := by
    intro m _
    split
    · rename_i hm
      exact hm ▸ hq
    · rename_i hm
      exact (hothers m hm).le
  calc ∑ m ∈ range N, c' m ≤ ∑ m ∈ range N, (c m + if m = q then u else 0) := sum_le_sum hpoint
    _ = ∑ m ∈ range N, c m + ∑ m ∈ range N, (if m = q then u else 0) := sum_add_distrib
    _ ≤ ∑ m ∈ range N, c m + u := by
      rw [sum_ite_eq']
      split <;> omega

/-! ### Steps -/

/-- The counters grow. -/
lemma Inv.grow (h : Inv N c reported phase) (hc : ∀ m, c m ≤ c' m) : Inv N c' reported phase := by
  obtain ⟨lo, hlo, hreported, hphase⟩ := h
  refine ⟨lo, fun m => (hlo m).trans (hc m), hreported, ?_⟩
  cases phase with
  | idle => trivial
  | first n x => exact ⟨hphase.1, hphase.2.mono hc⟩
  | second n x y => exact ⟨hphase.1, hphase.2.1.mono hc, hphase.2.2.mono hc⟩

lemma Inv.idle (h : Inv N c reported phase) : Inv N c reported .idle := by
  obtain ⟨lo, hlo, hreported, -⟩ := h
  exact ⟨lo, hlo, hreported, trivial⟩

lemma Inv.begin (h : Inv N c reported .idle) (x : Nat → Nat) : Inv N c reported (.first 0 x) := by
  obtain ⟨lo, hlo, hreported, -⟩ := h
  exact ⟨lo, hlo, hreported, Nat.zero_le N, nofun⟩

lemma Inv.read (h : Inv N c reported (.first n x)) (hn : n < N) :
    Inv N c reported (.first (n + 1) (Function.update x n (c n))) := by
  obtain ⟨lo, hlo, hreported, -, hread⟩ := h
  exact ⟨lo, hlo, hreported, hn, hread.update (hlo n)⟩

lemma Inv.turn (h : Inv N c reported (.first n x)) (hn : ¬n < N) (y : Nat → Nat) :
    n = N ∧ Inv N c reported (.second 0 x y) := by
  obtain ⟨lo, hlo, hreported, hle, hread⟩ := h
  obtain rfl : n = N := by omega
  exact ⟨rfl, lo, hlo, hreported, Nat.zero_le n, hread, nofun⟩

lemma Inv.readAgain (h : Inv N c reported (.second n x y)) (hn : n < N) :
    Inv N c reported (.second (n + 1) x (Function.update y n (c n))) := by
  obtain ⟨lo, hlo, hreported, -, hread, hagain⟩ := h
  exact ⟨lo, hlo, hreported, hn, hread, hagain.update (hread n hn).2⟩

/-- A round ends: the growth between the two readings is reported. -/
lemma Inv.report (h : Inv N c reported (.second n x y)) (hn : ¬n < N) :
    n = N ∧ (∀ m < N, x m ≤ y m) ∧
      Inv N c (reported + (∑ m ∈ range N, y m - ∑ m ∈ range N, x m)) .idle := by
  obtain ⟨lo, hlo, hreported, hle, hread, hagain⟩ := h
  obtain rfl : n = N := by omega
  refine ⟨rfl, fun m hm => (hagain m hm).1, fun m => if m < n then y m else c m, ?_, ?_, trivial⟩
  · intro m
    dsimp only
    split
    · rename_i hm
      exact (hagain m hm).2
    · exact le_rfl
  · have hstart : ∑ m ∈ range n, lo m ≤ ∑ m ∈ range n, x m :=
      sum_le_sum fun m hm => (hread m (mem_range.mp hm)).1
    have hround : ∑ m ∈ range n, x m ≤ ∑ m ∈ range n, y m :=
      sum_le_sum fun m hm => (hagain m (mem_range.mp hm)).1
    have hend : ∑ m ∈ range n, (if m < n then y m else c m) = ∑ m ∈ range n, y m :=
      sum_congr rfl fun m hm => if_pos (mem_range.mp hm)
    rw [hend]
    omega

/-- No growth is reported twice. -/
theorem Inv.total (h : Inv N c reported phase) : reported ≤ ∑ m ∈ range N, c m := by
  obtain ⟨lo, hlo, hreported, -⟩ := h
  exact hreported.trans (sum_le_sum fun m _ => hlo m)

/-! ### Sums in machine words -/

/-- A sampler that keeps only the sums of what it has read. -/
inductive Sums (w : Nat)
  | idle
  | first (n : Nat) (a : BitVec w)
  | second (n : Nat) (a b : BitVec w)

/-- The steps of such a sampler over counters `v`, with what it reports. -/
inductive SumsMove {w : Nat} (N : Nat) (v : Nat → BitVec w) :
    Sums w → Sums w → Option (BitVec w) → Prop
  | rest : SumsMove N v .idle .idle none
  | start : SumsMove N v .idle (.first 0 0) none
  | read (n : Nat) (a : BitVec w) (hn : n < N) : SumsMove N v (.first n a) (.first (n + 1) (a + v n)) none
  | turn (n : Nat) (a : BitVec w) (hn : ¬n < N) : SumsMove N v (.first n a) (.second 0 a 0) none
  | again (n : Nat) (a b : BitVec w) (hn : n < N) :
      SumsMove N v (.second n a b) (.second (n + 1) a (b + v n)) none
  | report (n : Nat) (a b : BitVec w) (hn : ¬n < N) : SumsMove N v (.second n a b) .idle (some (b - a))

def Sampled {w : Nat} (N : Nat) (c : Nat → Nat) (reported : Nat) : Sums w → Prop
  | .idle => Inv N c reported .idle
  | .first n a => ∃ x, a.toNat = ∑ m ∈ range n, x m ∧ Inv N c reported (.first n x)
  | .second n a b => ∃ x y, a.toNat = ∑ m ∈ range N, x m ∧ b.toNat = ∑ m ∈ range n, y m ∧
      Inv N c reported (.second n x y)

lemma Sampled.grow {w : Nat} {sums : Sums w} (h : Sampled N c reported sums)
    (hc : ∀ m, c m ≤ c' m) : Sampled N c' reported sums := by
  cases sums with
  | idle => exact Inv.grow h hc
  | first n a =>
    obtain ⟨x, ha, hinv⟩ := h
    exact ⟨x, ha, hinv.grow hc⟩
  | second n a b =>
    obtain ⟨x, y, ha, hb, hinv⟩ := h
    exact ⟨x, y, ha, hb, hinv.grow hc⟩

/-- A round may be given up. -/
lemma Sampled.idle {w : Nat} {sums : Sums w} (h : Sampled N c reported sums) :
    Inv N c reported .idle := by
  cases sums with
  | idle => exact h
  | first n a =>
    obtain ⟨x, -, hinv⟩ := h
    exact hinv.idle
  | second n a b =>
    obtain ⟨x, y, -, -, hinv⟩ := h
    exact hinv.idle

lemma Sampled.total {w : Nat} {sums : Sums w} (h : Sampled N c reported sums) :
    reported ≤ ∑ m ∈ range N, c m :=
  h.idle.total

/-- A sum that is below the width grows without a carry. -/
lemma toNat_sum_update {w : Nat} {a v : BitVec w} (ha : a.toNat = ∑ m ∈ range n, x m)
    (hv : v.toNat = c n) (hread : Read lo c (Function.update x n (c n)) (n + 1)) (hn : n < N)
    (hfit : ∑ m ∈ range N, c m < 2 ^ w) :
    (a + v).toNat = ∑ m ∈ range (n + 1), Function.update x n (c n) m := by
  have hle := hread.sum_le hn
  rw [sum_update] at hle ⊢
  rw [BitVec.toNat_add, ha, hv, Nat.mod_eq_of_lt (by omega)]

/-- As long as the counters together fit a word, the words report what the readings do. -/
theorem Sampled.move {w : Nat} {sums sums' : Sums w} {v : Nat → BitVec w}
    {shown : Option (BitVec w)} (h : Sampled N c reported sums)
    (hmove : SumsMove N v sums sums' shown) (hv : ∀ m < N, (v m).toNat = c m)
    (hfit : ∑ m ∈ range N, c m < 2 ^ w) :
    Sampled N c (reported + (shown.map BitVec.toNat).getD 0) sums' := by
  cases hmove with
  | rest => exact h
  | start => exact ⟨fun _ => 0, by simp, Inv.begin h _⟩
  | read n a hn =>
    obtain ⟨x, ha, hinv⟩ := h
    have hnext := hinv.read hn
    obtain ⟨lo, -, -, -, hread⟩ := id hnext
    exact ⟨_, toNat_sum_update ha (hv n hn) hread hn hfit, hnext⟩
  | turn n a hn =>
    obtain ⟨x, ha, hinv⟩ := h
    obtain ⟨rfl, hnext⟩ := hinv.turn hn fun _ => 0
    exact ⟨x, _, ha, by simp, hnext⟩
  | again n a b hn =>
    obtain ⟨x, y, ha, hb, hinv⟩ := h
    have hnext := hinv.readAgain hn
    obtain ⟨lo, -, -, -, -, hread⟩ := id hnext
    exact ⟨x, _, ha, toNat_sum_update hb (hv n hn) hread hn hfit, hnext⟩
  | report n a b hn =>
    obtain ⟨x, y, ha, hb, hinv⟩ := h
    obtain ⟨rfl, hle, hnext⟩ := hinv.report hn
    have hsum : ∑ m ∈ range n, x m ≤ ∑ m ∈ range n, y m :=
      sum_le_sum fun m hm => hle m (mem_range.mp hm)
    rw [← ha, ← hb] at hsum hnext
    rw [Option.map_some, Option.getD_some, BitVec.toNat_sub_of_le hsum]
    exact hnext

end Sampling
