import Mathlib.Data.Set.BooleanAlgebra
import Mathlib.Order.CompletePartialOrder
import Mathlib.Tactic.Lemma
import Mathlib.Tactic.Ring

/-!
# Fixed-width words

C arithmetic on unsigned words is `BitVec` arithmetic. The lemmas here read shifts, masks
and the conversions between word sizes and `int` back into natural numbers and integers.
-/

namespace Word

/-- Conversion of an unsigned word to a 32-bit `int`. -/
def toInt32 {w : Nat} (x : BitVec w) : Int :=
  (x.setWidth 32).toInt

/-- `x` rounded up to a multiple of `2 ^ k` with the carry out of the word lost. -/
def roundUp {w : Nat} (k : Nat) (x : BitVec w) : BitVec w :=
  ((x + (1#w <<< k) - 1#w) >>> k) <<< k

lemma toNat_shiftLeft_mul {w : Nat} (x : BitVec w) (k : Nat) :
    (x <<< k).toNat = x.toNat * 2 ^ k % 2 ^ w := by
  rw [BitVec.toNat_shiftLeft, Nat.shiftLeft_eq]

lemma toNat_shiftLeft_one {w : Nat} (x : BitVec w) (h : 2 * x.toNat < 2 ^ w) :
    (x <<< 1).toNat = 2 * x.toNat := by
  rw [toNat_shiftLeft_mul, Nat.pow_one, Nat.mul_comm, Nat.mod_eq_of_lt h]

/-- A counter below a bound of its own width does not wrap. -/
lemma toNat_add_one_of_lt {x y : BitVec 32} (h : x.toNat < y.toNat) :
    (x + 1).toNat = x.toNat + 1 := by
  have hy := y.isLt
  have hone : (1 : BitVec 32).toNat = 1 := rfl
  rw [BitVec.toNat_add, hone]
  omega

lemma toNat_shiftRight_div {w : Nat} (x : BitVec w) (k : Nat) :
    (x >>> k).toNat = x.toNat / 2 ^ k := by
  rw [BitVec.toNat_ushiftRight, Nat.shiftRight_eq_div_pow]

/-- Shifting right and back clears low bits only. -/
lemma msb_sshiftRight_shiftLeft {w k : Nat} (x : BitVec w) (hk : k < w) :
    (x.sshiftRight k <<< k).msb = x.msb := by
  have hlast : k + (w - 1 - k) = w - 1 := by omega
  rw [BitVec.msb_eq_getLsbD_last, BitVec.msb_eq_getLsbD_last, BitVec.getLsbD_shiftLeft,
    BitVec.getLsbD_sshiftRight, hlast, if_pos (by omega : w - 1 < w)]
  have hin : w - 1 < w ∧ ¬w - 1 < k ∧ ¬w ≤ w - 1 - k := by omega
  simp [hin]

lemma toNat_and_low {w : Nat} (x : BitVec w) (k : Nat) (hk : k ≤ w) :
    (x &&& BitVec.ofNat w (2 ^ k - 1)).toNat = x.toNat % 2 ^ k := by
  have hpos : 0 < 2 ^ k := Nat.two_pow_pos k
  have hle : 2 ^ k ≤ 2 ^ w := Nat.pow_le_pow_right (by decide) hk
  rw [BitVec.toNat_and, BitVec.toNat_ofNat, Nat.mod_eq_of_lt (by omega)]
  exact Nat.and_two_pow_sub_one_eq_mod _ k

lemma and_not_one {w : Nat} (x : BitVec w) : x &&& ~~~1#w = (x >>> 1) <<< 1 := by
  apply BitVec.eq_of_getLsbD_eq
  intro i hi
  have hw : 0 < w := Nat.zero_lt_of_lt hi
  rw [BitVec.getLsbD_and, BitVec.getLsbD_not, BitVec.getLsbD_one, BitVec.getLsbD_shiftLeft,
    BitVec.getLsbD_ushiftRight]
  cases i with
  | zero => simp [hw]
  | succ i => simp [hi, Nat.add_comm 1 i]

/-- Clearing the lowest bit rounds down to an even number. -/
lemma toNat_and_not_one {w : Nat} (x : BitVec w) :
    (x &&& ~~~1#w).toNat = x.toNat - x.toNat % 2 := by
  have hx := x.isLt
  rw [and_not_one, toNat_shiftLeft_mul, toNat_shiftRight_div, Nat.mod_eq_of_lt (by omega)]
  omega

/-- The bounds of an even split into `c` parts do not wrap. -/
lemma toNat_div_mul {w c n : Nat} (x : BitVec w) (hc : c < 2 ^ w) (hn : n ≤ c) :
    (x / BitVec.ofNat w c * BitVec.ofNat w n).toNat = x.toNat / c * n := by
  have hle : x.toNat / c * n ≤ x.toNat :=
    le_trans (Nat.mul_le_mul_left _ hn) (Nat.div_mul_le_self _ _)
  rw [BitVec.toNat_mul, BitVec.toNat_udiv, BitVec.toNat_ofNat, BitVec.toNat_ofNat,
    Nat.mod_eq_of_lt hc,
    Nat.mod_eq_of_lt (by omega : n < 2 ^ w), Nat.mod_eq_of_lt (lt_of_le_of_lt hle x.isLt)]

/-- A non-negative `int` keeps its value in a wider word. -/
lemma toNat_signExtend_of_lt {w v : Nat} {x : BitVec w} (hle : w ≤ v) (h : 2 * x.toNat < 2 ^ w) :
    (x.signExtend v).toNat = x.toNat := by
  rw [BitVec.signExtend_eq_setWidth_of_msb_false (BitVec.msb_eq_false_iff_two_mul_lt.mpr h)]
  exact BitVec.toNat_setWidth_of_le hle

/-- A product that does not overflow, made wider. -/
lemma toNat_signExtend_mul {w v : Nat} {x y : BitVec w} (hle : w ≤ v)
    (h : 2 * (x.toNat * y.toNat) < 2 ^ w) : ((x * y).signExtend v).toNat = x.toNat * y.toNat := by
  have hmul : (x * y).toNat = x.toNat * y.toNat := by
    rw [BitVec.toNat_mul, Nat.mod_eq_of_lt (by omega)]
  rw [toNat_signExtend_of_lt hle (by omega), hmul]

/-- A negative `int` goes to the end of the wider word. -/
lemma toNat_signExtend_of_ge {w v : Nat} {x : BitVec w} (hle : w ≤ v) (h : 2 ^ w ≤ 2 * x.toNat) :
    (x.signExtend v).toNat = x.toNat + (2 ^ v - 2 ^ w) := by
  rw [BitVec.toNat_signExtend, BitVec.msb_eq_true_iff_two_mul_ge.mpr h, if_pos rfl,
    BitVec.toNat_setWidth_of_le hle]

lemma toInt32_eq (x : BitVec 64) :
    toInt32 x = if x.toNat % 2 ^ 32 < 2 ^ 31 then (x.toNat % 2 ^ 32 : Int)
      else (x.toNat % 2 ^ 32 : Int) - 2 ^ 32 := by
  unfold toInt32
  rw [BitVec.toInt_eq_toNat_cond]
  simp only [BitVec.toNat_setWidth]
  split <;> split <;> first | rfl | omega

lemma toInt32_of_lt (x : BitVec 64) (h : x.toNat < 2 ^ 31) : toInt32 x = (x.toNat : Int) := by
  rw [toInt32_eq]
  split <;> omega

/-- A non-negative `int` goes back to the word it came from exactly below `2 ^ 31`. -/
lemma ofInt_toInt32_eq_iff (x : BitVec 64) (h : 0 ≤ toInt32 x) :
    BitVec.ofInt 64 (toInt32 x) = x ↔ x.toNat < 2 ^ 31 := by
  rw [toInt32_eq] at h ⊢
  have hx := x.isLt
  split at h
  · rename_i hlow
    rw [if_pos hlow, ← BitVec.toNat_inj, BitVec.toNat_ofInt]
    omega
  · omega

lemma toNat_roundUp (x : BitVec 64) :
    (roundUp 12 x).toNat = if x.toNat ≤ 2 ^ 64 - 4096 then (x.toNat + 4095) / 4096 * 4096 else 0 := by
  have hx := x.isLt
  have hsum : (x + (1#64 <<< 12) - 1#64).toNat = (x.toNat + 4095) % 2 ^ 64 := by
    simp only [BitVec.toNat_sub, BitVec.toNat_add, BitVec.toNat_shiftLeft, BitVec.toNat_ofNat]
    omega
  unfold roundUp
  rw [toNat_shiftLeft_mul, toNat_shiftRight_div, hsum]
  split <;> omega

lemma dvd_toNat_roundUp (x : BitVec 64) : 4096 ∣ (roundUp 12 x).toNat := by
  rw [toNat_roundUp]
  split
  · exact Nat.dvd_mul_left _ _
  · exact Nat.dvd_zero _

/-! ### Address ranges -/

/-- The `len` addresses from `base` on, around the end of the address space. -/
def span {w : Nat} (base : BitVec w) (len : Nat) : Set (BitVec w) :=
  {x | (x - base).toNat < len}

lemma sub_add_eq {w : Nat} (x base offset : BitVec w) :
    x - (base + offset) = x - base - offset := by
  rw [BitVec.sub_eq_add_neg, BitVec.sub_eq_add_neg, BitVec.sub_eq_add_neg, BitVec.neg_add,
    BitVec.sub_eq_add_neg, BitVec.add_assoc]

/-- Two bases moved by one offset: the distance from the one counts from the other. -/
lemma add_offset_sub {w : Nat} (phys base offset x : BitVec w) :
    phys + offset + (x - (base + offset)) = phys + (x - base) := by
  rw [sub_add_eq, BitVec.add_assoc, BitVec.add_comm offset, BitVec.sub_add_cancel]

/-- A part of a range by its distance from the base. -/
lemma mem_span_add {w : Nat} {base offset x : BitVec w} {len : Nat}
    (h : offset.toNat + len ≤ 2 ^ w) :
    x ∈ span (base + offset) len ↔
      offset.toNat ≤ (x - base).toNat ∧ (x - base).toNat < offset.toNat + len := by
  change (x - (base + offset)).toNat < len ↔ _
  rw [sub_add_eq]
  by_cases hle : offset.toNat ≤ (x - base).toNat
  · rw [BitVec.toNat_sub_of_le hle]
    omega
  · rw [BitVec.toNat_sub]
    have hd := (x - base).isLt
    rw [Nat.mod_eq_of_lt (by omega)]
    omega

lemma span_add_subset {w : Nat} {base offset : BitVec w} {len all : Nat}
    (h : offset.toNat + len ≤ 2 ^ w) (hall : offset.toNat + len ≤ all) :
    span (base + offset) len ⊆ span base all := by
  intro x hx
  obtain ⟨-, hlt⟩ := (mem_span_add h).mp hx
  exact hlt.trans_le hall

/-- A part that is not empty is inside exactly when it ends there. -/
lemma span_add_subset_iff {w : Nat} {base offset : BitVec w} {len all : Nat} (hpos : 0 < len)
    (h : offset.toNat + len ≤ 2 ^ w) :
    span (base + offset) len ⊆ span base all ↔ offset.toNat + len ≤ all := by
  constructor
  · intro hsub
    have hdist : (base + offset + BitVec.ofNat w (len - 1) - base).toNat =
        offset.toNat + (len - 1) := by
      rw [BitVec.add_assoc, BitVec.add_comm base, BitVec.add_sub_cancel, BitVec.toNat_add,
        BitVec.toNat_ofNat,
        Nat.mod_eq_of_lt (by omega : len - 1 < 2 ^ w), Nat.mod_eq_of_lt (by omega)]
    have hlast : base + offset + BitVec.ofNat w (len - 1) ∈ span (base + offset) len := by
      rw [mem_span_add h, hdist]
      omega
    have hin : (base + offset + BitVec.ofNat w (len - 1) - base).toNat < all := hsub hlast
    rw [hdist] at hin
    omega
  · exact span_add_subset h

/-- Parts of a range that do not overlap around its base do not overlap at all. -/
lemma disjoint_span_add {w : Nat} {base offset later : BitVec w} {len : Nat}
    (h : offset.toNat + len ≤ later.toNat) (hend : later.toNat + len ≤ 2 ^ w) :
    Disjoint (span (base + offset) len) (span (base + later) len) := by
  rw [Set.disjoint_left]
  intro x hx hy
  obtain ⟨-, hlt⟩ := (mem_span_add (by omega)).mp hx
  obtain ⟨hge, -⟩ := (mem_span_add hend).mp hy
  omega

/-! ### Flags -/

lemma or_and_self {w : Nat} (x y : BitVec w) : (x ||| y) &&& y = y := by
  ext i hi
  cases hy : y[i] <;> simp [hy]

lemma or_and_not {w : Nat} (x y : BitVec w) : (x ||| y) &&& ~~~y = x &&& ~~~y := by
  ext i hi
  cases hy : y[i] <;> simp [hy]

/-- Bits that were clear are clear again after they were set and cleared. -/
lemma or_and_not_of_clear {w : Nat} {x y : BitVec w} (h : x &&& y = 0) :
    (x ||| y) &&& ~~~y = x := by
  rw [or_and_not]
  ext i hi
  have hbit : x[i] = true → y[i] = false := by
    have hget := congrArg (fun z : BitVec w => z[i]) h
    simpa using hget
  cases hx : x[i] with
  | false => simp [hx]
  | true => simp [hx, hbit hx]

end Word
