import Mathlib.Algebra.BigOperators.Group.List.Lemmas
import Mathlib.Algebra.Group.Even
import Libpop.Nmgen
import Libpop.OnesComplement
import Libpop.Word

/-!
# The checksum of nmgen

The conditional subtraction of `checksum` is an end-around carry as long as the accumulator is a
16-bit word, and every step leaves it one. The result is the ones' complement sum of the words
of the data, with an odd last byte padded on the right, so it can be taken in parts of whole
words and in any order of the words.
-/

namespace Libpop.Proofs
open Bytes Nmgen

/-- The 16-bit words in network order from an address on. -/
def beWords (m : Mem) (addr n : Nat) : List Nat :=
  (List.range n).map fun k => getBe16 m (addr + 2 * k)

lemma getBe16_le (m : Mem) (addr : Nat) : getBe16 m addr ≤ 65535 := by
  have h0 := (m addr).isLt
  have h1 := (m (addr + 1)).isLt
  unfold getBe16
  omega

lemma beWords_le (m : Mem) (addr n : Nat) : ∀ w ∈ beWords m addr n, w ≤ 65535 := by
  intro w hw
  obtain ⟨k, -, rfl⟩ := List.mem_map.mp hw
  exact getBe16_le m _

/-! ### The sum -/

lemma toNat_checksumAdd {sum word : BitVec 32} (hs : sum.toNat ≤ 65535) (hw : word.toNat ≤ 65535) :
    (checksumAdd sum word).toNat = OnesComplement.add 65535 sum.toNat word.toNat := by
  have hlit : (0xFFFF : BitVec 32).toNat = 65535 := rfl
  have hadd : (sum + word).toNat = sum.toNat + word.toNat := by
    rw [BitVec.toNat_add]
    omega
  unfold checksumAdd OnesComplement.add
  by_cases hgt : sum + word > 0xFFFF
  · have hgt' : sum.toNat + word.toNat > 65535 := by
      rwa [gt_iff_lt, BitVec.lt_def, hlit, hadd] at hgt
    rw [if_pos hgt, if_pos hgt', BitVec.toNat_sub_of_le (BitVec.le_of_lt hgt), hadd, hlit]
  · have hgt' : ¬sum.toNat + word.toNat > 65535 := by
      rwa [gt_iff_lt, BitVec.lt_def, hlit, hadd] at hgt
    rw [if_neg hgt, if_neg hgt', hadd]

lemma toNat_checksumWords (m : Mem) (addr : Nat) {sum : BitVec 32} (hs : sum.toNat ≤ 65535)
    (n : Nat) :
    (checksumWords m addr sum n).toNat = OnesComplement.sum 65535 sum.toNat (beWords m addr n) := by
  induction n with
  | zero => rfl
  | succ n ih =>
    have hword : ((swap16 (get16 m (addr + 2 * n))).setWidth 32).toNat =
        getBe16 m (addr + 2 * n) := by
      rw [BitVec.toNat_setWidth_of_le (by decide), toNat_swap16_get16]
    have hle := OnesComplement.sum_le hs (beWords_le m addr n)
    have hlist : beWords m addr (n + 1) = beWords m addr n ++ [getBe16 m (addr + 2 * n)] := by
      unfold beWords
      rw [List.range_succ, List.map_append]
      rfl
    rw [checksumWords, toNat_checksumAdd (ih ▸ hle) (hword ▸ getBe16_le m _), ih, hword, hlist]
    rw [OnesComplement.sum_append]
    rfl

/-- The step of `checksum` behind its loop. -/
def checksumTail (m : Mem) (data : Nat) (len : BitVec 16) (sum : BitVec 32) : BitVec 32 :=
  if (len &&& ~~~1#16).toNat < len.toNat then
    checksumAdd sum ((m (data + (len &&& ~~~1#16).toNat)).setWidth 32 <<< 8)
  else sum

/-- The accumulator that `checksum` returns as a 16-bit word. -/
def checksumSum (m : Mem) (data : Nat) (len : BitVec 16) (sum : BitVec 32) : BitVec 32 :=
  checksumTail m data len (checksumWords m data sum (len.toNat / 2))

lemma checksum_eq (m : Mem) (data : Nat) (len : BitVec 16) (sum : BitVec 32) :
    checksum m data len sum = (checksumSum m data len sum).setWidth 16 := by
  have hwords : (len &&& ~~~1#16).toNat / 2 = len.toNat / 2 := by
    rw [Word.toNat_and_not_one]
    omega
  unfold checksum checksumSum checksumTail
  rw [← hwords]

/-- The word of an odd last byte. -/
def lastWord (m : Mem) (addr n : Nat) : List Nat :=
  if n % 2 = 1 then [(m (addr + (n - 1))).toNat * 256] else []

lemma lastWord_le (m : Mem) (addr n : Nat) : ∀ w ∈ lastWord m addr n, w ≤ 65535 := by
  intro w hw
  unfold lastWord at hw
  split at hw
  · have hlt := (m (addr + (n - 1))).isLt
    rw [List.mem_singleton.mp hw]
    omega
  · cases hw

lemma toNat_checksumTail (m : Mem) (data : Nat) (len : BitVec 16) {sum : BitVec 32}
    (hs : sum.toNat ≤ 65535) :
    (checksumTail m data len sum).toNat =
      OnesComplement.sum 65535 sum.toNat (lastWord m data len.toNat) := by
  have hbyte : ∀ b : BitVec 8, (b.setWidth 32 <<< 8).toNat = b.toNat * 256 := by
    intro b
    have hlt := b.isLt
    rw [Word.toNat_shiftLeft_mul, BitVec.toNat_setWidth_of_le (by decide)]
    omega
  unfold checksumTail lastWord
  rw [Word.toNat_and_not_one]
  by_cases hodd : len.toNat % 2 = 1
  · have hlt := (m (data + (len.toNat - 1))).isLt
    rw [if_pos (by omega), if_pos hodd, hodd, toNat_checksumAdd hs (by rw [hbyte]; omega), hbyte]
    rfl
  · rw [if_neg (by omega), if_neg hodd]
    rfl

lemma toNat_checksumSum (m : Mem) (data : Nat) (len : BitVec 16) {sum : BitVec 32}
    (hs : sum.toNat ≤ 65535) :
    (checksumSum m data len sum).toNat =
      OnesComplement.sum 65535 sum.toNat (beWords m data (len.toNat / 2) ++ lastWord m data len.toNat) := by
  have hwords := toNat_checksumWords m data hs (len.toNat / 2)
  have hle := OnesComplement.sum_le hs (beWords_le m data (len.toNat / 2))
  unfold checksumSum
  rw [toNat_checksumTail m data len (hwords ▸ hle), hwords, OnesComplement.sum_append]

lemma words_le (m : Mem) (data n : Nat) :
    ∀ w ∈ beWords m data (n / 2) ++ lastWord m data n, w ≤ 65535 := by
  intro w hw
  rcases List.mem_append.mp hw with hword | hlast
  · exact beWords_le m data _ w hword
  · exact lastWord_le m data n w hlast

theorem toNat_checksum (m : Mem) (data : Nat) (len : BitVec 16) {sum : BitVec 32}
    (hs : sum.toNat ≤ 65535) :
    (checksum m data len sum).toNat =
      OnesComplement.sum 65535 sum.toNat (beWords m data (len.toNat / 2) ++ lastWord m data len.toNat) := by
  have hle := OnesComplement.sum_le hs (words_le m data len.toNat)
  rw [checksum_eq, BitVec.toNat_setWidth, toNat_checksumSum m data len hs]
  exact Nat.mod_eq_of_lt (by omega)

/-! ### Byte strings -/

/-- The 16-bit words of a byte string in network order. -/
def wordsOf : List (BitVec 8) → List Nat
  | [] => []
  | [b] => [b.toNat * 256]
  | a :: b :: bytes => (a.toNat * 256 + b.toNat) :: wordsOf bytes

lemma wordsOf_append {a : List (BitVec 8)} (b : List (BitVec 8)) (h : Even a.length) :
    wordsOf (a ++ b) = wordsOf a ++ wordsOf b := by
  induction a using wordsOf.induct with
  | case1 => rfl
  | case2 x => simp at h
  | case3 x y bytes ih =>
    have hrest : Even bytes.length := by
      rw [List.length_cons, List.length_cons, Nat.even_iff] at h
      rw [Nat.even_iff]
      omega
    exact congrArg ((x.toNat * 256 + y.toNat) :: ·) (ih hrest)

lemma beWords_succ (m : Mem) (addr n : Nat) :
    beWords m addr (n + 1) = getBe16 m addr :: beWords m (addr + 2) n := by
  unfold beWords
  rw [List.range_succ_eq_map, List.map_cons, List.map_map]
  refine congrArg (getBe16 m addr :: ·) (List.map_congr_left ?_)
  intro k _
  exact congrArg (getBe16 m) (by omega)

lemma lastWord_add_two (m : Mem) (addr : Nat) {n : Nat} :
    lastWord m addr (n + 2) = lastWord m (addr + 2) n := by
  unfold lastWord
  rw [Nat.add_mod_right]
  split
  · have haddr : addr + (n + 2 - 1) = addr + 2 + (n - 1) := by omega
    rw [haddr]
  · rfl

/-- The words that are added are those of the bytes. -/
lemma wordsOf_of_stored {m : Mem} {data : Nat} {bytes : List (BitVec 8)} (h : Stored m data bytes) :
    beWords m data (bytes.length / 2) ++ lastWord m data bytes.length = wordsOf bytes := by
  induction bytes using wordsOf.induct generalizing data with
  | case1 => rfl
  | case2 b =>
    have hb := h.head
    simp [beWords, lastWord, wordsOf, hb]
  | case3 a b bytes ih =>
    have hlen : (a :: b :: bytes).length = bytes.length + 2 := rfl
    have hword : getBe16 m data = a.toNat * 256 + b.toNat := by
      unfold getBe16
      rw [h.head, h.tail.head]
    rw [hlen, Nat.add_div_right _ (by decide), beWords_succ, lastWord_add_two, List.cons_append,
      ih h.tail.tail, hword]
    rfl

/-- The checksum of bytes that are stored at an address. -/
def checksumOf (m : Mem) (data : Nat) (bytes : List (BitVec 8)) (sum : BitVec 32) : BitVec 16 :=
  checksum m data (BitVec.ofNat 16 bytes.length) sum

section Stored

variable {m : Mem} {data : Nat} {bytes : List (BitVec 8)} {sum : BitVec 32}
  (hlen : bytes.length ≤ 65535) (hm : Stored m data bytes)

include hlen in
lemma toNat_ofNat_length : (BitVec.ofNat 16 bytes.length).toNat = bytes.length := by
  rw [BitVec.toNat_ofNat]
  exact Nat.mod_eq_of_lt (by omega)

include hm in
lemma wordsOf_le : ∀ w ∈ wordsOf bytes, w ≤ 65535 := by
  rw [← wordsOf_of_stored hm]
  exact words_le m data _

include hlen hm in
lemma toNat_checksumOf (hs : sum.toNat ≤ 65535) :
    (checksumOf m data bytes sum).toNat = OnesComplement.sum 65535 sum.toNat (wordsOf bytes) := by
  unfold checksumOf
  rw [toNat_checksum m data _ hs, toNat_ofNat_length hlen, wordsOf_of_stored hm]

end Stored

/-- The accumulator is a 16-bit word after each step, and the result is the ones' complement sum. -/
structure ChecksumSums (m : Mem) (data : Nat) (bytes : List (BitVec 8))
    (sum : BitVec 32) : Prop where
  loop_le : ∀ n ≤ bytes.length / 2, (checksumWords m data sum n).toNat ≤ 0xFFFF
  tail_le : (checksumSum m data (BitVec.ofNat 16 bytes.length) sum).toNat ≤ 0xFFFF
  returned : checksumOf m data bytes sum = (checksumSum m data (BitVec.ofNat 16 bytes.length) sum).setWidth 16
  value : (checksumOf m data bytes sum).toNat = OnesComplement.sum 0xFFFF sum.toNat (wordsOf bytes)
  total : (checksumOf m data bytes sum).toNat ≡ sum.toNat + (wordsOf bytes).sum [MOD 65535]
  zero : checksumOf m data bytes sum = 0 ↔ sum = 0 ∧ ∀ w ∈ wordsOf bytes, w = 0

lemma checksum_ones_complement {m : Mem} {data : Nat} {bytes : List (BitVec 8)} {sum : BitVec 32}
    (hlen : bytes.length ≤ 65535) (hs : sum.toNat ≤ 0xFFFF) (hm : Stored m data bytes) :
    ChecksumSums m data bytes sum := by
  have hvalue := toNat_checksumOf hlen hm hs
  refine ⟨?_, ?_, checksum_eq m data _ sum, hvalue, ?_, ?_⟩
  · intro n _
    rw [toNat_checksumWords m data hs]
    exact OnesComplement.sum_le hs (beWords_le m data n)
  · rw [toNat_checksumSum m data _ hs]
    exact OnesComplement.sum_le hs (words_le m data _)
  · rw [hvalue]
    exact OnesComplement.sum_modEq _ _
  · have hzero : ∀ {w : Nat} (x : BitVec w), x = 0 ↔ x.toNat = 0 := fun x => BitVec.toNat_inj.symm
    rw [hzero, hzero sum, hvalue, OnesComplement.sum_eq_zero_iff, Nat.add_eq_zero_iff,
      List.sum_eq_zero_iff_forall_eq_nat]

/-- For every byte string whose length is a `uint16_t` and every 16-bit initial sum. The parts of the
string and the string with its words in another order may be stored anywhere. -/
theorem checksum_sums (m : Mem) (data : Nat) (bytes : List (BitVec 8)) (sum : BitVec 32)
    (hlen : bytes.length ≤ 65535) (hs : sum.toNat ≤ 0xFFFF) (hm : Stored m data bytes) :
    ChecksumSums m data bytes sum ∧
      (∀ a b, bytes = a ++ b → Even a.length → ∀ ma dataA mb dataB, Stored ma dataA a → Stored mb dataB b →
        checksumOf m data bytes sum =
          checksumOf mb dataB b ((checksumOf ma dataA a sum).setWidth 32)) ∧
      (∀ bytes' m' data', bytes'.length ≤ 65535 → Stored m' data' bytes' →
        (wordsOf bytes').Perm (wordsOf bytes) →
          checksumOf m' data' bytes' sum = checksumOf m data bytes sum) := by
  refine ⟨checksum_ones_complement hlen hs hm, ?_, ?_⟩
  · rintro a b rfl heven ma dataA mb dataB hma hmb
    rw [List.length_append] at hlen
    have hfirst := toNat_checksumOf (by omega) hma hs
    have hwide : ((checksumOf ma dataA a sum).setWidth 32).toNat =
        (checksumOf ma dataA a sum).toNat :=
      BitVec.toNat_setWidth_of_le (by decide)
    have hword := (checksumOf ma dataA a sum).isLt
    have hboth := toNat_checksumOf (List.length_append ▸ hlen) hm hs
    have hsecond := toNat_checksumOf (by omega) hmb (hwide.trans_le (Nat.le_of_lt_succ hword))
    apply BitVec.eq_of_toNat_eq
    rw [hboth, hsecond, hwide, hfirst, wordsOf_append b heven, OnesComplement.sum_append]
  · intro bytes' m' data' hlen' hm' hperm
    apply BitVec.eq_of_toNat_eq
    rw [toNat_checksumOf hlen' hm' hs, toNat_checksumOf hlen hm hs]
    apply OnesComplement.sum_congr hs (wordsOf_le hm') hs (wordsOf_le hm)
    rw [hperm.sum_eq]

theorem checksum_sums_of_three_bytes :
    checksumOf (write (fun _ => 0) 0 [0xff, 0xff, 0x01]) 0 [0xff, 0xff, 0x01] 1 = 0x101 ∧
      ChecksumSums (write (fun _ => 0) 0 [0xff, 0xff, 0x01]) 0 [0xff, 0xff, 0x01] 1 :=
  ⟨by decide +kernel, (checksum_sums _ 0 _ 1 (by decide) (by decide) stored_write).1⟩

end Libpop.Proofs
