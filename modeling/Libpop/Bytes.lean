import Mathlib.Algebra.Group.Nat.Defs
import Mathlib.Tactic.Lemma

/-!
# Byte memories

A memory is a function from addresses to bytes. What is written at an address is read back
from it, and everything outside the written bytes stays. Words are stored in either order.
-/

namespace Bytes

abbrev Mem := Nat → BitVec 8

def write (m : Mem) (addr : Nat) (bytes : List (BitVec 8)) : Mem :=
  fun i => if addr ≤ i then (bytes[i - addr]?).getD (m i) else m i

/-- `memset`. -/
def set (m : Mem) (addr len : Nat) (value : BitVec 8) : Mem :=
  fun i => if addr ≤ i ∧ i < addr + len then value else m i

/-- `memcpy` between two memories. -/
def copy (dst : Mem) (addr : Nat) (src : Mem) (start len : Nat) : Mem :=
  fun i => if addr ≤ i ∧ i < addr + len then src (start + (i - addr)) else dst i

/-- The bytes of a 16-bit word in network order. -/
def be16 (x : BitVec 16) : List (BitVec 8) :=
  [x.extractLsb' 8 8, x.extractLsb' 0 8]

/-- The bytes of a 16-bit word in the order of a little-endian host. -/
def le16 (x : BitVec 16) : List (BitVec 8) :=
  [x.extractLsb' 0 8, x.extractLsb' 8 8]

def le32 (x : BitVec 32) : List (BitVec 8) :=
  [x.extractLsb' 0 8, x.extractLsb' 8 8, x.extractLsb' 16 8, x.extractLsb' 24 8]

/-- The 32-bit word at an address of a little-endian host. -/
def get32 (m : Mem) (addr : Nat) : BitVec 32 :=
  BitVec.ofNat 32 ((m addr).toNat + (m (addr + 1)).toNat * 2 ^ 8 + (m (addr + 2)).toNat * 2 ^ 16 +
    (m (addr + 3)).toNat * 2 ^ 24)

def get16 (m : Mem) (addr : Nat) : BitVec 16 :=
  m (addr + 1) ++ m addr

/-- `htons` and `ntohs` on a little-endian host. -/
def swap16 (x : BitVec 16) : BitVec 16 :=
  x.extractLsb' 0 8 ++ x.extractLsb' 8 8

/-- The 16-bit number in network order at an address. -/
def getBe16 (m : Mem) (addr : Nat) : Nat :=
  (m addr).toNat * 256 + (m (addr + 1)).toNat

def Stored (m : Mem) (addr : Nat) (bytes : List (BitVec 8)) : Prop :=
  ∀ k, (h : k < bytes.length) → m (addr + k) = bytes[k]

variable {m : Mem} {addr i : Nat} {bytes : List (BitVec 8)}

lemma write_outside (h : i < addr ∨ addr + bytes.length ≤ i) : write m addr bytes i = m i := by
  unfold write
  by_cases hle : addr ≤ i
  · rw [if_pos hle, List.getElem?_eq_none (by omega), Option.getD_none]
  · rw [if_neg hle]

lemma write_inside {k : Nat} (h : k < bytes.length) : write m addr bytes (addr + k) = bytes[k] := by
  unfold write
  rw [if_pos (Nat.le_add_right _ _), Nat.add_sub_cancel_left, List.getElem?_eq_getElem h,
    Option.getD_some]

lemma stored_write : Stored (write m addr bytes) addr bytes :=
  fun _ h => write_inside h

lemma Stored.head {b : BitVec 8} (h : Stored m addr (b :: bytes)) : m addr = b :=
  h 0 (Nat.succ_pos _)

lemma Stored.tail {b : BitVec 8} (h : Stored m addr (b :: bytes)) : Stored m (addr + 1) bytes := by
  intro k hk
  rw [Nat.add_assoc, Nat.add_comm 1 k]
  exact h (k + 1) (Nat.succ_lt_succ hk)

lemma set_outside {len : Nat} {value : BitVec 8} (h : i < addr ∨ addr + len ≤ i) :
    set m addr len value i = m i := by
  unfold set
  rw [if_neg (by omega)]

lemma set_inside {len k : Nat} {value : BitVec 8} (h : k < len) :
    set m addr len value (addr + k) = value := by
  unfold set
  rw [if_pos (by omega)]

lemma copy_inside {src : Mem} {start len k : Nat} (h : k < len) :
    copy m addr src start len (addr + k) = src (start + k) := by
  unfold copy
  rw [if_pos (by omega), Nat.add_sub_cancel_left]

lemma copy_outside {src : Mem} {start len : Nat} (h : i < addr ∨ addr + len ≤ i) :
    copy m addr src start len i = m i := by
  unfold copy
  rw [if_neg (by omega)]

/-- Fields written one after the other at their offsets from an address leave every other byte. -/
lemma foldl_write_outside {fields : List (Nat × List (BitVec 8))} {buf : Nat} (m : Mem)
    (h : ∀ f ∈ fields, i < buf + f.1 ∨ buf + f.1 + f.2.length ≤ i) :
    fields.foldl (fun m f => write m (buf + f.1) f.2) m i = m i := by
  induction fields generalizing m with
  | nil => rfl
  | cons f fields ih =>
    rw [List.foldl_cons, ih _ fun f' hf' => h f' (List.mem_cons_of_mem f hf')]
    exact write_outside (h f List.mem_cons_self)

/-- A byte of a field that no later one covers is read back. -/
lemma foldl_write_inside {before after : List (Nat × List (BitVec 8))} {buf offset k : Nat}
    (m : Mem) (hk : k < bytes.length)
    (h : ∀ f ∈ after, offset + k < f.1 ∨ f.1 + f.2.length ≤ offset + k) :
    (before ++ (offset, bytes) :: after).foldl (fun m f => write m (buf + f.1) f.2) m (buf + (offset + k)) =
      bytes[k] := by
  rw [List.foldl_append, List.foldl_cons, foldl_write_outside]
  · rw [← Nat.add_assoc]
    exact write_inside hk
  · intro f hf
    have hout := h f hf
    omega

/-- What is written at an offset does not depend on where the buffer lies. -/
lemma write_shift {m' : Mem} {buf buf' n : Nat} (h : ∀ i < n, m (buf + i) = m' (buf' + i))
    (offset : Nat) (bytes : List (BitVec 8)) :
    ∀ i < n, write m (buf + offset) bytes (buf + i) =
      write m' (buf' + offset) bytes (buf' + i) := by
  intro i hi
  unfold write
  rw [h i hi]
  by_cases hle : offset ≤ i
  · rw [if_pos (by omega), if_pos (by omega), Nat.add_sub_add_left, Nat.add_sub_add_left]
  · rw [if_neg (by omega), if_neg (by omega)]

lemma foldl_write_shift {m m' : Mem} {buf buf' n : Nat} (h : ∀ i < n, m (buf + i) = m' (buf' + i))
    (fields : List (Nat × List (BitVec 8))) :
    ∀ i < n, fields.foldl (fun m f => write m (buf + f.1) f.2) m (buf + i) =
      fields.foldl (fun m f => write m (buf' + f.1) f.2) m' (buf' + i) := by
  induction fields generalizing m m' with
  | nil => exact h
  | cons f fields ih => exact ih (write_shift h f.1 f.2)

/-! ### Words -/

lemma le16_swap16 (x : BitVec 16) : le16 (swap16 x) = be16 x := by
  have hlow : (swap16 x).extractLsb' 0 8 = x.extractLsb' 8 8 := BitVec.extractLsb'_append_eq_right
  have hhigh : (swap16 x).extractLsb' 8 8 = x.extractLsb' 0 8 := BitVec.extractLsb'_append_eq_left
  unfold le16 be16
  rw [hlow, hhigh]

/-- Reading in host order and swapping is reading in network order. -/
lemma toNat_swap16_get16 (m : Mem) (addr : Nat) :
    (swap16 (get16 m addr)).toNat = getBe16 m addr := by
  have hlow : (get16 m addr).extractLsb' 0 8 = m addr := BitVec.extractLsb'_append_eq_right
  have hhigh : (get16 m addr).extractLsb' 8 8 = m (addr + 1) := BitVec.extractLsb'_append_eq_left
  unfold swap16 getBe16
  rw [hlow, hhigh, BitVec.toNat_append, ← Nat.shiftLeft_add_eq_or_of_lt (m (addr + 1)).isLt,
    Nat.shiftLeft_eq]

lemma getBe16_of_be16 {x : BitVec 16} (h0 : m addr = x.extractLsb' 8 8)
    (h1 : m (addr + 1) = x.extractLsb' 0 8) : getBe16 m addr = x.toNat := by
  have hx := x.isLt
  unfold getBe16
  rw [h0, h1]
  simp only [BitVec.extractLsb'_toNat, Nat.shiftRight_eq_div_pow]
  omega

/-- A word is made of the four bytes at its address. -/
lemma get32_congr {m' : Mem} {addr' : Nat} (h : ∀ k < 4, m' (addr' + k) = m (addr + k)) :
    get32 m' addr' = get32 m addr := by
  unfold get32
  rw [h 3 (by decide), h 2 (by decide), h 1 (by decide)]
  have h0 := h 0 (by decide)
  rw [Nat.add_zero, Nat.add_zero] at h0
  rw [h0]

lemma get32_write_le32 (x : BitVec 32) : get32 (write m addr (le32 x)) addr = x := by
  have hlen : (le32 x).length = 4 := rfl
  have h0 : write m addr (le32 x) addr = x.extractLsb' 0 8 :=
    write_inside (hlen ▸ (by decide : 0 < 4))
  have h1 : write m addr (le32 x) (addr + 1) = x.extractLsb' 8 8 :=
    write_inside (hlen ▸ (by decide : 1 < 4))
  have h2 : write m addr (le32 x) (addr + 2) = x.extractLsb' 16 8 :=
    write_inside (hlen ▸ (by decide : 2 < 4))
  have h3 : write m addr (le32 x) (addr + 3) = x.extractLsb' 24 8 :=
    write_inside (hlen ▸ (by decide : 3 < 4))
  have hx := x.isLt
  apply BitVec.eq_of_toNat_eq
  unfold get32
  rw [h0, h1, h2, h3, BitVec.toNat_ofNat]
  simp only [BitVec.extractLsb'_toNat, Nat.shiftRight_eq_div_pow]
  omega

end Bytes
