import Mathlib.Tactic.IntervalCases
import Libpop.Scan

/-!
# Formatted output

The hexadecimal and decimal conversions of `printf`, and that the scanner reads back what
they print: a printed number is a non-empty run of digits, so a conversion takes all of it
and stops at the first character that is neither a digit nor the `x` of a leading `0x`.
-/

namespace Print

open Scan

/-- The conversion `%x`. -/
def hex (n : Nat) : List Char :=
  Nat.toDigits 16 n

/-- The conversion `%d` of a number that is not negative. -/
def dec (n : Nat) : List Char :=
  Nat.toDigits 10 n

/-- The conversion `%0<width>x`; the width is a minimum. -/
def hexPad (width n : Nat) : List Char :=
  List.replicate (width - (hex n).length) '0' ++ hex n

/-- What `snprintf` leaves of a text in a buffer of `size` bytes, before the terminator. -/
def snprintf (size : Nat) (text : List Char) : List Char :=
  text.take (size - 1)

lemma snprintf_of_length_lt {size : Nat} {text : List Char} (h : text.length < size) :
    snprintf size text = text :=
  List.take_of_length_le (by omega)

@[simp] lemma hexPad_zero (n : Nat) : hexPad 0 n = hex n := by
  simp [hexPad]

lemma dec_eq_hex {n : Nat} (h : n < 10) : dec n = hex n := by
  rw [dec, hex, Nat.toDigits_of_lt_base h, Nat.toDigits_of_lt_base (by omega)]

lemma length_hex_le {n k : Nat} (hk : 0 < k) (h : n < 16 ^ k) : (hex n).length ≤ k :=
  (Nat.length_toDigits_le_iff (by decide) hk).mpr h

lemma length_hexPad_le {width n k : Nat} (hk : 0 < k) (hw : width ≤ k) (h : n < 16 ^ k) :
    (hexPad width n).length ≤ k := by
  have hl := length_hex_le hk h
  rw [hexPad, List.length_append, List.length_replicate]
  omega

lemma hexValue_digitChar {d : Nat} (h : d < 16) : hexValue d.digitChar = some d := by
  interval_cases d <;> rfl

/-- What may stand behind a printed number without being read as part of it. -/
def Stops (rest : List Char) : Prop :=
  ∀ c ∈ rest.head?, hexValue c = none ∧ c ≠ 'x' ∧ c ≠ 'X'

lemma stops_nil : Stops [] := by
  simp [Stops]

lemma stops_colon (rest : List Char) : Stops (':' :: rest) := by
  simp only [Stops, List.head?_cons, Option.mem_some_iff, forall_eq']
  decide

lemma stops_dot (rest : List Char) : Stops ('.' :: rest) := by
  simp only [Stops, List.head?_cons, Option.mem_some_iff, forall_eq']
  decide

lemma hexRun_of_stops {acc : Nat} {rest : List Char} (h : Stops rest) :
    hexRun acc rest = (acc, rest) := by
  cases rest with
  | nil => rfl
  | cons c cs => rw [hexRun, (h c rfl).1]

lemma hexRun_hex (n : Nat) (rest : List Char) : hexRun 0 (hex n ++ rest) = hexRun n rest := by
  -- the digits before the last are those of `n / 16`
  induction n using Nat.strongRecOn generalizing rest with
  | ind n ih =>
    by_cases hn : n < 16
    · rw [hex, Nat.toDigits_of_lt_base hn, List.singleton_append, hexRun, hexValue_digitChar hn]
      simp
    · have hd := ih (n / 16) (by omega) ((n % 16).digitChar :: rest)
      rw [hex, Nat.toDigits_of_base_le (by decide) (by omega), List.append_assoc,
        List.singleton_append, ← hex, hd, hexRun, hexValue_digitChar (by omega)]
      simp only [Nat.div_add_mod]

lemma hexRun_hexPad (width n : Nat) (rest : List Char) :
    hexRun 0 (hexPad width n ++ rest) = hexRun n rest := by
  have hz : ∀ k text, hexRun 0 (List.replicate k '0' ++ text) = hexRun 0 text := by
    intro k text
    induction k with
    | zero => rfl
    | succ k ih => exact ih
  rw [hexPad, List.append_assoc, hz, hexRun_hex]

lemma mem_hex_isSome {n : Nat} {c : Char} (h : c ∈ hex n) : (hexValue c).isSome := by
  induction n using Nat.strongRecOn with
  | ind n ih =>
    by_cases hn : n < 16
    · rw [hex, Nat.toDigits_of_lt_base hn, List.mem_singleton] at h
      rw [h, hexValue_digitChar hn, Option.isSome_some]
    · rw [hex, Nat.toDigits_of_base_le (by decide) (by omega), List.mem_append,
        List.mem_singleton] at h
      rcases h with h | h
      · exact ih (n / 16) (by omega) h
      · rw [h, hexValue_digitChar (by omega), Option.isSome_some]

lemma mem_hexPad_isSome {width n : Nat} {c : Char} (h : c ∈ hexPad width n) :
    (hexValue c).isSome := by
  rw [hexPad, List.mem_append] at h
  rcases h with h | h
  · rw [List.eq_of_mem_replicate h]
    rfl
  · exact mem_hex_isSome h

lemma hexPad_ne_nil (width n : Nat) : hexPad width n ≠ [] :=
  List.append_ne_nil_of_right_ne_nil _ Nat.toDigits_ne_nil

lemma isspace_of_hexValue {c : Char} (h : (hexValue c).isSome) : isspace c = false := by
  unfold isspace
  rw [decide_eq_false_iff_not]
  rintro (rfl | ⟨-, hc⟩)
  · exact absurd h (by decide)
  · -- every digit comes after the last blank
    have hlow : ¬('0' ≤ c) := fun h0 => absurd (Char.le_trans h0 hc) (by decide)
    have ha : ¬('a' ≤ c) := fun h0 => absurd (Char.le_trans h0 hc) (by decide)
    have hA : ¬('A' ≤ c) := fun h0 => absurd (Char.le_trans h0 hc) (by decide)
    simp [hexValue, hlow, ha, hA] at h

lemma ne_x_of_hexValue {c : Char} (h : (hexValue c).isSome) : c ≠ 'x' ∧ c ≠ 'X' := by
  constructor <;> rintro rfl <;> exact absurd h (by decide)

lemma ne_sign_of_hexValue {c : Char} (h : (hexValue c).isSome) : c ≠ '-' ∧ c ≠ '+' := by
  constructor <;> rintro rfl <;> exact absurd h (by decide)

/-- A run of digits is read from its start, whatever the digits are. -/
lemma scanHex_of_digits {c : Char} {cs rest : List Char} (hd : ∀ d ∈ c :: cs, (hexValue d).isSome)
    (hr : Stops rest) : scanHex (c :: cs ++ rest) = some (hexRun 0 (c :: cs ++ rest)) := by
  -- the second character decides whether the text could start with `0x`
  have hx : ∀ x ∈ (cs ++ rest).head?, x ≠ 'x' ∧ x ≠ 'X' := by
    intro x hx
    cases cs with
    | nil => exact (hr x hx).2
    | cons c' cs =>
      rw [List.cons_append, List.head?_cons, Option.mem_some_iff] at hx
      exact hx ▸ ne_x_of_hexValue (hd c' (by simp))
  rw [List.cons_append]
  generalize cs ++ rest = text at hx
  unfold scanHex
  split
  · contradiction
  · next x cs' heq =>
    obtain ⟨rfl, rfl⟩ := List.cons.inj heq
    have hx' := hx x rfl
    rw [if_neg (by simp [hx'.1, hx'.2])]
  · next heq =>
    obtain ⟨rfl, rfl⟩ := List.cons.inj heq
    rw [if_pos (hd _ List.mem_cons_self)]

/-- A printed number starts with a digit, which is neither a blank nor a sign, and is read back. -/
lemma hexPad_eq_cons (width n : Nat) : ∃ c cs, hexPad width n = c :: cs ∧ (hexValue c).isSome ∧
    ∀ rest, Stops rest → scanHex (c :: cs ++ rest) = some (n, rest) := by
  obtain ⟨c, cs, hcs⟩ := List.exists_cons_of_ne_nil (hexPad_ne_nil width n)
  have hdigits : ∀ d ∈ c :: cs, (hexValue d).isSome := by
    intro d hd
    exact mem_hexPad_isSome (hcs ▸ hd)
  refine ⟨c, cs, hcs, hdigits c List.mem_cons_self, fun rest h => ?_⟩
  rw [scanHex_of_digits hdigits h, ← hcs, hexRun_hexPad, hexRun_of_stops h]

/-- The kernel's scanner reads back a number that was printed with any width. -/
lemma kernelHex_hexPad (width n : Nat) {rest : List Char} (h : Stops rest) :
    kernelHex (hexPad width n ++ rest) = some (n, rest) := by
  obtain ⟨c, cs, hcs, hdigit, hscan⟩ := hexPad_eq_cons width n
  rw [kernelHex, hcs, List.cons_append, List.dropWhile_cons_of_neg (by simp [isspace_of_hexValue hdigit]),
    ← List.cons_append, hscan rest h]

/-- So does that of the C library, unless the number is too large for it. -/
lemma scanUl_hexPad (width : Nat) {n : Nat} (hn : n < 2 ^ 64) {rest : List Char} (h : Stops rest) :
    scanUl (hexPad width n ++ rest) = some (BitVec.ofNat 64 n, rest) := by
  obtain ⟨c, cs, hcs, hdigit, hscan⟩ := hexPad_eq_cons width n
  obtain ⟨hminus, hplus⟩ := ne_sign_of_hexValue hdigit
  have hvalue : strtoul false n = BitVec.ofNat 64 n := by
    rw [strtoul, if_pos hn, if_neg (by decide)]
  rw [scanUl, hcs, List.cons_append, List.dropWhile_cons_of_neg (by simp [isspace_of_hexValue hdigit])]
  split
  · next heq => exact absurd (List.cons.inj heq).1 hminus
  · next heq => exact absurd (List.cons.inj heq).1 hplus
  · rw [← List.cons_append, hscan rest h, Option.map_some, Prod.map_apply, hvalue, id]

end Print
