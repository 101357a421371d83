import Mathlib.Tactic.Lemma
import Libpop.Print

/-!
# Command lines

What `getopt` hands to its caller, one option after the other, and the conversions that programs
apply to the arguments: `atoi`, the `%lx` of `sscanf` and comparisons with fixed words. A number
that was printed is read back.
-/

namespace CommandLine
open Scan Print

/-! ### Options -/

structure Opt where
  ch : Char
  arg : List Char

/-- The option loop of a program: it ends at the first option that is refused. -/
def parse {σ ε : Type*} (apply : σ → Opt → Except ε σ) : σ → List Opt → Except ε σ
  | c, [] => .ok c
  | c, o :: opts => match apply c o with
    | .error e => .error e
    | .ok c => parse apply c opts

section Parse

variable {σ ε : Type*} {apply : σ → Opt → Except ε σ} {c d : σ}

lemma parse_cons {o : Opt} (h : apply c o = .ok d) (opts : List Opt) :
    parse apply c (o :: opts) = parse apply d opts := by
  rw [parse, h]

/-- What every accepted option keeps holds when all are accepted. -/
theorem parse_invariant {P : σ → Prop} (hstep : ∀ c o d, P c → apply c o = .ok d → P d)
    {opts : List Opt} (hc : P c) (h : parse apply c opts = .ok d) : P d := by
  induction opts generalizing c with
  | nil =>
    cases h
    exact hc
  | cons o opts ih =>
    rw [parse] at h
    split at h
    · cases h
    · rename_i next hnext
      exact ih (hstep c o next hc hnext) h

end Parse

/-- `strncmp(arg, word, n) == 0`, for a word of at least `n` characters. -/
def startsWith (arg word : List Char) (n : Nat) : Bool :=
  arg.take n = word.take n

/-! ### Decimal numbers -/

def decValue (c : Char) : Option Nat :=
  if '0' ≤ c ∧ c ≤ '9' then some (c.toNat - '0'.toNat) else none

/-- The value of the longest run of digits, after `acc`. -/
def decRun (acc : Nat) : List Char → Nat
  | [] => acc
  | c :: cs => match decValue c with
    | some d => decRun (10 * acc + d) cs
    | none => acc

def signedDec : List Char → Int
  | '-' :: cs => -(decRun 0 cs : Int)
  | '+' :: cs => decRun 0 cs
  | cs => decRun 0 cs

/-- `strtol(text, NULL, 10)`, which saturates. -/
def strtol (text : List Char) : Int :=
  max (-2 ^ 63) (min (signedDec (text.dropWhile isspace)) (2 ^ 63 - 1))

/-- `atoi`, which is `strtol` cut off to an `int`. -/
def atoi (text : List Char) : BitVec 32 :=
  BitVec.ofInt 32 (strtol text)

/-- The conversion `%d`. -/
def printInt (n : BitVec 32) : List Char :=
  if n.toInt < 0 then '-' :: dec n.toInt.natAbs else dec n.toInt.natAbs

lemma decValue_digitChar {d : Nat} (h : d < 10) : decValue d.digitChar = some d := by
  interval_cases d <;> rfl

lemma decRun_dec_append (n : Nat) (rest : List Char) :
    decRun 0 (dec n ++ rest) = decRun n rest := by
  induction n using Nat.strongRecOn generalizing rest with
  | ind n ih =>
    by_cases hn : n < 10
    · rw [dec, Nat.toDigits_of_lt_base hn, List.singleton_append, decRun, decValue_digitChar hn]
      simp
    · have hd := ih (n / 10) (by omega) ((n % 10).digitChar :: rest)
      rw [dec, Nat.toDigits_of_base_le (by decide) (by omega), List.append_assoc,
        List.singleton_append, ← dec, hd, decRun, decValue_digitChar (by omega)]
      simp only [Nat.div_add_mod]

lemma decRun_dec (n : Nat) : decRun 0 (dec n) = n := by
  have h := decRun_dec_append n []
  rwa [List.append_nil] at h

/-- A printed number starts with a digit. -/
lemma dec_eq_cons (n : Nat) : ∃ d cs, d < 10 ∧ dec n = d.digitChar :: cs := by
  induction n using Nat.strongRecOn with
  | ind n ih =>
    by_cases hn : n < 10
    · exact ⟨n, [], hn, by rw [dec, Nat.toDigits_of_lt_base hn]⟩
    · obtain ⟨d, cs, hd, hcs⟩ := ih (n / 10) (by omega)
      refine ⟨d, cs ++ [(n % 10).digitChar], hd, ?_⟩
      rw [dec, Nat.toDigits_of_base_le (by decide) (by omega), ← dec, hcs, List.cons_append]

lemma digitChar_plain {d : Nat} (h : d < 10) :
    isspace d.digitChar = false ∧ d.digitChar ≠ '-' ∧ d.digitChar ≠ '+' := by
  interval_cases d <;> decide

lemma signedDec_dec (n : Nat) : signedDec (dec n) = n := by
  obtain ⟨d, cs, hd, hcs⟩ := dec_eq_cons n
  obtain ⟨-, hminus, hplus⟩ := digitChar_plain hd
  have hvalue := decRun_dec n
  rw [hcs] at hvalue ⊢
  unfold signedDec
  split
  · rename_i heq
    exact absurd (List.cons.inj heq).1 hminus
  · rename_i heq
    exact absurd (List.cons.inj heq).1 hplus
  · rw [hvalue]

lemma dropWhile_dec (n : Nat) : (dec n).dropWhile isspace = dec n := by
  obtain ⟨d, cs, hd, hcs⟩ := dec_eq_cons n
  rw [hcs, List.dropWhile_cons_of_neg (by simp [(digitChar_plain hd).1])]

/-- `atoi` reads back an `int` that was printed. -/
theorem atoi_printInt (n : BitVec 32) : atoi (printInt n) = n := by
  have hlow : -2 ^ 31 ≤ n.toInt := BitVec.le_toInt n
  have hhigh : n.toInt < 2 ^ 31 := BitVec.toInt_lt
  have hvalue : signedDec ((printInt n).dropWhile isspace) = n.toInt := by
    unfold printInt
    split
    · rw [List.dropWhile_cons_of_neg (by decide), signedDec, decRun_dec]
      omega
    · rw [dropWhile_dec, signedDec_dec]
      omega
  unfold atoi strtol
  rw [hvalue, min_eq_left (by omega), max_eq_right (by omega), BitVec.ofInt_toInt]

/-! ### Hexadecimal numbers -/

/-- The format `0x%lx`; the value is assigned when the conversion is made. -/
def scan0xLx : List Char → Option (BitVec 64)
  | '0' :: 'x' :: text => (scanUl text).map Prod.fst
  | _ => none

def print0xLx (n : BitVec 64) : List Char :=
  '0' :: 'x' :: hex n.toNat

/-- The scanner reads back an `unsigned long` that was printed with `0x%lx`. -/
theorem scan0xLx_print0xLx (n : BitVec 64) : scan0xLx (print0xLx n) = some n := by
  have hscan := scanUl_hexPad 0 n.isLt stops_nil
  rw [hexPad_zero, List.append_nil] at hscan
  rw [print0xLx, scan0xLx, hscan, Option.map_some, BitVec.ofNat_toNat, BitVec.setWidth_eq]

/-! ### Arguments -/

/-- How a program turns down its command line: what it prints, and whether the usage follows. -/
structure Refusal where
  text : List Char
  usage : Bool

/-- The message that repeats the argument. -/
def complaint (before : String) (arg : List Char) : Refusal :=
  ⟨before.toList ++ arg ++ ['\n'], false⟩

def Refusal.withUsage (r : Refusal) : Refusal :=
  { r with usage := true }

/-- An argument that is read as an `int` and has to pass a check. -/
def intArg (check : Int → Bool) (refusal : Refusal) (arg : List Char) :
    Except Refusal (BitVec 32) :=
  if check (atoi arg).toInt then .ok (atoi arg) else .error refusal

/-- An argument that is read with `0x%lx`. -/
def lxArg (refusal : Refusal) (arg : List Char) : Except Refusal (BitVec 64) :=
  match scan0xLx arg with
  | some n => .ok n
  | none => .error refusal

/-- An argument that has to start with one of some words, each compared up to a length. -/
def wordArg {α : Type*} (refusal : Refusal) (arg : List Char) :
    List (String × Nat × α) → Except Refusal α
  | [] => .error refusal
  | (word, n, a) :: words =>
    if startsWith arg word.toList n then .ok a else wordArg refusal arg words

section Accepted

variable {α β ε : Type*} {P : β → Prop} {b : β}

lemma of_ok_eq_ok {a : β} (h : (.ok a : Except ε β) = .ok b) (ha : P a) : P b := by
  cases h
  exact ha

lemma of_map_eq_ok {f : α → β} {x : Except ε α} (h : x.map f = .ok b)
    (hf : ∀ a, x = .ok a → P (f a)) : P b := by
  cases x with
  | error e => cases h
  | ok a => exact of_ok_eq_ok h (hf a rfl)

/-- An `int` that was accepted has passed its check. -/
lemma of_map_intArg_eq_ok {Q : Int → Prop} [DecidablePred Q] {refusal : Refusal} {arg : List Char}
    {f : BitVec 32 → β} (h : (intArg (fun n => decide (Q n)) refusal arg).map f = .ok b)
    (hf : ∀ n : BitVec 32, Q n.toInt → P (f n)) : P b := by
  refine of_map_eq_ok h fun n hn => hf n ?_
  unfold intArg at hn
  split at hn
  · rename_i hcheck
    cases hn
    exact of_decide_eq_true hcheck
  · cases hn

end Accepted

lemma intArg_printInt {check : Int → Bool} {n : BitVec 32} (h : check n.toInt = true)
    (refusal : Refusal) : intArg check refusal (printInt n) = .ok n := by
  rw [intArg, atoi_printInt, if_pos h]

lemma lxArg_print0xLx (refusal : Refusal) (n : BitVec 64) :
    lxArg refusal (print0xLx n) = .ok n := by
  rw [lxArg, scan0xLx_print0xLx]

/-- What an argument stands for is one of the values on offer. -/
lemma wordArg_mem {α : Type*} {refusal : Refusal} {arg : List Char}
    {words : List (String × Nat × α)} {a : α} (h : wordArg refusal arg words = .ok a) :
    a ∈ words.map fun w => w.2.2 := by
  induction words with
  | nil => cases h
  | cons w words ih =>
    obtain ⟨word, n, b⟩ := w
    rw [wordArg] at h
    split at h
    · cases h
      exact List.mem_cons_self
    · exact List.mem_cons_of_mem b (ih h)

end CommandLine
