import Mathlib.Tactic.Lemma

/-!
# Windows of a buffer

The part of a buffer that holds data, as `sk_buff` keeps it: data is appended and cut off at
the end, taken from the front and put back there. A window never leaves its buffer, and
every adjustment that succeeds is undone by its counterpart.
-/

namespace Buffer

/-- The bytes of a buffer of `size` bytes from byte `start` up to byte `stop`. -/
@[ext]
structure Window (size : Nat) where
  start : Nat
  stop : Nat
  le : start ≤ stop
  fits : stop ≤ size

inductive Adjust
  | put
  | trim
  | pull
  | push
  deriving DecidableEq

/-- The adjustment that undoes another one of the same length. -/
def Adjust.counterpart : Adjust → Adjust
  | put => trim
  | trim => put
  | pull => push
  | push => pull

namespace Window

variable {size : Nat}

def empty (size : Nat) : Window size :=
  ⟨0, 0, Nat.le_refl 0, Nat.zero_le size⟩

def put (w : Window size) (n : Nat) : Option (Window size) :=
  if h : w.stop + n ≤ size then some ⟨w.start, w.stop + n, Nat.le_add_right_of_le w.le, h⟩ else none

def trim (w : Window size) (n : Nat) : Option (Window size) :=
  if h : n ≤ w.stop - w.start then
    some ⟨w.start, w.stop - n, by have := w.le; omega, Nat.le_trans (Nat.sub_le _ _) w.fits⟩
  else none

def pull (w : Window size) (n : Nat) : Option (Window size) :=
  if h : n ≤ w.stop - w.start then some ⟨w.start + n, w.stop, by have := w.le; omega, w.fits⟩ else none

def push (w : Window size) (n : Nat) : Option (Window size) :=
  if n ≤ w.start then some ⟨w.start - n, w.stop, Nat.le_trans (Nat.sub_le _ _) w.le, w.fits⟩ else none

def adjust (w : Window size) (op : Adjust) (n : Nat) : Option (Window size) :=
  match op with
  | .put => w.put n
  | .trim => w.trim n
  | .pull => w.pull n
  | .push => w.push n

/-- A call that is refused leaves the window as it is. -/
def step (w : Window size) (call : Adjust × Nat) : Option (Window size) :=
  some ((w.adjust call.1 call.2).getD w)

variable {w v : Window size} {n : Nat}

lemma put_eq_some_iff :
    w.put n = some v ↔ w.stop + n ≤ size ∧ v.start = w.start ∧ v.stop = w.stop + n := by
  unfold put
  split
  · rename_i h
    simp only [Option.some.injEq, Window.ext_iff, h, true_and]
    exact and_congr eq_comm eq_comm
  · rename_i h
    simp [h]

lemma trim_eq_some_iff :
    w.trim n = some v ↔ n ≤ w.stop - w.start ∧ v.start = w.start ∧ v.stop = w.stop - n := by
  unfold trim
  split
  · rename_i h
    simp only [Option.some.injEq, Window.ext_iff, h, true_and]
    exact and_congr eq_comm eq_comm
  · rename_i h
    simp [h]

lemma pull_eq_some_iff :
    w.pull n = some v ↔ n ≤ w.stop - w.start ∧ v.start = w.start + n ∧ v.stop = w.stop := by
  unfold pull
  split
  · rename_i h
    simp only [Option.some.injEq, Window.ext_iff, h, true_and]
    exact and_congr eq_comm eq_comm
  · rename_i h
    simp [h]

lemma push_eq_some_iff :
    w.push n = some v ↔ n ≤ w.start ∧ v.start = w.start - n ∧ v.stop = w.stop := by
  unfold push
  split
  · rename_i h
    simp only [Option.some.injEq, Window.ext_iff, h, true_and]
    exact and_congr eq_comm eq_comm
  · rename_i h
    simp [h]

lemma put_eq_none_iff : w.put n = none ↔ size < w.stop + n := by
  unfold put
  split <;> simp <;> omega

lemma trim_eq_none_iff : w.trim n = none ↔ w.stop - w.start < n := by
  unfold trim
  split <;> simp <;> omega

lemma pull_eq_none_iff : w.pull n = none ↔ w.stop - w.start < n := by
  unfold pull
  split <;> simp <;> omega

lemma push_eq_none_iff : w.push n = none ↔ w.start < n := by
  unfold push
  split <;> simp <;> omega

/-- An adjustment that succeeded is undone by its counterpart. -/
theorem adjust_counterpart {op : Adjust} (h : w.adjust op n = some v) :
    v.adjust op.counterpart n = some w := by
  have hle := w.le
  have hfits := w.fits
  cases op with
  | put =>
    obtain ⟨-, hstart, hstop⟩ := put_eq_some_iff.mp h
    exact trim_eq_some_iff.mpr ⟨by omega, hstart.symm, by omega⟩
  | trim =>
    obtain ⟨hn, hstart, hstop⟩ := trim_eq_some_iff.mp h
    exact put_eq_some_iff.mpr ⟨by omega, hstart.symm, by omega⟩
  | pull =>
    obtain ⟨-, hstart, hstop⟩ := pull_eq_some_iff.mp h
    exact push_eq_some_iff.mpr ⟨by omega, by omega, hstop.symm⟩
  | push =>
    obtain ⟨hn, hstart, hstop⟩ := push_eq_some_iff.mp h
    exact pull_eq_some_iff.mpr ⟨by omega, by omega, hstop.symm⟩

end Window

end Buffer
