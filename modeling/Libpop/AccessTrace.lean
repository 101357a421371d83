import Mathlib.Data.Set.Insert
import Mathlib.Tactic.Lemma
import Mathlib.Tactic.TypeStar

/-!
# Traces of array accesses

A trace is the list of the cells that a program reads and writes. It is sound when every
access is to a valid cell and every tracked cell has been written before it is read.
-/

namespace AccessTrace

inductive Access (κ : Type*)
  | read (c : κ)
  | write (c : κ)
  deriving DecidableEq

variable {κ : Type*}

def Access.cell : Access κ → κ
  | .read c => c
  | .write c => c

def written (xs : List (Access κ)) : Set κ :=
  {c | .write c ∈ xs}

variable (valid tracked : κ → Prop)

/-- The trace is sound when the cells in `w` have been written before. -/
def Sound : Set κ → List (Access κ) → Prop
  | _, [] => True
  | w, .read c :: xs => valid c ∧ (tracked c → c ∈ w) ∧ Sound w xs
  | w, .write c :: xs => valid c ∧ Sound (insert c w) xs

variable {valid tracked} {w w' : Set κ} {xs ys : List (Access κ)}

lemma Sound.mono (hw : w ⊆ w') (h : Sound valid tracked w xs) : Sound valid tracked w' xs := by
  induction xs generalizing w w' with
  | nil => trivial
  | cons a xs ih =>
    cases a with
    | read c => exact ⟨h.1, fun ht => hw (h.2.1 ht), ih hw h.2.2⟩
    | write c => exact ⟨h.1, ih (Set.insert_subset_insert hw) h.2⟩

lemma Sound.valid_of_mem (h : Sound valid tracked w xs) {a : Access κ}
    (ha : a ∈ xs) : valid a.cell := by
  induction xs generalizing w with
  | nil => cases ha
  | cons b xs ih =>
    cases b with
    | read c =>
      rcases List.mem_cons.mp ha with rfl | ha
      · exact h.1
      · exact ih h.2.2 ha
    | write c =>
      rcases List.mem_cons.mp ha with rfl | ha
      · exact h.1
      · exact ih h.2 ha

lemma written_append : written (xs ++ ys) = written xs ∪ written ys := by
  ext c
  exact List.mem_append

lemma sound_append :
    Sound valid tracked w (xs ++ ys) ↔
      Sound valid tracked w xs ∧ Sound valid tracked (w ∪ written xs) ys := by
  induction xs generalizing w with
  | nil =>
    have hempty : w ∪ written ([] : List (Access κ)) = w := by
      ext c
      simp [written]
    rw [List.nil_append, hempty]
    exact ⟨fun h => ⟨trivial, h⟩, fun h => h.2⟩
  | cons a xs ih =>
    cases a with
    | read c =>
      have hskip : w ∪ written (.read c :: xs) = w ∪ written xs := by
        ext d
        simp [written]
      simp only [List.cons_append, Sound, ih, hskip, and_assoc]
    | write c =>
      have hmove : insert c w ∪ written xs = w ∪ written (.write c :: xs) := by
        ext d
        simp [written, or_left_comm, or_assoc]
      simp only [List.cons_append, Sound, ih, hmove, and_assoc]

/-- Reads of cells that have all been written. -/
lemma sound_reads {cs : List κ} (hvalid : ∀ c ∈ cs, valid c) (hw : ∀ c ∈ cs, c ∈ w) :
    Sound valid tracked w (cs.map Access.read) := by
  induction cs with
  | nil => trivial
  | cons c cs ih =>
    obtain ⟨hc, hcs⟩ := List.forall_mem_cons.mp hvalid
    obtain ⟨hcw, hcsw⟩ := List.forall_mem_cons.mp hw
    exact ⟨hc, fun _ => hcw, ih hcs hcsw⟩

end AccessTrace
