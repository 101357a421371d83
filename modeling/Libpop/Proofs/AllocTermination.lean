import Mathlib.Order.Bounds.Basic
import Libpop.AllocLock
import Libpop.Proofs.BufferAllocation
import Libpop.Table

/-!
# Termination of an allocation

The page-count loop shifts its counter in 64-bit arithmetic, so for the last 4095 sizes no
count is large enough and the loop runs for ever, with the mutex of the context held. For all
other sizes a call that gets the mutex gives it back, and its steps together are the atomic
`popBufAlloc`.
-/

namespace Libpop.Proofs
open Execution

lemma popBufAlloc_eq_carve {mem : PopMem} {size nr : BitVec 64} (h : nrPages size = some nr)
    (malloc : Bool) : popBufAlloc mem size malloc = some (popBufCarve mem nr malloc) := by
  unfold popBufAlloc popBufCarve
  simp only [h]
  split
  · rfl
  · split <;> rfl

/-! ### The steps of one call -/

section Call

variable {s : SharedMem} {i : Nat} {size : BitVec 64} {malloc : Bool}

lemma sharedStep_lock (h : s.calls[i]? = some ⟨size, .lock⟩) (hfree : s.mutex = none) :
    sharedStep s (i, malloc) = some (s.acquire i size) := by
  simp [sharedStep, h, hfree]

lemma sharedStep_count {nr : BitVec 64} (h : s.calls[i]? = some ⟨size, .count nr⟩)
    (hlt : nr <<< pageShift < size) :
    sharedStep s (i, malloc) = some (s.setCall i ⟨size, .count (nr + 1)⟩) := by
  simp [sharedStep, h, hlt]

lemma sharedStep_carve {nr : BitVec 64} (h : s.calls[i]? = some ⟨size, .count nr⟩)
    (hge : ¬nr <<< pageShift < size) :
    sharedStep s (i, malloc) = some (s.release i size (popBufCarve s.mem nr malloc)) := by
  simp [sharedStep, h, hge]

lemma exec_count (h : s.calls[i]? = some ⟨size, .lock⟩) {k : Nat}
    (hgo : ∀ j < k, BitVec.ofNat 64 j <<< pageShift < size) :
    exec sharedStep (s.acquire i size) (List.replicate k (i, malloc)) =
      some ((s.acquire i size).setCall i ⟨size, .count (BitVec.ofNat 64 k)⟩) := by
  induction k with
  | zero => simp [exec, SharedMem.setCall, SharedMem.acquire]
  | succ k ih =>
    rw [List.replicate_succ']
    refine exec_snoc (ih fun j hj => hgo j (hj.trans (Nat.lt_succ_self k))) ?_
    have hcall : ((s.acquire i size).setCall i ⟨size, .count (BitVec.ofNat 64 k)⟩).calls[i]? =
        some ⟨size, .count (BitVec.ofNat 64 k)⟩ :=
      Table.getElem?_set_self_of_some (Table.getElem?_set_self_of_some h _) _
    rw [sharedStep_count hcall (hgo k (Nat.lt_succ_self k))]
    simp [SharedMem.setCall, BitVec.ofNat_add]

/-- A call whose loop ends takes the mutex, gives it back and does in between what the atomic
call does. -/
lemma exec_call (h : s.calls[i]? = some ⟨size, .lock⟩) (hfree : s.mutex = none) {nr : BitVec 64}
    (hn : nrPages size = some nr) :
    exec sharedStep s (List.replicate (nr.toNat + 2) (i, malloc)) =
      some (s.release i size (popBufCarve s.mem nr malloc)) := by
  obtain ⟨hsize, hnr⟩ := (nrPages_eq_some_iff size nr).mp hn
  have hself : BitVec.ofNat 64 nr.toNat = nr := by rw [BitVec.ofNat_toNat, BitVec.setWidth_eq]
  have hgo : ∀ j < nr.toNat, BitVec.ofNat 64 j <<< pageShift < size := by
    intro j hj
    rw [BitVec.lt_def, toNat_ofNat_shiftLeft (by omega)]
    omega
  have hstop : ¬nr <<< pageShift < size := by
    rw [← hself, BitVec.lt_def, toNat_ofNat_shiftLeft (by omega)]
    omega
  rw [List.replicate_succ]
  apply (exec_cons (sharedStep_lock h hfree)).mpr
  rw [List.replicate_succ']
  refine exec_snoc (exec_count h hgo) ?_
  have hcall : ((s.acquire i size).setCall i ⟨size, .count (BitVec.ofNat 64 nr.toNat)⟩).calls[i]? =
      some ⟨size, .count nr⟩ := by
    rw [hself]
    exact Table.getElem?_set_self_of_some (Table.getElem?_set_self_of_some h _) _
  rw [sharedStep_carve hcall hstop]
  simp [SharedMem.release, SharedMem.setCall, SharedMem.acquire]

end Call

/-! ### Whole runs -/

/-- The ways on from a state, each with the call that moves. -/
inductive SharedMove (s : SharedMem) (i : Nat) : SharedMem → Prop
  | lock (size : BitVec 64) (h : s.calls[i]? = some ⟨size, .lock⟩) (hfree : s.mutex = none) :
      SharedMove s i (s.acquire i size)
  | count (size nr : BitVec 64) (h : s.calls[i]? = some ⟨size, .count nr⟩) (hlt : nr <<< pageShift < size) :
      SharedMove s i (s.setCall i ⟨size, .count (nr + 1)⟩)
  | done (size nr : BitVec 64) (out : PopMem × Except AllocError PopBuf)
      (h : s.calls[i]? = some ⟨size, .count nr⟩) (hge : ¬nr <<< pageShift < size) :
      SharedMove s i (s.release i size out)

lemma sharedStep_move {s t : SharedMem} {op : Nat × Bool} (h : sharedStep s op = some t) :
    SharedMove s op.1 t := by
  cases hc : s.calls[op.1]? with
  | none => simp [sharedStep, hc] at h
  | some call =>
    obtain ⟨size, pc⟩ := call
    cases pc with
    | lock =>
      by_cases hfree : s.mutex = none
      · rw [sharedStep_lock hc hfree] at h
        cases h
        exact .lock size hc hfree
      · simp [sharedStep, hc, hfree] at h
    | count nr =>
      by_cases hlt : nr <<< pageShift < size
      · rw [sharedStep_count hc hlt] at h
        cases h
        exact .count size nr hc hlt
      · rw [sharedStep_carve hc hlt] at h
        cases h
        exact .done size nr _ hc hlt
    | done res => simp [sharedStep, hc] at h

/-- A thread is in its loop exactly while it holds the mutex. -/
def MutexInv (s : SharedMem) : Prop :=
  ∀ i, s.mutex = some i ↔ ∃ size nr, s.calls[i]? = some ⟨size, .count nr⟩

lemma mutexInv_step (s : SharedMem) (op : Nat × Bool) (t : SharedMem) (h : MutexInv s)
    (hs : sharedStep s op = some t) : MutexInv t := by
  intro j
  cases sharedStep_move hs with
  | lock size hc hfree =>
    by_cases hj : op.1 = j
    · subst hj
      exact iff_of_true rfl ⟨size, 0, Table.getElem?_set_self_of_some hc _⟩
    · have hsame : (s.acquire op.1 size).calls[j]? = s.calls[j]? := List.getElem?_set_ne hj
      rw [hsame, ← h j, hfree]
      simp [SharedMem.acquire, hj]
  | count size nr hc hlt =>
    by_cases hj : op.1 = j
    · subst hj
      exact iff_of_true ((h op.1).mpr ⟨size, nr, hc⟩)
        ⟨size, nr + 1, Table.getElem?_set_self_of_some hc _⟩
    · have hsame : (s.setCall op.1 ⟨size, .count (nr + 1)⟩).calls[j]? = s.calls[j]? :=
        List.getElem?_set_ne hj
      rw [hsame]
      exact h j
  | done size nr out hc hge =>
    by_cases hj : op.1 = j
    · subst hj
      have hdone : (s.release op.1 size out).calls[op.1]? = some ⟨size, .done out.2⟩ :=
        Table.getElem?_set_self_of_some hc _
      have hfree : (s.release op.1 size out).mutex = none := rfl
      rw [hdone, hfree]
      simp
    · have hsame : (s.release op.1 size out).calls[j]? = s.calls[j]? := List.getElem?_set_ne hj
      rw [hsame, ← h j, (h op.1).mpr ⟨size, nr, hc⟩]
      simp [SharedMem.release, hj]

lemma mutexInv_reachable {mem : PopMem} {sizes : List (BitVec 64)} {ops : List (Nat × Bool)}
    {s : SharedMem} (h : exec sharedStep (sharedInit mem sizes) ops = some s) : MutexInv s := by
  refine exec_invariant mutexInv_step ?_ h
  intro i
  simp [sharedInit]

lemma shiftLeft_lt_of_large {size : BitVec 64} (hsize : 2 ^ 64 - 4096 < size.toNat)
    (nr : BitVec 64) : nr <<< pageShift < size := by
  rw [BitVec.lt_def, Word.toNat_shiftLeft_mul]
  unfold pageShift
  omega

lemma nrPages_eq_none {size : BitVec 64} (hsize : 2 ^ 64 - 4096 < size.toNat) :
    nrPages size = none := by
  cases hn : nrPages size with
  | none => rfl
  | some nr =>
    have hle := ((nrPages_eq_some_iff size nr).mp hn).1
    omega

/-- A thread that is in its loop with such a size stays there and keeps the mutex. -/
lemma mutex_held_step {i : Nat} {size : BitVec 64} (hsize : 2 ^ 64 - 4096 < size.toNat)
    (s : SharedMem) (op : Nat × Bool) (t : SharedMem)
    (h : MutexInv s ∧ ∃ nr, s.calls[i]? = some ⟨size, .count nr⟩) (hs : sharedStep s op = some t) :
    MutexInv t ∧ ∃ nr, t.calls[i]? = some ⟨size, .count nr⟩ := by
  obtain ⟨hinv, nr, hi⟩ := h
  refine ⟨mutexInv_step s op t hinv hs, ?_⟩
  have hheld := (hinv i).mpr ⟨size, nr, hi⟩
  cases sharedStep_move hs with
  | lock size' hc hfree =>
    rw [hfree] at hheld
    cases hheld
  | count size' nr' hc hlt =>
    by_cases hj : op.1 = i
    · rw [hj, hi] at hc
      cases hc
      rw [hj]
      exact ⟨nr + 1, Table.getElem?_set_self_of_some hi _⟩
    · exact ⟨nr, (List.getElem?_set_ne hj).trans hi⟩
  | done size' nr' out hc hge =>
    have hj : some op.1 = some i := ((hinv op.1).mpr ⟨size', nr', hc⟩).symm.trans hheld
    rw [Option.some.inj hj, hi] at hc
    cases hc
    exact absurd (shiftLeft_lt_of_large hsize nr) hge

/-- No run takes the mutex from a thread that counts to one of the last 4095 sizes. -/
theorem mutex_held_forever {mem : PopMem} {sizes : List (BitVec 64)} {i : Nat} {size nr : BitVec 64}
    {ops ops' : List (Nat × Bool)} {s t : SharedMem} (hsize : 2 ^ 64 - 4096 < size.toNat)
    (h : exec sharedStep (sharedInit mem sizes) ops = some s)
    (hi : s.calls[i]? = some ⟨size, .count nr⟩)
    (h' : exec sharedStep s ops' = some t) : t.mutex = some i := by
  obtain ⟨hinv, nr', ht⟩ := exec_invariant (mutex_held_step hsize) ⟨mutexInv_reachable h, nr, hi⟩ h'
  exact (hinv i).mpr ⟨size, nr', ht⟩

/-- The loop of a call with this size ends with the least page count that covers it, and a call
that finds the mutex free gives it back after finitely many steps of its own, with the context
and the result of the atomic call. -/
structure AllocReturns (size : BitVec 64) : Prop where
  counts : ∃ nr, nrPages size = some nr ∧ IsLeast {n | size.toNat ≤ n * 4096} nr.toNat
  returns : ∀ (s : SharedMem) (i : Nat) (malloc : Bool), s.calls[i]? = some ⟨size, .lock⟩ → s.mutex = none →
    ∃ n out, popBufAlloc s.mem size malloc = some out ∧
      exec sharedStep s (List.replicate n (i, malloc)) = some (s.release i size out)

theorem allocReturns_iff (size : BitVec 64) : AllocReturns size ↔ size.toNat ≤ 2 ^ 64 - 4096 := by
  constructor
  · rintro ⟨⟨nr, hn, -⟩, -⟩
    exact ((nrPages_eq_some_iff size nr).mp hn).1
  · intro hsize
    have hnr : (BitVec.ofNat 64 ((size.toNat + 4095) / 4096)).toNat =
        (size.toNat + 4095) / 4096 := by
      rw [BitVec.toNat_ofNat]
      omega
    have hn := (nrPages_eq_some_iff size _).mpr ⟨hsize, hnr⟩
    refine ⟨⟨_, hn, ?_⟩, ?_⟩
    · rw [hnr]
      constructor
      · change size.toNat ≤ (size.toNat + 4095) / 4096 * 4096
        omega
      · intro n hle
        change size.toNat ≤ n * 4096 at hle
        omega
    · intro s i malloc hi hfree
      exact ⟨_, _, popBufAlloc_eq_carve hn malloc, exec_call hi hfree hn⟩

/-- `-b -1` makes nmgen ask for 2^64 - 2048 bytes: the thread takes the mutex and no run, whatever
the threads do, ever gives it to another one. -/
theorem allocation_never_returns :
    ((2048 * -1 : BitVec 32).signExtend 64 = 0xfffffffffffff800) ∧
      ¬AllocReturns 0xfffffffffffff800 ∧ nrPages 0xfffffffffffff800 = none ∧
      ∀ (mem : PopMem) (ops : List (Nat × Bool)) (s t : SharedMem),
        sharedStep (sharedInit mem [0xfffffffffffff800, 4096]) (0, true) = some s →
        exec sharedStep s ops = some t → t.mutex = some 0 := by
  have hsize : 2 ^ 64 - 4096 < (0xfffffffffffff800 : BitVec 64).toNat := by decide
  refine ⟨by decide, ?_, nrPages_eq_none hsize, ?_⟩
  · rintro ⟨⟨nr, hn, -⟩, -⟩
    rw [nrPages_eq_none hsize] at hn
    cases hn
  · intro mem ops s t hs ht
    have hrun : exec sharedStep (sharedInit mem [0xfffffffffffff800, 4096]) [(0, true)] = some s :=
      (exec_cons hs).mpr rfl
    cases hs
    exact mutex_held_forever hsize hrun rfl ht

end Libpop.Proofs
