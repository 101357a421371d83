import Mathlib.Data.List.Nodup
import Mathlib.Data.List.Pairwise
import Libpop.Proofs.AllocTermination
import Libpop.Table

/-!
# Allocations of several threads

However the threads that share a context are interleaved, inside and between their calls of
`pop_buf_alloc`, the calls behave as if made one after the other in the order in which they
give the mutex back. So buffers that are handed to different threads share no byte.
-/

namespace Libpop.Proofs
open Execution

/-! ### The page-count loop in steps -/

/-- The loop of a call has passed the test for `0`, `1`, … up to its counter. -/
def CountedTo (size nr : BitVec 64) : Prop :=
  ∃ k : Nat, nr = BitVec.ofNat 64 k ∧ ∀ j < k, BitVec.ofNat 64 j <<< pageShift < size

lemma CountedTo.next {size nr : BitVec 64} (h : CountedTo size nr) (hlt : nr <<< pageShift < size) :
    CountedTo size (nr + 1) := by
  obtain ⟨k, rfl, hall⟩ := h
  refine ⟨k + 1, (BitVec.ofNat_add k 1).symm, fun j hj => ?_⟩
  rcases Nat.lt_succ_iff_lt_or_eq.mp hj with hj | rfl
  · exact hall j hj
  · exact hlt

/-- The shifted counter repeats after 2^52 steps, so a loop that ends has ended by then. -/
lemma CountedTo.nrPages_eq {size nr : BitVec 64} (h : CountedTo size nr)
    (hge : ¬nr <<< pageShift < size) : nrPages size = some nr := by
  obtain ⟨k, rfl, hall⟩ := h
  have hk : k < 2 ^ 52 := by
    by_contra hbig
    apply hge
    have hsame : BitVec.ofNat 64 k <<< pageShift = BitVec.ofNat 64 (k % 2 ^ 52) <<< pageShift := by
      apply BitVec.eq_of_toNat_eq
      simp only [Word.toNat_shiftLeft_mul, BitVec.toNat_ofNat, pageShift]
      omega
    rw [hsame]
    exact hall _ (by omega)
  apply (Loop.whileLoop_eq_some_iff _ _ _ _ _).mpr
  refine ⟨k, hk, iterate_add_one k, by simpa using hge, fun j hj => ?_⟩
  rw [iterate_add_one]
  simpa using hall j hj

/-! ### Linearization -/

/-- The history has the context and, once each, the calls that have returned. -/
structure Linearizes (s : SharedMem) (t : AllocHistory) : Prop where
  mem : t.mem = s.mem
  returned : ∀ r, r ∈ t.returned ↔ s.calls[r.thread]? = some ⟨r.size, .done r.res⟩
  once : (t.returned.map Returned.thread).Nodup

/-- What the simulation of the threads by the history rests on. -/
structure LinearInv (s : SharedMem) (t : AllocHistory) : Prop where
  linear : Linearizes s t
  counted : ∀ (i : Nat) (size nr : BitVec 64), s.calls[i]? = some ⟨size, .count nr⟩ → CountedTo size nr

section Steps

variable {s : SharedMem} {t : AllocHistory} {i : Nat} {call : AllocCall}

/-- A step inside a call that has not returned. -/
lemma LinearInv.inside (h : LinearInv s t) (hcall : s.calls[i]? = some call)
    (hpc : ∀ res, call.pc ≠ .done res) {next : AllocCall} (hnext : ∀ res, next.pc ≠ .done res)
    (hcounted : ∀ nr, next.pc = .count nr → CountedTo next.size nr) {u : SharedMem}
    (hmem : u.mem = s.mem) (hcalls : u.calls = s.calls.set i next) : LinearInv u t := by
  refine ⟨⟨hmem ▸ h.linear.mem, fun r => ?_, h.linear.once⟩, fun j size nr hj => ?_⟩
  · rw [h.linear.returned, hcalls]
    by_cases hj : i = r.thread
    · rw [← hj, Table.getElem?_set_self_of_some hcall, hcall]
      refine iff_of_false (fun heq => ?_) fun heq => ?_
      · exact hpc r.res (congrArg AllocCall.pc (Option.some.inj heq))
      · exact hnext r.res (congrArg AllocCall.pc (Option.some.inj heq))
    · rw [List.getElem?_set_ne hj]
  · rw [hcalls] at hj
    rcases Table.getElem?_set_cases hj with ⟨-, rfl⟩ | ⟨-, hold⟩
    · exact hcounted nr rfl
    · exact h.counted j size nr hold

/-- The step in which a call returns is the whole call for the history. -/
lemma LinearInv.returns (h : LinearInv s t) {size nr : BitVec 64}
    (hcall : s.calls[i]? = some ⟨size, .count nr⟩) (hge : ¬nr <<< pageShift < size)
    (malloc : Bool) :
    ∃ t', historyStep t (i, size, malloc) = some t' ∧
      LinearInv (s.release i size (popBufCarve s.mem nr malloc)) t' := by
  have halloc : popBufAlloc s.mem size malloc = some (popBufCarve s.mem nr malloc) :=
    popBufAlloc_eq_carve ((h.counted i size nr hcall).nrPages_eq hge) malloc
  have hnew : i ∉ t.returned.map Returned.thread := by
    intro hmem
    obtain ⟨r, hr, rfl⟩ := List.mem_map.mp hmem
    rw [h.linear.returned, hcall] at hr
    cases hr
  generalize popBufCarve s.mem nr malloc = out at halloc ⊢
  refine ⟨⟨out.1, t.returned ++ [⟨i, size, out.2⟩]⟩, ?_, ⟨rfl, fun r => ?_, ?_⟩,
    fun j size' nr' hj => ?_⟩
  · simp only [historyStep, h.linear.mem, halloc]
  · dsimp only [SharedMem.release]
    rw [List.mem_append, List.mem_singleton, h.linear.returned]
    by_cases hr : i = r.thread
    · obtain ⟨thread, size', res⟩ := r
      obtain rfl : i = thread := hr
      rw [Table.getElem?_set_self_of_some hcall, hcall]
      constructor
      · rintro (hold | hnow)
        · cases hold
        · cases hnow
          rfl
      · intro hdone
        cases hdone
        exact .inr rfl
    · rw [List.getElem?_set_ne hr]
      refine or_iff_left ?_
      rintro rfl
      exact hr rfl
  · rw [List.map_append, List.map_singleton, ← List.concat_eq_append]
    exact List.Nodup.concat hnew h.linear.once
  · rcases Table.getElem?_set_cases hj with ⟨-, hdone⟩ | ⟨-, hold⟩
    · cases hdone
    · exact h.counted j size' nr' hold

lemma linearInv_step (s : SharedMem) (op : Nat × Bool) (u : SharedMem) (t : AllocHistory)
    (h : LinearInv s t) (hs : sharedStep s op = some u) :
    ∃ t', Reaches historyStep t t' ∧ LinearInv u t' := by
  cases sharedStep_move hs with
  | lock size hc hfree =>
    refine ⟨t, .refl t, h.inside hc (by simp) (by simp) ?_ rfl rfl⟩
    intro nr hnr
    cases hnr
    exact ⟨0, rfl, by simp⟩
  | count size nr hc hlt =>
    refine ⟨t, .refl t, h.inside hc (by simp) (by simp) ?_ rfl rfl⟩
    intro nr' hnr
    cases hnr
    exact (h.counted _ _ _ hc).next hlt
  | done size nr out hc hge =>
    obtain ⟨t', ht, hinv⟩ := h.returns hc hge op.2
    rw [sharedStep_carve hc hge, Option.some.injEq] at hs
    exact ⟨t', .of_step ht, hs ▸ hinv⟩

lemma linearInv_init (mem : PopMem) (sizes : List (BitVec 64)) :
    LinearInv (sharedInit mem sizes) ⟨mem, []⟩ := by
  refine ⟨⟨rfl, fun r => ?_, List.nodup_nil⟩, fun i size nr hi => ?_⟩
  · simp [sharedInit]
  · simp [sharedInit] at hi

end Steps

/-- A context of 4 pages and two threads. -/
def twoCallers : SharedMem :=
  sharedInit ⟨-1, [], ⟨0, 0, 0, 0, 0⟩, 0x7f0000000000, 0x80000000, 0x4000, 4, 0⟩ [5000, 4096]

/-- The buffer that a call has handed out. -/
def allocationOf (r : Returned) : Option Allocation :=
  match r.res with
  | .ok pbuf => some ⟨r.size, pbuf⟩
  | .error _ => none

/-- The buffers of two calls share no byte. -/
def Apart (r r' : Returned) : Prop :=
  ∀ x ∈ allocationOf r, ∀ y ∈ allocationOf r', Disjoint (bufBytes x.pbuf) (bufBytes y.pbuf)

instance : Std.Symm Apart :=
  ⟨fun _ _ h y hy x hx => (h x hx y hy).symm⟩

lemma historyStep_bufStep (t : AllocHistory) (op : Nat × BitVec 64 × Bool) (t' : AllocHistory)
    (b : BufState) (h : b.mem = t.mem ∧ b.allocations = t.returned.filterMap allocationOf)
    (hs : historyStep t op = some t') :
    ∃ b', Reaches bufStep b b' ∧
      b'.mem = t'.mem ∧ b'.allocations = t'.returned.filterMap allocationOf := by
  obtain ⟨hmem, hallocs⟩ := h
  simp only [historyStep] at hs
  split at hs
  · cases hs
  · rename_i mem res halloc
    cases hs
    rw [← hmem] at halloc
    cases res with
    | error e =>
      have hstep : bufStep b (.alloc op.2.1 op.2.2) = some { b with mem := mem } := by
        simp only [bufStep, halloc]
      refine ⟨_, .of_step hstep, rfl, ?_⟩
      simp [hallocs, allocationOf]
    | ok pbuf =>
      have hstep : bufStep b (.alloc op.2.1 op.2.2) = some
          ⟨mem, b.allocations ++ [⟨op.2.1, pbuf⟩], b.live ++ [b.allocations.length]⟩ := by
        simp only [bufStep, halloc]
      refine ⟨_, .of_step hstep, rfl, ?_⟩
      simp [hallocs, allocationOf]

lemma CarveInv.disjoint {mem : PopMem} {b : BufState} (h : CarveInv mem b) :
    b.allocations.Pairwise fun x y => Disjoint (bufBytes x.pbuf) (bufBytes y.pbuf) := by
  apply (List.pairwise_map.mp h.packed.pairwise).imp_of_mem
  intro x y hx hy hxy
  rw [(h.carved x hx).bufBytes_eq, (h.carved y hy).bufBytes_eq]
  exact Bump.Extent.disjoint_bytes hxy _ _

lemma CarveInv.inside {mem : PopMem} {b : BufState} (h : CarveInv mem b) {a : Allocation}
    (ha : a ∈ b.allocations) : bufBytes a.pbuf ⊆ regionBytes mem := by
  rw [(h.carved a ha).bufBytes_eq]
  apply Bump.Extent.bytes_subset
  exact (h.packed.stop_le _ (List.mem_map_of_mem ha)).trans h.le

end Libpop.Proofs
