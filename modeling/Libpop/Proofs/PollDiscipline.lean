import Libpop.Execution
import Libpop.GeneratorIo
import Libpop.Proofs.RingFill
import Libpop.Table

/-!
# Submitting and polling in generator

An iteration polls the descriptors that it has just been given, each once. With fake packets
it polls elements of `iod` that were never assigned; and a read that has timed out may still be
on its way when a later iteration reads into the same buffer.
-/

namespace Libpop.Proofs
open Execution Generator

/-- Every poll so far was of a fresh descriptor of its iteration, and no buffer was read into
while a read of an earlier iteration had it. -/
def Disciplined (s : IoState) : Prop :=
  s.io.badPolls = [] ∧ s.io.badReads = []

/-- An iteration that issues commands has real packets and finds none of its buffers with a read
that has not completed. -/
def Settled (p : GenParam) (s : IoState) : IoOp → Prop
  | .iterate _ => nmRingSpace s.thread.ring ≠ 0 → p.fakePacket = false ∧
      ∀ e ∈ s.io.uncompleted, (p.plan (nmRingSpace s.thread.ring)).1 ≤ e.2
  | .complete _ => True

structure IoInv (p : GenParam) (d : Descriptors) : Prop where
  polled_lt : ∀ k ∈ d.polled, k < d.issued
  uncompleted_lt : ∀ e ∈ d.uncompleted, e.1 < d.issued
  fake : p.fakePacket = true → ∀ vb, d.iod vb = none

/-! ### The two loops -/

structure Submitted (d : Descriptors) (n : Nat) (a : Descriptors) : Prop where
  issued : a.issued = d.issued + n
  iod : ∀ vb < n, a.iod vb = some (d.issued + vb)
  polled : a.polled = d.polled
  badPolls : a.badPolls = d.badPolls
  uncompleted : ∀ e, e ∈ a.uncompleted ↔ e ∈ d.uncompleted ∨ (e.1 = d.issued + e.2 ∧ e.2 < n)
  badReads : a.badReads = [] ↔ d.badReads = [] ∧ ∀ e ∈ d.uncompleted, e.1 < d.issued → n ≤ e.2

section Submit

variable {d a : Descriptors} {n : Nat} (h : Submitted d n a)

include h

lemma Submitted.mem_uncompleted_aread (e : Nat × Nat) :
    e ∈ (aread d.issued n a).uncompleted ↔
      e ∈ d.uncompleted ∨ (e.1 = d.issued + e.2 ∧ e.2 < n + 1) := by
  obtain ⟨k, vb⟩ := e
  change (k, vb) ∈ a.uncompleted ++ [(a.issued, n)] ↔ _
  rw [List.mem_append, h.uncompleted, List.mem_singleton, Prod.mk.injEq, h.issued, or_assoc]
  dsimp only
  constructor
  · rintro (hold | ⟨hk, hvb⟩ | ⟨hk, hvb⟩)
    · exact Or.inl hold
    · exact Or.inr ⟨hk, Nat.lt_succ_of_lt hvb⟩
    · exact Or.inr ⟨by omega, by omega⟩
  · rintro (hold | ⟨hk, hvb⟩)
    · exact Or.inl hold
    · rcases Nat.lt_succ_iff_lt_or_eq.mp hvb with hlt | rfl
      · exact Or.inr (Or.inl ⟨hk, hlt⟩)
      · exact Or.inr (Or.inr ⟨hk, rfl⟩)

/-- The reads of the iteration itself do not count for the next buffer. -/
lemma Submitted.busy_iff : (∃ e ∈ a.uncompleted, e.1 < d.issued ∧ e.2 = n) ↔
    ∃ e ∈ d.uncompleted, e.1 < d.issued ∧ e.2 = n := by
  constructor
  · rintro ⟨e, he, hlt, hn⟩
    rcases (h.uncompleted e).mp he with hold | ⟨hk, -⟩
    · exact ⟨e, hold, hlt, hn⟩
    · omega
  · rintro ⟨e, he, hlt, hn⟩
    exact ⟨e, (h.uncompleted e).mpr (Or.inl he), hlt, hn⟩

lemma Submitted.badReads_aread : (aread d.issued n a).badReads = [] ↔
    d.badReads = [] ∧ ∀ e ∈ d.uncompleted, e.1 < d.issued → n + 1 ≤ e.2 := by
  unfold aread
  dsimp only
  split
  · rename_i hbad
    obtain ⟨e, he, hlt, hn⟩ := h.busy_iff.mp hbad
    refine iff_of_false (by simp) fun hall => ?_
    have hle := hall.2 e he hlt
    omega
  · rename_i hgood
    rw [h.badReads]
    refine and_congr_right fun _ => ⟨fun hall e he hlt => ?_, fun hall e he hlt => ?_⟩
    · have hle := hall e he hlt
      have hne : e.2 ≠ n := fun hn => hgood (h.busy_iff.mpr ⟨e, he, hlt, hn⟩)
      omega
    · exact Nat.le_of_succ_le (hall e he hlt)

lemma Submitted.aread : Submitted d (n + 1) (Generator.aread d.issued n a) := by
  refine ⟨?_, ?_, h.polled, h.badPolls, h.mem_uncompleted_aread, h.badReads_aread⟩
  · change a.issued + 1 = d.issued + (n + 1)
    rw [h.issued, Nat.add_assoc]
  · intro vb hvb
    change Function.update a.iod n _ vb = _
    rcases Nat.lt_succ_iff_lt_or_eq.mp hvb with hlt | rfl
    · rw [Function.update_of_ne (Nat.ne_of_lt hlt), h.iod vb hlt]
    · rw [Function.update_self, h.issued]

end Submit

lemma areads_submitted (d : Descriptors) (n : Nat) : Submitted d n (areads d.issued d n) := by
  induction n with
  | zero =>
    exact ⟨rfl, fun vb hvb => absurd hvb (Nat.not_lt_zero vb), rfl, rfl, by simp [areads], by simp [areads]⟩
  | succ n ih => exact ih.aread

structure Polled (first : Nat) (poll : Nat → Int) (d : Descriptors) (n : Nat)
    (a : Descriptors) : Prop where
  issued : a.issued = d.issued
  iod : a.iod = d.iod
  polled : ∀ k, k ∈ a.polled ↔ k ∈ d.polled ∨ ∃ vb < n, k = first + vb
  badPolls : a.badPolls = d.badPolls
  uncompleted : ∀ e, e ∈ a.uncompleted ↔ e ∈ d.uncompleted ∧ ∀ vb < n, poll vb = 0 → e.1 ≠ first + vb
  badReads : a.badReads = d.badReads

/-- Polls of descriptors that were all issued in the iteration. -/
lemma apolls_polled {first n : Nat} {d : Descriptors} (poll : Nat → Int)
    (hiod : ∀ vb < n, d.iod vb = some (first + vb)) (hpolled : ∀ k ∈ d.polled, k < first) :
    Polled first poll d n (apolls first poll d n) := by
  induction n with
  | zero => exact ⟨rfl, rfl, by simp [apolls], rfl, by simp [apolls], rfl⟩
  | succ n ih =>
    have hprev := ih fun vb hvb => hiod vb (Nat.lt_succ_of_lt hvb)
    have hcell : (apolls first poll d n).iod n = some (first + n) := by
      rw [hprev.iod]
      exact hiod n (Nat.lt_succ_self n)
    have hfresh : first + n ∉ (apolls first poll d n).polled := by
      intro hmem
      rcases (hprev.polled _).mp hmem with hold | ⟨vb, hvb, heq⟩
      · have hlt := hpolled _ hold
        omega
      · omega
    have hgood : first ≤ first + n ∧ first + n ∉ (apolls first poll d n).polled :=
      ⟨Nat.le_add_right first n, hfresh⟩
    rw [apolls, apoll, hcell]
    dsimp only
    rw [if_pos hgood]
    refine ⟨hprev.issued, hprev.iod, fun k => ?_, hprev.badPolls, fun e => ?_, hprev.badReads⟩
    · rw [List.mem_append, hprev.polled, List.mem_singleton, or_assoc]
      refine or_congr_right ⟨?_, ?_⟩
      · rintro (⟨vb, hvb, hk⟩ | hk)
        · exact ⟨vb, Nat.lt_succ_of_lt hvb, hk⟩
        · exact ⟨n, Nat.lt_succ_self n, hk⟩
      · rintro ⟨vb, hvb, hk⟩
        rcases Nat.lt_succ_iff_lt_or_eq.mp hvb with hlt | rfl
        · exact Or.inl ⟨vb, hlt, hk⟩
        · exact Or.inr hk
    · rw [Nat.forall_lt_succ_right, ← and_assoc, ← hprev.uncompleted e]
      split
      · rename_i hok
        simp [hok]
      · rename_i hlate
        simp [hlate]

/-- Polls of elements that were never assigned. -/
lemma apolls_unassigned (first : Nat) (poll : Nat → Int) {d : Descriptors}
    (hiod : ∀ vb, d.iod vb = none) (n : Nat) :
    apolls first poll d n = { d with badPolls := d.badPolls ++ List.range n } := by
  induction n with
  | zero => simp [apolls]
  | succ n ih =>
    rw [apolls, ih, apoll]
    dsimp only
    rw [hiod n, List.range_succ, List.append_assoc]

/-! ### One iteration -/

section Iteration

variable {p : GenParam} {th : GenThread} {d : Descriptors} (h : IoInv p d) (env : GenEnv)

lemma plan_pos (p : GenParam) (space : Nat) : 0 < (p.plan space).1 := by
  unfold GenParam.plan
  split
  · exact p.nvbatch_pos
  · exact Nat.succ_pos _

include h in
lemma exchange_loops (hspace : nmRingSpace th.ring ≠ 0) (hfake : p.fakePacket = false) :
    ∃ a, Submitted d (p.plan (nmRingSpace th.ring)).1 a ∧
      Polled d.issued env.poll a (p.plan (nmRingSpace th.ring)).1 (exchange p th env d) := by
  have hsub := areads_submitted d (p.plan (nmRingSpace th.ring)).1
  refine ⟨areads d.issued d (p.plan (nmRingSpace th.ring)).1, hsub, ?_⟩
  have heq : exchange p th env d = apolls d.issued env.poll
      (areads d.issued d (p.plan (nmRingSpace th.ring)).1) (p.plan (nmRingSpace th.ring)).1 := by
    unfold exchange
    rw [if_neg hspace, hfake]
    rfl
  rw [heq]
  exact apolls_polled env.poll hsub.iod (hsub.polled.symm ▸ h.polled_lt)

include h in
/-- Real packets: the descriptors of the iteration are polled once each, in order. -/
lemma exchange_real (hspace : nmRingSpace th.ring ≠ 0) (hfake : p.fakePacket = false) :
    IoInv p (exchange p th env d) ∧ (exchange p th env d).badPolls = d.badPolls ∧
      ((exchange p th env d).badReads = [] ↔ d.badReads = [] ∧
        ∀ e ∈ d.uncompleted, (p.plan (nmRingSpace th.ring)).1 ≤ e.2) := by
  obtain ⟨a, hsub, hpol⟩ := exchange_loops h env hspace hfake
  refine ⟨⟨?_, ?_, ?_⟩, hpol.badPolls.trans hsub.badPolls, ?_⟩
  · intro k hk
    rw [hpol.issued, hsub.issued]
    rcases (hpol.polled k).mp hk with hold | ⟨vb, hvb, rfl⟩
    · rw [hsub.polled] at hold
      exact Nat.lt_add_right _ (h.polled_lt k hold)
    · omega
  · intro e he
    rw [hpol.issued, hsub.issued]
    rcases (hsub.uncompleted e).mp ((hpol.uncompleted e).mp he).1 with hold | ⟨hk, hvb⟩
    · exact Nat.lt_add_right _ (h.uncompleted_lt e hold)
    · omega
  · intro htrue
    rw [hfake] at htrue
    cases htrue
  · rw [hpol.badReads, hsub.badReads]
    exact and_congr_right fun _ =>
      ⟨fun hall e he => hall e he (h.uncompleted_lt e he), fun hall e he _ => hall e he⟩

include h in
/-- Fake packets: nothing is issued, and every poll is out of order. -/
lemma exchange_fake (hspace : nmRingSpace th.ring ≠ 0) (hfake : p.fakePacket = true) :
    exchange p th env d =
      { d with badPolls := d.badPolls ++ List.range (p.plan (nmRingSpace th.ring)).1 } := by
  unfold exchange
  rw [if_neg hspace, hfake]
  exact apolls_unassigned d.issued env.poll (h.fake hfake) _

include h in
lemma ioInv_exchange : IoInv p (exchange p th env d) := by
  by_cases hspace : nmRingSpace th.ring = 0
  · unfold exchange
    rw [if_pos hspace]
    exact h
  · cases hfake : p.fakePacket with
    | false => exact (exchange_real h env hspace hfake).1
    | true =>
      rw [exchange_fake h env hspace hfake]
      exact ⟨h.polled_lt, h.uncompleted_lt, h.fake⟩

/-- The iteration has free slots and reads into buffer `vb`: it is one of all `nvbatch` buffers, or the
slots before its own frames are no more than there are. -/
def UsesBuffer (p : GenParam) (th : GenThread) (vb : Nat) : Prop :=
  nmRingSpace th.ring ≠ 0 ∧
    if p.bpkts ≤ nmRingSpace th.ring then vb < p.nvbatch else vb * p.batch ≤ nmRingSpace th.ring

lemma usesBuffer_iff (p : GenParam) (th : GenThread) (vb : Nat) :
    UsesBuffer p th vb ↔ nmRingSpace th.ring ≠ 0 ∧ vb < (p.plan (nmRingSpace th.ring)).1 := by
  unfold UsesBuffer GenParam.plan
  split
  · exact Iff.rfl
  · rw [Nat.lt_succ_iff, Nat.le_div_iff_mul_le p.batch_pos]

include h in
/-- What an iteration leaves behind are its reads whose polls have failed. -/
lemma mem_exchange_uncompleted (hfake : p.fakePacket = false) (e : Nat × Nat) :
    e ∈ (exchange p th env d).uncompleted ↔
      e ∈ d.uncompleted ∨ (UsesBuffer p th e.2 ∧ env.poll e.2 ≠ 0 ∧ e.1 = d.issued + e.2) := by
  rw [usesBuffer_iff]
  by_cases hspace : nmRingSpace th.ring = 0
  · unfold exchange
    simp [hspace]
  · obtain ⟨a, hsub, hpol⟩ := exchange_loops h env hspace hfake
    rw [hpol.uncompleted, hsub.uncompleted]
    constructor
    · rintro ⟨hold | ⟨hk, hvb⟩, hlate⟩
      · exact Or.inl hold
      · exact Or.inr ⟨⟨hspace, hvb⟩, fun hok => hlate e.2 hvb hok hk, hk⟩
    · rintro (hold | ⟨⟨-, hvb⟩, hfail, hk⟩)
      · have hlt := h.uncompleted_lt e hold
        exact ⟨Or.inl hold, fun vb _ _ => by omega⟩
      · refine ⟨Or.inr ⟨hk, hvb⟩, fun vb _ hok hk' => hfail ?_⟩
        have hsame : e.2 = vb := by omega
        rwa [hsame]

end Iteration

/-! ### Runs -/

section Runs

variable {p : GenParam} {g : GenBuffers} {disk : Bytes.Mem}

lemma ioStep_iterate {s t : IoState} {env : GenEnv}
    (hs : ioStep p g disk s (.iterate env) = some t) : t.io = exchange p s.thread env s.io := by
  simp only [ioStep] at hs
  split at hs
  · cases hs
  · cases hs
    rfl

lemma ioInv_init (p : GenParam) (n : Nat) (ring : NetmapRing) (bufs : Nat → Bytes.Mem) :
    IoInv p (ioInit p n ring bufs).io :=
  ⟨by simp [ioInit], by simp [ioInit], fun _ _ => rfl⟩

lemma ioInv_step (s : IoState) (op : IoOp) (t : IoState) (h : IoInv p s.io)
    (hs : ioStep p g disk s op = some t) : IoInv p t.io := by
  cases op with
  | iterate env =>
    rw [ioStep_iterate hs]
    exact ioInv_exchange h env
  | complete k =>
    cases hs
    exact ⟨h.polled_lt, fun e he => h.uncompleted_lt e (List.mem_of_mem_filter he), h.fake⟩

/-- A step keeps the discipline exactly when the reads of earlier iterations are settled. -/
lemma disciplined_step (s : IoState) (op : IoOp) (t : IoState) (h : IoInv p s.io)
    (hd : Disciplined s) (hs : ioStep p g disk s op = some t) : Disciplined t ↔ Settled p s op := by
  cases op with
  | complete k =>
    cases hs
    exact iff_of_true hd trivial
  | iterate env =>
    unfold Disciplined Settled
    rw [ioStep_iterate hs]
    by_cases hspace : nmRingSpace s.thread.ring = 0
    · unfold exchange
      rw [if_pos hspace]
      exact iff_of_true hd fun hne => absurd hspace hne
    · cases hfake : p.fakePacket with
      | false =>
        obtain ⟨-, hpolls, hreads⟩ := exchange_real h env hspace hfake
        rw [hpolls, hreads]
        exact ⟨fun hall _ => ⟨rfl, hall.2.2⟩, fun hall => ⟨hd.1, hd.2, (hall hspace).2⟩⟩
      | true =>
        rw [exchange_fake h env hspace hfake]
        refine iff_of_false (fun hall => ?_) fun hall => absurd (hall hspace).1 (by decide)
        have hnone := (List.append_eq_nil_iff.mp hall.1).2
        rw [List.range_eq_nil] at hnone
        exact absurd hnone (plan_pos p _).ne'

/-! ### Late reads -/

/-- A read of an earlier iteration into the buffer `e.2` whose poll has failed and whose descriptor
`e.1` has not completed since. -/
def LateRead (p : GenParam) (g : GenBuffers) (disk : Bytes.Mem) (s₀ : IoState) (ops : List IoOp)
    (e : Nat × Nat) : Prop :=
  ∃ i env s, ops[i]? = some (.iterate env) ∧ exec (ioStep p g disk) s₀ (ops.take i) = some s ∧
    UsesBuffer p s.thread e.2 ∧ env.poll e.2 ≠ 0 ∧ e.1 = s.io.issued + e.2 ∧
    ∀ m, i < m → ops[m]? ≠ some (.complete e.1)

lemma lateRead_snoc {s₀ s : IoState} {ops : List IoOp} (hs : exec (ioStep p g disk) s₀ ops = some s)
    (op : IoOp) (e : Nat × Nat) :
    LateRead p g disk s₀ (ops ++ [op]) e ↔ (LateRead p g disk s₀ ops e ∧ op ≠ .complete e.1) ∨
      ∃ env, op = .iterate env ∧ UsesBuffer p s.thread e.2 ∧ env.poll e.2 ≠ 0 ∧
        e.1 = s.io.issued + e.2 := by
  have hall : (ops ++ [op]).take ops.length = ops := List.take_left
  constructor
  · rintro ⟨i, env, s', hop, hstate, huses, hfail, hk, hlate⟩
    rw [Table.getElem?_concat] at hop
    split at hop
    · rename_i hlast
      rw [hlast, hall, hs] at hstate
      cases hstate
      exact Or.inr ⟨env, Option.some.inj hop, huses, hfail, hk⟩
    · obtain ⟨hi, -⟩ := List.getElem?_eq_some_iff.mp hop
      rw [List.take_append_of_le_length hi.le] at hstate
      refine Or.inl ⟨⟨i, env, s', hop, hstate, huses, hfail, hk, fun m hm => ?_⟩, fun hcomplete => ?_⟩
      · have hnot := hlate m hm
        rw [Table.getElem?_concat] at hnot
        split at hnot
        · rename_i hlast
          rw [hlast, List.getElem?_eq_none le_rfl]
          exact fun hnone => nomatch hnone
        · exact hnot
      · apply hlate ops.length hi
        rw [Table.getElem?_concat, if_pos rfl, hcomplete]
  · rintro (⟨⟨i, env, s', hop, hstate, huses, hfail, hk, hlate⟩, hne⟩ | ⟨env, rfl, huses, hfail, hk⟩)
    · obtain ⟨hi, -⟩ := List.getElem?_eq_some_iff.mp hop
      refine ⟨i, env, s', ?_, ?_, huses, hfail, hk, fun m hm => ?_⟩
      · rw [List.getElem?_append_left hi]
        exact hop
      · rw [List.take_append_of_le_length hi.le]
        exact hstate
      · rw [Table.getElem?_concat]
        split
        · exact fun heq => hne (Option.some.inj heq)
        · exact hlate m hm
    · refine ⟨ops.length, env, s, ?_, ?_, huses, hfail, hk, fun m hm => ?_⟩
      · rw [Table.getElem?_concat, if_pos rfl]
      · rw [hall]
        exact hs
      · rw [List.getElem?_eq_none (by simp; omega)]
        exact fun hnone => nomatch hnone

/-- The reads that have not completed are the late ones. -/
lemma mem_uncompleted_iff (hfake : p.fakePacket = false) {n : Nat} {ring : NetmapRing}
    {bufs : Nat → Bytes.Mem} {ops : List IoOp} {s : IoState}
    (hs : exec (ioStep p g disk) (ioInit p n ring bufs) ops = some s) (e : Nat × Nat) :
    e ∈ s.io.uncompleted ↔ LateRead p g disk (ioInit p n ring bufs) ops e := by
  induction ops using List.reverseRecOn generalizing s with
  | nil =>
    cases hs
    refine iff_of_false (by simp [ioInit]) ?_
    rintro ⟨i, env, s', hop, -⟩
    cases hop
  | append_singleton ops op ih =>
    obtain ⟨t, ht, hstep⟩ := exec_snoc_inv hs
    rw [lateRead_snoc ht, ← ih ht]
    cases op with
    | iterate env =>
      have hinv := exec_invariant ioInv_step (ioInv_init p n ring bufs) ht
      rw [ioStep_iterate hstep, mem_exchange_uncompleted hinv env hfake]
      simp
    | complete k =>
      cases hstep
      simp only [List.mem_filter, decide_eq_true_eq, reduceCtorEq, false_and, exists_false,
        or_false, ne_eq, IoOp.complete.injEq]
      exact and_congr_right fun _ => not_congr eq_comm

/-- The late reads at some point of a run, by the iterations of the run itself. -/
lemma lateRead_take_iff {s₀ s' : IoState} {ops : List IoOp} {j : Nat}
    (hrun : exec (ioStep p g disk) s₀ (ops.take j) = some s') (e : Nat × Nat) :
    LateRead p g disk s₀ (ops.take j) e ↔
      ∃ i env s, i < j ∧ Takes (ioStep p g disk) s₀ ops i (.iterate env) s ∧
        UsesBuffer p s.thread e.2 ∧ env.poll e.2 ≠ 0 ∧ e.1 = s.io.issued + e.2 ∧
        ∀ m, i < m → m < j → ops[m]? ≠ some (.complete e.1) := by
  constructor
  · rintro ⟨i, env, s, hop, hstate, huses, hfail, hk, hopen⟩
    have hij : i < j := by
      obtain ⟨hi, -⟩ := List.getElem?_eq_some_iff.mp hop
      rw [List.length_take] at hi
      exact hi.trans_le (Nat.min_le_left _ _)
    obtain ⟨t, ht⟩ := exec_takes hrun hop
    obtain rfl : t = s := Option.some.inj (ht.state.symm.trans hstate)
    rw [List.take_take, Nat.min_eq_left hij.le] at hstate
    rw [List.getElem?_take_of_lt hij] at hop
    refine ⟨i, env, t, hij, ⟨hop, hstate, ht.taken⟩, huses, hfail, hk, fun m him hmj => ?_⟩
    rw [← List.getElem?_take_of_lt hmj]
    exact hopen m him
  · rintro ⟨i, env, s, hij, hi, huses, hfail, hk, hopen⟩
    refine ⟨i, env, s, ?_, ?_, huses, hfail, hk, fun m him heq => ?_⟩
    · rw [List.getElem?_take_of_lt hij]
      exact hi.input
    · rw [List.take_take, Nat.min_eq_left hij.le]
      exact hi.state
    · rw [List.getElem?_take] at heq
      split at heq
      next hmj => exact hopen m him hmj heq
      · cases heq

end Runs

/-- No iteration with free slots uses fake packets. -/
def RealPackets (p : GenParam) (g : GenBuffers) (disk : Bytes.Mem) (s₀ : IoState)
    (ops : List IoOp) : Prop :=
  ∀ i env s, Takes (ioStep p g disk) s₀ ops i (.iterate env) s →
    nmRingSpace s.thread.ring ≠ 0 → p.fakePacket = false

/-- Before a buffer is used again after a poll for it has failed, its read completes: it is the one that
was given the descriptor `issued + vb` in its iteration. -/
def LateReadsAwaited (p : GenParam) (g : GenBuffers) (disk : Bytes.Mem) (s₀ : IoState)
    (ops : List IoOp) : Prop :=
  ∀ i j env env' s s', i < j → Takes (ioStep p g disk) s₀ ops i (.iterate env) s →
    Takes (ioStep p g disk) s₀ ops j (.iterate env') s' →
    ∀ vb, UsesBuffer p s.thread vb → UsesBuffer p s'.thread vb → env.poll vb ≠ 0 →
      ∃ m, i < m ∧ m < j ∧ ops[m]? = some (.complete (s.io.issued + vb))

/-- Over every run, with any time-outs and late completions, the discipline holds exactly when no
iteration uses fake packets, and every buffer is left alone after a failed poll until its read has
completed. -/
theorem poll_discipline_iff (p : GenParam) (g : GenBuffers) (disk : Bytes.Mem) (n : Nat)
    (ring : NetmapRing) (bufs : Nat → Bytes.Mem) (ops : List IoOp) :
    Throughout (ioStep p g disk) Disciplined (ioInit p n ring bufs) ops ↔
      RealPackets p g disk (ioInit p n ring bufs) ops ∧
        LateReadsAwaited p g disk (ioInit p n ring bufs) ops := by
  rw [throughout_iff_guarded ioInv_step disciplined_step (ioInv_init p n ring bufs) ⟨rfl, rfl⟩,
    guarded_iff_takes]
  constructor
  · intro h
    have hreal : RealPackets p g disk (ioInit p n ring bufs) ops :=
      fun i env s hi hspace => (h i _ s hi hspace).1
    refine ⟨hreal, ?_⟩
    intro i j env env' s s' hij hi hj vb hvb hvb' hfail
    obtain ⟨hspace, hplan⟩ := (usesBuffer_iff p s'.thread vb).mp hvb'
    have hfake := hreal j env' s' hj hspace
    by_contra hnone
    -- otherwise the read of the first iteration is late when the second one starts
    have hread : LateRead p g disk (ioInit p n ring bufs) (ops.take j) (s.io.issued + vb, vb) :=
      (lateRead_take_iff hj.state _).mpr ⟨i, env, s, hij, hi, hvb, hfail, rfl,
        fun m him hmj heq => hnone ⟨m, him, hmj, heq⟩⟩
    have hle := (h j _ s' hj hspace).2 _ ((mem_uncompleted_iff hfake hj.state _).mpr hread)
    omega
  · rintro ⟨hreal, hlate⟩ j op s' hj
    cases op with
    | complete k => trivial
    | iterate env' =>
      intro hspace
      have hfake := hreal j env' s' hj hspace
      refine ⟨hfake, fun e he => ?_⟩
      obtain ⟨i, env, s, hij, hi, huses, hfail, hk, hopen⟩ :=
        (lateRead_take_iff hj.state e).mp ((mem_uncompleted_iff hfake hj.state e).mp he)
      by_contra hused
      obtain ⟨m, him, hmj, hm⟩ := hlate i j env env' s s' hij hi hj e.2 huses
        ((usesBuffer_iff p s'.thread e.2).mpr ⟨hspace, not_le.mp hused⟩) hfail
      exact hopen m him hmj (hk ▸ hm)

/-- Every poll times out. -/
def allTimedOut : GenEnv :=
  ⟨fun _ => 0, fun _ => -1, some 7⟩

/-- `twoByTwo` with the option `-F`. -/
def fakeTwoByTwo : GenParam :=
  { twoByTwo with fakePacket := true }

/-- The first iteration of a run with fake packets polls two elements that were never assigned;
and an iteration after time-outs reads into both buffers again. -/
theorem poll_discipline_broken :
    (exec (ioStep fakeTwoByTwo twoByTwoBuffers fun _ => 0)
      (ioInit fakeTwoByTwo 0 (atStart 7).ring fun _ _ => 0)
      [.iterate allPolled]).map (fun s => s.io.badPolls) = some [0, 1] ∧
    ¬Throughout (ioStep fakeTwoByTwo twoByTwoBuffers fun _ => 0) Disciplined
      (ioInit fakeTwoByTwo 0 (atStart 7).ring fun _ _ => 0) [.iterate allPolled] ∧
    (exec (ioStep twoByTwo twoByTwoBuffers fun _ => 0) (ioInit twoByTwo 0 (atStart 7).ring fun _ _ => 0)
      [.iterate allTimedOut, .iterate allPolled]).map (fun s => s.io.badReads) = some [0, 1] ∧
    ¬Throughout (ioStep twoByTwo twoByTwoBuffers fun _ => 0) Disciplined
      (ioInit twoByTwo 0 (atStart 7).ring fun _ _ => 0) [.iterate allTimedOut, .iterate allPolled] := by
  have hpolls : (exec (ioStep fakeTwoByTwo twoByTwoBuffers fun _ => 0)
      (ioInit fakeTwoByTwo 0 (atStart 7).ring fun _ _ => 0)
        [.iterate allPolled]).map (fun s => s.io.badPolls) =
      some [0, 1] := rfl
  have hreads :
      (exec (ioStep twoByTwo twoByTwoBuffers fun _ => 0)
        (ioInit twoByTwo 0 (atStart 7).ring fun _ _ => 0)
      [.iterate allTimedOut, .iterate allPolled]).map (fun s => s.io.badReads) = some [0, 1] := rfl
  refine ⟨hpolls, not_throughout_of_map hpolls ?_, hreads, not_throughout_of_map hreads ?_⟩
  · intro s hs hd
    rw [hd.1] at hs
    cases hs
  · intro s hs hd
    rw [hd.2] at hs
    cases hs

end Libpop.Proofs
