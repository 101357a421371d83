import Mathlib.Order.Interval.Set.Basic
import Libpop.Bench
import Libpop.Proofs.LbaWalks

/-!
# The blocks that bench-nvme touches

Along every run each thread stays in its own range of LBAs, and the equal split gives the
threads ranges that do not meet.
-/

namespace Libpop.Proofs
open BenchNvme Execution

/-- Every walk of a range that is longer than a command stays in it, and never divides by 0. -/
lemma nextLba_inside (walk : WalkMode) (rand : BitVec 31) {lba lbaStart lbaEnd nblocks : BitVec 64}
    {n : Nat} (hn : nblocks.toNat = n) (hlong : lbaStart.toNat + n < lbaEnd.toNat)
    (hmax : lbaEnd.toNat + 2 * n < 2 ^ 64) (h : WalkInside lbaStart lbaEnd n lba) :
    ∃ lba', nextLba walk lba lbaStart lbaEnd nblocks rand = some lba' ∧
      WalkInside lbaStart lbaEnd n lba' := by
  obtain ⟨hlo, hhi⟩ := h
  cases walk with
  | seq =>
    have htwo : (nblocks <<< 1).toNat = 2 * nblocks.toNat :=
      Word.toNat_shiftLeft_one nblocks (by omega)
    by_cases hnext : lba + (nblocks <<< 1) < lbaEnd
    · refine ⟨lba + nblocks, by rw [nextLba, if_pos hnext], ?_⟩
      rw [BitVec.lt_def, BitVec.toNat_add, htwo] at hnext
      unfold WalkInside
      rw [BitVec.toNat_add]
      omega
    · exact ⟨lbaStart, by rw [nextLba, if_neg hnext], le_refl _, hlong.le⟩
  | random =>
    subst hn
    obtain ⟨hne, hin⟩ := random_inside rand hlong
    exact ⟨_, by rw [nextLba, if_neg hne], hin⟩
  | same => exact ⟨lba, rfl, hlo, hhi⟩

/-! ### The ranges -/

/-- The number of LBAs in the range of each thread. -/
def BenchParam.rangeLength (p : BenchParam) : Nat :=
  match p.split with
  | .equal => p.lbaEnd.toNat / p.ncpus
  | .nosplit => p.lbaEnd.toNat

section Ranges

variable (p : BenchParam)

lemma nblocks_lt : p.nblocks < 2 ^ 32 := by
  have hsize := p.size_lt
  have hshift : p.size >>> p.blockshift ≤ p.size := by
    rw [Nat.shiftRight_eq_div_pow]
    exact Nat.div_le_self _ _
  unfold BenchParam.nblocks
  split <;> omega

lemma toNat_nblocks : (BitVec.ofNat 64 p.nblocks).toNat = p.nblocks := by
  have hlt := nblocks_lt p
  rw [BitVec.toNat_ofNat]
  omega

lemma range_equal (hs : p.split = .equal) {n : Nat} (hn : n < p.ncpus) :
    (p.range n).1.toNat = BenchParam.rangeLength p * n ∧
      (p.range n).2.toNat = BenchParam.rangeLength p * (n + 1) ∧
      BenchParam.rangeLength p * (n + 1) ≤ p.lbaEnd.toNat := by
  have hcpus := p.ncpus_lt
  unfold BenchParam.range BenchParam.rangeLength
  rw [hs]
  refine ⟨Word.toNat_div_mul p.lbaEnd (by omega) hn.le, Word.toNat_div_mul p.lbaEnd (by omega) hn,
    ?_⟩
  calc p.lbaEnd.toNat / p.ncpus * (n + 1) ≤ p.lbaEnd.toNat / p.ncpus * p.ncpus := Nat.mul_le_mul_left _ hn
    _ ≤ p.lbaEnd.toNat := Nat.div_mul_le_self _ _

/-- Every range has the same length and ends before the end of the namespace. -/
lemma range_length {n : Nat} (hn : n < p.ncpus) :
    (p.range n).2.toNat = (p.range n).1.toNat + BenchParam.rangeLength p ∧
      (p.range n).2.toNat ≤ p.lbaEnd.toNat := by
  cases hs : p.split with
  | equal =>
    obtain ⟨hstart, hend, hle⟩ := range_equal p hs hn
    rw [hstart, hend]
    exact ⟨Nat.mul_succ _ _, hle⟩
  | nosplit => simp [BenchParam.range, BenchParam.rangeLength, hs]

/-- The ranges of an equal split follow one another. -/
lemma range_equal_le (hs : p.split = .equal) {m n : Nat} (hn : n < p.ncpus) (hmn : m < n) :
    (p.range m).2.toNat ≤ (p.range n).1.toNat := by
  rw [(range_equal p hs (hmn.trans hn)).2.1, (range_equal p hs hn).1]
  exact Nat.mul_le_mul_left _ hmn

end Ranges

/-! ### Steps -/

/-- A thread issues a command and moves on in its walk, or does neither. -/
inductive BenchMove (p : BenchParam) (n : Nat) (th th' : BenchThread) : Option Command → Prop
  | silent (hlba : th'.lba = th.lba) : BenchMove p n th th' none
  | issued {b : Nat} {rand : BitVec 31} (hpc : th.pc = .issue b)
      (hnext : nextLba p.walk th.lba th.lbaStart th.lbaEnd (BitVec.ofNat 64 p.nblocks) rand = some th'.lba) :
      BenchMove p n th th' (some ⟨n, b, p.mode, th.lba, BitVec.ofNat 32 p.nblocks⟩)

section Steps

variable {p : BenchParam} {n : Nat}

lemma issueFrom_batch {b b' : Nat} (h : issueFrom p b = .issue b') : b' < p.batch := by
  unfold issueFrom pollFrom at h
  split at h
  · cases h
    assumption
  · split at h <;> cases h

lemma pollFrom_ne_issue {b b' : Nat} : pollFrom p b ≠ .issue b' := by
  unfold pollFrom
  split <;> simp

lemma benchStart_move {caught : Bool} {th th' : BenchThread} {op : BenchOp}
    {command : Option Command} (h : benchStart p caught n th op = some (th', command)) :
    th'.lbaStart = th.lbaStart ∧ th'.lbaEnd = th.lbaEnd ∧ (∀ b, th'.pc = .issue b → b < p.batch) ∧
      BenchMove p n th th' command := by
  unfold benchStart at h
  split at h
  · cases h
    refine ⟨rfl, rfl, fun b hb => ?_, .silent rfl⟩
    cases caught
    · exact issueFrom_batch hb
    · cases hb
  · rename_i b rand hpc
    cases hnext : nextLba p.walk th.lba th.lbaStart th.lbaEnd (BitVec.ofNat 64 p.nblocks) rand with
    | none =>
      rw [hnext] at h
      cases h
    | some lba =>
      rw [hnext] at h
      cases h
      exact ⟨rfl, rfl, fun b hb => issueFrom_batch hb, .issued hpc hnext⟩
  · dsimp only at h
    split at h <;> cases h <;> exact ⟨rfl, rfl, fun b hb => absurd hb pollFrom_ne_issue, .silent rfl⟩
  · cases h

/-- A step of a run: the signal, or a step of one thread that leaves the others alone. -/
lemma benchStep_cases {s t : BenchState} {event : BenchEvent} (h : benchStep p s event = some t) :
    (t.threads = s.threads ∧ t.commands = s.commands) ∨
      ∃ n op th th' command, s.threads[n]? = some th ∧
        benchStart p s.caughtSignal n th op = some (th', command) ∧
        t.threads[n]? = some th' ∧ (∀ m, m ≠ n → t.threads[m]? = s.threads[m]?) ∧
        t.commands = s.commands ++ command.toList := by
  cases event with
  | signal =>
    cases h
    exact Or.inl ⟨rfl, rfl⟩
  | run n op =>
    simp only [benchStep] at h
    split at h
    · cases h
    · rename_i th hth
      split at h
      · cases h
      · rename_i th' command hrun
        cases h
        refine Or.inr ⟨n, op, th, th', command, hth, hrun, ?_, ?_, rfl⟩
        · exact List.getElem?_set_self (List.getElem?_eq_some_iff.mp hth).1
        · intro m hm
          exact List.getElem?_set_ne hm.symm

lemma benchInit_threads {th : BenchThread} (h : (benchInit p).threads[n]? = some th) :
    n < p.ncpus ∧ th = spawn p n := by
  rw [benchInit, List.getElem?_map, Option.map_eq_some_iff] at h
  obtain ⟨k, hk, rfl⟩ := h
  obtain ⟨hn, hk⟩ := List.getElem?_eq_some_iff.mp hk
  rw [List.length_range] at hn
  rw [List.getElem_range] at hk
  exact ⟨hn, hk ▸ rfl⟩

end Steps

/-! ### Runs -/

structure BenchInv (p : BenchParam) (s : BenchState) : Prop where
  threads : ∀ n th, s.threads[n]? = some th → n < p.ncpus ∧ th.lbaStart = (p.range n).1 ∧
    th.lbaEnd = (p.range n).2 ∧ WalkInside (p.range n).1 (p.range n).2 p.nblocks th.lba
  commands : ∀ c ∈ s.commands, c.qid < p.ncpus ∧ c.nblocks.toNat = p.nblocks ∧
    WalkInside (p.range c.qid).1 (p.range c.qid).2 p.nblocks c.lba

section Runs

variable {p : BenchParam} (hlong : p.nblocks < BenchParam.rangeLength p)
  (hmax : p.lbaEnd.toNat + 2 * p.nblocks < 2 ^ 64)

include hlong in
lemma benchInv_init : BenchInv p (benchInit p) := by
  refine ⟨?_, by simp [benchInit]⟩
  intro n th hth
  obtain ⟨hn, rfl⟩ := benchInit_threads hth
  obtain ⟨hend, -⟩ := range_length p hn
  exact ⟨hn, rfl, rfl, le_refl _, by simp only [spawn]; omega⟩

include hlong hmax in
/-- A thread issues its command where the walk is, and the walk stays in the range. -/
lemma benchStart_inside {caught : Bool} {n : Nat} {th th' : BenchThread} {op : BenchOp}
    {command : Option Command} (hn : n < p.ncpus) (hstart : th.lbaStart = (p.range n).1)
    (hend : th.lbaEnd = (p.range n).2) (h : WalkInside (p.range n).1 (p.range n).2 p.nblocks th.lba)
    (hs : benchStart p caught n th op = some (th', command)) :
    th'.lbaStart = th.lbaStart ∧ th'.lbaEnd = th.lbaEnd ∧
      WalkInside (p.range n).1 (p.range n).2 p.nblocks th'.lba ∧
      ∀ c ∈ command, c.qid = n ∧ c.nblocks = BitVec.ofNat 32 p.nblocks ∧ c.lba = th.lba := by
  obtain ⟨hstart', hend', -, hmove⟩ := benchStart_move hs
  refine ⟨hstart', hend', ?_⟩
  cases hmove with
  | silent hlba => exact ⟨hlba ▸ h, by simp⟩
  | issued hpc hnext =>
    obtain ⟨hlen, hle⟩ := range_length p hn
    have hblocks := toNat_nblocks p
    obtain ⟨lba, hlba, hin⟩ := nextLba_inside p.walk _ hblocks (by omega) (by omega) h
    rw [hstart, hend, hlba, Option.some.injEq] at hnext
    exact ⟨hnext ▸ hin, by simp⟩

include hlong hmax in
lemma benchInv_step (s : BenchState) (event : BenchEvent) (t : BenchState) (h : BenchInv p s)
    (hs : benchStep p s event = some t) : BenchInv p t := by
  rcases benchStep_cases hs with ⟨hthreads, hcommands⟩ |
    ⟨n, op, th, th', command, hth, hrun, hself, hothers, hcommands⟩
  · exact ⟨hthreads ▸ h.threads, hcommands ▸ h.commands⟩
  · obtain ⟨hn, hstart, hend, hin⟩ := h.threads n th hth
    obtain ⟨hstart', hend', hin', hcmd⟩ := benchStart_inside hlong hmax hn hstart hend hin hrun
    refine ⟨?_, ?_⟩
    · intro m th'' hm
      by_cases hmn : m = n
      · subst hmn
        rw [hself, Option.some.injEq] at hm
        subst hm
        exact ⟨hn, hstart'.trans hstart, hend'.trans hend, hin'⟩
      · rw [hothers m hmn] at hm
        exact h.threads m th'' hm
    · intro c hc
      rw [hcommands] at hc
      rcases List.mem_append.mp hc with hc | hc
      · exact h.commands c hc
      · obtain ⟨rfl, hblocks, hlba⟩ := hcmd c (Option.mem_toList.mp hc)
        refine ⟨hn, ?_, hlba ▸ hin⟩
        rw [hblocks, BitVec.toNat_ofNat]
        exact Nat.mod_eq_of_lt (nblocks_lt p)

end Runs

/-- The LBAs that a command touches. -/
def Command.blocks (c : Command) : Set Nat :=
  Set.Ico c.lba.toNat (c.lba.toNat + c.nblocks.toNat)

/-- Along every run each command of a thread has the blocks of one I/O and touches only the
range of its thread, which lies below the end LBA; with the equal split the commands of
different threads touch no common block. -/
theorem commands_in_ranges (p : BenchParam) (hpos : 1 ≤ p.nblocks)
    (hlong : p.nblocks < BenchParam.rangeLength p) (hmax : p.lbaEnd.toNat + 2 * p.nblocks < 2 ^ 64)
    {events : List BenchEvent} {s : BenchState}
    (h : exec (benchStep p) (benchInit p) events = some s) :
    (∀ c ∈ s.commands, c.nblocks.toNat = p.nblocks ∧ (Command.blocks c).Nonempty ∧
      Command.blocks c ⊆ Set.Ico (p.range c.qid).1.toNat (p.range c.qid).2.toNat ∧
      Command.blocks c ⊆ Set.Ico 0 p.lbaEnd.toNat) ∧
    (p.split = .equal → ∀ c ∈ s.commands, ∀ d ∈ s.commands, c.qid ≠ d.qid →
      Disjoint (Command.blocks c) (Command.blocks d)) := by
  have hinv := exec_invariant (benchInv_step hlong hmax) (benchInv_init hlong) h
  have hin : ∀ c ∈ s.commands,
      Command.blocks c ⊆ Set.Ico (p.range c.qid).1.toNat (p.range c.qid).2.toNat := by
    intro c hc
    obtain ⟨-, hblocks, hlo, hhi⟩ := hinv.commands c hc
    apply Set.Ico_subset_Ico hlo
    omega
  refine ⟨?_, ?_⟩
  · intro c hc
    obtain ⟨hn, hblocks, -⟩ := hinv.commands c hc
    refine ⟨hblocks, ⟨c.lba.toNat, by simp [Command.blocks]; omega⟩, hin c hc, ?_⟩
    exact (hin c hc).trans (Set.Ico_subset_Ico (Nat.zero_le _) (range_length p hn).2)
  · intro hs c hc d hd hne
    refine Set.disjoint_of_subset (hin c hc) (hin d hd) ?_
    rw [Set.disjoint_left]
    rintro lba ⟨hlo, hhi⟩ ⟨hlo', hhi'⟩
    rcases Nat.lt_or_gt_of_ne hne with hlt | hlt
    · have hle := range_equal_le p hs (hinv.commands d hd).1 hlt
      omega
    · have hle := range_equal_le p hs (hinv.commands c hc).1 hlt
      omega

/-- Two threads that write 8 KiB at a time to the first 64 blocks of 4 KiB. -/
def twoWriters : BenchParam :=
  ⟨.write, .seq, .equal, 8192, 2, 2, 64, 12, by decide, by decide, by decide, by decide⟩

theorem commands_in_ranges_two :
    ∃ s, exec (benchStep twoWriters) (benchInit twoWriters)
        [.run 0 .loop, .run 1 .loop, .run 0 (.issue 0), .run 1 (.issue 0), .run 0 (.issue 0)] =
          some s ∧
      s.commands = [⟨0, 0, .write, 0, 2⟩, ⟨1, 0, .write, 32, 2⟩, ⟨0, 1, .write, 2, 2⟩] ∧
      ∀ c ∈ s.commands, ∀ d ∈ s.commands, c.qid ≠ d.qid →
        Disjoint (Command.blocks c) (Command.blocks d) := by
  obtain ⟨s, hs, hcommands⟩ : ∃ s, exec (benchStep twoWriters) (benchInit twoWriters)
      [.run 0 .loop, .run 1 .loop, .run 0 (.issue 0), .run 1 (.issue 0), .run 0 (.issue 0)] = some s ∧
        s.commands = [⟨0, 0, .write, 0, 2⟩, ⟨1, 0, .write, 32, 2⟩, ⟨0, 1, .write, 2, 2⟩] := ⟨_, rfl, rfl⟩
  exact ⟨s, hs, hcommands, (commands_in_ranges twoWriters (by decide) (by decide) (by decide) hs).2 rfl⟩

/-! ### Commands in sequence -/

/-- The commands that thread `n` has issued. -/
def commandsOf (s : BenchState) (n : Nat) : List Command :=
  s.commands.filter fun c => c.qid == n

/-- The LBA of command `j` of thread `n` in a sequential walk. -/
def turnLba (p : BenchParam) (n j : Nat) : Nat :=
  (p.range n).1.toNat + j % benchTurn (p.range n).1 (p.range n).2 (BitVec.ofNat 64 p.nblocks) * p.nblocks

structure TurnInv (p : BenchParam) (s : BenchState) : Prop where
  threads : ∀ n th, s.threads[n]? = some th → n < p.ncpus ∧ th.lbaStart = (p.range n).1 ∧
    th.lbaEnd = (p.range n).2 ∧ th.lba.toNat = turnLba p n (commandsOf s n).length
  commands : ∀ n j c, (commandsOf s n)[j]? = some c → c.lba.toNat = turnLba p n j

section Turns

variable {p : BenchParam}

lemma commandsOf_append_self {s t : BenchState} {c : Command} (h : t.commands = s.commands ++ [c]) :
    commandsOf t c.qid = commandsOf s c.qid ++ [c] := by
  simp [commandsOf, h]

lemma commandsOf_append_other {s t : BenchState} {c : Command} {n : Nat}
    (h : t.commands = s.commands ++ [c]) (hn : n ≠ c.qid) : commandsOf t n = commandsOf s n := by
  simp [commandsOf, h, hn.symm]

lemma turnInv_init : TurnInv p (benchInit p) := by
  refine ⟨?_, by simp [commandsOf, benchInit]⟩
  intro n th hth
  obtain ⟨hn, rfl⟩ := benchInit_threads hth
  exact ⟨hn, rfl, rfl, by simp [turnLba, commandsOf, benchInit, spawn]⟩

variable (hseq : p.walk = .seq) (hpos : 1 ≤ p.nblocks) (hfit : p.nblocks ≤ BenchParam.rangeLength p)
  (hmax : p.lbaEnd.toNat + p.nblocks < 2 ^ 64)

include hpos hfit hmax in
lemma turnLba_succ (rand : BitVec 31) {n j : Nat} {lba : BitVec 64} (hn : n < p.ncpus)
    (hlba : lba.toNat = turnLba p n j) :
    ∃ lba', nextLba .seq lba (p.range n).1 (p.range n).2 (BitVec.ofNat 64 p.nblocks) rand =
      some lba' ∧
      lba'.toNat = turnLba p n (j + 1) := by
  obtain ⟨hlen, hle⟩ := range_length p hn
  have hblocks := toNat_nblocks p
  have hturn : 0 < benchTurn (p.range n).1 (p.range n).2 (BitVec.ofNat 64 p.nblocks) :=
    Nat.lt_of_lt_of_le Nat.zero_lt_one (Nat.le_max_left _ _)
  have hk := Nat.mod_lt j hturn
  have hat : lba.toNat = (p.range n).1.toNat +
      j % benchTurn (p.range n).1 (p.range n).2 (BitVec.ofNat 64 p.nblocks) *
        (BitVec.ofNat 64 p.nblocks).toNat := by
    rw [hlba, hblocks]
    rfl
  obtain ⟨lba', hnext, hto⟩ := benchWalk_turn rand (by omega) (by omega) (by omega) hk hat
  refine ⟨lba', hnext, ?_⟩
  have hmod := Stride.turn_add_mod hk 0
  rw [Nat.add_zero, Nat.mod_eq_of_lt (Stride.turn_lt hk), Nat.mod_add_mod] at hmod
  rw [hto, hmod, hblocks]
  rfl

/-- A step without a command. -/
lemma TurnInv.silent {s t : BenchState} (h : TurnInv p s) (hcommands : t.commands = s.commands)
    (hthreads : ∀ (n : Nat) (th' : BenchThread), t.threads[n]? = some th' →
      ∃ th : BenchThread, s.threads[n]? = some th ∧ th'.lbaStart = th.lbaStart ∧
        th'.lbaEnd = th.lbaEnd ∧
        th'.lba = th.lba) : TurnInv p t := by
  have hof : commandsOf t = commandsOf s := by
    funext n
    rw [commandsOf, commandsOf, hcommands]
  refine ⟨?_, hof ▸ h.commands⟩
  intro n th' hth'
  obtain ⟨th, hth, hstart, hend, hlba⟩ := hthreads n th' hth'
  rw [hof, hstart, hend, hlba]
  exact h.threads n th hth

lemma turnLba_snoc {n : Nat} {commands : List Command} {c : Command}
    (h : ∀ j d, commands[j]? = some d → d.lba.toNat = turnLba p n j)
    (hc : c.lba.toNat = turnLba p n commands.length) {j : Nat} {d : Command}
    (hd : (commands ++ [c])[j]? = some d) : d.lba.toNat = turnLba p n j := by
  rw [List.getElem?_append] at hd
  split at hd
  · exact h j d hd
  · obtain ⟨hlen, hd⟩ := List.getElem?_eq_some_iff.mp hd
    rw [List.length_singleton] at hlen
    have hj : j = commands.length := by omega
    rw [List.getElem_singleton] at hd
    rw [← hd, hj]
    exact hc

include hseq hpos hfit hmax in
lemma turnInv_step (s : BenchState) (event : BenchEvent) (t : BenchState) (h : TurnInv p s)
    (hs : benchStep p s event = some t) : TurnInv p t := by
  rcases benchStep_cases hs with ⟨hthreads, hcommands⟩ |
    ⟨n, op, th, th', command, hth, hrun, hself, hothers, hcommands⟩
  · apply h.silent hcommands
    intro n th hth
    rw [hthreads] at hth
    exact ⟨th, hth, rfl, rfl, rfl⟩
  · obtain ⟨hn, hstart, hend, hlba⟩ := h.threads n th hth
    obtain ⟨hstart', hend', -, hmove⟩ := benchStart_move hrun
    cases hmove with
    | silent hsame =>
      rw [Option.toList_none, List.append_nil] at hcommands
      apply h.silent hcommands
      intro m th'' hm
      by_cases hmn : m = n
      · subst hmn
        rw [hself, Option.some.injEq] at hm
        subst hm
        exact ⟨th, hth, hstart', hend', hsame⟩
      · rw [hothers m hmn] at hm
        exact ⟨th'', hm, rfl, rfl, rfl⟩
    | issued hpc hnext =>
      rw [Option.toList_some] at hcommands
      have hof := commandsOf_append_self hcommands
      dsimp only at hof
      refine ⟨?_, ?_⟩
      · intro m th'' hm
        by_cases hmn : m = n
        · subst hmn
          rw [hself, Option.some.injEq] at hm
          subst hm
          obtain ⟨lba, hlba', hto⟩ := turnLba_succ hpos hfit hmax _ hn hlba
          rw [hseq, hstart, hend, hlba', Option.some.injEq] at hnext
          rw [hof, List.length_append, List.length_singleton, ← hnext]
          exact ⟨hn, hstart'.trans hstart, hend'.trans hend, hto⟩
        · rw [hothers m hmn] at hm
          rw [commandsOf_append_other hcommands hmn]
          exact h.threads m th'' hm
      · intro m j c hc
        by_cases hmn : m = n
        · subst hmn
          rw [hof] at hc
          exact turnLba_snoc (h.commands m) hlba hc
        · rw [commandsOf_append_other hcommands hmn] at hc
          exact h.commands m j c hc

include hseq hpos hfit hmax in
/-- Along every run the commands of a sequential thread follow the walk of `next_lba`, each
one from where the last one left it. -/
theorem commands_in_turn {events : List BenchEvent} {s : BenchState}
    (h : exec (benchStep p) (benchInit p) events = some s) {n j : Nat} {c : Command}
    (hc : (commandsOf s n)[j]? = some c) : c.lba.toNat = turnLba p n j :=
  (exec_invariant (turnInv_step hseq hpos hfit hmax) turnInv_init h).commands n j c hc

end Turns

end Libpop.Proofs
