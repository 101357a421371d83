import Mathlib.Data.List.Pairwise
import Libpop.Loading
import Libpop.Proofs.NicQueue

/-!
# Publication of loaded slots

nvgen reads the result of a poll only to count bytes, and a pass publishes all its slots at once.
While the ring is kept a queue, every slot that becomes visible is loaded exactly when each read of
the pass completed with status 0 and none of them went past the end of the packet buffer.
-/

namespace Libpop.Proofs
open Execution

/-- Every read with data completed with status 0 and ended inside the packet buffer. -/
def AllCompleted (cs : List (Aread × Int)) : Prop :=
  ∀ c ∈ cs, c.1.nblocks ≠ 0 → c.2 = 0 ∧ c.1.slot.toNat + 2 * c.1.nblocks.toNat ≤ slotNum

def PublishesLoaded (s : LoadState) : RingOp → Prop
  | .unvme .publish => AllCompleted (s.reads.zip s.rets)
  | _ => True

/-! ### The slots of a pass -/

/-- The slots of a read in the order in which the ring counts them. -/
def readSlots (read : Aread) : List Nat :=
  Circular.slots 256 read.slot.toNat (2 * read.nblocks.toNat)

lemma mem_target_of_fits {read : Aread} {x : Nat}
    (hfits : read.slot.toNat + 2 * read.nblocks.toNat ≤ slotNum)
    (hx : x ∈ readSlots read) : x ∈ read.target := by
  obtain ⟨k, hk, rfl⟩ := Circular.mem_slots.mp hx
  apply mem_target.mpr
  unfold slotNum at hfits
  unfold reach slotNum
  omega

section Cover

variable {cs : List (Aread × Int)}

/-- The read that a slot of the pass belongs to. -/
lemma owner_unique (hnodup : (cs.flatMap fun c => readSlots c.1).Nodup) {c c' : Aread × Int}
    (hc : c ∈ cs) (hc' : c' ∈ cs) {x : Nat} (hx : x ∈ readSlots c.1)
    (hx' : x ∈ readSlots c'.1) : c = c' := by
  by_contra hne
  have hpairs := (List.nodup_flatMap.mp hnodup).2
  have hsymm : Std.Symm (Function.onFun List.Disjoint fun c : Aread × Int => readSlots c.1) :=
    ⟨fun _ _ hdisj _ hy hy' => hdisj hy' hy⟩
  exact hpairs.forall hc hc' hne hx hx'

/-- The completed reads of a pass cover its slots exactly when all of them completed and none went
past the end of the buffer: no other read has the slots that such a one leaves out. -/
lemma covered_iff (hnodup : (cs.flatMap fun c => readSlots c.1).Nodup)
    (hsize : ∀ c ∈ cs, c.1.slot.toNat < 256 ∧ 2 * c.1.nblocks.toNat < 256) :
    (∀ x ∈ cs.flatMap fun c => readSlots c.1, ∃ c ∈ cs, c.2 = 0 ∧ x ∈ c.1.target) ↔
      AllCompleted cs := by
  constructor
  · intro hcover c hc hn
    obtain ⟨hslot, hlen⟩ := hsize c hc
    have hpos : 0 < c.1.nblocks.toNat := Nat.pos_of_ne_zero fun hz => hn (BitVec.eq_of_toNat_eq hz)
    have hown : ∀ x ∈ readSlots c.1, c.2 = 0 ∧ x ∈ c.1.target := by
      intro x hx
      obtain ⟨c', hc', hok, hx'⟩ := hcover x (List.mem_flatMap.mpr ⟨c, hc, hx⟩)
      obtain rfl := owner_unique hnodup hc hc' hx (mem_slots_of_target hx')
      exact ⟨hok, hx'⟩
    have hfirst := hown _ (Circular.mem_slots.mpr ⟨0, by omega, rfl⟩)
    refine ⟨hfirst.1, ?_⟩
    by_contra hover
    unfold slotNum at hover
    -- slot 0 is one of its slots, and lies before its destination
    have hwrapped := hown 0 (Circular.mem_slots.mpr ⟨256 - c.1.slot.toNat, by omega, by omega⟩)
    have hrange := mem_target.mp hwrapped.2
    omega
  · intro hall x hx
    obtain ⟨c, hc, hx⟩ := List.mem_flatMap.mp hx
    obtain ⟨k, hk, -⟩ := Circular.mem_slots.mp hx
    have hn : c.1.nblocks ≠ 0 := by
      intro hzero
      rw [hzero] at hk
      exact Nat.not_lt_zero k hk
    obtain ⟨hok, hfits⟩ := hall c hc hn
    exact ⟨c, hc, hok, mem_target_of_fits hfits hx⟩

end Cover

lemma slotsBetween_eq {r : NvgenRing} (hm : r.mask = 255) {start stop : BitVec 32} {p n : Nat}
    (hstart : start.toNat = p % 256) (hstop : stop.toNat = (p + n) % 256) (hn : n < 256) :
    r.slotsBetween start stop = Circular.slots 256 p n := by
  have hcount : ((stop - start) &&& r.mask).toNat = n := by
    have hlow := Word.toNat_and_low (stop - start) 8 (by decide)
    rw [hm]
    refine hlow.trans ?_
    rw [BitVec.toNat_sub, hstart, hstop]
    omega
  unfold NvgenRing.slotsBetween Circular.slots
  rw [hcount]
  apply List.map_congr_left
  intro k _
  rw [toNat_writeNextBatch hm, hstart, BitVec.toNat_ofNat]
  omega

/-! ### Reads and polls of a pass -/

/-- How far a pass has come with its reads and with their polls. -/
def PassPolls (reads : List Aread) (rets : List Int) (t : UnvmeThread) : Prop :=
  match t.pc with
  | .top | .done => reads = [] ∧ rets = []
  | .issue => reads.length = t.b.toNat ∧ rets = []
  | .poll => reads.length = t.batch.toNat ∧ rets.length = t.b.toNat ∧ t.b.toNat < t.batch.toNat
  | .publish => reads.length = rets.length

lemma PassPolls.afterIssue {reads : List Aread} {t : UnvmeThread}
    (hreads : reads.length = t.b.toNat) (hb : t.b.toNat ≤ t.batch.toNat) :
    PassPolls reads [] (Libpop.afterIssue t) := by
  rcases afterIssue_cases t with ⟨-, he⟩ | ⟨hlast, ⟨hpos, he⟩ | ⟨hzero, he⟩⟩
  · rw [he]
    exact ⟨hreads, rfl⟩
  · rw [he]
    rw [BitVec.lt_def] at hlast
    have hall : reads.length = t.batch.toNat := by omega
    exact ⟨hall, rfl, hpos⟩
  · rw [he]
    have hbatch : t.batch.toNat = 0 := congrArg BitVec.toNat hzero
    have hnone : reads.length = 0 := by omega
    exact hnone

lemma PassPolls.afterPoll {reads : List Aread} {rets : List Int} {t : UnvmeThread}
    (hpc : t.pc = .poll) (h : PassPolls reads rets t) (ret : Int) (nbytes : BitVec 64) :
    PassPolls reads (rets ++ [ret]) (Libpop.afterPoll { t with nbytes := nbytes, b := t.b + 1 }) := by
  simp only [PassPolls, hpc] at h
  obtain ⟨hreads, hrets, hb⟩ := h
  have hnext : (t.b + 1).toNat = t.b.toNat + 1 := Word.toNat_add_one_of_lt hb
  have hlen : (rets ++ [ret]).length = (t.b + 1).toNat := by
    rw [List.length_append, hrets, hnext]
    rfl
  rcases afterPoll_cases { t with nbytes := nbytes, b := t.b + 1 } with ⟨hlt, he⟩ | ⟨hlast, he⟩
  · rw [he]
    exact ⟨hreads, hlen, hlt⟩
  · rw [he]
    rw [BitVec.lt_def] at hlast
    dsimp only at hlast
    have hall : reads.length = (rets ++ [ret]).length := by omega
    exact hall

lemma zip_snoc {α β : Type} {xs : List α} {ys : List β} {x : α} (h : xs[ys.length]? = some x)
    (y : β) : xs.zip (ys ++ [y]) = xs.zip ys ++ [(x, y)] := by
  induction ys generalizing xs with
  | nil =>
    cases xs with
    | nil => cases h
    | cons a xs =>
      cases h
      simp
  | cons b ys ih =>
    cases xs with
    | nil => cases h
    | cons a xs =>
      rw [List.length_cons, List.getElem?_cons_succ] at h
      rw [List.cons_append, List.zip_cons_cons, List.zip_cons_cons, ih h, List.cons_append]

/-! ### Loaded slots -/

/-- A loaded slot is published or was loaded in this pass, and all that the completed reads of the
pass have loaded is still there. -/
structure LoadedInv (s : LoadState) : Prop where
  ring : RingInv s.threads
  filled : s.threads.filled = s.reads.flatMap readSlots
  size : ∀ read ∈ s.reads, read.slot.toNat < 256 ∧ 2 * read.nblocks.toNat < 256
  polls : PassPolls s.reads s.rets s.threads.unvme
  loaded : ∀ x ∈ s.loaded, x ∈ s.threads.pending ∨ ∃ c ∈ s.reads.zip s.rets, c.2 = 0 ∧ x ∈ c.1.target
  completed : ∀ c ∈ s.reads.zip s.rets, c.2 = 0 → c.1.target ⊆ s.loaded

lemma loadedInv_init (conf : NvgenConf) : LoadedInv (loadInit conf) :=
  ⟨ringInv_init conf, rfl, by simp [loadInit], ⟨rfl, rfl⟩, by simp [loadInit], by simp [loadInit]⟩

namespace LoadedInv

variable {conf : NvgenConf} {s : LoadState}

lemma target_filled (h : LoadedInv s) {c : Aread × Int} (hc : c ∈ s.reads.zip s.rets) {x : Nat}
    (hx : x ∈ c.1.target) : x ∈ s.threads.filled := by
  rw [h.filled]
  exact List.mem_flatMap.mpr ⟨c.1, (List.of_mem_zip hc).1, mem_slots_of_target hx⟩

lemma filled_notMem_pending (h : LoadedInv s) {x : Nat} (hx : x ∈ s.threads.filled) :
    x ∉ s.threads.pending := by
  have hwin := h.ring.filled_window
  have hle := h.ring.released_le.trans h.ring.handed_le
  rw [h.ring.pending_eq]
  rw [h.ring.filled] at hx
  exact Circular.notMem_slots (by omega) (by omega) hx

/-- A step that neither fills, polls, publishes nor releases. -/
lemma quiet (h : LoadedInv s) {threads : RingState} (hring : RingInv threads)
    (hfilled : threads.filled = s.threads.filled) (hpending : threads.pending = s.threads.pending)
    (hpolls : PassPolls s.reads s.rets threads.unvme) :
    LoadedInv { s with threads := threads } := by
  refine ⟨hring, hfilled.trans h.filled, h.size, hpolls, ?_, h.completed⟩
  dsimp only
  rw [hpending]
  exact h.loaded

lemma issue (h : LoadedInv s) (hpc : s.threads.unvme.pc = .issue) {threads : RingState}
    (hring : RingInv threads) {lba : BitVec 32}
    (hunvme : threads.unvme = Libpop.afterIssue (issued s.threads.ring s.threads.unvme lba))
    (hfilled : threads.filled = s.threads.filled ++
      Aread.slots ⟨s.threads.unvme.head, s.threads.unvme.lba, s.threads.unvme.nblocks⟩ s.threads.ring)
    (hpending : threads.pending = s.threads.pending) :
    LoadedInv { s with
      threads := threads
      reads := s.reads ++ [⟨s.threads.unvme.head, s.threads.unvme.lba, s.threads.unvme.nblocks⟩] } := by
  obtain ⟨hhead, -, -, hb⟩ := h.ring.issue hpc
  obtain ⟨hreads, hrets⟩ : s.reads.length = s.threads.unvme.b.toNat ∧ s.rets = [] := by
    simpa only [PassPolls, hpc] using h.polls
  have hnext : (s.threads.unvme.b + 1).toNat = s.threads.unvme.b.toNat + 1 :=
    Word.toNat_add_one_of_lt hb
  have hloaded := h.loaded
  rw [hrets, List.zip_nil_right] at hloaded
  refine ⟨hring, ?_, ?_, ?_, ?_, ?_⟩
  · dsimp only
    rw [hfilled, h.filled, read_slots_eq h.ring.mask, List.flatMap_append, List.flatMap_singleton]
    rfl
  · intro read hread
    rcases List.mem_append.mp hread with hread | hread
    · exact h.size read hread
    · obtain rfl := List.mem_singleton.mp hread
      exact ⟨hhead ▸ Nat.mod_lt _ (by decide), h.ring.nblocks_lt hpc⟩
  · dsimp only
    rw [hunvme, hrets]
    apply PassPolls.afterIssue
    · rw [List.length_append, hreads]
      exact hnext.symm
    · exact hnext.trans_le hb
  · dsimp only
    rw [hrets, List.zip_nil_right, hpending]
    exact hloaded
  · dsimp only
    rw [hrets, List.zip_nil_right]
    simp

lemma poll (h : LoadedInv s) (hpc : s.threads.unvme.pc = .poll) (ret : Int) {nbytes : BitVec 64}
    (hring : RingInv { s.threads with
      unvme := Libpop.afterPoll { s.threads.unvme with nbytes := nbytes, b := s.threads.unvme.b + 1 } }) :
    LoadedInv { s with
      threads := { s.threads with
        unvme := Libpop.afterPoll { s.threads.unvme with nbytes := nbytes, b := s.threads.unvme.b + 1 } }
      rets := s.rets ++ [ret], loaded := s.loaded ++ s.loadedBy ret } := by
  have hpolls := h.polls
  simp only [PassPolls, hpc] at hpolls
  obtain ⟨hreads, hrets, hb⟩ := hpolls
  obtain ⟨read, hread⟩ : ∃ read, s.reads[s.rets.length]? = some read :=
    ⟨_, List.getElem?_eq_getElem (by omega)⟩
  have hzip := zip_snoc hread ret
  have hnew : s.loadedBy ret = if ret = 0 then read.target else [] := by
    unfold LoadState.loadedBy
    rw [← hrets, hread]
  refine ⟨hring, h.filled, h.size, h.polls.afterPoll hpc ret nbytes, ?_, ?_⟩
  · dsimp only
    rw [hzip, hnew]
    intro x hx
    rcases List.mem_append.mp hx with hx | hx
    · refine (h.loaded x hx).imp_right ?_
      rintro ⟨c, hc, hok⟩
      exact ⟨c, List.mem_append_left _ hc, hok⟩
    · by_cases hret : ret = 0
      · rw [if_pos hret] at hx
        exact .inr ⟨(read, ret), by simp, hret, hx⟩
      · rw [if_neg hret] at hx
        cases hx
  · dsimp only
    rw [hzip, hnew]
    intro c hc hok
    rcases List.mem_append.mp hc with hc | hc
    · exact List.subset_append_of_subset_left _ (h.completed c hc hok)
    · obtain rfl := List.mem_singleton.mp hc
      rw [if_pos hok]
      exact List.subset_append_right _ _

lemma publish (h : LoadedInv s) {threads : RingState} (hring : RingInv threads)
    (hpc : threads.unvme.pc = .top) (hfilled : threads.filled = [])
    (hpending : threads.pending = s.threads.pending ++ s.threads.filled) (stale : List Nat) :
    LoadedInv { s with threads := threads, reads := [], rets := [], stale := stale } := by
  refine ⟨hring, hfilled, by simp, ?_, ?_, by simp⟩
  · dsimp only [PassPolls]
    rw [hpc]
    exact ⟨rfl, rfl⟩
  · intro x hx
    left
    dsimp only
    rw [hpending]
    rcases h.loaded x hx with hx | ⟨c, hc, -, hx⟩
    · exact List.mem_append_left _ hx
    · exact List.mem_append_right _ (h.target_filled hc hx)

/-- The slots that the netmap thread releases are no longer loaded; none of them belongs to the pass
under way. -/
lemma release (h : LoadedInv s) {threads : RingState} (hring : RingInv threads)
    (hunvme : threads.unvme = s.threads.unvme) (hfilled : threads.filled = s.threads.filled)
    {gone : List Nat} (hpending : s.threads.pending = gone ++ threads.pending) :
    LoadedInv { s with threads := threads, loaded := s.loaded.filter (· ∉ gone) } := by
  refine ⟨hring, hfilled.trans h.filled, h.size, hunvme ▸ h.polls, ?_, ?_⟩
  · intro x hx
    obtain ⟨hx, hkept⟩ := List.mem_filter.mp hx
    refine (h.loaded x hx).imp_left ?_
    intro hx
    rw [hpending] at hx
    exact (List.mem_append.mp hx).resolve_left (of_decide_eq_true hkept)
  · intro c hc hok x hx
    apply List.mem_filter.mpr
    refine ⟨h.completed c hc hok hx, decide_eq_true ?_⟩
    intro hgone
    apply h.filled_notMem_pending (h.target_filled hc hx)
    rw [hpending]
    exact List.mem_append_left _ hgone

end LoadedInv

/-! ### Runs -/

section Steps

variable {conf : NvgenConf} {s t : LoadState}

lemma loadStep_some {op : RingOp} (hs : loadStep conf s op = some t) :
    ∃ threads, ringStep conf s.threads op = some threads ∧ t = s.record conf threads op := by
  unfold loadStep at hs
  cases hring : ringStep conf s.threads op with
  | none =>
    rw [hring] at hs
    cases hs
  | some threads =>
    rw [hring] at hs
    cases hs
    exact ⟨threads, rfl, rfl⟩

/-- At the top of its loop the NVMe thread polls and publishes nothing. -/
lemma record_top {op : UnvmeOp} {threads : RingState} {ring : NvgenRing} {t : UnvmeThread}
    (hpc : s.threads.unvme.pc = .top)
    (hstep : unvmeStep conf s.threads.ring s.threads.unvme op = some (ring, t, none)) :
    s.record conf threads (.unvme op) = { s with threads := threads } := by
  have hnone : issuedBy conf s.threads op = none := by
    unfold issuedBy
    rw [hstep]
  cases op with
  | avail | leave | aread rand => simp [LoadState.record, hnone]
  | apoll ret | publish => simp [unvmeStep, hpc] at hstep

lemma record_aread {rand : BitVec 31} {threads : RingState} {ring : NvgenRing} {t : UnvmeThread}
    {read : Aread}
    (hstep : unvmeStep conf s.threads.ring s.threads.unvme (.aread rand) = some (ring, t, some read)) :
    s.record conf threads (.unvme (.aread rand)) =
      { s with threads := threads, reads := s.reads ++ [read] } := by
  have hread : issuedBy conf s.threads (.aread rand) = some read := by
    unfold issuedBy
    rw [hstep]
  simp [LoadState.record, hread]

lemma LoadedInv.unvme (h : LoadedInv s) {op : UnvmeOp} (hg : KeepsFifo conf s.threads (.unvme op))
    {threads : RingState} (hring : ringStep conf s.threads (.unvme op) = some threads) :
    LoadedInv (s.record conf threads (.unvme op)) := by
  have hinv := ringInv_step _ _ _ h.ring hg hring
  have hpolls := h.polls
  obtain ⟨ring, t, read, hstep, hmove⟩ := ringStep_writer hring
  cases hmove with
  | idle hpc =>
    rw [record_top hpc hstep]
    exact h
  | left op hpc =>
    rw [record_top hpc hstep]
    simp only [PassPolls, hpc] at hpolls
    exact h.quiet hinv rfl rfl hpolls
  | planned batch nblocks hpc hplan =>
    rw [record_top hpc hstep]
    simp only [PassPolls, hpc] at hpolls
    obtain ⟨hreads, hrets⟩ := hpolls
    apply h.quiet hinv rfl rfl
    rw [hreads, hrets]
    exact PassPolls.afterIssue rfl (Nat.zero_le _)
  | issued rand lba hpc =>
    rw [record_aread hstep]
    exact h.issue hpc hinv rfl rfl rfl
  | polled ret nbytes hpc => exact h.poll hpc ret hinv
  | published hpc =>
    apply h.publish hinv rfl rfl
    exact List.drop_append_of_le_length (h.ring.released_le.trans h.ring.handed_le)

lemma LoadedInv.netmap (h : LoadedInv s) {op : NetmapOp}
    (hg : KeepsFifo conf s.threads (.netmap op)) {threads : RingState}
    (hring : ringStep conf s.threads (.netmap op) = some threads) :
    LoadedInv (s.record conf threads (.netmap op)) := by
  have hinv := ringInv_step _ _ _ h.ring hg hring
  cases ringStep_reader hring with
  | idle txsync hpc => exact h
  | left op hpc =>
    cases op with
    | publish => simp [ringStep, netmapStep, hpc] at hring
    | load | slot | leave => exact h.quiet hinv rfl rfl h.polls
  | loaded space hpc => exact h.quiet hinv rfl rfl h.polls
  | handed hpc => exact h.quiet hinv rfl rfl h.polls
  | released hpc =>
    have hle := h.ring.released_le
    have hhanded := h.ring.handed_le
    have hwin := h.ring.window
    have htail : s.threads.netmap.tail.toNat =
        (s.threads.released + (s.threads.handed.length - s.threads.released)) % 256 := by
      rw [Nat.add_sub_cancel' hle]
      exact hinv.tail
    apply h.release hinv rfl rfl
    rw [slotsBetween_eq h.ring.mask h.ring.tail htail (by omega), h.ring.pending_eq,
      hinv.pending_eq]
    exact (Circular.slots_split hle hhanded).symm

lemma loadedInv_step (s : LoadState) (op : RingOp) (t : LoadState) (h : LoadedInv s)
    (hg : KeepsFifo conf s.threads op) (hs : loadStep conf s op = some t) : LoadedInv t := by
  obtain ⟨threads, hring, rfl⟩ := loadStep_some hs
  cases op with
  | unvme op => exact h.unvme hg hring
  | netmap op => exact h.netmap hg hring

/-- What a pass is about to make visible is what it has filled. -/
lemma LoadedInv.visible (h : LoadedInv s) (hpc : s.threads.unvme.pc = .publish) :
    s.threads.ring.slotsBetween s.threads.ring.head s.threads.unvme.head = s.threads.filled := by
  have hw :
      s.threads.unvme.head.toNat = (s.threads.published.length + s.threads.filled.length) % 256 ∧
      s.threads.published.length + s.threads.filled.length < s.threads.released + 256 := by
    simpa only [WriterInv, hpc] using h.ring.writer
  have hle := h.ring.released_le.trans h.ring.handed_le
  rw [slotsBetween_eq h.ring.mask h.ring.head hw.1 (by omega)]
  exact h.ring.filled.symm

lemma LoadedInv.filled_loaded_iff (h : LoadedInv s) (hpc : s.threads.unvme.pc = .publish) :
    (∀ x ∈ s.threads.filled, x ∈ s.loaded) ↔ AllCompleted (s.reads.zip s.rets) := by
  have hlen : s.reads.length = s.rets.length := by
    simpa only [PassPolls, hpc] using h.polls
  have hreads : (s.reads.zip s.rets).map Prod.fst = s.reads := List.map_fst_zip hlen.le
  have hfilled : s.threads.filled = (s.reads.zip s.rets).flatMap fun c => readSlots c.1 :=
    calc s.threads.filled = ((s.reads.zip s.rets).map Prod.fst).flatMap readSlots := by rw [h.filled, hreads]
      _ = (s.reads.zip s.rets).flatMap fun c => readSlots c.1 := List.flatMap_map ..
  have hwin := h.ring.filled_window
  have hle := h.ring.released_le.trans h.ring.handed_le
  have hnodup : s.threads.filled.Nodup := by
    rw [h.ring.filled]
    exact Circular.nodup_slots (by omega)
  rw [hfilled] at hnodup
  rw [← covered_iff hnodup fun c hc => h.size c.1 (List.of_mem_zip hc).1, ← hfilled]
  constructor
  · intro hall x hx
    exact (h.loaded x (hall x hx)).resolve_left (h.filled_notMem_pending hx)
  · intro hcover x hx
    obtain ⟨c, hc, hok, hx⟩ := hcover x hx
    exact h.completed c hc hok hx

lemma stale_step (s : LoadState) (op : RingOp) (t : LoadState) (h : LoadedInv s)
    (hstale : s.stale = []) (_ : KeepsFifo conf s.threads op) (hs : loadStep conf s op = some t) :
    t.stale = [] ↔ PublishesLoaded s op := by
  obtain ⟨threads, hring, rfl⟩ := loadStep_some hs
  cases op with
  | netmap op => cases op <;> exact iff_of_true hstale trivial
  | unvme op =>
    cases op with
    | publish =>
      obtain ⟨ring, t, read, -, hmove⟩ := ringStep_writer hring
      cases hmove with
      | left op hpc => simp [ringStep, unvmeStep, hpc] at hring
      | published hpc =>
        refine Iff.trans ?_ (h.filled_loaded_iff hpc)
        dsimp only [LoadState.record]
        rw [h.visible hpc, hstale, List.nil_append, List.filter_eq_nil_iff]
        simp
    | avail | aread | apoll | leave => exact iff_of_true hstale trivial

end Steps

/-- While the ring is kept a queue, every slot that becomes visible to the netmap thread lies in the
destination of a read completed with status 0 since its release exactly when in every pass that is
published all reads with data completed with status 0 and ended inside the packet buffer. -/
theorem publishes_loaded_iff (conf : NvgenConf) {ops : List RingOp}
    (hfifo : Guarded (loadStep conf) (fun s op => KeepsFifo conf s.threads op) (loadInit conf) ops) :
    Throughout (loadStep conf) (fun s => s.stale = []) (loadInit conf) ops ↔
      Guarded (loadStep conf) PublishesLoaded (loadInit conf) ops :=
  throughout_iff_guarded_of loadedInv_step stale_step (loadedInv_init conf) rfl hfifo

instance (s : LoadState) (op : RingOp) : Decidable (PublishesLoaded s op) := by
  unfold PublishesLoaded AllCompleted
  split <;> infer_instance

/-- Two passes with `-b 4 -B 2 -w seq`, and the slots of the first released in between. -/
def loadedRun : List RingOp :=
  [.unvme .avail, .unvme (.aread 0), .unvme (.apoll 0), .unvme .publish,
    .netmap (.load (some 512)), .netmap .slot, .unvme .avail, .netmap .slot, .unvme (.aread 0),
    .netmap .slot, .netmap .slot, .unvme (.apoll 0), .netmap .publish, .unvme .publish]

theorem publishes_loaded_two_passes :
    Throughout (loadStep ⟨4, 2, .seq, 0, 0xf0000⟩) (fun s => s.stale = []) (loadInit ⟨4, 2, .seq, 0, 0xf0000⟩)
      loadedRun :=
  (publishes_loaded_iff ⟨4, 2, .seq, 0, 0xf0000⟩ (by decide +kernel)).mpr (by decide +kernel)

/-- A pass with one read. -/
def onePass (ret : Int) : List RingOp :=
  [.unvme .avail, .unvme (.aread 0), .unvme (.apoll ret), .unvme .publish]

/-- Options `-b 4 -B 127 -w seq`. -/
def longConf : NvgenConf :=
  ⟨4, 127, .seq, 0, 0xf0000⟩

/-- A pass fills slots 0 to 253, the netmap thread releases four of them and the next pass reads
two blocks to slot 254. -/
def crossingRead : List RingOp :=
  onePass 0 ++
    [.netmap (.load (some 512)), .netmap .slot, .netmap .slot, .netmap .slot, .netmap .slot,
      .netmap .publish] ++
    onePass 0

/-- A read that fails is published with its four slots; and with every read successful, slots 0 and 1
are published although the data for them went past the end of the buffer. -/
theorem publishes_stale_slots :
    (exec (loadStep ⟨4, 2, .seq, 0, 0xf0000⟩) (loadInit ⟨4, 2, .seq, 0, 0xf0000⟩) (onePass (-1))).map
      LoadState.stale = some [0, 1, 2, 3] ∧
    ¬Throughout (loadStep ⟨4, 2, .seq, 0, 0xf0000⟩) (fun s => s.stale = [])
      (loadInit ⟨4, 2, .seq, 0, 0xf0000⟩) (onePass (-1)) ∧
    (exec (loadStep longConf) (loadInit longConf) crossingRead).map LoadState.stale = some [0, 1] ∧
    Guarded (loadStep longConf) (fun s op => KeepsFifo longConf s.threads op)
      (loadInit longConf) crossingRead ∧
    ¬Throughout (loadStep longConf) (fun s => s.stale = []) (loadInit longConf) crossingRead := by
  have hfailed : (exec (loadStep ⟨4, 2, .seq, 0, 0xf0000⟩) (loadInit ⟨4, 2, .seq, 0, 0xf0000⟩)
      (onePass (-1))).map LoadState.stale = some [0, 1, 2, 3] := by
    decide +kernel
  have hcrossing : (exec (loadStep longConf) (loadInit longConf) crossingRead).map LoadState.stale =
      some [0, 1] := by
    decide +kernel
  refine ⟨hfailed, not_throughout_of_map hfailed ?_, hcrossing, by decide +kernel,
    not_throughout_of_map hcrossing ?_⟩
  · intro s hs hclean
    rw [hclean] at hs
    cases hs
  · intro s hs hclean
    rw [hclean] at hs
    cases hs

end Libpop.Proofs
