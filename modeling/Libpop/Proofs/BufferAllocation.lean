import Mathlib.Data.Nat.Cast.Basic
import Libpop.Buf
import Libpop.Bump
import Libpop.Execution

/-!
# Buffers carved from a memory context

`pop_buf_alloc` is a bump allocator over the pages of its context: the page count of a
request is its size rounded up, and along every run the buffers returned so far are the
packed extents of the first `alloced_pages` pages.
-/

namespace Libpop.Proofs
open Execution

lemma iterate_add_one (k : Nat) : (fun n : BitVec 64 => n + 1)^[k] 0 = BitVec.ofNat 64 k := by
  induction k with
  | zero => rfl
  | succ k ih =>
    rw [Function.iterate_succ_apply', ih]
    rw [BitVec.ofNat_add]
    rfl

lemma toNat_ofNat_shiftLeft {k : Nat} (hk : k < 2 ^ 52) :
    (BitVec.ofNat 64 k <<< pageShift).toNat = k * 4096 := by
  rw [Word.toNat_shiftLeft_mul, BitVec.toNat_ofNat, Nat.mod_eq_of_lt (by omega : k < 2 ^ 64)]
  unfold pageShift
  omega

/-- The loop ends exactly for sizes of at most 2^52 - 1 pages, with the size in whole pages. -/
theorem nrPages_eq_some_iff (size nr : BitVec 64) :
    nrPages size = some nr ↔
      size.toNat ≤ 2 ^ 64 - 4096 ∧ nr.toNat = (size.toNat + 4095) / 4096 := by
  unfold nrPages
  rw [Loop.whileLoop_eq_some_iff]
  constructor
  · rintro ⟨k, hk, rfl, hstop, hgo⟩
    rw [iterate_add_one, decide_eq_false_iff_not, BitVec.lt_def, toNat_ofNat_shiftLeft hk] at hstop
    rw [iterate_add_one, BitVec.toNat_ofNat]
    have hlast : ∀ j < k, j * 4096 < size.toNat := by
      intro j hj
      have hlt := hgo j hj
      rwa [iterate_add_one, decide_eq_true_eq, BitVec.lt_def,
        toNat_ofNat_shiftLeft (hj.trans hk)] at hlt
    cases k with
    | zero => omega
    | succ k =>
      have hbelow := hlast k (Nat.lt_succ_self k)
      omega
  · rintro ⟨hsize, hnr⟩
    have hk : nr.toNat < 2 ^ 52 := by omega
    have hbit : ∀ j, j < 2 ^ 52 →
        (decide ((fun n : BitVec 64 => n + 1)^[j] 0 <<< pageShift < size) = true ↔
          j * 4096 < size.toNat) := by
      intro j hj
      rw [iterate_add_one, decide_eq_true_eq, BitVec.lt_def, toNat_ofNat_shiftLeft hj]
    have hiter : (fun n : BitVec 64 => n + 1)^[nr.toNat] 0 = nr := by
      rw [iterate_add_one, BitVec.ofNat_toNat, BitVec.setWidth_eq]
    refine ⟨nr.toNat, hk, hiter, ?_, ?_⟩
    · have hend := hbit nr.toNat hk
      rw [hiter] at hend
      rw [← Bool.not_eq_true, hend]
      omega
    · intro j hj
      rw [hbit j (hj.trans hk)]
      omega

/-! ### One call -/

/-- What a successful call returns. -/
def carvedBuf (mem : PopMem) (nr : BitVec 64) : PopBuf :=
  { vaddr := mem.mem + (mem.allocedPages <<< pageShift)
    paddr := mem.paddr + (mem.allocedPages <<< pageShift)
    size := nr <<< pageShift, offset := 0, length := 0 }

inductive AllocExit (mem : PopMem) (size : BitVec 64) : PopMem → Except AllocError PopBuf → Prop
  | failed (e : AllocError) : AllocExit mem size mem (.error e)
  | carved (nr : BitVec 64) (hn : nrPages size = some nr) (hroom : ¬mem.numPages - mem.allocedPages < nr) :
      AllocExit mem size { mem with allocedPages := mem.allocedPages + nr } (.ok (carvedBuf mem nr))

lemma popBufAlloc_exit {mem mem' : PopMem} {size : BitVec 64} {malloc : Bool}
    {res : Except AllocError PopBuf} (h : popBufAlloc mem size malloc = some (mem', res)) :
    AllocExit mem size mem' res := by
  unfold popBufAlloc at h
  cases hn : nrPages size with
  | none => simp [hn] at h
  | some nr =>
    simp only [hn] at h
    split at h
    · cases h
      exact .failed _
    · rename_i hroom
      split at h
      · cases h
        exact .carved nr hn hroom
      · cases h
        exact .failed _

/-- There are pages for the request, and memory for the descriptor. -/
def Room (mem : PopMem) (size : BitVec 64) (malloc : Bool) : Prop :=
  (size.toNat + 4095) / 4096 ≤ (mem.numPages - mem.allocedPages).toNat ∧ malloc = true

/-- A call for a size that the page-count loop can reach succeeds exactly if there is room. -/
lemma popBufAlloc_cases {size : BitVec 64} (hsize : size.toNat ≤ 2 ^ 64 - 4096) (mem : PopMem)
    (malloc : Bool) :
    (Room mem size malloc ∧ ∃ nr : BitVec 64, nr.toNat = (size.toNat + 4095) / 4096 ∧
      popBufAlloc mem size malloc =
        some ({ mem with allocedPages := mem.allocedPages + nr }, .ok (carvedBuf mem nr))) ∨
    (¬Room mem size malloc ∧ ∃ e, popBufAlloc mem size malloc = some (mem, .error e)) := by
  have hnr : (BitVec.ofNat 64 ((size.toNat + 4095) / 4096)).toNat = (size.toNat + 4095) / 4096 := by
    rw [BitVec.toNat_ofNat]
    omega
  have hn := (nrPages_eq_some_iff size _).mpr ⟨hsize, hnr⟩
  have hlt : mem.numPages - mem.allocedPages < BitVec.ofNat 64 ((size.toNat + 4095) / 4096) ↔
      ¬(size.toNat + 4095) / 4096 ≤ (mem.numPages - mem.allocedPages).toNat := by
    rw [BitVec.lt_def, hnr, not_le]
  unfold popBufAlloc Room
  rw [hn]
  dsimp only
  by_cases hroom : (size.toNat + 4095) / 4096 ≤ (mem.numPages - mem.allocedPages).toNat
  · rw [if_neg (hlt.not.mpr (not_not.mpr hroom))]
    cases malloc with
    | false => exact .inr ⟨fun h => Bool.false_ne_true h.2, .malloc, rfl⟩
    | true => exact .inl ⟨⟨hroom, rfl⟩, _, hnr, rfl⟩
  · rw [if_pos (hlt.mpr hroom)]
    exact .inr ⟨fun h => hroom h.1, .enobufs, rfl⟩

/-- A buffer for `request` bytes behind the pages handed out before. -/
structure FreshPbuf (mem : PopMem) (request : Nat) (pbuf : Pbuf) : Prop where
  vaddr : pbuf.vaddr = mem.mem + (mem.allocedPages <<< pageShift)
  paddr : pbuf.paddr = mem.paddr + (mem.allocedPages <<< pageShift)
  offset : pbuf.offset = 0
  size : pbuf.size.toNat = (request + 4095) / 4096 * 4096

lemma FreshPbuf.paddr_eq {mem : PopMem} {request : Nat} {pbuf : Pbuf}
    (h : FreshPbuf mem request pbuf) : popBufPaddr pbuf = pbuf.paddr := by
  unfold popBufPaddr
  rw [h.offset]
  exact BitVec.add_zero _

lemma FreshPbuf.data_eq {mem : PopMem} {request : Nat} {pbuf : Pbuf}
    (h : FreshPbuf mem request pbuf) : popBufData pbuf = pbuf.vaddr := by
  unfold popBufData
  rw [h.offset]
  exact BitVec.add_zero _

lemma popBufAllocPut_cases {size : BitVec 64} (hsize : size.toNat ≤ 2 ^ 64 - 4096)
    (addr : BitVec 64) (mem : PopMem) (malloc : Bool) :
    (Room mem size malloc ∧ ∃ mem' pbuf, FreshPbuf mem size.toNat pbuf ∧
      popBufAllocPut addr mem size malloc = some (mem', .ok pbuf)) ∨
    (¬Room mem size malloc ∧ ∃ e, popBufAllocPut addr mem size malloc = some (mem, .error e)) := by
  unfold popBufAllocPut
  rcases popBufAlloc_cases hsize mem malloc with ⟨hroom, nr, hnr, ha⟩ | ⟨hroom, e, ha⟩
  · left
    rw [ha]
    refine ⟨hroom, _, _, ?_, rfl⟩
    have hlen : (nr <<< pageShift).toNat = (size.toNat + 4095) / 4096 * 4096 := by
      rw [Word.toNat_shiftLeft_mul, hnr]
      unfold pageShift
      omega
    unfold popBufPut
    split
    · exact ⟨rfl, rfl, rfl, hlen⟩
    · exact ⟨rfl, rfl, rfl, hlen⟩
  · right
    rw [ha]
    exact ⟨hroom, e, rfl⟩

lemma popBufAllocPut_fresh {size : BitVec 64} (hsize : size.toNat ≤ 2 ^ 64 - 4096)
    {addr : BitVec 64} {mem mem' : PopMem} {malloc : Bool} {pbuf : Pbuf}
    (h : popBufAllocPut addr mem size malloc = some (mem', .ok pbuf)) :
    FreshPbuf mem size.toNat pbuf := by
  rcases popBufAllocPut_cases hsize addr mem malloc with ⟨-, _, _, hfresh, ha⟩ | ⟨-, e, ha⟩
  · rw [ha] at h
    cases h
    exact hfresh
  · rw [ha] at h
    cases h

lemma bufStep_cases {s t : BufState} {op : BufOp} (h : bufStep s op = some t) :
    (t.mem = s.mem ∧ t.allocations = s.allocations) ∨
      ∃ size nr, nrPages size = some nr ∧ ¬s.mem.numPages - s.mem.allocedPages < nr ∧
        t.mem = { s.mem with allocedPages := s.mem.allocedPages + nr } ∧
        t.allocations = s.allocations ++ [⟨size, carvedBuf s.mem nr⟩] := by
  cases op with
  | alloc size malloc =>
    simp only [bufStep] at h
    split at h
    · cases h
    · rename_i mem e ha
      cases popBufAlloc_exit ha with
      | failed e =>
        cases h
        exact .inl ⟨rfl, rfl⟩
    · rename_i mem pbuf ha
      cases popBufAlloc_exit ha with
      | carved nr hn hroom =>
        cases h
        exact .inr ⟨size, nr, hn, hroom, rfl, rfl⟩
  | free pbuf =>
    simp only [bufStep] at h
    split at h
    · cases h
      exact .inl ⟨rfl, rfl⟩
    · cases h

/-- The unsigned check for room leaves no way past the last page. -/
lemma allocedPages_add {mem : PopMem} (hle : mem.allocedPages.toNat ≤ mem.numPages.toNat)
    {nr : BitVec 64} (hroom : ¬mem.numPages - mem.allocedPages < nr) :
    mem.allocedPages.toNat + nr.toNat ≤ mem.numPages.toNat ∧
      (mem.allocedPages + nr).toNat = mem.allocedPages.toNat + nr.toNat := by
  have hlt := mem.numPages.isLt
  rw [BitVec.lt_def, BitVec.toNat_sub_of_le hle] at hroom
  refine ⟨by omega, ?_⟩
  rw [BitVec.toNat_add, Nat.mod_eq_of_lt (by omega)]

/-! ### Whole runs -/

/-- The region that buffers are carved from. -/
def regionBytes (mem : PopMem) : Set Nat :=
  Set.Ico mem.mem.toNat (mem.mem.toNat + mem.numPages.toNat * 4096)

def bufBytes (pbuf : PopBuf) : Set Nat :=
  Set.Ico pbuf.vaddr.toNat (pbuf.vaddr.toNat + pbuf.size.toNat)

def requestPages (a : Allocation) : Nat :=
  (a.request.toNat + 4095) / 4096

/-! ### Page accounts -/

/-- What holds of the pages wherever the region lies: no more are handed out than there are, and
every buffer was carved from pages that were free. -/
structure PageInv (mem : PopMem) (s : BufState) : Prop where
  context : s.mem = { mem with allocedPages := s.mem.allocedPages }
  le : s.mem.allocedPages.toNat ≤ mem.numPages.toNat
  pages : s.mem.allocedPages.toNat = (s.allocations.map requestPages).sum
  carved : ∀ a ∈ s.allocations, ∃ start nr : BitVec 64, start.toNat + nr.toNat ≤ mem.numPages.toNat ∧
    a.pbuf = carvedBuf { mem with allocedPages := start } nr

lemma pageInv_step {mem : PopMem} (s : BufState) (op : BufOp) (t : BufState) (h : PageInv mem s)
    (hs : bufStep s op = some t) : PageInv mem t := by
  rcases bufStep_cases hs with ⟨hmem, hallocs⟩ | ⟨size, nr, hn, hroom, hmem, hallocs⟩
  · exact ⟨hmem ▸ h.context, hmem ▸ h.le, hmem ▸ hallocs ▸ h.pages, hallocs ▸ h.carved⟩
  · have hnum : s.mem.numPages = mem.numPages := by rw [h.context]
    obtain ⟨hfit, hused⟩ := allocedPages_add (hnum ▸ h.le) hroom
    rw [hnum] at hfit
    refine ⟨?_, ?_, ?_, ?_⟩
    · rw [hmem, h.context]
    · rw [hmem, hused]
      exact hfit
    · rw [hmem, hused, hallocs, List.map_append, List.sum_append, ← h.pages,
        ((nrPages_eq_some_iff size nr).mp hn).2]
      rfl
    · intro a ha
      rw [hallocs] at ha
      rcases List.mem_append.mp ha with hold | hnew
      · exact h.carved a hold
      · rw [List.mem_singleton.mp hnew]
        refine ⟨s.mem.allocedPages, nr, hfit, ?_⟩
        rw [← h.context]

lemma pageInv_bufInit {mem : PopMem} (h0 : mem.allocedPages = 0) : PageInv mem (bufInit mem) := by
  refine ⟨rfl, ?_, ?_, ?_⟩
  · simp [bufInit, h0]
  · simp [bufInit, h0]
  · simp [bufInit]

theorem pageInv_reachable {mem : PopMem} (h0 : mem.allocedPages = 0) {ops : List BufOp}
    {s : BufState} (h : exec bufStep (bufInit mem) ops = some s) : PageInv mem s :=
  exec_invariant pageInv_step (pageInv_bufInit h0) h

/-! ### Addresses -/

/-- The pages of an allocation, counted from the start of the region. -/
def extentOf (mem : PopMem) (a : Allocation) : Bump.Extent :=
  ⟨(a.pbuf.vaddr.toNat - mem.mem.toNat) / 4096, requestPages a⟩

/-- A buffer of whole pages, at the same distance from both ends of the translation. -/
structure Carved (mem : PopMem) (a : Allocation) : Prop where
  vaddr : a.pbuf.vaddr.toNat = mem.mem.toNat + (extentOf mem a).start * 4096
  size : a.pbuf.size.toNat = requestPages a * 4096
  linear : (a.pbuf.vaddr.toNat : Int) - mem.mem.toNat = a.pbuf.paddr.toNat - mem.paddr.toNat
  empty : a.pbuf.offset = 0 ∧ a.pbuf.length = 0

structure CarveInv (mem : PopMem) (s : BufState) : Prop where
  context : s.mem = { mem with allocedPages := s.mem.allocedPages }
  le : s.mem.allocedPages.toNat ≤ mem.numPages.toNat
  packed : Bump.Packed (s.allocations.map (extentOf mem)) s.mem.allocedPages.toNat
  carved : ∀ a ∈ s.allocations, Carved mem a

lemma Carved.bufBytes_eq {mem : PopMem} {a : Allocation} (h : Carved mem a) :
    bufBytes a.pbuf = (extentOf mem a).bytes mem.mem.toNat 4096 := by
  unfold bufBytes Bump.Extent.bytes Bump.Extent.stop
  rw [h.vaddr, h.size, Nat.add_mul, Nat.add_assoc]
  rfl

section Region

variable {mem : PopMem} (hv : mem.mem.toNat + mem.numPages.toNat * 4096 < 2 ^ 64)
  (hp : mem.paddr.toNat + mem.numPages.toNat * 4096 < 2 ^ 64)

include hv in
lemma toNat_pages_le {n : BitVec 64} (h : n.toNat ≤ mem.numPages.toNat) :
    (n <<< pageShift).toNat = n.toNat * 4096 := by
  rw [Word.toNat_shiftLeft_mul]
  unfold pageShift
  omega

include hv hp in
lemma carved_next {s : BufState} (h : CarveInv mem s) {size nr : BitVec 64}
    (hn : nrPages size = some nr)
    (hroom : s.mem.allocedPages.toNat + nr.toNat ≤ mem.numPages.toNat) :
    extentOf mem ⟨size, carvedBuf s.mem nr⟩ = ⟨s.mem.allocedPages.toNat, nr.toNat⟩ ∧
      Carved mem ⟨size, carvedBuf s.mem nr⟩ := by
  have hpages := ((nrPages_eq_some_iff size nr).mp hn).2
  have hoff := toNat_pages_le hv h.le
  have hlen := toNat_pages_le hv (n := nr) (by omega)
  have hmem : s.mem.mem = mem.mem := by rw [h.context]
  have hpaddr : s.mem.paddr = mem.paddr := by rw [h.context]
  have hused : s.mem.allocedPages.toNat * 4096 ≤ mem.numPages.toNat * 4096 :=
    Nat.mul_le_mul_right _ h.le
  have hvaddr : (carvedBuf s.mem nr).vaddr.toNat =
      mem.mem.toNat + s.mem.allocedPages.toNat * 4096 := by
    unfold carvedBuf
    rw [BitVec.toNat_add, hoff, hmem, Nat.mod_eq_of_lt ((Nat.add_le_add_left hused _).trans_lt hv)]
  have hphys : (carvedBuf s.mem nr).paddr.toNat =
      mem.paddr.toNat + s.mem.allocedPages.toNat * 4096 := by
    unfold carvedBuf
    rw [BitVec.toNat_add, hoff, hpaddr, Nat.mod_eq_of_lt ((Nat.add_le_add_left hused _).trans_lt hp)]
  have hextent : extentOf mem ⟨size, carvedBuf s.mem nr⟩ =
      ⟨s.mem.allocedPages.toNat, nr.toNat⟩ := by
    unfold extentOf requestPages
    rw [hvaddr, Nat.add_sub_cancel_left, Nat.mul_div_cancel _ (by decide), hpages]
  refine ⟨hextent, ?_, ?_, ?_, rfl, rfl⟩
  · rw [hextent]
    exact hvaddr
  · unfold requestPages carvedBuf
    rw [← hpages]
    exact hlen
  · rw [hvaddr, hphys]
    omega

include hv hp in
lemma carveInv_step (s : BufState) (op : BufOp) (t : BufState) (h : CarveInv mem s)
    (hs : bufStep s op = some t) : CarveInv mem t := by
  rcases bufStep_cases hs with ⟨hmem, hallocs⟩ | ⟨size, nr, hn, hroom, hmem, hallocs⟩
  · exact ⟨hmem ▸ h.context, hmem ▸ h.le, hmem ▸ hallocs ▸ h.packed, hallocs ▸ h.carved⟩
  · have hnum : s.mem.numPages = mem.numPages := by rw [h.context]
    obtain ⟨hfit, hused⟩ := allocedPages_add (hnum ▸ h.le) hroom
    rw [hnum] at hfit
    obtain ⟨hextent, hcarved⟩ := carved_next hv hp h hn hfit
    refine ⟨?_, ?_, ?_, ?_⟩
    · rw [hmem, h.context]
    · rw [hmem, hused]
      exact hfit
    · rw [hmem, hallocs, List.map_append, List.map_singleton, hextent, hused]
      exact h.packed.snoc nr.toNat
    · intro a ha
      rw [hallocs] at ha
      rcases List.mem_append.mp ha with hold | hnew
      · exact h.carved a hold
      · rw [List.mem_singleton.mp hnew]
        exact hcarved

include hv hp in
theorem carveInv_reachable (h0 : mem.allocedPages = 0) {ops : List BufOp} {s : BufState}
    (h : exec bufStep (bufInit mem) ops = some s) : CarveInv mem s := by
  have hinit : CarveInv mem (bufInit mem) := by
    refine ⟨rfl, ?_, ?_, ?_⟩
    · simp [bufInit, h0]
    · simpa [bufInit, h0] using Bump.Packed.nil
    · simp [bufInit]
  exact exec_invariant (carveInv_step hv hp) hinit h

end Region

lemma bufStep_mono {mem : PopMem} {s t : BufState} {op : BufOp} (h : CarveInv mem s)
    (hs : bufStep s op = some t) :
    s.mem.allocedPages ≤ t.mem.allocedPages ∧ s.allocations <+: t.allocations := by
  rcases bufStep_cases hs with ⟨hmem, hallocs⟩ | ⟨size, nr, hn, hroom, hmem, hallocs⟩
  · exact ⟨hmem ▸ BitVec.le_refl _, hallocs ▸ List.prefix_rfl⟩
  · have hnum : s.mem.numPages = mem.numPages := by rw [h.context]
    obtain ⟨-, hused⟩ := allocedPages_add (hnum ▸ h.le) hroom
    refine ⟨?_, ?_⟩
    · rw [hmem, BitVec.le_def, hused]
      exact Nat.le_add_right _ _
    · rw [hallocs]
      exact List.prefix_append _ _

/-- Along every run of allocations and frees the pages handed out are those of the requests
that succeeded and never more than there are; the buffers are disjoint parts of the region,
of whole pages, empty, and at the same distance from the physical base; and a call that
fails leaves the context as it was. -/
theorem buffers_disjoint_in_region {mem : PopMem} {ops : List BufOp} {s : BufState}
    (h0 : mem.allocedPages = 0) (hv : mem.mem.toNat + mem.numPages.toNat * 4096 < 2 ^ 64)
    (hp : mem.paddr.toNat + mem.numPages.toNat * 4096 < 2 ^ 64)
    (h : exec bufStep (bufInit mem) ops = some s) :
    s.mem = { mem with allocedPages := s.mem.allocedPages } ∧
      s.mem.allocedPages ≤ s.mem.numPages ∧
      s.mem.allocedPages.toNat = (s.allocations.map requestPages).sum ∧
      s.allocations.Pairwise (fun a b => Disjoint (bufBytes a.pbuf) (bufBytes b.pbuf)) ∧
      (∀ a ∈ s.allocations, bufBytes a.pbuf ⊆ regionBytes mem ∧
        a.pbuf.size.toNat = requestPages a * 4096 ∧ a.pbuf.offset = 0 ∧ a.pbuf.length = 0 ∧
        (a.pbuf.vaddr.toNat : Int) - mem.mem.toNat = a.pbuf.paddr.toNat - mem.paddr.toNat) ∧
      (∀ op t, bufStep s op = some t →
        s.mem.allocedPages ≤ t.mem.allocedPages ∧ s.allocations <+: t.allocations) ∧
      ∀ size malloc mem' e, popBufAlloc s.mem size malloc = some (mem', .error e) →
        mem' = s.mem := by
  have hinv := carveInv_reachable hv hp h0 h
  refine ⟨hinv.context, ?_, ?_, ?_, ?_, ?_, ?_⟩
  · rw [hinv.context]
    exact hinv.le
  · rw [← hinv.packed.sum_len, List.map_map]
    rfl
  · apply (List.pairwise_map.mp hinv.packed.pairwise).imp_of_mem
    intro a b ha hb hab
    rw [(hinv.carved a ha).bufBytes_eq, (hinv.carved b hb).bufBytes_eq]
    exact Bump.Extent.disjoint_bytes hab _ _
  · intro a ha
    have hc := hinv.carved a ha
    refine ⟨?_, hc.size, hc.empty.1, hc.empty.2, hc.linear⟩
    rw [hc.bufBytes_eq]
    apply Bump.Extent.bytes_subset
    exact (hinv.packed.stop_le _ (List.mem_map_of_mem ha)).trans hinv.le
  · intro op t hs
    exact bufStep_mono hinv hs
  · intro size malloc mem' e ha
    cases popBufAlloc_exit ha with
    | failed e => rfl

/-- A context of 4 pages serves 5000 bytes, refuses 10000, has a failing `malloc` and serves 0. -/
theorem buffers_disjoint_of_four_pages :
    exec bufStep (bufInit ⟨-1, [], ⟨0, 0, 0, 0, 0⟩, 0x7f0000000000, 0x80000000, 0x4000, 4, 0⟩)
      [.alloc 5000 true, .alloc 10000 true, .alloc 1 false, .free 0, .alloc 0 true] =
        some ⟨⟨-1, [], ⟨0, 0, 0, 0, 0⟩, 0x7f0000000000, 0x80000000, 0x4000, 4, 2⟩,
          [⟨5000, ⟨0x7f0000000000, 0x80000000, 0x2000, 0, 0⟩⟩, ⟨0, ⟨0x7f0000002000, 0x80002000, 0, 0, 0⟩⟩],
          [1]⟩ ∧
      (2 : BitVec 64).toNat = (List.map requestPages
        [⟨5000, ⟨0x7f0000000000, 0x80000000, 0x2000, 0, 0⟩⟩,
          ⟨0, ⟨0x7f0000002000, 0x80002000, 0, 0, 0⟩⟩]).sum := by
  have hrun :
      exec bufStep (bufInit ⟨-1, [], ⟨0, 0, 0, 0, 0⟩, 0x7f0000000000, 0x80000000, 0x4000, 4, 0⟩)
      [.alloc 5000 true, .alloc 10000 true, .alloc 1 false, .free 0, .alloc 0 true] =
        some ⟨⟨-1, [], ⟨0, 0, 0, 0, 0⟩, 0x7f0000000000, 0x80000000, 0x4000, 4, 2⟩,
          [⟨5000, ⟨0x7f0000000000, 0x80000000, 0x2000, 0, 0⟩⟩, ⟨0, ⟨0x7f0000002000, 0x80002000, 0, 0, 0⟩⟩],
          [1]⟩ := rfl
  exact ⟨hrun, (buffers_disjoint_in_region rfl (by decide) (by decide) hrun).2.2.1⟩

end Libpop.Proofs
