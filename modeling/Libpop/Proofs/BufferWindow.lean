import Libpop.Buf
import Libpop.Proofs.BufferAllocation

/-!
# The data window of a buffer

A buffer stores the ends of its data as an offset and a length. With lengths that a size can
have, the four operations are those of an abstract window; with arbitrary lengths the
unsigned sum in `pop_buf_put` can wrap, which matters only once data has been pulled.
-/

namespace Libpop.Proofs
open Buffer Execution

/-- The data of the buffer lies inside it, as mathematical integers. -/
def DataInside (pbuf : Pbuf) : Prop :=
  pbuf.offset.toNat + pbuf.length.toNat ≤ pbuf.size.toNat

/-- The sum that `pop_buf_put` checks does not wrap at the offset alone. -/
def PutKeepsInside (pbuf : Pbuf) : Adjust × BitVec 64 → Prop
  | (.put, len) => ¬(pbuf.length.toNat + len.toNat < 2 ^ 64 ∧
      2 ^ 64 ≤ pbuf.offset.toNat + pbuf.length.toNat + len.toNat)
  | _ => True

lemma popBufAlloc_ok {mem mem' : PopMem} {size : BitVec 64} {malloc : Bool} {buf : PopBuf}
    (h : popBufAlloc mem size malloc = some (mem', .ok buf)) :
    ∃ nr, buf = carvedBuf mem nr := by
  cases popBufAlloc_exit h with
  | carved nr hn hroom => exact ⟨nr, rfl⟩

/-! ### Single calls -/

section Calls

variable (pbuf : Pbuf) (len : BitVec 64)

lemma popBufPut_cases :
    (pbuf.size < pbuf.offset + pbuf.length + len ∧ popBufPut pbuf len = (pbuf, none)) ∨
      ¬pbuf.size < pbuf.offset + pbuf.length + len ∧
        popBufPut pbuf len =
          ({ pbuf with length := pbuf.length + len }, some (pbuf.vaddr + pbuf.offset)) := by
  by_cases hlong : pbuf.size < pbuf.offset + pbuf.length + len
  · exact .inl ⟨hlong, if_pos hlong⟩
  · exact .inr ⟨hlong, if_neg hlong⟩

lemma popBufTrim_cases :
    (pbuf.length < len ∧ popBufTrim pbuf len = (pbuf, none)) ∨
      ¬pbuf.length < len ∧
        popBufTrim pbuf len =
          ({ pbuf with length := pbuf.length - len }, some (pbuf.vaddr + pbuf.offset)) := by
  by_cases hshort : pbuf.length < len
  · exact .inl ⟨hshort, if_pos hshort⟩
  · exact .inr ⟨hshort, if_neg hshort⟩

lemma popBufPull_cases :
    (pbuf.length < len ∧ popBufPull pbuf len = (pbuf, none)) ∨
      ¬pbuf.length < len ∧
        popBufPull pbuf len = ({ pbuf with length := pbuf.length - len, offset := pbuf.offset + len },
          some (pbuf.vaddr + (pbuf.offset + len))) := by
  by_cases hshort : pbuf.length < len
  · exact .inl ⟨hshort, if_pos hshort⟩
  · exact .inr ⟨hshort, if_neg hshort⟩

lemma popBufPush_cases :
    (pbuf.offset < len ∧ popBufPush pbuf len = (pbuf, none)) ∨
      ¬pbuf.offset < len ∧
        popBufPush pbuf len = ({ pbuf with length := pbuf.length + len, offset := pbuf.offset - len },
          some (pbuf.vaddr + (pbuf.offset - len))) := by
  by_cases hlow : pbuf.offset < len
  · exact .inl ⟨hlow, if_pos hlow⟩
  · exact .inr ⟨hlow, if_neg hlow⟩

end Calls

/-- What a call leaves alone: everything but the two ends of the data. -/
lemma popBufAdjust_frame (pbuf : Pbuf) (op : Adjust) (len : BitVec 64) :
    ∃ offset length, (popBufAdjust pbuf op len).1 =
      { pbuf with offset := offset, length := length } := by
  cases op with
  | put =>
    rcases popBufPut_cases pbuf len with ⟨-, he⟩ | ⟨-, he⟩ <;> exact ⟨_, _, congrArg Prod.fst he⟩
  | trim =>
    rcases popBufTrim_cases pbuf len with ⟨-, he⟩ | ⟨-, he⟩ <;> exact ⟨_, _, congrArg Prod.fst he⟩
  | pull =>
    rcases popBufPull_cases pbuf len with ⟨-, he⟩ | ⟨-, he⟩ <;> exact ⟨_, _, congrArg Prod.fst he⟩
  | push =>
    rcases popBufPush_cases pbuf len with ⟨-, he⟩ | ⟨-, he⟩ <;> exact ⟨_, _, congrArg Prod.fst he⟩

/-! ### Arbitrary lengths -/

lemma dataInside_put_iff {pbuf : Pbuf} (h : DataInside pbuf) (len : BitVec 64) :
    DataInside (popBufPut pbuf len).1 ↔ PutKeepsInside pbuf (.put, len) := by
  have hlen := len.isLt
  have hsize := pbuf.size.isLt
  unfold DataInside at h
  rcases popBufPut_cases pbuf len with ⟨hover, he⟩ | ⟨hfit, he⟩
  · rw [he]
    rw [BitVec.lt_def, BitVec.toNat_add, BitVec.toNat_add] at hover
    unfold DataInside PutKeepsInside
    dsimp only
    omega
  · rw [he]
    rw [BitVec.lt_def, BitVec.toNat_add, BitVec.toNat_add] at hfit
    unfold DataInside PutKeepsInside
    dsimp only
    rw [BitVec.toNat_add]
    omega

/-- Only a put can move the end of the data out of the buffer. -/
lemma dataInside_step_iff (pbuf : Pbuf) (call : Adjust × BitVec 64) (pbuf' : Pbuf)
    (h : DataInside pbuf) (hs : pbufStep pbuf call = some pbuf') :
    DataInside pbuf' ↔ PutKeepsInside pbuf call := by
  obtain ⟨op, len⟩ := call
  simp only [pbufStep, Option.some.injEq] at hs
  subst hs
  cases op with
  | put => exact dataInside_put_iff h len
  | trim =>
    refine iff_of_true ?_ trivial
    dsimp only [popBufAdjust]
    rcases popBufTrim_cases pbuf len with ⟨-, he⟩ | ⟨hfit, he⟩
    · rw [he]
      exact h
    · rw [he]
      unfold DataInside at h ⊢
      dsimp only
      rw [BitVec.toNat_sub_of_le (BitVec.not_lt.mp hfit)]
      omega
  | pull =>
    refine iff_of_true ?_ trivial
    dsimp only [popBufAdjust]
    rcases popBufPull_cases pbuf len with ⟨-, he⟩ | ⟨hfit, he⟩
    · rw [he]
      exact h
    · rw [he]
      have hle : len.toNat ≤ pbuf.length.toNat := BitVec.not_lt.mp hfit
      unfold DataInside at h ⊢
      dsimp only
      rw [BitVec.toNat_sub_of_le hle, BitVec.toNat_add]
      omega
  | push =>
    refine iff_of_true ?_ trivial
    dsimp only [popBufAdjust]
    rcases popBufPush_cases pbuf len with ⟨-, he⟩ | ⟨hfit, he⟩
    · rw [he]
      exact h
    · rw [he]
      have hle : len.toNat ≤ pbuf.offset.toNat := BitVec.not_lt.mp hfit
      unfold DataInside at h ⊢
      dsimp only
      rw [BitVec.toNat_sub_of_le hle, BitVec.toNat_add]
      omega

lemma dataInside_alloc {mem mem' : PopMem} {request : BitVec 64} {malloc : Bool} {buf : PopBuf}
    (ha : popBufAlloc mem request malloc = some (mem', .ok buf)) (ctx : BitVec 64) :
    DataInside ⟨buf, ctx⟩ := by
  obtain ⟨nr, rfl⟩ := popBufAlloc_ok ha
  exact Nat.zero_le _

/-- From its allocation on, the data of a buffer stays inside it exactly as long as no put meets
a length that wraps the checked sum but not the new length. -/
theorem data_inside_iff {mem mem' : PopMem} {request : BitVec 64} {malloc : Bool} {buf : PopBuf}
    (ha : popBufAlloc mem request malloc = some (mem', .ok buf)) (ctx : BitVec 64)
    (calls : List (Adjust × BitVec 64)) :
    Throughout pbufStep DataInside ⟨buf, ctx⟩ calls ↔
      Guarded pbufStep PutKeepsInside ⟨buf, ctx⟩ calls := by
  have htrue : ∀ (s : Pbuf) (i : Adjust × BitVec 64) (t : Pbuf), True → pbufStep s i = some t →
      True :=
    fun _ _ _ _ _ => trivial
  apply throughout_iff_guarded htrue
  · intro s i t _ hs
    exact dataInside_step_iff s i t hs
  · trivial
  · exact dataInside_alloc ha ctx

instance (pbuf : Pbuf) (call : Adjust × BitVec 64) : Decidable (PutKeepsInside pbuf call) := by
  unfold PutKeepsInside
  split <;> infer_instance

/-- A page of memory to carve buffers from. -/
def onePage : PopMem :=
  ⟨-1, [], ⟨0, 0, 0, 0, 0⟩, 0x7f0000000000, 0x80000000, 0x1000, 1, 0⟩

/-- The buffer that takes all of it. -/
def pageBuf : PopBuf :=
  ⟨0x7f0000000000, 0x80000000, 0x1000, 0, 0⟩

theorem data_inside_of_page :
    Throughout pbufStep DataInside ⟨pageBuf, 0x601000⟩
      [(.put, 4000), (.pull, 14), (.put, 0x8000000000000000), (.push, 14),
        (.trim, 4001), (.put, 0xffffffffffffffff)] :=
  (data_inside_iff (show popBufAlloc onePage 4096 true =
    some ({ onePage with allocedPages := 1 }, .ok pageBuf) from rfl) 0x601000 _).mpr (by decide)

/-- With 4 bytes put and pulled again, a put of 2^64 - 2 passes the check and leaves a length
of 2^64 - 2 behind offset 4. -/
theorem data_leaves_buffer_after_pull :
    popBufAlloc onePage 4096 true = some ({ onePage with allocedPages := 1 }, .ok pageBuf) ∧
      exec pbufStep ⟨pageBuf, 0x601000⟩ [(.put, 4), (.pull, 4), (.put, 0xfffffffffffffffe)] =
        some ⟨{ pageBuf with offset := 4, length := 0xfffffffffffffffe }, 0x601000⟩ ∧
      ¬Throughout pbufStep DataInside ⟨pageBuf, 0x601000⟩
        [(.put, 4), (.pull, 4), (.put, 0xfffffffffffffffe)] := by
  have hrun :
      exec pbufStep ⟨pageBuf, 0x601000⟩ [(.put, 4), (.pull, 4), (.put, 0xfffffffffffffffe)] =
      some ⟨{ pageBuf with offset := 4, length := 0xfffffffffffffffe }, 0x601000⟩ := by decide
  refine ⟨rfl, hrun, fun h => ?_⟩
  have hlast := h.last hrun
  exact absurd hlast (by unfold DataInside; decide)

/-! ### Lengths of a size -/

/-- The buffer is `buf` of context `ctx` with its data in the window. -/
structure Tracks (buf : PopBuf) (ctx : BitVec 64) (pbuf : Pbuf)
    (w : Window buf.size.toNat) : Prop where
  offset : pbuf.offset.toNat = w.start
  length : pbuf.offset.toNat + pbuf.length.toNat = w.stop
  rest : pbuf = ⟨{ buf with offset := pbuf.offset, length := pbuf.length }, ctx⟩

/-- The call does on the buffer what it does on the window: with success it returns the new
start of the data, refused it returns a null pointer and changes nothing. -/
def Refines (buf : PopBuf) (ctx : BitVec 64) (pbuf : Pbuf) (w : Window buf.size.toNat) (op : Adjust)
    (len : BitVec 64) : Prop :=
  match w.adjust op len.toNat with
  | some w' =>
    ∃ pbuf', popBufAdjust pbuf op len = (pbuf', some (buf.vaddr + BitVec.ofNat 64 w'.start)) ∧
      Tracks buf ctx pbuf' w'
  | none => popBufAdjust pbuf op len = (pbuf, none)

section Tracked

variable {buf : PopBuf} {ctx : BitVec 64} {pbuf : Pbuf} {w : Window buf.size.toNat}
  (h : Tracks buf ctx pbuf w)

include h

lemma Tracks.size : pbuf.size = buf.size := by rw [h.rest]

lemma Tracks.vaddr : pbuf.vaddr = buf.vaddr := by rw [h.rest]

/-- A new pair of ends, with the pointer that goes with it. -/
lemma Tracks.moved (offset length : BitVec 64) (w' : Window buf.size.toNat)
    (ho : offset.toNat = w'.start) (hl : offset.toNat + length.toNat = w'.stop) :
    Tracks buf ctx { pbuf with offset := offset, length := length } w' ∧
      pbuf.vaddr + offset = buf.vaddr + BitVec.ofNat 64 w'.start := by
  refine ⟨⟨ho, hl, ?_⟩, ?_⟩
  · rw [h.rest]
  · rw [h.vaddr, ← ho, BitVec.ofNat_toNat, BitVec.setWidth_eq]

lemma refines_put {len : BitVec 64} (hsize : buf.size.toNat < 2 ^ 63) (hlen : len.toNat < 2 ^ 63) :
    Refines buf ctx pbuf w .put len := by
  have hstop := h.length
  have hstart := h.offset
  have hfits := w.fits
  have hsum : (pbuf.offset + pbuf.length + len).toNat = w.stop + len.toNat := by
    rw [BitVec.toNat_add, BitVec.toNat_add]
    omega
  unfold Refines
  simp only [Window.adjust, popBufAdjust]
  rcases popBufPut_cases pbuf len with ⟨hover, he⟩ | ⟨hfit, he⟩
  · rw [BitVec.lt_def, hsum, h.size] at hover
    rw [Window.put_eq_none_iff.mpr hover]
    exact he
  · rw [BitVec.lt_def, hsum, h.size] at hfit
    cases hw : w.put len.toNat with
    | none => exact absurd (Window.put_eq_none_iff.mp hw) hfit
    | some w' =>
      obtain ⟨-, hs, ht⟩ := Window.put_eq_some_iff.mp hw
      have hl : (pbuf.length + len).toNat = pbuf.length.toNat + len.toNat := by
        rw [BitVec.toNat_add]
        omega
      obtain ⟨htracks, hdata⟩ := h.moved pbuf.offset (pbuf.length + len) w' (by omega) (by omega)
      exact ⟨_, hdata ▸ he, htracks⟩

lemma refines_trim (len : BitVec 64) : Refines buf ctx pbuf w .trim len := by
  have hstop := h.length
  have hstart := h.offset
  unfold Refines
  simp only [Window.adjust, popBufAdjust]
  rcases popBufTrim_cases pbuf len with ⟨hover, he⟩ | ⟨hfit, he⟩
  · have hlt : w.stop - w.start < len.toNat := by
      have hover' : pbuf.length.toNat < len.toNat := hover
      omega
    rw [Window.trim_eq_none_iff.mpr hlt]
    exact he
  · have hle : len.toNat ≤ pbuf.length.toNat := BitVec.not_lt.mp hfit
    cases hw : w.trim len.toNat with
    | none => exact absurd (Window.trim_eq_none_iff.mp hw) (by omega)
    | some w' =>
      obtain ⟨-, hs, ht⟩ := Window.trim_eq_some_iff.mp hw
      have hl : (pbuf.length - len).toNat = pbuf.length.toNat - len.toNat :=
        BitVec.toNat_sub_of_le hle
      obtain ⟨htracks, hdata⟩ := h.moved pbuf.offset (pbuf.length - len) w' (by omega) (by omega)
      exact ⟨_, hdata ▸ he, htracks⟩

lemma refines_pull (len : BitVec 64) : Refines buf ctx pbuf w .pull len := by
  have hstop := h.length
  have hstart := h.offset
  have hfits := w.fits
  have hmax := buf.size.isLt
  unfold Refines
  simp only [Window.adjust, popBufAdjust]
  rcases popBufPull_cases pbuf len with ⟨hover, he⟩ | ⟨hfit, he⟩
  · have hlt : w.stop - w.start < len.toNat := by
      have hover' : pbuf.length.toNat < len.toNat := hover
      omega
    rw [Window.pull_eq_none_iff.mpr hlt]
    exact he
  · have hle : len.toNat ≤ pbuf.length.toNat := BitVec.not_lt.mp hfit
    cases hw : w.pull len.toNat with
    | none => exact absurd (Window.pull_eq_none_iff.mp hw) (by omega)
    | some w' =>
      obtain ⟨-, hs, ht⟩ := Window.pull_eq_some_iff.mp hw
      have hl : (pbuf.length - len).toNat = pbuf.length.toNat - len.toNat :=
        BitVec.toNat_sub_of_le hle
      have ho : (pbuf.offset + len).toNat = pbuf.offset.toNat + len.toNat := by
        rw [BitVec.toNat_add]
        omega
      obtain ⟨htracks, hdata⟩ :=
        h.moved (pbuf.offset + len) (pbuf.length - len) w' (by omega) (by omega)
      exact ⟨_, hdata ▸ he, htracks⟩

lemma refines_push (len : BitVec 64) : Refines buf ctx pbuf w .push len := by
  have hstop := h.length
  have hstart := h.offset
  have hfits := w.fits
  have hmax := buf.size.isLt
  unfold Refines
  simp only [Window.adjust, popBufAdjust]
  rcases popBufPush_cases pbuf len with ⟨hover, he⟩ | ⟨hfit, he⟩
  · have hlt : w.start < len.toNat := by
      have hover' : pbuf.offset.toNat < len.toNat := hover
      omega
    rw [Window.push_eq_none_iff.mpr hlt]
    exact he
  · have hle : len.toNat ≤ pbuf.offset.toNat := BitVec.not_lt.mp hfit
    cases hw : w.push len.toNat with
    | none => exact absurd (Window.push_eq_none_iff.mp hw) (by omega)
    | some w' =>
      obtain ⟨-, hs, ht⟩ := Window.push_eq_some_iff.mp hw
      have hl : (pbuf.length + len).toNat = pbuf.length.toNat + len.toNat := by
        rw [BitVec.toNat_add]
        omega
      have ho : (pbuf.offset - len).toNat = pbuf.offset.toNat - len.toNat :=
        BitVec.toNat_sub_of_le hle
      obtain ⟨htracks, hdata⟩ :=
        h.moved (pbuf.offset - len) (pbuf.length + len) w' (by omega) (by omega)
      exact ⟨_, hdata ▸ he, htracks⟩

lemma refines_adjust {op : Adjust} {len : BitVec 64} (hsize : buf.size.toNat < 2 ^ 63)
    (hlen : len.toNat < 2 ^ 63) : Refines buf ctx pbuf w op len := by
  cases op with
  | put => exact refines_put h hsize hlen
  | trim => exact refines_trim h len
  | pull => exact refines_pull h len
  | push => exact refines_push h len

/-- The window determines the buffer. -/
lemma Tracks.unique {pbuf' : Pbuf} (h' : Tracks buf ctx pbuf' w) : pbuf' = pbuf := by
  have ho : pbuf'.offset = pbuf.offset := BitVec.eq_of_toNat_eq (h'.offset.trans h.offset.symm)
  have hsum : pbuf'.offset.toNat + pbuf'.length.toNat = pbuf.offset.toNat + pbuf.length.toNat :=
    h'.length.trans h.length.symm
  have hl : pbuf'.length = pbuf.length := by
    apply BitVec.eq_of_toNat_eq
    rw [ho] at hsum
    exact Nat.add_left_cancel hsum
  rw [h'.rest, ho, hl, ← h.rest]

lemma Tracks.undo {op : Adjust} {len : BitVec 64} (hsize : buf.size.toNat < 2 ^ 63)
    (hlen : len.toNat < 2 ^ 63) {pbuf' : Pbuf} {a : BitVec 64}
    (hcall : popBufAdjust pbuf op len = (pbuf', some a)) :
    popBufAdjust pbuf' op.counterpart len = (pbuf, some (popBufData pbuf)) := by
  have hr : Refines buf ctx pbuf w op len := refines_adjust h hsize hlen
  unfold Refines at hr
  cases hw : w.adjust op len.toNat with
  | none =>
    rw [hw, hcall] at hr
    cases hr
  | some w' =>
    rw [hw, hcall] at hr
    obtain ⟨_, he, htracks⟩ := hr
    cases he
    have hback : Refines buf ctx pbuf' w' op.counterpart len := refines_adjust htracks hsize hlen
    unfold Refines at hback
    rw [Window.adjust_counterpart hw] at hback
    obtain ⟨pbuf'', he, hsame⟩ := hback
    have hdata : popBufData pbuf = buf.vaddr + BitVec.ofNat 64 w.start := by
      unfold popBufData
      rw [h.vaddr, ← h.offset, BitVec.ofNat_toNat, BitVec.setWidth_eq]
    rw [he, h.unique hsame, hdata]

end Tracked

lemma tracks_alloc {mem mem' : PopMem} {request : BitVec 64} {malloc : Bool} {buf : PopBuf}
    (ha : popBufAlloc mem request malloc = some (mem', .ok buf)) (ctx : BitVec 64) :
    Tracks buf ctx ⟨buf, ctx⟩ (Window.empty buf.size.toNat) := by
  obtain ⟨nr, rfl⟩ := popBufAlloc_ok ha
  exact ⟨rfl, rfl, rfl⟩

lemma tracks_step {buf : PopBuf} {ctx : BitVec 64} (hsize : buf.size.toNat < 2 ^ 63) (pbuf : Pbuf)
    (call : Adjust × BitVec 64) (pbuf' : Pbuf) (w : Window buf.size.toNat)
    (h : Tracks buf ctx pbuf w) (hlen : call.2.toNat < 2 ^ 63)
    (hs : pbufStep pbuf call = some pbuf') :
    ∃ w', w.step (call.1, call.2.toNat) = some w' ∧ Tracks buf ctx pbuf' w' := by
  have hr : Refines buf ctx pbuf w call.1 call.2 := refines_adjust h hsize hlen
  simp only [pbufStep, Option.some.injEq] at hs
  subst hs
  unfold Refines at hr
  unfold Window.step
  cases hw : w.adjust call.1 call.2.toNat with
  | none =>
    rw [hw] at hr
    exact ⟨w, rfl, hr ▸ h⟩
  | some w' =>
    rw [hw] at hr
    obtain ⟨pbuf', he, htracks⟩ := hr
    exact ⟨w', rfl, he ▸ htracks⟩

/-- Over lengths below 2^63 a buffer below 2^63 bytes is an abstract window: after every run of
calls its offset and length are the ends of the window that the same run leaves, every call
succeeds exactly when the window allows it and then returns the start of the data, nothing
else of the buffer changes, and every successful call is undone by its counterpart. -/
theorem pbuf_refines_window {mem mem' : PopMem} {request : BitVec 64} {malloc : Bool} {buf : PopBuf}
    (ha : popBufAlloc mem request malloc = some (mem', .ok buf)) (hsize : buf.size.toNat < 2 ^ 63)
    (ctx : BitVec 64) {calls : List (Adjust × BitVec 64)}
    (hlen : ∀ call ∈ calls, call.2.toNat < 2 ^ 63) {pbuf : Pbuf}
    (h : exec pbufStep ⟨buf, ctx⟩ calls = some pbuf) :
    ∃ w, exec Window.step (Window.empty buf.size.toNat)
        (calls.map fun call => (call.1, call.2.toNat)) = some w ∧
      Tracks buf ctx pbuf w ∧
      ∀ op len, len.toNat < 2 ^ 63 → Refines buf ctx pbuf w op len ∧
        ∀ pbuf' a, popBufAdjust pbuf op len = (pbuf', some a) →
          popBufAdjust pbuf' op.counterpart len = (pbuf, some (popBufData pbuf)) := by
  obtain ⟨w, hw, htracks⟩ := exec_simulation (tracks_step hsize) (tracks_alloc ha ctx) hlen h
  refine ⟨w, hw, htracks, ?_⟩
  intro op len hl
  exact ⟨refines_adjust htracks hsize hl, fun pbuf' a hcall => htracks.undo hsize hl hcall⟩

theorem pbuf_refines_window_page :
    exec pbufStep ⟨pageBuf, 0x601000⟩ [(.put, 4000), (.pull, 14), (.push, 20), (.trim, 3000)] =
        some ⟨{ pageBuf with offset := 14, length := 986 }, 0x601000⟩ ∧
      ∃ w, exec Window.step (Window.empty 0x1000)
        [(.put, 4000), (.pull, 14), (.push, 20), (.trim, 3000)] = some w ∧
        Tracks pageBuf 0x601000 ⟨{ pageBuf with offset := 14, length := 986 }, 0x601000⟩ w := by
  have ha :
      popBufAlloc onePage 4096 true = some ({ onePage with allocedPages := 1 }, .ok pageBuf) := rfl
  have hrun :
      exec pbufStep ⟨pageBuf, 0x601000⟩ [(.put, 4000), (.pull, 14), (.push, 20), (.trim, 3000)] =
      some ⟨{ pageBuf with offset := 14, length := 986 }, 0x601000⟩ := by decide
  obtain ⟨w, hw, htracks, -⟩ := pbuf_refines_window ha (by decide) 0x601000 (by decide) hrun
  exact ⟨hrun, w, hw, htracks⟩

/-! ### The length that is announced -/

/-- A buffer and the number of bytes in its window: what was put and pushed, less what was
trimmed and pulled. -/
structure CountedBuf where
  pbuf : Pbuf
  bytes : Int
  deriving DecidableEq

def bytesAdded (op : Adjust) (len : BitVec 64) : Int :=
  match op with
  | .put | .push => len.toNat
  | .trim | .pull => -len.toNat

def countedStep (s : CountedBuf) (call : Adjust × BitVec 64) : Option CountedBuf :=
  match popBufAdjust s.pbuf call.1 call.2 with
  | (pbuf, none) => some ⟨pbuf, s.bytes⟩
  | (pbuf, some _) => some ⟨pbuf, s.bytes + bytesAdded call.1 call.2⟩

/-- The slot announces the window: the physical address of its first byte, as the context
translates it, and the number of its bytes. -/
def Announces (mem : PopMem) (s : CountedBuf) (slot : NetmapSlot) : Prop :=
  slot.ptr = mem.paddr + (popBufData s.pbuf - mem.mem) ∧ (slot.len.toNat : Int) = s.bytes

/-- The length field counts the window modulo 2^64, whatever lengths were used. -/
structure CountInv (buf : PopBuf) (s : CountedBuf) : Prop where
  nonneg : 0 ≤ s.bytes
  length : (s.pbuf.length.toNat : Int) = s.bytes % 2 ^ 64
  vaddr : s.pbuf.vaddr = buf.vaddr
  paddr : s.pbuf.paddr = buf.paddr

lemma CountInv.grown {buf : PopBuf} {s : CountedBuf} (h : CountInv buf s) (offset len : BitVec 64) :
    CountInv buf ⟨{ s.pbuf with length := s.pbuf.length + len, offset := offset }, s.bytes + len.toNat⟩ where
  nonneg := Int.add_nonneg h.nonneg (Int.natCast_nonneg _)
  length := by
    have hl := h.length
    dsimp only
    rw [BitVec.toNat_add]
    omega
  vaddr := h.vaddr
  paddr := h.paddr

/-- No more is taken out than the field shows, and that is no more than was counted. -/
lemma CountInv.shrunk {buf : PopBuf} {s : CountedBuf} (h : CountInv buf s) (offset : BitVec 64)
    {len : BitVec 64} (hle : ¬s.pbuf.length < len) :
    CountInv buf ⟨{ s.pbuf with length := s.pbuf.length - len, offset := offset }, s.bytes + -len.toNat⟩ where
  nonneg := by
    have hn := h.nonneg
    have hl := h.length
    have hfit : len.toNat ≤ s.pbuf.length.toNat := BitVec.not_lt.mp hle
    dsimp only
    omega
  length := by
    have hl := h.length
    have hfit : len.toNat ≤ s.pbuf.length.toNat := BitVec.not_lt.mp hle
    dsimp only
    rw [BitVec.toNat_sub_of_le hfit]
    omega
  vaddr := h.vaddr
  paddr := h.paddr

lemma countInv_step {buf : PopBuf} (s : CountedBuf) (call : Adjust × BitVec 64) (t : CountedBuf)
    (h : CountInv buf s) (hs : countedStep s call = some t) : CountInv buf t := by
  obtain ⟨op, len⟩ := call
  cases op with
  | put =>
    dsimp only [countedStep, popBufAdjust, bytesAdded] at hs
    rcases popBufPut_cases s.pbuf len with ⟨-, he⟩ | ⟨-, he⟩
    · rw [he] at hs
      cases hs
      exact h
    · rw [he] at hs
      cases hs
      exact h.grown s.pbuf.offset len
  | trim =>
    dsimp only [countedStep, popBufAdjust, bytesAdded] at hs
    rcases popBufTrim_cases s.pbuf len with ⟨-, he⟩ | ⟨hfit, he⟩
    · rw [he] at hs
      cases hs
      exact h
    · rw [he] at hs
      cases hs
      exact h.shrunk s.pbuf.offset hfit
  | pull =>
    dsimp only [countedStep, popBufAdjust, bytesAdded] at hs
    rcases popBufPull_cases s.pbuf len with ⟨-, he⟩ | ⟨hfit, he⟩
    · rw [he] at hs
      cases hs
      exact h
    · rw [he] at hs
      cases hs
      exact h.shrunk (s.pbuf.offset + len) hfit
  | push =>
    dsimp only [countedStep, popBufAdjust, bytesAdded] at hs
    rcases popBufPush_cases s.pbuf len with ⟨-, he⟩ | ⟨-, he⟩
    · rw [he] at hs
      cases hs
      exact h
    · rw [he] at hs
      cases hs
      exact h.grown (s.pbuf.offset - len) len

/-- `pop_buf_len` takes the offset off a length that no longer contains it. -/
lemma popBufLen_eq_iff (pbuf : Pbuf) : popBufLen pbuf = pbuf.length ↔ pbuf.offset = 0 := by
  unfold popBufLen
  bv_omega

/-- For a window below 65536 bytes, reached by any calls, `pop_buf_len` and the slot that
`pop_nm_set_buf` fills are right exactly when the data starts with the buffer. -/
theorem window_announced_iff {mem mem' : PopMem} {request : BitVec 64} {malloc : Bool}
    {buf : PopBuf} (ha : popBufAlloc mem request malloc = some (mem', .ok buf)) (ctx : BitVec 64)
    {calls : List (Adjust × BitVec 64)} {s : CountedBuf}
    (h : exec countedStep ⟨⟨buf, ctx⟩, 0⟩ calls = some s) (hshort : s.bytes < 65536)
    (nsPhyIndirect : BitVec 16) (slot : NetmapSlot) :
    ((popBufLen s.pbuf).toNat : Int) = s.bytes ∧
      Announces mem s (popNmSetBuf nsPhyIndirect slot s.pbuf) ↔
      s.pbuf.offset = 0 := by
  obtain ⟨nr, rfl⟩ := popBufAlloc_ok ha
  have hinit : CountInv (carvedBuf mem nr) ⟨⟨carvedBuf mem nr, ctx⟩, 0⟩ := ⟨le_rfl, rfl, rfl, rfl⟩
  have hinv := exec_invariant countInv_step hinit h
  have hlength : (s.pbuf.length.toNat : Int) = s.bytes := by
    have hn := hinv.nonneg
    have hl := hinv.length
    omega
  constructor
  · rintro ⟨hlen, -⟩
    apply (popBufLen_eq_iff s.pbuf).mp
    apply BitVec.eq_of_toNat_eq
    omega
  · intro hzero
    have hlen : popBufLen s.pbuf = s.pbuf.length := (popBufLen_eq_iff s.pbuf).mpr hzero
    refine ⟨by rw [hlen, hlength], ?_, ?_⟩
    · have hv : s.pbuf.vaddr = mem.mem + (mem.allocedPages <<< pageShift) := hinv.vaddr
      have hp : s.pbuf.paddr = mem.paddr + (mem.allocedPages <<< pageShift) := hinv.paddr
      unfold popNmSetBuf popBufPaddr popBufData
      dsimp only
      rw [hv, hp, BitVec.add_assoc, BitVec.add_assoc, BitVec.add_comm mem.mem,
        BitVec.add_sub_cancel]
    · unfold popNmSetBuf
      dsimp only
      rw [hlen, BitVec.toNat_setWidth]
      omega

theorem window_announced_page :
    exec countedStep ⟨⟨pageBuf, 0x601000⟩, 0⟩ [(.put, 1500), (.pull, 14), (.push, 14)] =
        some ⟨⟨{ pageBuf with length := 1500 }, 0x601000⟩, 1500⟩ ∧
      ((popBufLen ⟨{ pageBuf with length := 1500 }, 0x601000⟩).toNat : Int) = 1500 := by
  have ha :
      popBufAlloc onePage 4096 true = some ({ onePage with allocedPages := 1 }, .ok pageBuf) := rfl
  have hrun : exec countedStep ⟨⟨pageBuf, 0x601000⟩, 0⟩ [(.put, 1500), (.pull, 14), (.push, 14)] =
      some ⟨⟨{ pageBuf with length := 1500 }, 0x601000⟩, 1500⟩ := by decide
  exact ⟨hrun, ((window_announced_iff ha 0x601000 hrun (by decide) 0x40 ⟨0, 0, 0⟩).mpr rfl).1⟩

/-- With 4 bytes put and 2 pulled, as `test_pbuf` does, the window holds 2 bytes and is
announced with none. -/
theorem window_announced_short :
    popBufAlloc onePage 4096 true = some ({ onePage with allocedPages := 1 }, .ok pageBuf) ∧
      exec countedStep ⟨⟨pageBuf, 0x601000⟩, 0⟩ [(.put, 4), (.pull, 2)] =
        some ⟨⟨{ pageBuf with offset := 2, length := 2 }, 0x601000⟩, 2⟩ ∧
      popNmSetBuf 0x40 ⟨0, 0, 0⟩ ⟨{ pageBuf with offset := 2, length := 2 }, 0x601000⟩ =
        ⟨0, 0x40, 0x80000002⟩ ∧
      ((popBufLen ⟨{ pageBuf with offset := 2, length := 2 }, 0x601000⟩).toNat : Int) ≠ 2 ∧
      ¬Announces onePage ⟨⟨{ pageBuf with offset := 2, length := 2 }, 0x601000⟩, 2⟩
        (popNmSetBuf 0x40 ⟨0, 0, 0⟩ ⟨{ pageBuf with offset := 2, length := 2 }, 0x601000⟩) := by
  refine ⟨rfl, by decide, by decide, by decide, ?_⟩
  rintro ⟨-, hlen⟩
  exact absurd hlen (by decide)

end Libpop.Proofs
