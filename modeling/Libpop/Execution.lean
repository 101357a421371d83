import Mathlib.Tactic.Lemma
import Mathlib.Tactic.TypeStar

/-!
# Executions of a partial step function

A system is a step function that rejects the inputs it cannot take in a state. Safety
over whole runs is reduced here to single steps: an invariant is carried along an
execution, possibly only while every input meets a guard, and a property that one step
preserves exactly when its guard holds is a property of the run exactly when every
step is guarded.
-/

namespace Execution

section Runs

variable {σ ι : Type*} (step : σ → ι → Option σ)

/-- The state after a list of inputs, or `none` when one of them cannot be taken. -/
def exec : σ → List ι → Option σ
  | s, [] => some s
  | s, i :: is => match step s i with
    | none => none
    | some t => exec t is

/-- Every step of the execution is taken in a state that meets the guard of its input. -/
def Guarded (guard : σ → ι → Prop) : σ → List ι → Prop
  | _, [] => True
  | s, i :: is => match step s i with
    | none => True
    | some t => guard s i ∧ Guarded guard t is

/-- The property holds in every state of the execution, the first one included. -/
def Throughout (P : σ → Prop) : σ → List ι → Prop
  | s, [] => P s
  | s, i :: is => P s ∧ match step s i with
    | none => True
    | some t => Throughout P t is

instance decidableGuarded (guard : σ → ι → Prop) [∀ s i, Decidable (guard s i)] :
    ∀ s is, Decidable (Guarded step guard s is)
  | _, [] => .isTrue trivial
  | s, i :: is =>
    match h : step s i with
    | none => .isTrue (by simp [Guarded, h])
    | some t =>
      let := decidableGuarded guard t is
      decidable_of_iff (guard s i ∧ Guarded step guard t is) (by simp [Guarded, h])

variable {step}

lemma exec_cons {s t u : σ} {i : ι} {is : List ι} (h : step s i = some t) :
    exec step s (i :: is) = some u ↔ exec step t is = some u := by
  simp [exec, h]

lemma exec_cons_inv {s u : σ} {i : ι} {is : List ι} (h : exec step s (i :: is) = some u) :
    ∃ t, step s i = some t ∧ exec step t is = some u := by
  cases hs : step s i with
  | none => simp [exec, hs] at h
  | some t => exact ⟨t, rfl, (exec_cons hs).mp h⟩

lemma exec_append {s t u : σ} {is js : List ι} (h : exec step s is = some t)
    (h' : exec step t js = some u) : exec step s (is ++ js) = some u := by
  induction is generalizing s with
  | nil =>
    cases h
    exact h'
  | cons i is ih =>
    obtain ⟨v, hv, hr⟩ := exec_cons_inv h
    exact (exec_cons hv).mpr (ih hr)

lemma exec_snoc {s t u : σ} {i : ι} {is : List ι} (h : exec step s is = some t)
    (hstep : step t i = some u) : exec step s (is ++ [i]) = some u :=
  exec_append h ((exec_cons hstep).mpr rfl)

lemma exec_snoc_inv {s u : σ} {i : ι} {is : List ι} (h : exec step s (is ++ [i]) = some u) :
    ∃ t, exec step s is = some t ∧ step t i = some u := by
  induction is generalizing s with
  | nil =>
    obtain ⟨t, ht, hu⟩ := exec_cons_inv h
    cases hu
    exact ⟨s, rfl, ht⟩
  | cons j is ih =>
    obtain ⟨v, hv, hr⟩ := exec_cons_inv h
    obtain ⟨t, ht, hu⟩ := ih hr
    exact ⟨t, (exec_cons hv).mpr ht, hu⟩

variable (step) in
/-- The input at place `k` is `i`, and it is taken in state `t`. -/
structure Takes (s : σ) (is : List ι) (k : Nat) (i : ι) (t : σ) : Prop where
  input : is[k]? = some i
  state : exec step s (is.take k) = some t
  taken : ∃ u, step t i = some u

/-- Every input of an execution is taken. -/
lemma exec_takes {s u : σ} {is : List ι} (h : exec step s is = some u) {k : Nat} {i : ι}
    (hi : is[k]? = some i) : ∃ t, Takes step s is k i t := by
  induction is generalizing s k with
  | nil => cases hi
  | cons j is ih =>
    obtain ⟨v, hv, hr⟩ := exec_cons_inv h
    cases k with
    | zero =>
      obtain rfl : j = i := by simpa using hi
      exact ⟨s, rfl, rfl, v, hv⟩
    | succ k =>
      obtain ⟨t, ht⟩ := ih hr (by simpa using hi)
      exact ⟨t, hi, (exec_cons hv).mpr ht.state, ht.taken⟩

variable (step) in
def Reaches (s t : σ) : Prop :=
  ∃ is, exec step s is = some t

lemma Reaches.refl (s : σ) : Reaches step s s :=
  ⟨[], rfl⟩

lemma Reaches.trans {s t u : σ} (h : Reaches step s t)
    (h' : Reaches step t u) : Reaches step s u := by
  obtain ⟨is, his⟩ := h
  obtain ⟨js, hjs⟩ := h'
  exact ⟨is ++ js, exec_append his hjs⟩

lemma Reaches.of_step {s t : σ} {i : ι} (h : step s i = some t) : Reaches step s t :=
  ⟨[i], (exec_cons h).mpr rfl⟩

/-- A counted loop: when every iteration can be executed, so can all of them. -/
theorem reaches_loop {P : Nat → σ → Prop} {N : Nat}
    (hiter : ∀ n s, n < N → P n s → ∃ t, Reaches step s t ∧ P (n + 1) t) {s : σ} (hs : P 0 s) :
    ∃ t, Reaches step s t ∧ P N t := by
  induction N with
  | zero => exact ⟨s, .refl s, hs⟩
  | succ N ih =>
    obtain ⟨t, ht, hP⟩ := ih fun n s hn => hiter n s (Nat.lt_succ_of_lt hn)
    obtain ⟨u, hu, hP'⟩ := hiter N t (Nat.lt_succ_self N) hP
    exact ⟨u, ht.trans hu, hP'⟩

/-- What one step preserves, every execution preserves. -/
theorem exec_invariant {Inv : σ → Prop}
    (hstep : ∀ s i t, Inv s → step s i = some t → Inv t)
    {s t : σ} {is : List ι} (hs : Inv s) (h : exec step s is = some t) : Inv t := by
  induction is generalizing s with
  | nil =>
    simp only [exec, Option.some.injEq] at h
    exact h ▸ hs
  | cons i is ih =>
    obtain ⟨u, hu, hr⟩ := exec_cons_inv h
    exact ih (hstep s i u hs hu) hr

/-- An invariant that depends on the number of steps, which has a bound. -/
theorem exec_indexed {Inv : Nat → σ → Prop} {N : Nat}
    (hstep : ∀ k s i t, k < N → Inv k s → step s i = some t → Inv (k + 1) t)
    {k : Nat} {s t : σ} {is : List ι} (hs : Inv k s) (h : exec step s is = some t)
    (hlen : k + is.length ≤ N) : Inv (k + is.length) t := by
  induction is generalizing k s with
  | nil =>
    simp only [exec, Option.some.injEq] at h
    exact h ▸ hs
  | cons i is ih =>
    obtain ⟨u, hu, hr⟩ := exec_cons_inv h
    rw [List.length_cons] at hlen ⊢
    have hrest := ih (hstep k s i u (by omega) hs hu) hr (by omega)
    rwa [Nat.add_assoc, Nat.add_comm 1] at hrest

/-- Steps that use up a budget: a run makes no more of them than it had. -/
theorem exec_budget {Inv : σ → Prop} {budget : σ → Nat} {counted : ι → Bool}
    (hstep : ∀ s i t, Inv s → step s i = some t → Inv t ∧ budget t + (counted i).toNat ≤ budget s)
    {s t : σ} {is : List ι} (hs : Inv s) (h : exec step s is = some t) :
    Inv t ∧ budget t + is.countP counted ≤ budget s := by
  induction is generalizing s with
  | nil =>
    simp only [exec, Option.some.injEq] at h
    subst h
    exact ⟨hs, Nat.le_refl _⟩
  | cons i is ih =>
    obtain ⟨u, hu, hr⟩ := exec_cons_inv h
    obtain ⟨hInv, hle⟩ := hstep s i u hs hu
    obtain ⟨ht, hrest⟩ := ih hInv hr
    refine ⟨ht, ?_⟩
    rw [List.countP_cons]
    cases hc : counted i with
    | false =>
      rw [hc] at hle
      exact Nat.le_trans hrest hle
    | true =>
      rw [hc, Bool.toNat_true] at hle
      rw [if_pos rfl]
      omega

/-- An invariant under which no step is refused: every list of inputs can be taken. -/
theorem exec_total {Inv : σ → Prop} (hstep : ∀ s i, Inv s → ∃ t, step s i = some t ∧ Inv t)
    {s : σ} (hs : Inv s) (is : List ι) : ∃ t, exec step s is = some t ∧ Inv t := by
  induction is generalizing s with
  | nil => exact ⟨s, rfl, hs⟩
  | cons i is ih =>
    obtain ⟨t, ht, hinv⟩ := hstep s i hs
    obtain ⟨u, hu, hu'⟩ := ih hinv
    exact ⟨u, (exec_cons ht).mpr hu, hu'⟩

/-- Forward simulation in lockstep: while the inputs are admissible, every execution is matched
by one of the other system over the translated inputs. -/
theorem exec_simulation {τ κ : Type*} {step' : τ → κ → Option τ} {R : σ → τ → Prop} {ok : ι → Prop}
    {f : ι → κ}
    (hstep : ∀ s i s' t, R s t → ok i → step s i = some s' →
      ∃ t', step' t (f i) = some t' ∧ R s' t')
    {s s' : σ} {t : τ} {is : List ι} (hR : R s t) (hok : ∀ i ∈ is, ok i)
    (h : exec step s is = some s') : ∃ t', exec step' t (is.map f) = some t' ∧ R s' t' := by
  induction is generalizing s t with
  | nil =>
    simp only [exec, Option.some.injEq] at h
    exact ⟨t, rfl, h ▸ hR⟩
  | cons i is ih =>
    obtain ⟨u, hu, hr⟩ := exec_cons_inv h
    obtain ⟨v, hv, hRv⟩ := hstep s i u t hR (hok i List.mem_cons_self) hu
    obtain ⟨t', ht', hR'⟩ := ih hRv (fun j hj => hok j (List.mem_cons_of_mem i hj)) hr
    exact ⟨t', (exec_cons hv).mpr ht', hR'⟩

/-- Forward simulation with stuttering: when every step is matched by an execution of the other
system, possibly an empty one, so is every execution. -/
theorem exec_forward {τ κ : Type*} {step' : τ → κ → Option τ} {R : σ → τ → Prop}
    (hstep : ∀ s i s' t, R s t → step s i = some s' → ∃ t', Reaches step' t t' ∧ R s' t')
    {s s' : σ} {t : τ} {is : List ι} (hR : R s t) (h : exec step s is = some s') :
    ∃ t', Reaches step' t t' ∧ R s' t' := by
  induction is generalizing s t with
  | nil =>
    simp only [exec, Option.some.injEq] at h
    exact ⟨t, .refl t, h ▸ hR⟩
  | cons i is ih =>
    obtain ⟨u, hu, hr⟩ := exec_cons_inv h
    obtain ⟨v, hv, hRv⟩ := hstep s i u t hR hu
    obtain ⟨t', ht', hR'⟩ := ih hRv hr
    exact ⟨t', hv.trans ht', hR'⟩

/-- A property that holds throughout holds in the last state. -/
lemma Throughout.last {P : σ → Prop} {s t : σ} {is : List ι}
    (hP : Throughout step P s is) (h : exec step s is = some t) : P t := by
  induction is generalizing s with
  | nil =>
    simp only [exec, Option.some.injEq] at h
    exact h ▸ hP
  | cons i is ih =>
    obtain ⟨u, hu, hr⟩ := exec_cons_inv h
    simp only [Throughout, hu] at hP
    exact ih hP.2 hr

/-- A run whose last state is seen to lack the property does not have it throughout. -/
lemma not_throughout_of_map {α : Type*} {P : σ → Prop} {s : σ} {is : List ι} {f : σ → α} {a : α}
    (hrun : (exec step s is).map f = some a) (hbad : ∀ t, f t = a → ¬P t) :
    ¬Throughout step P s is := by
  intro hP
  obtain ⟨t, ht, hobs⟩ := Option.map_eq_some_iff.mp hrun
  exact hbad t hobs (hP.last ht)

lemma Throughout.first {P : σ → Prop} {s : σ} {is : List ι}
    (hP : Throughout step P s is) : P s := by
  cases is with
  | nil => exact hP
  | cons i is => exact hP.1

/-- Along an execution that keeps an invariant, one guard gives another. -/
theorem Guarded.mono {guard guard' : σ → ι → Prop} {Inv : σ → Prop}
    (hguard : ∀ s i, Inv s → guard s i → guard' s i)
    (hstep : ∀ s i t, Inv s → guard s i → step s i = some t → Inv t)
    {s : σ} {is : List ι} (hs : Inv s) (hg : Guarded step guard s is) :
    Guarded step guard' s is := by
  induction is generalizing s with
  | nil => trivial
  | cons i is ih =>
    cases ht : step s i with
    | none => simp [Guarded, ht]
    | some t =>
      simp only [Guarded, ht] at hg ⊢
      exact ⟨hguard s i hs hg.1, ih (hstep s i t hs hg.1 ht) hg.2⟩

/-- A guarded execution keeps, in every state, what the invariant implies. -/
theorem throughout_of_guarded {guard : σ → ι → Prop} {Inv P : σ → Prop}
    (hP : ∀ s, Inv s → P s)
    (hstep : ∀ s i t, Inv s → guard s i → step s i = some t → Inv t)
    {s : σ} {is : List ι} (hs : Inv s) (hg : Guarded step guard s is) :
    Throughout step P s is := by
  induction is generalizing s with
  | nil => exact hP s hs
  | cons i is ih =>
    refine ⟨hP s hs, ?_⟩
    cases hu : step s i with
    | none => trivial
    | some t =>
      simp only [Guarded, hu] at hg
      exact ih (hstep s i t hs hg.1 hu) hg.2

/-- When every step that meets the side condition keeps the property exactly if it meets the guard,
the property holds throughout an execution of such steps exactly if every one is guarded. -/
theorem throughout_iff_guarded_of {side guard : σ → ι → Prop} {Inv P : σ → Prop}
    (hinv : ∀ s i t, Inv s → side s i → step s i = some t → Inv t)
    (hstep : ∀ s i t, Inv s → P s → side s i → step s i = some t → (P t ↔ guard s i))
    {s : σ} {is : List ι} (hs : Inv s) (hP : P s) (hside : Guarded step side s is) :
    Throughout step P s is ↔ Guarded step guard s is := by
  induction is generalizing s with
  | nil => exact ⟨fun _ => trivial, fun _ => hP⟩
  | cons i is ih =>
    cases hu : step s i with
    | none => simp [Throughout, Guarded, hu, hP]
    | some t =>
      simp only [Guarded, hu] at hside
      simp only [Throughout, Guarded, hu, hP, true_and]
      have hiff := hstep s i t hs hP hside.1 hu
      have hinvt := hinv s i t hs hside.1 hu
      constructor
      · intro hT
        have hPt := hT.first
        exact ⟨hiff.mp hPt, (ih hinvt hPt hside.2).mp hT⟩
      · rintro ⟨hg, hG⟩
        exact (ih hinvt (hiff.mpr hg) hside.2).mpr hG

lemma guarded_true (s : σ) (is : List ι) : Guarded step (fun _ _ => True) s is := by
  induction is generalizing s with
  | nil => trivial
  | cons i is ih =>
    cases hu : step s i with
    | none => simp [Guarded, hu]
    | some t =>
      simp only [Guarded, hu, true_and]
      exact ih t

lemma Guarded.and {guard guard' : σ → ι → Prop} {s : σ} {is : List ι} (h : Guarded step guard s is)
    (h' : Guarded step guard' s is) : Guarded step (fun s i => guard s i ∧ guard' s i) s is := by
  induction is generalizing s with
  | nil => trivial
  | cons i is ih =>
    cases hu : step s i with
    | none => simp [Guarded, hu]
    | some t =>
      simp only [Guarded, hu] at h h' ⊢
      exact ⟨⟨h.1, h'.1⟩, ih h.2 h'.2⟩

/-- A guard that looks only at the inputs. -/
lemma guarded_of_forall_mem {ok : ι → Prop} {is : List ι} (h : ∀ i ∈ is, ok i) (s : σ) :
    Guarded step (fun _ i => ok i) s is := by
  induction is generalizing s with
  | nil => trivial
  | cons i is ih =>
    cases hu : step s i with
    | none => simp [Guarded, hu]
    | some t =>
      simp only [Guarded, hu]
      exact ⟨h i List.mem_cons_self, ih (fun j hj => h j (List.mem_cons_of_mem i hj)) t⟩

/-- An execution is guarded exactly when every input that is taken meets the guard there. -/
theorem guarded_iff_takes {guard : σ → ι → Prop} {s : σ} {is : List ι} :
    Guarded step guard s is ↔ ∀ k i t, Takes step s is k i t → guard t i := by
  induction is generalizing s with
  | nil => exact iff_of_true trivial fun k i t h => by simpa using h.input
  | cons j is ih =>
    cases hu : step s j with
    | none =>
      simp only [Guarded, hu, true_iff]
      intro k i t h
      cases k with
      | zero =>
        obtain rfl : j = i := by simpa using h.input
        obtain rfl : s = t := by simpa [exec] using h.state
        obtain ⟨u, hu'⟩ := h.taken
        rw [hu] at hu'
        cases hu'
      | succ k => simpa [exec, hu] using h.state
    | some v =>
      simp only [Guarded, hu, ih]
      constructor
      · rintro ⟨hfirst, hrest⟩ k i t h
        cases k with
        | zero =>
          obtain rfl : j = i := by simpa using h.input
          obtain rfl : s = t := by simpa [exec] using h.state
          exact hfirst
        | succ k =>
          refine hrest k i t ⟨by simpa using h.input, ?_, h.taken⟩
          simpa [exec, hu] using h.state
      · intro h
        refine ⟨h 0 j s ⟨rfl, rfl, v, hu⟩,
          fun k i t ht => h (k + 1) i t ⟨by simpa using ht.input, ?_, ht.taken⟩⟩
        simpa [exec, hu] using ht.state

/-- When every step keeps the property exactly if it meets the guard, the property holds
throughout an execution exactly if every step of it is guarded. -/
theorem throughout_iff_guarded {guard : σ → ι → Prop} {Inv P : σ → Prop}
    (hinv : ∀ s i t, Inv s → step s i = some t → Inv t)
    (hstep : ∀ s i t, Inv s → P s → step s i = some t → (P t ↔ guard s i))
    {s : σ} {is : List ι} (hs : Inv s) (hP : P s) :
    Throughout step P s is ↔ Guarded step guard s is :=
  throughout_iff_guarded_of (fun s i t h _ => hinv s i t h) (fun s i t h hP _ => hstep s i t h hP) hs hP
    (guarded_true s is)

end Runs

end Execution
