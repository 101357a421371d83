import Mathlib.Logic.Function.Iterate
import Mathlib.Tactic.Lemma

/-!
# While loops

A loop runs its body while the condition holds, for at most `fuel` tests of the
condition. It leaves with a state exactly when some iterate of the body is the first one
to fail the test, so a bound on that iterate is all a caller needs to know.
-/

namespace Loop

variable {σ : Type*} (cond : σ → Bool) (body : σ → σ)

/-- `while (cond) body`, with `none` when `fuel` tests did not leave the loop. -/
def whileLoop : Nat → σ → Option σ
  | 0, _ => none
  | fuel + 1, s => if cond s then whileLoop fuel (body s) else some s

theorem whileLoop_eq_some_iff (fuel : Nat) (s t : σ) :
    whileLoop cond body fuel s = some t ↔
      ∃ k < fuel, body^[k] s = t ∧ cond t = false ∧ ∀ j < k, cond (body^[j] s) = true := by
  induction fuel generalizing s with
  | zero => simp [whileLoop]
  | succ fuel ih =>
    rw [whileLoop]
    cases hc : cond s with
    | false =>
      simp only [Bool.false_eq_true, if_false, Option.some.injEq]
      constructor
      · rintro rfl
        exact ⟨0, by omega, rfl, hc, fun j hj => by omega⟩
      · rintro ⟨k, _, hk, _, hall⟩
        cases k with
        | zero => exact hk
        | succ k => exact absurd (hall 0 (by omega)) (by simp [hc])
    | true =>
      simp only [if_true, ih (body s)]
      constructor
      · rintro ⟨k, hk, hkt, hf, hall⟩
        refine ⟨k + 1, by omega, hkt, hf, fun j hj => ?_⟩
        cases j with
        | zero => exact hc
        | succ j => exact hall j (by omega)
      · rintro ⟨k, hk, hkt, hf, hall⟩
        cases k with
        | zero =>
          simp only [Function.iterate_zero, id_eq] at hkt
          rw [← hkt, hc] at hf
          exact absurd hf (by simp)
        | succ k => exact ⟨k, by omega, hkt, hf, fun j hj => hall (j + 1) (by omega)⟩

end Loop
