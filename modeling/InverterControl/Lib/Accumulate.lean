import Mathlib.Algebra.Order.Field.Rat
import Mathlib.Tactic

/-!
# Totals that are rounded after every addition

A total on a grid, here the integers, takes one amount after the other and is rounded each time.  What
the rounding adds is known from the amounts alone (`errors`), apart from ties, which the parity of the
total so far decides.  The key lemma is `total_eq`: the total is the exact sum and the sum of the errors.
-/

namespace InverterControl.Lib.Accumulate

variable {round : ℚ → ℤ} {n : ℤ} {e : ℚ} {es : List ℚ}

/-- The rounding does not see an even number of units. -/
def EvenShift (round : ℚ → ℤ) : Prop := ∀ (k : ℤ) (q : ℚ), round (2 * k + q) = 2 * k + round q

def isOdd (n : ℤ) : Bool := n % 2 = 1

/-- What an amount adds to a total that is odd or even. -/
def nearest (round : ℚ → ℤ) (odd : Bool) (e : ℚ) : ℤ := if odd then round (1 + e) - 1 else round e

/-- What the rounding adds to each amount. -/
def errors (round : ℚ → ℤ) : Bool → List ℚ → List ℚ
  | _, [] => []
  | odd, e :: es =>
    (nearest round odd e - e) :: errors round (odd ^^ isOdd (nearest round odd e)) es

/-- The total after the amounts. -/
def total (round : ℚ → ℤ) (n : ℤ) (es : List ℚ) : ℤ := es.foldl (fun n e => round (n + e)) n

@[simp] theorem total_nil : total round n [] = n := rfl

@[simp] theorem total_cons : total round n (e :: es) = total round (round (n + e)) es := rfl

theorem isOdd_add (n m : ℤ) : isOdd (n + m) = (isOdd n ^^ isOdd m) := by
  have hn : n % 2 = 0 ∨ n % 2 = 1 := Int.emod_two_eq_zero_or_one n
  have hm : m % 2 = 0 ∨ m % 2 = 1 := Int.emod_two_eq_zero_or_one m
  unfold isOdd
  rcases hn with hn | hn <;> rcases hm with hm | hm <;> simp [Int.add_emod, hn, hm]

/-- One addition. -/
theorem round_add (hround : EvenShift round) (n : ℤ) (e : ℚ) :
    round (n + e) = n + nearest round (isOdd n) e := by
  rcases Int.emod_two_eq_zero_or_one n with hn | hn
  · obtain ⟨k, hk⟩ : ∃ k, n = 2 * k := ⟨n / 2, by omega⟩
    have hodd : isOdd n = false := by simp [isOdd, hn]
    have h := hround k e
    rw [hodd, nearest, if_neg Bool.false_ne_true, hk]
    push_cast
    exact h
  · obtain ⟨k, hk⟩ : ∃ k, n = 2 * k + 1 := ⟨n / 2, by omega⟩
    have hodd : isOdd n = true := by simp [isOdd, hn]
    have h := hround k (1 + e)
    have hq : (n : ℚ) + e = 2 * (k : ℚ) + (1 + e) := by
      rw [hk]
      push_cast
      ring
    rw [hodd, nearest, if_pos rfl, hq, h]
    omega

/-- **The total is the exact sum and the errors.** -/
theorem total_eq (hround : EvenShift round) (n : ℤ) (es : List ℚ) :
    (total round n es : ℚ) = n + es.sum + (errors round (isOdd n) es).sum := by
  induction es generalizing n with
  | nil => simp [errors]
  | cons e es ih =>
    have hadd := round_add hround n e
    have hodd : isOdd (round (n + e)) = (isOdd n ^^ isOdd (nearest round (isOdd n) e)) := by
      rw [hadd, isOdd_add]
    have hih := ih (round (n + e))
    rw [hodd, hadd] at hih
    rw [total_cons, hadd, hih, errors, List.sum_cons, List.sum_cons]
    push_cast
    ring

/-- Amounts that the rounding drops one by one leave the total as it is. -/
theorem total_dropped (h : ∀ e ∈ es, ∀ n : ℤ, round (n + e) = n) : total round n es = n := by
  induction es with
  | nil => rfl
  | cons e es ih =>
    rw [total_cons, h e List.mem_cons_self n]
    exact ih fun e' he' => h e' (List.mem_cons_of_mem e he')

end InverterControl.Lib.Accumulate
