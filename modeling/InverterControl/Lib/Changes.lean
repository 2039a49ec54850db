import Mathlib.Algebra.Order.Field.Rat
import Mathlib.Tactic.Linarith

/-!
# Values that seldom change

A function of the time that changes at most once within every span of the length `d` (`ChangesOnce`).  Of
five instants within such a span, the first three or the last three then have one value
(`ChangesOnce.three_of_five`).
-/

namespace InverterControl.Lib.Changes

variable {α : Type*} {f : ℚ → α} {start d : ℚ}

/-- From `start` on, `f` changes at most once within a span that is shorter than `d`. -/
def ChangesOnce (start d : ℚ) (f : ℚ → α) : Prop :=
  ∀ a b c, start ≤ a → a ≤ b → b ≤ c → c < a + d → f a = f b ∨ f b = f c

/-- A value that has come back was not left. -/
theorem ChangesOnce.between (h : ChangesOnce start d f) {a b c : ℚ} (ha : start ≤ a) (hab : a ≤ b)
    (hbc : b ≤ c) (hc : c < a + d) (hsame : f a = f c) : f a = f b := by
  rcases h a b c ha hab hbc hc with heq | heq
  · exact heq
  · exact hsame.trans heq.symm

theorem ChangesOnce.three_of_five (h : ChangesOnce start d f) {a b c b' c' : ℚ} (ha : start ≤ a)
    (hab : a ≤ b) (hbc : b ≤ c) (hcb : c ≤ b') (hbc' : b' ≤ c') (hc : c' < a + d) :
    (f a = f b ∧ f a = f c) ∨ (f c = f b' ∧ f c = f c') := by
  have hc' : c' < c + d := hc.trans_le (by linarith)
  rcases h a c c' ha (hab.trans hbc) (hcb.trans hbc') hc with heq | heq
  · exact Or.inl ⟨h.between ha hab hbc ((hcb.trans hbc').trans_lt hc) heq, heq⟩
  · exact Or.inr ⟨h.between (ha.trans (hab.trans hbc)) hcb hbc' hc' heq, heq⟩

end InverterControl.Lib.Changes
