import Mathlib.Algebra.Order.Field.Basic
import Mathlib.Order.Monotone.Basic
import Mathlib.Tactic

/-!
# Functions in pieces

A function that is one thing below a cut and another above it is monotone when both parts are and a
level lies between them (`monotoneOn_ite_lower` and its three duals); the parts need not meet.  The cut
is a decidable predicate that is closed downwards or upwards, so that it may be any comparison.  `ramp`
is the linear piece between two points.
-/

namespace InverterControl.Lib.Pieces

section Cut

variable {α β : Type*} [Preorder α] [Preorder β] {p : α → Prop} [DecidablePred p] {f g : α → β}
  {S : Set α} {l : β}

/-- What is below a point of the cut is in it. -/
def Lower (p : α → Prop) : Prop := ∀ x y, x ≤ y → p y → p x

/-- What is above a point of the cut is in it. -/
def Upper (p : α → Prop) : Prop := ∀ x y, x ≤ y → p x → p y

theorem monotoneOn_ite_lower (hp : Lower p) (hf : MonotoneOn f {x ∈ S | p x})
    (hg : MonotoneOn g {x ∈ S | ¬ p x}) (hfl : ∀ x ∈ S, p x → f x ≤ l)
    (hgl : ∀ x ∈ S, ¬ p x → l ≤ g x) : MonotoneOn (fun x => if p x then f x else g x) S := by
  intro x hx y hy hxy
  by_cases hpy : p y
  · have hpx : p x := hp x y hxy hpy
    simpa only [if_pos hpx, if_pos hpy] using hf ⟨hx, hpx⟩ ⟨hy, hpy⟩ hxy
  · by_cases hpx : p x
    · -- the pair lies across the cut
      simpa only [if_pos hpx, if_neg hpy] using (hfl x hx hpx).trans (hgl y hy hpy)
    · simpa only [if_neg hpx, if_neg hpy] using hg ⟨hx, hpx⟩ ⟨hy, hpy⟩ hxy

theorem antitoneOn_ite_lower (hp : Lower p) (hf : AntitoneOn f {x ∈ S | p x})
    (hg : AntitoneOn g {x ∈ S | ¬ p x}) (hfl : ∀ x ∈ S, p x → l ≤ f x)
    (hgl : ∀ x ∈ S, ¬ p x → g x ≤ l) : AntitoneOn (fun x => if p x then f x else g x) S :=
  monotoneOn_ite_lower (β := βᵒᵈ) hp hf.dual_right hg.dual_right hfl hgl

theorem monotoneOn_ite_upper (hp : Upper p) (hf : MonotoneOn f {x ∈ S | p x})
    (hg : MonotoneOn g {x ∈ S | ¬ p x}) (hfl : ∀ x ∈ S, p x → l ≤ f x)
    (hgl : ∀ x ∈ S, ¬ p x → g x ≤ l) : MonotoneOn (fun x => if p x then f x else g x) S := by
  intro x hx y hy hxy
  by_cases hpx : p x
  · have hpy : p y := hp x y hxy hpx
    simpa only [if_pos hpx, if_pos hpy] using hf ⟨hx, hpx⟩ ⟨hy, hpy⟩ hxy
  · by_cases hpy : p y
    · simpa only [if_neg hpx, if_pos hpy] using (hgl x hx hpx).trans (hfl y hy hpy)
    · simpa only [if_neg hpx, if_neg hpy] using hg ⟨hx, hpx⟩ ⟨hy, hpy⟩ hxy

theorem antitoneOn_ite_upper (hp : Upper p) (hf : AntitoneOn f {x ∈ S | p x})
    (hg : AntitoneOn g {x ∈ S | ¬ p x}) (hfl : ∀ x ∈ S, p x → f x ≤ l)
    (hgl : ∀ x ∈ S, ¬ p x → l ≤ g x) : AntitoneOn (fun x => if p x then f x else g x) S :=
  monotoneOn_ite_upper (β := βᵒᵈ) hp hf.dual_right hg.dual_right hfl hgl

theorem lower_le (a : α) : Lower (· ≤ a) := fun _ _ hxy hy => hxy.trans hy

theorem lower_lt (a : α) : Lower (· < a) := fun _ _ hxy hy => hxy.trans_lt hy

theorem upper_ge (a : α) : Upper (a ≤ ·) := fun _ _ hxy hx => hx.trans hxy

theorem upper_gt (a : α) : Upper (a < ·) := fun _ _ hxy hx => hx.trans_le hxy

end Cut

section Ramp

variable {K : Type*} [Field K] [LinearOrder K] [IsStrictOrderedRing K] {lo hi x y : K}

/-- How far a point is on the way from `lo` to `hi`. -/
def ramp (lo hi x : K) : K := (x - lo) / (hi - lo)

theorem ramp_nonneg (hlo : lo ≤ x) (hhi : x ≤ hi) : 0 ≤ ramp lo hi x :=
  div_nonneg (by linarith) (by linarith)

theorem ramp_pos (hlo : lo < x) (hhi : x ≤ hi) : 0 < ramp lo hi x :=
  div_pos (by linarith) (by linarith)

theorem ramp_le_one (hlo : lo ≤ x) (hhi : x ≤ hi) : ramp lo hi x ≤ 1 :=
  div_le_one_of_le₀ (by linarith) (by linarith)

theorem ramp_lt_one (hlo : lo ≤ x) (hhi : x < hi) : ramp lo hi x < 1 :=
  (div_lt_one (by linarith)).mpr (by linarith)

theorem ramp_mono (h : lo ≤ hi) (hxy : x ≤ y) : ramp lo hi x ≤ ramp lo hi y :=
  div_le_div_of_nonneg_right (by linarith) (by linarith)

/-- A mix of two levels lies between them. -/
theorem mix_mem {a b t : K} (hab : a ≤ b) (h0 : 0 ≤ t) (h1 : t ≤ 1) :
    a ≤ a + (b - a) * t ∧ a + (b - a) * t ≤ b := by
  have hpos : 0 ≤ (b - a) * t := mul_nonneg (by linarith) h0
  have hle : (b - a) * t ≤ (b - a) * 1 := mul_le_mul_of_nonneg_left h1 (by linarith)
  constructor
  · linarith
  · linarith

end Ramp

end InverterControl.Lib.Pieces
