import Mathlib.Algebra.Order.Field.Basic
import Mathlib.Tactic

/-!
# Weighted averages of a list

A value that is moved towards each new sample by a weight between 0 and 1 lies between two of the samples
(`Between.snoc`), whatever the weights are.
-/

namespace InverterControl.Lib.Smoothing

variable {α : Type*}

/-- The value lies between two of the samples. -/
def Between [LE α] (xs : List α) (v : α) : Prop := (∃ x ∈ xs, x ≤ v) ∧ ∃ x ∈ xs, v ≤ x

theorem Between.singleton [Preorder α] (x : α) : Between [x] x :=
  ⟨⟨x, List.mem_singleton.mpr rfl, le_rfl⟩, ⟨x, List.mem_singleton.mpr rfl, le_rfl⟩⟩

/-- The value moved towards a sample. -/
def towards [Field α] (w v x : α) : α := v + w * (x - v)

theorem towards_eq [Field α] (w v x : α) : towards w v x = (1 - w) * v + w * x := by
  unfold towards
  ring

variable [Field α] [LinearOrder α] [IsStrictOrderedRing α] {w v x : α} {xs : List α}

theorem le_towards {l : α} (h0 : 0 ≤ w) (h1 : w ≤ 1) (hv : l ≤ v) (hx : l ≤ x) : l ≤ towards w v x := by
  have hleft := mul_le_mul_of_nonneg_left hv (sub_nonneg.mpr h1)
  have hright := mul_le_mul_of_nonneg_left hx h0
  rw [towards_eq]
  linarith

theorem towards_le {u : α} (h0 : 0 ≤ w) (h1 : w ≤ 1) (hv : v ≤ u) (hx : x ≤ u) : towards w v x ≤ u := by
  have hleft := mul_le_mul_of_nonneg_left hv (sub_nonneg.mpr h1)
  have hright := mul_le_mul_of_nonneg_left hx h0
  rw [towards_eq]
  linarith

/-- **A new sample keeps the value between the samples.** -/
theorem Between.snoc (h : Between xs v) (h0 : 0 ≤ w) (h1 : w ≤ 1) (x : α) :
    Between (xs ++ [x]) (towards w v x) := by
  obtain ⟨⟨a, ha, hav⟩, b, hb, hvb⟩ := h
  constructor
  · rcases le_total a x with hax | hxa
    · exact ⟨a, List.mem_append_left _ ha, le_towards h0 h1 hav hax⟩
    · exact ⟨x, by simp, le_towards h0 h1 (hxa.trans hav) le_rfl⟩
  · rcases le_total x b with hxb | hbx
    · exact ⟨b, List.mem_append_left _ hb, towards_le h0 h1 hvb hxb⟩
    · exact ⟨x, by simp, towards_le h0 h1 (hvb.trans hbx) le_rfl⟩

end InverterControl.Lib.Smoothing
