import InverterControl.Lib.Runs
import Mathlib.Order.Interval.Set.UnorderedInterval
import Mathlib.Algebra.Order.Group.Pointwise.Interval

/-!
# Runs that approach a target

An integer that a machine shows, and a target.  A step that moves it to a point between its old value and
the target never crosses the target, and no step takes it away (`exec_mem_uIcc`).  When a step far from
the target moves it at all, it comes near after finitely many steps (`exec_near`).
-/

namespace InverterControl.Lib.Approach

open InverterControl.Lib.Runs Set Interval

variable {σ ι : Type*} {step : σ → ι → σ} {shown : σ → ℤ} {target near : ℤ} {s : σ} {is : List ι}

/-- The step goes from the old value towards the target. -/
def Towards (shown : σ → ℤ) (target : ℤ) (s t : σ) : Prop := shown t ∈ [[shown s, target]]

/-- It moves when the target is not near. -/
def Moves (shown : σ → ℤ) (target near : ℤ) (s t : σ) : Prop :=
  near < |target - shown s| → shown t ≠ shown s

theorem Towards.refl (s : σ) : Towards shown target s s := left_mem_uIcc

theorem Towards.trans {s t u : σ} (h : Towards shown target s t) (h' : Towards shown target t u) :
    Towards shown target s u := uIcc_subset_uIcc_right h h'

theorem Towards.dist_le {s t : σ} (h : Towards shown target s t) :
    |target - shown t| ≤ |target - shown s| := abs_sub_right_of_mem_uIcc h

/-- A step that moves comes nearer by one. -/
theorem Towards.dist_lt {s t : σ} (h : Towards shown target s t) (hne : shown t ≠ shown s) :
    |target - shown t| < |target - shown s| := by
  rcases mem_uIcc.mp h with ⟨hle, hle'⟩ | ⟨hle, hle'⟩
  · rw [abs_of_nonneg (sub_nonneg.mpr hle'), abs_of_nonneg (sub_nonneg.mpr (hle.trans hle'))]
    exact sub_lt_sub_left (lt_of_le_of_ne hle hne.symm) _
  · rw [abs_of_nonpos (sub_nonpos.mpr hle), abs_of_nonpos (sub_nonpos.mpr (hle.trans hle'))]
    exact neg_lt_neg (sub_lt_sub_left (lt_of_le_of_ne hle' hne) _)

/-- **No run crosses the target.** -/
theorem exec_mem_uIcc
    (hstep : ∀ x ∈ trace step s is, Towards shown target x.before (step x.before x.input)) :
    Towards shown target s (exec step s is) :=
  exec_invariant (P := Towards shown target s) (Towards.refl s) fun x hx h => h.trans (hstep x hx)

/-- **The target is near after as many steps as it was away.** -/
theorem exec_near (hnear : 0 ≤ near)
    (hstep : ∀ x ∈ trace step s is, Towards shown target x.before (step x.before x.input) ∧
      Moves shown target near x.before (step x.before x.input))
    (hlong : |target - shown s| ≤ is.length) : |target - shown (exec step s is)| ≤ near := by
  induction is generalizing s with
  | nil =>
    have hzero : |target - shown s| = 0 := le_antisymm hlong (abs_nonneg _)
    rw [exec_nil, hzero]
    exact hnear
  | cons i is ih =>
    obtain ⟨htowards, hmoves⟩ := hstep ⟨s, i⟩ (by simp)
    have hrest : ∀ x ∈ trace step (step s i) is, Towards shown target x.before (step x.before x.input) ∧
        Moves shown target near x.before (step x.before x.input) := fun x hx => hstep x (by simp [hx])
    rw [exec_cons]
    by_cases hfar : near < |target - shown s|
    · refine ih hrest ?_
      have hlt : |target - shown (step s i)| < |target - shown s| := htowards.dist_lt (hmoves hfar)
      rw [List.length_cons, Nat.cast_succ] at hlong
      omega
    · have hkept := (exec_mem_uIcc fun x hx => (hrest x hx).1).dist_le
      exact (hkept.trans htowards.dist_le).trans (not_lt.mp hfar)

end InverterControl.Lib.Approach
