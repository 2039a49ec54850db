import InverterControl.Background.Model
import InverterControl.Lib.Changes

/-!
# The pace of the background reader

The worker waits for the interval between two passes.  So while nobody asks it to stop, the snapshot
changes at most once within an interval (`changesOnce`).
-/

namespace InverterControl.Background.Pace

open InverterControl.Background.Model InverterControl.Lib.Changes

variable {V : Type} {unknown : Values V} {interval t : ℚ} {r : BackgroundReader V}
  {steps : List (ℚ × Inputs V)}

/-- The reader at the time `now`, after the steps of its worker up to then. -/
def readerAt (unknown : Values V) (now : ℚ) :
    BackgroundReader V → List (ℚ × Inputs V) → BackgroundReader V
  | r, [] => r
  | r, (u, i) :: steps => if u ≤ now then readerAt unknown now (run unknown i r) steps else r

/-- After the time `t` the worker takes the steps in their order, and waits for the interval. -/
def Paced (unknown : Values V) (interval : ℚ) : ℚ → BackgroundReader V → List (ℚ × Inputs V) → Prop
  | _, _, [] => True
  | t, r, (u, i) :: steps =>
    t ≤ u ∧ (r.worker = .waiting → t + interval ≤ u) ∧ Paced unknown interval u (run unknown i r) steps

/-- Nothing happens while the worker waits. -/
theorem readerAt_waiting (h : Paced unknown interval t r steps) (hw : r.worker = .waiting) {c : ℚ}
    (hc : c < t + interval) : readerAt unknown c r steps = r := by
  cases steps with
  | nil => rfl
  | cons x steps =>
    obtain ⟨u, i⟩ := x
    have hlater : ¬ u ≤ c := not_le.mpr (hc.trans_le (h.2.1 hw))
    rw [readerAt, if_neg hlater]

/-- A step publishes and then waits, or keeps the snapshot. -/
theorem run_cases (unknown : Values V) (i : Inputs V) (r : BackgroundReader V) :
    (run unknown i r).worker = .waiting ∨ (run unknown i r).snapshot = r.snapshot := by
  cases hw : r.worker with
  | locked snapshot publish =>
    left
    simp only [run, hw]
  | _ =>
    right
    simp only [run, hw]

/-- The snapshot after the time `t`, for an interval: that of `t`, and then one other. -/
theorem snapshot_of_paced (h : Paced unknown interval t r steps) {b c : ℚ} (hbc : b ≤ c)
    (hc : c < t + interval) :
    r.snapshot = (readerAt unknown b r steps).snapshot ∨
      (readerAt unknown b r steps).snapshot = (readerAt unknown c r steps).snapshot := by
  induction steps generalizing t r with
  | nil => exact Or.inl rfl
  | cons x steps ih =>
    obtain ⟨u, i⟩ := x
    obtain ⟨htu, -, hrest⟩ := h
    have hcu : c < u + interval := hc.trans_le (by linarith)
    by_cases hb : u ≤ b
    swap
    · left
      rw [readerAt, if_neg hb]
    rw [readerAt, readerAt, if_pos hb, if_pos (hb.trans hbc)]
    rcases run_cases unknown i r with hw | hsame
    · right
      rw [readerAt_waiting hrest hw (hbc.trans_lt hcu), readerAt_waiting hrest hw hcu]
    · rw [← hsame]
      exact ih hrest hcu

/-- **The snapshot changes at most once within an interval.** -/
theorem changesOnce (h : Paced unknown interval t r steps) :
    ChangesOnce t interval fun now => (readerAt unknown now r steps).snapshot := by
  intro a b c ha hab hbc hc
  induction steps generalizing t r with
  | nil => exact Or.inl rfl
  | cons x steps ih =>
    obtain ⟨u, i⟩ := x
    by_cases hu : u ≤ a
    · simp only [readerAt, if_pos hu, if_pos (hu.trans hab), if_pos (hu.trans (hab.trans hbc))]
      exact ih h.2.2 hu
    by_cases hb : u ≤ b
    swap
    · left
      simp only [readerAt, if_neg hu, if_neg hb]
    simp only [readerAt, if_neg hu, if_pos hb, if_pos (hb.trans hbc)]
    have hcu : c < u + interval := hc.trans (by linarith)
    rcases run_cases unknown i r with hw | hsame
    · right
      rw [readerAt_waiting h.2.2 hw (hbc.trans_lt hcu), readerAt_waiting h.2.2 hw hcu]
    · rw [← hsame]
      exact snapshot_of_paced h.2.2 hbc hcu

end InverterControl.Background.Pace
