import Mathlib.Tactic

/-!
# Lines of a growing text

A line ends with a terminator, except that the last one may not have been finished.  A position where a
line starts stays one when the text grows (`AtStart.append`), and so does a line that another one
follows (`lineAt_append`).
-/

namespace InverterControl.Lib.Lines

variable {α : Type} [DecidableEq α] (terminator : α)

/-- The first line of a text, with its terminator. -/
def readline : List α → List α
  | [] => []
  | c :: cs => if c = terminator then [c] else c :: readline cs

/-- The line is finished. -/
def Ended (line : List α) : Prop := line.getLast? = some terminator

instance (line : List α) : Decidable (Ended terminator line) := by unfold Ended; infer_instance

/-- A line may start at the position. -/
def AtStart (cs : List α) (p : ℕ) : Prop := p ≤ cs.length ∧ (p = 0 ∨ Ended terminator (cs.take p))

instance (cs : List α) (p : ℕ) : Decidable (AtStart terminator cs p) := by
  unfold AtStart; infer_instance

/-- The line that starts at the position. -/
def lineAt (cs : List α) (p : ℕ) : List α := readline terminator (cs.drop p)

variable {terminator}

theorem readline_eq_nil {cs : List α} : readline terminator cs = [] ↔ cs = [] := by
  cases cs with
  | nil => exact iff_of_true rfl rfl
  | cons c cs =>
    rw [readline]
    split_ifs <;> simp

theorem readline_isPrefix (terminator : α) (cs : List α) : readline terminator cs <+: cs := by
  induction cs with
  | nil => exact List.prefix_rfl
  | cons c cs ih =>
    rw [readline]
    split_ifs
    · exact ⟨cs, rfl⟩
    · exact (List.prefix_cons_inj c).mpr ih

/-- What is not finished is the whole rest of the text. -/
theorem readline_of_not_ended {cs : List α} (h : ¬ Ended terminator (readline terminator cs)) :
    readline terminator cs = cs := by
  induction cs with
  | nil => rfl
  | cons c cs ih =>
    rw [readline] at h ⊢
    split_ifs at h ⊢ with hc
    · exact absurd (by rw [hc]; rfl) h
    · rw [ih fun hend => h ?_]
      cases hr : readline terminator cs with
      | nil =>
        rw [hr] at hend
        cases hend
      | cons d ds =>
        rw [hr] at hend
        rw [Ended, List.getLast?_cons_cons]
        exact hend

/-- A finished line does not depend on what follows. -/
theorem readline_append {cs : List α} (h : Ended terminator (readline terminator cs)) (ds : List α) :
    readline terminator (cs ++ ds) = readline terminator cs := by
  induction cs with
  | nil => cases h
  | cons c cs ih =>
    rw [List.cons_append]
    simp only [readline] at h ⊢
    split_ifs at h ⊢ with hc
    · rfl
    · cases hr : readline terminator cs with
      | nil =>
        rw [hr] at h
        exact absurd (Option.some.inj h) hc
      | cons d ds' =>
        rw [hr, Ended, List.getLast?_cons_cons] at h
        rw [ih (by rw [hr]; exact h), hr]

/-- The first line ends with the first terminator. -/
theorem length_readline_le {cs : List α} {q : ℕ} (h : Ended terminator (cs.take q)) :
    (readline terminator cs).length ≤ q ∧ Ended terminator (readline terminator cs) := by
  induction cs generalizing q with
  | nil =>
    rw [List.take_nil] at h
    cases h
  | cons c cs ih =>
    cases q with
    | zero => cases h
    | succ q =>
      rw [List.take_succ_cons] at h
      rw [readline]
      split_ifs with hc
      · exact ⟨by simp, by rw [hc]; rfl⟩
      · have hrest : Ended terminator (cs.take q) := by
          cases ht : cs.take q with
          | nil =>
            rw [ht] at h
            exact absurd (Option.some.inj h) hc
          | cons d ds =>
            rw [ht, Ended, List.getLast?_cons_cons] at h
            exact h
        obtain ⟨hle, hend⟩ := ih hrest
        refine ⟨by simpa using hle, ?_⟩
        cases hr : readline terminator cs with
        | nil =>
          rw [hr] at hend
          cases hend
        | cons d ds =>
          rw [hr] at hend
          rw [Ended, List.getLast?_cons_cons]
          exact hend

/-! ### Positions -/

variable {cs : List α} {p q : ℕ}

omit [DecidableEq α] in
theorem atStart_zero (cs : List α) : AtStart terminator cs 0 := ⟨Nat.zero_le _, Or.inl rfl⟩

omit [DecidableEq α] in
theorem atStart_append (hp : p ≤ cs.length) (ds : List α) :
    AtStart terminator (cs ++ ds) p ↔ AtStart terminator cs p := by
  rw [AtStart, AtStart, List.take_append_of_le_length hp, List.length_append]
  exact ⟨fun h => ⟨hp, h.2⟩, fun h => ⟨h.1.trans (Nat.le_add_right _ _), h.2⟩⟩

omit [DecidableEq α] in
theorem AtStart.append (h : AtStart terminator cs p) (ds : List α) : AtStart terminator (cs ++ ds) p :=
  (atStart_append h.1 ds).mpr h

theorem lineAt_ne_nil (hp : p < cs.length) : lineAt terminator cs p ≠ [] := by
  rw [lineAt, Ne, readline_eq_nil, List.drop_eq_nil_iff]
  omega

/-- After a finished line another one may start. -/
theorem atStart_next (hend : Ended terminator (lineAt terminator cs p)) :
    AtStart terminator cs (p + (lineAt terminator cs p).length) := by
  have hpre := readline_isPrefix terminator (cs.drop p)
  have hlength := hpre.length_le
  have hne : lineAt terminator cs p ≠ [] := by
    intro h
    rw [h] at hend
    cases hend
  have hpos := List.length_pos_iff.mpr hne
  rw [List.length_drop] at hlength
  rw [lineAt] at *
  refine ⟨by omega, Or.inr ?_⟩
  rw [List.take_add, ← List.prefix_iff_eq_take.mp hpre, Ended, List.getLast?_append_of_ne_nil _ hne]
  exact hend

/-- A line that another one follows is finished before it. -/
theorem lineAt_le (hq : AtStart terminator cs q) (hpq : p < q) :
    p + (lineAt terminator cs p).length ≤ q ∧ Ended terminator (lineAt terminator cs p) := by
  obtain ⟨hle, h | h⟩ := hq
  · omega
  · have hsplit : cs.take q = cs.take p ++ (cs.drop p).take (q - p) := by
      rw [← List.take_add]
      congr 1
      omega
    have hne : (cs.drop p).take (q - p) ≠ [] := by
      rw [Ne, List.take_eq_nil_iff, List.drop_eq_nil_iff]
      omega
    rw [Ended, hsplit, List.getLast?_append_of_ne_nil _ hne] at h
    obtain ⟨hlength, hend⟩ := length_readline_le h
    exact ⟨by rw [lineAt]; omega, hend⟩

theorem lineAt_append (hp : p ≤ cs.length) (hend : Ended terminator (lineAt terminator cs p))
    (ds : List α) :
    lineAt terminator (cs ++ ds) p = lineAt terminator cs p := by
  rw [lineAt, List.drop_append_of_le_length hp]
  exact readline_append hend ds

/-- An unfinished line is the last. -/
theorem lineAt_unfinished (hp : p ≤ cs.length) (h : ¬ Ended terminator (lineAt terminator cs p)) :
    p + (lineAt terminator cs p).length = cs.length := by
  rw [lineAt, readline_of_not_ended h, List.length_drop]
  omega

end InverterControl.Lib.Lines
