import Mathlib.Order.Basic
import Mathlib.Data.List.Induction

/-!
# Runs of a deterministic machine

A machine is a step function `σ → ι → σ`: everything the surroundings decide is part of the input.
`exec` is the state after a list of inputs, `trace` the list of the steps that were taken, each with
the state before it.  An invariant is proved for one step and holds after every run
(`exec_invariant`); a fact about the past is proved by adding one input at the end
(`history_induction`).
-/

namespace InverterControl.Lib.Runs

variable {σ ι : Type*} (step : σ → ι → σ)

/-- A step as it was taken: the state before it, and the input. -/
structure Taken (σ ι : Type*) where
  before : σ
  input : ι

/-- The state after a list of inputs. -/
def exec (s : σ) (is : List ι) : σ := is.foldl step s

/-- The steps of a run, in order. -/
def trace : σ → List ι → List (Taken σ ι)
  | _, [] => []
  | s, i :: is => ⟨s, i⟩ :: trace (step s i) is

@[simp] theorem exec_nil (s : σ) : exec step s [] = s := rfl

@[simp] theorem exec_cons (s : σ) (i : ι) (is : List ι) :
    exec step s (i :: is) = exec step (step s i) is := rfl

theorem exec_append (s : σ) (is js : List ι) :
    exec step s (is ++ js) = exec step (exec step s is) js := by
  simp [exec, List.foldl_append]

@[simp] theorem exec_snoc (s : σ) (is : List ι) (i : ι) :
    exec step s (is ++ [i]) = step (exec step s is) i := by
  simp [exec_append]

@[simp] theorem trace_nil (s : σ) : trace step s [] = [] := rfl

@[simp] theorem trace_cons (s : σ) (i : ι) (is : List ι) :
    trace step s (i :: is) = ⟨s, i⟩ :: trace step (step s i) is := rfl

theorem trace_append : ∀ (s : σ) (is js : List ι),
    trace step s (is ++ js) = trace step s is ++ trace step (exec step s is) js
  | _, [], _ => rfl
  | s, i :: is, js => by simp [trace_append (step s i) is js]

@[simp] theorem trace_snoc (s : σ) (is : List ι) (i : ι) :
    trace step s (is ++ [i]) = trace step s is ++ [⟨exec step s is, i⟩] := by
  simp [trace_append]

/-- A step of a run is a prefix of the inputs, followed by the step's own. -/
theorem mem_trace {s : σ} {x : Taken σ ι} : ∀ {is : List ι},
    x ∈ trace step s is ↔ ∃ a b, is = a ++ x.input :: b ∧ x.before = exec step s a := by
  intro is
  constructor
  · induction is generalizing s with
    | nil => simp
    | cons i is ih =>
      intro h
      rcases List.mem_cons.mp h with rfl | h
      · exact ⟨[], is, rfl, rfl⟩
      · obtain ⟨a, b, rfl, hb⟩ := ih h
        exact ⟨i :: a, b, rfl, hb⟩
  · rintro ⟨a, b, rfl, hb⟩
    rw [trace_append]
    refine List.mem_append_right _ ?_
    obtain ⟨before, input⟩ := x
    simp only at hb
    subst hb
    simp

variable {step}

/-- **Invariant rule.**  What holds at the start and is kept by every step taken holds after the
run. -/
theorem exec_invariant {P : σ → Prop} {s : σ} {is : List ι} (h0 : P s)
    (hstep : ∀ x ∈ trace step s is, P x.before → P (step x.before x.input)) :
    P (exec step s is) := by
  induction is generalizing s with
  | nil => exact h0
  | cons i is ih =>
    refine ih (hstep ⟨s, i⟩ (by simp) h0) fun x hx => hstep x ?_
    simp [hx]

/-- The same, before every step of the run. -/
theorem trace_invariant {P : σ → Prop} {s : σ} {is : List ι} (h0 : P s)
    (hstep : ∀ x ∈ trace step s is, P x.before → P (step x.before x.input)) :
    ∀ x ∈ trace step s is, P x.before := by
  intro x hx
  obtain ⟨a, b, rfl, hb⟩ := (mem_trace step).mp hx
  rw [hb]
  refine exec_invariant h0 fun y hy => hstep y ?_
  rw [trace_append]
  exact List.mem_append_left _ hy

/-- **History rule.**  A fact about the inputs so far and the state they lead to, by adding one
input at the end. -/
theorem history_induction {P : List ι → σ → Prop} {s : σ} (h0 : P [] s)
    (hstep : ∀ is i, P is (exec step s is) → P (is ++ [i]) (step (exec step s is) i))
    (is : List ι) : P is (exec step s is) := by
  induction is using List.reverseRecOn with
  | nil => exact h0
  | append_singleton is i ih => rw [exec_snoc]; exact hstep is i ih

/-! ### Points of a run -/

/-- The first step of a run that satisfies `P`. -/
theorem exists_first {P : Taken σ ι → Prop} [DecidablePred P] {s : σ} {is : List ι}
    (h : ∃ x ∈ trace step s is, P x) :
    ∃ a i b, is = a ++ i :: b ∧ P ⟨exec step s a, i⟩ ∧ ∀ x ∈ trace step s a, ¬ P x := by
  induction is generalizing s with
  | nil =>
    obtain ⟨x, hx, -⟩ := h
    cases hx
  | cons i is ih =>
    by_cases hi : P ⟨s, i⟩
    · exact ⟨[], i, is, rfl, hi, fun x hx => by cases hx⟩
    · obtain ⟨x, hx, hp⟩ := h
      have hrest : ∃ x ∈ trace step (step s i) is, P x := by
        rcases List.mem_cons.mp hx with rfl | hx
        · exact absurd hp hi
        · exact ⟨x, hx, hp⟩
      obtain ⟨a, j, b, rfl, hj, hbefore⟩ := ih hrest
      refine ⟨i :: a, j, b, rfl, hj, fun y hy => ?_⟩
      rcases List.mem_cons.mp hy with rfl | hy
      · exact hi
      · exact hbefore y hy

/-- A fact about every point of a list of inputs, by its position. -/
theorem forall_split {is : List ι} {P : List ι → ι → List ι → Prop} :
    (∀ a i b, is = a ++ i :: b → P a i b) ↔
      ∀ n, (h : n < is.length) → P (is.take n) is[n] (is.drop (n + 1)) := by
  constructor
  · intro h n hn
    exact h _ _ _ (by rw [List.getElem_cons_drop, List.take_append_drop])
  · rintro h a i b rfl
    have := h a.length (by simp)
    simpa using this

instance decidableForallSplit {is : List ι} {P : List ι → ι → List ι → Prop}
    [∀ a i b, Decidable (P a i b)] :
    Decidable (∀ a i b, is = a ++ i :: b → P a i b) :=
  decidable_of_iff _ forall_split.symm

/-! ### Runs that are cut off -/

/-- `P` holds at the start of a run and after every one of its steps. -/
def Throughout (step : σ → ι → σ) (P : σ → Prop) (s : σ) (is : List ι) : Prop :=
  ∀ n, P (exec step s (is.take n))

variable {P : σ → Prop} {s : σ} {is js : List ι}

theorem throughout_nil (h : P s) : Throughout step P s [] := fun n => by simpa using h

theorem throughout_cons {i : ι} (h : P s) (ht : Throughout step P (step s i) is) :
    Throughout step P s (i :: is) := by
  intro n
  cases n with
  | zero => exact h
  | succ n => exact ht n

theorem Throughout.start (h : Throughout step P s is) : P s := h 0

theorem Throughout.end (h : Throughout step P s is) : P (exec step s is) := by
  have := h is.length
  rwa [List.take_length] at this

/-- Before and after every step. -/
theorem Throughout.of_mem_trace (h : Throughout step P s is) {x : Taken σ ι}
    (hx : x ∈ trace step s is) : P x.before ∧ P (step x.before x.input) := by
  obtain ⟨a, b, rfl, hb⟩ := (mem_trace step).mp hx
  rw [hb]
  have hbefore := h a.length
  have hafter := h (a.length + 1)
  simp only [List.take_left'] at hbefore
  rw [List.take_length_add_append, List.take_succ_cons, List.take_zero, exec_snoc] at hafter
  exact ⟨hbefore, hafter⟩

theorem Throughout.append (h : Throughout step P s is)
    (h' : Throughout step P (exec step s is) js) : Throughout step P s (is ++ js) := by
  intro n
  rw [List.take_append, exec_append]
  rcases Nat.le_total n is.length with hle | hle
  · rw [Nat.sub_eq_zero_of_le hle]
    exact h n
  · rw [List.take_of_length_le hle]
    exact h' _

/-! ### The past -/

/-- `Q` happened, and every later step satisfies `P`. -/
def Since {τ : Type*} (P Q : τ → Prop) (past : List τ) : Prop :=
  ∃ a x b, past = a ++ x :: b ∧ Q x ∧ ∀ y ∈ b, P y

theorem not_since_nil {τ : Type*} {P Q : τ → Prop} : ¬ Since P Q [] := by
  rintro ⟨a, x, b, h, -⟩
  simp at h

theorem since_snoc {τ : Type*} {P Q : τ → Prop} {past : List τ} {x : τ} :
    Since P Q (past ++ [x]) ↔ Q x ∨ (P x ∧ Since P Q past) := by
  constructor
  · rintro ⟨a, y, b, h, hy, hb⟩
    rcases List.eq_nil_or_concat b with rfl | ⟨b, z, rfl⟩
    · obtain ⟨-, h'⟩ := List.append_inj' h rfl
      obtain rfl : x = y := by simpa using h'
      exact Or.inl hy
    · rw [List.concat_eq_append, ← List.cons_append, ← List.append_assoc] at h
      obtain ⟨rfl, h'⟩ := List.append_inj' h rfl
      obtain rfl : x = z := by simpa using h'
      refine Or.inr ⟨hb x (by simp), a, y, b, rfl, hy, fun z hz => hb z ?_⟩
      simp [hz]
  · rintro (hx | ⟨hx, a, y, b, rfl, hy, hb⟩)
    · exact ⟨past, x, [], rfl, hx, by simp⟩
    · refine ⟨a, y, b ++ [x], by simp, hy, fun z hz => ?_⟩
      rcases List.mem_append.mp hz with hz | hz
      · exact hb z hz
      · rw [List.mem_singleton.mp hz]; exact hx

/-- A later step that is no `P` comes before the steps of `Since`. -/
theorem Since.of_append {τ : Type*} {P Q : τ → Prop} {early late : List τ}
    (h : Since P Q (early ++ late)) (hlate : ∃ y ∈ late, ¬ P y) : Since P Q late := by
  induction late using List.reverseRecOn with
  | nil =>
    obtain ⟨y, hy, -⟩ := hlate
    cases hy
  | append_singleton late z ih =>
    rw [← List.append_assoc, since_snoc] at h
    rw [since_snoc]
    refine h.imp id fun ⟨hz, h⟩ => ⟨hz, ih h ?_⟩
    obtain ⟨y, hy, hno⟩ := hlate
    rcases List.mem_append.mp hy with hy | hy
    · exact ⟨y, hy, hno⟩
    · exact absurd (List.mem_singleton.mp hy ▸ hz) hno

theorem Since.mono {τ : Type*} {P P' Q Q' : τ → Prop} {past : List τ} (h : Since P Q past)
    (hp : ∀ x ∈ past, P x → P' x) (hq : ∀ x ∈ past, Q x → Q' x) : Since P' Q' past := by
  obtain ⟨a, x, b, rfl, hx, hb⟩ := h
  exact ⟨a, x, b, rfl, hq x (by simp) hx, fun y hy => hp y (by simp [hy]) (hb y hy)⟩

/-- A quantity no step lowers is not lowered by a run. -/
theorem exec_mono {f : σ → ℕ} (hstep : ∀ s i, f s ≤ f (step s i)) (s : σ) (is : List ι) :
    f s ≤ f (exec step s is) :=
  exec_invariant (P := fun t => f s ≤ f t) (Nat.le_refl _) fun x _ hx =>
    Nat.le_trans hx (hstep x.before x.input)

end InverterControl.Lib.Runs
