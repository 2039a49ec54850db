import InverterControl.Lib.Calls
import InverterControl.Lib.Runs

/-!
# Threads that share a state

Every thread is idle or inside a `Program`; a step answers the next call of one thread, or starts a
program in an idle thread.  Between two calls of a thread the others may do anything, in any order.

What a thread may count on is its rule of the `Discipline`: `rely t` bounds what the others do to
the shared state.  A program is `Safe` when each of its calls keeps the invariant and what every
other thread relies on, whatever the others have done since the last one; the programs are looked at
one by one, and `exec_safe` puts them together.
-/

namespace InverterControl.Lib.Threads

open Lib.Calls Lib.Runs

variable {T Op ι σ ε α β Call : Type} {Ret : Op → Type}

structure System (T Op : Type) (Ret : Op → Type) (σ ε α : Type) where
  shared : σ
  threads : T → Option (Program Op Ret ε α)

inductive Input (T Call ι : Type)
  | start (t : T) (c : Call)
  | go (t : T) (i : ι)
  deriving DecidableEq

section Step

variable [DecidableEq T] (program : Call → Program Op Ret ε α)
  (answer : T → (op : Op) → σ → ι → Option (Ret op × σ))

/-- One step of a thread that is inside a program. -/
def advance (t : T) (i : ι) (sys : System T Op Ret σ ε α) :
    Program Op Ret ε α → System T Op Ret σ ε α
  | .call op next =>
    match answer t op sys.shared i with
    | some (r, s') => ⟨s', Function.update sys.threads t (some (next r))⟩
    | none => sys
  | .done _ => { sys with threads := Function.update sys.threads t none }
  | .raise _ => { sys with threads := Function.update sys.threads t none }

def step (sys : System T Op Ret σ ε α) : Input T Call ι → System T Op Ret σ ε α
  | .start t c =>
    if (sys.threads t).isNone = true then
      { sys with threads := Function.update sys.threads t (some (program c)) }
    else sys
  | .go t i =>
    match sys.threads t with
    | some p => advance answer t i sys p
    | none => sys

end Step

/-- What the threads owe each other. -/
structure Discipline (T σ : Type) where
  /-- Holds after every call of every thread. -/
  inv : σ → Prop
  /-- What the other threads may have done to the state since a thread last looked at it. -/
  rely : T → σ → σ → Prop
  /-- Holds of an idle thread. -/
  rest : T → σ → Prop
  refl : ∀ t s, rely t s s
  trans : ∀ t s s' s'', rely t s s' → rely t s' s'' → rely t s s''
  stable : ∀ t s s', rest t s → rely t s s' → rest t s'

section Safe

variable (D : Discipline T σ) (answer : T → (op : Op) → σ → ι → Option (Ret op × σ))

/-- The program keeps the discipline, and `Q` holds of what it returns. -/
def Safe (t : T) (Q : Except ε α → σ → Prop) : Program Op Ret ε α → σ → Prop
  | .done a, s => ∀ s', D.rely t s s' → D.inv s' → Q (.ok a) s'
  | .raise e, s => ∀ s', D.rely t s s' → D.inv s' → Q (.error e) s'
  | .call op next, s => ∀ s', D.rely t s s' → D.inv s' → ∀ i r s'', answer t op s' i = some (r, s'') →
      D.inv s'' ∧ (∀ u, u ≠ t → D.rely u s' s'') ∧ Safe t Q (next r) s''

variable {D answer} {t : T} {Q : Except ε α → σ → Prop}

/-- What the others do leaves a program safe. -/
theorem Safe.later {p : Program Op Ret ε α} {s s' : σ} (h : Safe D answer t Q p s)
    (hrely : D.rely t s s') : Safe D answer t Q p s' := by
  cases p with
  | done a => exact fun s'' hrely' => h s'' (D.trans t s s' s'' hrely hrely')
  | raise e => exact fun s'' hrely' => h s'' (D.trans t s s' s'' hrely hrely')
  | call op next => exact fun s'' hrely' => h s'' (D.trans t s s' s'' hrely hrely')

theorem Safe.of_later {p : Program Op Ret ε α} {s : σ}
    (h : ∀ s', D.rely t s s' → D.inv s' → Safe D answer t Q p s') : Safe D answer t Q p s := by
  cases p with
  | done a => exact fun s' hrely hinv => h s' hrely hinv s' (D.refl t s') hinv
  | raise e => exact fun s' hrely hinv => h s' hrely hinv s' (D.refl t s') hinv
  | call op next => exact fun s' hrely hinv => h s' hrely hinv s' (D.refl t s') hinv

/-- **One call.**  `P` holds before it, and whatever the others do leaves `P`. -/
theorem Safe.call {P : σ → Prop} {op : Op} {next : Ret op → Program Op Ret ε α} {s : σ} (hP : P s)
    (hstable : ∀ s s', P s → D.rely t s s' → D.inv s' → P s')
    (hcall : ∀ s i r s', P s → D.inv s → answer t op s i = some (r, s') →
      D.inv s' ∧ (∀ u, u ≠ t → D.rely u s s') ∧ Safe D answer t Q (next r) s') :
    Safe D answer t Q (.call op next) s :=
  fun s' hrely hinv i r s'' hanswer =>
    hcall s' i r s'' (hstable s s' hP hrely hinv) hinv hanswer

theorem Safe.done {P : σ → Prop} {a : α} {s : σ} (hP : P s)
    (hstable : ∀ s s', P s → D.rely t s s' → D.inv s' → P s') (hQ : ∀ s, P s → D.inv s → Q (.ok a) s) :
    Safe D answer t Q (.done a : Program Op Ret ε α) s :=
  fun s' hrely hinv => hQ s' (hstable s s' hP hrely hinv) hinv

theorem Safe.raise {P : σ → Prop} {e : ε} {s : σ} (hP : P s)
    (hstable : ∀ s s', P s → D.rely t s s' → D.inv s' → P s')
    (hQ : ∀ s, P s → D.inv s → Q (.error e) s) :
    Safe D answer t Q (.raise e : Program Op Ret ε α) s :=
  fun s' hrely hinv => hQ s' (hstable s s' hP hrely hinv) hinv

theorem Safe.mono {Q' : Except ε α → σ → Prop} (hQ : ∀ a s, Q a s → Q' a s) :
    ∀ {p : Program Op Ret ε α} {s : σ}, Safe D answer t Q p s → Safe D answer t Q' p s
  | .done _, _, h => fun s' hrely hinv => hQ _ _ (h s' hrely hinv)
  | .raise _, _, h => fun s' hrely hinv => hQ _ _ (h s' hrely hinv)
  | .call _ _, _, h => fun s' hrely hinv i r s'' hanswer => by
    obtain ⟨hinv', hothers, hnext⟩ := h s' hrely hinv i r s'' hanswer
    exact ⟨hinv', hothers, hnext.mono hQ⟩

/-- **Sequence.** -/
theorem Safe.bind {Q : Except ε β → σ → Prop} {f : α → Program Op Ret ε β} :
    ∀ {p : Program Op Ret ε α} {s : σ},
      Safe D answer t (Onward (fun a => Safe D answer t Q (f a)) Q) p s →
        Safe D answer t Q (p.bind f) s
  | .done _, _, h => Safe.of_later h
  | .raise _, _, h => h
  | .call _ _, _, h => fun s' hrely hinv i r s'' hanswer => by
    obtain ⟨hinv', hothers, hnext⟩ := h s' hrely hinv i r s'' hanswer
    exact ⟨hinv', hothers, hnext.bind⟩

theorem Safe.ensure {last : Program Op Ret ε Unit} :
    ∀ {p : Program Op Ret ε α} {s : σ},
      Safe D answer t (fun r => Safe D answer t (Onward (fun _ => Safe D answer t Q
        (match r with | .ok a => .done a | .error e => .raise e)) Q) last) p s →
        Safe D answer t Q (p.ensure last) s
  | .done _, _, h => Safe.bind (Safe.of_later h)
  | .raise _, _, h => Safe.bind (Safe.of_later h)
  | .call _ _, _, h => fun s' hrely hinv i r s'' hanswer => by
    obtain ⟨hinv', hothers, hnext⟩ := h s' hrely hinv i r s'' hanswer
    exact ⟨hinv', hothers, hnext.ensure⟩

end Safe

section Runs

variable {program : Call → Program Op Ret ε α}
  {answer : T → (op : Op) → σ → ι → Option (Ret op × σ)} {D : Discipline T σ}

/-- A thread is idle, or what is left of its program is safe. -/
def Waits (D : Discipline T σ) (answer : T → (op : Op) → σ → ι → Option (Ret op × σ)) (t : T) (s : σ) :
    Option (Program Op Ret ε α) → Prop
  | none => D.rest t s
  | some p => Safe D answer t (fun _ => D.rest t) p s

theorem Waits.later {t : T} {s s' : σ} {p : Option (Program Op Ret ε α)} (h : Waits D answer t s p)
    (hrely : D.rely t s s') : Waits D answer t s' p := by
  cases p with
  | none => exact D.stable t s s' h hrely
  | some p => exact Safe.later h hrely

/-- The invariant, and the part of every thread. -/
structure Kept (D : Discipline T σ) (answer : T → (op : Op) → σ → ι → Option (Ret op × σ))
    (sys : System T Op Ret σ ε α) : Prop where
  inv : D.inv sys.shared
  waits : ∀ t, Waits D answer t sys.shared (sys.threads t)

/-- All threads are idle. -/
def idle (s : σ) : System T Op Ret σ ε α := ⟨s, fun _ => none⟩

theorem idle_kept {s : σ} (hinv : D.inv s) (hrest : ∀ t, D.rest t s) :
    Kept D answer (idle s : System T Op Ret σ ε α) := ⟨hinv, hrest⟩

variable [DecidableEq T]

theorem Kept.set {sys : System T Op Ret σ ε α} (h : Kept D answer sys) {t : T}
    {p : Option (Program Op Ret ε α)} (hp : Waits D answer t sys.shared p) :
    Kept D answer { sys with threads := Function.update sys.threads t p } where
  inv := h.inv
  waits u := by
    by_cases hu : u = t
    · subst hu
      simpa using hp
    · simpa [hu] using h.waits u

theorem advance_kept {sys : System T Op Ret σ ε α} (h : Kept D answer sys) {t : T}
    {p : Program Op Ret ε α} (hp : sys.threads t = some p) (i : ι) :
    Kept D answer (advance answer t i sys p) := by
  have hsafe : Safe D answer t (fun _ => D.rest t) p sys.shared := by
    have := h.waits t
    rwa [hp] at this
  cases p with
  | done a => exact h.set (hsafe _ (D.refl t _) h.inv)
  | raise e => exact h.set (hsafe _ (D.refl t _) h.inv)
  | call op next =>
    cases hanswer : answer t op sys.shared i with
    | none => simpa only [advance, hanswer] using h
    | some found =>
      obtain ⟨r, s'⟩ := found
      obtain ⟨hinv, hothers, hnext⟩ := hsafe _ (D.refl t _) h.inv i r s' hanswer
      simp only [advance, hanswer]
      refine ⟨hinv, fun u => ?_⟩
      by_cases hu : u = t
      · subst hu
        simpa [Waits] using hnext
      · simpa [hu] using (h.waits u).later (hothers u hu)

theorem step_kept (hprogram : ∀ t c s, D.inv s → D.rest t s →
      Safe D answer t (fun _ => D.rest t) (program c) s)
    {sys : System T Op Ret σ ε α} (h : Kept D answer sys) (input : Input T Call ι) :
    Kept D answer (step program answer sys input) := by
  cases input with
  | start t c =>
    simp only [step]
    split_ifs with hidle
    · refine h.set (hprogram t c _ h.inv ?_)
      have := h.waits t
      rwa [Option.isNone_iff_eq_none.mp hidle] at this
    · exact h
  | go t i =>
    simp only [step]
    cases hp : sys.threads t with
    | none => exact h
    | some p => exact advance_kept h hp i

/-- **Rely and guarantee.**  Programs that are safe one by one keep the invariant together, in whatever
order their calls come. -/
theorem exec_kept (hprogram : ∀ t c s, D.inv s → D.rest t s →
      Safe D answer t (fun _ => D.rest t) (program c) s)
    {sys : System T Op Ret σ ε α} (h : Kept D answer sys) (is : List (Input T Call ι)) :
    Kept D answer (exec (step program answer) sys is) :=
  exec_invariant h fun x _ hx => step_kept hprogram hx x.input

end Runs

/-! ### Locks -/

/-- A re-entrant lock: who has it, and how many times. -/
abbrev Lock (T : Type) := Option (T × ℕ)

namespace Lock

variable [DecidableEq T]

def acquire (t : T) : Lock T → Option (Lock T)
  | none => some (some (t, 1))
  | some (u, n) => if u = t then some (some (t, n + 1)) else none

def release (t : T) : Lock T → Option (Lock T)
  | none => none
  | some (u, n) => if u = t then some (if n ≤ 1 then none else some (t, n - 1)) else none

/-- How many times a thread has the lock. -/
def depth (t : T) : Lock T → ℕ
  | none => 0
  | some (u, n) => if u = t then n else 0

theorem depth_acquire {t : T} {l l' : Lock T} (h : acquire t l = some l') :
    depth t l' = depth t l + 1 := by
  cases l with
  | none =>
    simp only [acquire, Option.some.injEq] at h
    simp [← h, depth]
  | some held =>
    obtain ⟨u, n⟩ := held
    simp only [acquire] at h
    split_ifs at h with hu
    simp only [Option.some.injEq] at h
    simp [← h, depth, hu]

theorem depth_acquire_other {t u : T} (hu : u ≠ t) {l l' : Lock T} (h : acquire t l = some l') :
    depth u l' = 0 ∧ depth u l = 0 := by
  cases l with
  | none =>
    simp only [acquire, Option.some.injEq] at h
    simp [← h, depth, Ne.symm hu]
  | some held =>
    obtain ⟨v, n⟩ := held
    simp only [acquire] at h
    split_ifs at h with hv
    simp only [Option.some.injEq] at h
    simp [← h, depth, hv, Ne.symm hu]

theorem depth_release {t : T} {l l' : Lock T} (h : release t l = some l') :
    depth t l' = depth t l - 1 := by
  cases l with
  | none => simp [release] at h
  | some held =>
    obtain ⟨u, n⟩ := held
    simp only [release] at h
    split_ifs at h with hu hn
    · simp only [Option.some.injEq] at h
      simp only [← h, depth, hu, if_true]
      omega
    · simp only [Option.some.injEq] at h
      simp [← h, depth, hu]

theorem depth_release_other {t u : T} (hu : u ≠ t) {l l' : Lock T} (h : release t l = some l') :
    depth u l' = 0 ∧ depth u l = 0 := by
  cases l with
  | none => simp [release] at h
  | some held =>
    obtain ⟨v, n⟩ := held
    simp only [release] at h
    split_ifs at h with hv hn
    · simp only [Option.some.injEq] at h
      simp [← h, depth, hv, Ne.symm hu]
    · simp only [Option.some.injEq] at h
      simp [← h, depth, hv, Ne.symm hu]

/-- Two threads never have a lock at once. -/
theorem depth_exclusive {t u : T} {l : Lock T} (ht : 0 < depth t l) (hu : 0 < depth u l) : t = u := by
  cases l with
  | none => simp [depth] at ht
  | some held =>
    obtain ⟨v, n⟩ := held
    simp only [depth] at ht hu
    split_ifs at ht hu with hv hv'
    · exact hv.symm.trans hv'
    all_goals omega

end Lock

end InverterControl.Lib.Threads
