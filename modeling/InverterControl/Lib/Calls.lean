import Mathlib.Order.Basic
import Mathlib.Data.Nat.Notation

/-!
# Programs that call their surroundings

A `Program` is the text of a function that calls something and goes on with the answer: a lock, a bus, a
clock, a field that other threads write as well.  What a call answers is not part of the program, so one
program can run on its own (`run`) and next to others (`Lib.Threads`).  It may raise, and `ensure` is its
`finally`.
-/

namespace InverterControl.Lib.Calls

inductive Program (Op : Type) (Ret : Op → Type) (ε α : Type)
  | done (a : α)
  | raise (e : ε)
  | call (op : Op) (next : Ret op → Program Op Ret ε α)

variable {Op : Type} {Ret : Op → Type} {ε α β : Type}

namespace Program

def bind : Program Op Ret ε α → (α → Program Op Ret ε β) → Program Op Ret ε β
  | done a, f => f a
  | raise e, _ => raise e
  | call op next, f => call op fun r => (next r).bind f

instance instMonad : Monad (Program Op Ret ε) where
  pure := done
  bind := bind

/-- One call. -/
def perform (op : Op) : Program Op Ret ε (Ret op) := call op done

/-- `try: … finally: last` -/
def ensure : Program Op Ret ε α → Program Op Ret ε Unit → Program Op Ret ε α
  | done a, last => last.bind fun _ => done a
  | raise e, last => last.bind fun _ => raise e
  | call op next, last => call op fun r => (next r).ensure last

/-- `try: … except` every exception. -/
def attempt : Program Op Ret ε α → Program Op Ret ε (Except ε α)
  | done a => done (.ok a)
  | raise e => done (.error e)
  | call op next => call op fun r => (next r).attempt

@[simp] theorem pure_eq (a : α) : (pure a : Program Op Ret ε α) = done a := rfl

@[simp] theorem bind_eq (p : Program Op Ret ε α) (f : α → Program Op Ret ε β) : p >>= f = p.bind f := rfl

@[simp] theorem done_bind (a : α) (f : α → Program Op Ret ε β) :
    (done a : Program Op Ret ε α).bind f = f a := rfl

@[simp] theorem raise_bind (e : ε) (f : α → Program Op Ret ε β) :
    (raise e : Program Op Ret ε α).bind f = raise e := rfl

@[simp] theorem call_bind (op : Op) (next : Ret op → Program Op Ret ε α)
    (f : α → Program Op Ret ε β) : (call op next).bind f = call op fun r => (next r).bind f := rfl

@[simp] theorem perform_bind (op : Op) (f : Ret op → Program Op Ret ε β) :
    (perform op).bind f = call op f := rfl

@[simp] theorem done_ensure (a : α) (last : Program Op Ret ε Unit) :
    (done a).ensure last = last.bind fun _ => done a := rfl

@[simp] theorem raise_ensure (e : ε) (last : Program Op Ret ε Unit) :
    (raise e : Program Op Ret ε α).ensure last = last.bind fun _ => raise e := rfl

@[simp] theorem call_ensure (op : Op) (next : Ret op → Program Op Ret ε α)
    (last : Program Op Ret ε Unit) :
    (call op next).ensure last = call op fun r => (next r).ensure last := rfl

@[simp] theorem perform_ensure (op : Op) (last : Program Op Ret ε Unit) :
    (perform op).ensure last = call op fun r => last.bind fun _ => done r := rfl

theorem bind_done (p : Program Op Ret ε α) : p.bind done = p := by
  induction p with
  | done a => rfl
  | raise e => rfl
  | call op next ih =>
    simp only [call_bind]
    congr 1
    funext r
    exact ih r

end Program

/-! ### A program on its own -/

variable {σ ι : Type} (answer : (op : Op) → σ → ι → Option (Ret op × σ))

/-- The calls are answered one after another; `none` where an answer or the next input is missing. -/
def run : Program Op Ret ε α → σ → List ι → Option (Except ε α × σ)
  | .done a, s, _ => some (.ok a, s)
  | .raise e, s, _ => some (.error e, s)
  | .call _ _, _, [] => none
  | .call op next, s, i :: is =>
    match answer op s i with
    | none => none
    | some (r, s') => run (next r) s' is

/-- What holds of every result of a program. -/
def Ends (Q : Except ε α → σ → Prop) : Program Op Ret ε α → σ → Prop
  | .done a, s => Q (.ok a) s
  | .raise e, s => Q (.error e) s
  | .call op next, s => ∀ i r s', answer op s i = some (r, s') → Ends Q (next r) s'

variable {answer}

theorem Ends.mono {Q Q' : Except ε α → σ → Prop} (hQ : ∀ a s, Q a s → Q' a s) :
    ∀ {p : Program Op Ret ε α} {s : σ}, Ends answer Q p s → Ends answer Q' p s
  | .done _, _, h => hQ _ _ h
  | .raise _, _, h => hQ _ _ h
  | .call _ _, _, h => fun i r s' hanswer => Ends.mono hQ (h i r s' hanswer)

/-- After a part of a program: `f` holds of its value, and an exception ends the whole. -/
def Onward (f : α → σ → Prop) (Q : Except ε β → σ → Prop) : Except ε α → σ → Prop
  | .ok a => f a
  | .error e => Q (.error e)

@[simp] theorem onward_ok (f : α → σ → Prop) (Q : Except ε β → σ → Prop) (a : α) :
    Onward f Q (.ok a) = f a := rfl

@[simp] theorem onward_error (f : α → σ → Prop) (Q : Except ε β → σ → Prop) (e : ε) :
    Onward f Q (.error e) = Q (.error e) := rfl

theorem Ends.bind {Q : Except ε β → σ → Prop} {f : α → Program Op Ret ε β} :
    ∀ {p : Program Op Ret ε α} {s : σ},
      Ends answer (Onward (fun a => Ends answer Q (f a)) Q) p s → Ends answer Q (p.bind f) s
  | .done _, _, h => h
  | .raise _, _, h => h
  | .call _ _, _, h => fun i r s' hanswer => Ends.bind (h i r s' hanswer)

theorem Ends.ensure {Q : Except ε α → σ → Prop} {last : Program Op Ret ε Unit} :
    ∀ {p : Program Op Ret ε α} {s : σ},
      Ends answer (fun r => Ends answer (Onward (fun _ => Q r) Q) last) p s →
        Ends answer Q (p.ensure last) s
  | .done _, _, h => Ends.bind h
  | .raise _, _, h => Ends.bind h
  | .call _ _, _, h => fun i r s' hanswer => Ends.ensure (h i r s' hanswer)

/-- **What `Ends` says of a run.** -/
theorem Ends.of_run {Q : Except ε α → σ → Prop} :
    ∀ {p : Program Op Ret ε α} {s : σ} {is : List ι} {result : Except ε α} {s' : σ},
      Ends answer Q p s → run answer p s is = some (result, s') → Q result s'
  | .done a, s, is, result, s', h, hrun => by
    simp only [run, Option.some.injEq, Prod.mk.injEq] at hrun
    obtain ⟨rfl, rfl⟩ := hrun
    exact h
  | .raise e, s, is, result, s', h, hrun => by
    simp only [run, Option.some.injEq, Prod.mk.injEq] at hrun
    obtain ⟨rfl, rfl⟩ := hrun
    exact h
  | .call op next, s, [], result, s', h, hrun => by simp [run] at hrun
  | .call op next, s, i :: is, result, s', h, hrun => by
    cases hanswer : answer op s i with
    | none => simp [run, hanswer] at hrun
    | some found =>
      obtain ⟨r, t⟩ := found
      simp only [run, hanswer] at hrun
      exact Ends.of_run (h i r t hanswer) hrun

/-- The program is over after at most `n` calls, and `P` holds of what it returns. -/
def Within (P : α → Prop) : ℕ → Program Op Ret ε α → Prop
  | _, .done a => P a
  | _, .raise _ => True
  | 0, .call _ _ => False
  | n + 1, .call _ next => ∀ r, Within P n (next r)

theorem within_done {P : α → Prop} {a : α} (n : ℕ) (h : P a) :
    Within P n (.done a : Program Op Ret ε α) := by
  cases n <;> exact h

theorem within_raise {P : α → Prop} (n : ℕ) (e : ε) : Within P n (.raise e : Program Op Ret ε α) := by
  cases n <;> exact trivial

theorem within_call {P : α → Prop} {n : ℕ} {op : Op} {next : Ret op → Program Op Ret ε α}
    (h : ∀ r, Within P n (next r)) : Within P (n + 1) (.call op next) := h

theorem Within.mono {P : α → Prop} {m n : ℕ} (hmn : m ≤ n) {p : Program Op Ret ε α}
    (h : Within P m p) : Within P n p := by
  induction p generalizing m n with
  | done a => exact within_done n (by cases m <;> exact h)
  | raise e => exact within_raise n e
  | call op next ih =>
    cases m with
    | zero => exact h.elim
    | succ m =>
      obtain ⟨k, rfl⟩ : ∃ k, n = k + 1 := ⟨n - 1, by omega⟩
      exact fun r => ih r (by omega) (h r)

theorem Within.bind {P : α → Prop} {P' : β → Prop} {m n : ℕ} {p : Program Op Ret ε α}
    {f : α → Program Op Ret ε β} (hp : Within P m p) (hf : ∀ a, P a → Within P' n (f a)) :
    Within P' (m + n) (p.bind f) := by
  induction p generalizing m with
  | done a => exact (hf a (by cases m <;> exact hp)).mono (by omega)
  | raise e => exact within_raise _ e
  | call op next ih =>
    cases m with
    | zero => exact hp.elim
    | succ m =>
      rw [show m + 1 + n = m + n + 1 by omega]
      exact fun r => ih r (hp r)

theorem Within.ensure {P : α → Prop} {m n : ℕ} {p : Program Op Ret ε α} {last : Program Op Ret ε Unit}
    (hp : Within P m p) (hlast : Within (fun _ => True) n last) : Within P (m + n) (p.ensure last) := by
  induction p generalizing m with
  | done a =>
    have ha : P a := by cases m <;> exact hp
    exact (hlast.bind (n := 0) fun _ _ => within_done 0 ha).mono (by omega)
  | raise e => exact (hlast.bind (n := 0) fun _ _ => within_raise 0 e).mono (by omega)
  | call op next ih =>
    cases m with
    | zero => exact hp.elim
    | succ m =>
      rw [show m + 1 + n = m + n + 1 by omega]
      exact fun r => ih r (hp r)

/-- **A program that is never kept waiting ends.** -/
theorem exists_run (hanswer : ∀ op s i, answer op s i ≠ none) {P : α → Prop} :
    ∀ {n : ℕ} {p : Program Op Ret ε α} {s : σ} {is : List ι}, Within P n p → n ≤ is.length →
      ∃ result s', run answer p s is = some (result, s')
  | _, .done a, s, _, _, _ => ⟨.ok a, s, rfl⟩
  | _, .raise e, s, _, _, _ => ⟨.error e, s, rfl⟩
  | 0, .call op next, s, is, h, _ => h.elim
  | n + 1, .call op next, s, [], h, hlen => by simp at hlen
  | n + 1, .call op next, s, i :: is, h, hlen => by
    cases ha : answer op s i with
    | none => exact absurd ha (hanswer op s i)
    | some found =>
      obtain ⟨r, t⟩ := found
      obtain ⟨result, s', hrun⟩ := exists_run hanswer (s := t) (h r) (by simpa using hlen)
      exact ⟨result, s', by simpa [run, ha] using hrun⟩

end InverterControl.Lib.Calls
