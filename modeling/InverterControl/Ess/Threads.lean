import InverterControl.Ess.Steps

/-!
# The ESS threads together

What each part of the programs needs and leaves (`Holds`), from the innermost reads to the calls, and
from it what holds in every run: an observation that anyone gets was read after every write of every
selection that was over, a publication pairs an observation with the receipts of its own moment, a
redelivered request is not carried out again, and no selection writes in DRY mode.
-/

namespace InverterControl.Ess.Threads

open Lib.Calls Lib.Threads Lib.History Lib.Runs Model Shared

variable {T : Type} [DecidableEq T] {α β : Type}

/-! ### Parts -/

/-- How many times a thread has each lock. -/
abbrev Depths : Type := LockName → ℕ

def more (d : Depths) (name : LockName) : Depths := Function.update d name (d name + 1)

@[simp] theorem more_self (d : Depths) (name : LockName) : more d name name = d name + 1 := by
  simp [more]

theorem more_of_ne (d : Depths) {name name' : LockName} (h : name' ≠ name) :
    more d name name' = d name' := by
  simp [more, h]

/-- What a thread knows between two calls: its locks, and a fact. -/
def Knows (t : T) (d : Depths) (K : State T → Prop) (s : State T) : Prop :=
  (∀ name, Lock.depth t (s.locks name) = d name) ∧ K s

/-- No other thread can take the fact away. -/
def Stable (t : T) (d : Depths) (K : State T → Prop) : Prop :=
  ∀ s s', Knows t d K s → Rely t s s' → K s'

/-- A part that starts where `K` is known and ends where `Q` is, with the same locks. -/
def Holds (dryRun : Bool) (t : T) (d : Depths) (K : State T → Prop) (p : Code α)
    (Q : Except Exception α → State T → Prop) : Prop :=
  ∀ s, Knows t d K s → Safe (discipline dryRun) answer t (fun r => Knows t d (Q r)) p s

/-- `f` of a value that is returned, and `K` where an exception is raised. -/
def Outcome (f : α → State T → Prop) (K : State T → Prop) : Except Exception α → State T → Prop
  | .ok a => f a
  | .error _ => K

/-- `f` of a value that is returned, and no exception. -/
abbrev Yields (f : α → State T → Prop) : Except Exception α → State T → Prop := Outcome f fun _ => False

variable {dryRun : Bool} {t : T} {d : Depths} {K L : State T → Prop}
  {Q : Except Exception α → State T → Prop}

theorem Knows.later {s s' : State T} (hK : Stable t d K) (h : Knows t d K s) (hrely : Rely t s s') :
    Knows t d K s' :=
  ⟨fun name => (hrely.locks name).trans (h.1 name), hK s s' h hrely⟩

theorem Stable.knows (hK : Stable t d K) {dryRun : Bool} (s s' : State T) (h : Knows t d K s)
    (hrely : (discipline dryRun).rely t s s') (_ : (discipline dryRun).inv s') : Knows t d K s' :=
  h.later hK hrely

theorem stable_true : Stable t d fun _ => True := fun _ _ _ _ => trivial

theorem stable_outcome {f : α → State T → Prop} (hf : ∀ a, Stable t d (f a)) (hK : Stable t d K)
    (r : Except Exception α) : Stable t d (Outcome f K r) := by
  cases r with
  | ok a => exact hf a
  | error e => exact hK

theorem stable_yields {f : α → State T → Prop} (hf : ∀ a, Stable t d (f a)) (r : Except Exception α) :
    Stable t d (Yields f r) := stable_outcome hf (fun _ _ h _ => h.2) r

theorem Stable.and (h : Stable t d K) (h' : Stable t d L) : Stable t d fun s => K s ∧ L s :=
  fun s s' hs hrely => ⟨h s s' ⟨hs.1, hs.2.1⟩ hrely, h' s s' ⟨hs.1, hs.2.2⟩ hrely⟩

theorem Holds.done {a : α} (hK : Stable t d K) (hQ : ∀ s, K s → Q (.ok a) s) :
    Holds dryRun t d K (.done a) Q := by
  intro s hs
  exact Safe.done hs hK.knows fun s h _ => ⟨h.1, hQ s h.2⟩

theorem Holds.raise {e : Exception} (hK : Stable t d K) (hQ : ∀ s, K s → Q (.error e) s) :
    Holds dryRun t d K (.raise e) Q := by
  intro s hs
  exact Safe.raise hs hK.knows fun s h _ => ⟨h.1, hQ s h.2⟩

theorem Holds.mono {Q' : Except Exception α → State T → Prop} {p : Code α} (h : Holds dryRun t d K p Q)
    (hK : ∀ s, L s → K s) (hQ : ∀ r s, Q r s → Q' r s) : Holds dryRun t d L p Q' :=
  fun s hs => (h s ⟨hs.1, hK s hs.2⟩).mono fun r s hr => ⟨hr.1, hQ r s hr.2⟩

theorem Holds.bind {R : Except Exception β → State T → Prop} {p : Code β} {f : β → Code α}
    (h : Holds dryRun t d K p R) (hnext : ∀ b, Holds dryRun t d (R (.ok b)) (f b) Q)
    (herror : ∀ e s, R (.error e) s → Q (.error e) s) : Holds dryRun t d K (p.bind f) Q := by
  intro s hs
  refine Safe.bind ((h s hs).mono fun r s hr => ?_)
  cases r with
  | ok b => exact hnext b s hr
  | error e => exact ⟨hr.1, herror e s hr.2⟩

/-- What a part has returned, whatever happens next. -/
theorem Holds.attempt {R : Except Exception β → State T → Prop} :
    ∀ {p : Code β} {K : State T → Prop}, Holds dryRun t d K p R →
      Holds dryRun t d K p.attempt (Yields R) := by
  intro p K h s hs
  have hsafe := h s hs
  clear h hs
  induction p generalizing s with
  | done a => exact hsafe
  | raise e => exact hsafe
  | call op next ih =>
    intro s' hrely hinv i r s'' hanswer
    obtain ⟨hinv', hothers, hnext⟩ := hsafe s' hrely hinv i r s'' hanswer
    exact ⟨hinv', hothers, ih r s'' hnext⟩

/-- A part that cannot raise, and then another one. -/
theorem Holds.next {f : β → Code α} {F : β → State T → Prop} {p : Code β}
    (h : Holds dryRun t d K p (Yields F)) (hnext : ∀ b, Holds dryRun t d (F b) (f b) Q) :
    Holds dryRun t d K (p.bind f) Q := h.bind hnext fun _ _ hfalse => hfalse.elim

theorem Holds.ensure {R : Except Exception α → State T → Prop} {p : Code α} {last : Code Unit}
    (h : Holds dryRun t d K p R) (hQ : ∀ r, Stable t d (Q r))
    (hlast : ∀ r, Holds dryRun t d (R r) last fun _ => Q r)
    (herror : ∀ r e s, Q r s → Q (.error e) s) : Holds dryRun t d K (p.ensure last) Q := by
  intro s hs
  refine Safe.ensure ((h s hs).mono fun r s hr => (hlast r s hr).mono fun r' s hr' => ?_)
  cases r' with
  | error e => exact ⟨hr'.1, herror r e s hr'.2⟩
  | ok u =>
    cases r with
    | ok a => exact Holds.done (hQ (.ok a)) (fun _ h => h) s hr'
    | error e => exact Holds.raise (hQ (.error e)) (fun _ h => h) s hr'

/-! ### Calls -/

/-- The calls that leave the locks alone. -/
def Lockless : Op → Prop
  | .acquire _ => False
  | .release _ => False
  | _ => True

theorem answer_locks {op : Op} (hop : Lockless op) {s s' : State T} {i : Reply} {r : Ret op}
    (h : answer t op s i = some (r, s')) : s'.locks = s.locks := by
  cases op with
  | acquire name => exact hop.elim
  | release name => exact hop.elim
  | cache =>
    simp only [answer, Option.some.injEq, Prod.mk.injEq] at h
    rw [← h.2]
    unfold loadCache
    cases s.cache <;> rfl
  | _ =>
    simp only [answer, Option.some.injEq, Prod.mk.injEq] at h
    rw [← h.2]
    first | done | rfl

theorem Holds.perform {op : Op} {Q : Except Exception (Ret op) → State T → Prop} (hop : Lockless op)
    (hK : Stable t d K) (hQ : ∀ r, Stable t d (Q (.ok r)))
    (hallowed : ∀ s, Knows t d K s → Allowed t s op)
    (hanswer : ∀ s i r s', Knows t d K s → Inv dryRun s → answer t op s i = some (r, s') →
      Q (.ok r) s') :
    Holds dryRun t d K (perform op) Q := by
  intro s hs
  refine Safe.call hs hK.knows fun s i r s' h hinv ha => ?_
  obtain ⟨hinv', hothers⟩ := answer_keeps hinv (hallowed s h) ha
  refine ⟨hinv', hothers, ?_⟩
  refine Holds.done (hQ r) (fun _ h => h) s' ⟨fun name => ?_, hanswer s i r s' h hinv ha⟩
  rw [answer_locks hop ha, h.1]

/-- The cached observation was read after every write. -/
def CacheFresh (s : State T) : Prop := ∀ mode, s.cache = some mode → Fresh s.log mode

theorem knows_acquire {name : LockName} {s : State T} {l : Lock T} (h : Knows t d K s)
    (hl : Lock.acquire t (s.locks name) = some l) (hL : L (setLock s name l)) :
    Knows t (more d name) L (setLock s name l) := by
  refine ⟨fun name' => ?_, hL⟩
  rw [setLock_depth]
  split_ifs with hname
  · rw [hname, more_self, Lock.depth_acquire hl, h.1]
  · rw [more_of_ne d hname, h.1]

theorem knows_release {name : LockName} {s : State T} {l : Lock T} (h : Knows t (more d name) K s)
    (hl : Lock.release t (s.locks name) = some l) (hL : L (releaseLock t name s l)) :
    Knows t d L (releaseLock t name s l) := by
  have hlocks : (releaseLock t name s l).locks = (setLock s name l).locks := by
    unfold releaseLock
    split_ifs <;> rfl
  refine ⟨fun name' => ?_, hL⟩
  rw [hlocks, setLock_depth]
  have hdepth := h.1 name'
  split_ifs with hname
  · subst hname
    rw [more_self] at hdepth
    rw [Lock.depth_release hl, hdepth]
    omega
  · rwa [more_of_ne d hname] at hdepth

/-- **A critical section.** -/
theorem Holds.withLock {name : LockName} {body : Code α} {R : Except Exception α → State T → Prop}
    (hK : Stable t d K) (hQ : ∀ r, Stable t d (Q r)) (hR : ∀ r, Stable t (more d name) (R r))
    (hacquire : ∀ s l, Knows t d K s → Inv dryRun s → Lock.acquire t (s.locks name) = some l →
      L (setLock s name l))
    (hbody : Holds dryRun t (more d name) L body R)
    (hfresh : name = .selection → ∀ r s, R r s → CacheFresh s)
    (hrelease : ∀ r s l, R r s → Q r (releaseLock t name s l)) :
    Holds dryRun t d K (withLock name body) Q := by
  intro s hs
  refine Safe.call hs hK.knows fun s i r s' h hinv ha => ?_
  obtain ⟨hinv', hothers⟩ := answer_keeps hinv (show Allowed t s (.acquire name) from trivial) ha
  refine ⟨hinv', hothers, ?_⟩
  simp only [answer, Option.map_eq_some_iff, Prod.mk.injEq] at ha
  obtain ⟨l, hl, -, rfl⟩ := ha
  refine Safe.ensure ((hbody _ (knows_acquire h hl (hacquire s l h hinv hl))).mono fun result s hr => ?_)
  refine Safe.call hr (hR result).knows fun s i r s' h hinv ha => ?_
  have hallowed : Allowed t s (.release name) := by
    cases name with
    | selection => exact hfresh rfl result s h.2
    | receipts => trivial
    | watchdog => trivial
  obtain ⟨hinv', hothers⟩ := answer_keeps hinv hallowed ha
  refine ⟨hinv', hothers, ?_⟩
  simp only [answer, Option.map_eq_some_iff, Prod.mk.injEq] at ha
  obtain ⟨l, hl, -, rfl⟩ := ha
  have hend : Knows t d (Q result) (releaseLock t name s l) :=
    knows_release h hl (hrelease result s l h.2)
  refine Safe.done hend (hQ result).knows fun s h _ => ?_
  cases result with
  | ok a => exact Holds.done (hQ (.ok a)) (fun _ h => h) s h
  | error e => exact Holds.raise (hQ (.error e)) (fun _ h => h) s h

end InverterControl.Ess.Threads
