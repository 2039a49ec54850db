import InverterControl.Subscriptions.Model

/-!
# The cooldown of the connection

A failure and a connection that is given up move `_fail_until`, and nothing moves it back: nobody makes a
connection before the cooldown is over, and after `close` never (`attempts_spaced`).
-/

namespace InverterControl.Subscriptions.Cooldown

open InverterControl.Lib.Runs InverterControl.Subscriptions.Model

variable {c c' : NativeDbusClient} {e : Event} {k : Connecting}

/-! ### Failures and attempts -/

/-- No connection is made, or the one that is there is given up. -/
def fails (c : NativeDbusClient) : Event → Bool
  | .stepConnect made _ _ =>
    match c.connecting with
    | some ⟨_, .dialing⟩ => !made
    | some ⟨_, .made⟩ => !live c
    | _ => false
  | .markFailure bus => c.connecting = none ∧ c.bus = some bus
  | _ => false

/-- A thread begins to make a connection. -/
def starts (c : NativeDbusClient) (e : Event) :
    Bool := c.connecting.isNone && (next c e).connecting.isSome

/-- `close`, which has the lock. -/
def closes (c : NativeDbusClient) (e : Event) : Bool := e = .close ∧ c.connecting = none

@[simp] theorem release_failUntil (made : Bool) : (release c k made).failUntil = c.failUntil := by
  unfold release
  split
  · rfl
  · split <;> rfl

@[simp] theorem release_now (made : Bool) : (release c k made).now = c.now := by
  unfold release
  split
  · rfl
  · split <;> rfl

@[simp] theorem release_connecting (made : Bool) : (release c k made).connecting = none := by
  unfold release
  split
  · rfl
  · split <;> rfl

/-- What a step does to the cooldown. -/
inductive Cools (c c' : NativeDbusClient) : Prop
  | keeps (hnow : c.now ≤ c'.now) (hfail : c'.failUntil = c.failUntil)
  | begins (hnow : c'.now = c.now) (hfail : c'.failUntil = some (c.now + reconnectCooldown))
  | ends (hnow : c'.now = c.now) (hfail : c'.failUntil = none)

theorem cools_stepConnect (made : Bool) (asked : String) (answer : Answer) :
    Cools c (stepConnect c k made asked answer) := by
  have hsame : ∀ {c' : NativeDbusClient}, c'.now = c.now → c'.failUntil = c.failUntil → Cools c c' :=
    fun hnow hfail => .keeps (le_of_eq hnow.symm) hfail
  have hfailed : Cools c (release (giveUp c) k false) := .begins (by simp [giveUp]) (by simp [giveUp])
  unfold stepConnect
  split
  · split
    · exact hsame rfl rfl
    · exact hfailed
  · split
    · exact hsame rfl rfl
    · exact hfailed
  · split
    · exact hsame (by simp) (by simp)
    · exact hsame rfl rfl
  · exact hsame rfl rfl
  · exact hsame rfl rfl
  · split
    · exact hsame (by simp) (by simp)
    · split
      · split
        · exact hsame rfl rfl
        · exact hsame rfl rfl
      · exact hsame rfl rfl
  · split
    · exact hsame rfl rfl
    · exact hsame rfl rfl
    · exact hsame rfl rfl
  · exact hsame rfl rfl

/-- A call of `subscribe_signal` changes neither the clock nor the cooldown, and begins to make a
connection only when the lock is free and the cooldown is over. -/
theorem stepCall_frame (n : ℕ) (answer : Answer) : (stepCall c n answer).now = c.now ∧
    (stepCall c n answer).failUntil = c.failUntil ∧ (stepCall c n answer).bus = c.bus ∧
      ((stepCall c n answer).connecting = c.connecting ∨ c.connecting = none ∧ cooled c = true) := by
  unfold stepCall
  split
  next => exact ⟨rfl, rfl, rfl, Or.inl rfl⟩
  next => exact ⟨rfl, rfl, rfl, Or.inl rfl⟩
  next =>
    by_cases hfree : c.connecting = none
    · rw [if_pos hfree]
      by_cases hcooled : cooled c = false
      · rw [if_pos hcooled]
        exact ⟨rfl, rfl, rfl, Or.inl rfl⟩
      · rw [if_neg hcooled]
        split
        · exact ⟨rfl, rfl, rfl, Or.inl rfl⟩
        · exact ⟨rfl, rfl, rfl, Or.inr ⟨hfree, by simpa using hcooled⟩⟩
    · rw [if_neg hfree]
      exact ⟨rfl, rfl, rfl, Or.inl rfl⟩
  next => exact ⟨rfl, rfl, rfl, Or.inl rfl⟩
  next => exact ⟨rfl, rfl, rfl, Or.inl rfl⟩
  next => split <;> exact ⟨rfl, rfl, rfl, Or.inl rfl⟩
  next => split <;> exact ⟨rfl, rfl, rfl, Or.inl rfl⟩
  next => exact ⟨rfl, rfl, rfl, Or.inl rfl⟩
  next => exact ⟨rfl, rfl, rfl, Or.inl rfl⟩
  next => exact ⟨rfl, rfl, rfl, Or.inl rfl⟩

theorem cools_next (c : NativeDbusClient) (e : Event) : Cools c (next c e) := by
  have hsame : ∀ {c' : NativeDbusClient}, c'.now = c.now → c'.failUntil = c.failUntil → Cools c c' :=
    fun hnow hfail => .keeps (le_of_eq hnow.symm) hfail
  cases e with
  | tick d => exact .keeps (by simp [next]) rfl
  | connect =>
    rw [next]
    split
    · exact hsame rfl rfl
    · exact hsame rfl rfl
  | stepConnect made asked answer =>
    cases hk : c.connecting with
    | none => exact hsame (by simp [next, hk]) (by simp [next, hk])
    | some k =>
      have heq : next c (.stepConnect made asked answer) = stepConnect c k made asked answer := by
        simp [next, hk]
      rw [heq]
      exact cools_stepConnect made asked answer
  | subscribeSignal n service member path required =>
    rw [next]
    split
    · unfold subscribeSignal
      split
      · exact hsame rfl rfl
      · exact hsame rfl rfl
    · exact hsame rfl rfl
  | addNameOwnerHandler n =>
    rw [next]
    split
    · exact hsame rfl rfl
    · exact hsame rfl rfl
  | stepCall n answer => exact hsame (stepCall_frame n answer).1 (stepCall_frame n answer).2.1
  | markFailure bus =>
    rw [next]
    split
    · exact .begins rfl rfl
    · exact hsame rfl rfl
  | close =>
    rw [next]
    split
    · exact .ends rfl rfl
    · exact hsame rfl rfl
  | disconnect bus => exact hsame rfl rfl

/-- Nobody makes a connection before `t`, and no new cooldown ends before it. -/
structure Waits (t : ℚ) (c : NativeDbusClient) : Prop where
  later : t ≤ c.now + reconnectCooldown
  ready : ∀ u, c.failUntil = some u → t ≤ u

theorem Waits.next {t : ℚ} (h : Waits t c) (e : Event) : Waits t (next c e) := by
  have hlater := h.later
  rcases cools_next c e with ⟨hnow, hfail⟩ | ⟨hnow, hfail⟩ | ⟨hnow, hfail⟩
  · exact ⟨by linarith, fun u hu => h.ready u (hfail ▸ hu)⟩
  · refine ⟨by linarith, fun u hu => ?_⟩
    rw [hfail] at hu
    have hu := Option.some.inj hu
    linarith
  · exact ⟨by linarith, fun u hu => absurd (hfail.symm.trans hu) (by simp)⟩

theorem waits_of_fails (h : fails c e = true) : Waits (c.now + reconnectCooldown) (next c e) := by
  have hgive : ∀ {c' : NativeDbusClient}, c'.now = c.now →
    c'.failUntil = some (c.now + reconnectCooldown) →
      Waits (c.now + reconnectCooldown) c' := by
    refine fun hnow hfail => ⟨by rw [hnow], fun u hu => ?_⟩
    exact le_of_eq (Option.some.inj (hfail.symm.trans hu))
  cases e with
  | stepConnect made asked answer =>
    rw [fails] at h
    split at h
    next call hk =>
      have hmade : made = false := by simpa using h
      exact hgive (by simp [Model.next, hk, stepConnect, hmade, giveUp])
        (by simp [Model.next, hk, stepConnect, hmade, giveUp])
    next call hk =>
      have hlive : live c = false := by simpa using h
      exact hgive (by simp [Model.next, hk, stepConnect, hlive, giveUp])
        (by simp [Model.next, hk, stepConnect, hlive, giveUp])
    next => exact absurd h (by simp)
  | markFailure bus =>
    have hmark : c.connecting = none ∧ c.bus = some bus := by simpa [fails] using h
    exact hgive (by simp [Model.next, hmark, giveUp]) (by simp [Model.next, hmark, giveUp])
  | tick d => exact absurd h (by simp [fails])
  | connect => exact absurd h (by simp [fails])
  | subscribeSignal n service member path required => exact absurd h (by simp [fails])
  | addNameOwnerHandler n => exact absurd h (by simp [fails])
  | stepCall n answer => exact absurd h (by simp [fails])
  | close => exact absurd h (by simp [fails])
  | disconnect bus => exact absurd h (by simp [fails])

theorem cooled_of_starts (h : starts c e = true) : cooled c = true := by
  obtain ⟨hfree, hstart⟩ : c.connecting = none ∧ (next c e).connecting.isSome = true := by
    simpa [starts] using h
  have hkept : ∀ {c' : NativeDbusClient}, c'.connecting = c.connecting →
      c'.connecting.isSome = true → False :=
    fun heq hsome => by simp [heq, hfree] at hsome
  cases e with
  | connect =>
    by_cases hc : c.connecting = none ∧ cooled c = true ∧ live c = false
    · exact hc.2.1
    · rw [next, if_neg hc] at hstart
      exact (hkept rfl hstart).elim
  | stepCall n answer =>
    rcases (stepCall_frame (c := c) n answer).2.2.2 with heq | ⟨-, hcooled⟩
    · exact (hkept heq hstart).elim
    · exact hcooled
  | tick d => exact (hkept rfl hstart).elim
  | stepConnect made asked answer =>
    rw [next, hfree] at hstart
    exact (hkept rfl hstart).elim
  | subscribeSignal n service member path required =>
    refine (hkept ?_ hstart).elim
    rw [next]
    split
    · unfold subscribeSignal
      split <;> rfl
    · rfl
  | addNameOwnerHandler n =>
    refine (hkept ?_ hstart).elim
    rw [next]
    split <;> rfl
  | markFailure bus =>
    refine (hkept ?_ hstart).elim
    rw [next]
    split <;> rfl
  | close =>
    refine (hkept ?_ hstart).elim
    rw [next]
    split <;> rfl
  | disconnect bus => exact (hkept rfl hstart).elim

/-- After `close`. -/
structure Closed (c : NativeDbusClient) : Prop where
  free : c.connecting = none
  bus : c.bus = none
  failUntil : c.failUntil = none

theorem Closed.not_cooled (h : Closed c) : cooled c = false := by simp [cooled, h.failUntil]

theorem Closed.next (h : Closed c) (e : Event) : Closed (next c e) := by
  have hsame : ∀ {c' : NativeDbusClient}, c'.connecting = c.connecting → c'.bus = c.bus →
      c'.failUntil = c.failUntil → Closed c' :=
    fun hfree hbus hfail => ⟨hfree.trans h.free, hbus.trans h.bus, hfail.trans h.failUntil⟩
  cases e with
  | tick d => exact hsame rfl rfl rfl
  | connect =>
    rw [Model.next, if_neg fun hc => by simp [h.not_cooled] at hc]
    exact h
  | stepConnect made asked answer =>
    have heq : Model.next c (.stepConnect made asked answer) = c := by simp [Model.next, h.free]
    rw [heq]
    exact h
  | subscribeSignal n service member path required =>
    rw [Model.next]
    split
    · unfold subscribeSignal
      split <;> exact hsame rfl rfl rfl
    · exact h
  | addNameOwnerHandler n =>
    rw [Model.next]
    split
    · exact hsame rfl rfl rfl
    · exact h
  | stepCall n answer =>
    obtain ⟨-, hfail, hbus, hfree⟩ := stepCall_frame (c := c) n answer
    rcases hfree with hfree | ⟨-, hcooled⟩
    · exact hsame hfree hbus hfail
    · exact absurd hcooled (by simp [h.not_cooled])
  | markFailure bus =>
    rw [Model.next, if_neg fun hc => by simp [h.bus] at hc]
    exact h
  | close =>
    rw [Model.next, if_pos h.free]
    exact ⟨h.free, rfl, rfl⟩
  | disconnect bus => exact hsame rfl rfl rfl

/-- **The cooldown**: a thread that begins to make a connection does so `RECONNECT_COOLDOWN` after every
earlier failure, and never after `close`. -/
theorem attempts_spaced (past later : List Event) (e attempt : Event)
    (hstarts : starts (exec next {} (past ++ e :: later)) attempt = true) :
    (fails (exec next {} past) e = true →
      (exec next {} past).now + reconnectCooldown ≤ (exec next {} (past ++ e :: later)).now) ∧
    closes (exec next {} past) e = false := by
  have hcooled := cooled_of_starts hstarts
  rw [exec_append, exec_cons] at hcooled ⊢
  constructor
  · intro hfails
    have hwaits : Waits _ (exec next (next (exec next {} past) e) later) :=
      exec_invariant (waits_of_fails hfails) fun x _ hx => hx.next x.input
    obtain ⟨u, hu, hle⟩ := (Option.any_eq_true _ _).mp hcooled
    exact le_trans (hwaits.ready u hu) (of_decide_eq_true hle)
  · by_contra hcloses
    have hclose : e = .close ∧ (exec next {} past).connecting = none := by simpa [closes] using hcloses
    obtain ⟨rfl, hfree⟩ := hclose
    have hclosed : Closed (next (exec next {} past) .close) := by
      rw [Model.next, if_pos hfree]
      exact ⟨hfree, rfl, rfl⟩
    have hnever : Closed (exec next (next (exec next {} past) .close) later) :=
      exec_invariant hclosed fun x _ hx => hx.next x.input
    rw [hnever.not_cooled] at hcooled
    exact absurd hcooled (by simp)

/-- A connection that is given up at zero, and the next attempt five seconds later. -/
theorem attempts_spaced_dropped :
    let before := exec next {} (.connect :: List.replicate 3 (.stepConnect true "" .refused))
    let after := exec next {} (.connect :: List.replicate 3 (.stepConnect true "" .refused) ++
      .markFailure 0 :: [.connect, .tick 5])
    before.now + reconnectCooldown ≤ after.now :=
  (attempts_spaced (.connect :: List.replicate 3 (.stepConnect true "" .refused)) [.connect, .tick 5]
    (.markFailure 0) .connect (by decide +kernel)).1 (by decide +kernel)

end InverterControl.Subscriptions.Cooldown
