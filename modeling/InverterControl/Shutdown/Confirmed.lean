import InverterControl.Shutdown.Model

/-!
# The connection is closed last

The D-Bus connection is closed only when every request to stop was made, every worker is known to
have stopped and MQTT is disconnected, so that nobody is left who writes to it; and the shutdown
reports success only when the close was requested as well (`closed_last`).
-/

namespace InverterControl.Shutdown.Confirmed

open InverterControl.Lib.Runs InverterControl.Shutdown.Model

variable {s : State}

/-- The requests that are still to be made. -/
def pendingRequests : Main → List Request
  | .requesting rest => rest
  | _ => []

/-- The workers that are still to be stopped. -/
def pendingWorkers (setup : Setup) : Main → List Worker
  | .requesting _ => workers setup
  | .stopping rest => rest
  | _ => []

/-- What `close_allowed` stands for, where nothing is pending any more. -/
structure Ready (s : State) : Prop where
  requestsOk : s.requestsOk = true
  stopped : s.stopped = true
  mqtt : s.completedMqtt = true
  requests : pendingRequests s.main = []
  workers : pendingWorkers s.setup s.main = []

structure Inv (s : State) : Prop where
  requests : s.requestsOk = true → ∀ r ∈ requests s.setup, r ∈ s.requested ∨ r ∈ pendingRequests s.main
  workers : s.stopped = true → ∀ w ∈ workers s.setup, w ∈ s.confirmed ∨ w ∈ pendingWorkers s.setup s.main
  mqtt : s.completedMqtt = true → s.setup.mqttBridge = false ∨ s.disconnected = true
  allowing : s.main = .allowing → Ready s
  allowed : s.closeAllowed = true → Ready s
  looking : s.io = .looking ∨ s.io = .closing ∨ s.completedCloseRequested = true → s.closeAllowed = true
  once : s.completedCloseRequested = true → s.io = .finished
  result : s.main = .returned true → s.completedCloseRequested = true

/-- Everything has stopped. -/
structure AllStopped (s : State) : Prop where
  requests : ∀ r ∈ requests s.setup, r ∈ s.requested
  workers : ∀ w ∈ workers s.setup, w ∈ s.confirmed
  mqtt : s.setup.mqttBridge = false ∨ s.disconnected = true

theorem Inv.allStopped (h : Inv s) (hallowed : s.closeAllowed = true) : AllStopped s := by
  have hready := h.allowed hallowed
  refine ⟨fun r hr => ?_, fun w hw => ?_, h.mqtt hready.mqtt⟩
  · have hmade := h.requests hready.requestsOk r hr
    rw [hready.requests] at hmade
    exact hmade.resolve_right (by simp)
  · have hmade := h.workers hready.stopped w hw
    rw [hready.workers] at hmade
    exact hmade.resolve_right (by simp)

theorem inv_start (setup : Setup) (now timeout : ℚ) : Inv (start setup now timeout) where
  requests := fun _ _ hr => Or.inr hr
  workers := fun _ _ hw => Or.inr hw
  mqtt := fun h => absurd h (by simp [start])
  allowing := fun h => absurd h (by simp [start])
  allowed := fun h => absurd h (by simp [start])
  looking := fun h => absurd h (by simp [start])
  once := fun h => absurd h (by simp [start])
  result := fun h => absurd h (by simp [start])

/-! ### The main thread -/

/-- Nothing that closing rests on is pending while the main thread still asks. -/
theorem Inv.not_allowed (h : Inv s)
    (hpending : pendingRequests s.main ≠ [] ∨ pendingWorkers s.setup s.main ≠ []) :
    s.closeAllowed = false := by
  by_contra hallowed
  have hready := h.allowed (by simpa using hallowed)
  rcases hpending with hp | hp
  · exact hp hready.requests
  · exact hp hready.workers

theorem workers_ne_nil (setup : Setup) : workers setup ≠ [] := by simp [workers]

/-- The main thread asks, or stops one worker: closing was not allowed before. -/
theorem Inv.asks (h : Inv s) {s' : State} (hclosed : s.closeAllowed = false)
    (hsetup : s'.setup = s.setup)
    (hio : s'.completedMqtt = s.completedMqtt ∧ s'.disconnected = s.disconnected ∧
      s'.closeAllowed = s.closeAllowed ∧ s'.completedCloseRequested = s.completedCloseRequested)
    (hlooking : s'.io = .looking ∨ s'.io = .closing → s'.io = s.io)
    (hmain : s'.main ≠ .allowing ∧ s'.main ≠ .returned true)
    (hrequests : s'.requestsOk = true →
      ∀ r ∈ Model.requests s.setup, r ∈ s'.requested ∨ r ∈ pendingRequests s'.main)
    (hworkers : s'.stopped = true →
      ∀ w ∈ Model.workers s.setup, w ∈ s'.confirmed ∨ w ∈ pendingWorkers s.setup s'.main) : Inv s' := by
  obtain ⟨hmqtt, hdisconnected, hallowed, hclose⟩ := hio
  have hno : s'.closeAllowed = false := hallowed.trans hclosed
  have hnotClosed : s'.completedCloseRequested ≠ true := by
    intro hc
    have hyes := h.looking (Or.inr (Or.inr (hclose.symm.trans hc)))
    rw [hclosed] at hyes
    exact absurd hyes (by simp)
  refine ⟨fun ho r hr => hrequests ho r (hsetup ▸ hr), ?_, ?_, fun hm => absurd hm hmain.1, ?_, ?_,
    fun hc => absurd hc hnotClosed, fun hm => absurd hm hmain.2⟩
  · intro ho w hw
    rw [hsetup] at hw ⊢
    exact hworkers ho w hw
  · rw [hmqtt, hdisconnected, hsetup]
    exact h.mqtt
  · exact fun ha => absurd ha (by simp [hno])
  · intro hl
    refine hallowed.trans (h.looking ?_)
    rcases hl with hl | hl | hl
    · exact Or.inl ((hlooking (Or.inl hl)).symm.trans hl)
    · exact Or.inr (Or.inl ((hlooking (Or.inr hl)).symm.trans hl))
    · exact absurd hl hnotClosed

/-- The main thread goes on, when it has asked all. -/
theorem Inv.moves (h : Inv s) {main : Main} (hrequests : pendingRequests s.main = [])
    (hworkers : pendingWorkers s.setup s.main = [])
    (hnothing : pendingRequests main = [] ∧ pendingWorkers s.setup main = [])
    (hallowing : main = .allowing → s.requestsOk = true ∧ s.stopped = true ∧ s.completedMqtt = true)
    (hresult : main = .returned true → s.completedCloseRequested = true) :
    Inv { s with main := main } where
  requests := by
    intro ho r hr
    have hmade := h.requests ho r hr
    rw [hrequests] at hmade
    exact Or.inl (hmade.resolve_right (by simp))
  workers := by
    intro ho w hw
    have hmade := h.workers ho w hw
    rw [hworkers] at hmade
    exact Or.inl (hmade.resolve_right (by simp))
  mqtt := h.mqtt
  allowing := fun hm => ⟨(hallowing hm).1, (hallowing hm).2.1, (hallowing hm).2.2, hnothing.1,
    hnothing.2⟩
  allowed := fun ha =>
    ⟨(h.allowed ha).requestsOk, (h.allowed ha).stopped, (h.allowed ha).mqtt, hnothing.1, hnothing.2⟩
  looking := h.looking
  once := h.once
  result := hresult

theorem Inv.stepMain (h : Inv s) (outcome : Outcome) : Inv (stepMain s outcome) := by
  unfold Model.stepMain
  split
  next r rest hmain =>
    have hclosed := h.not_allowed (Or.inl (by simp [hmain, pendingRequests]))
    have hrequests := h.requests
    have hworkers := h.workers
    rw [hmain] at hrequests hworkers
    unfold Model.request
    split
    · exact h.asks hclosed rfl ⟨rfl, rfl, rfl, rfl⟩ (fun _ => rfl) (by simp)
        (fun ho => absurd ho (by simp)) hworkers
    · refine h.asks hclosed rfl ⟨rfl, rfl, rfl, rfl⟩ (fun _ => rfl) (by simp)
        (fun ho r' hr' => ?_) hworkers
      rcases hrequests ho r' hr' with hmade | hmade
      · exact Or.inl (List.mem_cons_of_mem _ hmade)
      · rcases List.mem_cons.mp hmade with rfl | hmade
        · exact Or.inl List.mem_cons_self
        · exact Or.inr hmade
  next hmain =>
    have hclosed := h.not_allowed (Or.inr (by simp [hmain, pendingWorkers, workers_ne_nil]))
    have hrequests := h.requests
    have hworkers := h.workers
    rw [hmain] at hrequests hworkers
    exact h.asks hclosed rfl ⟨rfl, rfl, rfl, rfl⟩ (fun hio => absurd hio (by simp)) (by simp) hrequests
      hworkers
  next w rest hmain =>
    have hclosed := h.not_allowed (Or.inr (by simp [hmain, pendingWorkers]))
    have hrequests := h.requests
    have hworkers := h.workers
    rw [hmain] at hrequests hworkers
    unfold Model.stop
    split
    · refine h.asks hclosed rfl ⟨rfl, rfl, rfl, rfl⟩ (fun _ => rfl)
        (by simp) hrequests fun ho w' hw' => ?_
      rcases hworkers ho w' hw' with hmade | hmade
      · exact Or.inl (List.mem_cons_of_mem _ hmade)
      · rcases List.mem_cons.mp hmade with rfl | hmade
        · exact Or.inl List.mem_cons_self
        · exact Or.inr hmade
    · exact h.asks hclosed rfl ⟨rfl, rfl, rfl, rfl⟩ (fun _ => rfl) (by simp) hrequests
        fun ho => absurd ho (by simp)
  next hmain =>
    exact h.moves (by rw [hmain]; rfl) (by rw [hmain]; rfl) ⟨rfl, rfl⟩ (by simp) (by simp)
  next hmain =>
    split
    · exact h.moves (by rw [hmain]; rfl) (by rw [hmain]; rfl) ⟨rfl, rfl⟩ (by simp) (by simp)
    · exact h
  next hmain =>
    split
    next hall =>
      exact h.moves (by rw [hmain]; rfl) (by rw [hmain]; rfl) ⟨rfl, rfl⟩
        (fun _ => ⟨hall.1, hall.2.1, hall.2.2.1⟩) (by simp)
    next => exact h.moves (by rw [hmain]; rfl) (by rw [hmain]; rfl) ⟨rfl, rfl⟩ (by simp) (by simp)
  next hmain =>
    -- `close_allowed` is set in the state that was tested
    have hready := h.allowing hmain
    have hjoins : Inv { s with main := .joining } :=
      h.moves (by rw [hmain]; rfl) (by rw [hmain]; rfl) ⟨rfl, rfl⟩ (by simp) (by simp)
    exact ⟨hjoins.requests, hjoins.workers, hjoins.mqtt, fun hm => absurd hm (by simp),
      fun _ => ⟨hready.requestsOk, hready.stopped, hready.mqtt, rfl, rfl⟩, fun _ => rfl, h.once,
      fun hr => absurd hr (by simp)⟩
  next hmain =>
    split
    · refine h.moves (by rw [hmain]; rfl) (by rw [hmain]; rfl) ⟨rfl, rfl⟩ (by simp) fun hresult => ?_
      simp only [Main.returned.injEq, Bool.and_eq_true] at hresult
      exact hresult.2
    · exact h
  next => exact h

/-! ### The other thread -/

/-- The other thread goes on; what it knows of MQTT and of the close only grows. -/
theorem Inv.keeps (h : Inv s) {s' : State} (hmain : s'.main = s.main ∧ s'.setup = s.setup)
    (hflags : s'.requestsOk = s.requestsOk ∧ s'.stopped = s.stopped ∧ s'.closeAllowed = s.closeAllowed)
    (hghost : s'.requested = s.requested ∧ s'.confirmed = s.confirmed)
    (hmqtt : s'.completedMqtt = true → s'.setup.mqttBridge = false ∨ s'.disconnected = true)
    (hmono : s.completedMqtt = true → s'.completedMqtt = true)
    (hclose : s.completedCloseRequested = true → s'.completedCloseRequested = true)
    (hlooking : s'.io = .looking ∨ s'.io = .closing ∨ s'.completedCloseRequested = true →
      s.closeAllowed = true) (honce : s'.completedCloseRequested = true →
        s'.io = .finished) : Inv s' := by
  obtain ⟨hmain, hsetup⟩ := hmain
  obtain ⟨hok, hstopped, hallowed⟩ := hflags
  obtain ⟨hrequested, hconfirmed⟩ := hghost
  have hready : Ready s → Ready s' := by
    intro hr
    exact ⟨hok.trans hr.requestsOk, hstopped.trans hr.stopped, hmono hr.mqtt,
      by rw [hmain]; exact hr.requests, by rw [hmain, hsetup]; exact hr.workers⟩
  refine ⟨?_, ?_, hmqtt, ?_, ?_, ?_, honce, ?_⟩
  · rw [hok, hsetup, hrequested, hmain]
    exact h.requests
  · rw [hstopped, hsetup, hconfirmed, hmain]
    exact h.workers
  · exact fun hm => hready (h.allowing (hmain.symm.trans hm))
  · exact fun ha => hready (h.allowed (hallowed.symm.trans ha))
  · exact fun hl => hallowed.trans (hlooking hl)
  · exact fun hr => hclose (h.result (hmain.symm.trans hr))

theorem Inv.stepIo (h : Inv s) (outcome : Outcome) : Inv (stepIo s outcome) := by
  have hbefore : s.io ≠ .finished → s.completedCloseRequested = true → False :=
    fun hio hc => hio (h.once hc)
  have hclosed : s.completedCloseRequested = true → s.closeAllowed = true :=
    fun hc => h.looking (Or.inr (Or.inr hc))
  unfold Model.stepIo
  split
  next hio =>
    have hno := hbefore (by simp [hio])
    split
    next hbridge =>
      exact h.keeps ⟨rfl, rfl⟩ ⟨rfl, rfl, rfl⟩ ⟨rfl, rfl⟩ (fun _ => Or.inl hbridge) (fun _ => rfl) id
        (by simpa using hclosed) fun hc => (hno hc).elim
    next =>
      split
      · exact h.keeps ⟨rfl, rfl⟩ ⟨rfl, rfl, rfl⟩ ⟨rfl, rfl⟩ (fun _ => Or.inr rfl) (fun _ => rfl) id
          (by simpa using hclosed) fun hc => (hno hc).elim
      · exact h.keeps ⟨rfl, rfl⟩ ⟨rfl, rfl, rfl⟩ ⟨rfl, rfl⟩ h.mqtt id id (by simpa using hclosed)
          fun hc => (hno hc).elim
  next raised hio =>
    have hno := hbefore (by simp [hio])
    refine h.keeps ⟨rfl, rfl⟩ ⟨rfl, rfl, rfl⟩ ⟨rfl, rfl⟩ h.mqtt id id ?_ fun hc => (hno hc).elim
    cases raised with
    | true => simpa using hclosed
    | false => simpa using hclosed
  next hio =>
    have hno := hbefore (by simp [hio])
    split
    next hallowed =>
      exact h.keeps ⟨rfl, rfl⟩ ⟨rfl, rfl, rfl⟩ ⟨rfl, rfl⟩ h.mqtt id id (fun _ => hallowed)
        fun hc => (hno hc).elim
    next =>
      split
      · exact h.keeps ⟨rfl, rfl⟩ ⟨rfl, rfl, rfl⟩ ⟨rfl, rfl⟩ h.mqtt id id
          (by simpa using hclosed) fun _ => rfl
      · exact h
  next hio =>
    have hno := hbefore (by simp [hio])
    exact h.keeps ⟨rfl, rfl⟩ ⟨rfl, rfl, rfl⟩ ⟨rfl, rfl⟩ h.mqtt id id (fun _ => h.looking (Or.inl hio))
      fun hc => (hno hc).elim
  next hio =>
    have hno := hbefore (by simp [hio])
    exact h.keeps ⟨rfl, rfl⟩ ⟨rfl, rfl, rfl⟩ ⟨rfl, rfl⟩ h.mqtt id (fun hc => (hno hc).elim)
      (fun _ => h.looking (Or.inr (Or.inl hio))) fun _ => rfl
  next => exact h

/-! ### Runs -/

theorem Inv.next (h : Inv s) (e : Event) : Inv (next s e) := by
  cases e with
  | tick d =>
    exact h.keeps ⟨rfl, rfl⟩ ⟨rfl, rfl, rfl⟩ ⟨rfl, rfl⟩ h.mqtt id id h.looking h.once
  | stepMain outcome => exact h.stepMain outcome
  | stepIo outcome => exact h.stepIo outcome

theorem Inv.closing (h : Inv s) (hio : s.io = .closing ∨ s.completedCloseRequested = true) :
    AllStopped s :=
  h.allStopped (h.looking (Or.inr hio))

/-- **The connection is closed last**: in every run, when `victron.close` is called every request to
stop was made without an exception, every worker has confirmed its stop and MQTT is disconnected;
and the shutdown returns `True` only when the close has returned `True` as well. -/
theorem closed_last (setup : Setup) (now timeout : ℚ) (es : List Event) :
    let s := exec next (start setup now timeout) es
    (s.io = .closing → AllStopped s) ∧
      (s.main = .returned true → s.completedCloseRequested = true ∧ AllStopped s) := by
  have hinv : Inv (exec next (start setup now timeout) es) :=
    exec_invariant (inv_start setup now timeout) fun x _ hx => hx.next x.input
  refine ⟨fun hio => hinv.closing (Or.inl hio), fun hresult => ?_⟩
  have hclosed := hinv.result hresult
  exact ⟨hclosed, hinv.closing (Or.inr hclosed)⟩

/-- A shutdown in which everything stops; the other thread runs in the middle of it. -/
example : (exec next (start ⟨true, true, true, false⟩ 0 5)
    (List.replicate 12 (.stepMain .confirmed) ++ List.replicate 2 (.stepIo .confirmed) ++
      List.replicate 9 (.stepMain .confirmed) ++ List.replicate 3 (.stepIo .confirmed) ++
      [.stepMain .confirmed])).main = .returned true := by
  decide +kernel

end InverterControl.Shutdown.Confirmed
