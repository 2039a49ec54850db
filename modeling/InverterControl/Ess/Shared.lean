import InverterControl.Ess.Model
import InverterControl.Lib.History

/-!
# What the ESS threads share

The state behind the calls of `Ess.Model`, with a record of what happened on it in order, and the
rules that the threads keep (`discipline`): only the holder of the selection lock writes ESS
settings or the cache, only the holder of the receipt lock changes receipts, and a cached
observation has been read since the last write of everyone who does not hold the selection lock.
-/

namespace InverterControl.Ess.Shared

open Lib.Calls Lib.Threads Lib.History Model

variable {T : Type}

/-- What happened, and by which thread. -/
inductive Event (T : Type)
  | read (t : T) (service path : String) (reply : Option String)
  | wrote (t : T) (service path : String) (value : ℤ) (accepted : Bool) (request : Option String)
  | loaded (t : T) (mode : EssMode)
  /-- The selection lock is free again. -/
  | released (t : T)
  | remembered (t : T) (requestId : String)
  | receipt (t : T) (status : Status)
  | dryRunSet (enabled : Bool)
  | published (t : T) (mode : EssMode) (status : Status)
  deriving DecidableEq, Repr

structure State (T : Type) where
  locks : LockName → Lock T := fun _ => none
  cache : Option EssMode := none
  cacheTime : ℚ := 0
  dryRun : Bool
  trimModeGeneration : ℕ := 0
  seen : List String := []
  status : Status := {}
  /-- The oldest event first. -/
  log : List (Event T) := []

def setLock (s : State T) (name : LockName) (l : Lock T) : State T :=
  { s with locks := Function.update s.locks name l }

def record (s : State T) (e : Event T) : State T := { s with log := s.log ++ [e] }

/-- What the surroundings decide about a call. -/
structure Reply where
  text : Option String := none
  accepted : Bool := false
  now : ℚ := 0
  deriving DecidableEq, Repr

variable [DecidableEq T]

/-- The events of a lock that is given back. -/
def releaseLock (t : T) (name : LockName) (s : State T) (l : Lock T) : State T :=
  if name = .selection ∧ l = none then record (setLock s name l) (.released t) else setLock s name l

def loadCache (t : T) (s : State T) : State T :=
  match s.cache with
  | some mode => record s (.loaded t mode)
  | none => s

def answer (t : T) (op : Op) (s : State T) (i : Reply) : Option (Ret op × State T) :=
  match op with
  | .acquire name => (Lock.acquire t (s.locks name)).map fun l => ((), setLock s name l)
  | .release name => (Lock.release t (s.locks name)).map fun l => ((), releaseLock t name s l)
  | .dbusGet service path => some (i.text, record s (.read t service path i.text))
  | .dbusGetNativeOnly service path => some (i.text, record s (.read t service path i.text))
  | .dbusSet service path value request =>
    some (i.accepted, record s (.wrote t service path value i.accepted request))
  | .vebusService => some (i.text, s)
  | .time => some (i.now, s)
  | .cache => some ((s.cache, s.cacheTime), loadCache t s)
  | .storeCache mode time => some ((), { s with cache := mode, cacheTime := time })
  | .dryRun => some (s.dryRun, s)
  | .setDryRun enabled => some ((), record { s with dryRun := enabled } (.dryRunSet enabled))
  | .nextGeneration => some ((), { s with trimModeGeneration := s.trimModeGeneration + 1 })
  | .seen => some (s.seen, s)
  | .remember requestId =>
    some ((), record { s with seen := remember s.seen requestId } (.remembered t requestId))
  | .status => some (s.status, s)
  | .setStatus status => some ((), record { s with status := status } (.receipt t status))
  | .publish mode status => some ((), record s (.published t mode status))

/-! ### What the log says -/

def writer : Event T → Option T
  | .wrote t _ _ _ _ _ => some t
  | _ => none

/-- The call that made the write is over: its thread has given the selection lock back. -/
def Finishes (e f : Event T) : Prop :=
    ∃ t, writer e = some t ∧ (f = .released t ∨ ∃ st, f = .receipt t st)

def newsOfReceipt : Event T → Option Status
  | .receipt _ status => some status
  | _ => none

def lastReceipt (log : List (Event T)) : Status := latest newsOfReceipt {} log

def newsOfDryRun : Event T → Option Bool
  | .dryRunSet enabled => some enabled
  | _ => none

def requestOf : Event T → Option String
  | .remembered _ requestId => some requestId
  | _ => none

/-- The requests that were not redelivered, in order. -/
def requests (log : List (Event T)) : List String := log.filterMap requestOf

/-- The news of who carries out which request. -/
def newsOfRequest : Event T → Option (Option (T × String))
  | .remembered t requestId => some (some (t, requestId))
  | .receipt _ _ => some none
  | _ => none

/-- The request that has been remembered and has no receipt yet. -/
def openRequest (log : List (Event T)) : Option (T × String) := latest newsOfRequest none log

/-- The request that an event carries out: a write, or the receipt. -/
def carriesOut : Event T → Option String
  | .wrote _ _ _ _ _ request => request
  | .receipt _ status => status.requestId
  | _ => none

def VebusReading (q : List (Event T)) (vebusMode : Option ℤ) : Prop :=
  vebusMode = none ∨ ∃ t service raw, .read t service "/Mode" raw ∈ q ∧ vebusMode = raw.bind intOfText

/-- The observation is made of replies that are among the events `q`. -/
def Readings (q : List (Event T)) (mode : EssMode) : Prop :=
  ∃ t hub4 bl vebusMode, .read t settingsService hub4ModePath hub4 ∈ q ∧
    .read t settingsService batteryLifePath bl ∈ q ∧ VebusReading q vebusMode ∧
    mode = observation (hub4.bind intOfText) (bl.bind intOfText) vebusMode

/-- The observation was read after every write of every selection that was over. -/
def Current (log : List (Event T)) (mode : EssMode) : Prop :=
  ∃ p q, log = p ++ q ∧ Readings q mode ∧ q.Pairwise fun e f => ¬ Finishes e f

/-- The observation was read after every write. -/
def Fresh (log : List (Event T)) (mode : EssMode) : Prop :=
  ∃ p q, log = p ++ q ∧ Readings q mode ∧ ∀ e ∈ q, writer e = none

/-- At one moment the observation was current and the status was that of the last receipt. -/
def Paired (log : List (Event T)) (mode : EssMode) (status : Status) : Prop :=
  ∃ a c, log = a ++ c ∧ Current a mode ∧ lastReceipt a = status

/-- What is asked of every event, by the events before it. -/
def Sound (dryRun : Bool) (a : List (Event T)) : Event T → Prop
  | .loaded _ mode => Current a mode
  | .published _ mode status => Paired a mode status
  | .remembered _ requestId => requestId ∉ lastN 128 (requests a)
  | .wrote t _ _ _ _ request => ∀ requestId, request = some requestId →
      latest newsOfDryRun dryRun a = false ∧ openRequest a = some (t, requestId)
  | .receipt t status => ∀ requestId, status.requestId = some requestId →
      openRequest a = some (t, requestId)
  | _ => True

/-! ### The rules -/

/-- A cached observation: what was written since it was read was written by the holder of the lock. -/
def Coherent (s : State T) (mode : EssMode) : Prop :=
  ∃ p q, s.log = p ++ q ∧ Readings q mode ∧ (q.Pairwise fun e f => ¬ Finishes e f) ∧
    ∀ e ∈ q, ∀ t, writer e = some t → 0 < Lock.depth t (s.locks .selection)

structure Inv (dryRun : Bool) (s : State T) : Prop where
  coherent : ∀ mode, s.cache = some mode → Coherent s mode
  sound : Each (Sound dryRun) s.log
  status : s.status = lastReceipt s.log
  seen : s.seen = lastN 128 (requests s.log)
  dryRun : s.dryRun = latest newsOfDryRun dryRun s.log

structure Rely (t : T) (s s' : State T) : Prop where
  locks : ∀ name, Lock.depth t (s'.locks name) = Lock.depth t (s.locks name)
  log : ∃ c, s'.log = s.log ++ c ∧
    (0 < Lock.depth t (s.locks .selection) → ∀ e ∈ c, writer e = none)
  selection : 0 < Lock.depth t (s.locks .selection) → s'.cache = s.cache
  receipts : 0 < Lock.depth t (s.locks .receipts) → s'.seen = s.seen ∧ s'.status = s.status ∧
    openRequest s'.log = openRequest s.log
  watchdog : 0 < Lock.depth t (s.locks .watchdog) → s'.dryRun = s.dryRun

/-- The thread has no lock. -/
def Rest (t : T) (s : State T) : Prop := ∀ name, Lock.depth t (s.locks name) = 0

theorem Rely.refl (t : T) (s : State T) : Rely t s s :=
  ⟨fun _ => rfl, ⟨[], by simp, by simp⟩, fun _ => rfl, fun _ => ⟨rfl, rfl, rfl⟩, fun _ => rfl⟩

theorem Rely.trans {t : T} {s s' s'' : State T} (h : Rely t s s') (h' : Rely t s' s'') :
    Rely t s s'' := by
  obtain ⟨c, hlog, hc⟩ := h.log
  obtain ⟨c', hlog', hc'⟩ := h'.log
  have hlocks := h'.locks
  simp only [h.locks] at hlocks hc'
  refine ⟨fun name => hlocks name, ⟨c ++ c', by simp [hlog', hlog], fun hd e he => ?_⟩,
    fun hd => ?_, fun hd => ?_, fun hd => ?_⟩
  · rcases List.mem_append.mp he with he | he
    · exact hc hd e he
    · exact hc' hd e he
  · rw [h'.selection (by rwa [h.locks]), h.selection hd]
  · have h1 := h.receipts hd
    have h2 := h'.receipts (by rwa [h.locks])
    exact ⟨h2.1.trans h1.1, h2.2.1.trans h1.2.1, h2.2.2.trans h1.2.2⟩
  · rw [h'.watchdog (by rwa [h.locks]), h.watchdog hd]

def discipline (dryRun : Bool) : Discipline T (State T) where
  inv := Inv dryRun
  rely := Rely
  rest := Rest
  refl := Rely.refl
  trans _ _ _ _ h h' := h.trans h'
  stable _ _ _ h hrely := fun name => (hrely.locks name).trans (h name)

/-- When a thread may make a call. -/
def Allowed (t : T) (s : State T) : Op → Prop
  | .release .selection => ∀ mode, s.cache = some mode → Fresh s.log mode
  | .dbusSet _ _ _ request => 0 < Lock.depth t (s.locks .selection) ∧
      ∀ requestId, request = some requestId → s.dryRun = false ∧ openRequest s.log = some (t, requestId)
  | .storeCache mode _ => 0 < Lock.depth t (s.locks .selection) ∧
      ∀ m, mode = some m → Fresh s.log m
  | .remember requestId => 0 < Lock.depth t (s.locks .receipts) ∧ requestId ∉ s.seen
  | .setStatus status => 0 < Lock.depth t (s.locks .receipts) ∧ Lock.depth t (s.locks .selection) = 0 ∧
      ∀ requestId, status.requestId = some requestId → openRequest s.log = some (t, requestId)
  | .setDryRun _ => 0 < Lock.depth t (s.locks .watchdog)
  | .publish mode status => Paired s.log mode status
  | _ => True

end InverterControl.Ess.Shared
