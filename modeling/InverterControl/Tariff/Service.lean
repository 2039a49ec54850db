import InverterControl.Lib.Runs
import InverterControl.Tariff.Normal

/-!
# Editing the tariff

`TariffService` of `tariff_service.py`.  A call of `apply` holds the write lock, so calls follow one
another; between the replacement of the file and the new plan a snapshot may be taken (`seen`).  The
key lemma is `committed_cases`, which says what a call commits; `edits_compare_and_swap` states it
for every call of every run.
-/

namespace InverterControl.Tariff.Service

open InverterControl.Lib.Checks InverterControl.Lib.Json InverterControl.Lib.Runs
open InverterControl.Tariff.Model InverterControl.Tariff.Normal

variable {F : Type} (P : Platform F)

/-! ### The service -/

structure TariffService where
  plan : Option (Plan P)
  revision : String
  requestId : Option String := none
  error : Option String := none
  /-- The file at the service's path. -/
  file : Option (List Char)
  deriving DecidableEq

variable {P}

/-- `__init__` -/
def TariffService.init (plan : Option (Plan P)) (file : Option (List Char)) : TariffService P where
  plan := plan
  revision := Model.revision plan
  file := file

variable (P)

/-- `[A-Za-z0-9_.:-]{1,128}` -/
def isRequestId (s : String) : Bool :=
  1 ≤ s.length ∧ s.length ≤ 128 ∧
    s.toList.all fun c => (c.isAlphanum : Bool) ∨ c = '_' ∨ c = '.' ∨ c = ':' ∨ c = '-'

/-- `[a-f0-9]{64}` -/
def isRevision (s : String) : Bool :=
  s.length = 64 ∧ s.toList.all fun c => (c.isDigit : Bool) ∨ ('a'.toNat ≤ c.toNat ∧ c.toNat ≤ 'f'.toNat)

/-- The request of a payload, where it has a proper one. -/
def requestIdOf : Value F → Option String
  | .obj ms =>
    match field ms "request_id" with
    | .str s => if isRequestId s then some s else none
    | _ => none
  | _ => none

/-- `set(payload) == {"request_id", "revision", "plan"}` -/
def hasKeys (ms : List (String × Value F)) : Bool :=
  (ms.all fun m => m.1 = "request_id" ∨ m.1 = "revision" ∨ m.1 = "plan") ∧
    (item ms "request_id").isSome ∧ (item ms "revision").isSome ∧ (item ms "plan").isSome

/-- The revision of a payload. -/
def tokenOf : Value F → Except String String
  | .str s => if isRevision s then .ok s else .error "Invalid tariff revision"
  | _ => .error "Invalid tariff revision"

/-- What a payload asks for. -/
structure Edit where
  requestId : String
  token : String
  plan : Option (Plan P)
  deriving DecidableEq

def keysError : String := "Expected request_id, revision and plan"

/-- `len(text.encode())` -/
def byteLength (text : List Char) : ℕ := (text.map Char.utf8Size).sum

/-- The checks of `apply` that do not look at the service. -/
def readPayload (payload : Value F) : Except String (Edit P) :=
  match payload, requestIdOf payload with
  | .obj ms, some requestId => do
    let _ ← check (hasKeys ms = true) keysError
    let _ ← check ((floats payload).all P.isfinite = true)
      "Out of range float values are not JSON compliant"
    let _ ← check (byteLength (dump (compact false) P.floatText payload 0) ≤ maxBytes)
      "Tariff command exceeds 100 KB"
    let token ← tokenOf (field ms "revision")
    let plan ← planOf P (field ms "plan")
    .ok ⟨requestId, token, plan⟩
  | _, _ => .error keysError

variable {P}

/-- A call: its payload, and the error of the file system, if there is one. -/
structure Delivery (F : Type) where
  payload : Value F
  failure : Option String := none

def changedError : String := "The controller tariff changed. Reload it before saving again."

/-- The service after the part of `apply` that can fail, and the edit: the file is written only where the
payload has the current revision. -/
def committed (s : TariffService P) (x : Delivery F) : Except String (Edit P × TariffService P) := do
  let e ← readPayload P x.payload
  let _ ← check (¬ (e.token ≠ s.revision ∧ revision e.plan ≠ s.revision)) changedError
  if e.token = s.revision then
    writeTariff P (planValue e.plan) x.failure >>= fun content =>
      .ok (e, { s with file := some content })
  else .ok (e, s)

/-- `apply` -/
def apply (s : TariffService P) (x : Delivery F) : TariffService P :=
  match committed s x with
  | .ok (e, s') =>
    { s' with plan := e.plan, revision := revision e.plan, requestId := some e.requestId, error := none }
  | .error message => { s with requestId := requestIdOf x.payload, error := some message }

/-- The states that a snapshot can see during a call: before it, after the file was replaced, and at the
end. -/
def seen (s : TariffService P) (x : Delivery F) : List (TariffService P) :=
  match committed s x with
  | .ok (_, s') => [s, s', apply s x]
  | .error _ => [s, apply s x]

/-! ### One call -/

variable {s : TariffService P} {x : Delivery F}

/-- The file holds the plan. -/
def Saved (s : TariffService P) : Prop :=
  ∃ content, s.file = some content ∧ readTariff P content = some s.plan

/-- A plan and its own revision. -/
def Coherent (s : TariffService P) : Prop := s.revision = revision s.plan

/-- The call has the current revision, and succeeds. -/
def Commits (s : TariffService P) (x : Delivery F) : Prop :=
  ∃ e, readPayload P x.payload = .ok e ∧ e.token = s.revision ∧ (apply s x).error = none

theorem writeTariff_ok {plan : Option (Plan P)} {failure : Option String} {text : List Char}
    (h : writeTariff P (planValue plan) failure = .ok text) :
    failure = none ∧ text = content plan ∧ (content plan).length ≤ maxBytes := by
  obtain ⟨text', htext, h⟩ := bind_eq_ok.mp h
  cases failure with
  | some e => exact nomatch h
  | none =>
    obtain rfl := Except.ok.inj h
    rw [serializedTariff_planValue] at htext
    split at htext
    · next hlen => exact ⟨rfl, (Except.ok.inj htext).symm, hlen⟩
    · exact nomatch htext

/-- **What a call commits**: with the current revision the plan, which is written; otherwise nothing
new. -/
theorem committed_cases {e : Edit P} {s' : TariffService P} (h : committed s x = .ok (e, s')) :
    readPayload P x.payload = .ok e ∧
    ((e.token = s.revision ∧ s' = { s with file := some (content e.plan) } ∧
        (content e.plan).length ≤ maxBytes) ∨
      (e.token ≠ s.revision ∧ revision e.plan = s.revision ∧ s' = s)) := by
  obtain ⟨e', he, h⟩ := bind_eq_ok.mp h
  obtain ⟨_, hcheck, h⟩ := bind_eq_ok.mp h
  have hstale := check_eq_ok.mp hcheck
  by_cases htoken : e'.token = s.revision
  · rw [if_pos htoken] at h
    obtain ⟨text, htext, h⟩ := bind_eq_ok.mp h
    obtain ⟨rfl, rfl⟩ := Prod.mk.inj (Except.ok.inj h)
    obtain ⟨-, rfl, hlen⟩ := writeTariff_ok htext
    exact ⟨he, Or.inl ⟨htoken, rfl, hlen⟩⟩
  · rw [if_neg htoken] at h
    obtain ⟨rfl, rfl⟩ := Prod.mk.inj (Except.ok.inj h)
    have hsame : revision e'.plan = s.revision := by
      by_contra hne
      exact hstale ⟨htoken, hne⟩
    exact ⟨he, Or.inr ⟨htoken, hsame, rfl⟩⟩

theorem apply_ok {e : Edit P} {s' : TariffService P} (h : committed s x = .ok (e, s')) :
    apply s x = { s' with plan := e.plan, revision := revision e.plan, requestId := some e.requestId,
                          error := none } := by
  rw [apply, h]

theorem apply_error {message : String} (h : committed s x = .error message) :
    apply s x = { s with requestId := requestIdOf x.payload, error := some message } := by
  rw [apply, h]

/-- A call succeeds when it commits, and only then. -/
theorem apply_error_none : (apply s x).error = none ↔ ∃ e s', committed s x = .ok (e, s') := by
  cases h : committed s x with
  | ok r =>
    obtain ⟨e, s'⟩ := r
    rw [apply_ok h]
    exact ⟨fun _ => ⟨e, s', rfl⟩, fun _ => rfl⟩
  | error message =>
    rw [apply_error h]
    exact ⟨fun hc => (nomatch hc), fun ⟨_, _, hc⟩ => (nomatch hc)⟩

/-- A call that fails changes the request and the error only. -/
theorem apply_failed (h : (apply s x).error ≠ none) :
    (apply s x).plan = s.plan ∧ (apply s x).revision = s.revision ∧ (apply s x).file = s.file := by
  cases hc : committed s x with
  | ok r =>
    obtain ⟨e, s'⟩ := r
    rw [apply_ok hc] at h
    exact absurd rfl h
  | error message =>
    rw [apply_error hc]
    exact ⟨rfl, rfl, rfl⟩

theorem coherent_apply (h : Coherent s) (x : Delivery F) : Coherent (apply s x) := by
  cases hc : committed s x with
  | ok r =>
    obtain ⟨e, s'⟩ := r
    rw [apply_ok hc]
    rfl
  | error message =>
    rw [apply_error hc]
    exact h

/-- Every snapshot that is taken during a call is coherent. -/
theorem coherent_seen (h : Coherent s) : ∀ t ∈ seen s x, Coherent t := by
  have hlast := coherent_apply h x
  unfold seen
  cases hc : committed s x with
  | error message =>
    simp only [List.forall_mem_cons, List.not_mem_nil, false_imp_iff, implies_true, and_true]
    exact ⟨h, hlast⟩
  | ok r =>
    obtain ⟨e, s'⟩ := r
    have hmiddle : Coherent s' := by
      obtain ⟨-, ⟨-, rfl, -⟩ | ⟨-, -, rfl⟩⟩ := committed_cases hc
      · exact h
      · exact h
    simp only [List.forall_mem_cons, List.not_mem_nil, false_imp_iff, implies_true, and_true]
    exact ⟨h, hmiddle, hlast⟩

/-- A call that commits leaves the plan in the file, and no other call changes either of them, as long as
two plans with one revision are one plan. -/
theorem apply_swaps (hexact : ExactFloats P) (hs : Coherent s)
    (hno : ∀ e, readPayload P x.payload = .ok e → revision e.plan = revision s.plan → e.plan = s.plan) :
    (Commits s x ∧ Saved (apply s x)) ∨
      (¬ Commits s x ∧ (apply s x).plan = s.plan ∧ (apply s x).file = s.file) := by
  cases hc : committed s x with
  | error message =>
    right
    rw [apply_error hc]
    refine ⟨?_, rfl, rfl⟩
    rintro ⟨e, -, -, herror⟩
    rw [apply_error hc] at herror
    exact nomatch herror
  | ok r =>
    obtain ⟨e, s'⟩ := r
    obtain ⟨he, ⟨htoken, rfl, hlen⟩ | ⟨htoken, hsame, rfl⟩⟩ := committed_cases hc
    · left
      refine ⟨⟨e, he, htoken, apply_error_none.mpr ⟨e, _, hc⟩⟩, ?_⟩
      rw [apply_ok hc]
      exact ⟨content e.plan, rfl, readTariff_content hexact hlen⟩
    · right
      refine ⟨?_, ?_, ?_⟩
      · rintro ⟨e', he', htoken', -⟩
        obtain rfl := Except.ok.inj (he.symm.trans he')
        exact htoken htoken'
      · rw [apply_ok hc]
        exact hno e he (hsame.trans hs)
      · rw [apply_ok hc]

/-- A payload that succeeds has the current revision, or asks for the plan that is there. -/
theorem apply_succeeds (hs : Coherent s)
    (hno : ∀ e, readPayload P x.payload = .ok e → revision e.plan = revision s.plan → e.plan = s.plan)
    {e : Edit P} (he : readPayload P x.payload = .ok e) (h : (apply s x).error = none) :
    (apply s x).plan = e.plan ∧ (e.token = s.revision ∨ e.plan = s.plan) := by
  obtain ⟨e', s', hc⟩ := apply_error_none.mp h
  obtain ⟨he', hcases⟩ := committed_cases hc
  obtain rfl := Except.ok.inj (he.symm.trans he')
  refine ⟨by rw [apply_ok hc], ?_⟩
  rcases hcases with ⟨htoken, -, -⟩ | ⟨-, hsame, -⟩
  · exact Or.inl htoken
  · exact Or.inr (hno e he (hsame.trans hs))

/-- The plan that is there, asked for with a revision that is no longer current: nothing is written. -/
theorem apply_redelivered (hs : Coherent s) {e : Edit P} (he : readPayload P x.payload = .ok e)
    (hplan : e.plan = s.plan) : (apply s x).plan = s.plan ∧ (apply s x).revision = s.revision ∧
      (e.token ≠ s.revision → (apply s x).error = none ∧ (apply s x).file = s.file) := by
  have hrevision : revision e.plan = s.revision := by rw [hplan, hs]
  by_cases htoken : e.token = s.revision
  · refine ⟨?_, ?_, fun hne => absurd htoken hne⟩
    · cases hc : committed s x with
      | error message => rw [apply_error hc]
      | ok r =>
        obtain ⟨e', s'⟩ := r
        obtain rfl := Except.ok.inj (he.symm.trans (committed_cases hc).1)
        rw [apply_ok hc]
        exact hplan
    · cases hc : committed s x with
      | error message => rw [apply_error hc]
      | ok r =>
        obtain ⟨e', s'⟩ := r
        obtain rfl := Except.ok.inj (he.symm.trans (committed_cases hc).1)
        rw [apply_ok hc]
        exact hrevision
  · have hc : committed s x = .ok (e, s) := by
      refine bind_eq_ok.mpr ⟨e, he, bind_eq_ok.mpr ⟨⟨⟩, check_eq_ok.mpr ?_, if_neg htoken⟩⟩
      exact fun hstale => hstale.2 hrevision
    rw [apply_ok hc]
    exact ⟨hplan, hrevision, fun _ => ⟨rfl, rfl⟩⟩

/-! ### A run -/

/-- The plans that occur in a run: the first one, and those of the payloads. -/
def Occurs (plan : Option (Plan P)) (xs : List (Delivery F)) (q : Option (Plan P)) : Prop :=
  q = plan ∨ ∃ x ∈ xs, ∃ e, readPayload P x.payload = .ok e ∧ e.plan = q

/-- No two texts that are hashed in the run have one hash. -/
def NoCollision (plan : Option (Plan P)) (xs : List (Delivery F)) : Prop :=
  ∀ p q, Occurs plan xs p → Occurs plan xs q → P.sha256 (canonical p) = P.sha256 (canonical q) →
    canonical p = canonical q

variable {plan : Option (Plan P)} {file : Option (List Char)} {xs : List (Delivery F)}

theorem coherent_exec (plan : Option (Plan P)) (file : Option (List Char)) (xs : List (Delivery F)) :
    Coherent (exec apply (TariffService.init plan file) xs) :=
  exec_invariant (P := Coherent) rfl fun x _ h => coherent_apply h x.input

/-- The plan of every state occurs in the run. -/
theorem occurs_exec (plan : Option (Plan P)) (file : Option (List Char)) (xs : List (Delivery F)) :
    Occurs plan xs (exec apply (TariffService.init plan file) xs).plan := by
  refine exec_invariant (P := fun t : TariffService P => Occurs plan xs t.plan) (Or.inl rfl)
    fun x hx h => ?_
  obtain ⟨a, b, hxs, -⟩ := (mem_trace _).mp hx
  cases hc : committed x.before x.input with
  | error message =>
    rw [apply_error hc]
    exact h
  | ok r =>
    obtain ⟨e, s'⟩ := r
    rw [apply_ok hc]
    exact Or.inr ⟨x.input, by simp [hxs], e, (committed_cases hc).1, rfl⟩

theorem Occurs.append {a b : List (Delivery F)} {q : Option (Plan P)} (h : Occurs plan a q) :
    Occurs plan (a ++ b) q := by
  rcases h with h | ⟨x, hx, h⟩
  · exact Or.inl h
  · exact Or.inr ⟨x, List.mem_append_left b hx, h⟩

/-- In a run without collisions one revision is one plan. -/
theorem no_collision (hexact : ExactFloats P) (hno : NoCollision plan xs)
    {x : Lib.Runs.Taken (TariffService P) (Delivery F)}
    (hx : x ∈ trace apply (TariffService.init plan file) xs) :
    Coherent x.before ∧ ∀ e, readPayload P x.input.payload = .ok e →
      revision e.plan = revision x.before.plan → e.plan = x.before.plan := by
  obtain ⟨a, b, rfl, hbefore⟩ := (mem_trace _).mp hx
  rw [hbefore]
  refine ⟨coherent_exec plan file a, fun e he hsame => ?_⟩
  have hnew : Occurs plan (a ++ x.input :: b) e.plan := Or.inr ⟨x.input, by simp, e, he, rfl⟩
  exact canonical_injective hexact (hno _ _ hnew (occurs_exec plan file a).append hsame)

/-- **Once a call has committed its plan, the file holds the plan.** -/
theorem saved_exec (hexact : ExactFloats P) (hno : NoCollision plan xs)
    (h : ∃ x ∈ trace apply (TariffService.init plan file) xs, Commits x.before x.input) :
    Saved (exec apply (TariffService.init plan file) xs) := by
  induction xs using List.reverseRecOn with
  | nil =>
    obtain ⟨x, hx, -⟩ := h
    exact absurd hx List.not_mem_nil
  | append_singleton xs y ih =>
    have hlast : (⟨exec apply (TariffService.init plan file) xs, y⟩ : Lib.Runs.Taken _ _) ∈
        trace apply (TariffService.init plan file) (xs ++ [y]) := by
      rw [trace_snoc]
      exact List.mem_append_right _ (List.mem_singleton.mpr rfl)
    obtain ⟨hs, hone⟩ := no_collision hexact hno hlast
    rw [exec_snoc]
    rcases apply_swaps hexact hs hone with ⟨-, hsaved⟩ | ⟨hnot, hplan, hfile⟩
    · exact hsaved
    · -- an earlier call has committed, and this one changed nothing
      have hearlier : ∃ x ∈ trace apply (TariffService.init plan file) xs, Commits x.before x.input := by
        obtain ⟨x, hx, hcommits⟩ := h
        rw [trace_snoc] at hx
        rcases List.mem_append.mp hx with hx | hx
        · exact ⟨x, hx, hcommits⟩
        · obtain rfl := List.mem_singleton.mp hx
          exact absurd hcommits hnot
      have hno' : NoCollision plan xs := fun p q hp hq => hno p q hp.append hq.append
      obtain ⟨text, htext, hread⟩ := ih hno' hearlier
      refine ⟨text, hfile.trans htext, ?_⟩
      rw [hread]
      exact congrArg some hplan.symm

/-- What every call keeps. -/
structure Swaps (s : TariffService P) (x : Delivery F) : Prop where
  /-- The plan and the file change only in a call that has the current revision and succeeds. -/
  changes : (apply s x).plan ≠ s.plan ∨ (apply s x).file ≠ s.file → Commits s x
  /-- A success has the current revision, or asks for the plan that is there. -/
  succeeds : ∀ e, readPayload P x.payload = .ok e → (apply s x).error = none →
    (apply s x).plan = e.plan ∧ (e.token = s.revision ∨ e.plan = s.plan)
  /-- A failure sets the request and the error only. -/
  fails : (apply s x).error ≠ none →
    (apply s x).plan = s.plan ∧ (apply s x).revision = s.revision ∧ (apply s x).file = s.file
  /-- The plan that is there is not changed by asking for it again, nor written where the revision is no
  longer current. -/
  redelivered : ∀ e, readPayload P x.payload = .ok e → e.plan = s.plan →
    (apply s x).plan = s.plan ∧ (apply s x).revision = s.revision ∧
      (e.token ≠ s.revision → (apply s x).error = none ∧ (apply s x).file = s.file)
  /-- After a commit the file holds the plan. -/
  saved : Commits s x → Saved (apply s x)
  /-- Every snapshot pairs a plan with its own revision. -/
  snapshots : ∀ t ∈ seen s x, t.revision = revision t.plan

/-- **Edits are compare-and-swap**, in every run without a hash collision. -/
theorem edits_compare_and_swap (hexact : ExactFloats P) (hno : NoCollision plan xs) :
    (∀ x ∈ trace apply (TariffService.init plan file) xs, Swaps x.before x.input) ∧
    (∀ a x b y c ex ey, xs = a ++ x :: (b ++ y :: c) →
      readPayload P x.payload = .ok ex → readPayload P y.payload = .ok ey → ex.token = ey.token →
      (apply (exec apply (TariffService.init plan file) a) x).error = none →
      (apply (exec apply (TariffService.init plan file) (a ++ x :: b)) y).error = none →
      ex.plan = ey.plan ∨
        (exec apply (TariffService.init plan file) (a ++ x :: b)).revision = ex.token ∨
        (exec apply (TariffService.init plan file) (a ++ x :: b)).plan = ey.plan) ∧
    ((∃ x ∈ trace apply (TariffService.init plan file) xs, Commits x.before x.input) →
      ∃ text p, (exec apply (TariffService.init plan file) xs).file = some text ∧
        readTariff P text = some p ∧ p = (exec apply (TariffService.init plan file) xs).plan ∧
        (TariffService.init p (some text)).revision =
          (exec apply (TariffService.init plan file) xs).revision) := by
  refine ⟨fun x hx => ?_, ?_, fun h => ?_⟩
  · obtain ⟨hs, hone⟩ := no_collision hexact hno hx
    have hswaps := apply_swaps hexact hs hone
    constructor
    · rintro hchange
      rcases hswaps with ⟨hcommits, -⟩ | ⟨-, hplan, hfile⟩
      · exact hcommits
      · exact absurd hchange (not_or.mpr ⟨not_not.mpr hplan, not_not.mpr hfile⟩)
    · exact fun e he herror => apply_succeeds hs hone he herror
    · exact apply_failed
    · exact fun e he hplan => apply_redelivered hs he hplan
    · intro hcommits
      rcases hswaps with ⟨-, hsaved⟩ | ⟨hnot, -⟩
      · exact hsaved
      · exact absurd hcommits hnot
    · exact coherent_seen hs
  · rintro a x b y c ex ey rfl - hey htoken - hy
    have hmem : (⟨exec apply (TariffService.init plan file) (a ++ x :: b), y⟩ : Lib.Runs.Taken _ _) ∈
        trace apply (TariffService.init plan file) (a ++ x :: (b ++ y :: c)) :=
      (mem_trace _).mpr ⟨a ++ x :: b, c, by simp, rfl⟩
    obtain ⟨hs, hone⟩ := no_collision hexact hno hmem
    rcases (apply_succeeds hs hone hey hy).2 with hcurrent | hplan
    · exact Or.inr (Or.inl (hcurrent.symm.trans htoken.symm))
    · exact Or.inr (Or.inr hplan.symm)
  · obtain ⟨text, htext, hread⟩ : Saved (exec apply (TariffService.init plan file) xs) :=
      saved_exec hexact hno h
    exact ⟨text, _, htext, hread, rfl, (coherent_exec plan file xs).symm⟩

/-! A flat price of 0.25 on a platform with one floating-point number, one time zone and the hashes
of two texts. -/

def nullRevision : String := "74234e98afe7498fb5daf1f36ac2d78acc339464f950703b8c019892f982b90b"

def flatRevision : String := "9903dcb09f539039d020a732928ea9030c44e2a678da099314dcf2104069aa76"

def flatPlatform : Platform Unit where
  floatText :=
    { text := fun _ => ['0', '.', '2', '5']
      parse := fun cs => if cs = ['0', '.', '2', '5'] then some () else none }
  isfinite := fun _ => true
  zoneInfo := fun key => key = "UTC"
  decimal := fun c =>
    if h : c.isDigit = true ∧ c.toNat - '0'.toNat < 10 then some ⟨c.toNat - '0'.toNat, h.2⟩ else none
  sha256 := fun text => if text = ['n', 'u', 'l', 'l'] then nullRevision else flatRevision

def flatValue : Value Unit :=
  .obj [("version", .int 2), ("name", .str "Flat"), ("currency", .str "USD"), ("timeZone", .str "UTC"),
    ("source", .str "manual"), ("rates", .arr (List.replicate 48 (.arr (List.replicate 7 (.float ()))))),
    ("seasons", .arr [])]

/-- An edit of a tariff that has that revision. -/
def edit (revision : String) (plan : Value Unit) : Delivery Unit :=
  ⟨.obj [("request_id", .str "edit"), ("revision", .str revision), ("plan", plan)], none⟩

/-- The flat price is set, set once more by a redelivery, and given up. -/
def edits : List (Delivery Unit) :=
    [edit nullRevision flatValue, edit nullRevision flatValue, edit flatRevision .null]

def noTariff : TariffService flatPlatform := TariffService.init none none

theorem flatPlatform_exactFloats : ExactFloats flatPlatform := by
  rintro ⟨⟩ -
  constructor
  · exact List.all_eq_true.mp rfl
  · exact ⟨'.', by decide⟩
  · rfl

/-- What an edit asks for is no tariff or the flat one, and their texts have different hashes. -/
theorem edits_plans : ∀ x ∈ edits, ∀ e, readPayload flatPlatform x.payload = .ok e → e.plan = none ∨
    (readPayload flatPlatform (edit nullRevision flatValue).payload).toOption.map Edit.plan =
      some e.plan ∧ flatPlatform.sha256 (canonical e.plan) = flatRevision := by
  have hflat : ((readPayload flatPlatform (edit nullRevision flatValue).payload).toOption.map fun e =>
      flatPlatform.sha256 (canonical e.plan)) = some flatRevision := by
    decide +kernel
  have hnull : ((readPayload flatPlatform (edit flatRevision .null).payload).toOption.map Edit.plan) =
      some none := by
    decide +kernel
  intro x hx e he
  simp only [edits, List.mem_cons, List.not_mem_nil, or_false, or_self_left] at hx
  rcases hx with rfl | rfl
  · rw [he] at hflat ⊢
    exact Or.inr ⟨rfl, Option.some.inj hflat⟩
  · rw [he] at hnull
    exact Or.inl (Option.some.inj hnull)

theorem edits_noCollision : NoCollision (P := flatPlatform) none edits := by
  have hnull : flatPlatform.sha256 (canonical (P := flatPlatform) none) = nullRevision := by
    decide +kernel
  have hne : nullRevision ≠ flatRevision := by decide
  have hoccurs : ∀ q, Occurs (P := flatPlatform) none edits q → q = none ∨
      (readPayload flatPlatform (edit nullRevision flatValue).payload).toOption.map Edit.plan = some q ∧
        flatPlatform.sha256 (canonical q) = flatRevision := by
    rintro q (rfl | ⟨x, hx, e, he, rfl⟩)
    · exact Or.inl rfl
    · exact edits_plans x hx e he
  intro p q hp hq hsame
  rcases hoccurs p hp with rfl | ⟨hp, hphash⟩
  · rcases hoccurs q hq with rfl | ⟨-, hqhash⟩
    · rfl
    · exact absurd (hnull.symm.trans (hsame.trans hqhash)) hne
  · rcases hoccurs q hq with rfl | ⟨hq, -⟩
    · exact absurd (hnull.symm.trans (hsame.symm.trans hphash)) hne
    · obtain rfl := Option.some.inj (hp.symm.trans hq)
      rfl

/-- The redelivery writes nothing, and the file has the last of the two plans that were committed. -/
theorem edits_compare_and_swap_flat :
    (exec apply noTariff (edits.take 1)).revision = flatRevision ∧
    (exec apply noTariff (edits.take 2)).file = (exec apply noTariff (edits.take 1)).file ∧
    (exec apply noTariff edits).revision = nullRevision ∧
    ∃ text p, (exec apply noTariff edits).file = some text ∧ readTariff flatPlatform text = some p ∧
      p = (exec apply noTariff edits).plan ∧
      (TariffService.init p (some text)).revision = (exec apply noTariff edits).revision := by
  obtain ⟨hcalls, -, hstored⟩ :=
    @edits_compare_and_swap _ flatPlatform none none edits flatPlatform_exactFloats edits_noCollision
  have hread : ∃ e, readPayload flatPlatform (edit nullRevision flatValue).payload = .ok e ∧
      e.token = nullRevision ∧ (exec apply noTariff (edits.take 1)).plan = e.plan := by
    have hread : ((readPayload flatPlatform (edit nullRevision flatValue).payload).toOption.map fun e =>
        (e.token, decide ((exec apply noTariff (edits.take 1)).plan = e.plan))) =
          some (nullRevision, true) := by
      decide +kernel
    cases h : readPayload flatPlatform (edit nullRevision flatValue).payload with
    | error message =>
      rw [h] at hread
      exact nomatch hread
    | ok e =>
      rw [h] at hread
      obtain ⟨htoken, hplan⟩ := Prod.mk.inj (Option.some.inj hread)
      exact ⟨e, rfl, htoken, of_decide_eq_true hplan⟩
  obtain ⟨e, he, htoken, hplan⟩ := hread
  have hfirst : (exec apply noTariff (edits.take 1)).revision = flatRevision := by decide +kernel
  refine ⟨hfirst, ?_, by decide +kernel, hstored ?_⟩
  · have hsecond := hcalls ⟨exec apply noTariff (edits.take 1), edit nullRevision flatValue⟩
      ((mem_trace _).mpr ⟨edits.take 1, [edit flatRevision .null], by simp [edits], by rw [noTariff]⟩)
    dsimp only at hsecond
    have hstale : e.token ≠ (exec apply noTariff (edits.take 1)).revision := by
      rw [htoken, hfirst]
      decide
    rw [show edits.take 2 = edits.take 1 ++ [edit nullRevision flatValue] from rfl, exec_snoc]
    exact ((hsecond.redelivered e he hplan.symm).2.2 hstale).2
  · exact ⟨⟨noTariff, edit nullRevision flatValue⟩, (mem_trace _).mpr ⟨[], edits.tail, rfl, rfl⟩,
      e, he, htoken, by decide +kernel⟩

/-- A plan that is there already is written where the revision is current, and that may fail; and after
such an edit one with the same revision changes the plan. -/
theorem edit_repeated :
    (apply noTariff (edit nullRevision .null)).error = none ∧
    (apply (apply noTariff (edit nullRevision .null)) { edit nullRevision .null with
      failure := some "No space left on device" }).error = some "No space left on device" ∧
    (apply (apply noTariff (edit nullRevision .null)) (edit nullRevision flatValue)).error = none ∧
    (apply (apply noTariff (edit nullRevision .null)) (edit nullRevision flatValue)).plan ≠
      (apply noTariff (edit nullRevision .null)).plan := by
  decide +kernel

end InverterControl.Tariff.Service
