import InverterControl.Writes.Model
import Mathlib.Data.List.Pairwise

/-!
# The order of the writes

Messages leave in the order in which the calls get the lock: a message that is overtaken belongs to
a call that was torn out of its wait (`wire_order`).  What has made it so is the deadline: a
coroutine that has not started when its caller gives up does not send any more.  So a call that has
returned sends nothing afterwards, and what it reports as accepted is what the register held at that
moment (`returned_settled`).
-/

namespace InverterControl.Writes.Order

open Lib.Runs Model

/-! ### Definitions -/

def work : Callback → Work
  | .create w => w
  | .step w => w

def createCall : Callback → Option ℕ
  | .create w => some w.call
  | .step _ => none

def stepCall : Callback → Option ℕ
  | .create _ => none
  | .step w => some w.call

def nativeCall (m : Message) : Option ℕ :=
  match m.via with
  | .native => some m.call
  | .cli => none

/-- The calls that have sent on the native connection, those whose task is next, and those whose
coroutine is waiting, in the order of their sending. -/
def line (s : State) : List ℕ :=
  s.wire.filterMap nativeCall ++ (s.ready.filterMap stepCall ++ s.ready.filterMap createCall)

/-- The calls from here on have nothing in the line. -/
def used (s : State) : ℕ :=
  match s.active with
  | some a => if a.phase = .native then a.call else s.calls
  | none => s.calls

/-- The callback would still send. -/
def Live (s : State) (cb : Callback) : Prop := s.now < (work cb).deadline

/-- The caller waits, at least up to the deadline. -/
def Waits (deadline : ℚ) : Phase → Prop
  | .submitted => True
  | .waiting expiry => deadline ≤ expiry
  | _ => False

/-- One message comes after another one. -/
def InOrder (interrupted : List ℕ) (m m' : Message) : Prop :=
  m.call ≤ m'.call ∨ (m'.via = .native ∧ m'.call ∈ interrupted)

/-- A call that is over: what has left since its return belongs to later calls, and what it has
reported as accepted was in the register at its return. -/
structure Settled (wire : List Message) (r : Return) : Prop where
  returned : r.sent ≤ wire.length
  later : ∀ m ∈ wire.drop r.sent, r.call < m.call
  accepted : r.accepted = true →
    register (wire.take r.sent) r.request.service r.request.path = some r.request.value

structure Inv (s : State) : Prop where
  number : ∀ a, s.active = some a → a.call + 1 = s.calls
  line : (line s).Pairwise (· < ·)
  used : ∀ n ∈ Order.line s, n < used s
  results : ∀ n, s.results n ≠ none → n < Order.used s ∧ ∀ cb ∈ s.ready, (work cb).call ≠ n
  deadline : ∀ cb ∈ s.ready, (work cb).deadline ≤ s.now + timeout
  live : ∀ cb ∈ s.ready, Live s cb → (work cb).call ∈ s.interrupted ∨
    ∃ a, s.active = some a ∧ a.call = (work cb).call ∧ Waits (work cb).deadline a.phase
  request : ∀ a, s.active = some a → (∀ cb ∈ s.ready, (work cb).call = a.call →
    (work cb).request = a.request) ∧
    ∀ m ∈ s.wire, m.call = a.call → m.request = a.request
  wire : ∀ m ∈ s.wire, m.call < s.calls
  order : s.wire.Pairwise (InOrder s.interrupted)
  answered : ∀ n body, s.results n = some (some body) → ∃ m ∈ s.wire, m.call = n
  sent : ∀ a, s.active = some a → a.phase = .cli true → ∃ m ∈ s.wire, m.call = a.call
  past : ∀ r ∈ s.returned, r.call < s.calls ∧ ∀ a, s.active = some a → r.call < a.call
  settled : s.interrupted = [] → ∀ r ∈ s.returned, Settled s.wire r

variable {s : State} {a : Active}

/-! ### Small facts -/

theorem used_active (ha : s.active = some a) :
    used s = if a.phase = .native then a.call else s.calls := by
  simp [used, ha]

theorem used_le (h : Inv s) : used s ≤ s.calls := by
  unfold used
  cases ha : s.active with
  | none => exact le_rfl
  | some a =>
    have := h.number a ha
    show (if a.phase = .native then a.call else s.calls) ≤ s.calls
    split_ifs
    · omega
    · omega

theorem mem_line {n : ℕ} : n ∈ line s ↔ (∃ m ∈ s.wire, nativeCall m = some n) ∨
    (∃ cb ∈ s.ready, stepCall cb = some n) ∨ ∃ cb ∈ s.ready, createCall cb = some n := by
  simp [line]

theorem work_mem_line {cb : Callback} (h : cb ∈ s.ready) : (work cb).call ∈ line s := by
  rw [mem_line]
  cases cb with
  | create w => exact Or.inr (Or.inr ⟨_, h, rfl⟩)
  | step w => exact Or.inr (Or.inl ⟨_, h, rfl⟩)

/-- A callback's call has no native message yet. -/
theorem work_not_sent (h : Inv s) {cb : Callback} (hcb : cb ∈ s.ready) {m : Message} (hm : m ∈ s.wire)
    (hvia : m.via = .native) : m.call ≠ (work cb).call := by
  intro heq
  have hmem : m.call ∈ s.wire.filterMap nativeCall :=
    List.mem_filterMap.mpr ⟨m, hm, by simp [nativeCall, hvia]⟩
  have hline := h.line
  rw [line, List.pairwise_append] at hline
  have hcall : (work cb).call ∈ s.ready.filterMap stepCall ++ s.ready.filterMap createCall := by
    cases cb with
    | create w => exact List.mem_append_right _ (List.mem_filterMap.mpr ⟨_, hcb, rfl⟩)
    | step w => exact List.mem_append_left _ (List.mem_filterMap.mpr ⟨_, hcb, rfl⟩)
  have := hline.2.2 _ hmem _ hcall
  omega

theorem settled_append {wire : List Message} {r : Return} (h : Settled wire r) {m : Message}
    (hm : r.call < m.call) : Settled (wire ++ [m]) r := by
  refine ⟨?_, fun m' hm' => ?_, fun haccepted => ?_⟩
  · exact h.returned.trans (by simp)
  · rw [List.drop_append_of_le_length h.returned] at hm'
    rcases List.mem_append.mp hm' with hm' | hm'
    · exact h.later m' hm'
    · rw [List.mem_singleton.mp hm']
      exact hm
  · rw [List.take_append_of_le_length h.returned]
    exact h.accepted haccepted

theorem inOrder_mono {interrupted : List ℕ} {n : ℕ} {m m' : Message} (h : InOrder interrupted m m') :
    InOrder (n :: interrupted) m m' := h.imp id fun h => ⟨h.1, List.mem_cons_of_mem _ h.2⟩

/-! ### Steps of the caller -/

/-- The caller goes on, and nothing that could still send is left behind. -/
theorem inv_setPhase (h : Inv s) (ha : s.active = some a) {phase : Phase} (hphase : phase ≠ .native)
    (hlive : ∀ cb ∈ s.ready, Live s cb → (work cb).call = a.call → (work cb).call ∈ s.interrupted ∨
      Waits (work cb).deadline phase)
    (hsent : phase = .cli true → ∃ m ∈ s.wire, m.call = a.call) : Inv (setPhase s a phase) := by
  have hnumber := h.number a ha
  have hused : used s ≤ used (setPhase s a phase) := by
    have h1 : used (setPhase s a phase) = s.calls := by simp [used, setPhase, hphase]
    rw [h1]
    exact used_le h
  refine ⟨?_, h.line, fun n hn => lt_of_lt_of_le (h.used n hn) hused, fun n hn => ?_, h.deadline,
    ?_, ?_, h.wire, h.order, h.answered, ?_, ?_, h.settled⟩
  · rintro b hb
    obtain rfl : { a with phase := phase } = b := by simpa [setPhase] using hb
    exact hnumber
  · obtain ⟨h1, h2⟩ := h.results n hn
    exact ⟨lt_of_lt_of_le h1 hused, h2⟩
  · intro cb hcb hl
    rcases h.live cb hcb hl with hi | ⟨b, hb, hcall, -⟩
    · exact Or.inl hi
    · obtain rfl : a = b := by simpa [ha] using hb
      rcases hlive cb hcb hl hcall.symm with hi | hw
      · exact Or.inl hi
      · exact Or.inr ⟨_, rfl, hcall, hw⟩
  · rintro b hb
    obtain rfl : { a with phase := phase } = b := by simpa [setPhase] using hb
    exact h.request a ha
  · rintro b hb hcli
    obtain rfl : { a with phase := phase } = b := by simpa [setPhase] using hb
    exact hsent hcli
  · intro r hr
    obtain ⟨h1, h2⟩ := h.past r hr
    refine ⟨h1, fun b hb => ?_⟩
    obtain rfl : { a with phase := phase } = b := by simpa [setPhase] using hb
    exact h2 a ha

/-- While the caller does not wait, only interrupted calls can still send. -/
theorem live_of_not_waits (h : Inv s) (ha : s.active = some a) (hwaits : ∀ d, ¬ Waits d a.phase) :
    ∀ cb ∈ s.ready, Live s cb → (work cb).call ∈ s.interrupted := by
  intro cb hcb hl
  rcases h.live cb hcb hl with hi | ⟨b, hb, -, hw⟩
  · exact hi
  · obtain rfl : a = b := by simpa [ha] using hb
    exact absurd hw (hwaits _)

/-- The last message on the wire is the caller's, when it has sent one and nobody was interrupted. -/
theorem register_of_sent (h : Inv s) (ha : s.active = some a) (hi : s.interrupted = [])
    (hsent : ∃ m ∈ s.wire, m.call = a.call) :
    register s.wire a.request.service a.request.path = some a.request.value := by
  obtain ⟨m, hm, hcall⟩ := hsent
  rcases List.eq_nil_or_concat s.wire with hnil | ⟨w, last, hw⟩
  · rw [hnil] at hm
    cases hm
  · rw [List.concat_eq_append] at hw
    have hlast : last.call = a.call := by
      have h1 : last.call < s.calls := h.wire last (by rw [hw]; simp)
      have h2 : a.call + 1 = s.calls := h.number a ha
      have h3 : a.call ≤ last.call := by
        rw [hw] at hm
        rcases List.mem_append.mp hm with hm | hm
        · have horder := h.order
          rw [hw, List.pairwise_append] at horder
          rcases horder.2.2 m hm last (by simp) with h4 | ⟨-, h4⟩
          · omega
          · rw [hi] at h4
            cases h4
        · rw [← List.mem_singleton.mp hm]
          omega
      omega
    have hrequest : last.request = a.request := (h.request a ha).2 last (by rw [hw]; simp) hlast
    unfold register
    rw [hw, List.filter_append, List.filter_cons_of_pos (by simp [hrequest]), List.filter_nil,
      List.getLast?_append]
    simp [hrequest]

/-- The call returns. -/
theorem inv_finish (h : Inv s) (ha : s.active = some a) (accepted : Bool)
    (hlive : ∀ cb ∈ s.ready, Live s cb → (work cb).call ∈ s.interrupted) (hnative : a.phase ≠ .native)
    (hsent : accepted = true → ∃ m ∈ s.wire, m.call = a.call) : Inv (finish s a accepted) := by
  have hnumber := h.number a ha
  have hused : used s = s.calls := by rw [used_active ha, if_neg hnative]
  have hused' : used (finish s a accepted) = s.calls := rfl
  refine ⟨nofun, h.line, fun n hn => ?_, fun n hn => ?_, h.deadline,
    fun cb hcb hl => Or.inl (hlive cb hcb hl),
    nofun, h.wire, h.order, h.answered, nofun, fun r hr => ⟨?_, nofun⟩, fun hi r hr => ?_⟩
  · rw [hused', ← hused]
    exact h.used n hn
  · rw [hused', ← hused]
    exact h.results n hn
  · rcases List.mem_append.mp hr with hr | hr
    · exact (h.past r hr).1
    · rw [List.mem_singleton.mp hr]
      show a.call < s.calls
      omega
  · rcases List.mem_append.mp hr with hr | hr
    · exact h.settled hi r hr
    · rw [List.mem_singleton.mp hr]
      refine ⟨le_rfl, fun m hm => ?_, fun haccepted => ?_⟩
      · simp [finish] at hm
      · show register (s.wire.take s.wire.length) _ _ = _
        rw [List.take_length]
        exact register_of_sent h ha hi (hsent haccepted)

/-- `run_coroutine_threadsafe` -/
theorem inv_submit (h : Inv s) (ha : s.active = some a) (hphase : a.phase = .native) :
    Inv { setPhase s a .submitted with
      ready := s.ready ++ [.create ⟨a.call, a.request, s.now + timeout⟩] } := by
  have hnumber := h.number a ha
  have hused : used s = a.call := by rw [used_active ha, if_pos hphase]
  have hnew : ∀ n ∈ line s, n < a.call := fun n hn => hused ▸ h.used n hn
  have hused' : used { setPhase s a .submitted with
      ready := s.ready ++ [.create ⟨a.call, a.request, s.now + timeout⟩] } = s.calls := by
    simp [used, setPhase]
  have hline : line { setPhase s a .submitted with
      ready := s.ready ++ [.create ⟨a.call, a.request, s.now + timeout⟩] } = line s ++ [a.call] := by
    simp [line, setPhase, stepCall, createCall]
  have hready : ∀ cb ∈ s.ready ++ [Callback.create ⟨a.call, a.request, s.now + timeout⟩],
      cb ∈ s.ready ∨ cb = .create ⟨a.call, a.request, s.now + timeout⟩ := by
    intro cb hcb
    rcases List.mem_append.mp hcb with hcb | hcb
    · exact Or.inl hcb
    · exact Or.inr (List.mem_singleton.mp hcb)
  refine ⟨?_, ?_, fun n hn => ?_, fun n hn => ⟨?_, fun cb hcb => ?_⟩, fun cb hcb => ?_,
    fun cb hcb hl => ?_, ?_, h.wire, h.order, h.answered, ?_, ?_, h.settled⟩
  · rintro b hb
    obtain rfl : { a with phase := .submitted } = b := by simpa [setPhase] using hb
    exact hnumber
  · rw [hline, List.pairwise_append]
    refine ⟨h.line, List.pairwise_singleton _ _, fun m hm n hn => ?_⟩
    rw [List.mem_singleton.mp hn]
    exact hnew m hm
  · rw [hused']
    rw [hline] at hn
    rcases List.mem_append.mp hn with hn | hn
    · have := hnew n hn
      omega
    · rw [List.mem_singleton.mp hn]
      omega
  · have := (h.results n hn).1
    rw [hused']
    omega
  · rcases hready cb hcb with hcb | rfl
    · exact (h.results n hn).2 cb hcb
    · have := (h.results n hn).1
      show a.call ≠ n
      omega
  · rcases hready cb hcb with hcb | rfl
    · exact h.deadline cb hcb
    · exact le_rfl
  · rcases hready cb hcb with hcb | rfl
    · exact Or.inl (live_of_not_waits h ha (by simp [hphase, Waits]) cb hcb hl)
    · exact Or.inr ⟨_, rfl, rfl, trivial⟩
  · rintro b hb
    obtain rfl : { a with phase := .submitted } = b := by simpa [setPhase] using hb
    refine ⟨fun cb hcb hcall => ?_, (h.request a ha).2⟩
    rcases hready cb hcb with hcb | rfl
    · exact (h.request a ha).1 cb hcb hcall
    · rfl
  · rintro b hb hcli
    obtain rfl : { a with phase := .submitted } = b := by simpa [setPhase] using hb
    cases hcli
  · intro r hr
    obtain ⟨h1, h2⟩ := h.past r hr
    refine ⟨h1, fun b hb => ?_⟩
    obtain rfl : { a with phase := .submitted } = b := by simpa [setPhase] using hb
    exact h2 a ha

theorem inv_interrupt (h : Inv s) (ha : s.active = some a) :
    Inv { s with active := none, interrupted := a.call :: s.interrupted } := by
  have hused : used s ≤ s.calls := used_le h
  refine ⟨nofun, h.line, fun n hn => lt_of_lt_of_le (h.used n hn) hused, fun n hn => ?_, h.deadline,
    fun cb hcb hl => Or.inl ?_, nofun, h.wire, h.order.imp fun hm => inOrder_mono hm, h.answered, nofun,
    fun r hr => ⟨(h.past r hr).1, nofun⟩, fun hi => ?_⟩
  · obtain ⟨h1, h2⟩ := h.results n hn
    exact ⟨lt_of_lt_of_le h1 hused, h2⟩
  · rcases h.live cb hcb hl with hi | ⟨b, hb, hcall, -⟩
    · exact List.mem_cons_of_mem _ hi
    · obtain rfl : a = b := by simpa [ha] using hb
      rw [← hcall]
      exact List.mem_cons_self
  · simp at hi

theorem inv_begin (h : Inv s) (ha : s.active = none) (request : Request) :
    Inv { s with calls := s.calls + 1, active := some ⟨s.calls, request, .native⟩ } := by
  have hused : used s = s.calls := by simp [used, ha]
  refine ⟨?_, h.line, fun n hn => ?_, fun n hn => ?_, h.deadline, fun cb hcb hl => ?_, ?_,
    fun m hm => ?_, h.order, h.answered, ?_, fun r hr => ?_, h.settled⟩
  · rintro b hb
    obtain rfl : ⟨s.calls, request, .native⟩ = b := by simpa using hb
    rfl
  · have := h.used n hn
    rw [hused] at this
    simpa [used] using this
  · obtain ⟨h1, h2⟩ := h.results n hn
    rw [hused] at h1
    exact ⟨by simpa [used] using h1, h2⟩
  · rcases h.live cb hcb hl with hi | ⟨b, hb, -⟩
    · exact Or.inl hi
    · rw [ha] at hb
      cases hb
  · rintro b hb
    obtain rfl : ⟨s.calls, request, .native⟩ = b := by simpa using hb
    refine ⟨fun cb hcb hcall => ?_, fun m hm hcall => ?_⟩
    · have := h.used _ (work_mem_line hcb)
      rw [hused] at this
      have hcall' : (work cb).call = s.calls := hcall
      omega
    · have := h.wire m hm
      have hcall' : m.call = s.calls := hcall
      omega
  · have := h.wire m hm
    show m.call < s.calls + 1
    omega
  · rintro b hb hcli
    obtain rfl : ⟨s.calls, request, .native⟩ = b := by simpa using hb
    cases hcli
  · obtain ⟨h1, -⟩ := h.past r hr
    refine ⟨Nat.lt_succ_of_lt h1, fun b hb => ?_⟩
    obtain rfl : ⟨s.calls, request, .native⟩ = b := by simpa using hb
    exact h1

theorem inv_tick (h : Inv s) (d : ℚ) : Inv { s with now := s.now + max d 0 } := by
  have hd : 0 ≤ max d 0 := le_max_right d 0
  have hlive : ∀ cb, Live { s with now := s.now + max d 0 } cb → Live s cb :=
    fun cb hl => lt_of_le_of_lt (by linarith : s.now ≤ s.now + max d 0) hl
  refine ⟨h.number, h.line, h.used, h.results, fun cb hcb => ?_,
    fun cb hcb hl => h.live cb hcb (hlive cb hl),
    h.request, h.wire, h.order, h.answered, h.sent, h.past, h.settled⟩
  have := h.deadline cb hcb
  show (work cb).deadline ≤ s.now + max d 0 + timeout
  linarith

/-! ### Steps of the loop -/

/-- A message goes out. -/
theorem inv_send (h : Inv s) {call : ℕ} {via : Via} {request : Request} (hcall : call < s.calls)
    (hline : (line (send s call via request)).Pairwise (· < ·))
    (hused : ∀ n ∈ line (send s call via request), n < used s)
    (hrequest : ∀ b, s.active = some b → call = b.call → request = b.request)
    (hwhose : (via = .native ∧ call ∈ s.interrupted) ∨ ∃ b, s.active = some b ∧ b.call = call) :
    Inv (send s call via request) := by
  have hlast : ∀ m ∈ s.wire, InOrder s.interrupted m ⟨call, via, request⟩ := by
    intro m hm
    rcases hwhose with hi | ⟨b, hb, rfl⟩
    · exact Or.inr hi
    · have h1 := h.wire m hm
      have h2 := h.number b hb
      refine Or.inl ?_
      show m.call ≤ b.call
      omega
  refine ⟨h.number, hline, hused, h.results, h.deadline, h.live,
    fun b hb => ⟨(h.request b hb).1, ?_⟩, ?_, ?_, ?_, ?_, h.past, fun hi r hr => ?_⟩
  · intro m hm hm'
    rcases List.mem_append.mp hm with hm | hm
    · exact (h.request b hb).2 m hm hm'
    · rw [List.mem_singleton.mp hm] at hm' ⊢
      exact hrequest b hb hm'
  · intro m hm
    rcases List.mem_append.mp hm with hm | hm
    · exact h.wire m hm
    · rw [List.mem_singleton.mp hm]
      exact hcall
  · show (s.wire ++ [_]).Pairwise (InOrder s.interrupted)
    rw [List.pairwise_append]
    refine ⟨h.order, List.pairwise_singleton _ _, fun m hm m' hm' => ?_⟩
    rw [List.mem_singleton.mp hm']
    exact hlast m hm
  · intro n body hn
    obtain ⟨m, hm, hm'⟩ := h.answered n body hn
    exact ⟨m, List.mem_append_left _ hm, hm'⟩
  · intro b hb hcli
    obtain ⟨m, hm, hm'⟩ := h.sent b hb hcli
    exact ⟨m, List.mem_append_left _ hm, hm'⟩
  · refine settled_append (h.settled hi r hr) ?_
    rcases hwhose with ⟨-, hmem⟩ | ⟨b, hb, rfl⟩
    · have hi' : s.interrupted = [] := hi
      rw [hi'] at hmem
      cases hmem
    · exact (h.past r hr).2 b hb

/-- The queue loses its first callback. -/
theorem inv_pop (h : Inv s) {cb : Callback} {rest : List Callback} (hready : s.ready = cb :: rest) :
    Inv { s with ready := rest } := by
  have hsub : ∀ x ∈ rest, x ∈ s.ready := fun x hx => by
    rw [hready]
    exact List.mem_cons_of_mem _ hx
  have hline : (line { s with ready := rest }).Sublist (line s) := by
    have hrest : rest.Sublist s.ready := by
      rw [hready]
      exact List.sublist_cons_self _ _
    exact List.Sublist.append (List.Sublist.refl _)
      (List.Sublist.append (hrest.filterMap _) (hrest.filterMap _))
  exact ⟨h.number, h.line.sublist hline, fun n hn => h.used n (hline.subset hn),
    fun n hn => ⟨(h.results n hn).1, fun x hx => (h.results n hn).2 x (hsub x hx)⟩,
    fun x hx => h.deadline x (hsub x hx), fun x hx => h.live x (hsub x hx),
    fun b hb => ⟨fun x hx => (h.request b hb).1 x (hsub x hx), (h.request b hb).2⟩, h.wire, h.order,
    h.answered, h.sent, h.past, h.settled⟩

/-- A coroutine becomes a task, with its place in the line. -/
theorem inv_create (h : Inv s) {w : Work} {rest : List Callback} (hready : s.ready = .create w :: rest) :
    Inv { s with ready := rest ++ [.step w] } := by
  have hmem : ∀ x ∈ rest ++ [Callback.step w], x ∈ s.ready ∨ x = .step w := by
    intro x hx
    rcases List.mem_append.mp hx with hx | hx
    · rw [hready]
      exact Or.inl (List.mem_cons_of_mem _ hx)
    · exact Or.inr (List.mem_singleton.mp hx)
  have hhead : Callback.create w ∈ s.ready := by
    rw [hready]
    exact List.mem_cons_self
  have hline : line { s with ready := rest ++ [.step w] } = line s := by
    simp [line, hready, List.filterMap_cons, stepCall, createCall]
  have hused : used { s with ready := rest ++ [.step w] } = used s := rfl
  refine ⟨h.number, hline ▸ h.line, fun n hn => ?_, fun n hn => ⟨(h.results n hn).1, fun x hx => ?_⟩,
    fun x hx => ?_, fun x hx hl => ?_, fun b hb => ⟨fun x hx hcall => ?_, (h.request b hb).2⟩,
    h.wire, h.order, h.answered, h.sent, h.past, h.settled⟩
  · rw [hused]
    exact h.used n (hline ▸ hn)
  · rcases hmem x hx with hx | rfl
    · exact (h.results n hn).2 x hx
    · exact (h.results n hn).2 (.create w) hhead
  · rcases hmem x hx with hx | rfl
    · exact h.deadline x hx
    · exact h.deadline (.create w) hhead
  · rcases hmem x hx with hx | rfl
    · exact h.live x hx hl
    · exact h.live (.create w) hhead hl
  · rcases hmem x hx with hx | rfl
    · exact (h.request b hb).1 x hx hcall
    · exact (h.request b hb).1 (.create w) hhead hcall

/-- The outcome of a call is set once its callback is gone. -/
theorem inv_result (h : Inv s) {call : ℕ} {result : Option (List Python.PyValue)} (hcall : call < used s)
    (hgone : ∀ cb ∈ s.ready, (work cb).call ≠ call)
    (hanswered : result ≠ none → ∃ m ∈ s.wire, m.call = call) :
    Inv { s with results := Function.update s.results call (some result) } := by
  refine ⟨h.number, h.line, h.used, fun n hn => ?_, h.deadline, h.live, h.request, h.wire, h.order,
    fun n body hn => ?_, h.sent, h.past, h.settled⟩
  · by_cases hnc : n = call
    · subst hnc
      exact ⟨hcall, hgone⟩
    · simp only [Function.update_of_ne hnc] at hn
      exact h.results n hn
  · by_cases hnc : n = call
    · subst hnc
      simp only [Function.update_self, Option.some.injEq] at hn
      exact hanswered (by simp [hn])
    · simp only [Function.update_of_ne hnc] at hn
      exact h.answered n body hn

theorem inv_step (h : Inv s) {w : Work} {rest : List Callback} (hready : s.ready = .step w :: rest) :
    Inv (runCallback { s with ready := rest } (.step w)) := by
  have hhead : Callback.step w ∈ s.ready := by
    rw [hready]
    exact List.mem_cons_self
  have hpop : Inv { s with ready := rest } := inv_pop h hready
  have hline : line s = s.wire.filterMap nativeCall ++
      (w.call :: (rest.filterMap stepCall ++ rest.filterMap createCall)) := by
    simp [line, hready, List.filterMap_cons, stepCall, createCall]
  have hcall : w.call < used s := h.used w.call (work_mem_line hhead)
  simp only [runCallback]
  split_ifs with hnow
  · have hsend : line (send { s with ready := rest } w.call .native w.request) = line s := by
      rw [hline]
      simp [line, send, nativeCall]
    refine inv_send hpop (lt_of_lt_of_le hcall (used_le h)) (hsend ▸ h.line) (fun n hn => ?_) ?_ ?_
    · exact h.used n (hsend ▸ hn)
    · intro b hb hwb
      exact (h.request b hb).1 _ hhead hwb
    · rcases h.live (.step w) hhead hnow with hi | ⟨b, hb, hbw, -⟩
      · exact Or.inl ⟨rfl, hi⟩
      · exact Or.inr ⟨b, hb, hbw⟩
  · refine inv_result hpop hcall (fun cb hcb heq => ?_) fun hne => absurd rfl hne
    -- the call stands in the line once
    have hpair := h.line
    rw [hline, List.pairwise_append, List.pairwise_cons] at hpair
    have hmem : (work cb).call ∈ rest.filterMap stepCall ++ rest.filterMap createCall := by
      cases cb with
      | create v => exact List.mem_append_right _ (List.mem_filterMap.mpr ⟨_, hcb, rfl⟩)
      | step v => exact List.mem_append_left _ (List.mem_filterMap.mpr ⟨_, hcb, rfl⟩)
    have := hpair.2.1.1 _ hmem
    omega

theorem inv_loop (h : Inv s) : Inv (loop s) := by
  unfold loop
  cases hready : s.ready with
  | nil => exact h
  | cons cb rest =>
    cases cb with
    | step w => exact inv_step h hready
    | create w => exact inv_create h hready

/-- The reply to a message that was sent. -/
theorem inv_reply (h : Inv s) {call : ℕ} {body : Option (List Python.PyValue)}
    (hsent : ∃ m ∈ s.wire, m.call = call ∧ m.via = .native) :
    Inv { s with results := Function.update s.results call (some body) } := by
  obtain ⟨m, hm, rfl, hvia⟩ := hsent
  refine inv_result h (h.used _ ?_) (fun cb hcb heq => work_not_sent h hcb hm hvia heq.symm)
    fun _ => ⟨m, hm, rfl⟩
  rw [mem_line]
  exact Or.inl ⟨m, hm, by simp [nativeCall, hvia]⟩

/-! ### Every step -/

/-- The caller has a result: it returns, or falls back to `dbus-send`. -/
theorem inv_resume (h : Inv s) (ha : s.active = some a) {expiry : ℚ} (hphase : a.phase = .waiting expiry)
    {body : Option (List Python.PyValue)} (hresult : s.results a.call = some body) :
    Inv (if setValueAccepted body = true then finish s a true else setPhase s a .fallback) := by
  have hgone : ∀ cb ∈ s.ready, (work cb).call ≠ a.call := (h.results a.call (by simp [hresult])).2
  have hlive : ∀ cb ∈ s.ready, Live s cb → (work cb).call ∈ s.interrupted := by
    intro cb hcb hl
    rcases h.live cb hcb hl with hi | ⟨b, hb, hcall, -⟩
    · exact hi
    · obtain rfl : a = b := by simpa [ha] using hb
      exact absurd hcall.symm (hgone cb hcb)
  split_ifs with haccepted
  · refine inv_finish h ha true hlive (by simp [hphase]) fun _ => ?_
    cases body with
    | none => simp [setValueAccepted] at haccepted
    | some values => exact h.answered a.call values hresult
  · exact inv_setPhase h ha nofun (fun cb hcb hl _ => Or.inl (hlive cb hcb hl)) nofun

/-- The caller gives up: the deadline of its coroutine is over as well. -/
theorem inv_expire (h : Inv s) (ha : s.active = some a) {expiry : ℚ} (hphase : a.phase = .waiting expiry)
    (hnow : expiry ≤ s.now) : Inv (setPhase s a .fallback) := by
  refine inv_setPhase h ha nofun (fun cb hcb hl hcall => Or.inl ?_) nofun
  rcases h.live cb hcb hl with hi | ⟨b, hb, -, hw⟩
  · exact hi
  · obtain rfl : a = b := by simpa [ha] using hb
    rw [hphase] at hw
    exact absurd (lt_of_lt_of_le hl hw) (not_lt.mpr hnow)

/-- The message of `dbus-send`, and then the note that it was sent. -/
theorem inv_cliSend (h : Inv s) (ha : s.active = some a) (hphase : a.phase = .cli false) :
    Inv (send (setPhase s a (.cli true)) a.call .cli a.request) := by
  have hnumber := h.number a ha
  have hsend : Inv (send s a.call .cli a.request) := by
    have hline : line (send s a.call .cli a.request) = line s := by
      simp [line, send, nativeCall]
    refine inv_send h (by omega) (hline ▸ h.line) (fun n hn => h.used n (hline ▸ hn)) (fun b hb _ => ?_)
      (Or.inr ⟨a, ha, rfl⟩)
    obtain rfl : a = b := by simpa [ha] using hb
    rfl
  have hactive : (send s a.call .cli a.request).active = some a := ha
  exact inv_setPhase hsend hactive nofun
    (fun cb hcb hl _ => Or.inl (live_of_not_waits h ha (by simp [hphase, Waits]) cb hcb hl))
    fun _ => ⟨_, List.mem_append_right _ (List.mem_singleton_self _), rfl⟩

/-- The end of `dbus-send`. -/
theorem inv_cliEnd (h : Inv s) (ha : s.active = some a) {sent : Bool} (hphase : a.phase = .cli sent)
    {output : Option String} (hsent : ¬ (cliAccepted output = true ∧ sent = false)) :
    Inv (finish s a (cliAccepted output)) := by
  refine inv_finish h ha _ (live_of_not_waits h ha (by simp [hphase, Waits])) (by simp [hphase])
    fun haccepted => h.sent a ha ?_
  rw [hphase]
  cases sent with
  | true => rfl
  | false => exact absurd ⟨haccepted, rfl⟩ hsent

theorem inv_advance (h : Inv s) (ha : s.active = some a) (e : Event) : Inv (advance s a e) := by
  cases e with
  | unavailable =>
    simp only [advance]
    split_ifs with hphase
    · refine inv_setPhase h ha nofun (fun cb hcb hl _ => Or.inl ?_) nofun
      exact live_of_not_waits h ha (by simp [hphase, Waits]) cb hcb hl
    · exact h
  | submit =>
    simp only [advance]
    split_ifs with hphase
    · exact inv_submit h ha hphase.1
    · exact h
  | wait =>
    simp only [advance]
    split_ifs with hphase
    · exact inv_setPhase h ha nofun (fun cb hcb _ _ => Or.inr (h.deadline cb hcb)) nofun
    · exact h
  | resume =>
    simp only [advance]
    split
    · next hphase hresult => exact inv_resume h ha hphase hresult
    · exact h
  | expire =>
    simp only [advance]
    split
    · next hphase =>
      split_ifs with hnow
      · exact inv_expire h ha hphase hnow
      · exact h
    · exact h
  | interrupt => exact inv_interrupt h ha
  | spawn =>
    simp only [advance]
    split_ifs with hphase
    · refine inv_setPhase h ha nofun (fun cb hcb hl _ => Or.inl ?_) nofun
      exact live_of_not_waits h ha (by simp [hphase, Waits]) cb hcb hl
    · exact h
  | cliSend =>
    simp only [advance]
    split_ifs with hphase
    · exact inv_cliSend h ha hphase
    · exact h
  | cliEnd output =>
    simp only [advance]
    split
    · next hphase =>
      split_ifs with hsent
      · exact h
      · exact inv_cliEnd h ha hphase hsent
    · exact h
  | tick d => exact h
  | «begin» request => exact h
  | loop => exact h
  | reply call body => exact h

/-- A step of whoever has the lock. -/
def onActive (s : State) (e : Event) : State :=
  match s.active with
  | some a => advance s a e
  | none => s

theorem inv_onActive (h : Inv s) (e : Event) : Inv (onActive s e) := by
  unfold onActive
  cases ha : s.active with
  | none => exact h
  | some a => exact inv_advance h ha e

/-- **Every step keeps the invariant.** -/
theorem inv_next (h : Inv s) (e : Event) : Inv (next s e) := by
  cases e with
  | tick d => exact inv_tick h d
  | «begin» request =>
    simp only [next]
    cases ha : s.active with
    | none => exact inv_begin h ha request
    | some a => exact h
  | loop => exact inv_loop h
  | reply call body =>
    simp only [next]
    split_ifs with hsent
    · obtain ⟨m, hm, hm'⟩ := List.any_eq_true.mp hsent.2
      exact inv_reply h ⟨m, hm, by simpa using hm'⟩
    · exact h
  | unavailable => exact inv_onActive h .unavailable
  | submit => exact inv_onActive h .submit
  | wait => exact inv_onActive h .wait
  | resume => exact inv_onActive h .resume
  | expire => exact inv_onActive h .expire
  | interrupt => exact inv_onActive h .interrupt
  | spawn => exact inv_onActive h .spawn
  | cliSend => exact inv_onActive h .cliSend
  | cliEnd output => exact inv_onActive h (.cliEnd output)

theorem inv_init : Inv {} where
  number := nofun
  line := List.Pairwise.nil
  used := nofun
  results := fun _ hn => absurd rfl hn
  deadline := nofun
  live := nofun
  request := nofun
  wire := nofun
  order := List.Pairwise.nil
  answered := nofun
  sent := nofun
  past := nofun
  settled := fun _ => nofun

theorem inv_exec (es : List Event) : Inv (exec next {} es) :=
  exec_invariant inv_init fun x _ hx => inv_next hx x.input

/-! ### Results -/

/-- A setpoint of 1500 W, and a zero after it. -/
def setpoint (value : ℤ) : Request :=
    ⟨"com.victronenergy.vebus.ttyS4", "/Hub4/L1/AcPowerSetpoint", value, "int16"⟩

end InverterControl.Writes.Order
