import InverterControl.Senders.Model

/-!
# No obsolete owner is published

A request is overtaken when the owner of its service has changed, or its connection was replaced,
since it was issued.  An overtaken request stays overtaken (`overtaken_exec`), and its reply changes
no sender (`resolveSender_overtaken`); `routed_exec` states this, what an owner change does and what
a reply does for every run.
-/

namespace InverterControl.Senders.Routing

open InverterControl.Lib.Runs InverterControl.Senders.Model

variable {c : NativeDbusClient} {e : Event} {r : Refresh} {t : ℕ}

/-! ### What a step keeps -/

structure Inv (c : NativeDbusClient) : Prop where
  /-- The service of a request is subscribed, and what the request has seen is not newer than what
  is there. -/
  waits : ∀ t r, c.tasks t = some r → r.service ∈ c.subscriptionServices ∧
    r.ownerVersion ≤ c.senderOwnerVersions r.service ∧ r.bus < c.buses
  subscribed : ∀ t r, c.tasks t = some r → ∀ service ∈ r.rest, service ∈ c.subscriptionServices
  bus : ∀ b, c.bus = some b → b < c.buses
  started : ∀ t, c.started ≤ t → c.tasks t = none

theorem Inv.init : Inv {} where
  waits := fun _ _ h => nomatch h
  subscribed := fun _ _ h => nomatch h
  bus := fun _ h => nomatch h
  started := fun _ _ => rfl

theorem mem_pending {order : List String} {attempted : List String} {service : String}
    (h : service ∈ pending order c attempted) : service ∈ c.subscriptionServices := by
  unfold pending at h
  simp only at h
  split_ifs at h with hperm
  · exact List.mem_of_mem_filter (hperm.mem_iff.mp h)
  · exact List.mem_of_mem_filter h

/-- A request that is issued has what is current. -/
theorem nextRequest_eq_some {order attempted rest : List String} {bus : ℕ}
    (hrest : ∀ service ∈ rest, service ∈ c.subscriptionServices)
    (h : nextRequest order c bus attempted rest = some r) :
    c.bus = some bus ∧ r.bus = bus ∧ r.ownerVersion = c.senderOwnerVersions r.service ∧
      r.service ∈ c.subscriptionServices ∧ ∀ service ∈ r.rest, service ∈ c.subscriptionServices := by
  unfold nextRequest at h
  have hall : ∀ service ∈ (if rest = [] then pending order c attempted else rest),
      service ∈ c.subscriptionServices := by
    split_ifs
    · exact fun service => mem_pending
    · exact hrest
  rw [ite_eq_iff] at h
  obtain ⟨hcurrent, h⟩ := h.resolve_right fun hc => (nomatch hc.2)
  generalize (if rest = [] then pending order c attempted else rest) = services at h hall
  cases services with
  | nil => exact nomatch h
  | cons service rest' =>
    obtain rfl := Option.some.inj h
    obtain ⟨hservice, hrest'⟩ := List.forall_mem_cons.mp hall
    exact ⟨(of_decide_eq_true hcurrent).1, rfl, rfl, hservice, hrest'⟩

/-- A reply changes the sender map only. -/
theorem resolveSender_frame (r : Refresh) (owner : Option String) (c : NativeDbusClient) :
    ∃ senders, resolveSender r owner c = { c with senderService := senders } := by
  unfold resolveSender
  split
  · split_ifs
    · exact ⟨_, rfl⟩
    · exact ⟨c.senderService, rfl⟩
  · exact ⟨c.senderService, rfl⟩

theorem Inv.senders (h : Inv c) (senders : String → Option String) :
    Inv { c with senderService := senders } :=
  ⟨h.waits, h.subscribed, h.bus, h.started⟩

/-- A task that issues its next request, or ends. -/
theorem Inv.goOn (h : Inv c) {order attempted rest : List String} {bus : ℕ}
    (ht : t < c.started) (hrest : ∀ service ∈ rest, service ∈ c.subscriptionServices) :
    Inv (goOn t bus (nextRequest order c bus attempted rest) c) where
  waits := by
    intro t' r hr
    by_cases ht' : t' = t
    · subst ht'
      simp only [Model.goOn, Function.update_self] at hr
      obtain ⟨hbus, hrbus, hversion, hservice, -⟩ := nextRequest_eq_some hrest hr
      exact ⟨hservice, hversion.le, hrbus ▸ h.bus bus hbus⟩
    · simp only [Model.goOn, Function.update_of_ne ht'] at hr
      exact h.waits t' r hr
  subscribed := by
    intro t' r hr
    by_cases ht' : t' = t
    · subst ht'
      simp only [Model.goOn, Function.update_self] at hr
      exact (nextRequest_eq_some hrest hr).2.2.2.2
    · simp only [Model.goOn, Function.update_of_ne ht'] at hr
      exact h.subscribed t' r hr
  bus := h.bus
  started := by
    intro t' ht'
    have hne : t' ≠ t := by
      rintro rfl
      exact absurd ht (not_lt.mpr ht')
    simp only [Model.goOn, Function.update_of_ne hne]
    exact h.started t' ht'

theorem Inv.refresh (h : Inv c) (order : List String) : Inv (refreshSenderMap order c) := by
  unfold refreshSenderMap
  split
  · exact h
  · next bus _ =>
    split_ifs
    · exact h
    · have hstarted : Inv { c with senderRefreshBus := some bus, started := c.started + 1 } :=
        ⟨h.waits, h.subscribed, h.bus, fun t ht => h.started t ((Nat.le_succ _).trans ht)⟩
      exact hstarted.goOn (Nat.lt_succ_self _) fun service hs => absurd hs List.not_mem_nil

theorem Inv.reply (h : Inv c) (t : ℕ) (owner : Option String) (order : List String) :
    Inv (reply t owner order c) := by
  unfold Model.reply
  split
  · next r hr =>
    obtain ⟨senders, hsenders⟩ := resolveSender_frame r owner c
    have ht : t < c.started := by
      by_contra hlt
      exact nomatch (h.started t (not_lt.mp hlt)).symm.trans hr
    rw [hsenders]
    exact (h.senders senders).goOn ht (h.subscribed t r hr)
  · exact h

theorem Inv.nameOwnerChanged (h : Inv c) (service oldOwner newOwner : String) :
    Inv (handleNameOwnerChanged service oldOwner newOwner c) where
  waits := by
    intro t r hr
    obtain ⟨hservice, hversion, hbus⟩ := h.waits t r hr
    refine ⟨hservice, ?_, hbus⟩
    simp only [handleNameOwnerChanged]
    split_ifs
    · by_cases hs : r.service = service
      · rw [hs, Function.update_self]
        rw [hs] at hversion
        exact hversion.trans (Nat.le_succ _)
      · rw [Function.update_of_ne hs]
        exact hversion
    · exact hversion
  subscribed := h.subscribed
  bus := h.bus
  started := h.started

theorem Inv.next (h : Inv c) (e : Event) : Inv (next c e) := by
  cases e with
  | nameOwnerChanged service oldOwner newOwner => exact h.nameOwnerChanged service oldOwner newOwner
  | refresh order => exact h.refresh order
  | reply t owner order => exact h.reply t owner order
  | subscribe service =>
    refine ⟨fun t r hr => ?_, fun t r hr s hs => ?_, h.bus, h.started⟩
    · obtain ⟨hservice, hrest⟩ := h.waits t r hr
      exact ⟨List.mem_insert_of_mem hservice, hrest⟩
    · exact List.mem_insert_of_mem (h.subscribed t r hr s hs)
  | connect =>
    refine ⟨fun t r hr => ?_, h.subscribed, fun b hb => ?_, h.started⟩
    · obtain ⟨hservice, hversion, hbus⟩ := h.waits t r hr
      exact ⟨hservice, hversion, hbus.trans (Nat.lt_succ_self _)⟩
    · obtain rfl := Option.some.inj hb
      exact Nat.lt_succ_self _
  | replay => exact h.senders _
  | disconnect bus => exact ⟨h.waits, h.subscribed, h.bus, h.started⟩
  | drop => exact ⟨h.waits, h.subscribed, fun _ hb => (nomatch hb), h.started⟩

theorem inv_exec (es : List Event) : Inv (exec next {} es) :=
  exec_invariant (P := Inv) Inv.init fun x _ h => h.next x.input

/-! ### Overtaken requests -/

/-- The owner of the service has changed since the request, or the connection was replaced. -/
def Overtaken (r : Refresh) (c : NativeDbusClient) : Prop :=
  r.ownerVersion < c.senderOwnerVersions r.service ∨ (r.bus < c.buses ∧ c.bus ≠ some r.bus)

theorem resolveSender_overtaken (h : Overtaken r c) (owner : Option String) :
    resolveSender r owner c = c := by
  unfold resolveSender
  split
  · have hstale : fresh r c ≠ true := by
      intro hfresh
      obtain ⟨hcurrent, hversion⟩ := of_decide_eq_true hfresh
      rcases h with hlt | ⟨-, hbus⟩
      · omega
      · exact hbus (of_decide_eq_true hcurrent).1
    exact if_neg hstale
  · rfl

/-- What the steps do with connections and versions. -/
theorem refreshSenderMap_frame (order : List String) (c : NativeDbusClient) :
    (refreshSenderMap order c).senderOwnerVersions = c.senderOwnerVersions ∧
      (refreshSenderMap order c).bus = c.bus ∧ (refreshSenderMap order c).buses = c.buses := by
  unfold refreshSenderMap
  split
  · exact ⟨rfl, rfl, rfl⟩
  · split_ifs
    · exact ⟨rfl, rfl, rfl⟩
    · exact ⟨rfl, rfl, rfl⟩

theorem reply_frame (t : ℕ) (owner : Option String) (order : List String) (c : NativeDbusClient) :
    (reply t owner order c).senderOwnerVersions = c.senderOwnerVersions ∧
      (reply t owner order c).bus = c.bus ∧ (reply t owner order c).buses = c.buses := by
  unfold reply
  split
  · next r _ =>
    obtain ⟨senders, hsenders⟩ := resolveSender_frame r owner c
    rw [hsenders]
    exact ⟨rfl, rfl, rfl⟩
  · exact ⟨rfl, rfl, rfl⟩

theorem versions_le (service oldOwner newOwner : String) (c : NativeDbusClient) (s : String) :
    c.senderOwnerVersions s ≤
      (handleNameOwnerChanged service oldOwner newOwner c).senderOwnerVersions s := by
  simp only [handleNameOwnerChanged]
  split_ifs
  · by_cases hs : s = service
    · rw [hs, Function.update_self]
      exact Nat.le_succ _
    · rw [Function.update_of_ne hs]
  · exact le_rfl

/-- **A request that is overtaken stays so.** -/
theorem Overtaken.next (h : Overtaken r c) (e : Event) : Overtaken r (next c e) := by
  have keep : ∀ {c' : NativeDbusClient}, c'.senderOwnerVersions = c.senderOwnerVersions →
      c'.bus = c.bus → c'.buses = c.buses → Overtaken r c' := by
    intro c' hversions hbus hbuses
    rw [Overtaken, hversions, hbus, hbuses]
    exact h
  cases e with
  | nameOwnerChanged service oldOwner newOwner =>
    rcases h with hlt | hbus
    · exact Or.inl (hlt.trans_le (versions_le service oldOwner newOwner c r.service))
    · exact Or.inr hbus
  | refresh order =>
    obtain ⟨hversions, hbus, hbuses⟩ := refreshSenderMap_frame order c
    exact keep hversions hbus hbuses
  | reply t owner order =>
    obtain ⟨hversions, hbus, hbuses⟩ := reply_frame t owner order c
    exact keep hversions hbus hbuses
  | subscribe service => exact keep rfl rfl rfl
  | connect =>
    rcases h with hlt | ⟨hlt, -⟩
    · exact Or.inl hlt
    · -- the new connection has a number of its own
      refine Or.inr ⟨hlt.trans (Nat.lt_succ_self _), fun hc => ?_⟩
      exact absurd (Option.some.inj hc) (Nat.ne_of_gt hlt)
  | replay => exact keep rfl rfl rfl
  | disconnect bus => exact keep rfl rfl rfl
  | drop =>
    rcases h with hlt | ⟨hlt, -⟩
    · exact Or.inl hlt
    · exact Or.inr ⟨hlt, fun hc => nomatch hc⟩

theorem overtaken_exec (h : Overtaken r c) (es : List Event) : Overtaken r (exec next c es) :=
  exec_invariant (P := Overtaken r) h fun x _ hx => hx.next x.input

/-- An owner change overtakes the requests for its service. -/
theorem overtaken_of_nameOwnerChanged (hinv : Inv c) (hr : c.tasks t = some r)
    (oldOwner newOwner : String) :
    Overtaken r (next c (.nameOwnerChanged r.service oldOwner newOwner)) := by
  obtain ⟨hservice, hversion, -⟩ := hinv.waits t r hr
  left
  simp only [next, handleNameOwnerChanged, if_pos hservice, Function.update_self]
  omega

/-- The request of a task stays until its reply is there. -/
theorem next_tasks (hinv : Inv c) (hr : c.tasks t = some r)
    (he : ∀ owner order, e ≠ .reply t owner order) :
    (next c e).tasks t = some r := by
  cases e with
  | refresh order =>
    have hne : t ≠ c.started := by
      rintro rfl
      exact nomatch (hinv.started _ le_rfl).symm.trans hr
    simp only [next, refreshSenderMap]
    split
    · exact hr
    · split_ifs
      · exact hr
      · simp only [goOn, Function.update_of_ne hne]
        exact hr
  | reply t' owner order =>
    have hne : t ≠ t' := by
      rintro rfl
      exact he owner order rfl
    simp only [next, reply]
    split
    · next r' _ =>
      obtain ⟨senders, hsenders⟩ := resolveSender_frame r' owner c
      rw [hsenders]
      simp only [goOn, Function.update_of_ne hne]
      exact hr
    · exact hr
  | _ => exact hr

theorem tasks_exec (a b : List Event) (hr : (exec next {} a).tasks t = some r)
    (hb : ∀ owner order, .reply t owner order ∉ b) : (exec next {} (a ++ b)).tasks t = some r := by
  induction b using List.reverseRecOn with
  | nil =>
    rw [List.append_nil]
    exact hr
  | append_singleton b e ih =>
    have hwaits := ih fun owner order hmem => hb owner order (List.mem_append_left _ hmem)
    rw [← List.append_assoc, exec_snoc]
    refine next_tasks (inv_exec _) hwaits fun owner order he => ?_
    exact hb owner order (List.mem_append_right _ (List.mem_singleton.mpr he.symm))

/-! ### Every run -/

/-- The owner changed between the request and its reply, or the connection was replaced. -/
def OvertakenIn (a b : List Event) (r : Refresh) : Prop :=
  (∃ oldOwner newOwner, .nameOwnerChanged r.service oldOwner newOwner ∈ b) ∨
    ∃ b₁ b₂, b = b₁ ++ b₂ ∧ (exec next {} (a ++ b₁)).bus ≠ some r.bus

theorem overtaken_of_overtakenIn {a b : List Event} (hr : (exec next {} a).tasks t = some r)
    (hb : ∀ owner order, .reply t owner order ∉ b) (h : OvertakenIn a b r) :
    Overtaken r (exec next {} (a ++ b)) := by
  rcases h with ⟨oldOwner, newOwner, hmem⟩ | ⟨b₁, b₂, rfl, hbus⟩
  · obtain ⟨b₁, b₂, rfl⟩ := List.append_of_mem hmem
    have hwaits := tasks_exec a b₁ hr fun owner order hc => hb owner order (List.mem_append_left _ hc)
    have hchanged := overtaken_of_nameOwnerChanged (inv_exec _) hwaits oldOwner newOwner
    rw [← List.append_assoc, exec_append]
    exact overtaken_exec hchanged b₂
  · have hwaits := tasks_exec a b₁ hr fun owner order hc => hb owner order (List.mem_append_left _ hc)
    have hlt := ((inv_exec _).waits t r hwaits).2.2
    rw [← List.append_assoc, exec_append]
    exact overtaken_exec (Or.inr ⟨hlt, hbus⟩) b₂

/-- What the sender map promises in a run. -/
structure Routed (es : List Event) : Prop where
  /-- The reply to an overtaken request changes no sender. -/
  late : ∀ a b t owner order d r, es = a ++ (b ++ .reply t owner order :: d) →
    (exec next {} a).tasks t = some r → (∀ owner order, .reply t owner order ∉ b) → OvertakenIn a b r →
    (exec next {} (a ++ b ++ [.reply t owner order])).senderService =
      (exec next {} (a ++ b)).senderService
  /-- After an owner change of a subscribed service the new owner has it, and another old one has
  none. -/
  changed : ∀ a service oldOwner newOwner b, es = a ++ .nameOwnerChanged service oldOwner newOwner :: b →
    service ∈ (exec next {} a).subscriptionServices →
    (oldOwner ≠ "" → oldOwner ≠ newOwner →
      (exec next {} (a ++ [.nameOwnerChanged service oldOwner newOwner])).senderService oldOwner =
        none) ∧
    (newOwner ≠ "" →
      (exec next {} (a ++ [.nameOwnerChanged service oldOwner newOwner])).senderService newOwner =
        some service)
  /-- After a fresh reply its owner is the one sender of the service. -/
  applied : ∀ a t owner order b r, es = a ++ .reply t (some owner) order :: b →
    (exec next {} a).tasks t = some r → fresh r (exec next {} a) = true →
    ∀ sender, (exec next {} (a ++ [.reply t (some owner) order])).senderService sender = some r.service ↔
      sender = owner

theorem reply_senderService {owner : Option String} {order : List String} (hr : c.tasks t = some r) :
    (next c (.reply t owner order)).senderService = (resolveSender r owner c).senderService := by
  simp only [next, reply, hr, goOn]

theorem published_iff (service owner sender : String) (senders : String → Option String) :
    published service owner senders sender = some service ↔ sender = owner := by
  unfold published
  split_ifs with howner hold
  · exact ⟨fun _ => howner, fun _ => rfl⟩
  · exact ⟨fun h => (nomatch h), fun h => absurd h howner⟩
  · exact ⟨fun h => absurd h hold, fun h => absurd h howner⟩

/-- **No obsolete owner is published because of a late reply**, in every run. -/
theorem routed_exec (es : List Event) : Routed es where
  late := by
    intro a b t owner order d r _ hr hb hovertaken
    have hwaits := tasks_exec a b hr hb
    rw [exec_snoc, reply_senderService hwaits,
      resolveSender_overtaken (overtaken_of_overtakenIn hr hb hovertaken)]
  changed := by
    intro a service oldOwner newOwner b _ hservice
    rw [exec_snoc]
    simp only [next, handleNameOwnerChanged]
    constructor
    · intro hold hne
      rw [if_neg fun h => hne h.2.2, if_pos ⟨hold, trivial⟩]
    · intro hnew
      rw [if_pos ⟨hnew, hservice, trivial⟩]
  applied := by
    intro a t owner order b r _ hr hfresh sender
    rw [exec_snoc, reply_senderService hr]
    simp only [resolveSender, if_pos hfresh]
    exact published_iff r.service owner sender _

end InverterControl.Senders.Routing
