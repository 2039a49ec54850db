import InverterControl.Backup.Selection

/-!
# The log of the source's edges

`edges` reads the edges off the calls alone: an edge is a selection that reports another source than
the last one did.  The log is the last eight of them (`Logged`), whichever calls lie between, and the
generation is their number.
-/

namespace InverterControl.Backup.Log

open InverterControl.Lib.Runs InverterControl.Backup.Model InverterControl.Backup.Selection

/-! ### A queue of at most eight -/

/-- The last eight. -/
def lastEight {α : Type*} (l : List α) : List α := l.drop (l.length - 8)

/-- Appending to the queue keeps the last eight of the whole. -/
theorem appendLast_lastEight (t : SourceTransition) (l : List SourceTransition) :
    appendLast t (lastEight l) = lastEight (l ++ [t]) := by
  unfold appendLast lastEight
  rw [List.length_drop, List.length_append, List.length_singleton]
  by_cases h : l.length ≤ 8
  · have h0 : l.length - 8 = 0 := by omega
    rw [h0, List.drop_zero]
    congr 1
  · rw [← List.drop_append_of_le_length (by omega), List.drop_drop]
    congr 1
    omega

theorem length_lastEight {α : Type*} (l : List α) : (lastEight l).length = min 8 l.length := by
  unfold lastEight
  rw [List.length_drop]
  omega

theorem lastEight_suffix {α : Type*} (l : List α) : lastEight l <:+ l := List.drop_suffix _ _

theorem getLast?_lastEight {α : Type*} (l : List α) : (lastEight l).getLast? = l.getLast? := by
  unfold lastEight
  rw [List.getLast?_drop]
  split_ifs with h
  · have hl : l.length = 0 := by omega
    rw [List.length_eq_zero_iff.mp hl]
    rfl
  · rfl

/-! ### The edges of a run -/

/-- What a selection reports of the backup. -/
def reported (x : Taken GridBackup Event) : Option Bool :=
  match x.input.call with
  | .select p => some (select p x.input.now x.input.wall x.before).1.backup
  | _ => none

/-- Whether the backup is in use after the calls `past`, when it was `use` before them: what the last
selection reported. -/
def inUse (use : Bool) (past : List (Taken GridBackup Event)) : Bool :=
  past.foldl (fun use x => (reported x).getD use) use

/-- The entry of the edge number `g` to the source `use`, which a selection with the primary's status
`p` makes. -/
def entry (service : String) (p : Primary) (g : ℕ) (use : Bool) (now wall : ℚ) :
    SourceTransition where
  selectionGeneration := g
  observedAtMonotonic := now
  observedAtUnix := wall
  fromSource := if use then p.source.map clip else some (clip service)
  toSource := if use then some (clip service) else p.source.map clip
  usingBackup := use
  primaryValid := p.valid
  primaryReason := p.invalidReason.map clip

/-- The edge of one call, if it makes one. -/
def edge (service : String) (use : Bool) (g : ℕ) (x : Taken GridBackup Event) :
    Option SourceTransition :=
  match x.input.call with
  | .select p =>
    if reported x = some (!use) then some (entry service p (g + 1) (!use) x.input.now x.input.wall)
    else none
  | _ => none

/-- The edges of the calls, when `use` was in use and `g` edges were made before them. -/
def edges (service : String) : Bool → ℕ → List (Taken GridBackup Event) → List SourceTransition
  | _, _, [] => []
  | use, g, x :: past =>
    (edge service use g x).toList ++
      edges service ((reported x).getD use) (g + (edge service use g x).toList.length) past

variable {service : String} {use : Bool} {g : ℕ} {past : List (Taken GridBackup Event)}

theorem edges_append (ys : List (Taken GridBackup Event)) : ∀ {use g},
    edges service use g (past ++ ys) = edges service use g past ++
      edges service (inUse use past) (g + (edges service use g past).length) ys := by
  induction past with
  | nil => intro use g; rfl
  | cons x past ih =>
    intro use g
    rw [List.cons_append, edges, edges, ih, List.append_assoc, List.length_append, ← Nat.add_assoc]
    rfl

theorem edges_snoc (x : Taken GridBackup Event) : edges service use g (past ++ [x]) =
    edges service use g past ++
      (edge service (inUse use past) (g + (edges service use g past).length) x).toList := by
  rw [edges_append, edges, edges, List.append_nil]

theorem inUse_snoc (x : Taken GridBackup Event) :
    inUse use (past ++ [x]) = (reported x).getD (inUse use past) := by
  rw [inUse, List.foldl_append]
  rfl

/-! ### The shape of the edges -/

/-- An entry is made by a selection, with its sides and its times. -/
def IsEdge (service : String) (past : List (Taken GridBackup Event)) (t : SourceTransition) : Prop :=
  ∃ x ∈ past, ∃ p, x.input.call = .select p ∧
    t = entry service p t.selectionGeneration t.usingBackup x.input.now x.input.wall

/-- An edge is followed by the next one, to the other source. -/
def Follows (t t' : SourceTransition) : Prop :=
  t'.selectionGeneration = t.selectionGeneration + 1 ∧ t'.usingBackup = !t.usingBackup

theorem edge_some {x : Taken GridBackup Event} {t : SourceTransition}
    (h : edge service use g x = some t) : t.selectionGeneration = g + 1 ∧ t.usingBackup = !use ∧
      reported x = some (!use) ∧ ∃ p, x.input.call = .select p ∧
        t = entry service p t.selectionGeneration t.usingBackup x.input.now x.input.wall := by
  unfold edge at h
  split at h
  · next p hp =>
    split_ifs at h with hr
    obtain rfl := Option.some.inj h
    exact ⟨rfl, rfl, hr, p, hp, rfl⟩
  · cases h

theorem edge_none {x : Taken GridBackup Event} (h : edge service use g x = none) :
    (reported x).getD use = use := by
  unfold edge at h
  cases hr : reported x with
  | none => rfl
  | some r =>
    split at h
    · split_ifs at h with hne
      rw [hr] at hne
      rw [Option.getD_some]
      cases use <;> simpa using hne
    · next hno =>
      unfold reported at hr
      split at hr
      · next p hp => exact absurd hp (hno p)
      · cases hr

/-- The first edge goes to the other source and has the next number; each follows the one before it;
the last one is the number of edges and the source in use. -/
structure Edges (use : Bool) (g : ℕ) (use' : Bool) (l : List SourceTransition) : Prop where
  first : ∀ t ∈ l.head?, t.selectionGeneration = g + 1 ∧ t.usingBackup = !use
  chain : l.IsChain Follows
  last : ∀ t ∈ l.getLast?, t.selectionGeneration = g + l.length ∧ t.usingBackup = use'
  empty : l = [] → use' = use

/-- **The edges of a run alternate and count.** -/
theorem edges_shape (service : String) : ∀ (past : List (Taken GridBackup Event)) (use : Bool) (g : ℕ),
    Edges use g (inUse use past) (edges service use g past) := by
  intro past
  induction past using List.reverseRecOn with
  | nil =>
    intro use g
    refine ⟨?_, List.IsChain.nil, ?_, fun _ => rfl⟩
    · intro t ht
      cases ht
    · intro t ht
      cases ht
  | append_singleton past x ih =>
    intro use g
    have h := ih use g
    rw [edges_snoc, inUse_snoc]
    cases hx : edge service (inUse use past) (g + (edges service use g past).length) x with
    | none =>
      rw [edge_none hx, Option.toList_none, List.append_nil]
      exact h
    | some t =>
      obtain ⟨hg, hu, hr, -⟩ := edge_some hx
      rw [hr, Option.getD_some, Option.toList_some]
      refine ⟨?_, ?_, ?_, ?_⟩
      · intro t' ht'
        cases hl : edges service use g past with
        | nil =>
          rw [hl] at ht' hg
          obtain rfl : t = t' := by simpa using ht'
          rw [h.empty hl] at hu
          exact ⟨hg, hu⟩
        | cons a l =>
          rw [hl] at ht'
          refine h.first t' ?_
          rw [hl]
          exact ht'
      · refine h.chain.append (List.IsChain.singleton t) fun a ha b hb => ?_
        obtain ⟨hga, hua⟩ := h.last a ha
        obtain rfl : t = b := by simpa using hb
        exact ⟨by rw [hg, hga], by rw [hu, hua]⟩
      · intro t' ht'
        obtain rfl : t = t' := by simpa using ht'
        refine ⟨?_, hu⟩
        rw [hg, List.length_append, List.length_singleton, Nat.add_assoc]
      · intro hnil
        simp at hnil

theorem mem_edges {t : SourceTransition} : ∀ {past : List (Taken GridBackup Event)} {use g},
    t ∈ edges service use g past → IsEdge service past t := by
  intro past
  induction past with
  | nil =>
    intro use g h
    cases h
  | cons x past ih =>
    intro use g h
    rw [edges] at h
    rcases List.mem_append.mp h with h | h
    · obtain ⟨-, -, -, p, hp, ht⟩ := edge_some (Option.mem_toList.mp h)
      exact ⟨x, List.mem_cons_self, p, hp, ht⟩
    · obtain ⟨y, hy, hsides⟩ := ih h
      exact ⟨y, List.mem_cons_of_mem _ hy, hsides⟩

/-! ### The log -/

/-- The backup's record of its edges. -/
structure Logged (past : List (Taken GridBackup Event)) (b : GridBackup) : Prop where
  source : b.usingBackup = inUse false past
  generation : b.selectionGeneration = (edges b.service false 0 past).length
  log : b.sourceTransitions = lastEight (edges b.service false 0 past)

variable {b : GridBackup} {e : Event}

/-- A call that is no selection touches nothing of the record. -/
theorem next_other (h : ∀ p, e.call ≠ .select p) : (next b e).usingBackup = b.usingBackup ∧
    (next b e).selectionGeneration = b.selectionGeneration ∧
    (next b e).sourceTransitions = b.sourceTransitions ∧ (next b e).service = b.service := by
  obtain ⟨call, now, wall⟩ := e
  cases call with
  | replace fields generation =>
    simp only [next, replace]
    split_ifs
    · exact ⟨rfl, rfl, rfl, rfl⟩
    · exact ⟨rfl, rfl, rfl, rfl⟩
  | invalidate => exact ⟨rfl, rfl, rfl, rfl⟩
  | select p => exact absurd rfl (h p)

/-- What a selection does to the record. -/
theorem next_select {p : Primary} (hp : e.call = .select p) :
    reported ⟨b, e⟩ = some (next b e).usingBackup ∧ (next b e).service = b.service ∧
    (((next b e).usingBackup = b.usingBackup ∧
        (next b e).selectionGeneration = b.selectionGeneration ∧
        (next b e).sourceTransitions = b.sourceTransitions) ∨
      ((next b e).usingBackup = !b.usingBackup ∧
        (next b e).selectionGeneration = b.selectionGeneration + 1 ∧
        (next b e).sourceTransitions = appendLast
          (entry b.service p (b.selectionGeneration + 1) (!b.usingBackup) e.now e.wall)
          b.sourceTransitions)) := by
  have hnext : next b e = selectState p e.now e.wall b := by simp only [next, hp, select]
  have hreported : reported ⟨b, e⟩ = some (selectState p e.now e.wall b).usingBackup := by
    simp only [reported, hp, select_backup]
  rw [hnext, hreported]
  refine ⟨rfl, ?_, ?_⟩
  · unfold selectState
    split_ifs
    · rfl
    · rfl
  unfold selectState
  split_ifs with h
  · right
    have huse : selectBackup p.valid (ready e.now b) e.now (notePrimary p.valid e.now b) =
        !b.usingBackup := by
      cases hb : b.usingBackup <;> rw [hb] at h <;> simpa using h
    refine ⟨huse, rfl, ?_⟩
    rw [huse]
    have hentry : transition p (!b.usingBackup) e.now e.wall (notePrimary p.valid e.now b) =
        entry b.service p (b.selectionGeneration + 1) (!b.usingBackup) e.now e.wall := by
      unfold transition entry notePrimary
      cases b.usingBackup <;> rfl
    exact congrArg (appendLast · b.sourceTransitions) hentry
  · left
    exact ⟨rfl, rfl, rfl⟩

theorem reported_of_other (h : ∀ p, e.call ≠ .select p) : reported ⟨b, e⟩ = none := by
  unfold reported
  cases hc : e.call with
  | select p => exact absurd hc (h p)
  | _ => rfl

theorem edge_of_other (h : ∀ p, e.call ≠ .select p) : edge service use g ⟨b, e⟩ = none := by
  unfold edge
  cases hc : e.call with
  | select p => exact absurd hc (h p)
  | _ => rfl

/-- **Every call keeps the record.** -/
theorem Logged.next (h : Logged past b) (e : Event) :
    Logged (past ++ [⟨b, e⟩]) (Selection.next b e) := by
  by_cases hsel : ∃ p, e.call = .select p
  swap
  · have hno : ∀ p, e.call ≠ .select p := fun p hp => hsel ⟨p, hp⟩
    obtain ⟨hu, hg, hl, hs⟩ := next_other (b := b) hno
    constructor
    · rw [hu, inUse_snoc, reported_of_other hno]
      exact h.source
    · rw [hg, hs, edges_snoc, edge_of_other hno, Option.toList_none, List.append_nil]
      exact h.generation
    · rw [hl, hs, edges_snoc, edge_of_other hno, Option.toList_none, List.append_nil]
      exact h.log
  obtain ⟨p, hp⟩ := hsel
  obtain ⟨hr, hs, ⟨hu, hg, hl⟩ | ⟨hu, hg, hl⟩⟩ := next_select (b := b) hp
  · have hedge : edge b.service (inUse false past) (0 + (edges b.service false 0 past).length)
        ⟨b, e⟩ = none := by
      simp only [edge, hp, hr, hu, ← h.source]
      cases b.usingBackup <;> rfl
    constructor
    · rw [inUse_snoc, hr, Option.getD_some]
    · rw [hg, hs, edges_snoc, hedge, Option.toList_none, List.append_nil]
      exact h.generation
    · rw [hl, hs, edges_snoc, hedge, Option.toList_none, List.append_nil]
      exact h.log
  · have hedge : edge b.service (inUse false past) (0 + (edges b.service false 0 past).length)
        ⟨b, e⟩ = some (entry b.service p (b.selectionGeneration + 1) (!b.usingBackup) e.now e.wall) := by
      simp only [edge, hp, hr, hu, ← h.source, Nat.zero_add, ← h.generation, if_true]
    constructor
    · rw [inUse_snoc, hr, Option.getD_some]
    · rw [hg, hs, edges_snoc, hedge, List.length_append, ← h.generation]
      rfl
    · rw [hl, hs, edges_snoc, hedge, h.log, appendLast_lastEight]
      rfl

theorem logged_exec (service : String) (maxAge recoverySeconds : ℚ) (enabled : Bool) (es : List Event) :
    Logged (trace next (init service maxAge recoverySeconds enabled) es)
      (exec next (init service maxAge recoverySeconds enabled) es) := by
  refine history_induction (P := fun es b =>
    Logged (trace next (init service maxAge recoverySeconds enabled) es) b) ⟨rfl, rfl, rfl⟩
    (fun es e h => ?_) es
  rw [trace_snoc]
  exact h.next e

/-- The log is exact: the generation moves by one exactly when a selection reports another source than
the one in use; the log is the last eight edges; their numbers are consecutive and end at the
generation, their sources alternate and end at the one in use, and the sides of each are those of a
selection. -/
structure ExactLog (service : String) (past : List (Taken GridBackup Event)) (b : GridBackup) :
    Prop where
  generation : ∀ e, (next b e).selectionGeneration = b.selectionGeneration +
    if reported ⟨b, e⟩ = some (!inUse false past) then 1 else 0
  log : b.sourceTransitions = lastEight (edges service false 0 past)
  length : b.sourceTransitions.length = min 8 b.selectionGeneration
  chain : b.sourceTransitions.IsChain Follows
  last : ∀ t ∈ b.sourceTransitions.getLast?,
    t.selectionGeneration = b.selectionGeneration ∧ t.usingBackup = inUse false past
  current : b.usingBackup = inUse false past
  entries : ∀ t ∈ b.sourceTransitions, IsEdge service past t

theorem Logged.generation_next (h : Logged past b) (e : Event) :
    (Selection.next b e).selectionGeneration = b.selectionGeneration +
      if reported ⟨b, e⟩ = some (!inUse false past) then 1 else 0 := by
  rw [← h.source]
  by_cases hsel : ∃ p, e.call = .select p
  · obtain ⟨p, hp⟩ := hsel
    obtain ⟨hr, -, ⟨hu, hg, -⟩ | ⟨hu, hg, -⟩⟩ := next_select (b := b) hp
    · rw [hr, hu, hg, if_neg, Nat.add_zero]
      cases b.usingBackup <;> simp
    · rw [hr, hu, hg, if_pos rfl]
  · have hno : ∀ p, e.call ≠ .select p := fun p hp => hsel ⟨p, hp⟩
    have hr : reported ⟨b, e⟩ = none :=
      reported_of_other hno
    rw [(next_other hno).2.1, hr, if_neg (by simp), Nat.add_zero]

/-- **The log of the source's edges**, after any calls of any readers. -/
theorem source_log (service : String) (maxAge recoverySeconds : ℚ) (enabled : Bool)
    (es : List Event) :
    ExactLog service (trace next (init service maxAge recoverySeconds enabled) es)
      (exec next (init service maxAge recoverySeconds enabled) es) := by
  have h := logged_exec service maxAge recoverySeconds enabled es
  have hservice : (exec next (init service maxAge recoverySeconds enabled) es).service = service := by
    refine exec_invariant (P := fun b' : GridBackup => b'.service = service) rfl fun x _ hx => ?_
    by_cases hsel : ∃ p, x.input.call = .select p
    · obtain ⟨p, hp⟩ := hsel
      exact (next_select (b := x.before) hp).2.1.trans hx
    · exact (next_other (b := x.before) fun p hp => hsel ⟨p, hp⟩).2.2.2.trans hx
  have hlog := h.log
  have hcount := h.generation
  rw [hservice] at hlog hcount
  have hshape := edges_shape service (trace next (init service maxAge recoverySeconds enabled) es)
    false 0
  constructor
  · exact h.generation_next
  · exact hlog
  · rw [hlog, length_lastEight, hcount]
  · rw [hlog]
    exact hshape.chain.suffix (lastEight_suffix _)
  · intro t ht
    rw [hlog, getLast?_lastEight] at ht
    obtain ⟨hg, hu⟩ := hshape.last t ht
    exact ⟨by rw [hg, hcount, Nat.zero_add], hu⟩
  · exact h.source
  · intro t ht
    rw [hlog] at ht
    exact mem_edges ((lastEight_suffix _).subset ht)

/-- An outage of the primary that begins at the second `t`, and its end; the backup is read all the
while. -/
def outageAt (t : ℕ) : List Event :=
  [⟨.replace (acload (t + 1000)) 0, t, t + 1000⟩, ⟨.select (primary false), t + 1, t + 1001⟩,
    ⟨.select (primary true), t + 2, t + 1002⟩, ⟨.replace (acload (t + 1060)) 0, t + 62, t + 1062⟩,
    ⟨.select (primary true), t + 63, t + 1063⟩]

-- Five outages make ten edges, of which the log keeps the last eight.
example :
    (exec next (init "com.victronenergy.acload.ha" 120 60 true)
        ([0, 100, 200, 300, 400].flatMap outageAt)).selectionGeneration = 10 ∧
      (exec next (init "com.victronenergy.acload.ha" 120 60 true)
        ([0, 100, 200, 300, 400].flatMap outageAt)).sourceTransitions.map
          (fun t => (t.selectionGeneration, t.observedAtMonotonic, t.usingBackup)) =
        [(3, 101, true), (4, 163, false), (5, 201, true), (6, 263, false), (7, 301, true),
          (8, 363, false), (9, 401, true), (10, 463, false)] ∧
      (edges "com.victronenergy.acload.ha" false 0
        (trace next (init "com.victronenergy.acload.ha" 120 60 true)
          ([0, 100, 200, 300, 400].flatMap outageAt))).length = 10 := by
  decide +kernel

end InverterControl.Backup.Log
