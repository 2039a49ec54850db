import InverterControl.Victron.Shunt

/-!
# Superseded readings of the SmartShunt

Every event that says something newer about the battery (`Supersedes`) moves the generation, so that
a reply whose token is older has no effect.  A seed that has found another service selected has no
token, and neither has a value that was not applied under the lock: `Guarded` is the condition that
the service of such a value is not the SmartShunt when it arrives.  `guarded_cases` says that a
guarded step either leaves the battery as it is or supersedes, and `superseded_exec` follows for
every run of guarded steps; `stale_seed_applied` is a run with a step that is not.
-/

namespace InverterControl.Victron.Superseded

open InverterControl.Lib.Runs InverterControl.Victron.Shunt

variable {v : VictronDBus} {e : Event} {t : ℕ} {o : Operation}

/-! ### Events -/

/-- A reading of the SmartShunt. -/
def Reads (v : VictronDBus) (service : Option String) (path : String) : Prop :=
  service ≠ none ∧ service = v.shuntService ∧ shuntSignalPaths path ≠ none

/-- A value of the SmartShunt: a reading, or its connection. -/
def Touches (v : VictronDBus) (service : Option String) (path : String) : Prop :=
  service ≠ none ∧ service = v.shuntService ∧ (path = connectedPath ∨ shuntSignalPaths path ≠ none)

/-- A signal, a disconnect, a clear, a source change or a reply that is accepted. -/
def Supersedes (v : VictronDBus) : Event → Prop
  | .signal service path _ _ => Touches v service path
  | .nameOwnerChanged service => v.shuntService = some service
  | .discovery selected => v.shuntService ≠ selected
  | .commit t _ _ _ => v.operations t = some (.read (shuntToken v))
  | .seedReply t _ _ _ =>
    ∃ service path, v.operations t = some (.seed service path (some (shuntToken v))) ∧
      Touches v (some service) path
  | _ => False

/-- A value without a token is not for the service that is the SmartShunt now. -/
def Guarded (v : VictronDBus) : Event → Prop
  | .seedReply t _ _ _ =>
    ∀ service path, v.operations t = some (.seed service path none) → ¬ Touches v (some service) path
  | .rest t _ =>
    ∀ service path raw, v.operations t = some (.value service path raw) → ¬ Reads v service path
  | _ => True

/-- The connection is lost, or the source is missing. -/
def Disconnects (v : VictronDBus) : Event → Prop
  | .signal service path raw _ =>
    service ≠ none ∧ service = v.shuntService ∧ path = connectedPath ∧ optionalFloat raw ≠ some 1
  | .nameOwnerChanged service => v.shuntService = some service
  | .discovery selected => selected = none
  | .commit t connected _ _ =>
    v.operations t = some (.read (shuntToken v)) ∧ v.shuntService ≠ none ∧ connected = some false
  | .seedReply t raw _ _ =>
    ∃ service, v.operations t = some (.seed service connectedPath (some (shuntToken v))) ∧
      v.shuntService = some service ∧ optionalFloat raw ≠ some 1
  | _ => False

/-- A signal or an accepted reply says that there is a connection, or another service is selected. -/
def Restores (v : VictronDBus) : Event → Prop
  | .signal service path raw _ =>
    service ≠ none ∧ service = v.shuntService ∧ path = connectedPath ∧ optionalFloat raw = some 1
  | .discovery selected => selected ≠ none ∧ v.shuntService ≠ selected
  | .commit t connected _ _ =>
    v.operations t = some (.read (shuntToken v)) ∧ v.shuntService ≠ none ∧ connected ≠ some false
  | .seedReply t raw _ _ =>
    ∃ service, v.operations t = some (.seed service connectedPath (some (shuntToken v))) ∧
      v.shuntService = some service ∧ optionalFloat raw = some 1
  | _ => False

/-- A signal or an accepted reply brings readings. -/
def Brings (v : VictronDBus) : Event → Prop
  | .signal service path _ _ => Reads v service path
  | .commit t _ _ _ => v.operations t = some (.read (shuntToken v))
  | .seedReply t _ _ _ =>
    ∃ service path, v.operations t = some (.seed service path (some (shuntToken v))) ∧
      Reads v (some service) path
  | _ => False

/-! ### The locked sections -/

theorem Reads.touches {service : Option String} {path : String} (h : Reads v service path) :
    Touches v service path :=
  ⟨h.1, h.2.1, Or.inr h.2.2⟩

theorem applyShuntValueLocked_of_not_touches {service : Option String} {path : String}
    (h : ¬ Touches v service path) (raw : Raw) (now : ℚ) :
    applyShuntValueLocked service path raw now v = (v, false) := by
  unfold applyShuntValueLocked
  split_ifs with hother hpath
  · rfl
  · push Not at hother
    exact absurd ⟨hother.1, hother.2, Or.inl hpath⟩ h
  · push Not at hother
    cases hkey : shuntSignalPaths path with
    | none => rfl
    | some key =>
      have hne : shuntSignalPaths path ≠ none := by simp [hkey]
      exact absurd ⟨hother.1, hother.2, Or.inr hne⟩ h

/-- A value of the SmartShunt is its connection or a reading. -/
theorem applyShuntValueLocked_of_touches {service : Option String} {path : String}
    (h : Touches v service path) (raw : Raw) (now : ℚ) :
    (path = connectedPath ∧
      applyShuntValueLocked service path raw now v = (applyConnected raw v, true)) ∨
      (Reads v service path ∧ ∃ key,
        applyShuntValueLocked service path raw now v = (applyReading key raw now v, true)) := by
  obtain ⟨hne, hservice, hpath⟩ := h
  have hother : ¬ (service = none ∨ service ≠ v.shuntService) := by
    rintro (hnone | hdiff)
    · exact hne hnone
    · exact hdiff hservice
  unfold applyShuntValueLocked
  rw [if_neg hother]
  by_cases hconnected : path = connectedPath
  · exact Or.inl ⟨hconnected, if_pos hconnected⟩
  · right
    rw [if_neg hconnected]
    have hkey := hpath.resolve_left hconnected
    refine ⟨⟨hne, hservice, hkey⟩, ?_⟩
    obtain ⟨key, hkey⟩ := Option.ne_none_iff_exists'.mp hkey
    exact ⟨key, by rw [hkey]⟩

theorem applyRest_of_not_reads {service : Option String} {path : String} (h : ¬ Reads v service path)
    (raw : Raw) (meterUpdated : Bool) : applyRest service path raw meterUpdated v = v := by
  unfold applyRest
  split_ifs with hother
  · rfl
  · push Not at hother
    obtain ⟨-, -, hne, hservice⟩ := hother
    have hkey : shuntSignalPaths path = none := by
      by_contra hkey
      exact h ⟨hne, hservice, hkey⟩
    rw [hkey]

/-- A value that is applied under the lock. -/
theorem applyFastValue_cases (service : Option String) (path : String) (raw : Raw) (now : ℚ)
    (meterUpdated : Bool) (v : VictronDBus) :
    (¬ Touches v service path ∧ applyFastValue service path raw now meterUpdated v = v) ∨
      (Touches v service path ∧ path = connectedPath ∧
        applyFastValue service path raw now meterUpdated v = applyConnected raw v) ∨
      (Reads v service path ∧ ∃ key,
        applyFastValue service path raw now meterUpdated v = applyReading key raw now v) := by
  unfold applyFastValue
  by_cases h : Touches v service path
  · right
    rcases applyShuntValueLocked_of_touches h raw now with ⟨hpath, heq⟩ | ⟨hreads, key, heq⟩
    · exact Or.inl ⟨h, hpath, by rw [heq, if_pos rfl]⟩
    · exact Or.inr ⟨hreads, key, by rw [heq, if_pos rfl]⟩
  · left
    refine ⟨h, ?_⟩
    rw [applyShuntValueLocked_of_not_touches h, if_neg Bool.false_ne_true]
    exact applyRest_of_not_reads (fun hreads => h hreads.touches) raw meterUpdated

/-! ### What a step does -/

/-- The battery is as it was. -/
structure Same (v v' : VictronDBus) : Prop where
  service : v'.shuntService = v.shuntService
  generation : v'.shuntGeneration = v.shuntGeneration
  connected : v'.shuntConnected = v.shuntConnected
  data : v'.systemData = v.systemData
  times : v'.shuntReadTimes = v.shuntReadTimes

theorem Same.refl (v : VictronDBus) : Same v v := ⟨rfl, rfl, rfl, rfl, rfl⟩

theorem same_begin (o : Operation) (v : VictronDBus) : Same v (begin o v) := ⟨rfl, rfl, rfl, rfl, rfl⟩

theorem same_goOn (t : ℕ) (o : Option Operation) (v : VictronDBus) : Same v (goOn t o v) :=
  ⟨rfl, rfl, rfl, rfl, rfl⟩

theorem commit_stale {token : Token} (h : token ≠ shuntToken v) (connected : Option Bool)
    (values : Key → Option ℚ) (now : ℚ) : pollShuntData token connected values now v = v := by
  unfold pollShuntData commitShuntSnapshot
  split_ifs
  all_goals rfl

/-- **A guarded step leaves the battery as it is, or says something newer.** -/
theorem guarded_cases (h : Guarded v e) : Same v (next v e) ∨ Supersedes v e := by
  cases e with
  | signal service path raw now =>
    by_cases htouches : Touches v service path
    · exact Or.inr htouches
    · left
      simp only [next, applyUnlocked, applyShuntValueLocked_of_not_touches htouches]
      exact same_begin _ v
  | rest t meterUpdated =>
    left
    simp only [next]
    split
    · next service path raw ho =>
      rw [applyRest_of_not_reads (h service path raw ho)]
      exact same_goOn t none v
    · exact Same.refl v
  | seed service path => exact Or.inl (same_begin _ v)
  | token t =>
    left
    simp only [next]
    split
    · exact same_goOn t _ v
    · exact Same.refl v
  | seedReply t raw now meterUpdated =>
    simp only [next]
    split
    · next service path token ho =>
      cases token with
      | none =>
        left
        simp only [seedReply, applyUnlocked, applyShuntValueLocked_of_not_touches (h service path ho)]
        exact same_goOn t _ v
      | some token =>
        simp only [seedReply]
        split_ifs with htoken
        · subst htoken
          by_cases htouches : Touches v (some service) path
          · exact Or.inr ⟨service, path, ho, htouches⟩
          · left
            obtain ⟨-, heq⟩ | ⟨hc, -⟩ | ⟨hc, -⟩ :=
              applyFastValue_cases (some service) path raw now meterUpdated v
            · rw [heq]
              exact same_goOn t none v
            · exact absurd hc htouches
            · exact absurd hc.touches htouches
        · exact Or.inl (same_goOn t none v)
    · exact Or.inl (Same.refl v)
  | read => exact Or.inl (same_begin _ v)
  | commit t connected values now =>
    simp only [next]
    split
    · next token ho =>
      by_cases htoken : token = shuntToken v
      · exact Or.inr (ho.trans (by rw [htoken]))
      · rw [commit_stale htoken]
        exact Or.inl (same_goOn t none v)
    · exact Or.inl (Same.refl v)
  | nameOwnerChanged service =>
    by_cases hservice : v.shuntService = some service
    · exact Or.inr hservice
    · left
      simp only [next, onNameOwnerChanged, if_neg hservice]
      exact Same.refl v
  | discovery selected =>
    by_cases hselected : v.shuntService = selected
    · left
      simp only [next, applyDiscovery, hselected, ne_eq, not_true_eq_false, if_false]
      exact Same.refl v
    · exact Or.inr hselected

/-! ### What supersedes -/

theorem applyConnected_generation (raw : Raw) (v : VictronDBus) :
    v.shuntGeneration < (applyConnected raw v).shuntGeneration := by
  unfold applyConnected
  split_ifs
  · exact Nat.lt_succ_self _
  · exact (Nat.lt_succ_self _).trans (Nat.lt_succ_self _)

theorem applyReading_frame (key : Key) (raw : Raw) (now : ℚ) (v : VictronDBus) :
    (applyReading key raw now v).shuntService = v.shuntService ∧
      (applyReading key raw now v).shuntConnected = v.shuntConnected ∧
      (applyReading key raw now v).shuntGeneration = v.shuntGeneration + 1 := by
  unfold applyReading
  split_ifs
  · exact ⟨rfl, rfl, rfl⟩
  · exact ⟨rfl, rfl, rfl⟩

/-- A commit whose token is current. -/
theorem commit_current (connected : Option Bool) (values : Key → Option ℚ) (now : ℚ) (v : VictronDBus) :
    (pollShuntData (shuntToken v) connected values now v).shuntService = v.shuntService ∧
      v.shuntGeneration < (pollShuntData (shuntToken v) connected values now v).shuntGeneration ∧
      (v.shuntService ≠ none →
        (pollShuntData (shuntToken v) connected values now v).shuntConnected = connected) ∧
      (hasValues values = false ∨ v.shuntService = none →
        (pollShuntData (shuntToken v) connected values now v).systemData = fun _ => none) := by
  simp only [pollShuntData, commitShuntSnapshot, shuntToken, ne_eq, not_true_eq_false, if_false]
  split_ifs with hnone hvalues hvalues
  · exact absurd hvalues (by decide)
  · exact ⟨rfl, Nat.lt_succ_self _, fun hc => absurd hnone hc, fun _ => rfl⟩
  · unfold acceptShuntData
    split_ifs with hconnected
    · exact ⟨rfl, Nat.lt_succ_self _, fun _ => rfl, fun _ => rfl⟩
    · refine ⟨rfl, Nat.lt_succ_self _, fun _ => rfl, ?_⟩
      rintro (hempty | hc)
      · exact absurd (hempty.symm.trans hvalues) Bool.false_ne_true
      · exact absurd hc hnone
  · exact ⟨rfl, Nat.lt_succ_self _, fun _ => rfl, fun _ => rfl⟩

theorem next_commit {connected : Option Bool} {values : Key → Option ℚ} {now : ℚ}
    (h : v.operations t = some (.read (shuntToken v))) :
    next v (.commit t connected values now) =
      goOn t none (pollShuntData (shuntToken v) connected values now v) := by
  simp only [next, h]

theorem next_seedReply {service path : String} {raw : Raw} {now : ℚ} {meterUpdated : Bool}
    (h : v.operations t = some (.seed service path (some (shuntToken v)))) :
    next v (.seedReply t raw now meterUpdated) =
      goOn t none (applyFastValue (some service) path raw now meterUpdated v) := by
  simp only [next, h, seedReply, if_true]

/-- A signal of the SmartShunt. -/
theorem next_signal {service : Option String} {path : String} {raw : Raw} {now : ℚ}
    (h : Touches v service path) :
    (path = connectedPath ∧ next v (.signal service path raw now) = applyConnected raw v) ∨
      (Reads v service path ∧ ∃ key, next v (.signal service path raw now) =
        applyReading key raw now v) := by
  rcases applyShuntValueLocked_of_touches h raw now with ⟨hpath, heq⟩ | ⟨hreads, key, heq⟩
  · exact Or.inl ⟨hpath, by simp only [next, applyUnlocked, heq, if_true]⟩
  · exact Or.inr ⟨hreads, key, by simp only [next, applyUnlocked, heq, if_true]⟩

theorem next_nameOwnerChanged {service : String} (h : v.shuntService = some service) :
    next v (.nameOwnerChanged service) = clearShuntData { v with shuntConnected := some false } :=
  if_pos h

theorem next_discovery {selected : Option String} (h : v.shuntService ≠ selected) :
    next v (.discovery selected) =
      clearShuntData { v with shuntService := selected, shuntConnected := none } :=
  if_pos h

/-- What an event that supersedes does to the battery, and what it then says. -/
inductive Effect (v : VictronDBus) (e : Event) : VictronDBus → Prop
  | connection (raw : Raw) (restores : optionalFloat raw = some 1 → Restores v e) :
    Effect v e (applyConnected raw v)
  | reading (key : Key) (raw : Raw) (now : ℚ)
    (brings : Brings v e) : Effect v e (applyReading key raw now v)
  | committed (connected : Option Bool) (values : Key → Option ℚ) (now : ℚ) (brings : Brings v e)
    (restores : v.shuntService ≠ none → connected ≠ some false → Restores v e) :
    Effect v e (pollShuntData (shuntToken v) connected values now v)
  | lost : Effect v e (clearShuntData { v with shuntConnected := some false })
  | selected (service : Option String) (restores : service ≠ none → Restores v e) :
    Effect v e (clearShuntData { v with shuntService := service, shuntConnected := none })

/-- **What is newer does one of these.** -/
theorem supersedes_effect (h : Supersedes v e) : ∃ v', Effect v e v' ∧ Same v' (next v e) := by
  cases e with
  | signal service path raw now =>
    rcases next_signal h with ⟨hpath, heq⟩ | ⟨hreads, key, heq⟩
    · rw [heq]
      exact ⟨_, .connection raw fun hraw => ⟨h.1, h.2.1, hpath, hraw⟩, Same.refl _⟩
    · rw [heq]
      exact ⟨_, .reading key raw now hreads, Same.refl _⟩
  | seedReply t raw now meterUpdated =>
    obtain ⟨service, path, ho, htouches⟩ := h
    rw [next_seedReply ho]
    refine ⟨_, ?_, same_goOn t none _⟩
    obtain ⟨hnot, -⟩ | ⟨-, rfl, heq⟩ | ⟨hreads, key, heq⟩ :=
      applyFastValue_cases (some service) path raw now meterUpdated v
    · exact absurd htouches hnot
    · rw [heq]
      exact .connection raw fun hraw => ⟨service, ho, htouches.2.1.symm, hraw⟩
    · rw [heq]
      exact .reading key raw now ⟨service, path, ho, hreads⟩
  | commit t connected values now =>
    rw [next_commit h]
    exact ⟨_, .committed connected values now h fun hsource hc => ⟨h, hsource, hc⟩, same_goOn t none _⟩
  | nameOwnerChanged service =>
    rw [next_nameOwnerChanged h]
    exact ⟨_, .lost, Same.refl _⟩
  | discovery selected =>
    rw [next_discovery h]
    exact ⟨_, .selected selected fun hsome => ⟨hsome, h⟩, Same.refl _⟩
  | rest t meterUpdated => exact absurd h id
  | seed service path => exact absurd h id
  | token t => exact absurd h id
  | read => exact absurd h id

/-- **What is newer moves the generation.** -/
theorem generation_lt (h : Supersedes v e) : v.shuntGeneration < (next v e).shuntGeneration := by
  obtain ⟨v', heffect, hsame⟩ := supersedes_effect h
  rw [hsame.generation]
  cases heffect with
  | connection raw restores => exact applyConnected_generation raw v
  | reading key raw now brings =>
    rw [(applyReading_frame key raw now v).2.2]
    exact Nat.lt_succ_self _
  | committed connected values now brings restores => exact (commit_current connected values now v).2.1
  | lost => exact Nat.lt_succ_self _
  | selected service restores => exact Nat.lt_succ_self _

theorem generation_le (h : Guarded v e) : v.shuntGeneration ≤ (next v e).shuntGeneration := by
  rcases guarded_cases h with hsame | hnewer
  · exact hsame.generation.ge
  · exact (generation_lt hnewer).le

/-! ### Connection and readings -/

/-- The source is missing, or the last thing that is known is that it is not connected. -/
def Down (v : VictronDBus) : Prop := v.shuntService = none ∨ v.shuntConnected = some false

theorem applyConnected_down {raw : Raw} (h : optionalFloat raw ≠ some 1) :
    Down (applyConnected raw v) := by
  rw [applyConnected, if_neg h]
  exact Or.inr rfl

/-- **A battery that is not connected stays so**, until something restores it. -/
theorem Down.next (h : Down v) (hguarded : Guarded v e) (hno : ¬ Restores v e) : Down (next v e) := by
  rcases guarded_cases hguarded with hsame | hnewer
  · rw [Down, hsame.service, hsame.connected]
    exact h
  · obtain ⟨v', heffect, hsame⟩ := supersedes_effect hnewer
    rw [Down, hsame.service, hsame.connected]
    show Down v'
    cases heffect with
    | connection raw restores => exact applyConnected_down fun hraw => hno (restores hraw)
    | reading key raw now brings =>
      obtain ⟨hservice, hconnected, -⟩ := applyReading_frame key raw now v
      rw [Down, hservice, hconnected]
      exact h
    | committed connected values now brings restores =>
      obtain ⟨hservice, -, hconnected, -⟩ := commit_current connected values now v
      by_cases hsource : v.shuntService = none
      · exact Or.inl (hservice.trans hsource)
      · have hfalse : connected = some false := by
          by_contra hc
          exact hno (restores hsource hc)
        exact Or.inr ((hconnected hsource).trans hfalse)
    | lost => exact Or.inr rfl
    | selected service restores =>
      left
      by_contra hc
      exact hno (restores hc)

theorem down_of_disconnects (h : Disconnects v e) : Down (next v e) := by
  cases e with
  | signal service path raw now =>
    obtain ⟨hne, hservice, rfl, hraw⟩ := h
    rcases next_signal ⟨hne, hservice, Or.inl rfl⟩ with ⟨-, heq⟩ | ⟨hreads, -⟩
    · rw [heq]
      exact applyConnected_down hraw
    · exact absurd (by decide) hreads.2.2
  | commit t connected values now =>
    obtain ⟨ho, hsource, rfl⟩ := h
    rw [next_commit ho]
    exact Or.inr ((commit_current (some false) values now v).2.2.1 hsource)
  | nameOwnerChanged service =>
    rw [next_nameOwnerChanged h]
    exact Or.inr rfl
  | discovery selected =>
    obtain rfl : selected = none := h
    by_cases hnone : v.shuntService = none
    · rw [next, applyDiscovery, if_neg (not_not.mpr hnone)]
      exact Or.inl hnone
    · rw [next_discovery hnone]
      exact Or.inl rfl
  | rest t meterUpdated => exact absurd h id
  | seed service path => exact absurd h id
  | token t => exact absurd h id
  | seedReply t raw now meterUpdated =>
    obtain ⟨service, ho, hservice, hraw⟩ := h
    rw [next_seedReply ho]
    show Down (applyFastValue (some service) connectedPath raw now meterUpdated v)
    obtain ⟨hnot, -⟩ | ⟨-, -, heq⟩ | ⟨hreads, -⟩ :=
      applyFastValue_cases (some service) connectedPath raw now meterUpdated v
    · exact absurd ⟨Option.some_ne_none _, hservice.symm, Or.inl rfl⟩ hnot
    · rw [heq]
      exact applyConnected_down hraw
    · exact absurd (by decide) hreads.2.2
  | read => exact absurd h id

/-- Nothing is reported of a battery that is not connected. -/
theorem merged_of_down (h : Down v) (now : ℚ) :
    (∀ key, merged v now key = none) ∧ available v now = false := by
  have houtage : outage v ≠ none := by
    unfold outage
    rcases h with hnone | hfalse
    · rw [if_pos hnone]
      exact Option.some_ne_none _
    · split_ifs
      · exact Option.some_ne_none _
      · exact Option.some_ne_none _
  have hmerged : ∀ key, merged v now key = none := fun key => if_pos houtage
  refine ⟨hmerged, ?_⟩
  simp [available, hmerged]

/-- No reading is there. -/
def Cleared (v : VictronDBus) : Prop := ∀ key, v.systemData key = none

theorem applyConnected_cleared (h : Cleared v) (raw : Raw) : Cleared (applyConnected raw v) := by
  unfold applyConnected
  split_ifs
  · exact h
  · exact fun _ => rfl

/-- **Readings that were cleared do not come back**, until something brings new ones. -/
theorem Cleared.next (h : Cleared v) (hguarded : Guarded v e) (hno : ¬ Brings v e) :
    Cleared (next v e) := by
  rcases guarded_cases hguarded with hsame | hnewer
  · rw [Cleared, hsame.data]
    exact h
  · obtain ⟨v', heffect, hsame⟩ := supersedes_effect hnewer
    rw [Cleared, hsame.data]
    cases heffect with
    | connection raw restores => exact applyConnected_cleared h raw
    | reading key raw now brings => exact absurd brings hno
    | committed connected values now brings restores => exact absurd brings hno
    | lost => exact fun _ => rfl
    | selected service restores => exact fun _ => rfl

/-! ### Operations in flight -/

/-- The operations are as they were. -/
structure Frame (v v' : VictronDBus) : Prop where
  operations : v'.operations = v.operations
  started : v'.started = v.started

theorem Frame.refl (v : VictronDBus) : Frame v v := ⟨rfl, rfl⟩

theorem frame_applyConnected (raw : Raw) (v : VictronDBus) : Frame v (applyConnected raw v) := by
  unfold applyConnected
  split_ifs
  · exact ⟨rfl, rfl⟩
  · exact ⟨rfl, rfl⟩

theorem frame_applyReading (key : Key) (raw : Raw) (now : ℚ) (v : VictronDBus) :
    Frame v (applyReading key raw now v) := by
  unfold applyReading
  split_ifs
  · exact ⟨rfl, rfl⟩
  · exact ⟨rfl, rfl⟩

theorem frame_locked (service : Option String) (path : String) (raw : Raw) (now : ℚ) (v : VictronDBus) :
    Frame v (applyShuntValueLocked service path raw now v).1 := by
  by_cases h : Touches v service path
  · rcases applyShuntValueLocked_of_touches h raw now with ⟨-, heq⟩ | ⟨-, key, heq⟩
    · rw [heq]
      exact frame_applyConnected raw v
    · rw [heq]
      exact frame_applyReading key raw now v
  · rw [applyShuntValueLocked_of_not_touches h]
    exact Frame.refl v

theorem frame_applyRest (service : Option String) (path : String) (raw : Raw) (meterUpdated : Bool)
    (v : VictronDBus) : Frame v (applyRest service path raw meterUpdated v) := by
  unfold applyRest
  split_ifs
  · exact Frame.refl v
  · split
    · exact ⟨rfl, rfl⟩
    · exact Frame.refl v

theorem frame_applyFastValue (service : Option String) (path : String) (raw : Raw) (now : ℚ)
    (meterUpdated : Bool)
    (v : VictronDBus) : Frame v (applyFastValue service path raw now meterUpdated v) := by
  obtain ⟨-, heq⟩ | ⟨-, -, heq⟩ | ⟨-, key, heq⟩ :=
    applyFastValue_cases service path raw now meterUpdated v
  · rw [heq]
    exact Frame.refl v
  · rw [heq]
    exact frame_applyConnected raw v
  · rw [heq]
    exact frame_applyReading key raw now v

theorem frame_pollShuntData (token : Token) (connected : Option Bool) (values : Key → Option ℚ) (now : ℚ)
    (v : VictronDBus) : Frame v (pollShuntData token connected values now v) := by
  unfold pollShuntData commitShuntSnapshot acceptShuntData
  split_ifs
  all_goals exact ⟨rfl, rfl⟩

/-- The token of an operation. -/
def tokenOf : Operation → Option Token
  | .read token => some token
  | .seed _ _ token => token
  | _ => none

/-- An operation has no token, or the current one. -/
def Fresh (v : VictronDBus) (o : Operation) :
    Prop := ∀ token, tokenOf o = some token → token = shuntToken v

/-- The event ends the operation. -/
def Completes (t : ℕ) : Event → Prop
  | .commit t' _ _ _ => t' = t
  | .seedReply t' _ _ _ => t' = t
  | .rest t' _ => t' = t
  | _ => False

/-- An operation that has the token with which it reads, or none. -/
def InFlight (o : Operation) : Prop := ∀ service path, o ≠ .compared service path

/-- **What a step does to the operations**: none, a new one, or one that goes on. -/
inductive Shape (v : VictronDBus) (e : Event) : VictronDBus → Prop
  | keeps {v'} (frame : Frame v v') : Shape v e v'
  | begins {v'} (frame : Frame v v') (o : Operation) (fresh : Fresh v o) : Shape v e (begin o v')
  | goesOn {v'} (frame : Frame v v') (t : ℕ) {before : Operation} (there : v.operations t = some before)
      (ends : InFlight before → Completes t e) (o : Option Operation)
      (fresh : ∀ o', o = some o' → Fresh v o') : Shape v e (goOn t o v')

theorem fresh_applyUnlocked (service : Option String) (path : String) (raw : Raw) (now : ℚ)
    (v : VictronDBus) : ∀ o, (applyUnlocked service path raw now v).2 = some o → Fresh v o := by
  intro o ho
  simp only [applyUnlocked] at ho
  split_ifs at ho
  obtain rfl := Option.some.inj ho
  exact fun token htoken => nomatch htoken

theorem next_shape (v : VictronDBus) (e : Event) : Shape v e (next v e) := by
  cases e with
  | signal service path raw now =>
    simp only [next]
    have hframe : Frame v (applyUnlocked service path raw now v).1 := frame_locked service path raw now v
    split
    · next o ho => exact .begins hframe o (fresh_applyUnlocked service path raw now v o ho)
    · exact .keeps hframe
  | rest t meterUpdated =>
    simp only [next]
    split
    · next ho =>
      exact .goesOn (e := .rest t meterUpdated) (frame_applyRest _ _ _ _ v) t ho
        (fun _ => rfl) none fun _ hc => nomatch hc
    · exact .keeps (Frame.refl v)
  | seed service path =>
    simp only [next]
    refine .begins (Frame.refl v) _ fun token htoken => ?_
    split_ifs at htoken
    · exact nomatch htoken
    · exact nomatch htoken
  | token t =>
    simp only [next]
    split
    · next service path ho =>
      refine .goesOn (Frame.refl v) t ho (fun hc => absurd rfl (hc service path)) _
        fun o' ho' token htoken => ?_
      obtain rfl := Option.some.inj ho'
      exact (Option.some.inj htoken).symm
    · exact .keeps (Frame.refl v)
  | seedReply t raw now meterUpdated =>
    simp only [next]
    split
    · next service path token ho =>
      cases token with
      | none =>
        exact .goesOn (e := .seedReply t raw now meterUpdated) (frame_locked _ _ _ _ v) t ho
          (fun _ => rfl) _
          (fresh_applyUnlocked _ path raw now v)
      | some token =>
        refine .goesOn (e := .seedReply t raw now meterUpdated) ?_ t ho
          (fun _ => rfl) none fun _ hc => nomatch hc
        split_ifs
        · exact frame_applyFastValue _ _ _ _ _ v
        · exact Frame.refl v
    · exact .keeps (Frame.refl v)
  | read =>
    refine .begins (Frame.refl v) _ fun token htoken => ?_
    exact (Option.some.inj htoken).symm
  | commit t connected values now =>
    simp only [next]
    split
    · next ho =>
      exact .goesOn (e := .commit t connected values now) (frame_pollShuntData _ _ _ _ v) t ho
        (fun _ => rfl)
        none fun _ hc => nomatch hc
    · exact .keeps (Frame.refl v)
  | nameOwnerChanged service =>
    simp only [next, onNameOwnerChanged]
    split_ifs
    · exact .keeps ⟨rfl, rfl⟩
    · exact .keeps (Frame.refl v)
  | discovery selected =>
    simp only [next, applyDiscovery]
    split_ifs
    · exact .keeps ⟨rfl, rfl⟩
    · exact .keeps (Frame.refl v)

structure Inv (v : VictronDBus) : Prop where
  /-- No token is from the future. -/
  tokens : ∀ t o token, v.operations t = some o → tokenOf o = some token → token.2 ≤ v.shuntGeneration
  started : ∀ t, v.started ≤ t → v.operations t = none

theorem Inv.init : Inv {} := ⟨fun _ _ _ h => (nomatch h), fun _ _ => rfl⟩

/-- An operation after a step is one from before, or a new one. -/
theorem operation_cases {o : Operation} (ho : (next v e).operations t = some o) :
    v.operations t = some o ∨ Fresh v o := by
  generalize hv' : next v e = v' at ho
  have hshape := hv' ▸ next_shape v e
  cases hshape with
  | keeps frame =>
    rw [frame.operations] at ho
    exact Or.inl ho
  | begins frame o' fresh =>
    simp only [begin, frame.operations, Function.update_apply] at ho
    split_ifs at ho
    · obtain rfl := Option.some.inj ho
      exact Or.inr fresh
    · exact Or.inl ho
  | goesOn frame t' there ends o' fresh =>
    simp only [goOn, frame.operations, Function.update_apply] at ho
    split_ifs at ho
    · exact Or.inr (fresh o ho)
    · exact Or.inl ho

theorem started_next (hinv : Inv v) (ht : (next v e).started ≤ t) : (next v e).operations t = none := by
  generalize hv' : next v e = v' at ht ⊢
  have hshape := hv' ▸ next_shape v e
  cases hshape with
  | keeps frame =>
    rw [frame.operations]
    exact hinv.started t (frame.started ▸ ht)
  | begins frame o fresh =>
    simp only [begin, frame.started] at ht
    simp only [begin, frame.operations, frame.started]
    rw [Function.update_of_ne (by omega)]
    exact hinv.started t (by omega)
  | goesOn frame t' there ends o fresh =>
    simp only [goOn, frame.started] at ht
    simp only [goOn, frame.operations]
    have hne : t ≠ t' := by
      rintro rfl
      exact nomatch (hinv.started t ht).symm.trans there
    rw [Function.update_of_ne hne]
    exact hinv.started t ht

theorem Inv.next (h : Inv v) (hguarded : Guarded v e) : Inv (next v e) where
  tokens := by
    intro t o token ho htoken
    refine le_trans ?_ (generation_le hguarded)
    rcases operation_cases ho with hold | hfresh
    · exact h.tokens t o token hold htoken
    · rw [hfresh token htoken]
      exact le_rfl
  started := fun _ ht => started_next h ht

/-- An operation in flight stays until the event that ends it. -/
theorem operation_keeps (hinv : Inv v) (ho : v.operations t = some o) (hflight : InFlight o)
    (hno : ¬ Completes t e) : (next v e).operations t = some o := by
  generalize hv' : next v e = v'
  have hshape := hv' ▸ next_shape v e
  cases hshape with
  | keeps frame =>
    rw [frame.operations]
    exact ho
  | begins frame o' fresh =>
    have hne : t ≠ v.started := by
      rintro rfl
      exact nomatch (hinv.started _ le_rfl).symm.trans ho
    simp only [begin, frame.operations, frame.started, Function.update_of_ne hne]
    exact ho
  | goesOn frame t' there ends o' fresh =>
    have hne : t ≠ t' := by
      rintro rfl
      obtain rfl := Option.some.inj (ho.symm.trans there)
      exact hno (ends hflight)
    simp only [goOn, frame.operations, Function.update_of_ne hne]
    exact ho

/-- **A token that is not current has no effect.** -/
theorem same_of_stale (hguarded : Guarded v e) (ho : v.operations t = some o) (hends : Completes t e)
    (hstale : ∀ token, tokenOf o = some token → token.2 < v.shuntGeneration) : Same v (next v e) := by
  refine (guarded_cases hguarded).resolve_right fun hnewer => ?_
  cases e with
  | commit t' connected values now =>
    obtain rfl : t' = t := hends
    obtain rfl := Option.some.inj (ho.symm.trans hnewer)
    exact absurd (hstale _ rfl) (lt_irrefl _)
  | seedReply t' raw now meterUpdated =>
    obtain rfl : t' = t := hends
    obtain ⟨service, path, hseed, -⟩ := hnewer
    obtain rfl := Option.some.inj (ho.symm.trans hseed)
    exact absurd (hstale _ rfl) (lt_irrefl _)
  | rest t' meterUpdated => exact hnewer
  | signal service path raw now => exact hends
  | seed service path => exact hends
  | token t' => exact hends
  | read => exact hends
  | nameOwnerChanged service => exact hends
  | discovery selected => exact hends

/-! ### Every run -/

/-- Every step of the run is guarded. -/
def GuardedRun (es : List Event) : Prop := ∀ a e b, es = a ++ e :: b → Guarded (exec next {} a) e

theorem GuardedRun.left {a b : List Event} (h : GuardedRun (a ++ b)) : GuardedRun a :=
  fun c e d heq => h c e (d ++ b) (by rw [heq, List.append_assoc, List.cons_append])

theorem inv_exec {es : List Event} (h : GuardedRun es) : Inv (exec next {} es) := by
  induction es using List.reverseRecOn with
  | nil => exact Inv.init
  | append_singleton es e ih =>
    rw [exec_snoc]
    exact (ih h.left).next (h es e [] rfl)

theorem generation_mono {a : List Event} (b : List Event) (h : GuardedRun (a ++ b)) :
    (exec next {} a).shuntGeneration ≤ (exec next {} (a ++ b)).shuntGeneration := by
  induction b using List.reverseRecOn with
  | nil => rw [List.append_nil]
  | append_singleton b e ih =>
    rw [← List.append_assoc] at h ⊢
    rw [exec_snoc]
    exact (ih h.left).trans (generation_le (h (a ++ b) e [] rfl))

theorem operation_exec {a : List Event} (b : List Event) (h : GuardedRun (a ++ b))
    (ho : (exec next {} a).operations t = some o) (hflight : InFlight o)
    (hb : ∀ e ∈ b, ¬ Completes t e) :
    (exec next {} (a ++ b)).operations t = some o := by
  induction b using List.reverseRecOn with
  | nil =>
    rw [List.append_nil]
    exact ho
  | append_singleton b e ih =>
    rw [← List.append_assoc] at h ⊢
    rw [exec_snoc]
    have hbefore := ih h.left fun e' he' => hb e' (List.mem_append_left _ he')
    exact operation_keeps (inv_exec h.left) hbefore hflight
      (hb e (List.mem_append_right _ (List.mem_singleton_self e)))

/-- Something newer is said in `b`. -/
def Newer (a b : List Event) : Prop :=
  ∃ b₁ e b₂, b = b₁ ++ e :: b₂ ∧ Supersedes (exec next {} (a ++ b₁)) e

/-- Where something newer was said, the tokens from before are not current. -/
theorem stale_exec {a b : List Event} (h : GuardedRun (a ++ b))
    (ho : (exec next {} a).operations t = some o) (hnewer : Newer a b) {token : Token}
    (htoken : tokenOf o = some token) : token.2 < (exec next {} (a ++ b)).shuntGeneration := by
  obtain ⟨b₁, e, b₂, rfl, hsupersedes⟩ := hnewer
  have hsplit : a ++ (b₁ ++ e :: b₂) = (a ++ b₁ ++ [e]) ++ b₂ := by simp
  rw [hsplit] at h ⊢
  have hstart := (inv_exec h.left.left.left).tokens t o token ho htoken
  have hbefore := generation_mono b₁ h.left.left
  have hmoves : (exec next {} (a ++ b₁)).shuntGeneration <
    (exec next {} (a ++ b₁ ++ [e])).shuntGeneration := by
    rw [exec_snoc]
    exact generation_lt hsupersedes
  have hafter := generation_mono b₂ h
  omega

/-- A state that guarded steps keep, unless one of another kind comes. -/
theorem keeps_exec {S : VictronDBus → Prop} {N : VictronDBus → Event → Prop}
    (hstep : ∀ {v e}, S v → Guarded v e → ¬ N v e → S (next v e)) {a : List Event} (b : List Event)
    (h : GuardedRun (a ++ b)) (hS : S (exec next {} a))
    (hno : ∀ b₁ e b₂, b = b₁ ++ e :: b₂ → ¬ N (exec next {} (a ++ b₁)) e) :
    S (exec next {} (a ++ b)) := by
  induction b using List.reverseRecOn with
  | nil =>
    rw [List.append_nil]
    exact hS
  | append_singleton b e ih =>
    rw [← List.append_assoc] at h ⊢
    rw [exec_snoc]
    refine hstep (ih h.left fun b₁ e' b₂ heq => ?_) (h (a ++ b) e [] rfl) (hno b e [] rfl)
    exact hno b₁ e' (b₂ ++ [e]) (by rw [heq, List.append_assoc, List.cons_append])

/-- What the battery readings promise in a run. -/
structure UpToDate (es : List Event) : Prop where
  /-- A reply, or the rest of a value, that has begun before something newer was said changes nothing. -/
  late : ∀ a b e t o d, es = a ++ (b ++ e :: d) → (exec next {} a).operations t = some o → InFlight o →
    (∀ e' ∈ b, ¬ Completes t e') → Completes t e → Newer a b →
    (exec next {} (a ++ b ++ [e])).systemData = (exec next {} (a ++ b)).systemData ∧
      (exec next {} (a ++ b ++ [e])).shuntConnected = (exec next {} (a ++ b)).shuntConnected ∧
      (exec next {} (a ++ b ++ [e])).shuntReadTimes = (exec next {} (a ++ b)).shuntReadTimes
  /-- Without a source, or while the latest connection state is that it is lost, nothing is reported. -/
  down : Down (exec next {} es) → ∀ now,
    (∀ key, merged (exec next {} es) now key = none) ∧ available (exec next {} es) now = false
  /-- Once the connection is lost nothing is reported, until it is restored. -/
  disconnected : ∀ a e b, es = a ++ [e] ++ b → Disconnects (exec next {} a) e →
    (∀ b₁ e' b₂, b = b₁ ++ e' :: b₂ → ¬ Restores (exec next {} (a ++ [e] ++ b₁)) e') → ∀ now,
    (∀ key, merged (exec next {} es) now key = none) ∧ available (exec next {} es) now = false
  /-- A failed read that is current leaves no reading, until something brings new ones. -/
  failed : ∀ a t connected values now b, es = a ++ [.commit t connected values now] ++ b →
    (exec next {} a).operations t = some (.read (shuntToken (exec next {} a))) →
    hasValues values = false ∨ (exec next {} a).shuntService = none →
    (∀ b₁ e b₂, b = b₁ ++ e :: b₂ →
      ¬ Brings (exec next {} (a ++ [.commit t connected values now] ++ b₁)) e) →
    ∀ key, (exec next {} es).systemData key = none

/-- **No superseded reply is committed**, in every run of guarded steps. -/
theorem superseded_exec {es : List Event} (h : GuardedRun es) : UpToDate es where
  late := by
    rintro a b e t o d rfl ho hflight hb hends hnewer
    have hrun : GuardedRun (a ++ b ++ [e] ++ d) := by
      rw [List.append_assoc, List.append_assoc, List.singleton_append]
      exact h
    have hwaits := operation_exec b hrun.left.left ho hflight hb
    have hguarded := hrun (a ++ b) e d (by simp)
    have hsame := same_of_stale hguarded hwaits hends fun token htoken =>
      stale_exec hrun.left.left ho hnewer htoken
    rw [exec_snoc]
    exact ⟨hsame.data, hsame.connected, hsame.times⟩
  down := fun hdown now => merged_of_down hdown now
  disconnected := by
    rintro a e b rfl hdisconnects hno now
    have hdown : Down (exec next {} (a ++ [e])) := by
      rw [exec_snoc]
      exact down_of_disconnects hdisconnects
    exact merged_of_down (keeps_exec (fun hd hg hn => hd.next hg hn) b h hdown hno) now
  failed := by
    rintro a t connected values now b rfl ho hfailed hno
    have hcleared : Cleared (exec next {} (a ++ [.commit t connected values now])) := by
      rw [exec_snoc, next_commit ho]
      have hdata := (commit_current connected values now (exec next {} a)).2.2.2 hfailed
      exact fun key => congrFun hdata key
    exact keeps_exec (fun hc hg hn => hc.next hg hn) b h hcleared hno

def shunt : String := "com.victronenergy.battery.ttyUSB4"

def voltage (q : ℚ) : Event := .signal (some shunt) "/Dc/0/Voltage" (.text (some q)) 10

/-- A tree read whose reply is older than a signal. -/
def staleRead : List Event :=
  [.discovery (some shunt), .read, voltage 52, .commit 0 (some true) (fun _ => some 48) 11]

theorem superseded_exec_staleRead : UpToDate staleRead := by
  refine superseded_exec fun a e b heq => ?_
  have hmem : e ∈ staleRead := by
    rw [heq]
    exact List.mem_append_right _ List.mem_cons_self
  simp only [staleRead, voltage, List.mem_cons, List.not_mem_nil, or_false] at hmem
  rcases hmem with rfl | rfl | rfl | rfl
  all_goals exact trivial

/-- The seed begins while its service is not selected, so it has no token; it ends after a newer
signal. -/
def staleSeedBegun : List Event :=
  [.discovery (some shunt), .discovery none, .seed shunt "/Dc/0/Voltage"]

def selectedAgain : List Event := [.discovery (some shunt), voltage 52]

def staleReply : Event := .seedReply 0 (.text (some 48)) 11 false

theorem stale_seed_applied : ¬ UpToDate (staleSeedBegun ++ (selectedAgain ++ [staleReply])) := by
  intro h
  have hlate := h.late staleSeedBegun selectedAgain staleReply 0 (.seed shunt "/Dc/0/Voltage" none)
      [] rfl
    rfl (fun _ _ hc => nomatch hc) (by simp [selectedAgain, voltage, Completes]) rfl
    ⟨[], _, _, rfl, fun hc => nomatch hc⟩
  have hvalue := congrFun hlate.1 .bv
  exact absurd hvalue (by decide +kernel)

end InverterControl.Victron.Superseded
