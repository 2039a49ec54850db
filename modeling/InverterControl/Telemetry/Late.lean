import InverterControl.Telemetry.Pinning

/-!
# Late replies do not restore the grid

Every branch that takes something away, accepts a reply or sees the topology change raises the
generation (`generation_lt`), and no call lowers it; so a reply with an older token is refused.  What an
invalidation took away comes back only with the two kinds of replies.
-/

namespace InverterControl.Telemetry.Late

open InverterControl.Lib.Runs InverterControl.Python InverterControl.Telemetry.Model
open InverterControl.Telemetry.Steps InverterControl.Telemetry.Pinning

variable {t : GridTelemetry} {e : Event} {now : ℚ}

/-! ### The generation -/

/-- The call carries a token. -/
def Carries (e : Event) (g : ℕ) : Prop :=
  (∃ values, e.op = .replace values (some g)) ∨ (∃ service reply, e.op = .replaceMeter service reply g) ∨
    ∃ service path raw, e.op = .updateMeter service path raw (some g)

/-- A topology or source field changed, or a power, a connection or a declared phase count was lost. -/
def Disturbs (t t' : GridTelemetry) : Prop :=
  (∃ path, path.isPower = false ∧ t'.fields path ≠ t.fields path) ∨
  (∃ p, t.fields (.power p) ≠ none ∧ t'.fields (.power p) = none) ∨
  (∃ service, t.meterFields (service, .connected) = some 1 ∧
    t'.meterFields (service, .connected) ≠ some 1) ∨
  ∃ service, t'.meterFields (service, .phases) ≠ t.meterFields (service, .phases)

/-- The call makes every earlier token stale. -/
def Outdates (t : GridTelemetry) (e : Event) : Prop :=
  match e.op with
  | .update _ _ => Disturbs t (next t e)
  | .updateMeter _ _ _ none => Disturbs t (next t e)
  | .updateMeter _ _ _ (some _) => False
  | .replace _ token => isCurrent t token
  | .replaceMeter service _ token => token = t.generation ∧ some service = selectedMeter t
  | .ownerChanged service => (ownerChanged t service).1 = true
  | .unavailable _ => True
  | .snapshot => False

/-- No name that is held is empty. -/
def Named (t : GridTelemetry) : Prop := ∀ path, t.fields path ≠ some (.name "")

theorem stored_ne_empty (path : GridPath) (raw : Raw) : stored path raw ≠ some (.name "") := by
  unfold stored
  split
  · split_ifs with h
    · exact nofun
    · simpa using h
  · exact nofun
  · cases raw.number <;> simp

theorem named_next (h : Named t) (e : Event) : Named (next t e) := by
  intro path
  rcases next_field path t e with ⟨v, hobs, hf, -⟩ | ⟨-, -, hf, -⟩ | ⟨-, -, hf, -⟩
  · rw [show (next t e).fields path = v from hf]
    rintro rfl
    change observation t e path = _ at hobs
    unfold observation at hobs
    split at hobs
    · split_ifs at hobs
      exact stored_ne_empty _ _ (Option.some.inj hobs)
    · split_ifs at hobs
      exact stored_ne_empty _ _ (Option.some.inj hobs)
    · cases hobs
  · rw [show (next t e).fields path = none from hf]
    exact nofun
  · rw [show (next t e).fields path = t.fields path from hf]
    exact h path

/-- A stored value that is another one differs. -/
theorem differs_of_stored_ne {path : GridPath} {raw : Raw} (hn : Named t)
    (h : stored path raw ≠ t.fields path) : differs path raw (t.fields path) = true := by
  have hne := hn path
  cases path with
  | serviceName i =>
    cases raw with
    | none => simpa [differs, stored] using h.symm
    | text s number =>
      by_cases hs : s = ""
      · subst hs
        simpa [differs] using hne
      · simp only [stored, if_neg hs] at h
        simpa [differs] using h.symm
    | other number => rfl
  | phaseCount => simpa [differs, stored] using h
  | power p => simpa [differs, stored] using h
  | source i => simpa [differs, stored] using h
  | deviceInstance i => simpa [differs, stored] using h

theorem not_disturbs_self : ¬ Disturbs t t := by
  rintro (⟨path, -, h⟩ | ⟨p, h, h'⟩ | ⟨service, h, h'⟩ | ⟨service, h⟩)
  · exact h rfl
  · exact h h'
  · exact h' h
  · exact h rfl

/-- A signal that does not raise the generation disturbs nothing. -/
theorem not_disturbs_updateField {p : GridPath} {raw : Raw} (hn : Named t)
    (h : outdatesRead t p raw = false) : ¬ Disturbs t (updateField t p raw now) := by
  have hself : (updateField t p raw now).fields p = stored p raw := Function.update_self _ _ _
  have hother {path : GridPath} (hne : path ≠ p) :
      (updateField t p raw now).fields path = t.fields path := Function.update_of_ne hne _ _
  rintro (⟨path, hpower, hchanged⟩ | ⟨q, hheld, hlost⟩ | ⟨service, hheld, hlost⟩ | ⟨service, hchanged⟩)
  · by_cases heq : path = p
    · subst heq
      rw [hself] at hchanged
      rw [outdatesRead, hpower, differs_of_stored_ne hn hchanged] at h
      cases h
    · exact hchanged (hother heq)
  · by_cases heq : .power q = p
    · subst heq
      rw [hself, stored_power, Option.map_eq_none_iff] at hlost
      simp [outdatesRead, GridPath.isPower, hlost] at h
    · rw [hother heq] at hlost
      exact hheld hlost
  · exact hlost hheld
  · exact hchanged rfl

/-- The same of a meter's signal. -/
theorem not_disturbs_meter {t' : GridTelemetry} {name : String} {p : MeterPath} {value : Option ℚ}
    (hf : t'.fields = t.fields) (hm : t'.meterFields = Function.update t.meterFields (name, p) value)
    (h : outdatesMeterRead t name p value = false) : ¬ Disturbs t t' := by
  have hother {key : String × MeterPath} (hne : key ≠ (name, p)) :
      t'.meterFields key = t.meterFields key := by
    rw [hm]
    exact Function.update_of_ne hne _ _
  have hself : t'.meterFields (name, p) = value := by
    rw [hm]
    exact Function.update_self _ _ _
  rintro (⟨path, -, hchanged⟩ | ⟨q, hheld, hlost⟩ | ⟨service, hheld, hlost⟩ | ⟨service, hchanged⟩)
  · exact hchanged (by rw [hf])
  · rw [hf] at hlost
    exact hheld hlost
  · by_cases heq : (service, MeterPath.connected) = (name, p)
    · obtain ⟨rfl, rfl⟩ := Prod.mk.inj heq
      rw [hself] at hlost
      simp [outdatesMeterRead, hlost] at h
    · rw [hother heq] at hlost
      exact hlost hheld
  · by_cases heq : (service, MeterPath.phases) = (name, p)
    · obtain ⟨rfl, rfl⟩ := Prod.mk.inj heq
      rw [hself] at hchanged
      simp [outdatesMeterRead, hchanged] at h
    · exact hchanged (hother heq)

/-- A meter's signal without a token raises the generation, or disturbs nothing. -/
theorem acceptMeterUpdate_generation (name : String) (p : MeterPath) (raw : Raw) :
    (acceptMeterUpdate t name p raw none now).generation =
      t.generation + if outdatesMeterRead t name p raw.number = true then 1 else 0 := by
  unfold acceptMeterUpdate noteMeterSignal
  split_ifs <;> simp_all [storeMeter, requireDeclared, bump]

/-- **What makes a token stale raises the generation.** -/
theorem generation_lt (hn : Named t) (h : Outdates t e) : t.generation < (next t e).generation := by
  obtain ⟨op, now⟩ := e
  cases op with
  | update text raw =>
    have hd : Disturbs t (update t text raw now) := h
    change t.generation < (update t text raw now).generation
    unfold update at hd ⊢
    cases hp : gridPath text with
    | none =>
      rw [hp] at hd
      exact absurd hd not_disturbs_self
    | some p =>
      rw [hp] at hd
      simp only [updateGrid] at hd ⊢
      cases ho : outdatesRead t p raw with
      | true => exact Nat.lt_succ_self _
      | false =>
        rw [ho] at hd
        exact absurd hd (not_disturbs_updateField hn ho)
  | replace values token =>
    obtain ⟨f, u, g, hr⟩ := replace_frame now values token t h
    simp only [next, hr]
    exact Nat.lt_succ_self _
  | updateMeter service text raw token =>
    cases token with
    | some g => cases h
    | none =>
      have hd : Disturbs t (updateMeter t service text raw none now).2 := h
      change t.generation < (updateMeter t service text raw none now).2.generation
      rcases updateMeter_cases t now service text raw none with
        ⟨hu, -⟩ | ⟨name, p, -, -, -, -, hu⟩
      · rw [hu] at hd
        exact absurd hd not_disturbs_self
      · rw [hu] at hd ⊢
        rw [acceptMeterUpdate_generation]
        cases ho : outdatesMeterRead t name p raw.number with
        | true => exact Nat.lt_succ_self _
        | false =>
          obtain ⟨n, d, hm⟩ := acceptMeterUpdate_frame t now name p raw none
          exact absurd hd (not_disturbs_meter (by rw [hm]) (by rw [hm]) ho)
  | replaceMeter service reply token =>
    obtain ⟨htoken, hsel⟩ : token = t.generation ∧ some service = selectedMeter t := h
    rcases replaceMeter_cases t now service reply token with
      ⟨-, hno⟩ | ⟨-, -, ⟨rfl, hr⟩ | ⟨r, rfl, hr⟩⟩
    · exact absurd hsel (hno htoken)
    · simp only [next, hr]
      exact Nat.lt_succ_self _
    · simp only [next, hr]
      exact Nat.lt_succ_self _
  | ownerChanged service =>
    have hc : (ownerChanged t service).1 = true := h
    unfold ownerChanged at hc
    split_ifs at hc with hcrit
    simp only [next, ownerChanged, if_pos hcrit]
    exact Nat.lt_succ_self _
  | unavailable reason => exact Nat.lt_succ_self _
  | snapshot => cases h

/-- No call lowers the generation. -/
theorem generation_le (t : GridTelemetry) (e : Event) : t.generation ≤ (next t e).generation := by
  obtain ⟨op, now⟩ := e
  cases op with
  | update text raw =>
    simp only [next, update]
    split
    · unfold updateGrid
      split
      · exact Nat.le_succ _
      · exact le_rfl
    · exact le_rfl
  | replace values token =>
    by_cases h : isCurrent t token
    · obtain ⟨f, u, g, hr⟩ := replace_frame now values token t h
      simp only [next, hr]
      exact Nat.le_succ _
    · have hr : next t ⟨.replace values token, now⟩ = t := if_neg h
      rw [hr]
  | updateMeter service text raw token =>
    simp only [next]
    rcases updateMeter_cases t now service text raw token with
      ⟨hu, -⟩ | ⟨name, p, -, -, -, -, hu⟩
    · rw [hu]
    · rw [hu]
      unfold acceptMeterUpdate noteMeterSignal
      split_ifs <;> simp [storeMeter, requireDeclared, bump]
  | replaceMeter service reply token =>
    simp only [next]
    rcases replaceMeter_cases t now service reply token with
      ⟨hr, -⟩ | ⟨-, -, ⟨-, hr⟩ | ⟨r, -, hr⟩⟩
    · rw [hr]
    · rw [hr]
      exact Nat.le_succ _
    · rw [hr]
      exact Nat.le_succ _
  | ownerChanged service =>
    simp only [next, ownerChanged]
    split_ifs
    · exact Nat.le_succ _
    · exact le_rfl
  | unavailable reason => exact Nat.le_succ _
  | snapshot =>
    obtain ⟨n, s, i, hs⟩ := snapshot_frame (t := t) now
    simp only [next, hs, le_refl]

/-- A reply with another token is refused. -/
theorem next_of_stale {g : ℕ} (hc : Carries e g) (hg : g ≠ t.generation) : next t e = t := by
  obtain ⟨op, now⟩ := e
  have hstale : ¬ isCurrent t (some g) := fun h => hg (h g rfl)
  rcases hc with ⟨values, rfl⟩ | ⟨service, reply, rfl⟩ | ⟨service, path, raw, rfl⟩
  · exact if_neg hstale
  · exact congrArg Prod.snd (if_pos (Or.inl hg))
  · simp only [next]
    rcases updateMeter_cases t now service path raw (some g) with
      ⟨hu, -⟩ | ⟨name, p, -, -, -, hcur, -⟩
    · rw [hu]
    · exact absurd hcur hstale

/-- **A token that was read before is refused.** -/
theorem stale_refused (hn : Named t) {es : List Event}
    (h : ∃ x ∈ trace next t es, Outdates x.before x.input)
    (hc : Carries e t.generation) : next (exec next t es) e = exec next t es := by
  obtain ⟨x, hx, hout⟩ := h
  obtain ⟨a, b, rfl, hb⟩ := (mem_trace next).mp hx
  have hn' : Named (exec next t a) := exec_invariant (P := Named) hn fun y _ hy => named_next hy y.input
  rw [hb] at hout
  have hlt := generation_lt hn' hout
  have hle := exec_mono (f := GridTelemetry.generation) generation_le t a
  have hle' := exec_mono (f := GridTelemetry.generation) generation_le
    (next (exec next t a) x.input) b
  refine next_of_stale hc ?_
  rw [exec_append, exec_cons]
  omega

/-! ### What brings the measurement back -/

/-- A `replace` that is applied. -/
def Applied (x : Taken GridTelemetry Event) : Prop :=
  ∃ values token, x.input.op = .replace values token ∧ isCurrent x.before token

/-- A `replace_meter` of the service that succeeds. -/
def Acquired (service : String) (x : Taken GridTelemetry Event) : Prop :=
  ∃ reply token, x.input.op = .replaceMeter service (some reply) token ∧
    (replaceMeter x.before service (some reply) token x.input.now).1 = true

/-- Every failed read gives its reason. -/
def Explained (es : List Event) : Prop := ∀ e ∈ es, ∀ reason, e.op = .unavailable reason → reason ≠ ""

/-- The error of an owner stays until a `replace` is applied. -/
theorem ownerError_next (h : t.ownerError ≠ none) (hr : ¬ Applied ⟨t, e⟩)
    (he : ∀ reason, e.op = .unavailable reason → reason ≠ "") : (next t e).ownerError ≠ none := by
  obtain ⟨op, now⟩ := e
  cases op with
  | update text raw =>
    simp only [next, update]
    cases gridPath text with
    | none => exact h
    | some p =>
      obtain ⟨n, f, u, g, hu⟩ := updateGrid_frame t now p raw
      simp only [hu]
      exact h
  | replace values token =>
    have hno : ¬ isCurrent t token := fun hc => hr ⟨values, token, rfl, hc⟩
    have hn : next t ⟨.replace values token, now⟩ = t := if_neg hno
    rwa [hn]
  | updateMeter service text raw token =>
    simp only [next]
    rcases updateMeter_cases t now service text raw token with
      ⟨hu, -⟩ | ⟨name, p, -, -, -, -, hu⟩
    · rwa [hu]
    · obtain ⟨n, d, hm⟩ := acceptMeterUpdate_frame t now name p raw token
      rw [hu, hm]
      exact h
  | replaceMeter service reply token =>
    simp only [next]
    rcases replaceMeter_cases t now service reply token with
      ⟨hm, -⟩ | ⟨-, -, ⟨-, hm⟩ | ⟨r, -, hm⟩⟩
    · rwa [hm]
    · rw [hm]
      exact h
    · rw [hm]
      exact h
  | ownerChanged service =>
    simp only [next, ownerChanged]
    split_ifs
    · exact Option.some_ne_none _
    · exact h
  | unavailable reason =>
    simp only [next, unavailable, clear, if_neg (he reason rfl)]
    exact Option.some_ne_none _
  | snapshot =>
    obtain ⟨n, s, i, hs⟩ := snapshot_frame (t := t) now
    simp only [next, hs]
    exact h

/-- A meter that is not ready stays so until it is acquired. -/
theorem meterReady_next {service : String} (h : service ∉ t.meterReady)
    (hno : ¬ Acquired service ⟨t, e⟩) : service ∉ (next t e).meterReady := by
  obtain ⟨op, now⟩ := e
  cases op with
  | update text raw =>
    simp only [next, update]
    cases gridPath text with
    | none => exact h
    | some p =>
      obtain ⟨n, f, u, g, hu⟩ := updateGrid_frame t now p raw
      simp only [hu]
      exact h
  | replace values token =>
    by_cases hc : isCurrent t token
    · obtain ⟨f, u, g, hr⟩ := replace_frame now values token t hc
      simp only [next, hr]
      exact h
    · have hn : next t ⟨.replace values token, now⟩ = t := if_neg hc
      rwa [hn]
  | updateMeter name text raw token =>
    simp only [next]
    rcases updateMeter_cases t now name text raw token with
      ⟨hu, -⟩ | ⟨name, p, -, -, -, -, hu⟩
    · rwa [hu]
    · obtain ⟨n, d, hm⟩ := acceptMeterUpdate_frame t now name p raw token
      rw [hu, hm]
      exact h
  | replaceMeter name reply token =>
    simp only [next]
    rcases replaceMeter_cases t now name reply token with
      ⟨hm, -⟩ | ⟨-, -, ⟨-, hm⟩ | ⟨r, rfl, hm⟩⟩
    · rwa [hm]
    · rw [hm]
      exact fun hmem => h (Finset.mem_of_mem_erase hmem)
    · have hne : service ≠ name := by
        rintro rfl
        exact hno ⟨r, token, rfl, congrArg Prod.fst hm⟩
      rw [hm]
      exact fun hmem => h (Finset.mem_of_mem_insert_of_ne hmem hne)
  | ownerChanged name =>
    simp only [next, ownerChanged]
    split_ifs
    · exact Finset.notMem_empty _
    · exact h
  | unavailable reason => exact Finset.notMem_empty _
  | snapshot =>
    obtain ⟨n, s, i, hs⟩ := snapshot_frame (t := t) now
    simp only [next, hs]
    exact h

/-- A measurement that the owner's error hides is valid again after a `replace` only. -/
theorem applied_of_valid {es : List Event} (he : Explained es) (h : t.ownerError ≠ none)
    (hv : (snapshotAt t es now).valid = true) : ∃ x ∈ trace next t es, Applied x := by
  by_contra hno
  push Not at hno
  obtain ⟨m, hm, -⟩ := snapshot_valid hv
  refine absurd (measure_ok hm).1 ?_
  refine exec_invariant (P := fun t : GridTelemetry => t.ownerError ≠ none) h fun x hx h => ?_
  obtain ⟨a, b, hab, -⟩ := (mem_trace next).mp hx
  exact ownerError_next h (hno x hx) (he x.input (by rw [hab]; simp))

/-- A meter that is not ready is measured again after it is acquired only. -/
theorem acquired_of_valid {es : List Event} {source : String} (h : source ∉ t.meterReady)
    (hv : (snapshotAt t es now).valid = true) (hs : (snapshotAt t es now).source = some source)
    (hservice : startsWith source gridServicePrefix) : ∃ x ∈ trace next t es, Acquired source x := by
  by_contra hno
  push Not at hno
  obtain ⟨m, hm, -, hsnap⟩ := snapshot_valid hv
  obtain ⟨-, -, i, hsrc, -⟩ := measure_ok hm
  have hshow : snapshotAt t es now = report (establish (exec next t es) m) none
      (some (measurementAge (exec next t es) now m)) := congrArg Prod.fst hsnap
  rw [hshow] at hs
  obtain rfl : m.source = source := Option.some.inj hs
  refine absurd (hsrc.meter hservice).1 ?_
  exact exec_invariant (P := fun t : GridTelemetry => m.source ∉ t.meterReady) h
    fun x hx h => meterReady_next h (hno x hx)

/-- What an invalidation leaves. -/
theorem invalidated (he : ∀ reason, e.op = .unavailable reason → reason ≠ "") (h : invalidates t e) :
    (next t e).ownerError ≠ none ∧ (next t e).meterReady = ∅ := by
  obtain ⟨op, now⟩ := e
  cases op with
  | ownerChanged service =>
    have hc : next t ⟨.ownerChanged service, now⟩ = clear t _ := congrArg Prod.snd (if_pos h)
    rw [hc]
    exact ⟨Option.some_ne_none _, rfl⟩
  | unavailable reason =>
    refine ⟨?_, rfl⟩
    simp only [next, unavailable, clear, if_neg (he reason rfl)]
    exact Option.some_ne_none _
  | _ => cases h

/-- **Invalidation is not undone by late replies.** -/
theorem late_replies (maxAge : ℚ) (expectedService : String) (expectedPhases : ℤ) (es : List Event)
    (he : Explained es) :
    (∀ past e between now rest, es = past ++ e :: (between ++ ⟨.snapshot, now⟩ :: rest) →
      ∀ t, t = exec next (init maxAge expectedService expectedPhases) past →
      (∃ service, e.op = .ownerChanged service ∧ (ownerChanged t service).1 = true) ∨
        (∃ reason, e.op = .unavailable reason) →
      (snapshotAt (next t e) between now).valid = true →
      (∃ x ∈ trace next (next t e) between, Applied x) ∧
      ∀ source, (snapshotAt (next t e) between now).source = some source →
        startsWith source gridServicePrefix →
        ∃ x ∈ trace next (next t e) between, Acquired source x) ∧
    (∀ past e between now rest, es = past ++ e :: (between ++ ⟨.snapshot, now⟩ :: rest) →
      ∀ t, t = exec next (init maxAge expectedService expectedPhases) past →
      ∀ service token, e.op = .replaceMeter service none token → token = t.generation →
      some service = selectedMeter t → (snapshotAt (next t e) between now).valid = true →
      (snapshotAt (next t e) between now).source = some service →
      ∃ x ∈ trace next (next t e) between, Acquired service x) ∧
    ∀ past between e rest, es = past ++ (between ++ e :: rest) →
      ∀ t, t = exec next (init maxAge expectedService expectedPhases) past →
      (∃ x ∈ trace next t between, Outdates x.before x.input) → Carries e t.generation →
      next (exec next t between) e = exec next t between := by
  refine ⟨?_, ?_, ?_⟩
  · rintro past e between now rest rfl t rfl hinv hv
    have hreason : ∀ reason, e.op = .unavailable reason → reason ≠ "" := he e (by simp)
    have hinv' : invalidates (exec next (init maxAge expectedService expectedPhases) past) e := by
      unfold invalidates
      rcases hinv with ⟨service, hop, hc⟩ | ⟨reason, hop⟩
      · rw [hop]
        unfold ownerChanged at hc
        split_ifs at hc with hcrit
        exact hcrit
      · rw [hop]
        trivial
    obtain ⟨howner, hready⟩ := invalidated hreason hinv'
    refine ⟨applied_of_valid (fun e' he' => he e' (by simp [he'])) howner hv, ?_⟩
    exact fun source hs hservice => acquired_of_valid (by simp [hready]) hv hs hservice
  · rintro past e between now rest rfl t rfl service token hop htoken hsel hv hs
    have hservice : startsWith service gridServicePrefix := by
      unfold selectedMeter at hsel
      split at hsel
      · split_ifs at hsel with hp
        rwa [Option.some.inj hsel]
      · cases hsel
    have hnext : next (exec next (init maxAge expectedService expectedPhases) past) e =
        dropMeter (exec next (init maxAge expectedService expectedPhases) past) service := by
      simp only [next, hop, replaceMeter]
      rw [if_neg (by rintro (h | h); exacts [h htoken, h hsel])]
    refine acquired_of_valid ?_ hv hs hservice
    rw [hnext]
    exact Finset.notMem_erase _ _
  · rintro past between e rest - t rfl hout hc
    refine stale_refused (exec_invariant (P := Named) (by rintro path ⟨⟩) fun x _ hx => ?_) hout hc
    exact named_next hx x.input

/-- The meter of a complete reply. -/
def connectedReply : Option MeterReply := some ⟨.other (some 1), some (.other (some 1))⟩

/-- The bus changes its owner between a read and its reply; the next reads restore the meter. -/
def ownerRun : List Event :=
  [⟨.replace oneMeter none, 0⟩,
    ⟨.replaceMeter "com.victronenergy.grid.meter" connectedReply 1, 1⟩,
    ⟨.ownerChanged "com.victronenergy.system", 2⟩, ⟨.replace oneMeter (some 2), 3⟩,
    ⟨.replace oneMeter (some 3), 4⟩,
    ⟨.replaceMeter "com.victronenergy.grid.meter" connectedReply 4, 5⟩, ⟨.snapshot, 6⟩]

/-- The late reply is refused, and the snapshot is valid after the two reads that follow. -/
theorem late_replies_owner :
    next (exec next (init 10 "" 0) (ownerRun.take 3)) ⟨.replace oneMeter (some 2), 3⟩ =
      exec next (init 10 "" 0) (ownerRun.take 3) ∧
    (snapshotAt (exec next (init 10 "" 0) (ownerRun.take 3)) ((ownerRun.drop 3).take 3) 6).valid = true ∧
    ∃ x ∈ trace next (exec next (init 10 "" 0) (ownerRun.take 3)) ((ownerRun.drop 3).take 3),
      Applied x := by
  have he : Explained ownerRun := by
    intro e he reason hop
    fin_cases he <;> cases hop
  have hv :
    (snapshotAt (exec next (init 10 "" 0) (ownerRun.take 3)) ((ownerRun.drop 3).take 3) 6).valid =
      true := by decide +kernel
  obtain ⟨h1, -, h3⟩ := late_replies 10 "" 0 ownerRun he
  refine ⟨?_, hv, ?_⟩
  · refine h3 (ownerRun.take 2) [ownerRun[2]] _ (ownerRun.drop 4) rfl _ rfl ?_ (Or.inl ⟨_, rfl⟩)
    exact ⟨_, List.mem_cons_self, congrArg Prod.fst (if_pos (Or.inl rfl))⟩
  · exact (h1 (ownerRun.take 2) ownerRun[2] ((ownerRun.drop 3).take 3) 6 [] rfl _ rfl
      (Or.inl ⟨_, rfl, congrArg Prod.fst (if_pos (Or.inl rfl))⟩) hv).1

end InverterControl.Telemetry.Late
