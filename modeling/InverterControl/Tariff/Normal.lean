import InverterControl.Tariff.Model

/-!
# A normalized plan is a valid tariff

The members of a plan, in whatever order, are accepted by `validate_tariff` and give the plan back
(`validateTariff_shows`).  So the text that `revision` hashes determines the plan
(`canonical_injective`), and the text that is written is read as the plan (`readTariff_content`), if
floats that are finite have an exact text.
-/

namespace InverterControl.Tariff.Normal

open InverterControl.Lib.Checks InverterControl.Lib.Json InverterControl.Tariff.Model

variable {F : Type} {P : Platform F} {p : Plan P} {s : Season P} {ms : List (String × Value F)}

/-! ### The parts -/

theorem text_text {limit : ℕ} (t : Text limit) (label : String) :
    text (.str t.text : Value F) label limit = .ok t := by
  obtain ⟨t, hstripped, hne, hlen⟩ := t
  simp only [text, hstripped]
  exact dif_pos ⟨hne, hlen⟩

theorem number_toValue (r : Rate P) : number P r.toValue = .ok r := by
  cases r with
  | int n h => simp [number, Rate.toValue, h]
  | float q h => simp [number, Rate.toValue, h]

theorem row_rowValue (r : Row P) : row P (rowValue r) = .ok r := by
  have hlen : (r.1.map Rate.toValue).length = 7 := (List.length_map _).trans r.2
  rw [rowValue, row, dif_pos hlen, each_map fun b _ => number_toValue b]
  rfl

theorem grid_gridValue (g : Grid P) : grid P (gridValue g) = .ok g := by
  have hlen : (g.1.map rowValue).length = 48 := (List.length_map _).trans g.2
  rw [gridValue, grid, dif_pos hlen, each_map fun b _ => row_rowValue b]
  rfl

theorem takeMonths_map {taken : List ℤ} : ∀ {used : List ℤ}, Taken used taken →
    takeMonths used (taken.map fun m => (.int m : Value F)) = .ok taken := by
  induction taken with
  | nil => exact fun _ => rfl
  | cons m taken ih =>
    intro used h
    obtain ⟨hm, hnodup⟩ := List.nodup_cons.mp h.nodup
    have htail : Taken (m :: used) taken := by
      refine ⟨hnodup, fun m' hm' hu => ?_, fun m' hm' => h.range m' (List.mem_cons_of_mem m hm')⟩
      rcases List.mem_cons.mp hu with rfl | hu
      · exact hm hm'
      · exact h.fresh m' (List.mem_cons_of_mem m hm') hu
    rw [List.map_cons, takeMonths, integerIn, if_pos (h.range m List.mem_cons_self)]
    simp only [if_neg (h.fresh m List.mem_cons_self), ih htail]
    rfl

/-- Months that are sorted stay as they are. -/
theorem sortedMonths_eq {used : List ℤ} (months : Months) (h : Taken used months.months)
    (hne : months.months ≠ []) : sortedMonths h hne = months := by
  have hsorted : months.months.Pairwise (· ≤ ·) := months.sorted.imp fun hab => le_of_lt hab
  obtain ⟨ms, hnil, hrange, hlt⟩ := months
  simp only [sortedMonths, hsorted.insertionSort_eq]

/-- The members of a season, in whatever order. -/
structure SeasonShows (ms : List (String × Value F)) (s : Season P) : Prop where
  name : item ms "name" = some (.str s.name.text)
  months : item ms "months" = some (.arr (s.months.months.map .int))
  rates : item ms "rates" = some (gridValue s.rates)

theorem season_shows (h : SeasonShows ms s) {used : List ℤ} (hs : Taken used s.months.months) :
    season P false used (.obj ms) = .ok ⟨s, hs⟩ := by
  have hmonths : field ms "months" = .arr (s.months.months.map .int) := by
    rw [field, h.months]
    rfl
  have hne : s.months.months.map (Value.int (F := F)) ≠ [] :=
    fun hnil => s.months.nonempty (List.map_eq_nil_iff.mp hnil)
  have htaken : takeMonths used (s.months.months.map (Value.int (F := F))) = .ok s.months.months :=
    takeMonths_map hs
  have hname : text (field ms "name") "Season name" 80 = .ok s.name := by
    rw [field, h.name]
    exact text_text s.name _
  have hrates : convert P false (field ms (gridKey false)) = .ok s.rates := by
    rw [gridKey, if_neg Bool.false_ne_true, field, h.rates]
    exact grid_gridValue s.rates
  simp only [season, hmonths, dif_pos hne]
  refine bind_eq_ok.mpr ⟨⟨s.months.months, htaken⟩, found_eq_ok, ?_⟩
  refine bind_eq_ok.mpr ⟨s.name, hname, bind_eq_ok.mpr ⟨s.rates, hrates, ?_⟩⟩
  obtain ⟨name, months, rates⟩ := s
  simp only [sortedMonths_eq]

theorem seasonList_shows {k : Season P → List (String × Value F)} (hk : ∀ s, SeasonShows (k s) s)
    (l : List (Season P)) : ∀ {used : List ℤ} (h : Taken used (allMonths l)),
    seasonList P false used (l.map fun s => .obj (k s)) = .ok ⟨l, (List.length_map _).symm, h⟩ := by
  induction l with
  | nil => exact fun _ => rfl
  | cons s l ih =>
    intro used h
    have hmem : ∀ m, m ∈ s.months.months ∨ m ∈ allMonths l → m ∈ allMonths (s :: l) := by
      intro m hm
      rw [allMonths, List.flatMap_cons]
      exact List.mem_append.mpr hm
    have hnodup := h.nodup
    rw [allMonths, List.flatMap_cons, List.nodup_append] at hnodup
    obtain ⟨hs, hl, hdisj⟩ := hnodup
    have hfirst : Taken used s.months.months :=
      ⟨hs, fun m hm => h.fresh m (hmem m (Or.inl hm)), s.months.range⟩
    have hrest : Taken (s.months.months ++ used) (allMonths l) := by
      refine ⟨hl, fun m hm hu => ?_, fun m hm => h.range m (hmem m (Or.inr hm))⟩
      rcases List.mem_append.mp hu with hu | hu
      · exact hdisj m hu m hm rfl
      · exact h.fresh m (hmem m (Or.inr hm)) hu
    refine bind_eq_ok.mpr ⟨⟨s, hfirst⟩, season_shows (hk s) hfirst, ?_⟩
    exact bind_eq_ok.mpr ⟨_, ih hrest, rfl⟩

theorem seasonGrids_shows {k : Season P → List (String × Value F)} (hk : ∀ s, SeasonShows (k s) s)
    (l : Seasons P) : seasonGrids P false (.arr (l.1.map fun s => .obj (k s))) = .ok l := by
  have hlen : (l.1.map fun s => (.obj (k s) : Value F)).length ≤ 12 := by
    rw [List.length_map]
    exact l.2.1
  have htaken : Taken [] (allMonths l.1) := by
    refine ⟨l.2.2, by simp, fun m hm => ?_⟩
    obtain ⟨s, -, hs⟩ := List.mem_flatMap.mp hm
    exact s.months.range m hs
  rw [seasonGrids, dif_pos hlen, seasonList_shows hk l.1 htaken]
  rfl

/-! ### The plan -/

/-- The members of a plan, in whatever order, with the members `k` of its seasons. -/
structure Shows (ms : List (String × Value F)) (k : Season P → List (String × Value F)) (p : Plan P) :
    Prop where
  kind : item ms "type" = none
  version : item ms "version" = some (.int 2)
  name : item ms "name" = some (.str p.metadata.name.text)
  currency : item ms "currency" = some (.str p.metadata.currency.1)
  timeZone : item ms "timeZone" = some (.str p.metadata.timeZone.1.text)
  source : item ms "source" = some (.str p.metadata.source.text)
  billingDay : item ms "billingDay" = p.metadata.billingDay.map fun n => .int n.1
  reference : item ms "reference" = p.metadata.reference.map fun s => .str s.1
  rates : item ms "rates" = some (gridValue p.rates)
  seasons : item ms "seasons" = some (.arr (p.seasons.1.map fun s => .obj (k s)))

variable {k : Season P → List (String × Value F)}

theorem metadata_shows (h : Shows ms k p) : metadata P ms false = .ok p.metadata := by
  have hcurrency : Model.currency (field ms "currency") = .ok p.metadata.currency := by
    rw [field, h.currency]
    exact dif_pos p.metadata.currency.2
  have hzone : Model.timeZone P (field ms "timeZone") = .ok p.metadata.timeZone := by
    rw [field, h.timeZone]
    exact bind_eq_ok.mpr ⟨p.metadata.timeZone.1, text_text _ _, dif_pos p.metadata.timeZone.2⟩
  have hsource : Model.source ((item ms "source").getD (if false then .str "manual" else .null)) =
      .ok p.metadata.source := by
    rw [h.source]
    cases p.metadata.source with
    | manual => rfl
    | emporia => rfl
  have hname : text (field ms "name") "Name" 120 = .ok p.metadata.name := by
    rw [field, h.name]
    exact text_text _ _
  have hday : Model.billingDay (item ms "billingDay") = .ok p.metadata.billingDay := by
    rw [h.billingDay]
    cases p.metadata.billingDay with
    | none => rfl
    | some n => exact dif_pos n.2
  have href : Model.reference (item ms "reference") = .ok p.metadata.reference := by
    rw [h.reference]
    cases p.metadata.reference with
    | none => rfl
    | some s =>
      show Model.reference (some (.str s.1)) = _
      rw [Model.reference, dif_pos s.2.2, dif_neg s.2.1]
  exact bind_eq_ok.mpr ⟨_, hcurrency, bind_eq_ok.mpr ⟨_, hzone, bind_eq_ok.mpr ⟨_, hsource,
    bind_eq_ok.mpr ⟨_, hname, bind_eq_ok.mpr ⟨_, hday, bind_eq_ok.mpr ⟨_, href, rfl⟩⟩⟩⟩⟩⟩

/-- **The members of a plan are accepted, and give the plan back.** -/
theorem validateTariff_shows (h : Shows ms k p) (hk : ∀ s, SeasonShows (k s) s) :
    validateTariff P (.obj ms) = .ok p := by
  have hcompact : isCompact ms = false := by
    rw [isCompact, field, h.kind]
    rfl
  have hversion : Model.version ms = .ok 2 := by
    rw [Model.version, field, h.version, hcompact]
    rfl
  have hrates : convert P (isCompact ms) (field ms (gridKey (isCompact ms))) = .ok p.rates := by
    rw [hcompact, gridKey, if_neg Bool.false_ne_true, field, h.rates]
    exact grid_gridValue p.rates
  have hseasons : seasonGrids P (isCompact ms) (seasonsOf ms 2) = .ok p.seasons := by
    rw [seasonsOf, hcompact, if_neg (by decide), field, h.seasons]
    exact seasonGrids_shows hk p.seasons
  have hmeta : metadata P ms (isCompact ms) = .ok p.metadata := by
    rw [hcompact]
    exact metadata_shows h
  refine bind_eq_ok.mpr ⟨2, hversion, bind_eq_ok.mpr ⟨⟨⟩, check_eq_ok.mpr ?_, ?_⟩⟩
  · rintro ⟨-, h2, -⟩
    exact absurd h2 (by decide)
  · exact bind_eq_ok.mpr ⟨_, hmeta, bind_eq_ok.mpr ⟨_, hrates, bind_eq_ok.mpr ⟨_, hseasons, rfl⟩⟩⟩

theorem seasonMembers_shows (s : Season P) : SeasonShows (seasonMembers s) s := by
  constructor
  · simp [seasonMembers, item]
  · simp [seasonMembers, item]
  · simp [seasonMembers, item]

theorem seasonSorted_shows (s : Season P) : SeasonShows (seasonSorted s) s := by
  constructor
  · simp [seasonSorted, item]
  · simp [seasonSorted, item]
  · simp [seasonSorted, item]

theorem members_shows (p : Plan P) : Shows p.members seasonMembers p := by
  obtain ⟨⟨name, currency, timeZone, source, billingDay, reference⟩, rates, seasons⟩ := p
  cases billingDay <;> cases reference <;> constructor
  all_goals simp [Plan.members, item]

theorem sorted_shows (p : Plan P) : Shows p.sorted seasonSorted p := by
  obtain ⟨⟨name, currency, timeZone, source, billingDay, reference⟩, rates, seasons⟩ := p
  cases billingDay <;> cases reference <;> constructor
  all_goals simp [Plan.sorted, item]

/-- **Normalizing is a retraction**: a plan is normalized to itself. -/
theorem validateTariff_members (p : Plan P) : validateTariff P (.obj p.members) = .ok p :=
  validateTariff_shows (members_shows p) seasonMembers_shows

theorem validateTariff_sorted (p : Plan P) : validateTariff P (.obj p.sorted) = .ok p :=
  validateTariff_shows (sorted_shows p) seasonSorted_shows

/-- The sorted members determine the plan. -/
theorem sortedValue_injective : Function.Injective (sortedValue (P := P)) := by
  intro p q h
  cases p with
  | none => cases q with
    | none => rfl
    | some q => exact nomatch h
  | some p => cases q with
    | none => exact nomatch h
    | some q =>
      have hp := validateTariff_sorted p
      rw [show Value.obj p.sorted = Value.obj q.sorted from h, validateTariff_sorted q] at hp
      exact congrArg some (Except.ok.inj hp).symm

/-! ### The texts -/

/-- Finite floats are read back from their text. -/
def ExactFloats (P : Platform F) : Prop := ∀ q, P.isfinite q = true → P.floatText.Exact q

theorem floats_toValue (r : Rate P) : ∀ q ∈ floats r.toValue, P.isfinite q = true := by
  intro q hq
  cases r with
  | int n h => exact absurd hq (by simp [Rate.toValue, floats])
  | float q' h =>
    obtain rfl : q = q' := by simpa [Rate.toValue, floats] using hq
    exact h

theorem floats_gridValue (g : Grid P) : ∀ q ∈ floats (gridValue g), P.isfinite q = true := by
  intro q hq
  rw [gridValue, floats] at hq
  obtain ⟨v, hv, hq⟩ := mem_floatsItems hq
  obtain ⟨r, -, rfl⟩ := List.mem_map.mp hv
  rw [rowValue, floats] at hq
  obtain ⟨v, hv, hq⟩ := mem_floatsItems hq
  obtain ⟨rate, -, rfl⟩ := List.mem_map.mp hv
  exact floats_toValue rate q hq

theorem floats_ints (ns : List ℤ) : floats (.arr (ns.map .int) : Value F) = [] := by
  refine List.eq_nil_iff_forall_not_mem.mpr fun q hq => ?_
  rw [floats] at hq
  obtain ⟨v, hv, hq⟩ := mem_floatsItems hq
  obtain ⟨n, -, rfl⟩ := List.mem_map.mp hv
  exact absurd hq (by simp [floats])

/-- Members whose only floats are in grids. -/
def Priced (P : Platform F) (m : String × Value F) : Prop :=
  ∀ q ∈ floats m.2, P.isfinite q = true

theorem priced_obj (h : ∀ m ∈ ms, Priced P m) : ∀ q ∈ floats (.obj ms), P.isfinite q = true := by
  intro q hq
  rw [floats] at hq
  obtain ⟨m, hm, hq⟩ := mem_floatsMembers hq
  exact h m hm q hq

theorem priced_plain {key : String} {v : Value F} (h : floats v = []) : Priced P (key, v) := by
  intro q hq
  rw [show floats v = [] from h] at hq
  exact absurd hq List.not_mem_nil

theorem priced_seasons {k : Season P → List (String × Value F)} (hk : ∀ s, ∀ m ∈ k s, Priced P m)
    (l : List (Season P)) : Priced P ("seasons", .arr (l.map fun s => .obj (k s))) := by
  intro q hq
  rw [floats] at hq
  obtain ⟨v, hv, hq⟩ := mem_floatsItems hq
  obtain ⟨s, -, rfl⟩ := List.mem_map.mp hv
  exact priced_obj (hk s) q hq

theorem priced_seasonMembers (s : Season P) : ∀ m ∈ seasonMembers s, Priced P m := by
  simp only [seasonMembers, List.forall_mem_cons, List.not_mem_nil, false_imp_iff, implies_true,
    and_true]
  exact ⟨priced_plain rfl, priced_plain (floats_ints _), floats_gridValue _⟩

theorem priced_seasonSorted (s : Season P) : ∀ m ∈ seasonSorted s, Priced P m := by
  simp only [seasonSorted, List.forall_mem_cons, List.not_mem_nil, false_imp_iff, implies_true, and_true]
  exact ⟨priced_plain (floats_ints _), priced_plain rfl, floats_gridValue _⟩

theorem priced_optional {α : Type} {key : String} {f : α → Value F} (hf : ∀ a, floats (f a) = [])
    (o : Option α) : ∀ m ∈ (o.map fun a => (key, f a)).toList, Priced P m := by
  intro m hm
  cases o with
  | none => exact absurd hm List.not_mem_nil
  | some a =>
    obtain rfl := List.mem_singleton.mp hm
    exact priced_plain (hf a)

theorem priced_members (p : Plan P) : ∀ m ∈ p.members, Priced P m := by
  simp only [Plan.members, List.forall_mem_append, List.forall_mem_cons, List.not_mem_nil,
    false_imp_iff, implies_true, and_true]
  exact ⟨⟨priced_plain rfl, priced_plain rfl, priced_plain rfl, priced_plain rfl, priced_plain rfl⟩,
    priced_optional (fun _ => rfl) _, priced_optional (fun _ => rfl) _, floats_gridValue _,
    priced_seasons priced_seasonMembers _⟩

theorem priced_sorted (p : Plan P) : ∀ m ∈ p.sorted, Priced P m := by
  simp only [Plan.sorted, List.forall_mem_append, List.forall_mem_cons, List.not_mem_nil,
    false_imp_iff, implies_true, and_true]
  exact ⟨priced_optional (fun _ => rfl) _, ⟨priced_plain rfl, priced_plain rfl, floats_gridValue _⟩,
    priced_optional (fun _ => rfl) _, priced_seasons priced_seasonSorted _, priced_plain rfl,
    priced_plain rfl, priced_plain rfl⟩

theorem floats_planValue (p : Option (Plan P)) : ∀ q ∈ floats (planValue p), P.isfinite q = true := by
  cases p with
  | none => exact fun q hq => absurd hq (by simp [planValue, floats])
  | some p => exact priced_obj (priced_members p)

theorem floats_sortedValue (p : Option (Plan P)) :
    ∀ q ∈ floats (sortedValue p), P.isfinite q = true := by
  cases p with
  | none => exact fun q hq => absurd hq (by simp [sortedValue, floats])
  | some p => exact priced_obj (priced_sorted p)

/-- **The text that is hashed determines the plan.** -/
theorem canonical_injective (hexact : ExactFloats P) : Function.Injective (canonical (P := P)) := by
  intro p q h
  have hvalue : sortedValue p = sortedValue q :=
    dump_injective (compact true) P.floatText (fun x hx => hexact x (floats_sortedValue p x hx))
      (fun x hx => hexact x (floats_sortedValue q x hx)) h
  exact sortedValue_injective hvalue

theorem planOf_planValue (p : Option (Plan P)) : planOf P (planValue p) = .ok p := by
  cases p with
  | none => rfl
  | some p => exact bind_eq_ok.mpr ⟨p, validateTariff_members p, rfl⟩

/-- **The text that is written is read as the plan.** -/
theorem readTariff_content (hexact : ExactFloats P) {p : Option (Plan P)}
    (hlen : (content p).length ≤ maxBytes) : readTariff P (content p) = some p := by
  have hloads : loads P.floatText (content p) = some (planValue p) :=
    loads_dump (indented 2) P.floatText (fun x hx => hexact x (floats_planValue p x hx)) 0 ['\n']
      (List.forall_mem_singleton.mpr rfl)
  simp only [readTariff, if_neg hlen.not_gt, hloads, planOf_planValue]

theorem serializedTariff_planValue (p : Option (Plan P)) : serializedTariff (P := P) (planValue p) =
    if (content p).length ≤ maxBytes then .ok (content p)
    else .error "Normalized tariff exceeds 100 KB" := by
  rw [serializedTariff, planOf_planValue]
  show (check _ _ >>= fun _ => _) = _
  unfold check
  split
  · rfl
  · rfl

end InverterControl.Tariff.Normal
