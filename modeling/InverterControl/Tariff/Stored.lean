import InverterControl.Tariff.Service

/-!
# A tariff that is stored

`write_tariff` normalizes what it is given and replaces the file, and `read_tariff` normalizes what
it finds.  `normalized_stored` says that both agree, whichever of the three forms the input had: a
plan is normalized to itself, its text is read as the plan, and the plan is in the normal form
(`Normalized`).
-/

namespace InverterControl.Tariff.Stored

open InverterControl.Lib.Checks InverterControl.Lib.Json InverterControl.Python
open InverterControl.Tariff.Model InverterControl.Tariff.Normal

variable {F : Type} {P : Platform F}

/-- A price that `math.isfinite` accepts. -/
def isFinite (P : Platform F) : Value F → Prop
  | .int n => |n| < floatOverflow
  | .float q => P.isfinite q = true
  | _ => False

/-- The grids of a plan. -/
def grids (p : Plan P) : List (Grid P) := p.rates :: p.seasons.1.map Season.rates

/-- The normal form of a plan. -/
structure Normalized (p : Plan P) : Prop where
  /-- The months of a season are sorted, and distinct. -/
  sorted : ∀ s ∈ p.seasons.1, s.months.months.Pairwise (· < ·)
  disjoint : p.seasons.1.Pairwise fun s t => List.Disjoint s.months.months t.months.months
  finite : ∀ g ∈ grids p, ∀ row ∈ g.1, ∀ rate ∈ row.1, isFinite P rate.toValue

theorem isFinite_toValue (r : Rate P) : isFinite P r.toValue := by
  cases r with
  | int n h => exact h
  | float q h => exact h

/-- Months that are distinct over all seasons are not shared. -/
theorem disjoint_seasons {l : List (Season P)} (h : (allMonths l).Nodup) :
    l.Pairwise fun s t => List.Disjoint s.months.months t.months.months := by
  induction l with
  | nil => exact List.Pairwise.nil
  | cons s l ih =>
    rw [allMonths, List.flatMap_cons, List.nodup_append] at h
    obtain ⟨-, hl, hdisjoint⟩ := h
    refine List.pairwise_cons.mpr ⟨fun t ht m hs hm => ?_, ih hl⟩
    exact hdisjoint m hs m (List.mem_flatMap.mpr ⟨t, ht, hm⟩) rfl

theorem normalized (p : Plan P) : Normalized p where
  sorted := fun s _ => s.months.sorted
  disjoint := disjoint_seasons p.seasons.2.2
  finite := fun _ _ _ _ rate _ => isFinite_toValue rate

/-- What is written is the text of the plan, one byte a character. -/
theorem writeTariff_ok (hexact : ExactFloats P) {data : Value F} {p : Plan P}
    (h : validateTariff P data = .ok p) {failure : Option String} {text : List Char}
    (hwrite : writeTariff P data failure = .ok text) :
    text = content (some p) ∧ (content (some p)).length ≤ maxBytes ∧ Ascii text := by
  have hplan : planOf P data = .ok (some p) := by
    cases data with
    | null => exact nomatch h
    | _ => exact bind_eq_ok.mpr ⟨p, h, rfl⟩
  obtain ⟨text', htext, hwrite⟩ := bind_eq_ok.mp hwrite
  obtain ⟨plan, hplan', htext⟩ := bind_eq_ok.mp htext
  obtain ⟨_, hlen, htext⟩ := bind_eq_ok.mp htext
  obtain rfl := Except.ok.inj (hplan.symm.trans hplan')
  obtain rfl := Except.ok.inj htext
  cases failure with
  | some e => exact nomatch hwrite
  | none =>
    obtain rfl := Except.ok.inj hwrite
    have hascii : Ascii (dump (indented 2) P.floatText (planValue (some p)) 0) :=
      ascii_dump rfl _ 0 fun q hq => hexact q (floats_planValue (some p) q hq)
    exact ⟨rfl, check_eq_ok.mp hlen, ascii_append.mpr ⟨hascii,
      ascii_white (List.forall_mem_singleton.mpr rfl)⟩⟩

/-- **Normalizing is a retraction that survives storage.** -/
theorem normalized_stored (hexact : ExactFloats P) {data : Value F} {p : Plan P}
    (h : validateTariff P data = .ok p) :
    validateTariff P (.obj p.members) = .ok p ∧
    (∀ failure text, writeTariff P data failure = .ok text →
      Ascii text ∧ readTariff P text = some (some p)) ∧
    Normalized p := by
  refine ⟨validateTariff_members p, fun failure text hwrite => ?_, normalized p⟩
  obtain ⟨rfl, hlen, hascii⟩ := writeTariff_ok hexact h hwrite
  exact ⟨hascii, readTariff_content hexact hlen⟩

/-- A compact schedule of one period. -/
def compactValue : Value Unit :=
  .obj [("type", .str "electricity-tariff-schedule"), ("version", .int 1), ("name", .str " Flat "),
    ("currency", .str "USD"), ("timeZone", .str "UTC"),
    ("periods", .arr [.obj [("start", .str "00:00"), ("end", .str "24:00"), ("rate", .float ())]])]

theorem normalized_stored_compact : ∃ p text,
    validateTariff Service.flatPlatform compactValue = .ok p ∧
    writeTariff Service.flatPlatform compactValue none = .ok text ∧
    validateTariff Service.flatPlatform (.obj p.members) = .ok p ∧
    readTariff Service.flatPlatform text = some (some p) := by
  have hwritten : (writeTariff Service.flatPlatform compactValue none).isOk = true := by
    decide +kernel
  cases htext : writeTariff Service.flatPlatform compactValue none with
  | error e =>
    rw [htext] at hwritten
    exact absurd hwritten Bool.false_ne_true
  | ok text =>
    -- what is written is valid
    obtain ⟨_, hcontent, -⟩ := bind_eq_ok.mp htext
    obtain ⟨_, hplan, -⟩ := bind_eq_ok.mp hcontent
    obtain ⟨p, hp, -⟩ := bind_eq_ok.mp hplan
    obtain ⟨hagain, hstored, -⟩ := normalized_stored Service.flatPlatform_exactFloats hp
    exact ⟨p, text, hp, rfl, hagain, (hstored none text htext).2⟩

end InverterControl.Tariff.Stored
