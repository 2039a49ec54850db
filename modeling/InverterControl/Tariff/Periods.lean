import InverterControl.Tariff.Service

/-!
# The periods of a week

`periods_grid` marks the cells of one period after another and refuses a cell that is marked
already; the cells that stay empty are refused by the check of the grid.  `mark_eq_ok` and
`fill_eq_ok` say what the marks are, `exact_cover_iff` turns them into a partition of the week, and
`periodsGrid_exact` is the result.
-/

namespace InverterControl.Tariff.Periods

open InverterControl.Lib.Checks InverterControl.Lib.Json
open InverterControl.Tariff.Model InverterControl.Tariff.Normal

/-! ### Covers -/

section Cover

variable {α κ : Type*} {cells : α → List κ} {l : List α} {W : κ → Prop}

/-- Blocks that lie in `W` partition it: they are disjoint and cover `W` exactly if every cell of
`W` lies in exactly one of them. -/
theorem exact_cover_iff (hnodup : ∀ a ∈ l, (cells a).Nodup) (hW : ∀ a ∈ l, ∀ c ∈ cells a, W c) :
    ((l.flatMap cells).Nodup ∧ ∀ c, W c → ∃ a ∈ l, c ∈ cells a) ↔
      ∀ c, W c → ∃! i : ℕ, ∃ a, l[i]? = some a ∧ c ∈ cells a := by
  rw [List.nodup_flatMap, List.pairwise_iff_getElem]
  constructor
  · rintro ⟨⟨-, hdisjoint⟩, hcover⟩ c hc
    obtain ⟨a, ha, hca⟩ := hcover c hc
    obtain ⟨i, hi, rfl⟩ := List.getElem_of_mem ha
    refine ⟨i, ⟨l[i], List.getElem?_eq_getElem hi, hca⟩, ?_⟩
    rintro j ⟨b, hb, hcb⟩
    obtain ⟨hj, rfl⟩ := List.getElem?_eq_some_iff.mp hb
    rcases lt_trichotomy i j with hij | rfl | hij
    · exact absurd hcb (hdisjoint i j hi hj hij hca)
    · rfl
    · exact absurd hca (hdisjoint j i hj hi hij hcb)
  · intro h
    refine ⟨⟨hnodup, fun i j hi hj hij c hci hcj => ?_⟩, fun c hc => ?_⟩
    · have hc := hW _ (List.getElem_mem hi) c hci
      have hsame := (h c hc).unique ⟨_, List.getElem?_eq_getElem hi, hci⟩
        ⟨_, List.getElem?_eq_getElem hj, hcj⟩
      omega
    · obtain ⟨i, ⟨a, ha, hca⟩, -⟩ := h c hc
      exact ⟨a, List.mem_of_getElem? ha, hca⟩

end Cover

variable {F : Type} {P : Platform F} {p q : Period P} {ps : List (Period P)} {g : Grid P}

/-! ### A period -/

/-- A period that is well formed, and what it says. -/
structure WellFormed (v : Value F) (p : Period P) : Prop where
  obj : ∃ ms, v = .obj ms ∧ slot P (field ms "start") false = .ok p.start ∧
    slot P (field ms "end") true = .ok p.stop ∧
    ((item ms "days" = none ∧ p.days = [1, 2, 3, 4, 5, 6, 7]) ∨
      item ms "days" = some (.arr (p.days.map .int))) ∧
    field ms "rate" = p.rate.toValue
  order : p.start < p.stop
  days : p.days ≠ [] ∧ p.days.Nodup ∧ ∀ d ∈ p.days, 1 ≤ d ∧ d ≤ 7

theorem mapM_integerIn {low high : ℤ} {vs : List (Value F)} {ds : List ℤ} :
    vs.mapM (integerIn low high) = some ds ↔ vs = ds.map .int ∧ ∀ d ∈ ds, low ≤ d ∧ d ≤ high := by
  induction vs generalizing ds with
  | nil =>
    simp only [List.mapM_nil]
    constructor
    · intro h
      obtain rfl := Option.some.inj h
      exact ⟨rfl, by simp⟩
    · rintro ⟨h, -⟩
      obtain rfl := List.map_eq_nil_iff.mp h.symm
      rfl
  | cons v vs ih =>
    rw [List.mapM_cons]
    constructor
    · intro h
      obtain ⟨d, hd, h⟩ := Option.bind_eq_some_iff.mp h
      obtain ⟨ds', hds, h⟩ := Option.bind_eq_some_iff.mp h
      obtain rfl := Option.some.inj h
      obtain ⟨rfl, hrange⟩ := ih.mp hds
      cases v with
      | int n =>
        simp only [integerIn] at hd
        split_ifs at hd with hn
        obtain rfl := Option.some.inj hd
        exact ⟨rfl, List.forall_mem_cons.mpr ⟨hn, hrange⟩⟩
      | _ => cases hd
    · rintro ⟨h, hrange⟩
      cases ds with
      | nil => cases h
      | cons d ds =>
        obtain ⟨rfl, hvs⟩ := List.cons.inj h
        obtain ⟨hd, hds⟩ := List.forall_mem_cons.mp hrange
        refine Option.bind_eq_some_iff.mpr ⟨d, if_pos hd, ?_⟩
        exact Option.bind_eq_some_iff.mpr ⟨ds, ih.mpr ⟨hvs, hds⟩, rfl⟩

theorem days_eq_ok {v : Option (Value F)} {ds : List ℤ} : Model.days v = .ok ds ↔
    ((v = none ∧ ds = [1, 2, 3, 4, 5, 6, 7]) ∨ v = some (.arr (ds.map .int))) ∧
      ds ≠ [] ∧ ds.Nodup ∧ ∀ d ∈ ds, 1 ≤ d ∧ d ≤ 7 := by
  constructor
  · intro h
    unfold Model.days at h
    split at h
    · obtain rfl := Except.ok.inj h
      exact ⟨Or.inl ⟨rfl, rfl⟩, by decide, by decide, by decide⟩
    · split at h
      · next vs ds' hds =>
        split_ifs at h with hds'
        obtain rfl := Except.ok.inj h
        obtain ⟨rfl, hrange⟩ := mapM_integerIn.mp hds
        exact ⟨Or.inr rfl, hds'.1, hds'.2, hrange⟩
      · exact nomatch h
    · exact nomatch h
  · rintro ⟨⟨rfl, rfl⟩ | rfl, hne, hnodup, hrange⟩
    · rfl
    · simp only [Model.days, mapM_integerIn.mpr ⟨rfl, hrange⟩,
        if_pos (⟨hne, hnodup⟩ : ds ≠ [] ∧ ds.Nodup)]

theorem number_eq_ok {v : Value F} {r : Rate P} : number P v = .ok r ↔ v = r.toValue := by
  constructor
  · intro h
    cases v with
    | int n =>
      simp only [number] at h
      split_ifs at h
      obtain rfl := Except.ok.inj h
      rfl
    | float q =>
      simp only [number] at h
      split_ifs at h
      obtain rfl := Except.ok.inj h
      rfl
    | _ => cases h
  · rintro rfl
    exact number_toValue r

theorem periodValues_eq_ok {v : Value F} : periodValues P v = .ok p ↔ WellFormed v p := by
  constructor
  · intro h
    cases v with
    | obj ms =>
      obtain ⟨start, hstart, h⟩ := bind_eq_ok.mp h
      obtain ⟨stop, hstop, h⟩ := bind_eq_ok.mp h
      obtain ⟨_, horder, h⟩ := bind_eq_ok.mp h
      obtain ⟨days, hdays, h⟩ := bind_eq_ok.mp h
      obtain ⟨rate, hrate, h⟩ := bind_eq_ok.mp h
      obtain rfl := Except.ok.inj h
      obtain ⟨hshape, hdays⟩ := days_eq_ok.mp hdays
      exact ⟨⟨ms, rfl, hstart, hstop, hshape, number_eq_ok.mp hrate⟩, check_eq_ok.mp horder, hdays⟩
    | _ => exact nomatch h
  · rintro ⟨⟨ms, rfl, hstart, hstop, hshape, hrate⟩, horder, hdays⟩
    refine bind_eq_ok.mpr ⟨_, hstart, bind_eq_ok.mpr ⟨_, hstop, ?_⟩⟩
    refine bind_eq_ok.mpr ⟨⟨⟩, check_eq_ok.mpr horder, ?_⟩
    exact bind_eq_ok.mpr ⟨_, days_eq_ok.mpr ⟨hshape, hdays⟩, bind_eq_ok.mpr
      ⟨_, number_eq_ok.mpr hrate, rfl⟩⟩

/-- A cell of the week: one of 48 half hours, on a day 1 (Monday) through 7. -/
def InWeek (c : ℕ × ℤ) : Prop := c.1 < 48 ∧ 1 ≤ c.2 ∧ c.2 ≤ 7

theorem hour_lt {a b : Char} {h : ℕ} (heq : hour P a b = some h) : h < 24 := by
  unfold hour at heq
  split_ifs at heq with h0 h1 h2
  · obtain ⟨d, -, rfl⟩ := Option.map_eq_some_iff.mp heq
    omega
  · obtain ⟨d, -, rfl⟩ := Option.map_eq_some_iff.mp heq
    omega
  · obtain rfl := Option.some.inj heq
    obtain ⟨-, rfl | rfl | rfl | rfl⟩ := h2
    all_goals decide

theorem slot_le {v : Value F} {isEnd : Bool} {n : ℕ} (h : slot P v isEnd = .ok n) : n ≤ 48 := by
  unfold slot at h
  split at h
  · split_ifs at h
    · obtain rfl := Except.ok.inj h
      exact le_rfl
    · split at h
      · next m hm =>
        obtain rfl := Except.ok.inj h
        unfold halfHour at hm
        split at hm
        · obtain ⟨h, hh, rfl⟩ := Option.map_eq_some_iff.mp hm
          have hlt := hour_lt hh
          omega
        · obtain ⟨h, hh, rfl⟩ := Option.map_eq_some_iff.mp hm
          have hlt := hour_lt hh
          omega
        · exact nomatch hm
      · exact nomatch h
  · exact nomatch h

theorem mem_cells {c : ℕ × ℤ} (h : p.start < p.stop) :
    c ∈ p.cells ↔ p.start ≤ c.1 ∧ c.1 < p.stop ∧ c.2 ∈ p.days := by
  obtain ⟨slot, day⟩ := c
  simp only [Period.cells, List.mem_flatMap, List.mem_range'_1, List.mem_map, Prod.mk.injEq]
  constructor
  · rintro ⟨slot', hslot, day', hday, rfl, rfl⟩
    exact ⟨hslot.1, by omega, hday⟩
  · rintro ⟨hstart, hstop, hday⟩
    exact ⟨slot, ⟨hstart, by omega⟩, day, hday, rfl, rfl⟩

variable {v : Value F}

theorem WellFormed.inWeek (h : WellFormed v p) : ∀ c ∈ p.cells, InWeek c := by
  intro c hc
  obtain ⟨-, hlt, hday⟩ := (mem_cells h.order).mp hc
  obtain ⟨ms, -, -, hstop, -⟩ := h.obj
  exact ⟨hlt.trans_le (slot_le hstop), h.days.2.2 c.2 hday⟩

theorem WellFormed.nodup (h : WellFormed v p) : p.cells.Nodup := by
  rw [Period.cells, List.nodup_flatMap]
  constructor
  · exact fun slot _ => h.days.2.1.map fun d d' hdd => congrArg Prod.snd hdd
  · have hslots : (List.range' p.start (p.stop - p.start)).Nodup := List.nodup_range'
    refine hslots.imp fun hne => ?_
    intro c hc hc'
    obtain ⟨d, -, rfl⟩ := List.mem_map.mp hc
    obtain ⟨d', -, heq⟩ := List.mem_map.mp hc'
    exact hne (congrArg Prod.fst heq).symm

/-! ### The marks -/

theorem markCell_eq_some {cells : Cells P} {slot slot' : ℕ} {day day' : ℤ} {rate r : Rate P}
    (hfree : cells slot day = none) : markCell cells slot day rate slot' day' = some r ↔
      ((slot', day') = (slot, day) ∧ rate = r) ∨ cells slot' day' = some r := by
  unfold markCell
  split_ifs with h
  · obtain ⟨rfl, rfl⟩ := h
    rw [hfree]
    constructor
    · exact fun hr => Or.inl ⟨rfl, Option.some.inj hr⟩
    · rintro (⟨-, rfl⟩ | hr)
      · rfl
      · exact nomatch hr
  · constructor
    · exact Or.inr
    · rintro (⟨heq, -⟩ | hr)
      · exact absurd (Prod.mk.inj heq) h
      · exact hr

theorem markCell_eq_none {cells : Cells P} {slot slot' : ℕ} {day day' : ℤ} {rate : Rate P} :
    markCell cells slot day rate slot' day' = none ↔
      (slot', day') ≠ (slot, day) ∧ cells slot' day' = none := by
  unfold markCell
  split_ifs with h
  · obtain ⟨rfl, rfl⟩ := h
    exact ⟨fun hc => (nomatch hc), fun hc => absurd rfl hc.1⟩
  · exact ⟨fun hr => ⟨fun heq => h (Prod.mk.inj heq), hr⟩, fun hr => hr.2⟩

/-- What the cells of one period, marked in empty cells, add. -/
theorem mark_eq_ok {rate : Rate P} {cs : List (ℕ × ℤ)} {cells cells' : Cells P} :
    mark rate cs cells = .ok cells' ↔ cs.Nodup ∧ (∀ c ∈ cs, cells c.1 c.2 = none) ∧
      ∀ slot day r, cells' slot day = some r ↔
        ((slot, day) ∈ cs ∧ rate = r) ∨ cells slot day = some r := by
  induction cs generalizing cells with
  | nil =>
    constructor
    · intro h
      obtain rfl := Except.ok.inj h
      exact ⟨List.nodup_nil, by simp, by simp⟩
    · rintro ⟨-, -, h⟩
      have heq : cells = cells' := by
        funext slot day
        refine Option.ext fun r => ?_
        rw [h slot day r]
        simp
      rw [heq]
      rfl
  | cons c cs ih =>
    obtain ⟨slot, day⟩ := c
    rw [mark, List.nodup_cons, List.forall_mem_cons]
    split_ifs with hfull
    · constructor
      · exact fun h => nomatch h
      · rintro ⟨-, ⟨hfree, -⟩, -⟩
        rw [hfree] at hfull
        exact nomatch hfull
    · have hfree : cells slot day = none := Option.not_isSome_iff_eq_none.mp hfull
      rw [ih]
      simp only [markCell_eq_none, markCell_eq_some hfree, List.mem_cons]
      constructor
      · rintro ⟨hnodup, hcs, h⟩
        refine ⟨⟨fun hmem => (hcs _ hmem).1 rfl, hnodup⟩, ⟨hfree, fun c hc => (hcs c hc).2⟩, ?_⟩
        intro slot' day' r
        rw [h slot' day' r]
        tauto
      · rintro ⟨⟨hnew, hnodup⟩, ⟨-, hcs⟩, h⟩
        refine ⟨hnodup, fun c hc => ⟨?_, hcs c hc⟩, ?_⟩
        · intro heq
          exact hnew (heq ▸ hc)
        · intro slot' day' r
          rw [h slot' day' r]
          tauto

/-- Cells that are empty can be marked. -/
theorem mark_of_free {rate : Rate P} {cs : List (ℕ × ℤ)} {cells : Cells P} (hnodup : cs.Nodup)
    (hfree : ∀ c ∈ cs, cells c.1 c.2 = none) :
    mark rate cs cells = .ok fun slot day => if (slot, day) ∈ cs then some rate else cells slot day := by
  refine mark_eq_ok.mpr ⟨hnodup, hfree, fun slot day r => ?_⟩
  split_ifs with hmem
  · have hnone : cells slot day = none := hfree (slot, day) hmem
    simp [hmem, hnone]
  · simp [hmem]

/-- What is empty after the marks was empty before, and is none of theirs. -/
theorem free_of_mark {rate : Rate P} {cs : List (ℕ × ℤ)} {cells cells' : Cells P}
    (h : mark rate cs cells = .ok cells') {c : ℕ × ℤ} (hc : cells' c.1 c.2 = none) :
    c ∉ cs ∧ cells c.1 c.2 = none := by
  obtain ⟨-, -, hmarked⟩ := mark_eq_ok.mp h
  constructor
  · intro hmem
    have hsome := (hmarked c.1 c.2 rate).mpr (Or.inl ⟨hmem, rfl⟩)
    exact Option.some_ne_none _ (hsome.symm.trans hc)
  · refine Option.eq_none_iff_forall_ne_some.mpr fun r hr => ?_
    have hsome := (hmarked c.1 c.2 r).mpr (Or.inr hr)
    exact Option.some_ne_none _ (hsome.symm.trans hc)

/-- What the periods mark: each of its cells once, with the price of its period. -/
theorem fill_eq_ok {vs : List (Value F)} {cells cells' : Cells P} :
    fill P vs cells = .ok cells' ↔ ∃ ps : List (Period P), List.Forall₂ WellFormed vs ps ∧
      (ps.flatMap Period.cells).Nodup ∧ (∀ c ∈ ps.flatMap Period.cells, cells c.1 c.2 = none) ∧
      ∀ slot day r, cells' slot day = some r ↔
        (∃ p ∈ ps, (slot, day) ∈ p.cells ∧ p.rate = r) ∨ cells slot day = some r := by
  induction vs generalizing cells with
  | nil =>
    constructor
    · intro h
      obtain rfl := Except.ok.inj h
      exact ⟨[], .nil, List.nodup_nil, by simp, by simp⟩
    · rintro ⟨ps, hps, -, -, h⟩
      obtain rfl := List.forall₂_nil_left_iff.mp hps
      have heq : cells = cells' := by
        funext slot day
        refine Option.ext fun r => ?_
        rw [h slot day r]
        simp
      rw [heq]
      rfl
  | cons v vs ih =>
    constructor
    · intro h
      obtain ⟨p, hp, h⟩ := bind_eq_ok.mp h
      obtain ⟨cells₁, hmark, h⟩ := bind_eq_ok.mp h
      obtain ⟨hnodup, hfree, hmarked⟩ := mark_eq_ok.mp hmark
      obtain ⟨ps, hps, hnodup', hfree', hfilled⟩ := ih.mp h
      refine ⟨p :: ps, .cons (periodValues_eq_ok.mp hp) hps, ?_, ?_, ?_⟩
      · rw [List.flatMap_cons, List.nodup_append]
        refine ⟨hnodup, hnodup', fun a ha b hb hab => ?_⟩
        exact (free_of_mark hmark (hfree' b hb)).1 (hab ▸ ha)
      · intro c hc
        rw [List.flatMap_cons] at hc
        rcases List.mem_append.mp hc with hc | hc
        · exact hfree c hc
        · exact (free_of_mark hmark (hfree' c hc)).2
      · intro slot day r
        rw [hfilled slot day r, hmarked slot day r, List.exists_mem_cons_iff, or_assoc]
        exact or_left_comm
    · rintro ⟨all, hall, hnodup, hfree, hfilled⟩
      obtain ⟨p, ps, hp, hps, rfl⟩ := List.forall₂_cons_left_iff.mp hall
      rw [List.flatMap_cons] at hnodup hfree
      obtain ⟨hone, hrest, hdisjoint⟩ := List.nodup_append.mp hnodup
      have hmark : mark p.rate p.cells cells = .ok _ :=
        mark_of_free hone fun c hc => hfree c (List.mem_append_left _ hc)
      refine bind_eq_ok.mpr ⟨p, periodValues_eq_ok.mpr hp, bind_eq_ok.mpr ⟨_, hmark, ?_⟩⟩
      refine ih.mpr ⟨ps, hps, hrest, fun c hc => ?_, fun slot day r => ?_⟩
      · have hnot : c ∉ p.cells := fun hmem => hdisjoint c hmem c hc rfl
        exact (if_neg hnot).trans (hfree c (List.mem_append_right _ hc))
      · rw [hfilled slot day r, List.exists_mem_cons_iff]
        split_ifs with hmem
        · have hnone : cells slot day = none := hfree (slot, day) (List.mem_append_left _ hmem)
          simp only [hmem, hnone, true_and, reduceCtorEq, or_false, Option.some.injEq]
          exact or_comm
        · simp only [hmem, false_and, false_or]

/-- The price of a period that has the cell. -/
def rateAt (ps : List (Period P)) : Cells P :=
  fun slot day => (ps.find? fun p => (slot, day) ∈ p.cells).map Period.rate

/-- A cell belongs to one period. -/
theorem eq_of_mem_cells (hnodup : (ps.flatMap Period.cells).Nodup) (hp : p ∈ ps) (hq : q ∈ ps)
    {c : ℕ × ℤ} (hcp : c ∈ p.cells) (hcq : c ∈ q.cells) : p = q := by
  by_contra hne
  have hsymm : Std.Symm (Function.onFun List.Disjoint (Period.cells (P := P))) :=
    ⟨fun _ _ h => List.Disjoint.symm h⟩
  exact (List.nodup_flatMap.mp hnodup).2.forall hp hq hne hcp hcq

theorem rateAt_eq_some (hnodup : (ps.flatMap Period.cells).Nodup) {slot : ℕ} {day : ℤ} {r : Rate P} :
    rateAt ps slot day = some r ↔ ∃ p ∈ ps, (slot, day) ∈ p.cells ∧ p.rate = r := by
  unfold rateAt
  rw [Option.map_eq_some_iff]
  constructor
  · rintro ⟨p, hp, rfl⟩
    have hmem := List.find?_some hp
    exact ⟨p, List.mem_of_find?_eq_some hp, of_decide_eq_true hmem, rfl⟩
  · rintro ⟨p, hp, hmem, rfl⟩
    cases hfind : ps.find? fun p => (slot, day) ∈ p.cells with
    | none => exact absurd (decide_eq_true hmem) (List.find?_eq_none.mp hfind p hp)
    | some q =>
      have hq := List.find?_some hfind
      obtain rfl := eq_of_mem_cells hnodup (List.mem_of_find?_eq_some hfind) hp
        (of_decide_eq_true hq) hmem
      exact ⟨q, rfl, rfl⟩

/-! ### The grid -/

/-- The price of a cell: `grid[slot][day]`, where day 0 is Monday. -/
def price (g : Grid P) (slot : Fin 48) (day : Fin 7) : Rate P :=
  (g.1.get (slot.cast g.2.symm)).1.get (day.cast (g.1.get (slot.cast g.2.symm)).2.symm)

/-- A grid of given prices. -/
theorem exists_grid (f : Fin 48 → Fin 7 → Rate P) :
    ∃ g : Grid P, ∀ slot day, price g slot day = f slot day := by
  let row (slot : Fin 48) : Row P := ⟨List.ofFn (f slot), List.length_ofFn⟩
  refine ⟨⟨List.ofFn row, List.length_ofFn⟩, fun slot day => ?_⟩
  simp only [price, row, List.get_eq_getElem, List.getElem_ofFn, Fin.val_cast, Fin.eta]

/-- The days of a row, with their prices. -/
theorem forall₂_days {f : ℤ → Rate P → Prop} {r : Row P} :
    List.Forall₂ f [1, 2, 3, 4, 5, 6, 7] r.1 ↔
      ∀ day : Fin 7, f (day + 1) (r.1.get (day.cast r.2.symm)) := by
  have hday : ∀ day : Fin 7, [1, 2, 3, 4, 5, 6, 7].get day = (day + 1 : ℤ) := by decide
  rw [List.forall₂_iff_get]
  constructor
  · rintro ⟨-, h⟩ day
    rw [← hday day]
    exact h day.1 day.2 (r.2.symm ▸ day.2)
  · intro h
    refine ⟨r.2.symm, fun n hn hn' => ?_⟩
    have hget := h ⟨n, hn⟩
    rw [← hday ⟨n, hn⟩] at hget
    exact hget

/-- The half hours of a grid, with their rows. -/
theorem forall₂_slots {f : ℕ → Row P → Prop} :
    List.Forall₂ f (List.range 48) g.1 ↔ ∀ slot : Fin 48, f slot (g.1.get (slot.cast g.2.symm)) := by
  rw [List.forall₂_iff_get]
  constructor
  · rintro ⟨-, h⟩ slot
    have hget := h slot.1 (List.length_range.symm ▸ slot.2) (g.2.symm ▸ slot.2)
    rw [List.get_eq_getElem, List.getElem_range] at hget
    exact hget
  · intro h
    refine ⟨List.length_range.trans g.2.symm, fun n hn hn' => ?_⟩
    rw [List.get_eq_getElem, List.getElem_range]
    exact h ⟨n, hn.trans_eq List.length_range⟩

theorem cell_eq_ok {cell : Option (Rate P)} {r : Rate P} : (match cell with
    | some rate => Except.ok rate
    | none => .error priceError) = .ok r ↔ cell = some r := by
  cases cell with
  | none => simp
  | some r' => simp

/-- A row of cells that all have a price. -/
theorem row_eq_ok {cells : Cells P} {slot : ℕ} {r : Row P} : (each (fun day => match cells slot day with
    | some rate => Except.ok rate
    | none => .error priceError) [1, 2, 3, 4, 5, 6, 7] >>= fun bs =>
      (.ok ⟨bs.1, bs.2⟩ : Except _ (Row P))) =
      .ok r ↔ ∀ day : Fin 7, cells slot (day + 1) = some (r.1.get (day.cast r.2.symm)) := by
  rw [each_sized rfl]
  simp only [cell_eq_ok]
  exact forall₂_days

/-- The grid of cells that all have a price. -/
theorem completed_eq_ok {cells : Cells P} : completed cells = .ok g ↔
    ∀ (slot : Fin 48) (day : Fin 7), cells slot (day + 1) = some (price g slot day) := by
  unfold completed
  rw [each_sized List.length_range]
  exact forall₂_slots.trans (forall_congr' fun slot => row_eq_ok)

/-! ### The periods -/

variable {vs vs' us : List (Value F)}

/-- What `periods_grid` accepts, and makes of it. -/
theorem periodsGrid_eq_ok (hlen : vs ≠ [] ∧ vs.length ≤ 336) : periodsGrid P (.arr vs) = .ok g ↔
    ∃ ps : List (Period P), List.Forall₂ WellFormed vs ps ∧ (ps.flatMap Period.cells).Nodup ∧
      ∀ (slot : Fin 48) (day : Fin 7),
        ∃ p ∈ ps, ((slot : ℕ), (day + 1 : ℤ)) ∈ p.cells ∧ p.rate = price g slot day := by
  constructor
  · intro h
    obtain ⟨_, -, h⟩ := bind_eq_ok.mp h
    obtain ⟨cells, hfill, h⟩ := bind_eq_ok.mp h
    obtain ⟨ps, hps, hnodup, -, hfilled⟩ := fill_eq_ok.mp hfill
    refine ⟨ps, hps, hnodup, fun slot day => ?_⟩
    rcases (hfilled _ _ _).mp (completed_eq_ok.mp h slot day) with hmarked | hempty
    · exact hmarked
    · exact nomatch hempty
  · rintro ⟨ps, hps, hnodup, hprice⟩
    have hfill : fill P vs emptyCells = .ok (rateAt ps) := by
      refine fill_eq_ok.mpr ⟨ps, hps, hnodup, fun _ _ => rfl, fun slot day r => ?_⟩
      rw [rateAt_eq_some hnodup]
      exact ⟨Or.inl, fun h => h.resolve_right fun hc => (nomatch hc)⟩
    refine bind_eq_ok.mpr ⟨⟨⟩, check_eq_ok.mpr hlen, bind_eq_ok.mpr ⟨_, hfill, ?_⟩⟩
    exact completed_eq_ok.mpr fun slot day => (rateAt_eq_some hnodup).mpr (hprice slot day)

theorem WellFormed.unique (h : WellFormed v p) (h' : WellFormed v q) : p = q :=
  Except.ok.inj ((periodValues_eq_ok.mpr h).symm.trans (periodValues_eq_ok.mpr h'))

theorem periods_unique {ps' : List (Period P)} (h : List.Forall₂ WellFormed vs ps)
    (h' : List.Forall₂ WellFormed vs ps') : ps = ps' :=
  List.right_unique_forall₂' (fun _ _ _ hp hq => hp.unique hq) h h'

theorem exists_wellFormed (h : List.Forall₂ WellFormed vs ps) (hp : p ∈ ps) : ∃ v, WellFormed v p := by
  induction h with
  | nil => exact absurd hp List.not_mem_nil
  | cons hv _ ih =>
    rcases List.mem_cons.mp hp with rfl | hp
    · exact ⟨_, hv⟩
    · exact ih hp

/-- The pair of a period, by its index, and a day of it covers the cell. -/
def Covers (ps : List (Period P)) (slot : Fin 48) (day : Fin 7) (x : ℕ × ℤ) : Prop :=
  ∃ p, ps[x.1]? = some p ∧ x.2 ∈ p.days ∧ p.start ≤ slot ∧ slot < p.stop ∧ x.2 = day + 1

theorem covers_iff (hps : List.Forall₂ WellFormed vs ps) {slot : Fin 48} {day : Fin 7} {x : ℕ × ℤ} :
    Covers ps slot day x ↔
      (∃ p, ps[x.1]? = some p ∧ ((slot : ℕ), (day + 1 : ℤ)) ∈ p.cells) ∧ x.2 = day + 1 := by
  have horder : ∀ p ∈ ps, p.start < p.stop := by
    intro p hp
    obtain ⟨v, hv⟩ := exists_wellFormed hps hp
    exact hv.order
  constructor
  · rintro ⟨p, hp, hday, hstart, hstop, heq⟩
    refine ⟨⟨p, hp, (mem_cells (horder p (List.mem_of_getElem? hp))).mpr ⟨hstart, hstop, ?_⟩⟩, heq⟩
    exact heq ▸ hday
  · rintro ⟨⟨p, hp, hmem⟩, heq⟩
    obtain ⟨hstart, hstop, hday⟩ := (mem_cells (horder p (List.mem_of_getElem? hp))).mp hmem
    exact ⟨p, hp, heq ▸ hday, hstart, hstop, heq⟩

/-- The week is covered by exactly one pair in each cell where the marks are a partition of it. -/
theorem partition_iff (hps : List.Forall₂ WellFormed vs ps) :
    ((ps.flatMap Period.cells).Nodup ∧
      ∀ (slot : Fin 48) (day : Fin 7), ∃ p ∈ ps, ((slot : ℕ), (day + 1 : ℤ)) ∈ p.cells) ↔
      ∀ (slot : Fin 48) (day : Fin 7), ∃! x, Covers ps slot day x := by
  have hcover := exact_cover_iff
    (fun p hp => (exists_wellFormed hps hp).choose_spec.nodup)
    (fun p hp => (exists_wellFormed hps hp).choose_spec.inWeek)
  have hweek : ∀ {f : ℕ × ℤ → Prop}, (∀ c, InWeek c → f c) ↔
      ∀ (slot : Fin 48) (day : Fin 7), f (slot, day + 1) := by
    intro f
    constructor
    · exact fun h slot day =>
        h _ ⟨slot.2, by show (1 : ℤ) ≤ day + 1; omega, by show (day + 1 : ℤ) ≤ 7; omega⟩
    · rintro h ⟨slot, day⟩ ⟨hslot, hlow, hhigh⟩
      simp only at hslot hlow hhigh
      have hcell := h ⟨slot, hslot⟩ ⟨(day - 1).toNat, by omega⟩
      have hday : (((day - 1).toNat : ℕ) : ℤ) + 1 = day := by omega
      simp only [hday] at hcell
      exact hcell
  rw [hweek, hweek] at hcover
  rw [hcover]
  refine forall_congr' fun slot => forall_congr' fun day => ?_
  simp only [covers_iff hps]
  constructor
  · rintro ⟨i, hi, hunique⟩
    refine ⟨(i, day + 1), ⟨hi, rfl⟩, ?_⟩
    rintro ⟨j, d⟩ ⟨hj, hd⟩
    exact Prod.ext (hunique j hj) hd
  · rintro ⟨⟨i, d⟩, ⟨hi, -⟩, hunique⟩
    refine ⟨i, hi, fun j hj => ?_⟩
    exact congrArg Prod.fst (hunique (j, day + 1) ⟨hj, rfl⟩)

/-! ### The order of the periods -/

/-- A period with its days in another order. -/
def SameDays (v w : Value F) : Prop :=
  v = w ∨ ∃ ms ms' ds ds', v = .obj ms ∧ w = .obj ms' ∧
  (∀ key, key ≠ "days" → item ms' key = item ms key) ∧
    item ms "days" = some (.arr ds) ∧ item ms' "days" = some (.arr ds') ∧ ds.Perm ds'

/-- The periods in another order, with their days in other orders. -/
def Reordered (vs vs' : List (Value F)) : Prop := ∃ us, vs.Perm us ∧ List.Forall₂ SameDays us vs'

theorem SameDays.symm {v w : Value F} (h : SameDays v w) : SameDays w v := by
  rcases h with rfl | ⟨ms, ms', ds, ds', rfl, rfl, hrest, hds, hds', hperm⟩
  · exact Or.inl rfl
  · exact Or.inr ⟨ms', ms, ds', ds, rfl, rfl, fun key hkey => (hrest key hkey).symm, hds', hds,
      hperm.symm⟩

theorem Reordered.symm (h : Reordered vs vs') : Reordered vs' vs := by
  obtain ⟨us, hperm, hsame⟩ := h
  have hback : List.Forall₂ SameDays vs' us := (hsame.imp fun _ _ h => h.symm).flip
  have hcomp : (Relation.Comp (List.Forall₂ SameDays) List.Perm) vs' vs := ⟨us, hback, hperm.symm⟩
  rw [List.forall₂_comp_perm_eq_perm_comp_forall₂] at hcomp
  exact hcomp

theorem Reordered.length_eq (h : Reordered vs vs') : vs'.length = vs.length := by
  obtain ⟨us, hperm, hsame⟩ := h
  exact hsame.length_eq.symm.trans hperm.length_eq.symm

/-- The days are those of the list, in its order. -/
theorem perm_ints {ds : List ℤ} {ds' : List (Value F)} (h : (ds.map Value.int).Perm ds') :
    ∃ es : List ℤ, ds' = es.map .int ∧ es.Perm ds := by
  have hforall : List.Forall₂ (fun (w : Value F) d => w = .int d) (ds.map .int) ds := by
    rw [List.forall₂_map_left_iff, List.forall₂_same]
    exact fun _ _ => rfl
  obtain ⟨es, hes, hperm⟩ := List.perm_comp_forall₂ h.symm hforall
  refine ⟨es, ?_, hperm⟩
  rw [← List.forall₂_eq_eq_eq, List.forall₂_map_right_iff]
  exact hes

/-- The marks of a period: its cells with its price. -/
def marks (p : Period P) : List ((ℕ × ℤ) × Rate P) := p.cells.map fun c => (c, p.rate)

theorem map_fst_marks (ps : List (Period P)) :
    (ps.flatMap marks).map Prod.fst = ps.flatMap Period.cells := by
  rw [List.map_flatMap]
  refine congrArg (List.flatMap · ps) (funext fun p => ?_)
  rw [marks, List.map_map]
  exact List.map_id _

theorem mem_marks {c : ℕ × ℤ} {r : Rate P} :
    (c, r) ∈ ps.flatMap marks ↔ ∃ p ∈ ps, c ∈ p.cells ∧ p.rate = r := by
  simp only [List.mem_flatMap, marks, List.mem_map, Prod.mk.injEq]
  constructor
  · rintro ⟨p, hp, c', hc, rfl, hr⟩
    exact ⟨p, hp, hc, hr⟩
  · rintro ⟨p, hp, hc, hr⟩
    exact ⟨p, hp, c, hc, rfl, hr⟩

theorem WellFormed.sameDays {v w : Value F} (h : WellFormed v p) (hvw : SameDays v w) :
    ∃ q : Period P, WellFormed w q ∧ (marks q).Perm (marks p) := by
  rcases hvw with rfl | ⟨ms, ms', ds, ds', rfl, rfl, hrest, hds, hds', hperm⟩
  · exact ⟨p, h, List.Perm.refl _⟩
  · obtain ⟨⟨ms₁, hms, hstart, hstop, hshape, hrate⟩, horder, hne, hnodup, hrange⟩ := h
    obtain rfl := Value.obj.inj hms
    rw [hds] at hshape
    obtain rfl : ds = p.days.map .int := by
      rcases hshape with ⟨hnone, -⟩ | hsome
      · exact nomatch hnone
      · exact Value.arr.inj (Option.some.inj hsome)
    obtain ⟨es, rfl, hes⟩ := perm_ints hperm
    refine ⟨{ p with days := es }, ⟨⟨ms', rfl, ?_, ?_, Or.inr hds', ?_⟩, horder, ?_, ?_, ?_⟩, ?_⟩
    · rw [field, hrest "start" (by decide)]
      exact hstart
    · rw [field, hrest "end" (by decide)]
      exact hstop
    · rw [field, hrest "rate" (by decide)]
      exact hrate
    · rintro rfl
      exact hne hes.nil_eq.symm
    · exact hes.nodup_iff.mpr hnodup
    · exact fun d hd => hrange d (hes.mem_iff.mp hd)
    · refine List.Perm.map _ ?_
      rw [Period.cells, Period.cells]
      exact List.Perm.flatMap_left _ fun slot _ => hes.map _

theorem Reordered.marks (h : Reordered vs vs') (hps : List.Forall₂ WellFormed vs ps) :
    ∃ ps' : List (Period P), List.Forall₂ WellFormed vs' ps' ∧
      (ps'.flatMap Periods.marks).Perm (ps.flatMap Periods.marks) := by
  obtain ⟨us, hperm, hsame⟩ := h
  obtain ⟨qs, hqs, hqsps⟩ := List.perm_comp_forall₂ hperm.symm hps
  have hdays : ∃ ps' : List (Period P), List.Forall₂ WellFormed vs' ps' ∧
      (ps'.flatMap Periods.marks).Perm (qs.flatMap Periods.marks) := by
    clear hps hperm hqsps
    induction hsame generalizing qs with
    | nil =>
      obtain rfl := List.forall₂_nil_left_iff.mp hqs
      exact ⟨[], .nil, List.Perm.refl _⟩
    | cons hvw _ ih =>
      obtain ⟨q, qs, hq, hrest, rfl⟩ := List.forall₂_cons_left_iff.mp hqs
      obtain ⟨p', hp', hmarks⟩ := hq.sameDays hvw
      obtain ⟨ps', hps', hperm⟩ := ih qs hrest
      exact ⟨p' :: ps', .cons hp' hps', hmarks.append hperm⟩
  obtain ⟨ps', hps', hmarks⟩ := hdays
  exact ⟨ps', hps', hmarks.trans (hqsps.flatMap_right _)⟩

theorem Reordered.periodsGrid (h : Reordered vs vs') (hlen : vs ≠ [] ∧ vs.length ≤ 336)
    (hgrid : Model.periodsGrid P (.arr vs) = .ok g) : Model.periodsGrid P (.arr vs') = .ok g := by
  obtain ⟨ps, hps, hnodup, hprice⟩ := (periodsGrid_eq_ok hlen).mp hgrid
  obtain ⟨ps', hps', hmarks⟩ := h.marks hps
  have hlen' : vs' ≠ [] ∧ vs'.length ≤ 336 := by
    rw [← List.length_pos_iff] at hlen ⊢
    rw [h.length_eq]
    exact hlen
  refine (periodsGrid_eq_ok hlen').mpr ⟨ps', hps', ?_, fun slot day => ?_⟩
  · rw [← map_fst_marks, (hmarks.map _).nodup_iff, map_fst_marks]
    exact hnodup
  · exact mem_marks.mp (hmarks.mem_iff.mpr (mem_marks.mpr (hprice slot day)))

/-- **`periods_grid` accepts exactly the complete schedules**, of one to 336 periods. -/
theorem periodsGrid_exact (hlen : vs ≠ [] ∧ vs.length ≤ 336) :
    ((∃ g, periodsGrid P (.arr vs) = .ok g) ↔ ∃ ps : List (Period P), List.Forall₂ WellFormed vs ps ∧
      ∀ (slot : Fin 48) (day : Fin 7), ∃! x, Covers ps slot day x) ∧
    (∀ g, periodsGrid P (.arr vs) = .ok g → ∀ ps : List (Period P), List.Forall₂ WellFormed vs ps →
      ∀ slot day x p, Covers ps slot day x → ps[x.1]? = some p → price g slot day = p.rate) ∧
    ∀ vs', Reordered vs vs' → ∀ g, periodsGrid P (.arr vs) = .ok g ↔
      periodsGrid P (.arr vs') = .ok g := by
  refine ⟨⟨?_, ?_⟩, ?_, ?_⟩
  · rintro ⟨g, h⟩
    obtain ⟨ps, hps, hnodup, hprice⟩ := (periodsGrid_eq_ok hlen).mp h
    refine ⟨ps, hps, (partition_iff hps).mp ⟨hnodup, fun slot day => ?_⟩⟩
    obtain ⟨p, hp, hmem, -⟩ := hprice slot day
    exact ⟨p, hp, hmem⟩
  · rintro ⟨ps, hps, hcovers⟩
    obtain ⟨hnodup, hcover⟩ := (partition_iff hps).mpr hcovers
    -- the grid of the prices of the covering periods
    choose q hq hmem using hcover
    obtain ⟨g, hg⟩ := exists_grid fun slot day => (q slot day).rate
    exact ⟨g, (periodsGrid_eq_ok hlen).mpr ⟨ps, hps, hnodup, fun slot day =>
      ⟨q slot day, hq slot day, hmem slot day, (hg slot day).symm⟩⟩⟩
  · intro g h ps hps slot day x p hx hp
    obtain ⟨ps', hps', hnodup, hprice⟩ := (periodsGrid_eq_ok hlen).mp h
    obtain rfl := periods_unique hps hps'
    obtain ⟨⟨p', hp', hmem'⟩, -⟩ := (covers_iff hps).mp hx
    obtain rfl := Option.some.inj (hp.symm.trans hp')
    obtain ⟨q, hq, hmem, hrate⟩ := hprice slot day
    obtain rfl := eq_of_mem_cells hnodup hq (List.mem_of_getElem? hp) hmem hmem'
    exact hrate.symm
  · intro vs' hreordered g
    have hlen' : vs' ≠ [] ∧ vs'.length ≤ 336 := by
      rw [← List.length_pos_iff] at hlen ⊢
      rw [hreordered.length_eq]
      exact hlen
    exact ⟨hreordered.periodsGrid hlen, hreordered.symm.periodsGrid hlen'⟩

def period (start stop : String) (days : List ℤ) (rate : Value Unit) : Value Unit :=
  .obj [("start", .str start), ("end", .str stop), ("days", .arr (days.map .int)), ("rate", rate)]

/-- A price for the nights, one for the working days and one for the weekend. -/
def week : List (Value Unit) :=
  [.obj [("start", .str "00:00"), ("end", .str "06:00"), ("rate", .int 1)],
    period "06:00" "24:00" [1, 2, 3, 4, 5] (.int 3), period "06:00" "24:00" [6, 7] (.float ())]

/-- The same week in another order. -/
def weekReordered : List (Value Unit) :=
  [period "06:00" "24:00" [7, 6] (.float ()),
    .obj [("start", .str "00:00"), ("end", .str "06:00"), ("rate", .int 1)],
    period "06:00" "24:00" [1, 2, 3, 4, 5] (.int 3)]

theorem week_reordered : Reordered week weekReordered := by
  refine ⟨[period "06:00" "24:00" [6, 7] (.float ()),
    .obj [("start", .str "00:00"), ("end", .str "06:00"), ("rate", .int 1)],
    period "06:00" "24:00" [1, 2, 3, 4, 5] (.int 3)], ?_, ?_⟩
  · exact @List.perm_append_comm _ (week.take 2) (week.drop 2)
  · refine .cons (Or.inr ⟨_, _, [.int 6, .int 7], [.int 7, .int 6], rfl, rfl, fun key hkey => ?_,
      rfl, rfl, ?_⟩)
      (.cons (Or.inl rfl) (.cons (Or.inl rfl) .nil))
    · simp [item, List.find?_cons, hkey.symm]
    · exact List.Perm.swap _ _ _

theorem periodsGrid_exact_week :
    (∃ ps : List (Period Service.flatPlatform), List.Forall₂ WellFormed week ps ∧
      ∀ (slot : Fin 48) (day : Fin 7), ∃! x, Covers ps slot day x) ∧
    ∃ g, periodsGrid Service.flatPlatform (.arr week) = .ok g ∧
      periodsGrid Service.flatPlatform (.arr weekReordered) = .ok g := by
  have hlength : week ≠ [] ∧ week.length ≤ 336 := ⟨List.cons_ne_nil _ _, by decide⟩
  obtain ⟨hcovers, -, hreordered⟩ := periodsGrid_exact (P := Service.flatPlatform) hlength
  have hok : (periodsGrid Service.flatPlatform (.arr week)).isOk = true := by
    decide +kernel
  cases h : periodsGrid Service.flatPlatform (.arr week) with
  | error e =>
    rw [h] at hok
    exact nomatch hok
  | ok g => exact ⟨hcovers.mp ⟨g, h⟩, g, rfl, (hreordered weekReordered week_reordered g).mp h⟩

end InverterControl.Tariff.Periods
