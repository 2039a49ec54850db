import InverterControl.Lib.Json

/-!
# Texts that were cut short

Reading goes from left to right: what was read up to a rest is read with more text behind it too,
and with more room for the nesting (`Extends`).  Only a number can go on where the text ends.  So an
array or an object is not read from a text of it that was cut (`loads_take`).
-/

namespace InverterControl.Lib.Json

open InverterControl.Lib.JsonString

variable {F α β : Type} {ft : FloatText F}

/-- What `p` reads before a rest, `p'` reads with more text behind it. -/
def Extends (p p' : List Char → Option (α × List Char)) : Prop :=
  ∀ cs a rest, p cs = some (a, rest) → rest ≠ [] → ∀ more, p' (cs ++ more) = some (a, rest ++ more)

/-! ### White space and words -/

theorem skipWhite_append {cs : List Char} (h : skipWhite cs ≠ []) (more : List Char) :
    skipWhite (cs ++ more) = skipWhite cs ++ more := by
  unfold skipWhite at h ⊢
  induction cs with
  | nil => simp at h
  | cons c cs ih =>
    rw [List.cons_append, List.dropWhile_cons, List.dropWhile_cons] at *
    split_ifs at h ⊢ with hc
    · exact ih h
    · rfl

theorem skipWhite_append_cons {cs rest : List Char} {c : Char} (h : skipWhite cs = c :: rest)
    (more : List Char) : skipWhite (cs ++ more) = c :: (rest ++ more) := by
  rw [skipWhite_append (by simp [h]), h, List.cons_append]

theorem literal_cut {word : List Char} {v v' : Value F} {cs rest : List Char}
    (h : literal word v cs = some (v', rest)) (more : List Char) :
    literal word v (cs ++ more) = some (v', rest ++ more) := by
  unfold literal at h ⊢
  rw [Option.ite_none_right_eq_some, Option.some.injEq, Prod.mk.injEq] at h
  obtain ⟨hword, rfl, rfl⟩ := h
  obtain ⟨tail, rfl⟩ := List.isPrefixOf_iff_prefix.mp hword
  rw [if_pos (List.isPrefixOf_iff_prefix.mpr ⟨tail ++ more, by simp⟩)]
  simp

/-! ### Strings -/

theorem parseUnits_append {cs rest : List Char} {us : List ℕ} (h : parseUnits cs = some (us, rest))
    (more : List Char) : parseUnits (cs ++ more) = some (us, rest ++ more) := by
  fun_induction parseUnits cs generalizing us rest with
  | case1 => cases h
  | case2 cs =>
    obtain ⟨rfl, rfl⟩ := Prod.mk.inj (Option.some.inj h)
    rw [List.cons_append, parseUnits_quote]
  | case3 a b d e cs _ ih =>
    obtain ⟨u, hu, h⟩ := Option.bind_eq_some_iff.mp h
    obtain ⟨p, hp, heq⟩ := Option.map_eq_some_iff.mp h
    obtain ⟨rfl, rfl⟩ := Prod.mk.inj heq
    simp only [List.cons_append]
    rw [parseUnits_unicode hu, ih hp]
    rfl
  | case4 e cs _ _ ih =>
    obtain ⟨u, hu, h⟩ := Option.bind_eq_some_iff.mp h
    obtain ⟨p, hp, heq⟩ := Option.map_eq_some_iff.mp h
    obtain ⟨rfl, rfl⟩ := Prod.mk.inj heq
    have hne : e ≠ 'u' := by
      rintro rfl
      simp [unescape] at hu
    simp only [List.cons_append]
    rw [parseUnits_short hne hu, ih hp]
    rfl
  | case5 => cases h
  | case6 c cs hquote hslash ih =>
    obtain ⟨p, hp, heq⟩ := Option.map_eq_some_iff.mp h
    obtain ⟨rfl, rfl⟩ := Prod.mk.inj heq
    rw [List.cons_append, parseUnits_raw hquote hslash, ih hp]
    rfl

theorem parseString_append {cs rest : List Char} {s : String} (h : parseString cs = some (s, rest))
    (more : List Char) : parseString (cs ++ more) = some (s, rest ++ more) := by
  unfold parseString at h ⊢
  obtain ⟨p, hp, h⟩ := Option.bind_eq_some_iff.mp h
  obtain ⟨t, ht, heq⟩ := Option.map_eq_some_iff.mp h
  obtain ⟨rfl, rfl⟩ := Prod.mk.inj heq
  rw [parseUnits_append hp, Option.bind_some, ht]
  rfl

/-! ### Numbers -/

theorem takeWhile_append_of_rest {p : Char → Bool} {cs : List Char} (h : cs.dropWhile p ≠ [])
    (more : List Char) : (cs ++ more).takeWhile p = cs.takeWhile p ∧
      (cs ++ more).dropWhile p = cs.dropWhile p ++ more := by
  induction cs with
  | nil => simp at h
  | cons c cs ih =>
    rw [List.dropWhile_cons] at h
    rw [List.cons_append, List.takeWhile_cons, List.takeWhile_cons, List.dropWhile_cons,
      List.dropWhile_cons]
    split_ifs at h ⊢ with hc
    · obtain ⟨htake, hdrop⟩ := ih h
      rw [htake, hdrop]
      exact ⟨rfl, rfl⟩
    · exact ⟨rfl, rfl⟩

theorem parseNumber_extends : Extends (parseNumber ft) (parseNumber ft) := by
  intro cs v rest h hrest more
  have hdrop : cs.dropWhile isNumeric = rest := by
    unfold parseNumber at h
    split_ifs at h
    · obtain ⟨q, -, heq⟩ := Option.map_eq_some_iff.mp h
      exact (Prod.mk.inj heq).2
    · obtain ⟨n, -, heq⟩ := Option.map_eq_some_iff.mp h
      exact (Prod.mk.inj heq).2
  obtain ⟨htake, hmore⟩ := takeWhile_append_of_rest (hdrop ▸ hrest) more
  unfold parseNumber at h ⊢
  rw [htake, hmore]
  split_ifs at h ⊢
  · obtain ⟨q, hq, heq⟩ := Option.map_eq_some_iff.mp h
    obtain ⟨rfl, -⟩ := Prod.mk.inj heq
    rw [hq, hdrop]
    rfl
  · obtain ⟨n, hn, heq⟩ := Option.map_eq_some_iff.mp h
    obtain ⟨rfl, -⟩ := Prod.mk.inj heq
    rw [hn, hdrop]
    rfl

/-! ### Sequences -/

section Sequence

variable {close : Char} {element element' : List Char → Option (α × List Char)} {cs rest : List Char}
  {as : List α}

/-- After an element there is text: the closing bracket at least. -/
theorem moreElements_nil {n : ℕ} : moreElements close element n [] = none := by
  cases n with
  | zero => rfl
  | succ n => rfl

theorem moreElements_append (he : Extends element element') (hnil : element [] = none) {n m : ℕ}
    (hnm : n ≤ m) (h : moreElements close element n cs = some (as, rest)) (more : List Char) :
    moreElements close element' m (cs ++ more) = some (as, rest ++ more) := by
  induction n generalizing m cs as rest with
  | zero => cases h
  | succ n ih =>
    obtain ⟨m, rfl⟩ := Nat.exists_eq_add_of_le' (show 1 ≤ m by omega)
    rw [moreElements] at h ⊢
    cases hcs : skipWhite cs with
    | nil => simp [hcs] at h
    | cons c tail =>
      rw [skipWhite_append_cons hcs]
      rw [hcs] at h
      dsimp only at h ⊢
      split_ifs at h ⊢ with hclose hcomma
      · obtain ⟨rfl, rfl⟩ := Prod.mk.inj (Option.some.inj h)
        rfl
      · obtain ⟨p, hp, h⟩ := Option.bind_eq_some_iff.mp h
        obtain ⟨q, hq, heq⟩ := Option.map_eq_some_iff.mp h
        obtain ⟨rfl, rfl⟩ := Prod.mk.inj heq
        have hrest : p.2 ≠ [] := by
          intro hempty
          rw [hempty, moreElements_nil] at hq
          cases hq
        have htail : skipWhite tail ≠ [] := by
          intro hempty
          rw [hempty, hnil] at hp
          cases hp
        rw [skipWhite_append htail, he _ _ _ hp hrest, Option.bind_some, ih (by omega) hq]
        rfl

theorem elements_append (he : Extends element element') (hnil : element [] = none)
    (h : elements close element cs = some (as, rest)) (more : List Char) :
    elements close element' (cs ++ more) = some (as, rest ++ more) := by
  unfold elements at h ⊢
  cases hcs : skipWhite cs with
  | nil => simp [hcs] at h
  | cons c tail =>
    rw [skipWhite_append_cons hcs]
    rw [hcs] at h
    dsimp only at h ⊢
    split_ifs at h ⊢ with hclose
    · obtain ⟨rfl, rfl⟩ := Prod.mk.inj (Option.some.inj h)
      rfl
    · obtain ⟨p, hp, h⟩ := Option.bind_eq_some_iff.mp h
      obtain ⟨q, hq, heq⟩ := Option.map_eq_some_iff.mp h
      obtain ⟨rfl, rfl⟩ := Prod.mk.inj heq
      have hrest : p.2 ≠ [] := by
        intro hempty
        rw [hempty, moreElements_nil] at hq
        cases hq
      have hlen : cs.length ≤ (cs ++ more).length := by simp
      rw [← List.cons_append, he _ _ _ hp hrest, Option.bind_some,
        moreElements_append he hnil hlen hq]
      rfl

end Sequence

/-! ### Values -/

theorem member_extends {element element' : List Char → Option (Value F × List Char)}
    (he : Extends element element') (hnil : element [] = none) :
    Extends (member element) (member element') := by
  intro cs a rest h hrest more
  unfold member at h ⊢
  split at h
  · next tail =>
    obtain ⟨p, hp, h⟩ := Option.bind_eq_some_iff.mp h
    rw [List.cons_append]
    change (parseString (tail ++ more)).bind _ = _
    rw [parseString_append hp, Option.bind_some]
    split at h
    · next tail' hcolon =>
      obtain ⟨q, hq, heq⟩ := Option.map_eq_some_iff.mp h
      obtain ⟨rfl, rfl⟩ := Prod.mk.inj heq
      have htail : skipWhite tail' ≠ [] := by
        intro hempty
        rw [hempty, hnil] at hq
        cases hq
      rw [skipWhite_append_cons hcolon]
      change (element' (skipWhite (tail' ++ more))).map _ = _
      rw [skipWhite_append htail, he _ _ _ hq hrest]
      rfl
    · cases h
  · cases h

theorem parseValue_nil (n : ℕ) : parseValue ft n [] = none := by
  cases n with
  | zero => rfl
  | succ n => rfl

theorem member_nil (element : List Char → Option (Value F × List Char)) : member element [] = none := rfl

/-- A value that is read before a rest. -/
theorem parseValue_extends {n m : ℕ} (hnm : n ≤ m) : Extends (parseValue ft n) (parseValue ft m) := by
  induction n generalizing m with
  | zero =>
    intro cs a rest h
    cases h
  | succ n ih =>
    intro cs a rest h hrest more
    obtain ⟨m, rfl⟩ := Nat.exists_eq_add_of_le' (show 1 ≤ m by omega)
    have hvalue : Extends (parseValue ft n) (parseValue ft m) := ih (by omega)
    cases cs with
    | nil => cases h
    | cons c cs =>
      rw [List.cons_append]
      rw [parseValue] at h ⊢
      split_ifs at h ⊢ with harr hobj hstr hnull htrue hfalse
      · obtain ⟨p, hp, heq⟩ := Option.map_eq_some_iff.mp h
        obtain ⟨rfl, rfl⟩ := Prod.mk.inj heq
        rw [elements_append hvalue (parseValue_nil n) hp]
        rfl
      · obtain ⟨p, hp, heq⟩ := Option.map_eq_some_iff.mp h
        obtain ⟨rfl, rfl⟩ := Prod.mk.inj heq
        rw [elements_append (member_extends hvalue (parseValue_nil n)) (member_nil _) hp]
        rfl
      · obtain ⟨p, hp, heq⟩ := Option.map_eq_some_iff.mp h
        obtain ⟨rfl, rfl⟩ := Prod.mk.inj heq
        rw [parseString_append hp]
        rfl
      · exact literal_cut h more
      · exact literal_cut h more
      · exact literal_cut h more
      · exact parseNumber_extends _ _ _ h hrest more

/-- An array or an object that is read, also where its text ends. -/
theorem parseValue_bracket {n m : ℕ} (hnm : n ≤ m) {c : Char}
    (hc : c = '[' ∨ c = '{') {cs rest : List Char}
    {v : Value F} (h : parseValue ft n (c :: cs) = some (v, rest)) (more : List Char) :
    parseValue ft m (c :: cs ++ more) = some (v, rest ++ more) := by
  cases n with
  | zero => cases h
  | succ n =>
    obtain ⟨m, rfl⟩ := Nat.exists_eq_add_of_le' (show 1 ≤ m by omega)
    have hvalue : Extends (parseValue ft n) (parseValue ft m) := parseValue_extends (by omega)
    rw [List.cons_append]
    rw [parseValue] at h ⊢
    rcases hc with rfl | rfl
    · rw [if_pos rfl] at h ⊢
      obtain ⟨p, hp, heq⟩ := Option.map_eq_some_iff.mp h
      obtain ⟨rfl, rfl⟩ := Prod.mk.inj heq
      rw [elements_append hvalue (parseValue_nil n) hp]
      rfl
    · rw [if_neg (by decide), if_pos rfl] at h ⊢
      obtain ⟨p, hp, heq⟩ := Option.map_eq_some_iff.mp h
      obtain ⟨rfl, rfl⟩ := Prod.mk.inj heq
      rw [elements_append (member_extends hvalue (parseValue_nil n)) (member_nil _) hp]
      rfl

/-- **A text of an array that was cut short is no text.** -/
theorem loads_take (L : Layout) {vs : List (Value F)} (hexact : ∀ q ∈ floats (.arr vs), ft.Exact q)
    {n : ℕ}
    (hn : n < (dump L ft (.arr vs) 0).length) : loads ft ((dump L ft (.arr vs) 0).take n) = none := by
  obtain ⟨tail, htail⟩ : ∃ tail, dump L ft (.arr vs) 0 = '[' :: tail := by
    rw [dump]
    cases dumpItems L ft vs 1 with
    | nil => exact ⟨_, rfl⟩
    | cons t ts => exact ⟨_, rfl⟩
  have hwhole := parseValue_dump L ft (.arr vs) 0 (height_le_length L ft (.arr vs) 0 hexact) hexact []
    (by simp [Stops])
  rw [List.append_nil] at hwhole
  cases n with
  | zero => simp [loads, skipWhite, parseValue_nil]
  | succ n =>
    rw [htail, List.length_cons] at hn
    have hsolid : skipWhite ('[' :: tail.take n) = '[' :: tail.take n := by
      simp [skipWhite, isWhite]
    rw [htail, List.take_succ_cons, loads, hsolid]
    cases hread : parseValue ft ('[' :: tail.take n).length ('[' :: tail.take n) with
    | none => rfl
    | some p =>
      have hlen : ('[' :: tail.take n).length ≤ ('[' :: tail).length := by simp
      have hmore := parseValue_bracket hlen (Or.inl rfl) hread (tail.drop n)
      rw [List.cons_append, List.take_append_drop, ← htail, hwhole] at hmore
      have hdrop := (Prod.mk.inj (Option.some.inj hmore)).2
      have hempty := (List.append_eq_nil_iff.mp hdrop.symm).2
      rw [List.drop_eq_nil_iff] at hempty
      omega

end InverterControl.Lib.Json
