import InverterControl.Lib.JsonString

/-!
# JSON values and their text

A value is written by `dump` in a layout: compact, with separators, or indented.  `loads` reads the
text again, with white space wherever a layout may put some, and gives back the value
(`loads_dump`).  The text of a floating-point number is a parameter (`FloatText`).
-/

namespace InverterControl.Lib.Json

open InverterControl.Lib.JsonString

/-! ### Values -/

/-- A value, with floating-point numbers from `F`; the members of an object keep their order. -/
inductive Value (F : Type)
  | null
  | bool (b : Bool)
  | int (n : ℤ)
  | float (q : F)
  | str (s : String)
  | arr (items : List (Value F))
  | obj (members : List (String × Value F))
  deriving Repr

variable {F : Type}

/-- Induction on values, with the hypothesis for every item and every member. -/
theorem Value.induction {motive : Value F → Prop} (null : motive .null) (bool : ∀ b, motive (.bool b))
    (int : ∀ n, motive (.int n)) (float : ∀ q, motive (.float q)) (str : ∀ s, motive (.str s))
    (arr : ∀ vs, (∀ v ∈ vs, motive v) → motive (.arr vs))
    (obj : ∀ ms, (∀ m ∈ ms, motive m.2) → motive (.obj ms)) : ∀ v, motive v := by
  intro v
  refine @Value.rec F motive (fun vs => ∀ v ∈ vs, motive v) (fun ms => ∀ m ∈ ms, motive m.2)
    (fun m => motive m.2)
    null bool int float str arr obj (by simp) ?_ (by simp) ?_ ?_ v
  · exact fun v vs hv hvs => List.forall_mem_cons.mpr ⟨hv, hvs⟩
  · exact fun m ms hm hms => List.forall_mem_cons.mpr ⟨hm, hms⟩
  · exact fun k v hv => hv

mutual
/-- The nesting of a value. -/
def height : Value F → ℕ
  | .arr vs => 1 + heightItems vs
  | .obj ms => 1 + heightMembers ms
  | _ => 1

def heightItems : List (Value F) → ℕ
  | [] => 0
  | v :: vs => max (height v) (heightItems vs)

def heightMembers : List (String × Value F) → ℕ
  | [] => 0
  | (_, v) :: ms => max (height v) (heightMembers ms)
end

mutual
/-- The floating-point numbers of a value. -/
def floats : Value F → List F
  | .float q => [q]
  | .arr vs => floatsItems vs
  | .obj ms => floatsMembers ms
  | _ => []

def floatsItems : List (Value F) → List F
  | [] => []
  | v :: vs => floats v ++ floatsItems vs

def floatsMembers : List (String × Value F) → List F
  | [] => []
  | (_, v) :: ms => floats v ++ floatsMembers ms
end

theorem height_pos (v : Value F) : 0 < height v := by
  cases v <;> simp [height]

theorem height_le_of_mem {vs : List (Value F)} {v : Value F} (h : v ∈ vs) :
    height v ≤ heightItems vs := by
  induction vs with
  | nil => cases h
  | cons w vs ih =>
    rw [heightItems]
    rcases List.mem_cons.mp h with rfl | h
    · exact le_max_left _ _
    · exact (ih h).trans (le_max_right _ _)

theorem height_le_of_member {ms : List (String × Value F)} {m : String × Value F} (h : m ∈ ms) :
    height m.2 ≤ heightMembers ms := by
  induction ms with
  | nil => cases h
  | cons m' ms ih =>
    rw [heightMembers]
    rcases List.mem_cons.mp h with rfl | h
    · exact le_max_left _ _
    · exact (ih h).trans (le_max_right _ _)

theorem floats_of_mem {vs : List (Value F)} {v : Value F} (h : v ∈ vs) :
    ∀ q ∈ floats v, q ∈ floatsItems vs := by
  intro q hq
  induction vs with
  | nil => cases h
  | cons w vs ih =>
    rw [floatsItems, List.mem_append]
    rcases List.mem_cons.mp h with rfl | h
    · exact Or.inl hq
    · exact Or.inr (ih h)

theorem floats_of_member {ms : List (String × Value F)} {m : String × Value F} (h : m ∈ ms) :
    ∀ q ∈ floats m.2, q ∈ floatsMembers ms := by
  intro q hq
  induction ms with
  | nil => cases h
  | cons m' ms ih =>
    rw [floatsMembers, List.mem_append]
    rcases List.mem_cons.mp h with rfl | h
    · exact Or.inl hq
    · exact Or.inr (ih h)

theorem mem_floatsItems {vs : List (Value F)} {q : F} (h : q ∈ floatsItems vs) :
    ∃ v ∈ vs, q ∈ floats v := by
  induction vs with
  | nil => cases h
  | cons v vs ih =>
    rw [floatsItems] at h
    rcases List.mem_append.mp h with h | h
    · exact ⟨v, List.mem_cons_self, h⟩
    · obtain ⟨w, hw, hq⟩ := ih h
      exact ⟨w, List.mem_cons_of_mem v hw, hq⟩

theorem mem_floatsMembers {ms : List (String × Value F)} {q : F} (h : q ∈ floatsMembers ms) :
    ∃ m ∈ ms, q ∈ floats m.2 := by
  induction ms with
  | nil => cases h
  | cons m ms ih =>
    rw [floatsMembers] at h
    rcases List.mem_append.mp h with h | h
    · exact ⟨m, List.mem_cons_self, h⟩
    · obtain ⟨w, hw, hq⟩ := ih h
      exact ⟨w, List.mem_cons_of_mem m hw, hq⟩

/-- `members[key]`: of two members of one name the last stands. -/
def item (members : List (String × Value F)) (key : String) : Option (Value F) :=
  (members.reverse.find? (·.1 = key)).map (·.2)

/-! ### Text -/

def isWhite (c : Char) : Bool := c = ' ' ∨ c = '\n' ∨ c = '\t' ∨ c = '\r'

/-- A character of a number. -/
def isNumeric (c : Char) : Bool := c.isDigit ∨ c = '-' ∨ c = '+' ∨ c = '.' ∨ c = 'e' ∨ c = 'E'

/-- A character that an integer does not have. -/
def isMark (c : Char) : Bool := c = '.' ∨ c = 'e' ∨ c = 'E'

/-- Where white space stands. -/
structure Layout where
  ascii : Bool
  /-- After a colon. -/
  colon : List Char
  /-- After a comma. -/
  comma : List Char
  /-- Before an item, and before a closing bracket, of that depth. -/
  newline : ℕ → List Char
  white_colon : ∀ c ∈ colon, isWhite c = true
  white_comma : ∀ c ∈ comma, isWhite c = true
  white_newline : ∀ d, ∀ c ∈ newline d, isWhite c = true

/-- No white space at all. -/
def compact (ascii : Bool) : Layout where
  ascii := ascii
  colon := []
  comma := []
  newline := fun _ => []
  white_colon := by simp
  white_comma := by simp
  white_newline := by simp

@[simp] theorem compact_colon (ascii : Bool) : (compact ascii).colon = [] := rfl

@[simp] theorem compact_comma (ascii : Bool) : (compact ascii).comma = [] := rfl

@[simp] theorem compact_newline (ascii : Bool) (d : ℕ) : (compact ascii).newline d = [] := rfl

/-- One line, with a space after a colon and after a comma. -/
def spaced (ascii : Bool) : Layout where
  ascii := ascii
  colon := [' ']
  comma := [' ']
  newline := fun _ => []
  white_colon := by simp [isWhite]
  white_comma := by simp [isWhite]
  white_newline := by simp

/-- Every item on a line of its own. -/
def indented (n : ℕ) : Layout where
  ascii := true
  colon := [' ']
  comma := []
  newline := fun d => '\n' :: List.replicate (n * d) ' '
  white_colon := by simp [isWhite]
  white_comma := by simp
  white_newline := by
    intro d c hc
    rcases List.mem_cons.mp hc with rfl | hc
    · decide
    · rw [List.eq_of_mem_replicate hc]
      decide

/-- The text of floating-point numbers. -/
structure FloatText (F : Type) where
  text : F → List Char
  parse : List Char → Option F

/-- A number is read back from its text, which no integer has. -/
structure FloatText.Exact (ft : FloatText F) (q : F) : Prop where
  numeric : ∀ c ∈ ft.text q, isNumeric c = true
  marked : ∃ c ∈ ft.text q, isMark c = true
  back : ft.parse (ft.text q) = some q

/-- The text of an integer. -/
def intText : ℤ → List Char
  | .ofNat n => Nat.toDigits 10 n
  | .negSucc n => '-' :: Nat.toDigits 10 (n + 1)

variable (L : Layout) (ft : FloatText F)

/-- The text of a string, with its quotes. -/
def quote (s : String) : List Char := '"' :: (body L.ascii s ++ ['"'])

/-- The text of further items, up to the closing bracket. -/
def closing (close : Char) (d : ℕ) : List (List Char) → List Char
  | [] => L.newline d ++ [close]
  | t :: ts => ',' :: (L.comma ++ (L.newline (d + 1) ++ (t ++ closing close d ts)))

/-- Items between brackets. -/
def bracket (first close : Char) (d : ℕ) : List (List Char) → List Char
  | [] => [first, close]
  | t :: ts => first :: (L.newline (d + 1) ++ (t ++ closing L close d ts))

mutual
/-- The text of a value at that depth. -/
def dump : Value F → ℕ → List Char
  | .null, _ => ['n', 'u', 'l', 'l']
  | .bool true, _ => ['t', 'r', 'u', 'e']
  | .bool false, _ => ['f', 'a', 'l', 's', 'e']
  | .int n, _ => intText n
  | .float q, _ => ft.text q
  | .str s, _ => quote L s
  | .arr vs, d => bracket L '[' ']' d (dumpItems vs (d + 1))
  | .obj ms, d => bracket L '{' '}' d (dumpMembers ms (d + 1))

def dumpItems : List (Value F) → ℕ → List (List Char)
  | [], _ => []
  | v :: vs, d => dump v d :: dumpItems vs d

def dumpMembers : List (String × Value F) → ℕ → List (List Char)
  | [], _ => []
  | (k, v) :: ms, d => (quote L k ++ ':' :: (L.colon ++ dump v d)) :: dumpMembers ms d
end

/-! ### Reading -/

def skipWhite (cs : List Char) : List Char := cs.dropWhile isWhite

/-- The number of digits. -/
def parseNat (cs : List Char) : Option ℕ :=
  if cs ≠ [] ∧ cs.all Char.isDigit then some (Nat.ofDigitChars 10 cs 0) else none

def parseInt : List Char → Option ℤ
  | '-' :: cs => (parseNat cs).map fun n : ℕ => -(n : ℤ)
  | cs => (parseNat cs).map Int.ofNat

/-- A number, up to the first character that is not of one. -/
def parseNumber (cs : List Char) : Option (Value F × List Char) :=
  if (cs.takeWhile isNumeric).any isMark then
    (ft.parse (cs.takeWhile isNumeric)).map fun q => (.float q, cs.dropWhile isNumeric)
  else (parseInt (cs.takeWhile isNumeric)).map fun n => (.int n, cs.dropWhile isNumeric)

/-- A word that stands for a value. -/
def literal (word : List Char) (v : Value F) (cs : List Char) : Option (Value F × List Char) :=
  if word.isPrefixOf cs then some (v, cs.drop word.length) else none

section Sequence

variable {α : Type} (close : Char) (element : List Char → Option (α × List Char))

/-- What follows an element: more of them, up to the closing bracket. -/
def moreElements : ℕ → List Char → Option (List α × List Char)
  | 0, _ => none
  | n + 1, cs =>
    match skipWhite cs with
    | [] => none
    | c :: rest =>
      if c = close then some ([], rest)
      else if c = ',' then
        (element (skipWhite rest)).bind fun p => (moreElements n p.2).map fun q => (p.1 :: q.1, q.2)
      else none

/-- The elements after an opening bracket. -/
def elements (cs : List Char) : Option (List α × List Char) :=
  match skipWhite cs with
  | [] => none
  | c :: rest =>
    if c = close then some ([], rest)
    else (element (c :: rest)).bind fun p =>
      (moreElements close element cs.length p.2).map fun q => (p.1 :: q.1, q.2)

end Sequence

/-- A member of an object. -/
def member (element : List Char → Option (Value F × List Char)) (cs : List Char) :
    Option ((String × Value F) × List Char) :=
  match cs with
  | '"' :: rest => (parseString rest).bind fun p =>
    match skipWhite p.2 with
    | ':' :: rest => (element (skipWhite rest)).map fun q => ((p.1, q.1), q.2)
    | _ => none
  | _ => none

/-- A value of at most that nesting. -/
def parseValue : ℕ → List Char → Option (Value F × List Char)
  | 0, _ => none
  | _ + 1, [] => none
  | n + 1, c :: rest =>
    if c = '[' then (elements ']' (parseValue n) rest).map fun p => (.arr p.1, p.2)
    else if c = '{' then (elements '}' (member (parseValue n)) rest).map fun p => (.obj p.1, p.2)
    else if c = '"' then (parseString rest).map fun p => (.str p.1, p.2)
    else if c = 'n' then literal ['n', 'u', 'l', 'l'] .null (c :: rest)
    else if c = 't' then literal ['t', 'r', 'u', 'e'] (.bool true) (c :: rest)
    else if c = 'f' then literal ['f', 'a', 'l', 's', 'e'] (.bool false) (c :: rest)
    else parseNumber ft (c :: rest)

/-- The value of a text, with white space around it. -/
def loads (cs : List Char) : Option (Value F) :=
  match parseValue ft cs.length (skipWhite cs) with
  | some (v, rest) => if skipWhite rest = [] then some v else none
  | none => none

/-! ### Numbers -/

/-- What follows a number is no part of it. -/
def Stops (rest : List Char) : Prop := ∀ c ∈ rest.head?, isNumeric c = false

theorem stops_cons {c : Char} (hc : isNumeric c = false) (rest : List Char) : Stops (c :: rest) := by
  intro d hd
  obtain rfl := Option.some.inj hd
  exact hc

theorem isNumeric_of_isWhite {c : Char} (h : isWhite c = true) : isNumeric c = false := by
  simp only [isWhite, Bool.decide_or, Bool.or_eq_true, decide_eq_true_eq] at h
  rcases h with rfl | rfl | rfl | rfl <;> decide

theorem stops_white {ws rest : List Char} (hws : ∀ c ∈ ws, isWhite c = true) (hrest : Stops rest) :
    Stops (ws ++ rest) := by
  cases ws with
  | nil => exact hrest
  | cons c ws => exact stops_cons (isNumeric_of_isWhite (hws c (by simp))) _

theorem takeWhile_stops {cs rest : List Char} (hcs : ∀ c ∈ cs, isNumeric c = true)
    (hrest : Stops rest) : (cs ++ rest).takeWhile isNumeric = cs := by
  rw [List.takeWhile_append_of_pos hcs]
  cases rest with
  | nil => simp
  | cons c rest => rw [List.takeWhile_cons_of_neg (by simp [hrest c rfl]), List.append_nil]

theorem dropWhile_stops {cs rest : List Char} (hcs : ∀ c ∈ cs, isNumeric c = true)
    (hrest : Stops rest) : (cs ++ rest).dropWhile isNumeric = rest := by
  rw [List.dropWhile_append_of_pos hcs]
  cases rest with
  | nil => rfl
  | cons c rest => exact List.dropWhile_cons_of_neg (by simp [hrest c rfl])

theorem isDigit_of_mem {n : ℕ} {c : Char} (hc : c ∈ Nat.toDigits 10 n) : c.isDigit = true :=
  Nat.isDigit_of_mem_toDigits (by decide) (by decide) hc

theorem isNumeric_of_isDigit {c : Char} (h : c.isDigit = true) : isNumeric c = true := by
  simp [isNumeric, h]

theorem isMark_of_isDigit {c : Char} (h : c.isDigit = true) : isMark c = false := by
  by_contra hm
  simp only [isMark, Bool.decide_or, Bool.or_eq_true, decide_eq_true_eq, Bool.not_eq_false] at hm
  rcases hm with rfl | rfl | rfl <;> exact absurd h (by decide)

theorem parseNat_toDigits (n : ℕ) : parseNat (Nat.toDigits 10 n) = some n := by
  have hdigits : (Nat.toDigits 10 n).all Char.isDigit = true :=
    List.all_eq_true.mpr fun c hc => isDigit_of_mem hc
  rw [parseNat, if_pos ⟨Nat.toDigits_ne_nil, hdigits⟩,
    Nat.ofDigitChars_toDigits (by decide) (by decide)]

theorem intText_numeric (n : ℤ) : ∀ c ∈ intText n, isNumeric c = true := by
  intro c hc
  cases n with
  | ofNat n => exact isNumeric_of_isDigit (isDigit_of_mem hc)
  | negSucc n =>
    rcases List.mem_cons.mp hc with rfl | hc
    · decide
    · exact isNumeric_of_isDigit (isDigit_of_mem hc)

theorem intText_unmarked (n : ℤ) : ¬(intText n).any isMark = true := by
  intro h
  obtain ⟨c, hc, hmark⟩ := List.any_eq_true.mp h
  have hdigit : ∀ n, c ∈ Nat.toDigits 10 n → False := fun n hc => by
    rw [isMark_of_isDigit (isDigit_of_mem hc)] at hmark
    cases hmark
  cases n with
  | ofNat n => exact hdigit n hc
  | negSucc n =>
    rcases List.mem_cons.mp hc with rfl | hc
    · exact absurd hmark (by decide)
    · exact hdigit _ hc

theorem intText_ne_nil (n : ℤ) : intText n ≠ [] := by
  cases n with
  | ofNat n => exact Nat.toDigits_ne_nil
  | negSucc n => exact List.cons_ne_nil _ _

theorem parseInt_intText (n : ℤ) : parseInt (intText n) = some n := by
  cases n with
  | ofNat n =>
    unfold parseInt
    split
    · next cs heq =>
      have hminus : '-' ∈ Nat.toDigits 10 n := by
        rw [intText] at heq
        rw [heq]
        exact List.mem_cons_self
      exact absurd (isDigit_of_mem hminus) (by decide)
    · rw [intText, parseNat_toDigits, Option.map_some]
  | negSucc n =>
    rw [intText, parseInt, parseNat_toDigits, Option.map_some]
    rfl

theorem parseNumber_intText (n : ℤ) {rest : List Char} (hrest : Stops rest) :
    parseNumber ft (intText n ++ rest) = some (.int n, rest) := by
  have hnumeric := intText_numeric n
  rw [parseNumber, takeWhile_stops hnumeric hrest, dropWhile_stops hnumeric hrest,
    if_neg (intText_unmarked n), parseInt_intText, Option.map_some]

theorem parseNumber_text {q : F} (h : ft.Exact q) {rest : List Char} (hrest : Stops rest) :
    parseNumber ft (ft.text q ++ rest) = some (.float q, rest) := by
  rw [parseNumber, takeWhile_stops h.numeric hrest, dropWhile_stops h.numeric hrest,
    if_pos (List.any_eq_true.mpr h.marked), h.back, Option.map_some]

/-! ### White space -/

/-- A text that starts with something. -/
def Solid (t : List Char) : Prop := ∃ c cs, t = c :: cs ∧ isWhite c = false

theorem skipWhite_white {ws : List Char} (hws : ∀ c ∈ ws, isWhite c = true) (rest : List Char) :
    skipWhite (ws ++ rest) = skipWhite rest :=
  List.dropWhile_append_of_pos hws

theorem skipWhite_cons {c : Char} (hc : isWhite c = false) (rest : List Char) :
    skipWhite (c :: rest) = c :: rest :=
  List.dropWhile_cons_of_neg (by simp [hc])

theorem Solid.skipWhite {t : List Char} (h : Solid t) (rest : List Char) :
    skipWhite (t ++ rest) = t ++ rest := by
  obtain ⟨c, cs, rfl, hc⟩ := h
  exact skipWhite_cons hc (cs ++ rest)

/-! ### Sequences -/

section Sequence

variable {α : Type} {close : Char} {element : List Char → Option (α × List Char)}

/-- The element is read from its text, whatever follows. -/
def Reads (element : List Char → Option (α × List Char)) (t : List Char) (a : α) : Prop :=
  ∀ rest, Stops rest → element (t ++ rest) = some (a, rest)

/-- A closing bracket. -/
structure Closes (close : Char) : Prop where
  white : isWhite close = false
  numeric : isNumeric close = false
  comma : close ≠ ','

theorem stops_closing (hclose : Closes close) (d : ℕ) (ts : List (List Char)) (rest : List Char) :
    Stops (closing L close d ts ++ rest) := by
  cases ts with
  | nil =>
    rw [closing, List.append_assoc]
    exact stops_white (L.white_newline d) (stops_cons hclose.numeric rest)
  | cons t ts => exact stops_cons (by decide) _

theorem length_lt_closing (close : Char) (d : ℕ) (ts : List (List Char)) :
    ts.length < (closing L close d ts).length := by
  induction ts with
  | nil => simp [closing]
  | cons t ts ih =>
    simp only [closing, List.length_cons, List.length_append]
    omega

theorem moreElements_closing (hclose : Closes close) (d : ℕ) {ts : List (List Char)} {as : List α}
    (h : List.Forall₂ (Reads element) ts as) (hsolid : ∀ t ∈ ts, Solid t) (rest : List Char) {n : ℕ}
    (hn : ts.length < n) :
    moreElements close element n (closing L close d ts ++ rest) = some (as, rest) := by
  induction h generalizing n with
  | nil =>
    obtain ⟨n, rfl⟩ := Nat.exists_eq_succ_of_ne_zero (Nat.ne_of_gt hn)
    rw [closing, List.append_assoc, moreElements, skipWhite_white (L.white_newline d),
      List.singleton_append, skipWhite_cons hclose.white]
    simp only [if_true]
  | @cons t a ts as ht hts ih =>
    obtain ⟨n, rfl⟩ := Nat.exists_eq_succ_of_ne_zero
      (Nat.ne_of_gt (Nat.lt_of_le_of_lt (Nat.zero_le _) hn))
    have hmore := ih (fun u hu => hsolid u (by simp [hu])) (n := n)
      (by simp only [List.length_cons] at hn; omega)
    rw [closing, List.cons_append, moreElements, skipWhite_cons (by decide)]
    simp only [if_neg (Ne.symm hclose.comma), if_true, List.append_assoc]
    rw [skipWhite_white L.white_comma, skipWhite_white (L.white_newline _),
      (hsolid t (by simp)).skipWhite, ht _ (stops_closing L hclose d ts rest), Option.bind_some, hmore,
      Option.map_some]

/-- **Round trip of a sequence.** -/
theorem elements_bracket (hclose : Closes close) (first : Char) (d : ℕ) {ts : List (List Char)}
    {as : List α} (h : List.Forall₂ (Reads element) ts as) (hsolid : ∀ t ∈ ts, Solid t)
    (hopen : ∀ t ∈ ts, t.head? ≠ some close) (rest : List Char) :
    ∃ inner, bracket L first close d ts = first :: inner ∧
      elements close element (inner ++ rest) = some (as, rest) := by
  cases h with
  | nil =>
    refine ⟨[close], rfl, ?_⟩
    rw [elements, List.singleton_append, skipWhite_cons hclose.white]
    simp only [if_true]
  | @cons t a ts as ht hts =>
    refine ⟨_, rfl, ?_⟩
    obtain ⟨c, cs, hc, hwhite⟩ := hsolid t (by simp)
    have hne : c ≠ close := by
      have := hopen t (by simp)
      rw [hc] at this
      exact fun h => this (by rw [h]; rfl)
    have hskip : skipWhite (L.newline (d + 1) ++ (t ++ closing L close d ts) ++ rest) =
        c :: (cs ++ (closing L close d ts ++ rest)) := by
      rw [List.append_assoc, skipWhite_white (L.white_newline _), hc, List.append_assoc,
        List.cons_append, skipWhite_cons hwhite]
    have hlen : ts.length < (L.newline (d + 1) ++ (t ++ closing L close d ts) ++ rest).length := by
      have := length_lt_closing L close d ts
      simp only [List.length_append]
      omega
    have helement : element (c :: (cs ++ (closing L close d ts ++ rest))) =
        some (a, closing L close d ts ++ rest) := by
      have := ht _ (stops_closing L hclose d ts rest)
      rwa [hc, List.cons_append] at this
    rw [elements, hskip]
    simp only [if_neg hne, helement, Option.bind_some]
    rw [moreElements_closing L hclose d hts (fun u hu => hsolid u (by simp [hu])) rest hlen,
      Option.map_some]

end Sequence

/-! ### Values -/

theorem closes_bracket : Closes ']' := ⟨by decide, by decide, by decide⟩

theorem closes_brace : Closes '}' := ⟨by decide, by decide, by decide⟩

theorem parseValue_numeric (n : ℕ) {c : Char} (hc : isNumeric c = true) (rest : List Char) :
    parseValue ft (n + 1) (c :: rest) = parseNumber ft (c :: rest) := by
  have hne : ∀ d : Char, isNumeric d = false → c ≠ d := by
    rintro d hd rfl
    rw [hd] at hc
    cases hc
  rw [parseValue, if_neg (hne _ (by decide)), if_neg (hne _ (by decide)), if_neg (hne _ (by decide)),
    if_neg (hne _ (by decide)), if_neg (hne _ (by decide)), if_neg (hne _ (by decide))]

theorem parseValue_number (n : ℕ) {t : List Char} (hne : t ≠ [])
    (ht : ∀ c ∈ t, isNumeric c = true) (rest : List Char) :
    parseValue ft (n + 1) (t ++ rest) = parseNumber ft (t ++ rest) := by
  obtain ⟨c, cs, rfl⟩ := List.exists_cons_of_ne_nil hne
  exact parseValue_numeric ft n (ht c (by simp)) (cs ++ rest)

theorem FloatText.Exact.ne_nil {ft : FloatText F} {q : F} (h : ft.Exact q) : ft.text q ≠ [] := by
  obtain ⟨c, hc, -⟩ := h.marked
  exact List.ne_nil_of_mem hc

theorem parseString_quote (s : String) (rest : List Char) :
    ∃ inner, quote L s ++ rest = '"' :: inner ∧ parseString inner = some (s, rest) := by
  refine ⟨body L.ascii s ++ '"' :: rest, ?_, parseString_body L.ascii s rest⟩
  rw [quote, List.cons_append, List.append_assoc, List.singleton_append]

theorem literal_append (word : List Char) (v : Value F) (rest : List Char) :
    literal word v (word ++ rest) = some (v, rest) := by
  rw [literal, if_pos (List.isPrefixOf_iff_prefix.mpr (List.prefix_append word rest)),
    List.drop_left]

/-- The first character of a value is neither white nor a closing bracket. -/
theorem dump_head {v : Value F} (hexact : ∀ q ∈ floats v, ft.Exact q) (d : ℕ) :
    ∃ c cs, dump L ft v d = c :: cs ∧ isWhite c = false ∧ c ≠ ']' := by
  have hnumeric : ∀ t : List Char, t ≠ [] → (∀ c ∈ t, isNumeric c = true) →
      ∃ c cs, t = c :: cs ∧ isWhite c = false ∧ c ≠ ']' := by
    intro t hne ht
    obtain ⟨c, cs, rfl⟩ := List.exists_cons_of_ne_nil hne
    have hc := ht c (by simp)
    refine ⟨c, cs, rfl, Bool.eq_false_iff.mpr fun hw => ?_, ?_⟩
    · rw [isNumeric_of_isWhite hw] at hc
      cases hc
    · rintro rfl
      exact absurd hc (by decide)
  have hbracket : ∀ first close ts, isWhite first = false → first ≠ ']' →
      ∃ c cs, bracket L first close d ts = c :: cs ∧ isWhite c = false ∧ c ≠ ']' := by
    intro first close ts hfirst hne
    cases ts with
    | nil => exact ⟨first, _, rfl, hfirst, hne⟩
    | cons t ts => exact ⟨first, _, rfl, hfirst, hne⟩
  cases v with
  | null => exact ⟨_, _, rfl, by decide, by decide⟩
  | bool b => cases b <;> exact ⟨_, _, rfl, by decide, by decide⟩
  | int n => exact hnumeric _ (intText_ne_nil n) (intText_numeric n)
  | float q =>
    have hq := hexact q (by simp [floats])
    exact hnumeric _ hq.ne_nil hq.numeric
  | str s => exact ⟨_, _, rfl, by decide, by decide⟩
  | arr vs =>
    rw [dump]
    exact hbracket _ _ _ (by decide) (by decide)
  | obj ms =>
    rw [dump]
    exact hbracket _ _ _ (by decide) (by decide)

theorem member_reads {element : List Char → Option (Value F × List Char)} (k : String) {t : List Char}
    {v : Value F} (ht : Reads element t v) (hsolid : Solid t) :
    Reads (member element) (quote L k ++ ':' :: (L.colon ++ t)) (k, v) := by
  intro rest hrest
  obtain ⟨inner, hinner, hparse⟩ := parseString_quote L k (':' :: (L.colon ++ (t ++ rest)))
  have happend : quote L k ++ ':' :: (L.colon ++ t) ++ rest =
      quote L k ++ ':' :: (L.colon ++ (t ++ rest)) := by simp
  rw [happend, hinner, member]
  simp only [hparse, Option.bind_some, skipWhite_cons (show isWhite ':' = false by decide),
    skipWhite_white L.white_colon, hsolid.skipWhite, ht rest hrest, Option.map_some]

theorem dumpItems_reads {vs : List (Value F)} {n d : ℕ}
    (h : ∀ v ∈ vs, Reads (parseValue ft n) (dump L ft v d) v) :
    List.Forall₂ (Reads (parseValue ft n)) (dumpItems L ft vs d) vs := by
  induction vs with
  | nil => exact .nil
  | cons v vs ih =>
    rw [dumpItems]
    exact .cons (h v (by simp)) (ih fun w hw => h w (by simp [hw]))

theorem dumpMembers_reads {ms : List (String × Value F)} {n d : ℕ}
    (h : ∀ m ∈ ms, Reads (parseValue ft n) (dump L ft m.2 d) m.2 ∧ Solid (dump L ft m.2 d)) :
    List.Forall₂ (Reads (member (parseValue ft n))) (dumpMembers L ft ms d) ms := by
  induction ms with
  | nil => exact .nil
  | cons m ms ih =>
    obtain ⟨k, v⟩ := m
    obtain ⟨hreads, hsolid⟩ := h (k, v) (by simp)
    rw [dumpMembers]
    exact .cons (member_reads L k hreads hsolid) (ih fun w hw => h w (by simp [hw]))

theorem mem_dumpItems {vs : List (Value F)} {d : ℕ} {t : List Char} (h : t ∈ dumpItems L ft vs d) :
    ∃ v ∈ vs, t = dump L ft v d := by
  induction vs with
  | nil => simp [dumpItems] at h
  | cons v vs ih =>
    rw [dumpItems, List.mem_cons] at h
    rcases h with rfl | h
    · exact ⟨v, by simp, rfl⟩
    · obtain ⟨w, hw, rfl⟩ := ih h
      exact ⟨w, by simp [hw], rfl⟩

theorem mem_dumpMembers {ms : List (String × Value F)} {d : ℕ} {t : List Char}
    (h : t ∈ dumpMembers L ft ms d) :
    ∃ m ∈ ms, t = quote L m.1 ++ ':' :: (L.colon ++ dump L ft m.2 d) := by
  induction ms with
  | nil => simp [dumpMembers] at h
  | cons m ms ih =>
    obtain ⟨k, v⟩ := m
    rw [dumpMembers, List.mem_cons] at h
    rcases h with rfl | h
    · exact ⟨(k, v), by simp, rfl⟩
    · obtain ⟨w, hw, rfl⟩ := ih h
      exact ⟨w, by simp [hw], rfl⟩

/-- **Round trip of a value**, at any depth and with anything behind it. -/
theorem parseValue_dump (v : Value F) : ∀ {n : ℕ} (d : ℕ), height v ≤ n →
    (∀ q ∈ floats v, ft.Exact q) → Reads (parseValue ft n) (dump L ft v d) v := by
  refine Value.induction (motive := fun v => ∀ {n : ℕ} (d : ℕ), height v ≤ n →
    (∀ q ∈ floats v, ft.Exact q) → Reads (parseValue ft n) (dump L ft v d) v)
    ?null ?bool ?int ?float ?str ?arr ?obj v
  all_goals
    intros
    rename_i n d hn hexact
    obtain ⟨n, rfl⟩ := Nat.exists_eq_succ_of_ne_zero
      (Nat.ne_of_gt (Nat.lt_of_lt_of_le (height_pos _) hn))
    intro rest hrest
  case null => exact literal_append ['n', 'u', 'l', 'l'] .null rest
  case bool b =>
    cases b
    · exact literal_append ['f', 'a', 'l', 's', 'e'] (.bool false) rest
    · exact literal_append ['t', 'r', 'u', 'e'] (.bool true) rest
  case int k =>
    rw [dump, parseValue_number ft n (intText_ne_nil k) (intText_numeric k),
      parseNumber_intText ft k hrest]
  case float q =>
    have hq := hexact q (by simp [floats])
    rw [dump, parseValue_number ft n hq.ne_nil hq.numeric, parseNumber_text ft hq hrest]
  case str s =>
    obtain ⟨inner, hinner, hparse⟩ := parseString_quote L s rest
    rw [dump, hinner, parseValue, if_neg (by decide), if_neg (by decide), if_pos rfl, hparse,
      Option.map_some]
  case arr vs ih =>
    rw [height] at hn
    have hitems : ∀ v ∈ vs, ∀ q ∈ floats v, ft.Exact q := fun v hv q hq =>
      hexact q (by rw [floats]; exact floats_of_mem hv q hq)
    have hreads := dumpItems_reads L ft (n := n) (d := d + 1) fun v hv =>
      ih v hv (d + 1) (by have := height_le_of_mem hv; omega) (hitems v hv)
    have hhead : ∀ t ∈ dumpItems L ft vs (d + 1), Solid t ∧ t.head? ≠ some ']' := by
      intro t ht
      obtain ⟨v, hv, rfl⟩ := mem_dumpItems L ft ht
      obtain ⟨c, cs, hc, hwhite, hne⟩ := dump_head L ft (hitems v hv) (d + 1)
      refine ⟨⟨c, cs, hc, hwhite⟩, ?_⟩
      rw [hc]
      exact fun h => hne (Option.some.inj h)
    obtain ⟨inner, hinner, hparse⟩ := elements_bracket L closes_bracket '[' d hreads
      (fun t ht => (hhead t ht).1) (fun t ht => (hhead t ht).2) rest
    rw [dump, hinner, List.cons_append, parseValue, if_pos rfl, hparse, Option.map_some]
  case obj ms ih =>
    rw [height] at hn
    have hitems : ∀ m ∈ ms, ∀ q ∈ floats m.2, ft.Exact q := fun m hm q hq =>
      hexact q (by rw [floats]; exact floats_of_member hm q hq)
    have hreads := dumpMembers_reads L ft (n := n) (d := d + 1) fun m hm => by
      obtain ⟨c, cs, hc, hwhite, -⟩ := dump_head L ft (hitems m hm) (d + 1)
      exact ⟨ih m hm (d + 1) (by have := height_le_of_member hm; omega) (hitems m hm),
        c, cs, hc, hwhite⟩
    have hhead : ∀ t ∈ dumpMembers L ft ms (d + 1), Solid t ∧ t.head? ≠ some '}' := by
      intro t ht
      obtain ⟨m, hm, rfl⟩ := mem_dumpMembers L ft ht
      exact ⟨⟨'"', _, rfl, by decide⟩, by simp [quote]⟩
    obtain ⟨inner, hinner, hparse⟩ := elements_bracket L closes_brace '{' d hreads
      (fun t ht => (hhead t ht).1) (fun t ht => (hhead t ht).2) rest
    rw [dump, hinner, List.cons_append, parseValue, if_neg (by decide), if_pos rfl, hparse,
      Option.map_some]

/-! ### Size and round trip -/

theorem le_length_closing (close : Char) (d : ℕ) {ts : List (List Char)} {t : List Char} (h : t ∈ ts) :
    t.length < (closing L close d ts).length := by
  induction ts with
  | nil => cases h
  | cons u ts ih =>
    simp only [closing, List.length_cons, List.length_append]
    rcases List.mem_cons.mp h with rfl | h
    · omega
    · have := ih h
      omega

theorem le_length_bracket (first close : Char) (d : ℕ) {ts : List (List Char)} {t : List Char}
    (h : t ∈ ts) : t.length < (bracket L first close d ts).length := by
  cases ts with
  | nil => cases h
  | cons u ts =>
    simp only [bracket, List.length_cons, List.length_append]
    rcases List.mem_cons.mp h with rfl | h
    · omega
    · have := le_length_closing L close d h
      omega

theorem heightItems_le {vs : List (Value F)} {k : ℕ} (h : ∀ v ∈ vs, height v ≤ k) :
    heightItems vs ≤ k := by
  induction vs with
  | nil => exact Nat.zero_le k
  | cons v vs ih =>
    rw [heightItems]
    exact max_le (h v (by simp)) (ih fun w hw => h w (by simp [hw]))

theorem heightMembers_le {ms : List (String × Value F)} {k : ℕ} (h : ∀ m ∈ ms, height m.2 ≤ k) :
    heightMembers ms ≤ k := by
  induction ms with
  | nil => exact Nat.zero_le k
  | cons m ms ih =>
    rw [heightMembers]
    exact max_le (h m (by simp)) (ih fun w hw => h w (by simp [hw]))

theorem dump_mem {vs : List (Value F)} {v : Value F} (h : v ∈ vs) (d : ℕ) :
    dump L ft v d ∈ dumpItems L ft vs d := by
  induction vs with
  | nil => cases h
  | cons w vs ih =>
    rw [dumpItems, List.mem_cons]
    rcases List.mem_cons.mp h with rfl | h
    · exact Or.inl rfl
    · exact Or.inr (ih h)

theorem dump_member {ms : List (String × Value F)} {m : String × Value F} (h : m ∈ ms) (d : ℕ) :
    quote L m.1 ++ ':' :: (L.colon ++ dump L ft m.2 d) ∈ dumpMembers L ft ms d := by
  induction ms with
  | nil => cases h
  | cons w ms ih =>
    rw [dumpMembers, List.mem_cons]
    rcases List.mem_cons.mp h with rfl | h
    · exact Or.inl rfl
    · exact Or.inr (ih h)

/-- Every level of nesting takes a character. -/
theorem height_le_length (v : Value F) : ∀ d, (∀ q ∈ floats v, ft.Exact q) →
    height v ≤ (dump L ft v d).length := by
  refine Value.induction (motive := fun v => ∀ d, (∀ q ∈ floats v, ft.Exact q) →
    height v ≤ (dump L ft v d).length) ?null ?bool ?int ?float ?str ?arr ?obj v
  all_goals
    intros
    rename_i d hexact
  case null => simp [height, dump]
  case bool b => cases b <;> simp [height, dump]
  case int n =>
    rw [dump]
    exact List.length_pos_iff.mpr (intText_ne_nil n)
  case float q =>
    rw [dump]
    exact List.length_pos_iff.mpr (hexact q (by simp [floats])).ne_nil
  case str s => simp [height, dump, quote]
  case arr vs ih =>
    have hle : heightItems vs ≤ (dump L ft (.arr vs) d).length - 1 := heightItems_le fun v hv => by
      have hv' := ih v hv (d + 1) fun q hq => hexact q (by rw [floats]; exact floats_of_mem hv q hq)
      have := le_length_bracket L '[' ']' d (dump_mem L ft hv (d + 1))
      rw [dump]
      omega
    have hpos : 0 < (dump L ft (.arr vs) d).length := by
      obtain ⟨c, cs, hc, -⟩ := dump_head L ft hexact d
      simp [hc]
    rw [height]
    omega
  case obj ms ih =>
    have hle : heightMembers ms ≤ (dump L ft (.obj ms) d).length - 1 := heightMembers_le fun m hm => by
      have hm' := ih m hm (d + 1) fun q hq =>
        hexact q (by rw [floats]; exact floats_of_member hm q hq)
      have := le_length_bracket L '{' '}' d (dump_member L ft hm (d + 1))
      simp only [List.length_append, List.length_cons] at this
      rw [dump]
      omega
    have hpos : 0 < (dump L ft (.obj ms) d).length := by
      obtain ⟨c, cs, hc, -⟩ := dump_head L ft hexact d
      simp [hc]
    rw [height]
    omega

/-- **Round trip of a text**, with white space behind it. -/
theorem loads_dump {v : Value F} (hexact : ∀ q ∈ floats v, ft.Exact q) (d : ℕ) (ws : List Char)
    (hws : ∀ c ∈ ws, isWhite c = true) : loads ft (dump L ft v d ++ ws) = some v := by
  obtain ⟨c, cs, hc, hwhite, -⟩ := dump_head L ft hexact d
  have hstops : Stops ws := by
    intro c hc
    exact isNumeric_of_isWhite (hws c (List.mem_of_mem_head? hc))
  have hheight : height v ≤ (dump L ft v d ++ ws).length := by
    have := height_le_length L ft v d hexact
    rw [List.length_append]
    omega
  have hsolid : Solid (dump L ft v d) := ⟨c, cs, hc, hwhite⟩
  have hend : skipWhite ws = [] := by
    rw [← List.append_nil ws, skipWhite_white hws]
    rfl
  rw [loads, hsolid.skipWhite, parseValue_dump L ft v d hheight hexact ws hstops]
  simp only [hend, if_true]

/-- The text determines the value. -/
theorem dump_injective {v w : Value F} (hv : ∀ q ∈ floats v, ft.Exact q)
    (hw : ∀ q ∈ floats w, ft.Exact q) {d : ℕ} (h : dump L ft v d = dump L ft w d) : v = w := by
  have hv' := loads_dump L ft hv d [] (by simp)
  rw [h, loads_dump L ft hw d [] (by simp)] at hv'
  exact (Option.some.inj hv').symm

/-! ### The length and the characters of a text -/

theorem length_closing_compact (ascii : Bool) (close : Char) (d : ℕ) (ts : List (List Char)) :
    (closing (compact ascii) close d ts).length = 1 + (ts.map fun t => t.length + 1).sum := by
  induction ts with
  | nil => rfl
  | cons t ts ih =>
    simp only [closing, List.length_cons, List.length_append, ih, List.map_cons, List.sum_cons,
      compact_comma, compact_newline, List.length_nil]
    omega

theorem length_dumpMembers (ascii : Bool) (ms : List (String × Value F)) (d : ℕ) :
    ((dumpMembers (compact ascii) ft ms d).map fun t => t.length + 1).sum =
      (ms.map fun m => (quote (compact ascii) m.1).length + (dump (compact ascii) ft m.2 d).length +
        2).sum := by
  induction ms with
  | nil => rfl
  | cons m ms ih =>
    obtain ⟨k, v⟩ := m
    rw [dumpMembers, List.map_cons, List.sum_cons, ih, List.map_cons, List.sum_cons, List.length_append,
      List.length_cons, List.length_append]
    simp only [compact_colon, List.length_nil]
    omega

/-- The compact text of an object: a colon and a comma or bracket for each member. -/
theorem length_dump_obj (ascii : Bool) {ms : List (String × Value F)} (hms : ms ≠ []) (d : ℕ) :
    (dump (compact ascii) ft (.obj ms) d).length = 1 + (ms.map fun m =>
      (quote (compact ascii) m.1).length + (dump (compact ascii) ft m.2 (d + 1)).length + 2).sum := by
  rw [dump, ← length_dumpMembers]
  cases ms with
  | nil => exact absurd rfl hms
  | cons m ms =>
    rw [dumpMembers, bracket]
    simp only [List.length_cons, List.length_append, length_closing_compact, List.map_cons,
      List.sum_cons, compact_newline, List.length_nil]
    omega

/-- A string takes at most twelve characters for each of its own, and the quotes. -/
theorem length_quote_le (s : String) : (quote L s).length ≤ 12 * s.length + 2 := by
  have := length_body_le L.ascii s
  simp only [quote, List.length_cons, List.length_append, List.length_nil]
  omega

/-- Every character is one byte. -/
def Ascii (cs : List Char) : Prop := ∀ c ∈ cs, c.toNat < 128

instance (cs : List Char) : Decidable (Ascii cs) := List.decidableBAll (fun c : Char => c.toNat < 128) cs

theorem ascii_nil : Ascii [] := nofun

theorem ascii_cons {c : Char} {cs : List Char} : Ascii (c :: cs) ↔ c.toNat < 128 ∧ Ascii cs :=
  List.forall_mem_cons

theorem ascii_append {cs ds : List Char} : Ascii (cs ++ ds) ↔ Ascii cs ∧ Ascii ds :=
  List.forall_mem_append

theorem ascii_white {ws : List Char} (hws : ∀ c ∈ ws, isWhite c = true) : Ascii ws := by
  intro c hc
  have h := hws c hc
  simp only [isWhite, Bool.decide_or, Bool.or_eq_true, decide_eq_true_eq] at h
  rcases h with rfl | rfl | rfl | rfl <;> decide

theorem ascii_numeric {cs : List Char} (hcs : ∀ c ∈ cs, isNumeric c = true) : Ascii cs := by
  intro c hc
  have h := hcs c hc
  simp only [isNumeric, Bool.decide_or, Bool.or_eq_true, decide_eq_true_eq] at h
  rcases h with h | rfl | rfl | rfl | rfl | rfl
  · have : c.toNat ≤ 57 := (Char.isDigit_iff_toNat.mp h).2
    omega
  all_goals decide

variable {L ft}

theorem ascii_quote (hL : L.ascii = true) (s : String) : Ascii (quote L s) := by
  rw [quote, hL, ascii_cons, ascii_append]
  refine ⟨by decide, fun c hc => ?_, by decide⟩
  obtain ⟨d, -, hd⟩ := List.mem_flatMap.mp hc
  exact escapeChar_ascii d c hd

theorem ascii_closing {close : Char} (hclose : close.toNat < 128) (d : ℕ) {ts : List (List Char)}
    (hts : ∀ t ∈ ts, Ascii t) : Ascii (closing L close d ts) := by
  induction ts with
  | nil =>
    rw [closing, ascii_append, ascii_cons]
    exact ⟨ascii_white (L.white_newline d), hclose, ascii_nil⟩
  | cons t ts ih =>
    rw [closing, ascii_cons, ascii_append, ascii_append, ascii_append]
    exact ⟨by decide, ascii_white L.white_comma, ascii_white (L.white_newline _), hts t (by simp),
      ih fun u hu => hts u (by simp [hu])⟩

theorem ascii_bracket {first close : Char} (hfirst : first.toNat < 128) (hclose : close.toNat < 128)
    (d : ℕ) {ts : List (List Char)} (hts : ∀ t ∈ ts, Ascii t) : Ascii (bracket L first close d ts) := by
  cases ts with
  | nil =>
    rw [bracket, ascii_cons, ascii_cons]
    exact ⟨hfirst, hclose, ascii_nil⟩
  | cons t ts =>
    rw [bracket, ascii_cons, ascii_append, ascii_append]
    exact ⟨hfirst, ascii_white (L.white_newline _), hts t (by simp),
      ascii_closing hclose d fun u hu => hts u (by simp [hu])⟩

/-- The text is ASCII where the layout says so. -/
theorem ascii_dump (hL : L.ascii = true) (v : Value F) :
    ∀ d, (∀ q ∈ floats v, ft.Exact q) → Ascii (dump L ft v d) := by
  refine Value.induction (motive := fun v => ∀ d, (∀ q ∈ floats v, ft.Exact q) →
    Ascii (dump L ft v d)) ?null ?bool ?int ?float ?str ?arr ?obj v
  all_goals
    intros
    rename_i d hexact
  case null => exact (by decide : Ascii ['n', 'u', 'l', 'l'])
  case bool b =>
    cases b
    · exact (by decide : Ascii ['f', 'a', 'l', 's', 'e'])
    · exact (by decide : Ascii ['t', 'r', 'u', 'e'])
  case int n =>
    rw [dump]
    exact ascii_numeric (intText_numeric n)
  case float q =>
    rw [dump]
    exact ascii_numeric (hexact q (by simp [floats])).numeric
  case str s =>
    rw [dump]
    exact ascii_quote hL s
  case arr vs ih =>
    rw [dump]
    refine ascii_bracket (by decide) (by decide) d fun t ht => ?_
    obtain ⟨v, hv, rfl⟩ := mem_dumpItems L ft ht
    exact ih v hv (d + 1) fun q hq => hexact q (by rw [floats]; exact floats_of_mem hv q hq)
  case obj ms ih =>
    rw [dump]
    refine ascii_bracket (by decide) (by decide) d fun t ht => ?_
    obtain ⟨m, hm, rfl⟩ := mem_dumpMembers L ft ht
    rw [ascii_append, ascii_cons, ascii_append]
    exact ⟨ascii_quote hL m.1, by decide, ascii_white L.white_colon, ih m hm (d + 1) fun q hq =>
      hexact q (by rw [floats]; exact floats_of_member hm q hq)⟩

end InverterControl.Lib.Json
