import InverterControl.Lib.Json

/-!
# The published state

The payload of `publish_state` and the `SafeEncoder` of `mqtt_bridge.py`: a state of finite numbers
is encoded as it is, and only where the encoder refuses a number a copy is made with `null` in its
place.  Both ways give the same text, which is read back as the state with `null` for every number
that is not finite (`published_state`).  The keys of a state are strings; an integer of more than
4300 digits and nesting too deep for Python are left out, and so is what becomes of the payload,
without a connection or with a full queue.
-/

namespace InverterControl.Bridge.Payload

open InverterControl.Lib.Json

/-! ### Encoding -/

inductive NonFinite
  | nan
  | infinity
  | negInfinity
  deriving DecidableEq, Repr

/-- What a state holds; the numbers of `F` are finite. -/
inductive Obj (F : Type)
  | none
  | bool (b : Bool)
  | int (n : ℤ)
  | float (q : F)
  | nonFinite (x : NonFinite)
  | str (s : String)
  | list (items : List (Obj F))
  | tuple (items : List (Obj F))
  | dict (members : List (String × Obj F))
  /-- An object that has no JSON. -/
  | other
  deriving Repr

inductive Error
  | value
  | type
  deriving DecidableEq, Repr

variable {F : Type} (ft : FloatText F)

def NonFinite.text : NonFinite → List Char
  | .nan => ['N', 'a', 'N']
  | .infinity => ['I', 'n', 'f', 'i', 'n', 'i', 't', 'y']
  | .negInfinity => ['-', 'I', 'n', 'f', 'i', 'n', 'i', 't', 'y']

section Encode

variable (allowNan : Bool)

mutual
/-- `JSONEncoder.encode` -/
def encode : Obj F → Except Error (List Char)
  | .none => .ok ['n', 'u', 'l', 'l']
  | .bool true => .ok ['t', 'r', 'u', 'e']
  | .bool false => .ok ['f', 'a', 'l', 's', 'e']
  | .int n => .ok (intText n)
  | .float q => .ok (ft.text q)
  | .nonFinite x => if allowNan = true then .ok x.text else .error .value
  | .str s => .ok (quote (spaced true) s)
  | .list items => (encodeItems items).map (bracket (spaced true) '[' ']' 0)
  | .tuple items => (encodeItems items).map (bracket (spaced true) '[' ']' 0)
  | .dict members => (encodeMembers members).map (bracket (spaced true) '{' '}' 0)
  | .other => .error .type

def encodeItems : List (Obj F) → Except Error (List (List Char))
  | [] => .ok []
  | v :: vs => (encode v).bind fun t => (encodeItems vs).map (t :: ·)

def encodeMembers : List (String × Obj F) → Except Error (List (List Char))
  | [] => .ok []
  | (k, v) :: ms => (encode v).bind fun t =>
    (encodeMembers ms).map ((quote (spaced true) k ++ ':' :: ((spaced true).colon ++ t)) :: ·)
end

end Encode

mutual
/-- `SafeEncoder._sanitize` -/
def sanitize : Obj F → Obj F
  | .nonFinite _ => .none
  | .list items => .list (sanitizeItems items)
  | .tuple items => .tuple (sanitizeItems items)
  | .dict members => .dict (sanitizeMembers members)
  | v => v

def sanitizeItems : List (Obj F) → List (Obj F)
  | [] => []
  | v :: vs => sanitize v :: sanitizeItems vs

def sanitizeMembers : List (String × Obj F) → List (String × Obj F)
  | [] => []
  | (k, v) :: ms => (k, sanitize v) :: sanitizeMembers ms
end

/-- `json.dumps(state, cls=SafeEncoder)` -/
def safeDumps (state : Obj F) : Except Error (List Char) := encode ft true (sanitize state)

/-- The payload of `publish_state`; `none` where it is given up. -/
def payload (state : Obj F) : Option (List Char) :=
  match encode ft false state with
  | .ok text => some text
  | .error .value => (safeDumps ft state).toOption
  | .error .type => none

/-! ### What the payload says -/

mutual
/-- Every object has a JSON. -/
def supported : Obj F → Bool
  | .list items => supportedItems items
  | .tuple items => supportedItems items
  | .dict members => supportedMembers members
  | .other => false
  | _ => true

def supportedItems : List (Obj F) → Bool
  | [] => true
  | v :: vs => supported v && supportedItems vs

def supportedMembers : List (String × Obj F) → Bool
  | [] => true
  | (_, v) :: ms => supported v && supportedMembers ms
end

mutual
/-- The value that stands for an object. -/
def shown : Obj F → Value F
  | .none => .null
  | .bool b => .bool b
  | .int n => .int n
  | .float q => .float q
  | .nonFinite _ => .null
  | .str s => .str s
  | .list items => .arr (shownItems items)
  | .tuple items => .arr (shownItems items)
  | .dict members => .obj (shownMembers members)
  | .other => .null

def shownItems : List (Obj F) → List (Value F)
  | [] => []
  | v :: vs => shown v :: shownItems vs

def shownMembers : List (String × Obj F) → List (String × Value F)
  | [] => []
  | (k, v) :: ms => (k, shown v) :: shownMembers ms
end

/-- Induction on objects, with the hypothesis for every item and every member. -/
theorem Obj.induction {motive : Obj F → Prop} (none : motive .none) (bool : ∀ b, motive (.bool b))
    (int : ∀ n, motive (.int n)) (float : ∀ q, motive (.float q))
    (nonFinite : ∀ x, motive (.nonFinite x)) (str : ∀ s, motive (.str s))
    (list : ∀ vs, (∀ v ∈ vs, motive v) → motive (.list vs))
    (tuple : ∀ vs, (∀ v ∈ vs, motive v) → motive (.tuple vs))
    (dict : ∀ ms, (∀ m ∈ ms, motive m.2) → motive (.dict ms))
    (other : motive .other) : ∀ v, motive v := by
  intro v
  refine @Obj.rec F motive (fun vs => ∀ v ∈ vs, motive v) (fun ms => ∀ m ∈ ms, motive m.2)
    (fun m => motive m.2) none bool int float nonFinite str list tuple dict other (by simp) ?_
      (by simp) ?_ ?_ v
  · exact fun v vs hv hvs => List.forall_mem_cons.mpr ⟨hv, hvs⟩
  · exact fun m ms hm hms => List.forall_mem_cons.mpr ⟨hm, hms⟩
  · exact fun k v hv => hv

/-! ### The text -/

theorem closing_spaced (close : Char) (d : ℕ) (ts : List (List Char)) :
    closing (spaced true) close d ts = closing (spaced true) close 0 ts := by
  induction ts with
  | nil => rfl
  | cons t ts ih => rw [closing, closing, ih]; rfl

theorem bracket_spaced (first close : Char) (d : ℕ) (ts : List (List Char)) :
    bracket (spaced true) first close d ts = bracket (spaced true) first close 0 ts := by
  cases ts with
  | nil => rfl
  | cons t ts => rw [bracket, bracket, closing_spaced close d ts]; rfl

/-- The text of an object. -/
def textOf (v : Obj F) (d : ℕ) : List Char := dump (spaced true) ft (shown v) d

theorem textOf_list (vs : List (Obj F)) (d : ℕ) : textOf ft (.list vs) d =
    bracket (spaced true) '[' ']' 0 (dumpItems (spaced true) ft (shownItems vs) (d + 1)) := by
  rw [textOf, shown, dump, bracket_spaced]

theorem textOf_dict (ms : List (String × Obj F)) (d : ℕ) : textOf ft (.dict ms) d =
    bracket (spaced true) '{' '}' 0 (dumpMembers (spaced true) ft (shownMembers ms) (d + 1)) := by
  rw [textOf, shown, dump, bracket_spaced]

variable {ft} {allowNan : Bool}

theorem encodeItems_sanitize {vs : List (Obj F)} {d : ℕ} (hs : supportedItems vs = true)
    (h : ∀ v ∈ vs, supported v = true → encode ft allowNan (sanitize v) = .ok (textOf ft v d)) :
    encodeItems ft allowNan (sanitizeItems vs) = .ok (dumpItems (spaced true) ft (shownItems vs) d) := by
  induction vs with
  | nil => rfl
  | cons v vs ih =>
    rw [supportedItems, Bool.and_eq_true] at hs
    have hv := h v (by simp) hs.1
    have hvs := ih hs.2 fun w hw => h w (by simp [hw])
    rw [sanitizeItems, encodeItems, hv, hvs]
    rfl

theorem encodeMembers_sanitize {ms : List (String × Obj F)} {d : ℕ} (hs : supportedMembers ms = true)
    (h : ∀ m ∈ ms, supported m.2 = true → encode ft allowNan (sanitize m.2) = .ok (textOf ft m.2 d)) :
    encodeMembers ft allowNan (sanitizeMembers ms) =
      .ok (dumpMembers (spaced true) ft (shownMembers ms) d) := by
  induction ms with
  | nil => rfl
  | cons m ms ih =>
    obtain ⟨k, v⟩ := m
    rw [supportedMembers, Bool.and_eq_true] at hs
    have hv := h (k, v) (by simp) hs.1
    have hms := ih hs.2 fun w hw => h w (by simp [hw])
    rw [sanitizeMembers, encodeMembers, hv, hms]
    rfl

/-- The plain way: a copy without the numbers that are not finite. -/
theorem encode_sanitize (v : Obj F) : ∀ d, supported v = true →
    encode ft allowNan (sanitize v) = .ok (textOf ft v d) := by
  refine Obj.induction (motive := fun v => ∀ d, supported v = true →
    encode ft allowNan (sanitize v) = .ok (textOf ft v d)) ?_ ?_ ?_ ?_ ?_ ?_ ?_ ?_ ?_ ?_ v
  · exact fun d _ => rfl
  · exact fun b d _ => by cases b <;> rfl
  · exact fun n d _ => rfl
  · exact fun q d _ => rfl
  · exact fun x d _ => rfl
  · exact fun s d _ => rfl
  · intro vs h d hs
    rw [sanitize, encode, encodeItems_sanitize hs fun v hv => h v hv (d + 1), textOf_list]
    rfl
  · intro vs h d hs
    rw [sanitize, encode, encodeItems_sanitize hs fun v hv => h v hv (d + 1)]
    exact (congrArg Except.ok (textOf_list ft vs d)).symm
  · intro ms h d hs
    rw [sanitize, encode, encodeMembers_sanitize hs fun m hm => h m hm (d + 1), textOf_dict]
    rfl
  · exact fun d hs => absurd hs (by simp [supported])

/-! ### The fast way -/

theorem encodeItems_strict {vs : List (Obj F)} {d : ℕ} (hs : supportedItems vs = true)
    (h : ∀ v ∈ vs, supported v = true →
      encode ft false v = .ok (textOf ft v d) ∨ encode ft false v = .error .value) :
    encodeItems ft false vs = .ok (dumpItems (spaced true) ft (shownItems vs) d) ∨
      encodeItems ft false vs = .error .value := by
  induction vs with
  | nil => exact Or.inl rfl
  | cons v vs ih =>
    rw [supportedItems, Bool.and_eq_true] at hs
    rcases h v (by simp) hs.1 with hv | hv
    · rcases ih hs.2 fun w hw => h w (by simp [hw]) with hvs | hvs
      · left
        rw [encodeItems, hv, hvs]
        rfl
      · right
        rw [encodeItems, hv, hvs]
        rfl
    · right
      rw [encodeItems, hv]
      rfl

theorem encodeMembers_strict {ms : List (String × Obj F)} {d : ℕ} (hs : supportedMembers ms = true)
    (h : ∀ m ∈ ms, supported m.2 = true →
      encode ft false m.2 = .ok (textOf ft m.2 d) ∨ encode ft false m.2 = .error .value) :
    encodeMembers ft false ms = .ok (dumpMembers (spaced true) ft (shownMembers ms) d) ∨
      encodeMembers ft false ms = .error .value := by
  induction ms with
  | nil => exact Or.inl rfl
  | cons m ms ih =>
    obtain ⟨k, v⟩ := m
    rw [supportedMembers, Bool.and_eq_true] at hs
    rcases h (k, v) (by simp) hs.1 with hv | hv
    · rcases ih hs.2 fun w hw => h w (by simp [hw]) with hms | hms
      · left
        rw [encodeMembers, hv, hms]
        rfl
      · right
        rw [encodeMembers, hv, hms]
        rfl
    · right
      rw [encodeMembers, hv]
      rfl

/-- The fast way gives the text of the plain one, or refuses a number. -/
theorem encode_strict (v : Obj F) : ∀ d, supported v = true →
    encode ft false v = .ok (textOf ft v d) ∨ encode ft false v = .error .value := by
  refine Obj.induction (motive := fun v => ∀ d, supported v = true →
    encode ft false v = .ok (textOf ft v d) ∨ encode ft false v = .error .value)
    ?_ ?_ ?_ ?_ ?_ ?_ ?_ ?_ ?_ ?_ v
  · exact fun d _ => Or.inl rfl
  · exact fun b d _ => Or.inl (by cases b <;> rfl)
  · exact fun n d _ => Or.inl rfl
  · exact fun q d _ => Or.inl rfl
  · exact fun x d _ => Or.inr rfl
  · exact fun s d _ => Or.inl rfl
  · intro vs h d hs
    rw [encode, textOf_list]
    rcases encodeItems_strict hs fun v hv => h v hv (d + 1) with hvs | hvs
    · exact Or.inl (by rw [hvs]; rfl)
    · exact Or.inr (by rw [hvs]; rfl)
  · intro vs h d hs
    have htext : textOf ft (.tuple vs) d = textOf ft (.list vs) d := rfl
    rw [encode, htext, textOf_list]
    rcases encodeItems_strict hs fun v hv => h v hv (d + 1) with hvs | hvs
    · exact Or.inl (by rw [hvs]; rfl)
    · exact Or.inr (by rw [hvs]; rfl)
  · intro ms h d hs
    rw [encode, textOf_dict]
    rcases encodeMembers_strict hs fun m hm => h m hm (d + 1) with hms | hms
    · exact Or.inl (by rw [hms]; rfl)
    · exact Or.inr (by rw [hms]; rfl)
  · exact fun d hs => absurd hs (by simp [supported])

/-! ### Objects that have no JSON -/

theorem encodeItems_refused {vs : List (Obj F)} (hs : supportedItems vs = false)
    (h : ∀ v ∈ vs, supported v = false → ∃ e, encode ft allowNan v = .error e) :
    ∃ e, encodeItems ft allowNan vs = .error e := by
  induction vs with
  | nil => exact absurd hs (by simp [supportedItems])
  | cons v vs ih =>
    rw [supportedItems, Bool.and_eq_false_iff] at hs
    cases hv : encode ft allowNan v with
    | error e => exact ⟨e, by rw [encodeItems, hv]; rfl⟩
    | ok t =>
      have hvs : supportedItems vs = false := by
        refine hs.resolve_left fun hno => ?_
        obtain ⟨e, he⟩ := h v (by simp) hno
        exact absurd (he.symm.trans hv) (by simp)
      obtain ⟨e, he⟩ := ih hvs fun w hw => h w (by simp [hw])
      exact ⟨e, by rw [encodeItems, hv, he]; rfl⟩

theorem encodeMembers_refused {ms : List (String × Obj F)} (hs : supportedMembers ms = false)
    (h : ∀ m ∈ ms, supported m.2 = false → ∃ e, encode ft allowNan m.2 = .error e) :
    ∃ e, encodeMembers ft allowNan ms = .error e := by
  induction ms with
  | nil => exact absurd hs (by simp [supportedMembers])
  | cons m ms ih =>
    obtain ⟨k, v⟩ := m
    rw [supportedMembers, Bool.and_eq_false_iff] at hs
    cases hv : encode ft allowNan v with
    | error e => exact ⟨e, by rw [encodeMembers, hv]; rfl⟩
    | ok t =>
      have hms : supportedMembers ms = false := by
        refine hs.resolve_left fun hno => ?_
        obtain ⟨e, he⟩ := h (k, v) (by simp) hno
        exact absurd (he.symm.trans hv) (by simp)
      obtain ⟨e, he⟩ := ih hms fun w hw => h w (by simp [hw])
      exact ⟨e, by rw [encodeMembers, hv, he]; rfl⟩

theorem encode_refused (v : Obj F) : supported v = false → ∃ e, encode ft allowNan v = .error e := by
  refine Obj.induction (motive := fun v => supported v = false → ∃ e, encode ft allowNan v = .error e)
    ?_ ?_ ?_ ?_ ?_ ?_ ?_ ?_ ?_ ?_ v
  · exact fun hs => absurd hs (by simp [supported])
  · exact fun b hs => absurd hs (by simp [supported])
  · exact fun n hs => absurd hs (by simp [supported])
  · exact fun q hs => absurd hs (by simp [supported])
  · exact fun x hs => absurd hs (by simp [supported])
  · exact fun s hs => absurd hs (by simp [supported])
  · intro vs h hs
    obtain ⟨e, he⟩ := encodeItems_refused hs h
    exact ⟨e, by rw [encode, he]; rfl⟩
  · intro vs h hs
    obtain ⟨e, he⟩ := encodeItems_refused hs h
    exact ⟨e, by rw [encode, he]; rfl⟩
  · intro ms h hs
    obtain ⟨e, he⟩ := encodeMembers_refused hs h
    exact ⟨e, by rw [encode, he]; rfl⟩
  · exact fun _ => ⟨.type, rfl⟩

theorem supportedItems_sanitize {vs : List (Obj F)}
    (h : ∀ v ∈ vs, supported (sanitize v) = supported v) :
    supportedItems (sanitizeItems vs) = supportedItems vs := by
  induction vs with
  | nil => rfl
  | cons v vs ih =>
    rw [sanitizeItems, supportedItems, supportedItems, h v (by simp), ih fun w hw => h w (by simp [hw])]

theorem supportedMembers_sanitize {ms : List (String × Obj F)}
    (h : ∀ m ∈ ms, supported (sanitize m.2) = supported m.2) :
    supportedMembers (sanitizeMembers ms) = supportedMembers ms := by
  induction ms with
  | nil => rfl
  | cons m ms ih =>
    obtain ⟨k, v⟩ := m
    rw [sanitizeMembers, supportedMembers, supportedMembers, h (k, v) (by simp),
      ih fun w hw => h w (by simp [hw])]

/-- The copy has what the state had. -/
theorem supported_sanitize (v : Obj F) : supported (sanitize v) = supported v := by
  refine Obj.induction (motive := fun v => supported (sanitize v) = supported v)
    rfl (fun _ => rfl) (fun _ => rfl) (fun _ => rfl) (fun _ => rfl) (fun _ => rfl) ?_ ?_ ?_ rfl v
  · exact fun vs h => supportedItems_sanitize h
  · exact fun vs h => supportedItems_sanitize h
  · exact fun ms h => supportedMembers_sanitize h

/-! ### The payload -/

/-- **The payload**: a state of JSON values always has one, the text that `SafeEncoder` gives, and
this text is read back as the state with `null` for every number that is not finite; a state with
any other object has none. -/
theorem published_state (ft : FloatText F) (state : Obj F)
    (hexact : ∀ q ∈ floats (shown state), ft.Exact q) :
    (supported state = true → ∃ text, payload ft state = some text ∧ safeDumps ft state = .ok text ∧
      loads ft text = some (shown state)) ∧
    (supported state = false → payload ft state = none) := by
  constructor
  · intro hs
    have hsafe : safeDumps ft state = .ok (textOf ft state 0) := encode_sanitize state 0 hs
    have hback : loads ft (textOf ft state 0) = some (shown state) := by
      have hloads := loads_dump (spaced true) ft hexact 0 [] (by simp)
      rwa [List.append_nil] at hloads
    refine ⟨textOf ft state 0, ?_, hsafe, hback⟩
    rcases encode_strict state 0 hs with hfast | hfast
    · rw [payload, hfast]
    · rw [payload, hfast]
      simp only [hsafe]
      rfl
  · intro hs
    obtain ⟨e, he⟩ : ∃ e, encode ft false state = .error e := encode_refused state hs
    rw [payload, he]
    cases e with
    | type => rfl
    | value =>
      obtain ⟨e, he⟩ : ∃ e, encode ft true (sanitize state) = .error e :=
        encode_refused (sanitize state) (by rw [supported_sanitize, hs])
      simp only [safeDumps, he]
      rfl

/-- `repr` of the floats that have one decimal, in tenths. -/
def tenths : FloatText ℕ where
  text n := Nat.toDigits 10 (n / 10) ++ '.' :: Nat.toDigits 10 (n % 10)
  parse cs := parseNat (cs.filter Char.isDigit)

/-- 21.5 W, and two readings that are no numbers. -/
def telemetry : Obj ℕ :=
  .dict [("gt", .float 215), ("max_cell", .nonFinite .nan),
    ("chains", .tuple [.int 16, .nonFinite .infinity])]

theorem published_state_telemetry : ∃ text, payload tenths telemetry = some text ∧
    safeDumps tenths telemetry = .ok text ∧
      loads tenths text =
        some (.obj [("gt", .float 215), ("max_cell", .null), ("chains", .arr [.int 16, .null])]) := by
  have hexact : ∀ q ∈ floats (shown telemetry), tenths.Exact q := by
    intro q hq
    obtain rfl : q = 215 := by simpa [telemetry, shown, shownMembers, shownItems, floats, floatsMembers,
      floatsItems] using hq
    exact ⟨List.all_eq_true.mp (by decide), List.any_eq_true.mp (by decide), by decide +kernel⟩
  exact (published_state tenths telemetry hexact).1 rfl

end InverterControl.Bridge.Payload
