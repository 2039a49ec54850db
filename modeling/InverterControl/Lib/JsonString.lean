import Mathlib.Tactic

/-!
# Strings in JSON

A string is written between quotes, with the characters that cannot stand there as escapes; outside the
basic plane an escape is a pair of UTF-16 units.  Reading collects the units of the text and decodes
them, and gives back the string (`parseString_body`).
-/

namespace InverterControl.Lib.JsonString

/-! ### UTF-16 -/

/-- The UTF-16 units of a character. -/
def utf16 (c : Char) : List ℕ :=
  if c.toNat < 0x10000 then [c.toNat]
  else [0xD800 + (c.toNat - 0x10000) / 0x400, 0xDC00 + (c.toNat - 0x10000) % 0x400]

/-- The characters of a list of units; a lone surrogate is no character. -/
def ofUtf16 : List ℕ → Option (List Char)
  | [] => some []
  | u :: us =>
    if u < 0xD800 ∨ 0xE000 ≤ u then (ofUtf16 us).map (Char.ofNat u :: ·)
    else if 0xDC00 ≤ u then none
    else match us with
      | [] => none
      | v :: us =>
        if 0xDC00 ≤ v ∧ v < 0xE000 then
          (ofUtf16 us).map (Char.ofNat (0x10000 + (u - 0xD800) * 0x400 + (v - 0xDC00)) :: ·)
        else none

theorem toNat_valid (c : Char) : c.toNat < 0xD800 ∨ (0xDFFF < c.toNat ∧ c.toNat < 0x110000) := c.valid

theorem ofUtf16_plain {u : ℕ} (h : u < 0xD800 ∨ 0xE000 ≤ u) (us : List ℕ) :
    ofUtf16 (u :: us) = (ofUtf16 us).map (Char.ofNat u :: ·) := by
  rw [ofUtf16.eq_def]
  exact if_pos h

theorem ofUtf16_pair {u v : ℕ} (hu : 0xD800 ≤ u ∧ u < 0xDC00) (hv : 0xDC00 ≤ v ∧ v < 0xE000)
    (us : List ℕ) : ofUtf16 (u :: v :: us) =
      (ofUtf16 us).map (Char.ofNat (0x10000 + (u - 0xD800) * 0x400 + (v - 0xDC00)) :: ·) := by
  rw [ofUtf16.eq_def]
  simp only
  rw [if_neg (by omega), if_neg (by omega), if_pos hv]

theorem ofUtf16_utf16 (c : Char) (us : List ℕ) :
    ofUtf16 (utf16 c ++ us) = (ofUtf16 us).map (c :: ·) := by
  have hvalid := toNat_valid c
  unfold utf16
  split_ifs with h
  · rw [List.singleton_append, ofUtf16_plain (by omega), Char.ofNat_toNat]
  · have hback : 0x10000 + (0xD800 + (c.toNat - 0x10000) / 0x400 - 0xD800) * 0x400 +
        (0xDC00 + (c.toNat - 0x10000) % 0x400 - 0xDC00) = c.toNat := by omega
    rw [List.cons_append, List.singleton_append, ofUtf16_pair (by omega) (by omega), hback,
      Char.ofNat_toNat]

theorem ofUtf16_flatMap (cs : List Char) : ofUtf16 (cs.flatMap utf16) = some cs := by
  induction cs with
  | nil => rfl
  | cons c cs ih => rw [List.flatMap_cons, ofUtf16_utf16, ih, Option.map_some]

theorem utf16_lt (c : Char) : ∀ u ∈ utf16 c, u < 0x10000 := by
  have hvalid := toNat_valid c
  intro u hu
  unfold utf16 at hu
  split_ifs at hu with h
  · rw [List.mem_singleton.mp hu]
    exact h
  · simp only [List.mem_cons, List.not_mem_nil, or_false] at hu
    omega

theorem length_utf16_le (c : Char) : (utf16 c).length ≤ 2 := by
  unfold utf16
  split_ifs <;> simp

/-! ### Hexadecimal digits -/

/-- The four digits of a unit. -/
def hex4 (u : ℕ) : List Char :=
  [(u / 4096 % 16).digitChar, (u / 256 % 16).digitChar, (u / 16 % 16).digitChar, (u % 16).digitChar]

def hexValue (c : Char) : Option ℕ :=
  if '0' ≤ c ∧ c ≤ '9' then some (c.toNat - 48)
  else if 'a' ≤ c ∧ c ≤ 'f' then some (c.toNat - 87)
  else if 'A' ≤ c ∧ c ≤ 'F' then some (c.toNat - 55)
  else none

/-- The unit of four digits. -/
def ofHex4 (a b c d : Char) : Option ℕ :=
  match hexValue a, hexValue b, hexValue c, hexValue d with
  | some a, some b, some c, some d => some (a * 4096 + b * 256 + c * 16 + d)
  | _, _, _, _ => none

theorem hexValue_digitChar : ∀ n < 16, hexValue n.digitChar = some n := by decide

theorem digitChar_ascii : ∀ n < 16, n.digitChar.toNat < 128 := by decide

theorem ofHex4_hex4 {u : ℕ} (h : u < 0x10000) :
    ofHex4 (u / 4096 % 16).digitChar (u / 256 % 16).digitChar (u / 16 % 16).digitChar
      (u % 16).digitChar = some u := by
  simp only [ofHex4, hexValue_digitChar _ (Nat.mod_lt _ (by decide : 0 < 16)), Option.some.injEq]
  omega

/-! ### Escapes -/

/-- The letter of a short escape. -/
def shortEscape (c : Char) : Option Char :=
  if c = '"' then some '"'
  else if c = '\\' then some '\\'
  else if c = '\n' then some 'n'
  else if c = '\r' then some 'r'
  else if c = '\t' then some 't'
  else if c.toNat = 8 then some 'b'
  else if c.toNat = 12 then some 'f'
  else none

/-- What a short escape stands for. -/
def unescape (c : Char) : Option ℕ :=
  if c = '"' then some 34
  else if c = '\\' then some 92
  else if c = '/' then some 47
  else if c = 'n' then some 10
  else if c = 'r' then some 13
  else if c = 't' then some 9
  else if c = 'b' then some 8
  else if c = 'f' then some 12
  else none

/-- A unit as an escape. -/
def escapeUnit (u : ℕ) : List Char := '\\' :: 'u' :: hex4 u

/-- A character in a string; `ascii` leaves no other character in the text. -/
def escapeChar (ascii : Bool) (c : Char) : List Char :=
  match shortEscape c with
  | some e => ['\\', e]
  | none =>
    if c.toNat < 0x20 ∨ (ascii = true ∧ 0x7E < c.toNat) then (utf16 c).flatMap escapeUnit else [c]

/-- A string between its quotes. -/
def body (ascii : Bool) (s : String) : List Char := s.toList.flatMap (escapeChar ascii)

/-- The units of a text up to the closing quote, and the text after it. -/
def parseUnits : List Char → Option (List ℕ × List Char)
  | [] => none
  | c :: rest =>
    if c = '"' then some ([], rest)
    else if c = '\\' then
      match rest with
      | 'u' :: a :: b :: c :: d :: rest =>
        (ofHex4 a b c d).bind fun u => (parseUnits rest).map fun p => (u :: p.1, p.2)
      | e :: rest => (unescape e).bind fun u => (parseUnits rest).map fun p => (u :: p.1, p.2)
      | [] => none
    else (parseUnits rest).map fun p => (utf16 c ++ p.1, p.2)

/-- The string of a text that follows an opening quote. -/
def parseString (cs : List Char) : Option (String × List Char) :=
  (parseUnits cs).bind fun p => (ofUtf16 p.1).map fun s => (String.ofList s, p.2)

theorem shortEscape_some {c e : Char} (h : shortEscape c = some e) :
    e ≠ 'u' ∧ unescape e = some c.toNat ∧ e.toNat < 128 ∧ c.toNat < 0x10000 := by
  unfold shortEscape at h
  split at h
  · next hc => obtain rfl := Option.some.inj h; subst hc; decide
  split at h
  · next hc => obtain rfl := Option.some.inj h; subst hc; decide
  split at h
  · next hc => obtain rfl := Option.some.inj h; subst hc; decide
  split at h
  · next hc => obtain rfl := Option.some.inj h; subst hc; decide
  split at h
  · next hc => obtain rfl := Option.some.inj h; subst hc; decide
  split at h
  · next hc => obtain rfl := Option.some.inj h; rw [hc]; decide
  split at h
  · next hc => obtain rfl := Option.some.inj h; rw [hc]; decide
  · cases h

theorem parseUnits_quote (rest : List Char) : parseUnits ('"' :: rest) = some ([], rest) := by
  rw [parseUnits.eq_def]
  rfl

theorem parseUnits_raw {c : Char} (hquote : c ≠ '"') (hslash : c ≠ '\\') (rest : List Char) :
    parseUnits (c :: rest) = (parseUnits rest).map fun p => (utf16 c ++ p.1, p.2) := by
  rw [parseUnits.eq_def]
  simp only
  rw [if_neg hquote, if_neg hslash]

theorem parseUnits_unicode {a b c d : Char} {u : ℕ} (h : ofHex4 a b c d = some u)
    (rest : List Char) : parseUnits ('\\' :: 'u' :: a :: b :: c :: d :: rest) =
      (parseUnits rest).map fun p => (u :: p.1, p.2) := by
  rw [parseUnits.eq_def]
  simp only
  rw [if_neg (by decide), if_pos trivial, h, Option.bind_some]

theorem parseUnits_short {e : Char} {u : ℕ} (hu : e ≠ 'u') (h : unescape e = some u)
    (rest : List Char) : parseUnits ('\\' :: e :: rest) =
      (parseUnits rest).map fun p => (u :: p.1, p.2) := by
  rw [parseUnits.eq_def]
  simp only
  rw [if_neg (by decide), if_pos trivial]
  split
  · next heq => exact absurd (List.cons.inj heq).1 hu
  · next heq =>
    obtain ⟨rfl, rfl⟩ := List.cons.inj heq
    rw [h, Option.bind_some]
  · next heq => cases heq

theorem parseUnits_escapeUnit {u : ℕ} (h : u < 0x10000) (rest : List Char) :
    parseUnits (escapeUnit u ++ rest) = (parseUnits rest).map fun p => (u :: p.1, p.2) := by
  simp only [escapeUnit, hex4, List.cons_append, List.nil_append]
  exact parseUnits_unicode (ofHex4_hex4 h) rest

theorem parseUnits_escapeUnits {us : List ℕ} (h : ∀ u ∈ us, u < 0x10000) (rest : List Char) :
    parseUnits (us.flatMap escapeUnit ++ rest) =
      (parseUnits rest).map fun p => (us ++ p.1, p.2) := by
  induction us with
  | nil => simp
  | cons u us ih =>
    rw [List.flatMap_cons, List.append_assoc, parseUnits_escapeUnit (h u (by simp)),
      ih fun v hv => h v (by simp [hv]), Option.map_map]
    rfl

/-- A character is read back as its units. -/
theorem parseUnits_escapeChar (ascii : Bool) (c : Char) (rest : List Char) :
    parseUnits (escapeChar ascii c ++ rest) =
      (parseUnits rest).map fun p => (utf16 c ++ p.1, p.2) := by
  unfold escapeChar
  cases hs : shortEscape c with
  | some e =>
    obtain ⟨hu, hunescape, -, hbmp⟩ := shortEscape_some hs
    have hutf : utf16 c = [c.toNat] := if_pos hbmp
    rw [List.cons_append, List.singleton_append, parseUnits_short hu hunescape, hutf]
    rfl
  | none =>
    simp only
    split_ifs with h
    · exact parseUnits_escapeUnits (utf16_lt c) rest
    · have hquote : c ≠ '"' := by
        rintro rfl
        simp [shortEscape] at hs
      have hslash : c ≠ '\\' := by
        rintro rfl
        simp [shortEscape] at hs
      exact parseUnits_raw hquote hslash rest

/-- **Round trip of a string.** -/
theorem parseString_body (ascii : Bool) (s : String) (rest : List Char) :
    parseString (body ascii s ++ '"' :: rest) = some (s, rest) := by
  have hunits : ∀ cs : List Char, parseUnits (cs.flatMap (escapeChar ascii) ++ '"' :: rest) =
      some (cs.flatMap utf16, rest) := by
    intro cs
    induction cs with
    | nil => exact parseUnits_quote rest
    | cons c cs ih =>
      rw [List.flatMap_cons, List.append_assoc, parseUnits_escapeChar, ih, Option.map_some,
        List.flatMap_cons]
  rw [parseString, body, hunits, Option.bind_some, ofUtf16_flatMap, Option.map_some,
    String.ofList_toList]

/-! ### Size -/

theorem length_escapeChar_le (ascii : Bool) (c : Char) : (escapeChar ascii c).length ≤ 12 := by
  have hlen := length_utf16_le c
  unfold escapeChar
  split
  · simp
  · split_ifs
    · have hunit : ∀ us : List ℕ, (us.flatMap escapeUnit).length = 6 * us.length := by
        intro us
        induction us with
        | nil => rfl
        | cons u us ih => simp [List.flatMap_cons, ih, escapeUnit, hex4]; omega
      rw [hunit]
      omega
    · simp

/-- A string takes at most twelve characters of text for each of its own. -/
theorem length_body_le (ascii : Bool) (s : String) : (body ascii s).length ≤ 12 * s.length := by
  unfold body
  rw [← String.length_toList]
  induction s.toList with
  | nil => simp
  | cons c cs ih =>
    have hc := length_escapeChar_le ascii c
    simp only [List.flatMap_cons, List.length_append, List.length_cons]
    omega

/-- In ASCII every character of the text is one byte. -/
theorem escapeChar_ascii (c : Char) : ∀ d ∈ escapeChar true c, d.toNat < 128 := by
  intro d hd
  unfold escapeChar at hd
  split at hd
  · next e he =>
    simp only [List.mem_cons, List.not_mem_nil, or_false] at hd
    rcases hd with rfl | rfl
    · decide
    · exact (shortEscape_some he).2.2.1
  · split_ifs at hd with h
    · obtain ⟨u, -, hd⟩ := List.mem_flatMap.mp hd
      simp only [escapeUnit, hex4, List.mem_cons, List.not_mem_nil, or_false] at hd
      rcases hd with rfl | rfl | rfl | rfl | rfl | rfl
      · decide
      · decide
      all_goals exact digitChar_ascii _ (Nat.mod_lt _ (by decide))
    · rw [List.mem_singleton.mp hd]
      push Not at h
      have := h.2 rfl
      omega

end InverterControl.Lib.JsonString
