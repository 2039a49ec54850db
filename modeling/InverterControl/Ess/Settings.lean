import InverterControl.Ess.Model
import InverterControl.Lib.Json

/-!
# What a selection leaves on the GX

The same programs against the settings they read and write, where every read and every write can
fail, and a write that is not confirmed may have been carried out all the same.
-/

namespace InverterControl.Ess.Settings

open Lib.Calls Model

/-- The settings of the GX, and the service of the inverter where it is known. -/
structure Gx where
  vebus : Option String
  /-- `/Mode` of the inverter: 3 is on, 4 is off. -/
  switchMode : ℤ
  adjustable : Bool
  hub4Mode : ℤ
  batteryLife : ℤ
  cache : Option EssMode := none
  deriving DecidableEq, Repr

/-- What becomes of a call. -/
structure Fault where
  /-- The read gets no answer. -/
  unread : Bool := false
  /-- The write is carried out though it is not confirmed. -/
  applied : Bool := false
  accepted : Bool := true
  deriving DecidableEq, Repr

def textOf (n : ℤ) : String := String.ofList (Lib.Json.intText n)

def valueAt (g : Gx) (service path : String) : Option String :=
  if service = settingsService ∧ path = hub4ModePath then some (textOf g.hub4Mode)
  else if service = settingsService ∧ path = batteryLifePath then some (textOf g.batteryLife)
  else if g.vebus = some service ∧ path = "/Mode" then some (textOf g.switchMode)
  else if g.vebus = some service ∧ path = "/ModeIsAdjustable" then
    some (textOf (if g.adjustable = true then 1 else 0))
  else none

def write (g : Gx) (service path : String) (value : ℤ) : Gx :=
  if service = settingsService ∧ path = hub4ModePath then { g with hub4Mode := value }
  else if service = settingsService ∧ path = batteryLifePath then { g with batteryLife := value }
  else if g.vebus = some service ∧ path = "/Mode" then { g with switchMode := value }
  else g

/-- What a call answers; the locks and the other fields of the daemon do not matter here. -/
def replyGx (g : Gx) (i : Fault) : (op : Op) → Ret op
  | .dbusGet service path => if i.unread = true then none else valueAt g service path
  | .dbusGetNativeOnly service path => if i.unread = true then none else valueAt g service path
  | .dbusSet _ _ _ _ => i.accepted
  | .vebusService => g.vebus
  | .time => 1
  | .cache => (g.cache, 1)
  | .dryRun => false
  | .seen => []
  | .status => {}
  | .acquire _ => ()
  | .release _ => ()
  | .storeCache _ _ => ()
  | .setDryRun _ => ()
  | .nextGeneration => ()
  | .remember _ => ()
  | .setStatus _ => ()
  | .publish _ _ => ()

def afterGx (g : Gx) (i : Fault) : Op → Gx
  | .dbusSet service path value _ =>
    if i.accepted = true ∨ i.applied = true then write g service path value else g
  | .storeCache mode _ => { g with cache := mode }
  | _ => g

def answerGx (op : Op) (g : Gx) (i : Fault) :
    Option (Ret op × Gx) := some (replyGx g i op, afterGx g i op)

/-- A part of the program against the settings. -/
abbrev runGx {α : Type} (p : Code α) (g : Gx) (is : List Fault) : Option (Except Exception α × Gx) :=
  run answerGx p g is

/-- The choice that the settings stand for. -/
def profile (g : Gx) : Option Mode :=
    selectedMode (some g.hub4Mode) (some g.batteryLife) (some g.switchMode)

/-- The settings of a choice. -/
def target (g : Gx) : Mode → Gx
  | .off => { g with switchMode := 4 }
  | .on => { g with switchMode := 3 }
  | .externalControl => { g with hub4Mode := 3 }
  | mode => { g with batteryLife := batteryLifeValue mode, hub4Mode := if g.hub4Mode = 2 then 2 else 1 }

/-! ### Texts of numbers -/

theorem digitsOfText_digits : ∀ {cs : List Char}, (∀ c ∈ cs, c.isDigit = true) → ∀ (afterDigit : Bool),
    cs ≠ [] ∨ afterDigit = true → digitsOfText cs afterDigit = some cs
  | [], _, afterDigit, h => by
    have : afterDigit = true := h.resolve_left fun h => h rfl
    simp [digitsOfText, this]
  | c :: cs, hdigits, afterDigit, _ => by
    have hc : c.isDigit = true := hdigits c (by simp)
    have hcs := digitsOfText_digits (fun x (hx : x ∈ cs) => hdigits x (by simp [hx])) true (Or.inr rfl)
    simp [digitsOfText, hc, hcs]

theorem natOfText_toDigits (n : ℕ) : natOfText (Nat.toDigits 10 n) = some n := by
  rw [natOfText, digitsOfText_digits (fun c hc => Lib.Json.isDigit_of_mem hc) false
    (Or.inl Nat.toDigits_ne_nil), Option.map_some, Nat.ofDigitChars_toDigits (by decide) (by decide)]

theorem isWhitespace_of_isDigit {c : Char} (h : c.isDigit = true) : c.isWhitespace = false := by
  by_contra hw
  simp only [Char.isWhitespace, Bool.or_eq_true, decide_eq_true_eq, Bool.not_eq_false] at hw
  rcases hw with ((rfl | rfl) | rfl) | rfl <;> exact absurd h (by decide)

theorem dropWhile_eq_self {cs : List Char} (h : ∀ c ∈ cs, c.isWhitespace = false) :
    cs.dropWhile Char.isWhitespace = cs := by
  cases cs with
  | nil => rfl
  | cons c cs => rw [List.dropWhile_cons_of_neg (by simp [h c (by simp)])]

/-- Reading back the text of a number. -/
theorem intOfText_textOf (n : ℤ) : intOfText (textOf n) = some n := by
  have hwhite : ∀ c ∈ Lib.Json.intText n, c.isWhitespace = false := by
    intro c hc
    cases n with
    | ofNat n => exact isWhitespace_of_isDigit (Lib.Json.isDigit_of_mem hc)
    | negSucc n =>
      rcases List.mem_cons.mp hc with rfl | hc
      · decide
      · exact isWhitespace_of_isDigit (Lib.Json.isDigit_of_mem hc)
  have hstrip : ((((textOf n).toList.dropWhile Char.isWhitespace).reverse).dropWhile
      Char.isWhitespace).reverse = Lib.Json.intText n := by
    rw [textOf, String.toList_ofList, dropWhile_eq_self hwhite,
      dropWhile_eq_self fun c hc => hwhite c (List.mem_reverse.mp hc), List.reverse_reverse]
  unfold intOfText
  simp only [hstrip]
  cases n with
  | negSucc n =>
    simp only [Lib.Json.intText, natOfText_toDigits, Option.map_some]
    rfl
  | ofNat n =>
    have hsign : ∀ c, c = '-' ∨ c = '+' → c ∉ Nat.toDigits 10 n := by
      rintro c (rfl | rfl) hc
      · exact absurd (Lib.Json.isDigit_of_mem hc) (by decide)
      · exact absurd (Lib.Json.isDigit_of_mem hc) (by decide)
    simp only [Lib.Json.intText]
    split
    · next digits heq => exact absurd (heq ▸ List.mem_cons_self) (hsign '-' (Or.inl rfl))
    · next digits heq => exact absurd (heq ▸ List.mem_cons_self) (hsign '+' (Or.inr rfl))
    · rw [natOfText_toDigits, Option.map_some]

theorem textOf_injective {m n : ℤ} (h : textOf m = textOf n) : m = n := by
  have := intOfText_textOf m
  rw [h, intOfText_textOf] at this
  exact (Option.some.inj this).symm

/-! ### One selection -/

variable {α : Type} {g g' : Gx}

/-- The settings are the same, whatever is cached. -/
def SameSettings (g g' : Gx) : Prop := { g with cache := none } = { g' with cache := none }

/-- What a plan writes. -/
inductive Plan (g : Gx) : Mode → List (String × String × ℤ) → Prop
  | off {name : String} (h : g.vebus = some name) : Plan g .off [(name, "/Mode", 4)]
  | on {name : String} (h : g.vebus = some name) : Plan g .on [(name, "/Mode", 3)]
  | external : Plan g .externalControl [(settingsService, hub4ModePath, 3)]
  /-- The profile comes first. -/
  | optimized {mode : Mode} (hoff : mode ≠ .off) (hon : mode ≠ .on) (hexternal : mode ≠ .externalControl)
      (hhub4 : g.hub4Mode = 1 ∨ g.hub4Mode = 2 ∨ g.hub4Mode = 3) :
      Plan g mode [(settingsService, batteryLifePath, batteryLifeValue mode),
        (settingsService, hub4ModePath, if g.hub4Mode = 2 then 2 else 1)]

theorem ends_call {Q : Except Exception α → Gx → Prop} {op : Op} {next : Ret op → Code α} :
    Ends answerGx Q (.call op next) g ↔
      ∀ i, Ends answerGx Q (next (replyGx g i op)) (afterGx g i op) := by
  constructor
  · exact fun h i => h i _ _ rfl
  · rintro h i r s' ha
    simp only [answerGx, Option.some.injEq, Prod.mk.injEq] at ha
    obtain ⟨rfl, rfl⟩ := ha
    exact h i

theorem valueAt_hub4 (g : Gx) : valueAt g settingsService hub4ModePath = some (textOf g.hub4Mode) := by
  simp [valueAt]

/-- A reading of `Hub4Mode` tells which of the three it is. -/
theorem hub4_of_raw {raw : Option String} {i : Fault} {n : ℤ}
    (hraw : raw = replyGx g i (.dbusGet settingsService hub4ModePath)) (h : raw = some (textOf n)) :
    g.hub4Mode = n := by
  rw [hraw] at h
  simp only [replyGx, valueAt_hub4] at h
  split_ifs at h
  exact textOf_injective (Option.some.inj h)

theorem ends_essModeWrites (mode : Mode) :
    Ends answerGx (fun r s => s = g ∧ ∀ ws, r = .ok ws → Plan g mode ws) (essModeWrites mode) g := by
  have htexts : textOf 1 = "1" ∧ textOf 2 = "2" ∧ textOf 3 = "3" := by decide
  obtain ⟨h1, h2, h3⟩ := htexts
  unfold essModeWrites
  by_cases hswitch : mode = .off ∨ mode = .on
  · rw [if_pos hswitch]
    simp only [Program.bind_eq, perform, Program.perform_bind]
    refine ends_call.mpr fun i => ?_
    show Ends answerGx _ (switchWrites mode g.vebus) g
    cases hname : g.vebus with
    | none => exact ⟨rfl, nofun⟩
    | some name =>
      simp only [switchWrites, perform, Program.bind_eq, Program.perform_bind]
      by_cases hempty : name = ""
      · rw [if_pos hempty]
        exact ⟨rfl, nofun⟩
      · rw [if_neg hempty]
        refine ends_call.mpr fun i => ?_
        by_cases hadjustable : replyGx g i (.dbusGet name "/ModeIsAdjustable") = some "1"
        · rw [if_pos hadjustable]
          refine ⟨rfl, fun ws hws => ?_⟩
          obtain rfl := Except.ok.inj hws
          rcases hswitch with rfl | rfl
          · exact .off hname
          · exact .on hname
        · rw [if_neg hadjustable]
          exact ⟨rfl, nofun⟩
  · rw [if_neg hswitch]
    simp only [Program.bind_eq, perform, Program.perform_bind]
    refine ends_call.mpr fun i => ?_
    generalize hraw : replyGx g i (.dbusGet settingsService hub4ModePath) = raw
    by_cases hnone : raw ≠ some "1" ∧ raw ≠ some "2" ∧ raw ≠ some "3"
    · rw [if_pos hnone]
      exact ⟨rfl, nofun⟩
    · rw [if_neg hnone]
      have hhub4 : raw = some (textOf g.hub4Mode) ∧
          (g.hub4Mode = 1 ∨ g.hub4Mode = 2 ∨ g.hub4Mode = 3) := by
        have hcases : raw = some (textOf 1) ∨ raw = some (textOf 2) ∨ raw = some (textOf 3) := by
          rw [h1, h2, h3]
          tauto
        rcases hcases with h | h | h
        · have := hub4_of_raw hraw.symm h
          exact ⟨by rw [this, h], Or.inl this⟩
        · have := hub4_of_raw hraw.symm h
          exact ⟨by rw [this, h], Or.inr (Or.inl this)⟩
        · have := hub4_of_raw hraw.symm h
          exact ⟨by rw [this, h], Or.inr (Or.inr this)⟩
      by_cases hexternal : mode = .externalControl
      · rw [if_pos hexternal]
        refine ⟨rfl, fun ws hws => ?_⟩
        obtain rfl := Except.ok.inj hws
        rw [hexternal]
        exact .external
      · rw [if_neg hexternal]
        refine ⟨rfl, fun ws hws => ?_⟩
        obtain rfl := Except.ok.inj hws
        have hphase : raw = some "2" ↔ g.hub4Mode = 2 := by
          rw [hhub4.1, ← h2]
          exact ⟨fun h => textOf_injective (Option.some.inj h), fun h => by rw [h]⟩
        simp only [hphase]
        exact .optimized (fun h => hswitch (Or.inl h)) (fun h => hswitch (Or.inr h)) hexternal hhub4.2

/-- The first `k` writes. -/
def written (g : Gx) (ws : List (String × String × ℤ)) : Gx :=
  ws.foldl (fun g w => write g w.1 w.2.1 w.2.2) g

/-- A run of writes carries out the first few of them, and all where it does not raise. -/
theorem ends_writeAll (request : Option String) : ∀ (ws : List (String × String × ℤ)) (g : Gx),
    Ends answerGx (fun r s => ∃ k, s = written g (ws.take k) ∧ (r = .ok () → k = ws.length))
      (writeAll request ws) g
  | [], g => ⟨0, rfl, fun _ => rfl⟩
  | (service, path, value) :: ws, g => by
    simp only [writeAll, Program.bind_eq, perform, Program.perform_bind]
    refine ends_call.mpr fun i => ?_
    by_cases haccepted : replyGx g i (.dbusSet service path value request) = true
    · rw [if_pos haccepted]
      have hafter : afterGx g i (.dbusSet service path value request) = write g service path value :=
        if_pos (Or.inl haccepted)
      rw [hafter]
      refine (ends_writeAll request ws _).mono fun r s hr => ?_
      obtain ⟨k, rfl, hk⟩ := hr
      exact ⟨k + 1, rfl, fun h => by rw [hk h]; rfl⟩
    · rw [if_neg haccepted]
      by_cases happlied : i.accepted = true ∨ i.applied = true
      · exact ⟨1, by simp [afterGx, happlied, written], nofun⟩
      · exact ⟨0, by simp [afterGx, happlied, written], nofun⟩

/-- What a selection leaves, whatever failed. -/
structure Selected (g : Gx) (mode : Mode) (r : Except Exception Unit) (g' : Gx) : Prop where
  /-- A success has written everything, and the cached observation is gone. -/
  done : r = .ok () → SameSettings g' (target g mode) ∧ g'.cache = none
  /-- Whatever was left half done stands for the old choice or for the new one. -/
  either : profile g' = profile g ∨ profile g' = profile (target g mode)
  /-- A choice of the profile leaves the switch. -/
  switch : mode ≠ .off → mode ≠ .on → g'.switchMode = g.switchMode
  /-- A choice of the switch leaves the profile. -/
  settings : mode = .off ∨ mode = .on → g'.hub4Mode = g.hub4Mode ∧ g'.batteryLife = g.batteryLife
  /-- The phase compensation stays as it is. -/
  phase : mode ≠ .externalControl → g.hub4Mode = 2 → g'.hub4Mode = 2

theorem profile_of_same (h : SameSettings g g') : profile g = profile g' := by
  unfold SameSettings at h
  simp only [Gx.mk.injEq] at h
  simp only [profile, h]

/-- With the inverter on, the settings of a choice stand for it; `on` keeps the profile that is set. -/
theorem profile_target (g : Gx) {mode : Mode} (hon : mode ≠ .on)
    (hswitch : mode = .off ∨ g.switchMode = 3) :
    profile (target g mode) = some mode := by
  rcases hswitch with rfl | hswitch
  · simp [profile, target, selectedMode]
  · cases mode with
    | on => exact absurd rfl hon
    | off => simp [profile, target, selectedMode]
    | externalControl => simp [profile, target, selectedMode, hswitch]
    | optimizedWithBatteryLife =>
      by_cases h2 : g.hub4Mode = 2 <;> simp [profile, target, selectedMode, batteryLifeValue,
        hswitch, h2]
    | optimizedWithoutBatteryLife =>
      by_cases h2 : g.hub4Mode = 2 <;> simp [profile, target, selectedMode, batteryLifeValue,
        hswitch, h2]
    | keepBatteriesCharged =>
      by_cases h2 : g.hub4Mode = 2 <;> simp [profile, target, selectedMode, batteryLifeValue,
        hswitch, h2]

theorem write_switch {name : String} (h : g.vebus = some name) (value : ℤ) :
    write g name "/Mode" value = { g with switchMode := value } := by
  have h1 : "/Mode" ≠ hub4ModePath := by decide
  have h2 : "/Mode" ≠ batteryLifePath := by decide
  simp [write, h, h1, h2]

theorem write_hub4 (value : ℤ) : write g settingsService hub4ModePath value =
    { g with hub4Mode := value } := by
  simp [write]

theorem write_batteryLife (value : ℤ) :
    write g settingsService batteryLifePath value = { g with batteryLife := value } := by
  have h : batteryLifePath ≠ hub4ModePath := by decide
  simp [write, h]

/-- A new profile with the old `Hub4Mode` is the old choice under external control, and the new one
elsewhere. -/
theorem profile_half {mode : Mode} (hhub4 : g.hub4Mode = 1 ∨ g.hub4Mode = 2 ∨ g.hub4Mode = 3) :
    profile { g with batteryLife := batteryLifeValue mode } = profile g ∨
      profile { g with batteryLife := batteryLifeValue mode } = profile { g with
        batteryLife := batteryLifeValue mode, hub4Mode := if g.hub4Mode = 2 then 2 else 1 } := by
  rcases hhub4 with h | h | h
  · exact Or.inr (by simp [profile, h])
  · exact Or.inr (by simp [profile, h])
  · exact Or.inl (by simp [profile, selectedMode, h])

theorem target_optimized {mode : Mode} (hoff : mode ≠ .off) (hon : mode ≠ .on)
    (hexternal : mode ≠ .externalControl) : target g mode =
      { g with batteryLife := batteryLifeValue mode, hub4Mode := if g.hub4Mode = 2 then 2 else 1 } := by
  cases mode with
  | off => exact absurd rfl hoff
  | on => exact absurd rfl hon
  | externalControl => exact absurd rfl hexternal
  | _ => rfl

/-- After the first `k` writes of a plan. -/
theorem selected_of_plan {mode : Mode} {ws : List (String × String × ℤ)} (hplan : Plan g mode ws) (k : ℕ)
    {r : Except Exception Unit} (hk : r = .ok () → k = ws.length)
    (hg : g' = { written g (ws.take k) with cache := none }) : Selected g mode r g' := by
  have hzero : k = 0 → ws ≠ [] → Selected g mode r g' := by
    rintro rfl hws
    subst hg
    refine ⟨fun hr => ?_, Or.inl rfl, fun _ _ => rfl, fun _ => ⟨rfl, rfl⟩, fun _ h => h⟩
    exact absurd (List.length_eq_zero_iff.mp (hk hr).symm) hws
  cases hplan with
  | off h =>
    rcases k with _ | k
    · exact hzero rfl (by simp)
    · obtain rfl : g' = { g with switchMode := 4, cache := none } := by
        rw [hg]
        simp [written, write_switch h]
      exact ⟨fun _ => ⟨rfl, rfl⟩, Or.inr rfl, fun hoff => absurd rfl hoff, fun _ => ⟨rfl, rfl⟩,
        fun _ h => h⟩
  | on h =>
    rcases k with _ | k
    · exact hzero rfl (by simp)
    · obtain rfl : g' = { g with switchMode := 3, cache := none } := by
        rw [hg]
        simp [written, write_switch h]
      exact ⟨fun _ => ⟨rfl, rfl⟩, Or.inr rfl, fun _ hon => absurd rfl hon, fun _ => ⟨rfl, rfl⟩,
        fun _ h => h⟩
  | external =>
    rcases k with _ | k
    · exact hzero rfl (by simp)
    · obtain rfl : g' = { g with hub4Mode := 3, cache := none } := by
        rw [hg]
        simp [written, write_hub4]
      refine ⟨fun _ => ⟨rfl, rfl⟩, Or.inr rfl, fun _ _ => rfl, fun h => ?_, fun h => absurd rfl h⟩
      simp at h
  | optimized hoff hon hexternal hhub4 =>
    have htarget := target_optimized (g := g) hoff hon hexternal
    rcases k with _ | _ | k
    · exact hzero rfl (by simp)
    · obtain rfl : g' = { g with batteryLife := batteryLifeValue mode, cache := none } := by
        rw [hg]
        simp [written, write_batteryLife]
      refine ⟨fun hr => ?_, ?_, fun _ _ => rfl, fun h => absurd h (by simp [hoff, hon]), fun _ h => h⟩
      · have := hk hr
        simp at this
      · rw [htarget]
        exact profile_half hhub4
    · obtain rfl : g' = { g with
          batteryLife := batteryLifeValue mode, hub4Mode := if g.hub4Mode = 2 then 2 else 1,
            cache := none } := by
        rw [hg]
        simp [written, write_batteryLife, write_hub4]
      refine ⟨fun _ => ⟨?_, rfl⟩, Or.inr ?_, fun _ _ => rfl, fun h => absurd h (by simp [hoff, hon]),
        fun _ h => by simp [h]⟩
      · rw [htarget]
        rfl
      · rw [htarget]
        rfl

/-- Before the first write nothing has changed. -/
theorem selected_of_error {mode : Mode} (e : Exception) : Selected g mode (.error e) g :=
  ⟨nofun, Or.inl rfl, fun _ _ => rfl, fun _ => ⟨rfl, rfl⟩, fun _ h => h⟩

theorem ends_selectEssMode (g : Gx) (mode : Mode) (request : Option String) :
    Ends answerGx (Selected g mode) (selectEssMode mode request) g := by
  refine ends_call.mpr fun i => ?_
  refine Ends.ensure (Ends.bind ((ends_essModeWrites mode).mono fun r s hr => ?_))
  obtain ⟨rfl, hplan⟩ := hr
  cases r with
  | error e => exact ends_call.mpr fun i => selected_of_error e
  | ok ws =>
    refine Ends.ensure ((ends_writeAll request ws _).mono fun r s hr => ?_)
    obtain ⟨k, rfl, hk⟩ := hr
    exact ends_call.mpr fun i => ends_call.mpr fun i' => selected_of_plan (hplan ws rfl) k hk rfl

/-! ### It returns -/

theorem within_essModeWrites (mode : Mode) :
    Within (fun ws => ws.length ≤ 2) 2 (essModeWrites mode) := by
  unfold essModeWrites
  by_cases hswitch : mode = .off ∨ mode = .on
  · rw [if_pos hswitch]
    refine within_call fun service => ?_
    show Within _ 1 (switchWrites mode service)
    cases service with
    | none => exact within_raise 1 _
    | some name =>
      simp only [switchWrites]
      by_cases hempty : name = ""
      · rw [if_pos hempty]
        exact within_raise 1 _
      · rw [if_neg hempty]
        refine within_call fun adjustable => ?_
        show Within _ 0 (if adjustable = some "1" then _ else _)
        by_cases hone : adjustable = some "1"
        · rw [if_pos hone]
          exact within_done 0 (by simp)
        · rw [if_neg hone]
          exact within_raise 0 _
  · rw [if_neg hswitch]
    refine within_call fun raw => ?_
    show Within _ 1 (if raw ≠ some "1" ∧ raw ≠ some "2" ∧ raw ≠ some "3" then _ else _)
    by_cases hraw : raw ≠ some "1" ∧ raw ≠ some "2" ∧ raw ≠ some "3"
    · rw [if_pos hraw]
      exact within_raise 1 _
    · rw [if_neg hraw]
      by_cases hexternal : mode = .externalControl
      · rw [if_pos hexternal]
        exact within_done 1 (by simp)
      · rw [if_neg hexternal]
        exact within_done 1 (by simp)

theorem within_writeAll (request : Option String) : ∀ ws : List (String × String × ℤ),
    Within (fun _ => True) ws.length (writeAll request ws)
  | [] => trivial
  | (service, path, value) :: ws => by
    refine within_call fun ok => ?_
    show Within _ ws.length (if ok = true then _ else _)
    by_cases hok : ok = true
    · rw [if_pos hok]
      exact within_writeAll request ws
    · rw [if_neg hok]
      exact within_raise _ _

theorem within_selectEssMode (mode : Mode) (request : Option String) :
    Within (fun _ => True) 7 (selectEssMode mode request) := by
  have hrelease : Within (fun _ => True) 1 (perform (.release .selection)) :=
    within_call fun _ => trivial
  have hforget : Within (fun _ => True) 1 (perform (.storeCache none 0)) := within_call fun _ => trivial
  refine within_call fun _ => Within.ensure (m := 5) (n := 1) ?_ hrelease
  exact (within_essModeWrites mode).bind (n := 3) fun ws hws =>
    (((within_writeAll request ws).mono hws).ensure (n := 1) hforget).mono (by omega)

/-! ### Reading the choice back -/

theorem valueAt_batteryLife (g : Gx) :
    valueAt g settingsService batteryLifePath = some (textOf g.batteryLife) := by
  have h : batteryLifePath ≠ hub4ModePath := by decide
  simp [valueAt, h]

theorem valueAt_switch {name : String} (h : g.vebus = some name) :
    valueAt g name "/Mode" = some (textOf g.switchMode) := by
  have h1 : "/Mode" ≠ hub4ModePath := by decide
  have h2 : "/Mode" ≠ batteryLifePath := by decide
  simp [valueAt, h, h1, h2]

/-- What the settings look like to a reader. -/
def seenAs (g : Gx) : EssMode := observation (some g.hub4Mode) (some g.batteryLife) (some g.switchMode)

/-- Nothing fails. -/
def clean : Fault := {}

theorem runGx_call {op : Op} {next : Ret op → Code α} {i : Fault} {is : List Fault} :
    runGx (.call op next) g (i :: is) = runGx (next (replyGx g i op)) (afterGx g i op) is := rfl

/-- The first `get_ess_mode` after a selection. -/
theorem runGx_getEssMode {name : String} (hname : g.vebus = some name) (hempty : name ≠ "")
    (hcache : g.cache = none) (f : EssMode → Code α) (is : List Fault) :
    runGx (getEssMode.bind f) g (List.replicate 13 clean ++ is) =
      runGx (f (seenAs g)) { g with cache := some (seenAs g) } is := by
  have hhub4 : replyGx g clean (.dbusGet settingsService hub4ModePath) = some (textOf g.hub4Mode) :=
    valueAt_hub4 g
  have hbl : replyGx g clean (.dbusGet settingsService batteryLifePath) = some (textOf g.batteryLife) :=
    valueAt_batteryLife g
  have hmode : replyGx g clean (.dbusGetNativeOnly name "/Mode") = some (textOf g.switchMode) :=
    valueAt_switch hname
  have hservice : replyGx g clean .vebusService = some name := hname
  have hmissing : usable (replyGx g clean .cache) = none := by simp [usable, replyGx, hcache]
  have hlist : List.replicate 13 clean ++
    is = clean :: clean :: clean :: clean :: clean :: clean :: clean ::
      clean :: clean :: clean :: clean :: clean :: clean :: is := rfl
  rw [hlist]
  simp only [getEssMode, readMissing, reconcileEssMode, withLock, readEssMode, perform, Program.bind_eq,
    Program.perform_bind, Program.call_bind, Program.call_ensure, Program.perform_ensure,
    runGx_call, afterGx,
    hmissing, hhub4, hbl, hservice, readVebusMode, if_neg hempty, hmode, Program.pure_eq,
    Program.done_bind, Option.bind_some, intOfText_textOf]
  rfl

/-- Whoever asks for the ESS mode next, and gets answers, is told the choice. -/
def ReadsAs (g : Gx) (mode : Mode) : Prop :=
  ∀ name, g.vebus = some name → name ≠ "" → ∃ seen g',
    runGx getEssMode g (List.replicate 13 clean) = some (.ok seen, g') ∧ seen.selected = some mode

theorem readsAs_of_profile {mode : Mode} (hcache : g.cache = none) (h : profile g = some mode) :
    ReadsAs g mode := by
  intro name hname hempty
  refine ⟨seenAs g, { g with cache := some (seenAs g) }, ?_, h⟩
  have hrun := runGx_getEssMode hname hempty hcache Program.done []
  rw [Program.bind_done, List.append_nil] at hrun
  exact hrun

/-- **A selection, from any settings and with any failures.** -/
theorem select_ess_mode (g : Gx) (mode : Mode) (request : Option String) (is : List Fault)
    (his : 7 ≤ is.length) :
    ∃ r g', runGx (selectEssMode mode request) g is = some (r, g') ∧ Selected g mode r g' ∧
      (r = .ok () → mode ≠ .on → mode = .off ∨ g.switchMode = 3 → ReadsAs g' mode) := by
  have hends : ∃ r g', runGx (selectEssMode mode request) g is = some (r, g') :=
    exists_run (fun _ _ _ => Option.some_ne_none _) (within_selectEssMode mode request) his
  obtain ⟨r, g', hrun⟩ := hends
  have hselected : Selected g mode r g' := (ends_selectEssMode g mode request).of_run hrun
  refine ⟨r, g', hrun, hselected, fun hr hon hswitch => ?_⟩
  obtain ⟨hsame, hcache⟩ := hselected.done hr
  refine readsAs_of_profile hcache ?_
  rw [profile_of_same hsame, profile_target g hon hswitch]

/-- The second write is lost: the new profile is written, and external control stays. -/
theorem select_ess_mode_half : ∃ r g',
    runGx (selectEssMode .keepBatteriesCharged (some "r1")) ⟨some "vebus", 3, true, 3, 10, none⟩
        [clean, clean, clean, { accepted := false }, clean, clean, clean] = some (r, g') ∧
      Selected ⟨some "vebus", 3, true, 3, 10, none⟩ .keepBatteriesCharged r g' ∧
      (r = .ok () → Mode.keepBatteriesCharged ≠ .on → Mode.keepBatteriesCharged = .off ∨ (3 : ℤ) = 3 →
        ReadsAs g' .keepBatteriesCharged) :=
  select_ess_mode ⟨some "vebus", 3, true, 3, 10, none⟩ .keepBatteriesCharged (some "r1")
    [clean, clean, clean, { accepted := false }, clean, clean, clean] (by decide)

end InverterControl.Ess.Settings
