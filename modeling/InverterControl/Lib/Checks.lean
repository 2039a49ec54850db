import Mathlib.Data.List.Forall2
import Mathlib.Tactic

/-!
# Checks that may fail

A check of a value is a function into `Except`, and a check of a composed value runs the checks of its
parts in order.  `bind_eq_ok` and `each_eq_ok` say when such a run succeeds; `each_map` is the case of
values that come from what is to be found.
-/

namespace InverterControl.Lib.Checks

universe u

variable {ε : Type*} {α : Type*} {β γ : Type u}

theorem bind_eq_ok {x : Except ε β} {f : β → Except ε γ} {c : γ} :
    (x >>= f) = .ok c ↔ ∃ b, x = .ok b ∧ f b = .ok c := by
  cases x with
  | error e => exact ⟨fun h => (nomatch h), fun ⟨_, h, _⟩ => (nomatch h)⟩
  | ok b =>
    constructor
    · exact fun h => ⟨b, rfl, h⟩
    · rintro ⟨b', hb, h⟩
      obtain rfl := Except.ok.inj hb
      exact h

/-- A condition with its error. -/
def check (p : Prop) [Decidable p] (e : ε) : Except ε PUnit.{u + 1} :=
  if p then .ok ⟨⟩ else .error e

theorem check_eq_ok {p : Prop} [Decidable p] {e : ε} {a : PUnit.{u + 1}} : check p e = .ok a ↔ p := by
  unfold check
  split
  · next h => exact ⟨fun _ => h, fun _ => rfl⟩
  · next h => exact ⟨fun hc => (nomatch hc), fun hp => absurd hp h⟩

/-- What a check finds, with the fact that it found it. -/
def found (x : Except ε β) : Except ε { b : β // x = .ok b } :=
  match x with
  | .error e => .error e
  | .ok b => .ok ⟨b, rfl⟩

theorem found_eq_ok {x : Except ε β} {b : { b : β // x = .ok b }} : found x = .ok b := by
  obtain ⟨b, rfl⟩ := b
  rfl

/-- The checks of a list, one after the other. -/
def each (f : α → Except ε β) : (as : List α) → Except ε { bs : List β // bs.length = as.length }
  | [] => .ok ⟨[], rfl⟩
  | a :: as =>
    f a >>= fun b => each f as >>= fun bs => .ok ⟨b :: bs.1, congrArg Nat.succ bs.2⟩

variable {f : α → Except ε β}

theorem each_eq_ok : ∀ {as : List α} {bs : { bs : List β // bs.length = as.length }},
    each f as = .ok bs ↔ List.Forall₂ (fun a b => f a = .ok b) as bs.1 := by
  intro as
  induction as with
  | nil =>
    rintro ⟨bs, hbs⟩
    obtain rfl := List.length_eq_zero_iff.mp hbs
    exact ⟨fun _ => .nil, fun _ => rfl⟩
  | cons a as ih =>
    rintro ⟨bs, hbs⟩
    obtain ⟨b, bs, rfl⟩ := List.exists_cons_of_length_eq_add_one hbs
    have htail := @ih ⟨bs, Nat.succ.inj hbs⟩
    rw [List.forall₂_cons, ← htail, each, bind_eq_ok]
    constructor
    · rintro ⟨b', hb, h⟩
      obtain ⟨bs', hbs', h⟩ := bind_eq_ok.mp h
      obtain ⟨rfl, rfl⟩ := List.cons.inj (congrArg Subtype.val (Except.ok.inj h))
      exact ⟨hb, hbs'⟩
    · rintro ⟨hb, hbs'⟩
      exact ⟨b, hb, bind_eq_ok.mpr ⟨⟨bs, Nat.succ.inj hbs⟩, hbs', rfl⟩⟩

/-- A list of a fixed length. -/
theorem each_sized {as : List α} {n : ℕ} (hn : as.length = n) {x : { bs : List β // bs.length = n }} :
    (each f as >>= fun bs => (.ok ⟨bs.1, bs.2.trans hn⟩ : Except ε { bs : List β // bs.length = n })) =
      .ok x ↔ List.Forall₂ (fun a b => f a = .ok b) as x.1 := by
  rw [bind_eq_ok]
  constructor
  · rintro ⟨bs, hbs, h⟩
    obtain rfl := Except.ok.inj h
    exact each_eq_ok.mp hbs
  · intro h
    exact ⟨⟨x.1, x.2.trans hn.symm⟩, each_eq_ok.mpr h, rfl⟩

/-- Values that are made from what their check finds. -/
theorem each_map {k : β → α} {bs : List β} (h : ∀ b ∈ bs, f (k b) = .ok b) :
    each f (bs.map k) = .ok ⟨bs, (List.length_map k).symm⟩ := by
  refine each_eq_ok.mpr ?_
  rw [List.forall₂_map_left_iff, List.forall₂_same]
  exact h

end InverterControl.Lib.Checks
