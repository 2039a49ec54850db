import Mathlib.Data.List.Induction
import Mathlib.Data.List.TakeDrop

/-!
# Logs

A log is the list of the events so far, the oldest first.  `Each P` states that every event
satisfies `P` of the events before it, so an event is judged once, when it is added (`each_snoc`).
-/

namespace InverterControl.Lib.History

variable {ε β : Type*}

/-- Every event satisfies `P` of what happened before it. -/
def Each (P : List ε → ε → Prop) (log : List ε) : Prop := ∀ a e c, log = a ++ e :: c → P a e

variable {P Q : List ε → ε → Prop} {log : List ε} {e : ε}

theorem each_nil : Each P [] := by
  intro a e c h
  simp at h

theorem each_snoc : Each P (log ++ [e]) ↔ Each P log ∧ P log e := by
  constructor
  · refine fun h => ⟨fun a x c hlog => h a x (c ++ [e]) ?_, h log e [] rfl⟩
    simp [hlog]
  · rintro ⟨h, hlast⟩ a x c hlog
    rcases List.eq_nil_or_concat c with rfl | ⟨c, z, rfl⟩
    · obtain ⟨rfl, hx⟩ := List.append_inj' hlog rfl
      obtain rfl : e = x := by simpa using hx
      exact hlast
    · rw [List.concat_eq_append, ← List.cons_append, ← List.append_assoc] at hlog
      exact h a x c (List.append_inj' hlog rfl).1

theorem Each.mono (h : Each P log) (hPQ : ∀ a e, P a e → Q a e) : Each Q log :=
  fun a e c hlog => hPQ a e (h a e c hlog)

/-- What the last event with news tells. -/
def latest (news : ε → Option β) (initial : β) (log : List ε) : β :=
  log.foldl (fun b e => (news e).getD b) initial

variable {news : ε → Option β} {initial : β}

@[simp] theorem latest_nil : latest news initial [] = initial := rfl

@[simp] theorem latest_snoc : latest news initial (log ++ [e]) =
    (news e).getD (latest news initial log) := by
  simp [latest]

/-- Where the latest news comes from. -/
theorem latest_eq_some {news : ε → Option (Option β)} {b : β} (h : latest news none log = some b) :
    ∃ p e q, log = p ++ e :: q ∧ news e = some (some b) ∧ ∀ x ∈ q, news x = none := by
  induction log using List.reverseRecOn with
  | nil => simp at h
  | append_singleton log e ih =>
    rw [latest_snoc] at h
    cases hnews : news e with
    | some told =>
      rw [hnews, Option.getD_some] at h
      exact ⟨log, e, [], rfl, by rw [hnews, h], by simp⟩
    | none =>
      rw [hnews, Option.getD_none] at h
      obtain ⟨p, x, q, rfl, hx, hq⟩ := ih h
      refine ⟨p, x, q ++ [e], by simp, hx, fun y hy => ?_⟩
      rcases List.mem_append.mp hy with hy | hy
      · exact hq y hy
      · rw [List.mem_singleton.mp hy]
        exact hnews

/-- The last `n` entries of a list. -/
def lastN (n : ℕ) (l : List β) : List β := l.drop (l.length - n)

theorem lastN_snoc (n : ℕ) (l : List β) (b : β) :
    lastN (n + 1) (l ++ [b]) = lastN n l ++ [b] := by
  unfold lastN
  rw [List.length_append, List.length_singleton, Nat.add_sub_add_right,
    List.drop_append_of_le_length (by omega)]

theorem length_lastN (n : ℕ) (l : List β) : (lastN n l).length = min n l.length := by
  unfold lastN
  rw [List.length_drop]
  omega

/-- An entry that is missing among the last `n` is followed by `n` others at least. -/
theorem le_length_of_notMem_lastN {n : ℕ} {a c : List β} {b : β} (h : b ∉ lastN n (a ++ b :: c)) :
    n ≤ c.length := by
  by_contra hshort
  refine h ?_
  have hdrop : (a ++ b :: c).length - n ≤ a.length := by
    rw [List.length_append, List.length_cons]
    omega
  rw [lastN, List.drop_append_of_le_length hdrop]
  exact List.mem_append_right _ List.mem_cons_self

end InverterControl.Lib.History
