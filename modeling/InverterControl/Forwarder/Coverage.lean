import InverterControl.Forwarder.Writer

/-!
# Lines that are settled

A line is settled when it is blank or was pushed.  A cursor covers the lines before it (`CursorAt`), in
the order of the files, and a line is pushed after every line before it (`InOrder`).  None of this is
lost when the logger goes on.
-/

namespace InverterControl.Forwarder.Coverage

open InverterControl.Lib.Lines InverterControl.Forwarder.Model InverterControl.Forwarder.Writer

variable {s : LogForwarder} {log log' : Log} {ls ls' : List Line} {b : Line} {f k p t : ℕ}
  {cursor : Cursor}

/-! ### Lines -/

/-- A line starts there. -/
def LineStart (log : Log) (f t : ℕ) : Prop :=
  AtStart newline (log.content f) t ∧ t < (log.content f).length

/-- The line that starts there is among the lines. -/
def Sent (ls : List Line) (f t : ℕ) : Prop := ∃ line ∈ ls, line.file = f ∧ line.start = t

/-- The line is blank or was sent. -/
def Settled (log : Log) (ls : List Line) (f t : ℕ) : Prop := messageAt log f t = [] ∨ Sent ls f t

/-- The lines of the file that start before the position are settled. -/
def Passed (log : Log) (ls : List Line) (f p : ℕ) : Prop :=
  ∀ t < p, LineStart log f t → Settled log ls f t

/-- Every line of the file is settled. -/
def Done (log : Log) (ls : List Line) (f : ℕ) : Prop := Passed log ls f (log.content f).length

/-- The lines before the position are settled, and the position is between two lines, or at the end of a
file that was rotated. -/
structure Covers (log : Log) (ls : List Line) (k p : ℕ) : Prop where
  exists_ : k < log.files.length
  earlier : ∀ f < k, Retained log f → Done log ls f
  passed : Passed log ls k p
  boundary : AtStart newline (log.content k) p ∨ (log.current ≠ some k ∧ p = (log.content k).length)

/-- A cursor in the file, whose inode number no later file has. -/
structure CursorAt (log : Log) (ls : List Line) (k : ℕ) (cursor : Cursor) : Prop where
  inode : cursor.inode = some (log.inode k)
  unused : ∀ g, k < g → g < log.files.length → log.inode g ≠ log.inode k
  covers : Covers log ls k cursor.position

/-- A line that was read: it is not blank, and finished unless its file was rotated. -/
structure Genuine (log : Log) (line : Line) : Prop where
  exists_ : line.file < log.files.length
  start : LineStart log line.file line.start
  message : line.message = messageAt log line.file line.start
  blank : line.message ≠ []
  finished : Ended newline (lineAt newline (log.content line.file) line.start) ∨
    log.current ≠ some line.file

/-- The place is before the one of the line. -/
def Before (f t : ℕ) (b : Line) : Prop := f < b.file ∨ (f = b.file ∧ t < b.start)

/-- Each line comes after every retained line before it. -/
def InOrder (log : Log) (ls : List Line) : Prop :=
  ∀ early b late, ls = early ++ b :: late → ∀ f t, Before f t b → Retained log f → LineStart log f t →
    Settled log early f t

/-! ### More lines -/

theorem Settled.mono (h : Settled log ls f t) (hls : ∀ l ∈ ls, l ∈ ls') : Settled log ls' f t := by
  rcases h with h | ⟨line, hline, hplace⟩
  · exact Or.inl h
  · exact Or.inr ⟨line, hls line hline, hplace⟩

theorem Passed.mono (h : Passed log ls f p) (hls : ∀ l ∈ ls, l ∈ ls') : Passed log ls' f p :=
  fun t ht hstart => (h t ht hstart).mono hls

theorem Covers.mono (h : Covers log ls k p) (hls : ∀ l ∈ ls, l ∈ ls') : Covers log ls' k p :=
  ⟨h.exists_, fun f hf hr => (h.earlier f hf hr).mono hls, h.passed.mono hls, h.boundary⟩

theorem CursorAt.mono (h : CursorAt log ls k cursor) (hls : ∀ l ∈ ls, l ∈ ls') :
    CursorAt log ls' k cursor := ⟨h.inode, h.unused, h.covers.mono hls⟩

theorem Covers.le_length (h : Covers log ls k p) : p ≤ (log.content k).length := by
  rcases h.boundary with h | ⟨-, h⟩
  · exact h.1
  · exact h.le

theorem inOrder_nil (log : Log) : InOrder log [] := by
  intro early b late h
  simp at h

/-- One more line, when all before it are settled. -/
theorem inOrder_snoc (h : InOrder log ls)
    (hb : ∀ f t, Before f t b → Retained log f → LineStart log f t → Settled log ls f t) :
    InOrder log (ls ++ [b]) := by
  intro early c late heq f t hbefore hr hstart
  rcases List.eq_nil_or_concat late with rfl | ⟨late, d, rfl⟩
  · obtain ⟨rfl, hbc⟩ := List.append_inj' heq rfl
    obtain rfl := (List.cons.inj hbc).1
    exact hb f t hbefore hr hstart
  · have hsplit : ls ++ [b] = (early ++ c :: late) ++ [d] := by simpa using heq
    obtain ⟨hls, -⟩ := List.append_inj' hsplit rfl
    exact h early c late hls f t hbefore hr hstart

/-! ### The logger goes on -/

/-- The logger goes on with that log. -/
def evolve (s : LogForwarder) (log' : Log) : LogForwarder := { s with log := log' }

theorem not_current_of_lt (ho : Ordered s.log) (hf : f < k) (hk : k < s.log.files.length) :
    s.log.current ≠ some f := fun hc => by
  have := ho.last hc
  omega

theorem messageAt_eq (h : log'.content f = log.content f) (t : ℕ) :
    messageAt log' f t = messageAt log f t := by rw [messageAt, messageAt, h]

theorem lineStart_iff (h : log'.content f = log.content f) (t : ℕ) :
    LineStart log' f t ↔ LineStart log f t := by rw [LineStart, LineStart, h]

/-- A file that does not change keeps its settled lines. -/
theorem Passed.of_content (h : Passed log ls f p) (hc : log'.content f = log.content f) :
    Passed log' ls f p := by
  intro t ht hstart
  rw [Settled, messageAt_eq hc]
  exact h t ht ((lineStart_iff hc t).mp hstart)

theorem Done.of_content (h : Done log ls f) (hc : log'.content f = log.content f) : Done log' ls f := by
  rw [Done, hc]
  exact Passed.of_content h hc

/-- A line that another one follows stays when the file grows. -/
theorem line_stable {bytes : List UInt8} (hgrows : log'.content f = log.content f ++ bytes)
    (hp : AtStart newline (log.content f) p) (ht : t < p) :
    (LineStart log' f t ↔ LineStart log f t) ∧ messageAt log' f t = messageAt log f t := by
  have hlt : t < (log.content f).length := Nat.lt_of_lt_of_le ht hp.1
  refine ⟨?_, ?_⟩
  · rw [LineStart, LineStart, hgrows, atStart_append hlt.le, List.length_append]
    exact ⟨fun h => ⟨h.1, hlt⟩, fun h => ⟨h.1, by omega⟩⟩
  · rw [messageAt, messageAt, hgrows, lineAt_append hlt.le (lineAt_le hp ht).2]

theorem Covers.evolves (h : Covers s.log ls k p) (he : Evolves s log') (ho : Ordered s.log) :
    Covers log' ls k p := by
  refine ⟨h.exists_.trans_le he.length, fun f hf hr => ?_, ?_, ?_⟩
  · have hlt := hf.trans h.exists_
    exact (h.earlier f hf (he.retained hr hlt)).of_content
      (he.frozen hlt (not_current_of_lt ho hf h.exists_)).2
  · by_cases hc : s.log.current = some k
    · obtain ⟨bytes, hgrows⟩ := he.grows h.exists_
      rcases h.boundary with hstart | ⟨hne, -⟩
      · intro t ht hline
        obtain ⟨hiff, hmessage⟩ := line_stable hgrows hstart ht
        rw [Settled, hmessage]
        exact h.passed t ht (hiff.mp hline)
      · exact absurd hc hne
    · exact h.passed.of_content (he.frozen h.exists_ hc).2
  · by_cases hc : s.log.current = some k
    · obtain ⟨bytes, hgrows⟩ := he.grows h.exists_
      rcases h.boundary with hstart | ⟨hne, -⟩
      · rw [hgrows]
        exact Or.inl (hstart.append bytes)
      · exact absurd hc hne
    · obtain ⟨hc', hcontent⟩ := he.frozen h.exists_ hc
      rw [hcontent]
      exact h.boundary.imp id fun h => ⟨hc', h.2⟩

/-- The inode number of a file stays its own while a cursor refers to it. -/
theorem unused_evolves (he : Evolves s log') (hk : k < s.log.files.length)
    (hunused : ∀ g, k < g → g < s.log.files.length → s.log.inode g ≠ s.log.inode k)
    (href : referenced s (s.log.inode k) ∨ Retained s.log k) :
    ∀ g, k < g → g < log'.files.length → log'.inode g ≠ log'.inode k := by
  intro g hkg hg
  rw [he.inode hk]
  by_cases hold : g < s.log.files.length
  · rw [he.inode hold]
    exact hunused g hkg hold
  · obtain ⟨hfree, hnot⟩ := he.fresh (not_lt.mp hold) hg
    rcases href with href | hr
    · exact fun heq => hnot (by rw [heq]; exact href)
    · exact hfree k hr

theorem CursorAt.evolves (h : CursorAt s.log ls k cursor) (he : Evolves s log') (ho : Ordered s.log)
    (href : ∀ i, cursor.inode = some i → referenced s i) : CursorAt log' ls k cursor :=
  ⟨by rw [he.inode h.covers.exists_]; exact h.inode,
    unused_evolves he h.covers.exists_ h.unused (Or.inl (href _ h.inode)), h.covers.evolves he ho⟩

theorem Genuine.evolves (h : Genuine s.log b) (he : Evolves s log') : Genuine log' b := by
  by_cases hc : s.log.current = some b.file
  · obtain ⟨bytes, hgrows⟩ := he.grows h.exists_
    have hended := h.finished.resolve_right (not_not.mpr hc)
    have hline := lineAt_append h.start.2.le hended bytes
    refine ⟨h.exists_.trans_le he.length, ⟨?_, ?_⟩, ?_, h.blank, Or.inl ?_⟩
    · rw [hgrows]
      exact h.start.1.append bytes
    · rw [hgrows, List.length_append]
      exact Nat.lt_add_right _ h.start.2
    · rw [messageAt, hgrows, hline]
      exact h.message
    · rw [hgrows, hline]
      exact hended
  · obtain ⟨hc', hcontent⟩ := he.frozen h.exists_ hc
    exact ⟨h.exists_.trans_le he.length, (lineStart_iff hcontent _).mpr h.start,
      by rw [messageAt_eq hcontent]; exact h.message, h.blank, Or.inr hc'⟩

theorem InOrder.evolves (h : InOrder s.log ls) (hgenuine : ∀ line ∈ ls, Genuine s.log line)
    (he : Evolves s log') (ho : Ordered s.log) : InOrder log' ls := by
  intro early b late heq f t hbefore hr hstart
  have hb := hgenuine b (by rw [heq]; simp)
  have hle : f ≤ b.file := by
    rcases hbefore with h | ⟨rfl, -⟩
    · exact h.le
    · exact le_rfl
  have hlt := Nat.lt_of_le_of_lt hle hb.exists_
  have hr' := he.retained hr hlt
  by_cases hc : s.log.current = some f
  · have heqf : f = b.file ∧ t < b.start := by
      rcases hbefore with h | h
      · exact absurd hc (not_current_of_lt ho h hb.exists_)
      · exact h
    obtain ⟨rfl, ht⟩ := heqf
    obtain ⟨bytes, hgrows⟩ := he.grows hlt
    obtain ⟨hiff, hmessage⟩ := line_stable hgrows hb.start.1 ht
    rw [Settled, hmessage]
    exact h early b late heq b.file t hbefore hr' (hiff.mp hstart)
  · have hcontent := (he.frozen hlt hc).2
    rw [Settled, messageAt_eq hcontent]
    exact h early b late heq f t hbefore hr' ((lineStart_iff hcontent t).mp hstart)

end InverterControl.Forwarder.Coverage
