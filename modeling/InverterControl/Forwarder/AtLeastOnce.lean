import InverterControl.Forwarder.Scan

/-!
# Every line, at least once and in order

The invariant (`Invariant`) says of every phase of an iteration what is settled so far: by the
pushed lines before the read, and by these and the lines of the batch during it.  Each call of the
forwarder keeps it (`invariant_next`), and so does the logger at any moment.
-/

namespace InverterControl.Forwarder.AtLeastOnce

open InverterControl.Lib.Lines InverterControl.Lib.Runs InverterControl.Forwarder.Model
  InverterControl.Forwarder.Writer InverterControl.Forwarder.Coverage InverterControl.Forwarder.Scan

variable {s : LogForwarder} {log log' : Log} {names todo : List Path} {files rest : List (Path × ℕ)}
  {ls ls' lines : List Line} {f k position : ℕ} {p path : Path} {new : Cursor} {e : Event}

/-! ### The invariant -/

/-- A cursor that may be saved: it does not go back behind the file of the saved one. -/
def Advances (s : LogForwarder) (ls : List Line) (new : Cursor) : Prop :=
  new = s.saved ∨ ∃ k, CursorAt s.log ls k new ∧
    ∀ f, Retained s.log f → s.saved.inode = some (s.log.inode f) → f ≤ k

/-- The open file: the lines before the position are settled by what was pushed and read. -/
structure Reading (s : LogForwarder) (path : Path) (k position : ℕ) (lines : List Line)
    (rest : List (Path × ℕ)) : Prop where
  covers : Covers s.log (s.pushed ++ lines) k position
  unused : ∀ g, k < g → g < s.log.files.length → s.log.inode g ≠ s.log.inode k
  rotated : path ≠ .current → s.log.current ≠ some k
  genuine : ∀ line ∈ lines, Genuine s.log line
  inOrder : InOrder s.log (s.pushed ++ lines)
  rest : Rest s (s.pushed ++ lines) (some k) rest
  cursor : ∀ f, Retained s.log f → s.saved.inode = some (s.log.inode f) → f ≤ k

/-- What is known in each phase. -/
def PhaseOk (s : LogForwarder) (phase : Phase) : Prop :=
  match phase with
  | .idle => True
  | .scanning names todo files => ∃ bound, Scanned s bound names todo files
  | .opening rest new => Rest s s.pushed none rest ∧ Advances s s.pushed new
  | .reading path k position lines rest => Reading s path k position lines rest
  | .pushing lines new => (∀ line ∈ lines, Genuine s.log line) ∧ InOrder s.log (s.pushed ++ lines) ∧
      Advances s (s.pushed ++ lines) new
  | .saving new => Advances s s.pushed new

/-- **The invariant.** -/
structure Invariant (s : LogForwarder) : Prop where
  ordered : Ordered s.log
  saved : Saved s s.pushed
  reached : Reached s
  cursor : s.phase ≠ .idle → s.cursor = s.saved
  genuine : ∀ line ∈ s.pushed, Genuine s.log line
  inOrder : InOrder s.log s.pushed
  phase : PhaseOk s s.phase

theorem Reading.withPhase (h : Reading s path k position lines rest) (cursor : Cursor) (phase : Phase) :
    Reading (withPhase s cursor phase) path k position lines rest :=
  ⟨h.covers, h.unused, h.rotated, h.genuine, h.inOrder, h.rest.withPhase cursor phase, h.cursor⟩

theorem PhaseOk.withPhase {phase : Phase} (h : PhaseOk s phase) (cursor : Cursor) (phase' : Phase) :
    PhaseOk (withPhase s cursor phase') phase := by
  cases phase with
  | idle => trivial
  | scanning names todo files =>
    obtain ⟨bound, hscan⟩ := h
    exact ⟨bound, hscan.withPhase cursor phase'⟩
  | opening rest new => exact ⟨h.1.withPhase cursor phase', h.2⟩
  | reading path k position lines rest => exact Reading.withPhase h cursor phase'
  | pushing lines new => exact h
  | saving new => exact h

/-! ### The logger -/

theorem Advances.evolves (h : Advances s ls new) (he : Evolves s log') (ho : Ordered s.log)
    (ho' : Ordered log') (href : ∀ i, new.inode = some i → referenced s i) :
    Advances (evolve s log') ls new := by
  rcases h with h | ⟨k, hk, hcursor⟩
  · exact Or.inl h
  · refine Or.inr ⟨k, hk.evolves he ho href, fun f hr hsaved => ?_⟩
    obtain ⟨-, hr', hsaved'⟩ := cursor_old he ho' hr hsaved
    exact hcursor f hr' hsaved'

theorem Reading.evolves (h : Reading s path k position lines rest) (he : Evolves s log')
    (ho : Ordered s.log) (ho' : Ordered log') (hgenuine : ∀ line ∈ s.pushed, Genuine s.log line)
    (href : referenced s (s.log.inode k)) : Reading (evolve s log') path k position lines rest := by
  have hall : ∀ line ∈ s.pushed ++ lines, Genuine s.log line := fun line hline =>
    (List.mem_append.mp hline).elim (hgenuine line) (h.genuine line)
  refine ⟨h.covers.evolves he ho, unused_evolves he h.covers.exists_ h.unused (Or.inl href),
    fun hp => (he.frozen h.covers.exists_ (h.rotated hp)).1,
    fun line hline => (h.genuine line hline).evolves he, h.inOrder.evolves hall he ho,
    h.rest.evolves he ho ho', fun f hr hsaved => ?_⟩
  obtain ⟨-, hr', hsaved'⟩ := cursor_old he ho' hr hsaved
  exact h.cursor f hr' hsaved'

theorem phaseOk_evolves (h : Invariant s) (he : Evolves s log') (ho' : Ordered log') :
    PhaseOk (evolve s log') s.phase := by
  have ho := h.ordered
  have hphase := h.phase
  have href : ∀ i, _ → referenced s i := fun _ => Or.inr
  cases hs : s.phase with
  | idle => trivial
  | scanning names todo files =>
    rw [hs] at hphase
    obtain ⟨bound, hscan⟩ := hphase
    exact ⟨bound, hscan.evolves he ho'⟩
  | opening rest new =>
    rw [hs] at hphase href
    exact ⟨hphase.1.evolves he ho ho', hphase.2.evolves he ho ho' href⟩
  | reading path k position lines rest =>
    rw [hs] at hphase href
    exact Reading.evolves hphase he ho ho' h.genuine (href _ rfl)
  | pushing lines new =>
    rw [hs] at hphase href
    obtain ⟨hlines, horder, hnew⟩ := hphase
    exact ⟨fun line hline => (hlines line hline).evolves he,
      horder.evolves (fun line hline =>
        (List.mem_append.mp hline).elim (h.genuine line) (hlines line)) he ho,
      hnew.evolves he ho ho' href⟩
  | saving new =>
    rw [hs] at hphase href
    exact Advances.evolves hphase he ho ho' href

theorem reached_evolves (h : Reached s) (he : Evolves s log') :
    Reached (evolve s log') := by
  refine ⟨h.1.trans he.length, fun f hr hf => ?_⟩
  have hlt : f < s.log.files.length := by
    have := h.1
    have hf' : f + 1 = s.reached := hf
    omega
  rw [show (evolve s log').log = log' from rfl, he.inode hlt]
  exact h.2 f (he.retained hr hlt) hf

theorem saved_evolves (h : Saved s s.pushed) (he : Evolves s log') (ho : Ordered s.log) :
    Saved (evolve s log') s.pushed :=
  h.imp id fun ⟨k, hk⟩ => ⟨k, hk.evolves he ho fun _ hi => Or.inl hi⟩

/-- The logger keeps the invariant. -/
theorem invariant_write (h : Invariant s) (e : Event) : Invariant (evolve s (write s e)) := by
  obtain ⟨he, ho'⟩ := write_evolves h.ordered e
  exact ⟨ho', saved_evolves h.saved he h.ordered, reached_evolves h.reached he, h.cursor,
    fun line hline => (h.genuine line hline).evolves he, h.inOrder.evolves h.genuine he h.ordered,
    phaseOk_evolves h he ho'⟩

/-! ### The read of a file -/

theorem Advances.covering (hk : CursorAt s.log ls k new)
    (hcursor : ∀ f, Retained s.log f → s.saved.inode = some (s.log.inode f) → f ≤ k) :
    Advances s ls new := Or.inr ⟨k, hk, hcursor⟩

theorem Reading.advances (h : Reading s path k position lines rest) :
    Advances s (s.pushed ++ lines) ⟨position, some (s.log.inode k)⟩ :=
  .covering ⟨rfl, h.unused, h.covers⟩ h.cursor

/-- The position where the file of an entry is read from is covered. -/
theorem covers_startPosition (ho : Ordered s.log) (hsaved : Saved s ls) (hk : s.log.lookup p = some k)
    (hearlier : ∀ f < k, Retained s.log f → Done s.log ls f) :
    Covers s.log ls k (startPosition s.log s.saved k) := by
  have hzero : Covers s.log ls k 0 :=
    ⟨ho.exists_ hk, hearlier, fun t ht => absurd ht (Nat.not_lt_zero t), Or.inl (atStart_zero _)⟩
  unfold startPosition
  by_cases hinode : s.saved.inode = some (s.log.inode k)
  · simp only [if_pos hinode]
    rcases hsaved with hno | ⟨m, hm⟩
    · rw [hno] at hinode
      cases hinode
    · obtain rfl := eq_of_inode ho hm ⟨p, hk⟩ hinode
      rw [if_neg (Nat.not_lt.mpr hm.covers.le_length)]
      exact hm.covers
  · simp only [if_neg hinode, if_neg (Nat.not_lt_zero _)]
    exact hzero

/-- A file is opened. -/
theorem Reading.of_rest {expected : ℕ} (h : Rest s s.pushed none ((path, expected) :: rest))
    (hinv : Invariant s) (hk : s.log.lookup path = some k)
    (hinode : s.log.inode k = s.log.inode expected) :
    Reading s path k (startPosition s.log s.saved k) [] rest := by
  have ho := hinv.ordered
  have hentry := h.entries (path, expected) (by simp)
  obtain rfl : k = expected := hentry.eq ho hk hinode
  have hsorted := List.pairwise_cons.mp (show (k :: rest.map (·.2)).Pairwise (· < ·) from h.sorted)
  have hlater : ∀ e ∈ rest, k < e.2 := fun e he => hsorted.1 e.2 (List.mem_map_of_mem he)
  have hearlier : ∀ f < k, Retained s.log f → Done s.log s.pushed f := fun f hf hr => by
    refine (h.gaps f hr ⟨(path, k), by simp, hf⟩ fun e he => ?_).resolve_left nofun
    rcases List.mem_cons.mp he with rfl | he
    · exact hf.ne'
    · exact (hf.trans (hlater e he)).ne'
  refine ⟨?_, fun g hkg hg => ho.unused hk hkg hg, fun hp hc => ?_, nofun, ?_, ⟨hsorted.2,
    fun e he => h.entries e (by simp [he]), fun f hr hex hne => ?_,
    fun f hr hc e he => h.cursor f hr hc e (by simp [he])⟩,
    fun f hr hc => h.cursor f hr hc (path, k) (by simp)⟩
  · rw [List.append_nil]
    exact covers_startPosition ho hinv.saved hk hearlier
  · refine lt_irrefl k (ho.before (p := path) (q := .current) ?_ hk hc)
    cases path with
    | archive n => trivial
    | previous => trivial
    | current => exact absurd rfl hp
  · rw [List.append_nil]
    exact hinv.inOrder
  · rw [List.append_nil]
    by_cases hf : f = k
    · exact Or.inl (by rw [hf])
    · obtain ⟨e, he, hlt⟩ := hex
      refine (h.gaps f hr ⟨e, by simp [he], hlt⟩ fun e' he' => ?_).imp nofun id
      rcases List.mem_cons.mp he' with rfl | he'
      · exact fun heq => hf heq.symm
      · exact hne e' he'

/-- A line of the file is read. -/
theorem Reading.line (h : Reading s path k position lines rest)
    (hne : lineAt newline (s.log.content k) position ≠ [])
    (hfinished : Ended newline (lineAt newline (s.log.content k) position) ∨ path ≠ .current) :
    Reading s path k (position + (lineAt newline (s.log.content k) position).length)
      (addLine lines ⟨k, position, messageAt s.log k position⟩) rest := by
  have hlt : position < (s.log.content k).length := by
    by_contra hge
    exact hne (by rw [lineAt, List.drop_eq_nil_of_le (not_lt.mp hge)]; rfl)
  have hstart : AtStart newline (s.log.content k) position := by
    rcases h.covers.boundary with hs | ⟨-, heq⟩
    · exact hs
    · omega
  have hsub : ∀ l ∈ s.pushed ++ lines,
      l ∈ s.pushed ++ addLine lines ⟨k, position, messageAt s.log k position⟩ := by
    intro l hl
    rw [addLine]
    split_ifs
    · exact hl
    · rw [← List.append_assoc]
      exact List.mem_append_left _ hl
  -- the line itself is settled now
  have hsettled : Settled s.log (s.pushed ++ addLine lines ⟨k, position, messageAt s.log k position⟩) k
      position := by
    by_cases hblank : messageAt s.log k position = []
    · exact Or.inl hblank
    · refine Or.inr ⟨⟨k, position, messageAt s.log k position⟩, ?_, rfl, rfl⟩
      rw [addLine, if_neg hblank]
      simp
  refine ⟨⟨h.covers.exists_, (h.covers.mono hsub).earlier, fun t ht hline => ?_, ?_⟩, h.unused,
    h.rotated, fun line hline => ?_, ?_, h.rest.mono hsub, h.cursor⟩
  · rcases lt_trichotomy t position with hbefore | rfl | hafter
    · exact (h.covers.passed t hbefore hline).mono hsub
    · exact hsettled
    · have := (lineAt_le hline.1 hafter).1
      omega
  · by_cases hended : Ended newline (lineAt newline (s.log.content k) position)
    · exact Or.inl (atStart_next hended)
    · exact Or.inr ⟨h.rotated (hfinished.resolve_left hended), lineAt_unfinished hlt.le hended⟩
  · rw [addLine] at hline
    split_ifs at hline with hblank
    · exact h.genuine line hline
    · rcases List.mem_append.mp hline with hline | hline
      · exact h.genuine line hline
      · rw [List.mem_singleton.mp hline]
        exact ⟨h.covers.exists_, ⟨hstart, hlt⟩, rfl, hblank, hfinished.imp id h.rotated⟩
  · rw [addLine]
    split_ifs with hblank
    · exact h.inOrder
    · rw [← List.append_assoc]
      refine inOrder_snoc h.inOrder fun f t hbefore hr hline => ?_
      rcases hbefore with hf | ⟨rfl, ht⟩
      · exact h.covers.earlier f hf hr t hline.2 hline
      · exact h.covers.passed t ht hline

/-- An archive without lines is done. -/
theorem Reading.drained (h : Reading s path k position [] rest)
    (hend : lineAt newline (s.log.content k) position = []) : Done s.log s.pushed k := by
  have hle : (s.log.content k).length ≤ position := by
    by_contra hlt
    exact lineAt_ne_nil (not_le.mp hlt) hend
  have hpassed := h.covers.passed
  rw [List.append_nil] at hpassed
  exact fun t ht hline => hpassed t (ht.trans_le hle) hline

/-- The result of a read. -/
theorem phaseOk_result (hlines : ∀ line ∈ lines, Genuine s.log line)
    (horder : InOrder s.log (s.pushed ++ lines)) (hnew : Advances s (s.pushed ++ lines) new) :
    PhaseOk s (result s.cursor lines new) := by
  unfold PhaseOk result
  split_ifs with hne hcursor
  · exact ⟨hlines, horder, hnew⟩
  · obtain rfl := not_not.mp hne
    rw [List.append_nil] at hnew
    exact hnew
  · trivial

/-! ### The calls of the forwarder -/

theorem phaseOk_readLine (h : Reading s path k position lines rest) :
    PhaseOk s (readLine s.log s.cursor path k position lines rest) := by
  unfold readLine
  split_ifs with hend
  · unfold closeFile
    split_ifs with hclose
    · exact phaseOk_result h.genuine h.inOrder h.advances
    · -- an archive without lines: it is done, and the next one follows
      push Not at hclose
      obtain ⟨rfl, hpath⟩ := hclose
      have hline : lineAt newline (s.log.content k) position = [] := by
        rcases hend with hbatch | hline | ⟨-, hp⟩
        · exact absurd hbatch (by decide)
        · exact hline
        · exact absurd hp hpath
      have hrest := h.rest
      have hnew := h.advances
      rw [List.append_nil] at hrest hnew
      exact ⟨⟨hrest.sorted, hrest.entries, fun f hr hex hne => Or.inr ((hrest.gaps f hr hex hne).elim
        (fun heq => by
          obtain rfl := Option.some.inj heq
          exact h.drained hline) id), hrest.cursor⟩, hnew⟩
  · push Not at hend
    exact h.line hend.2.1 (by
      by_cases hended : Ended newline (lineAt newline (s.log.content k) position)
      · exact Or.inl hended
      · exact Or.inr (hend.2.2 hended))

theorem phaseOk_openNext (h : Invariant s) (hrest : Rest s s.pushed none rest)
    (hnew : Advances s s.pushed new) (hcursor : s.cursor = s.saved) :
    PhaseOk s (openNext s.log s.cursor rest new) := by
  unfold openNext
  split
  · refine phaseOk_result nofun ?_ ?_
    · rw [List.append_nil]
      exact h.inOrder
    · rw [List.append_nil]
      exact hnew
  · next path expected rest =>
    split
    · trivial
    · next f hf =>
      split_ifs with hinode
      · trivial
      · rw [hcursor]
        exact Reading.of_rest hrest h hf (not_not.mp hinode)

theorem newest_of_cursor (h : CursorAt log ls k new) : new.inode.bind log.newest = some k := by
  rw [h.inode, Option.bind_some, Log.newest]
  have hrange : (List.range log.files.length).reverse =
      ((List.range' (k + 1) (log.files.length - (k + 1))).reverse ++ [k]) ++ (List.range k).reverse := by
    have hk := h.covers.exists_
    rw [show [k] = [k].reverse from rfl, ← List.reverse_append, ← List.reverse_append,
      List.range_eq_range', List.range_eq_range', List.singleton_append, ← List.range'_succ]
    congr 1
    have := List.range'_append_1 (s := 0) (m := k) (n := log.files.length - (k + 1) + 1)
    rw [Nat.zero_add] at this
    rw [this]
    congr 1
    omega
  have hnone : (List.range' (k + 1) (log.files.length - (k + 1))).reverse.find?
      (fun g => log.inode g = log.inode k) = none := by
    rw [List.find?_eq_none]
    intro g hg
    rw [List.mem_reverse, List.mem_range'_1] at hg
    simpa using h.unused g (by omega) (by omega)
  rw [hrange, List.find?_append, List.find?_append, hnone]
  simp

/-- The cursor is saved. -/
theorem invariant_save (h : Invariant s) (hnew : Advances s s.pushed new) :
    Invariant { s with saved := new, reached := reachedBy s new, phase := .idle } := by
  have hadvance : new = noCursor ∧ s.saved = noCursor ∨ ∃ k, CursorAt s.log s.pushed k new ∧
      ∀ f, Retained s.log f → s.saved.inode = some (s.log.inode f) → f ≤ k := by
    rcases hnew with rfl | hk
    · rcases h.saved with hno | ⟨k, hk⟩
      · exact Or.inl ⟨hno, hno⟩
      · exact Or.inr ⟨k, hk, fun f hr hsaved => (eq_of_inode h.ordered hk hr hsaved).ge⟩
    · exact Or.inr hk
  refine ⟨h.ordered, hadvance.imp And.left fun ⟨k, hk, _⟩ => ⟨k, hk⟩, ?_, fun hidle => absurd rfl hidle,
    h.genuine, h.inOrder, trivial⟩
  rcases hadvance with ⟨rfl, hno⟩ | ⟨k, hk, hcursor⟩
  · refine ⟨h.reached.1, fun f hr hf => ?_⟩
    have := h.reached.2 f hr hf
    rw [hno] at this
    exact this
  · have hreached : reachedBy s new = max s.reached (k + 1) := by
      rw [reachedBy, newest_of_cursor hk]
    refine ⟨?_, fun f hr hf => ?_⟩
    · simp only [hreached]
      exact max_le h.reached.1 hk.covers.exists_
    · simp only [hreached] at hf
      have hf' : f = k := by
        by_contra hne
        have hfr : f + 1 = s.reached := by omega
        have := hcursor f hr (h.reached.2 f hr hfr)
        omega
      rw [hf']
      exact hk.inode

/-- The phase of a call that leaves everything else. -/
theorem Invariant.phase_only (h : Invariant s) {phase : Phase} (hcursor : s.cursor = s.saved)
    (hphase : PhaseOk s phase) : Invariant { s with phase := phase } :=
  ⟨h.ordered, h.saved, h.reached, fun _ => hcursor, h.genuine, h.inOrder,
    hphase.withPhase s.cursor phase⟩

theorem Invariant.idle (h : Invariant s) : Invariant { s with phase := .idle } :=
  ⟨h.ordered, h.saved, h.reached, fun hidle => absurd rfl hidle, h.genuine, h.inOrder, trivial⟩

/-- **Every step keeps the invariant.** -/
theorem invariant_next (h : Invariant s) (e : Event) : Invariant (next s e) := by
  have hphase := h.phase
  unfold next
  split
  · next hidle =>
    exact ⟨h.ordered, h.saved, h.reached, fun _ => rfl, h.genuine, h.inOrder,
      ⟨s.log.files.length, (scanned_start h.ordered).withPhase _ _⟩⟩
  · next names path todo files hs =>
    rw [hs] at hphase
    obtain ⟨bound, hscan⟩ := hphase
    exact h.phase_only (h.cursor (by rw [hs]; nofun)) ⟨bound, hscan.stat h.ordered h.reached⟩
  · next names files hs =>
    rw [hs] at hphase
    obtain ⟨bound, hscan⟩ := hphase
    have hcursor := h.cursor (by rw [hs]; nofun)
    refine h.phase_only hcursor ?_
    unfold relist
    split_ifs with hgive
    · trivial
    · push Not at hgive
      rw [hcursor]
      exact ⟨hscan.queue h.ordered hgive.1 h.saved, Or.inl rfl⟩
  · next rest new hs =>
    rw [hs] at hphase
    have hcursor := h.cursor (by rw [hs]; nofun)
    exact h.phase_only hcursor (phaseOk_openNext h hphase.1 hphase.2 hcursor)
  · next path f position lines rest hs =>
    rw [hs] at hphase
    have hcursor := h.cursor (by rw [hs]; nofun)
    exact h.phase_only hcursor (phaseOk_readLine hphase)
  · exact h.idle
  · exact h.idle
  · exact h.idle
  · next lines new hs =>
    rw [hs] at hphase
    obtain ⟨hlines, horder, hnew⟩ := hphase
    exact ⟨h.ordered, h.saved.imp id fun ⟨k, hk⟩ => ⟨k, hk.mono fun l hl => List.mem_append_left _ hl⟩,
      h.reached, fun _ => h.cursor (by rw [hs]; nofun), fun line hline =>
        (List.mem_append.mp hline).elim (h.genuine line) (hlines line), horder, hnew⟩
  · exact h.idle
  · next new hs =>
    rw [hs] at hphase
    exact invariant_save h hphase
  · exact h.idle
  · exact h.idle
  · exact invariant_write h _

theorem invariant_init (hlog : Ordered log) : Invariant (init log) :=
  ⟨hlog, Or.inl rfl, ⟨Nat.zero_le _, fun f _ hf => absurd hf (Nat.succ_ne_zero f)⟩,
    fun hidle => absurd rfl hidle, nofun, inOrder_nil log, trivial⟩

theorem run_invariant (hlog : Ordered log) (es : List Event) : Invariant (exec next (init log) es) :=
  exec_invariant (P := Invariant) (invariant_init hlog) fun x _ h => invariant_next h x.input

/-! ### Forwarding -/

/-- A step that gives the iteration up: a failed push or save, an `OSError`, a second listing with other
names, a path that leads to no file or to another one, or the end of the process. -/
def givesUp (s : LogForwarder) (e : Event) : Prop :=
  match e, s.phase with
  | .oserror, .scanning _ _ _ => True
  | .oserror, .opening _ _ => True
  | .oserror, .reading _ _ _ _ _ => True
  | .relist, .scanning names [] _ => ¬ sameNames s.log.relevantNames names
  | .open_, .opening ((path, expected) :: _) _ =>
    ∀ f, s.log.lookup path = some f → s.log.inode f ≠ s.log.inode expected
  | .push false, .pushing _ _ => True
  | .save false, .saving _ => True
  | .crash, _ => True
  | _, _ => False

theorem next_of_givesUp (h : givesUp s e) : next s e = { s with phase := .idle } := by
  unfold givesUp at h
  split at h
  · next hs => simp only [next, hs]
  · next hs => simp only [next, hs]
  · next hs => simp only [next, hs]
  · next names files hs => simp only [next, hs, relist, h, not_false_eq_true, true_or, if_true]
  · next path expected rest new hs =>
    simp only [next, hs, openNext]
    cases hf : s.log.lookup path with
    | none => rfl
    | some f => simp only [h f hf, ne_eq, not_false_eq_true, if_true]
  · next hs => simp only [next, hs]
  · next hs => simp only [next, hs]
  · rfl
  · exact h.elim

/-- Only a save moves the saved cursor. -/
theorem next_saved (h : (next s e).saved ≠ s.saved) : e = .save true ∧ ∃ new, s.phase = .saving new := by
  unfold next at h
  split at h
  case h_11 new hs => exact ⟨rfl, new, hs⟩
  all_goals exact absurd rfl h

/-- **Log forwarding is at least once and in order.** -/
theorem log_forwarded (log : Log) (hlog : Ordered log) (es : List Event) (s : LogForwarder)
    (hs : exec next (init log) es = s) :
    (s.saved = noCursor ∨ ∃ k, CursorAt s.log s.pushed k s.saved) ∧
    (∀ line ∈ s.pushed, Genuine s.log line) ∧
    (InOrder s.log s.pushed ∧ ∀ p q f g, before p q → s.log.lookup p = some f →
      s.log.lookup q = some g → f < g) ∧
    (∀ e, givesUp s e → next s e = { s with phase := .idle }) ∧
    ∀ e, (next s e).saved ≠ s.saved → e = .save true ∧ ∃ new, s.phase = .saving new := by
  subst hs
  have h := run_invariant hlog es
  exact ⟨h.saved, h.genuine, ⟨h.inOrder, fun _ _ _ _ => h.ordered.before⟩, fun _ => next_of_givesUp,
    fun _ => next_saved⟩

/-- A directory without logs. -/
def noLogs : Log where
  files := []
  archives := []
  previous := none
  current := none
  names := []

theorem ordered_noLogs : Ordered noLogs := by
  have hnone : ∀ p, noLogs.lookup p = none := by
    intro p
    cases p <;> rfl
  refine ⟨fun _ hp _ => ?_, fun hp => ?_, fun hc => ?_, fun hp => ?_, fun hp _ _ => ?_⟩
  · exact absurd hp (by simp [hnone])
  · exact absurd hp (by simp [hnone])
  · cases hc
  · exact absurd hp (by simp [hnone])
  · exact absurd hp (by simp [hnone])

/-- Two lines and an unfinished one, which a rotation and a new line follow, and two iterations. -/
def rotatedRun : List Event :=
  [.create 7, .append [97, 10, 98], .rotate "@400000006789000000000001.s", .create 8,
    .append [99, 10, 100],
    .scan, .stat, .stat, .stat, .relist, .open_, .readLine, .readLine, .readLine, .push true, .save true,
    .scan, .stat, .stat, .stat, .relist, .open_, .readLine, .open_, .readLine, .readLine, .push true,
    .save true]

/-- The last line of the archive is sent, and the unfinished line of `current` is not. -/
theorem log_forwarded_rotated :
    (exec next (init noLogs) rotatedRun).pushed.map (·.message) = [[97], [98], [99]] ∧
    (exec next (init noLogs) rotatedRun).saved = ⟨2, some 8⟩ ∧
    ∃ k, CursorAt (exec next (init noLogs) rotatedRun).log (exec next (init noLogs) rotatedRun).pushed k
      (exec next (init noLogs) rotatedRun).saved := by
  have hsaved : (exec next (init noLogs) rotatedRun).saved = ⟨2, some 8⟩ := by decide +kernel
  refine ⟨by decide +kernel, hsaved, ?_⟩
  refine (log_forwarded noLogs ordered_noLogs rotatedRun _ rfl).1.resolve_left fun hno => ?_
  rw [hsaved] at hno
  cases hno

end InverterControl.Forwarder.AtLeastOnce
