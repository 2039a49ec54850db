import InverterControl.Forwarder.Coverage

/-!
# The scan of the directory

While the paths are stat'ed one by one, the logger may rename and remove them.  Where the second listing
has the names of the first, the list has every retained file before the last of its files (`Scan.gaps`),
so what is before the file of the cursor need not be read again.
-/

namespace InverterControl.Forwarder.Scan

open InverterControl.Lib.Lines InverterControl.Forwarder.Model InverterControl.Forwarder.Writer
  InverterControl.Forwarder.Coverage

variable {s : LogForwarder} {log' : Log} {names todo : List Path} {files rest : List (Path × ℕ)}
  {ls ls' : List Line} {f k bound : ℕ} {p : Path} {open_ : Option ℕ}

/-- An entry of the list: its path leads to no other file with that inode number. -/
structure Entry (s : LogForwarder) (e : Path × ℕ) : Prop where
  exists_ : e.2 < s.log.files.length
  known : ∀ n, e.1 = .archive n → n ∈ s.log.names
  named : e.1 ≠ .current → ∀ f, s.log.lookup e.1 = some f → f = e.2
  unused : e.1 = .current → ∀ g, e.2 < g → g < s.log.files.length → s.log.inode g ≠ s.log.inode e.2
  safe : e.1 = .current →
    (s.reached ≤ e.2 ∧ Retained s.log e.2) ∨ s.saved.inode = some (s.log.inode e.2)

/-- An iteration that stands elsewhere. -/
def withPhase (s : LogForwarder) (cursor : Cursor) (phase : Phase) : LogForwarder :=
  { s with cursor := cursor, phase := phase }

theorem Entry.withPhase {e : Path × ℕ} (h : Entry s e) (cursor : Cursor) (phase : Phase) :
    Entry (withPhase s cursor phase) e := ⟨h.exists_, h.known, h.named, h.unused, h.safe⟩

theorem Entry.evolves {e : Path × ℕ} (h : Entry s e) (he : Evolves s log') :
    Entry (evolve s log') e := by
  refine ⟨h.exists_.trans_le he.length, fun n hn => he.names n (h.known n hn), fun hp f hf => ?_,
    fun hp => ?_, fun hp => ?_⟩
  · exact h.named hp f (he.path hf hp h.known)
  · refine unused_evolves he h.exists_ (h.unused hp) ?_
    rcases h.safe hp with ⟨-, hr⟩ | hsaved
    · exact Or.inr hr
    · exact Or.inl (Or.inl hsaved)
  · rcases h.safe hp with ⟨hle, hr⟩ | hsaved
    · exact Or.inl ⟨hle, he.kept hr hle⟩
    · refine Or.inr ?_
      rw [show (evolve s log').log = log' from rfl, he.inode h.exists_]
      exact hsaved

/-- The path of an entry leads to its file, or to none with that inode number. -/
theorem Entry.eq {e : Path × ℕ} (h : Entry s e) (ho : Ordered s.log) (hf : s.log.lookup e.1 = some f)
    (hinode : s.log.inode f = s.log.inode e.2) : f = e.2 := by
  by_cases hp : e.1 = .current
  · rcases lt_trichotomy f e.2 with hlt | heq | hgt
    · exact absurd hinode.symm (ho.unused hf hlt h.exists_)
    · exact heq
    · exact absurd hinode (h.unused hp f hgt (ho.exists_ hf))
  · exact h.named hp f hf

/-- The list so far; the files before `bound` were there when the scan began. -/
structure Scanned (s : LogForwarder) (bound : ℕ) (names todo : List Path) (files : List (Path × ℕ)) :
    Prop where
  bounded : bound ≤ s.log.files.length
  sorted : (files.map (·.2)).Pairwise (· < ·)
  ahead : todo.Pairwise before
  listed : ∀ n, Path.archive n ∈ todo → Path.archive n ∈ names
  known : ∀ n, Path.archive n ∈ names → n ∈ s.log.names
  old : ∀ p f, p ≠ .current → (∀ n, p = .archive n → p ∈ names) → s.log.lookup p = some f → f < bound
  later : ∀ e ∈ files, ∀ p ∈ todo, ∀ f, s.log.lookup p = some f → e.2 ≤ f
  seen : ∀ p, (∀ n, p = .archive n → p ∈ names) → p ∉ todo → ∀ f < bound, s.log.lookup p = some f →
    ∃ e ∈ files, e.2 = f
  own : ∀ e ∈ files, ∀ f < bound, Retained s.log f → s.log.inode f = s.log.inode e.2 → f = e.2
  entries : ∀ e ∈ files, Entry s e
  cursor : ∀ f, Retained s.log f → s.saved.inode = some (s.log.inode f) → f < bound

theorem Scanned.withPhase (h : Scanned s bound names todo files) (cursor : Cursor) (phase : Phase) :
    Scanned (withPhase s cursor phase) bound names todo files :=
  ⟨h.bounded, h.sorted, h.ahead, h.listed, h.known, h.old, h.later, h.seen, h.own,
    fun e he => (h.entries e he).withPhase cursor phase, h.cursor⟩

/-- A path that leads to an old file led to it before. -/
theorem lookup_old (he : Evolves s log') (hp : log'.lookup p = some f) (hf : f < s.log.files.length)
    (hn : ∀ n, p = .archive n → n ∈ s.log.names) : s.log.lookup p = some f := by
  by_cases hc : p = .current
  · subst hc
    by_contra hne
    exact (he.frozen hf hne).1 hp
  · exact he.path hp hc hn

/-- A file that the saved cursor refers to was there before. -/
theorem cursor_old (he : Evolves s log') (ho' : Ordered log') (hr : Retained log' f)
    (hsaved : s.saved.inode = some (log'.inode f)) :
    f < s.log.files.length ∧ Retained s.log f ∧ s.saved.inode = some (s.log.inode f) := by
  obtain ⟨p, hp⟩ := hr
  have hlt : f < s.log.files.length := by
    by_contra hge
    exact (he.fresh (not_lt.mp hge) (ho'.exists_ hp)).2 (Or.inl hsaved)
  refine ⟨hlt, he.retained ⟨p, hp⟩ hlt, ?_⟩
  rw [← he.inode hlt]
  exact hsaved

theorem Scanned.evolves (h : Scanned s bound names todo files) (he : Evolves s log')
    (ho' : Ordered log') : Scanned (evolve s log') bound names todo files := by
  refine ⟨h.bounded.trans he.length, h.sorted, h.ahead, h.listed, fun n hn => he.names n (h.known n hn),
    fun p f hp hn hf => ?_, fun e hmem p hp f hf => ?_, fun p hn hp f hlt hf => ?_,
    fun e hmem f hlt hr hinode => ?_, fun e hmem => (h.entries e hmem).evolves he, fun f hr hsaved => ?_⟩
  · exact h.old p f hp hn (he.path hf hp fun n hpn => h.known n (hpn ▸ hn n hpn))
  · by_cases hlt : f < s.log.files.length
    · exact h.later e hmem p hp f (lookup_old he hf hlt fun n hpn => h.known n (h.listed n (hpn ▸ hp)))
    · exact ((h.entries e hmem).exists_.trans_le (not_lt.mp hlt)).le
  · exact h.seen p hn hp f hlt
      (lookup_old he hf (hlt.trans_le h.bounded) fun n hpn => h.known n (hpn ▸ hn n hpn))
  · have hold := hlt.trans_le h.bounded
    refine h.own e hmem f hlt (he.retained hr hold) ?_
    rw [← he.inode hold, ← he.inode (h.entries e hmem).exists_]
    exact hinode
  · obtain ⟨-, hr', hsaved'⟩ := cursor_old he ho' hr hsaved
    exact h.cursor f hr' hsaved'

/-! ### The steps of the scan -/

theorem pairwise_paths {names : List Path} (hnodup : (names.filterMap archiveName).Nodup) :
    (paths names).Pairwise before := by
  have hsorted : ((names.filterMap archiveName).insertionSort (· ≤ ·)).Pairwise (· < ·) := by
    have hnodup' : ((names.filterMap archiveName).insertionSort (· ≤ ·)).Nodup := by
      rwa [(List.perm_insertionSort (· ≤ ·) _).nodup_iff]
    exact ((List.pairwise_insertionSort (· ≤ ·) _).and hnodup').imp fun h => lt_of_le_of_ne h.1 h.2
  rw [paths, List.pairwise_append, List.pairwise_map]
  refine ⟨hsorted.imp id, by simp [before], fun p hp q hq => ?_⟩
  obtain ⟨n, -, rfl⟩ := List.mem_map.mp hp
  simp only [List.mem_cons, List.not_mem_nil, or_false] at hq
  rcases hq with rfl | rfl <;> trivial

theorem archive_mem_paths (names : List Path) (n : String) :
    Path.archive n ∈ paths names ↔ Path.archive n ∈ names := by
  have hname : ∀ p, archiveName p = some n ↔ p = .archive n := by
    intro p
    cases p <;> simp [archiveName]
  simp [paths, List.mem_filterMap, hname]

/-- The scan begins. -/
theorem scanned_start (ho : Ordered s.log) :
    Scanned s s.log.files.length s.log.relevantNames (paths s.log.relevantNames) [] := by
  refine ⟨le_rfl, List.Pairwise.nil, pairwise_paths (nodup_archiveNames s.log),
    fun n hn => (archive_mem_paths _ n).mp hn, fun n hn => ?_, fun p f _ _ hf => ho.exists_ hf, nofun,
    fun p hn hp f _ hf => ?_, nofun, nofun, fun f hr _ => ?_⟩
  · obtain ⟨f, hf⟩ := mem_relevantNames.mp hn
    exact ho.names hf
  · cases p with
    | archive n => exact absurd ((archive_mem_paths _ n).mpr (hn n rfl)) hp
    | previous => exact absurd (by simp [paths]) hp
    | current => exact absurd (by simp [paths]) hp
  · obtain ⟨p, hp⟩ := hr
    exact ho.exists_ hp

/-- The file of the saved cursor, where it is retained, is the one that was reached last. -/
def Reached (s : LogForwarder) : Prop :=
  s.reached ≤ s.log.files.length ∧
  ∀ f, Retained s.log f → f + 1 = s.reached → s.saved.inode = some (s.log.inode f)

/-- A path that was just stat'ed makes an entry. -/
theorem entry_stat (ho : Ordered s.log) (hreached : Reached s)
    (hn : ∀ n, p = .archive n → n ∈ s.log.names)
    (hf : s.log.lookup p = some f) : Entry s (p, f) := by
  refine ⟨ho.exists_ hf, hn, fun _ g hg => ?_, fun hc g hfg hg => ?_, fun hc => ?_⟩
  · exact Option.some.inj (hg.symm.trans hf)
  · obtain rfl : p = .current := hc
    have := ho.last hf
    simp only at hfg
    omega
  · obtain rfl : p = .current := hc
    have hlast := ho.last hf
    by_cases hle : s.reached ≤ f
    · exact Or.inl ⟨hle, .current, hf⟩
    · have := hreached.1
      exact Or.inr (hreached.2 f ⟨.current, hf⟩ (by omega))

theorem Scanned.stat (h : Scanned s bound names (p :: todo) files) (ho : Ordered s.log)
    (hreached : Reached s) : Scanned s bound names todo (statPath s.log files p) := by
  have hahead := List.pairwise_cons.mp h.ahead
  have hlisted : ∀ n, Path.archive n ∈ todo → Path.archive n ∈ names := fun n hn =>
    h.listed n (by simp [hn])
  -- the path itself is settled by a file with its inode number in the list
  have hseen : ∀ files' : List (Path × ℕ), (∀ e ∈ files, e ∈ files') →
      (∀ f < bound, s.log.lookup p = some f → ∃ e ∈ files', e.2 = f) →
      ∀ q, (∀ n, q = .archive n → q ∈ names) → q ∉ todo → ∀ f < bound, s.log.lookup q = some f →
        ∃ e ∈ files', e.2 = f := by
    intro files' hsub hp q hn hq f hf hlookup
    by_cases hqp : q = p
    · subst hqp
      exact hp f hf hlookup
    · obtain ⟨e, he, heq⟩ := h.seen q hn (by simp [hqp, hq]) f hf hlookup
      exact ⟨e, hsub e he, heq⟩
  unfold statPath
  split
  · next hnone =>
    refine ⟨h.bounded, h.sorted, hahead.2, hlisted, h.known, h.old,
      fun e he q hq => h.later e he q (by simp [hq]), hseen files (fun _ he => he) fun f _ hf => ?_,
      h.own, h.entries, h.cursor⟩
    exact absurd (hnone.symm.trans hf) (Option.some_ne_none f).symm
  · next f hf =>
    split_ifs with hin
    · refine ⟨h.bounded, h.sorted, hahead.2, hlisted, h.known, h.old,
        fun e he q hq => h.later e he q (by simp [hq]),
        hseen files (fun _ he => he) fun g hg hlookup => ?_, h.own, h.entries, h.cursor⟩
      obtain rfl := Option.some.inj (hf.symm.trans hlookup)
      obtain ⟨e, he, hinode⟩ := List.mem_map.mp hin
      exact ⟨e, he, (h.own e he f hg ⟨p, hf⟩ hinode.symm).symm⟩
    · have hknown : ∀ n, p = .archive n → n ∈ s.log.names := fun n hpn =>
        h.known n (h.listed n (by simp [hpn]))
      have hentry := entry_stat ho hreached hknown hf
      have hlt : ∀ e ∈ files, e.2 < f := by
        intro e he
        refine lt_of_le_of_ne (h.later e he p (by simp) f hf) fun heq => hin ?_
        exact List.mem_map.mpr ⟨e, he, by rw [heq]⟩
      refine ⟨h.bounded, ?_, hahead.2, hlisted, h.known, h.old, fun e he q hq g hg => ?_,
        hseen _ (fun e he => by simp [he]) fun g _ hlookup => ?_, fun e he g hg hr hinode => ?_,
        fun e he => ?_, h.cursor⟩
      · rw [List.map_append, List.pairwise_append]
        refine ⟨h.sorted, by simp, fun a ha b hb => ?_⟩
        obtain ⟨e, he, rfl⟩ := List.mem_map.mp ha
        simp only [List.map_cons, List.map_nil, List.mem_singleton] at hb
        rw [hb]
        exact hlt e he
      · rcases List.mem_append.mp he with he | he
        · exact h.later e he q (by simp [hq]) g hg
        · rw [List.mem_singleton.mp he]
          exact (ho.before (hahead.1 q hq) hf hg).le
      · obtain rfl := Option.some.inj (hf.symm.trans hlookup)
        exact ⟨(p, f), by simp, rfl⟩
      · rcases List.mem_append.mp he with he | he
        · exact h.own e he g hg hr hinode
        · rw [List.mem_singleton.mp he] at hinode ⊢
          obtain ⟨q, hq⟩ := hr
          rcases lt_trichotomy g f with hgf | heq | hfg
          · exact absurd hinode.symm (ho.unused hq hgf hentry.exists_)
          · exact heq
          · exact absurd hinode (ho.unused hf hfg (hg.trans_le h.bounded))
      · rcases List.mem_append.mp he with he | he
        · exact h.entries e he
        · rw [List.mem_singleton.mp he]
          exact hentry

/-- Where the names did not change, every retained file before one of the list is in the list. -/
theorem Scanned.gaps (h : Scanned s bound names [] files) (ho : Ordered s.log)
    (hsame : sameNames s.log.relevantNames names) (hr : Retained s.log f) {e : Path × ℕ} (he : e ∈ files)
    (hlt : f < e.2) : ∃ e ∈ files, e.2 = f := by
  obtain ⟨p, hp⟩ := hr
  have hn : ∀ n, p = .archive n → p ∈ names := fun _ _ => hsame.1 p (mem_relevantNames.mpr ⟨f, hp⟩)
  have hbound : f < bound := by
    by_cases hc : p = .current
    · subst hc
      have := ho.last hp
      have := (h.entries e he).exists_
      omega
    · exact h.old p f hc hn hp
  exact h.seen p hn (by simp) f hbound hp

/-! ### The files that are still to be read -/

/-- The rest of the list: the retained files before its last are in it, or done, and it does not go back
behind the file of the saved cursor. -/
structure Rest (s : LogForwarder) (ls : List Line) (open_ : Option ℕ) (rest : List (Path × ℕ)) :
    Prop where
  sorted : (rest.map (·.2)).Pairwise (· < ·)
  entries : ∀ e ∈ rest, Entry s e
  gaps : ∀ f, Retained s.log f → (∃ e ∈ rest, f < e.2) → (∀ e ∈ rest, e.2 ≠ f) →
    open_ = some f ∨ Done s.log ls f
  cursor : ∀ f, Retained s.log f → s.saved.inode = some (s.log.inode f) → ∀ e ∈ rest, f ≤ e.2

theorem Rest.mono (h : Rest s ls open_ rest) (hls : ∀ l ∈ ls, l ∈ ls') : Rest s ls' open_ rest :=
  ⟨h.sorted, h.entries, fun f hr he hne => (h.gaps f hr he hne).imp id fun hd => Passed.mono hd hls,
    h.cursor⟩

theorem Rest.withPhase (h : Rest s ls open_ rest) (cursor : Cursor) (phase : Phase) :
    Rest (withPhase s cursor phase) ls open_ rest :=
  ⟨h.sorted, fun e he => (h.entries e he).withPhase cursor phase, h.gaps, h.cursor⟩

theorem Rest.evolves (h : Rest s ls open_ rest) (he : Evolves s log') (ho : Ordered s.log)
    (ho' : Ordered log') : Rest (evolve s log') ls open_ rest := by
  refine ⟨h.sorted, fun e hmem => (h.entries e hmem).evolves he, fun f hr hex hne => ?_,
    fun f hr hsaved e hmem => ?_⟩
  · obtain ⟨e, hmem, hlt⟩ := hex
    have hexists := (h.entries e hmem).exists_
    have hold := hlt.trans hexists
    refine (h.gaps f (he.retained hr hold) ⟨e, hmem, hlt⟩ hne).imp id fun hd => ?_
    exact hd.of_content (he.frozen hold (not_current_of_lt ho hlt hexists)).2
  · obtain ⟨-, hr', hsaved'⟩ := cursor_old he ho' hr hsaved
    exact h.cursor f hr' hsaved' e hmem

/-- A retained file is the file of a cursor with its inode number. -/
theorem eq_of_inode {cursor : Cursor} (ho : Ordered s.log) (h : CursorAt s.log ls k cursor)
    (hr : Retained s.log f) (hinode : cursor.inode = some (s.log.inode f)) : k = f := by
  obtain ⟨p, hp⟩ := hr
  have heq : s.log.inode k = s.log.inode f := Option.some.inj (h.inode.symm.trans hinode)
  rcases lt_trichotomy k f with hlt | heq' | hgt
  · exact absurd heq.symm (h.unused f hlt (ho.exists_ hp))
  · exact heq'
  · exact absurd heq (ho.unused hp hgt h.covers.exists_)

/-- The saved cursor covers the pushed lines before it. -/
def Saved (s : LogForwarder) (ls : List Line) : Prop :=
  s.saved = noCursor ∨ ∃ k, CursorAt s.log ls k s.saved

/-- The read starts with the file of the cursor, or with the first one. -/
theorem fromCursor_cases (log : Log) (cursor : Cursor) (files : List (Path × ℕ)) :
    (fromCursor log cursor files = files ∧ ∀ e ∈ files, some (log.inode e.2) ≠ cursor.inode) ∨
    ∃ pre e post, files = pre ++ e :: post ∧ cursor.inode = some (log.inode e.2) ∧
      fromCursor log cursor files = e :: post := by
  unfold fromCursor
  cases hi : files.findIdx? (fun file => some (log.inode file.2) = cursor.inode) with
  | none =>
    refine Or.inl ⟨rfl, fun e he => ?_⟩
    simpa using List.findIdx?_eq_none_iff.mp hi e he
  | some i =>
    obtain ⟨hlt, hp, -⟩ := List.findIdx?_eq_some_iff_getElem.mp hi
    refine Or.inr ⟨files.take i, files[i], files.drop (i + 1), ?_, (of_decide_eq_true hp).symm, ?_⟩
    · rw [List.getElem_cons_drop, List.take_append_drop]
    · rw [Option.getD_some, List.getElem_cons_drop]

/-- **What the scan gives to the read.** -/
theorem Scanned.queue (h : Scanned s bound names [] files) (ho : Ordered s.log)
    (hsame : sameNames s.log.relevantNames names) (hsaved : Saved s ls) :
    Rest s ls none (fromCursor s.log s.saved files) := by
  have hsub : ∀ e ∈ fromCursor s.log s.saved files, e ∈ files := fun e he => List.mem_of_mem_drop he
  have hsorted : ((fromCursor s.log s.saved files).map (·.2)).Pairwise (· < ·) := by
    rw [fromCursor, List.map_drop]
    exact h.sorted.sublist (List.drop_sublist _ _)
  refine ⟨hsorted, fun e he => h.entries e (hsub e he), fun f hr hex hne => Or.inr ?_,
    fun f hr hcursor e he => ?_⟩
  · obtain ⟨e, he, hlt⟩ := hex
    obtain ⟨e', he', rfl⟩ := h.gaps ho hsame hr (hsub e he) hlt
    rcases fromCursor_cases s.log s.saved files with ⟨hall, -⟩ |
      ⟨pre, first, post, hsplit, hinode, hrest⟩
    · rw [hall] at hne
      exact absurd rfl (hne e' he')
    · -- the file is before the one of the cursor, so the cursor covers it
      have hbefore : e'.2 < first.2 := by
        rw [hsplit, List.mem_append] at he'
        rw [hrest] at hne
        have hpre := he'.resolve_right fun hin => hne e' hin rfl
        have hpair := h.sorted
        rw [hsplit, List.map_append, List.pairwise_append] at hpair
        exact hpair.2.2 _ (List.mem_map_of_mem hpre) _ (by simp)
      rcases hsaved with hno | ⟨k, hk⟩
      · rw [hno] at hinode
        cases hinode
      · have hfirst : first.2 < s.log.files.length := (h.entries first (by rw [hsplit]; simp)).exists_
        have hle : first.2 ≤ k := by
          by_contra hgt
          exact hk.unused first.2 (not_le.mp hgt) hfirst
            (Option.some.inj (hinode.symm.trans hk.inode))
        exact hk.covers.earlier _ (hbefore.trans_le hle) hr
  · obtain ⟨p, hp⟩ := id hr
    obtain ⟨e', he', rfl⟩ := h.seen p (fun _ _ => hsame.1 p (mem_relevantNames.mpr ⟨f, hp⟩)) (by simp) f
      (h.cursor f hr hcursor) hp
    rcases fromCursor_cases s.log s.saved files with ⟨-, hnone⟩ |
      ⟨pre, first, post, hsplit, hinode, hrest⟩
    · exact absurd hcursor.symm (hnone e' he')
    · have heq := h.own first (by rw [hsplit]; simp) e'.2 (h.cursor _ hr hcursor) hr
        (Option.some.inj (hcursor.symm.trans hinode))
      rw [hrest, List.map_cons, List.pairwise_cons] at hsorted
      rw [hrest, List.mem_cons] at he
      rw [heq]
      rcases he with rfl | he
      · exact le_rfl
      · exact (hsorted.1 e.2 (List.mem_map_of_mem he)).le

end InverterControl.Forwarder.Scan
