import InverterControl.Forwarder.Model

/-!
# What the logger can do

The files of the directory are in the order of their names and of their creation (`Ordered`).  Whatever
the logger does between two calls of the forwarder, a file that is not `current` stays as it is, and a
name goes to no other file (`Evolves`).
-/

namespace InverterControl.Forwarder.Writer

open InverterControl.Lib.Lines InverterControl.Forwarder.Model

variable {s : LogForwarder} {log log' : Log} {e : Event} {f g : ℕ} {p q : Path} {n name : String}

/-- The file is in the directory. -/
def Retained (log : Log) (f : ℕ) : Prop := ∃ p, log.lookup p = some f

/-- The order in which the names are read. -/
def before : Path → Path → Prop
  | .archive m, .archive n => m < n
  | .archive _, _ => True
  | .previous, .current => True
  | _, _ => False

/-- The names are in the order of the files, and a file that is retained has its inode alone. -/
structure Ordered (log : Log) : Prop where
  before : ∀ {p q f g}, before p q → log.lookup p = some f → log.lookup q = some g → f < g
  exists_ : ∀ {p f}, log.lookup p = some f → f < log.files.length
  last : ∀ {f}, log.current = some f → f + 1 = log.files.length
  names : ∀ {n f}, log.lookup (.archive n) = some f → n ∈ log.names
  unused : ∀ {p f g}, log.lookup p = some f → f < g → g < log.files.length → log.inode g ≠ log.inode f

/-- What may become of the log while the forwarder is not looking. -/
structure Evolves (s : LogForwarder) (log' : Log) : Prop where
  length : s.log.files.length ≤ log'.files.length
  inode : ∀ {f}, f < s.log.files.length → log'.inode f = s.log.inode f
  frozen : ∀ {f}, f < s.log.files.length → s.log.current ≠ some f →
    log'.current ≠ some f ∧ log'.content f = s.log.content f
  grows : ∀ {f}, f < s.log.files.length → ∃ bytes, log'.content f = s.log.content f ++ bytes
  retained : ∀ {f}, Retained log' f → f < s.log.files.length → Retained s.log f
  path : ∀ {p f}, log'.lookup p = some f → p ≠ .current → (∀ n, p = .archive n → n ∈ s.log.names) →
    s.log.lookup p = some f
  names : ∀ n ∈ s.log.names, n ∈ log'.names
  kept : ∀ {f}, Retained s.log f → s.reached ≤ f → Retained log' f
  fresh : ∀ {g}, s.log.files.length ≤ g → g < log'.files.length →
    (∀ f, Retained s.log f → log'.inode g ≠ s.log.inode f) ∧ ¬ referenced s (log'.inode g)

theorem evolves_refl (s : LogForwarder) : Evolves s s.log where
  length := le_rfl
  inode _ := rfl
  frozen _ h := ⟨h, rfl⟩
  grows _ := ⟨[], by simp⟩
  retained h _ := h
  path h _ _ := h
  names _ h := h
  kept h _ := h
  fresh h h' := absurd h (Nat.not_le.mpr h')

/-! ### The names of the directory -/

theorem mem_archives_of_lookup (h : log.lookup (.archive name) = some f) : (name, f) ∈ log.archives := by
  obtain ⟨a, ha, rfl⟩ := Option.map_eq_some_iff.mp h
  have hname : a.1 = name := by simpa using List.find?_some ha
  rw [← hname]
  exact List.mem_of_find?_eq_some ha

theorem mem_retained (h : log.lookup p = some f) : f ∈ log.retained := by
  rw [Log.retained, List.mem_append, List.mem_append]
  cases p with
  | archive name => exact Or.inl (List.mem_map.mpr ⟨_, mem_archives_of_lookup h, rfl⟩)
  | previous => exact Or.inr (Or.inl (Option.mem_toList.mpr h))
  | current => exact Or.inr (Or.inr (Option.mem_toList.mpr h))

/-- A name is listed while it has a file. -/
theorem mem_relevantNames : p ∈ log.relevantNames ↔ ∃ f, log.lookup p = some f := by
  rw [Log.relevantNames, List.mem_append, List.mem_append]
  cases p with
  | archive name =>
    have harchive : Path.archive name ∈ (log.archives.map (Path.archive ·.1)).dedup ↔
        ∃ f, log.lookup (.archive name) = some f := by
      rw [List.mem_dedup, List.mem_map]
      constructor
      · rintro ⟨a, ha, hname⟩
        have hsome : (log.archives.find? (·.1 = name)).isSome := by
          rw [List.find?_isSome]
          exact ⟨a, ha, by simpa using hname⟩
        obtain ⟨b, hb⟩ := Option.isSome_iff_exists.mp hsome
        exact ⟨b.2, by rw [Log.lookup, hb, Option.map_some]⟩
      · rintro ⟨f, hf⟩
        exact ⟨_, mem_archives_of_lookup hf, rfl⟩
    simp [harchive]
  | previous => cases h : log.previous <;> simp [Log.lookup, h]
  | current => cases h : log.current <;> simp [Log.lookup, h]

/-- No archive is listed twice. -/
theorem nodup_archiveNames (log : Log) : (log.relevantNames.filterMap archiveName).Nodup := by
  have hrest : ((log.previous.map fun _ => Path.previous).toList ++
      (log.current.map fun _ => Path.current).toList).filterMap archiveName = [] := by
    cases log.previous <;> cases log.current <;> rfl
  rw [Log.relevantNames, List.filterMap_append, hrest, List.append_nil]
  refine (List.nodup_dedup _).filterMap fun p q n hp hq => ?_
  cases p <;> cases q <;> simp_all [archiveName]

/-! ### `current` grows -/

theorem file_appendTo (log : Log) (f g : ℕ) (bytes : List UInt8) :
    ({ log with files := appendTo log.files f bytes } : Log).inode g = log.inode g ∧
    (f ≠ g → ({ log with files := appendTo log.files f bytes } : Log).content g = log.content g) ∧
    (f < log.files.length → ({ log with files := appendTo log.files f bytes } : Log).content f =
      log.content f ++ bytes) := by
  simp only [Log.inode, Log.content, Log.file, appendTo, List.getD_eq_getElem?_getD,
    List.getElem?_modify]
  refine ⟨?_, fun h => ?_, fun h => ?_⟩
  · by_cases hfg : f = g
    · cases log.files[g]? <;> simp [hfg]
    · simp [hfg]
  · simp [h]
  · simp [List.getElem?_eq_getElem h]

theorem write_append (h : Ordered s.log) (bytes : List UInt8) :
    Evolves s (write s (.append bytes)) ∧ Ordered (write s (.append bytes)) := by
  simp only [write]
  split
  · next c hc =>
    have hlen : (appendTo s.log.files c bytes).length = s.log.files.length := List.length_modify _ _ _
    have hlt : c < s.log.files.length := h.exists_ (p := .current) hc
    refine ⟨⟨hlen.ge, fun _ => (file_appendTo s.log c _ bytes).1, fun _ hne => ⟨hne, ?_⟩,
      fun {f} _ => ?_,
      fun hr _ => hr, fun hp _ _ => hp, fun _ hn => hn, fun hr _ => hr, fun hg hg' => ?_⟩,
      ⟨h.before, ?_, ?_, h.names, ?_⟩⟩
    · exact (file_appendTo s.log c _ bytes).2.1 fun hcf => hne (by rw [← hcf]; exact hc)
    · by_cases hcf : c = f
      · subst hcf
        exact ⟨bytes, (file_appendTo s.log c c bytes).2.2 hlt⟩
      · exact ⟨[], by rw [(file_appendTo s.log c f bytes).2.1 hcf, List.append_nil]⟩
    · rw [hlen] at hg'
      omega
    · intro p f hp
      rw [hlen]
      exact h.exists_ (p := p) hp
    · intro f hf
      rw [hlen]
      exact h.last hf
    · intro p f g hp hfg hg
      rw [hlen] at hg
      rw [(file_appendTo s.log c g bytes).1, (file_appendTo s.log c f bytes).1]
      exact h.unused (p := p) hp hfg hg
  · exact ⟨evolves_refl s, h⟩

/-! ### A file becomes an archive -/

/-- The file of `q` gets a new archive name, which is after all the others. -/
structure Renamed (log log' : Log) (q : Path) (f : ℕ) (name : String) : Prop where
  old : log.lookup q = some f
  other : q = .current ∧ log.previous = none ∨ q = .previous
  later : ∀ n ∈ log.names, n < name
  files : log'.files = log.files
  names : log'.names = log.names ++ [name]
  lookup : ∀ p, log'.lookup p = if p = .archive name then some f else if p = q then none
    else log.lookup p

theorem Renamed.not_named (h : Renamed log log' q f name) : name ∉ log.names :=
  fun hn => lt_irrefl name (h.later name hn)

/-- A file of the new log is at its path, or it is the one that was renamed. -/
theorem Renamed.cases (h : Renamed log log' q f name) (hp : log'.lookup p = some g) :
    (p = .archive name ∧ g = f) ∨ (p ≠ .archive name ∧ p ≠ q ∧ log.lookup p = some g) := by
  rw [h.lookup] at hp
  split_ifs at hp with hname hq
  · exact Or.inl ⟨hname, (Option.some.inj hp).symm⟩
  · exact Or.inr ⟨hname, hq, hp⟩

theorem Renamed.retained (h : Renamed log log' q f name) (hg : Retained log' g) : Retained log g := by
  obtain ⟨p, hp⟩ := hg
  rcases h.cases hp with ⟨-, rfl⟩ | ⟨-, -, hp⟩
  · exact ⟨q, h.old⟩
  · exact ⟨p, hp⟩

theorem Renamed.ordered (h : Renamed log log' q f name) (ho : Ordered log) : Ordered log' := by
  have hinode : ∀ g, log'.inode g = log.inode g := fun g => by rw [Log.inode, Log.file, h.files]; rfl
  refine ⟨fun {p r a b} hbefore hp hr => ?_, fun {p a} hp => ?_, fun {a} ha => ?_, fun {n a} hn => ?_,
    fun {p a b} hp hab hb => ?_⟩
  · rcases h.cases hp with ⟨rfl, rfl⟩ | ⟨hpname, hpq, hp⟩
    · rcases h.cases hr with ⟨rfl, -⟩ | ⟨hrname, hrq, hr⟩
      · exact absurd hbefore (lt_irrefl name)
      · cases r with
        | archive m => exact absurd (h.later m (ho.names hr)) (not_lt_of_gt hbefore)
        | previous =>
          rcases h.other with ⟨-, hnone⟩ | rfl
          · exact absurd (hr.symm.trans hnone) (Option.some_ne_none b)
          · exact absurd rfl hrq
        | current =>
          rcases h.other with ⟨rfl, -⟩ | rfl
          · exact absurd rfl hrq
          · exact ho.before (p := .previous) (q := .current) trivial h.old hr
    · rcases h.cases hr with ⟨rfl, rfl⟩ | ⟨-, -, hr⟩
      · cases p with
        | archive m =>
          exact ho.before (p := .archive m) (by rcases h.other with ⟨rfl, -⟩ | rfl <;>
            trivial) hp h.old
        | previous => exact absurd hbefore id
        | current => exact absurd hbefore id
      · exact ho.before hbefore hp hr
  · rw [h.files]
    obtain ⟨r, hr⟩ := h.retained ⟨p, hp⟩
    exact ho.exists_ hr
  · rw [h.files]
    rcases h.cases (p := .current) ha with ⟨hname, -⟩ | ⟨-, -, hr⟩
    · cases hname
    · exact ho.last hr
  · rw [h.names, List.mem_append]
    rcases h.cases hn with ⟨hname, -⟩ | ⟨-, -, hr⟩
    · exact Or.inr (List.mem_singleton.mpr (Path.archive.inj hname))
    · exact Or.inl (ho.names hr)
  · rw [h.files] at hb
    obtain ⟨r, hr⟩ := h.retained ⟨p, hp⟩
    rw [hinode, hinode]
    exact ho.unused hr hab hb

theorem Renamed.evolves (h : Renamed s.log log' q f name) (ho : Ordered s.log) : Evolves s log' := by
  have hfile : ∀ g, log'.file g = s.log.file g := fun g => by rw [Log.file, h.files]; rfl
  refine ⟨h.files ▸ le_rfl, fun _ => by rw [Log.inode, hfile]; rfl, fun {g} _ hne => ⟨fun hc => ?_, ?_⟩,
    fun _ => ⟨[], by rw [Log.content, hfile, List.append_nil]; rfl⟩, fun hg _ => h.retained hg,
    fun {p g} hp _ hn => ?_, fun n hn => ?_, fun {g} hg _ => ?_, fun hg hg' => ?_⟩
  · rcases h.cases (p := .current) hc with ⟨hname, -⟩ | ⟨-, -, hr⟩
    · cases hname
    · exact hne hr
  · rw [Log.content, hfile]
    rfl
  · rcases h.cases hp with ⟨hname, -⟩ | ⟨-, -, hr⟩
    · exact absurd (hn name hname) h.not_named
    · exact hr
  · rw [h.names]
    exact List.mem_append_left _ hn
  · obtain ⟨p, hp⟩ := hg
    by_cases hq : p = q
    · subst hq
      obtain rfl := Option.some.inj (h.old.symm.trans hp)
      exact ⟨.archive name, by rw [h.lookup, if_pos rfl]⟩
    · refine ⟨p, ?_⟩
      rw [h.lookup, if_neg hq, if_neg fun hname => ?_]
      · exact hp
      · subst hname
        exact h.not_named (ho.names hp)
  · rw [h.files] at hg'
    omega

theorem Renamed.both (h : Renamed s.log log' q f name) (ho : Ordered s.log) :
    Evolves s log' ∧ Ordered log' :=
  ⟨h.evolves ho, h.ordered ho⟩

theorem find?_push (h : Ordered log) (hlater : ∀ n ∈ log.names, n < name) (n : String) :
    ((log.archives ++ [(name, f)]).find? (·.1 = n)).map (·.2) =
      if n = name then some f else log.lookup (.archive n) := by
  rw [List.find?_append]
  split_ifs with hn
  · subst hn
    have hnone : log.archives.find? (·.1 = n) = none := by
      cases hfind : log.archives.find? (·.1 = n) with
      | none => rfl
      | some a =>
        have hlookup : log.lookup (.archive n) = some a.2 := by rw [Log.lookup, hfind, Option.map_some]
        exact absurd (hlater n (h.names hlookup)) (lt_irrefl n)
    rw [hnone, Option.none_or]
    simp
  · have hlast : [(name, f)].find? (fun a => a.1 = n) = none := by simp [Ne.symm hn]
    rw [hlast, Option.or_none]
    rfl

theorem write_rotate (h : Ordered s.log) (name : String) :
    Evolves s (write s (.rotate name)) ∧ Ordered (write s (.rotate name)) := by
  simp only [write]
  split
  · next f hc hp =>
    split_ifs with hlater
    · refine Renamed.both (q := .current) ⟨hc, Or.inl ⟨rfl, hp⟩, hlater, rfl, rfl, fun p => ?_⟩ h
      cases p with
      | archive n =>
        rw [Log.lookup, find?_push h hlater]
        simp
      | previous => rfl
      | current => rfl
    · exact ⟨evolves_refl s, h⟩
  · exact ⟨evolves_refl s, h⟩

theorem write_archivePrevious (h : Ordered s.log) (name : String) :
    Evolves s (write s (.archivePrevious name)) ∧ Ordered (write s (.archivePrevious name)) := by
  simp only [write]
  split
  · next f hp =>
    split_ifs with hlater
    · refine Renamed.both (q := .previous) ⟨hp, Or.inr rfl, hlater, rfl, rfl, fun p => ?_⟩ h
      cases p with
      | archive n =>
        rw [Log.lookup, find?_push h hlater]
        simp
      | previous => rfl
      | current => rfl
    · exact ⟨evolves_refl s, h⟩
  · exact ⟨evolves_refl s, h⟩

/-! ### A new `current` -/

theorem write_create (h : Ordered s.log) (inode : ℕ) :
    Evolves s (write s (.create inode)) ∧ Ordered (write s (.create inode)) := by
  simp only [write]
  split_ifs with hok
  · obtain ⟨hnone, hunused, href⟩ := hok
    have hold : ∀ f < s.log.files.length,
        (s.log.files ++ [(⟨inode, []⟩ : File)]).getD f ⟨0, []⟩ = s.log.file f := fun f hf => by
      rw [Log.file, List.getD_eq_getElem?_getD, List.getD_eq_getElem?_getD, List.getElem?_append_left hf]
    have hnew : (s.log.files ++ [(⟨inode, []⟩ : File)]).getD s.log.files.length ⟨0, []⟩ =
        ⟨inode, []⟩ := by simp
    have hlen : (s.log.files ++ [(⟨inode, []⟩ : File)]).length = s.log.files.length + 1 := by simp
    have hlast : ∀ {g}, s.log.files.length ≤ g → g < (s.log.files ++ [(⟨inode, []⟩ : File)]).length →
        g = s.log.files.length := fun hg hg' => by omega
    refine ⟨⟨hlen ▸ Nat.le_succ _, fun hf => ?_, fun hf _ => ⟨fun hc => ?_, ?_⟩, fun hf => ⟨[], ?_⟩,
      fun hg hlt => ?_, fun {p f} hp hpc _ => ?_, fun _ hn => hn, fun hg _ => ?_, fun hg hg' =>
        ⟨fun f hf => ?_, ?_⟩⟩,
      ⟨fun {p q f g} hbefore hp hq => ?_, fun {p f} hp => ?_, fun {f} hf => ?_,
        fun {n f} hn => h.names hn, fun {p f g} hp hfg hg => ?_⟩⟩
    · rw [Log.inode, Log.file, hold _ hf]; rfl
    · have := Option.some.inj hc
      omega
    · rw [Log.content, Log.file, hold _ hf]; rfl
    · rw [Log.content, Log.file, hold _ hf, List.append_nil]; rfl
    · obtain ⟨p, hp⟩ := hg
      cases p with
      | archive n => exact ⟨.archive n, hp⟩
      | previous => exact ⟨.previous, hp⟩
      | current =>
        have := Option.some.inj hp
        omega
    · cases p with
      | archive n => exact hp
      | previous => exact hp
      | current => exact absurd rfl hpc
    · obtain ⟨p, hp⟩ := hg
      cases p with
      | archive n => exact ⟨.archive n, hp⟩
      | previous => exact ⟨.previous, hp⟩
      | current => exact absurd (hp.symm.trans hnone) (Option.some_ne_none _)
    · obtain ⟨p, hp⟩ := hf
      rw [hlast hg hg', Log.inode, Log.file, hnew]
      exact fun heq => hunused f (mem_retained hp) heq.symm
    · rw [hlast hg hg', Log.inode, Log.file, hnew]
      exact href
    · cases q with
      | archive n =>
        cases p with
        | archive m => exact h.before (p := .archive m) (q := .archive n) hbefore hp hq
        | previous => exact absurd hbefore id
        | current => exact absurd hbefore id
      | previous =>
        cases p with
        | archive m => exact h.before (p := .archive m) (q := .previous) hbefore hp hq
        | previous => exact absurd hbefore id
        | current => exact absurd hbefore id
      | current =>
        obtain rfl := Option.some.inj hq
        cases p with
        | archive m => exact h.exists_ (p := .archive m) hp
        | previous => exact h.exists_ (p := .previous) hp
        | current => exact absurd hbefore id
    · rw [hlen]
      cases p with
      | archive n => exact Nat.lt_succ_of_lt (h.exists_ (p := .archive n) hp)
      | previous => exact Nat.lt_succ_of_lt (h.exists_ (p := .previous) hp)
      | current =>
        have := Option.some.inj hp
        omega
    · rw [hlen, Option.some.inj hf]
    · rw [hlen] at hg
      have hold' : ∃ r, s.log.lookup r = some f := by
        cases p with
        | archive n => exact ⟨.archive n, hp⟩
        | previous => exact ⟨.previous, hp⟩
        | current =>
          have := Option.some.inj hp
          omega
      obtain ⟨r, hr⟩ := hold'
      rcases Nat.lt_succ_iff_lt_or_eq.mp hg with hlt | rfl
      · rw [Log.inode, Log.inode, Log.file, Log.file, hold g hlt, hold f (h.exists_ hr)]
        exact h.unused hr hfg hlt
      · rw [Log.inode, Log.inode, Log.file, Log.file, hnew, hold f (h.exists_ hr)]
        exact fun heq => hunused f (mem_retained hr) heq.symm
  · exact ⟨evolves_refl s, h⟩

/-! ### An archive is removed -/

theorem write_delete (h : Ordered s.log) (name : String) :
    Evolves s (write s (.delete name)) ∧ Ordered (write s (.delete name)) := by
  simp only [write]
  split
  · next f hf =>
    split_ifs with hreached
    · have hlookup : ∀ p,
        ({ s.log with archives := s.log.archives.filter (·.1 ≠ name) } : Log).lookup p =
          if p = .archive name then none else s.log.lookup p := by
        intro p
        cases p with
        | archive n =>
          simp only [Log.lookup, List.find?_filter, Path.archive.injEq]
          split_ifs with hn
          · subst hn
            simp
          · congr 2
            funext a
            by_cases ha : a.1 = n <;> simp [ha, hn]
        | previous => rfl
        | current => rfl
      have hsub : ∀ {p g},
        ({ s.log with archives := s.log.archives.filter (·.1 ≠ name) } : Log).lookup p =
          some g → s.log.lookup p = some g := by
        intro p g hp
        rw [hlookup] at hp
        split_ifs at hp
        exact hp
      refine ⟨⟨le_rfl, fun _ => rfl, fun _ hne => ⟨hne, rfl⟩,
        fun _ => ⟨[], by rw [List.append_nil]; rfl⟩,
        fun ⟨p, hp⟩ _ => ⟨p, hsub hp⟩, fun hp _ _ => hsub hp, fun _ hn => hn, fun {g} ⟨p, hp⟩ hle => ?_,
        fun hg hg' => absurd hg (Nat.not_le.mpr hg')⟩,
        ⟨fun hb hp hq => h.before hb (hsub hp) (hsub hq), fun hp => h.exists_ (hsub hp), h.last,
          fun hn => h.names (hsub hn), fun hp => h.unused (hsub hp)⟩⟩
      refine ⟨p, ?_⟩
      rw [hlookup, if_neg fun hname => ?_]
      · exact hp
      · subst hname
        have := Option.some.inj (hf.symm.trans hp)
        omega
    · exact ⟨evolves_refl s, h⟩
  · exact ⟨evolves_refl s, h⟩

/-- **What the logger can do.** -/
theorem write_evolves (h : Ordered s.log) (e : Event) : Evolves s (write s e) ∧ Ordered (write s e) := by
  cases e with
  | append bytes => exact write_append h bytes
  | rotate name => exact write_rotate h name
  | archivePrevious name => exact write_archivePrevious h name
  | create inode => exact write_create h inode
  | delete name => exact write_delete h name
  | _ => exact ⟨evolves_refl s, h⟩

end InverterControl.Forwarder.Writer
