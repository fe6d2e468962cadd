import ViewTemplate.Engine
import ViewTemplate.Proofs.Cache.Header
import ViewTemplate.Proofs.Cache.Refresh

namespace ViewTemplate

theorem Contents.text?_ofText (text : String) : (Contents.ofText text).text? = some text := by
  simp [Contents.text?, Contents.ofText]

theorem Contents.firstLine?_ofText (text : String) :
    (Contents.ofText text).firstLine? = some (Artifact.firstLine text.toList) := rfl

theorem Artifact.code_ok {text code : String} {p : Path} (h : Artifact.code text p = .ok code)
    (q : Path) : Artifact.code text q = .ok code := by
  unfold Artifact.code at h ⊢
  split at h
  · rename_i hheader
    rw [if_pos hheader]
    exact h
  · cases h

theorem Artifact.program_ok {text : String} {p : Path} {program : Code.Program}
    (h : Artifact.program text p = .ok program) (q : Path) :
    Artifact.program text q = .ok program := by
  unfold Artifact.program at h ⊢
  obtain ⟨code, hcode, hparse⟩ := Code.exists_of_bind_eq_ok h
  rw [Artifact.code_ok hcode q]
  simp only [bind, Except.bind]
  cases hprogram : Code.Program.parse code with
  | error fault =>
    rw [hprogram] at hparse
    cases hparse
  | ok p =>
    rw [hprogram] at hparse
    cases hparse
    rfl

namespace Engine

variable {e : Engine} {A : Path → Prop} {s t : Store} {home : Location} {p q : Path}
  {source contents : Contents} {time : Time} {text : String}

section Code

def textOf (e : Engine) (p : Path) (source : Contents) : Except TemplateError String :=
  match source.text? with
  | none => .error (.compile p (.file "cannot read template" .invalidText))
  | some text =>
    match Directive.generate e.settings.delimiters text with
    | .ok g => (Artifact.program g.text p).map fun _ => g.text
    | .error fault => .error (.compile p fault)

theorem textOf_ok : e.textOf p source = .ok text ↔ ∃ template g program,
    source.text? = some template ∧ Directive.generate e.settings.delimiters template = .ok g ∧
      Artifact.program g.text p = .ok program ∧ g.text = text := by
  unfold textOf
  cases source.text? with
  | none => simp
  | some template =>
    dsimp only
    cases hg : Directive.generate e.settings.delimiters template with
    | error fault => simp [hg]
    | ok g => cases hprogram : Artifact.program g.text p <;> simp [Except.map, hprogram, hg]

theorem textOf_of_textOf (h : e.textOf p source = .ok text) (q : Path) :
    e.textOf q source = .ok text := by
  obtain ⟨template, g, program, htemplate, hg, hprogram, rfl⟩ := textOf_ok.mp h
  exact textOf_ok.mpr ⟨template, g, program, htemplate, hg, Artifact.program_ok hprogram q, rfl⟩

theorem isCurrentHeader_textOf (h : e.textOf p source = .ok text) :
    (Contents.ofText text).firstLine?.any Artifact.isCurrentHeader = true := by
  obtain ⟨template, g, -, -, hg, -, rfl⟩ := textOf_ok.mp h
  unfold Directive.generate at hg
  cases hrules : Directive.applyRules (Directive.rules e.settings.delimiters) template.toList with
  | error fault =>
    rw [hrules] at hg
    cases hg
  | ok code =>
    rw [hrules] at hg
    cases hg
    rw [Contents.firstLine?_ofText, Artifact.firstLine_ofCode]
    exact Artifact.isCurrentHeader_header

theorem run_readText (h : s.find p = .ok (.file source time)) (htext : source.text? = some text) :
    (Attempt.orCompileError p "cannot read template" (Job.perform (.readText p))).run.run s =
      (.ok text, s) :=
  Attempt.run_orCompileError_of_ok ((Job.run_perform _).trans (Store.perform_readText h htext))

theorem run_readText_of_error {cause : OsError}
    (h : s.perform (.readText p) = ((.error cause : Except OsError String), s)) :
    (e.compileText p).run.run s = (.error (.compile p (.file "cannot read template" cause)), s) :=
  Attempt.run_bind_of_error (Attempt.run_bind_of_error
    (Attempt.run_orCompileError_of_error ((Job.run_perform _).trans h)))

theorem run_compileText (h : s.find p = .ok (.file source time)) :
    (e.compileText p).run.run s = (e.textOf p source, s) := by
  unfold textOf
  cases htext : source.text? with
  | none => exact run_readText_of_error (Store.perform_readText_invalid h htext)
  | some text =>
    have hread := run_readText h htext
    dsimp only
    cases hg : Directive.generate e.settings.delimiters text with
    | error fault =>
      have hfile : (e.generateFile p).run.run s = (.error (.compile p fault), s) := by
        refine (Attempt.run_bind_of_ok hread).trans ?_
        rw [hg]
        rfl
      exact Attempt.run_bind_of_error hfile
    | ok g =>
      have hfile : (e.generateFile p).run.run s = (.ok g, s) := by
        refine (Attempt.run_bind_of_ok hread).trans ?_
        rw [hg]
        rfl
      refine (Attempt.run_bind_of_ok hfile).trans ?_
      dsimp only
      cases Artifact.program g.text p <;> rfl

theorem run_compileText_directory (h : s.find p = .ok .directory) :
    (e.compileText p).run.run s =
      (.error (.compile p (.file "cannot read template" .isDirectory)), s) :=
  run_readText_of_error (Store.perform_readText_directory h)

end Code

section Invariant

/-- Absolute paths of templates, for jobs that begin relative paths at `home`: no two of them have
the same key, and none leads to the place of an artifact. -/
structure Sources (e : Engine) (A : Path → Prop) (home : Location) : Prop where
  workingDir : e.workingDir.isAbsolute = true
  location_workingDir : e.workingDir.location [] = home
  isAbsolute : ∀ a, A a → a.isAbsolute = true
  keys : ∀ a b, A a → A b → Cache.keyOf a.text = Cache.keyOf b.text → a = b
  apart : ∀ a, A a → ∀ p, a.location home ≠ e.cache.place home p

/-- The templates that the paths in `A` are the absolute paths of. -/
def IsSource (e : Engine) (A : Path → Prop) (p : Path) : Prop := A (Path.absolute e.workingDir p)

theorem Sources.location (h : e.Sources A home) (hp : e.IsSource A p) :
    (Path.absolute e.workingDir p).location home = p.location home := by
  have hne : p.text ≠ "" := by
    intro hempty
    have habsolute := h.isAbsolute _ hp
    have hsame : Path.absolute e.workingDir p = p := by
      simp [Path.absolute, hempty]
    rw [hsame, Path.isAbsolute, hempty] at habsolute
    exact absurd habsolute (by decide)
  rw [Path.location_absolute hne h.workingDir, h.location_workingDir]

theorem Sources.location_ne (h : e.Sources A home) (hp : e.IsSource A p) :
    p.location home ≠ e.cache.place home q := by
  rw [← h.location hp]
  exact h.apart _ hp q

theorem Sources.location_inj (h : e.Sources A home) (hp : e.IsSource A p) (hq : e.IsSource A q)
    (hext : Settings.isExtension e.settings.extension = true)
    (hplace : e.cache.place home p = e.cache.place home q) : p.location home = q.location home := by
  have hkey : e.cache.key p = e.cache.key q := (Cache.place_inj hext).mp hplace
  rw [← h.location hp, ← h.location hq, h.keys _ _ hp hq hkey]

/-- An artifact with the header of the engine has a template, and if it is not older than that it
holds the code of it. -/
structure Current (e : Engine) (A : Path → Prop) (s : Store) : Prop where
  sources : e.Sources A s.workingDir
  ready : e.cache.Ready s
  code : ∀ p, e.IsSource A p → ∀ contents time,
    s.entryAt? (e.cache.place s.workingDir p) = some (.file contents time) →
      contents.firstLine?.any Artifact.isCurrentHeader = true → ∃ source sourceTime,
        s.entryAt? (p.location s.workingDir) = some (.file source sourceTime) ∧
          (sourceTime ≤ time → ∃ text, e.textOf p source = .ok text ∧ contents = .ofText text)

namespace Current

variable {l : Location}

theorem of_clock (h : e.Current A s) (clock : Time) : e.Current A { s with clock } := by
  have hdirs : Store.SameDirectories s { s with clock } := ⟨rfl, fun _ => Iff.rfl⟩
  exact ⟨h.sources, ⟨h.ready.extension, hdirs.find rfl h.ready.dir, h.ready.place⟩, h.code⟩

/-- A template may be written anew if it is dated later than every artifact. -/
theorem edited (h : e.Current A s) (hst : s.OnlyAt l t) (hl : ∀ q, l ≠ e.cache.place s.workingDir q)
    (hs : s.entryAt? l ≠ some .directory) (ht : t.entryAt? l = some (.file source time))
    (hlater : ∀ p, e.IsSource A p → ∀ contents made,
      s.entryAt? (e.cache.place s.workingDir p) = some (.file contents made) → made < time) :
    e.Current A t := by
  refine ⟨hst.workingDir ▸ h.sources, h.ready.of_onlyAt hst hs (by simp [ht]), ?_⟩
  intro p hp contents made hentry hheader
  rw [hst.workingDir] at hentry ⊢
  rw [hst.elsewhere _ (hl p).symm] at hentry
  by_cases hpl : p.location s.workingDir = l
  · have hold := hlater p hp contents made hentry
    exact ⟨source, time, hpl ▸ ht, fun hle => absurd hold (Nat.not_lt.mpr hle)⟩
  · rw [hst.elsewhere _ hpl]
    exact h.code p hp contents made hentry hheader

theorem discarded (h : e.Current A s) (hst : s.OnlyAt (e.cache.place s.workingDir q) t)
    (hdir : t.entryAt? (e.cache.place s.workingDir q) ≠ some .directory)
    (hforeign : ∀ contents made, t.entryAt? (e.cache.place s.workingDir q) =
      some (.file contents made) →
      contents.firstLine?.any Artifact.isCurrentHeader = false) : e.Current A t := by
  refine ⟨hst.workingDir ▸ h.sources, h.ready.of_onlyAt hst (h.ready.place q) hdir, ?_⟩
  intro p hp contents made hentry hheader
  rw [hst.workingDir] at hentry ⊢
  rw [hst.elsewhere _ (h.sources.location_ne hp)]
  by_cases hplace : e.cache.place s.workingDir p = e.cache.place s.workingDir q
  · rw [hplace] at hentry
    exact absurd hheader (by simp [hforeign contents made hentry])
  · rw [hst.elsewhere _ hplace] at hentry
    exact h.code p hp contents made hentry hheader

theorem refreshed {made : Time} (h : e.Current A s) (hq : e.IsSource A q)
    (hst : s.OnlyAt (e.cache.place s.workingDir q) t)
    (ht : t.entryAt? (e.cache.place s.workingDir q) = some (.file (.ofText text) made))
    (hfind : s.find q = .ok (.file source time)) (htext : e.textOf q source = .ok text) :
    e.Current A t := by
  refine ⟨hst.workingDir ▸ h.sources, h.ready.of_onlyAt hst (h.ready.place q) (by simp [ht]), ?_⟩
  intro p hp contents time' hentry hheader
  rw [hst.workingDir] at hentry ⊢
  rw [hst.elsewhere _ (h.sources.location_ne hp)]
  by_cases hplace : e.cache.place s.workingDir p = e.cache.place s.workingDir q
  · rw [hplace, ht] at hentry
    cases hentry
    rw [h.sources.location_inj hp hq h.ready.extension hplace, Store.entryAt?_of_find hfind]
    exact ⟨source, time, rfl, fun _ => ⟨text, textOf_of_textOf htext p, rfl⟩⟩
  · rw [hst.elsewhere _ hplace] at hentry
    exact h.code p hp contents time' hentry hheader

theorem code_of_accepts {made : Time} (h : e.Current A s) (hp : e.IsSource A p)
    (hfind : s.find p = .ok (.file source time))
    (hentry : s.entryAt? (e.cache.place s.workingDir p) = some (.file contents made))
    (haccepts : Cache.accepts time (some (.file contents made)) = true) :
    time ≤ made ∧ ∃ text, e.textOf p source = .ok text ∧ contents = .ofText text := by
  obtain ⟨contents, made, hsame, hle, hheader⟩ := Cache.accepts_iff.mp haccepts
  cases hsame
  obtain ⟨source', time', hsource, hcode⟩ := h.code p hp contents made hentry hheader
  rw [Store.entryAt?_of_find hfind] at hsource
  cases hsource
  exact ⟨hle, hcode hle⟩

/-- Compiling a template gives its code or the fault in it, and keeps the invariant. -/
theorem run_compilePath (h : e.Current A s) (hp : e.IsSource A p)
    (hfind : s.find p = .ok (.file source time)) :
    (∃ error, e.textOf p source = .error error ∧
      (e.compilePath p).run.run s = (.error error, s)) ∨
    ∃ text made recompiled t, e.textOf p source = .ok text ∧ time ≤ made ∧
      (e.compilePath p).run.run s =
        (.ok ⟨e.cache.key p, e.cache.artifactPath p, time, made, recompiled⟩, t) ∧
      s.OnlyAt (e.cache.place s.workingDir p) t ∧ e.Current A t ∧
      t.entryAt? (e.cache.place s.workingDir p) = some (.file (.ofText text) made) := by
  have hstat := Store.perform_modified hfind
  cases hfresh : Cache.accepts time (s.entryAt? (e.cache.place s.workingDir p)) with
  | true =>
    right
    -- The artifact is kept, and by the invariant it holds the code of the template.
    obtain ⟨contents, made, hentry, -⟩ := Cache.accepts_iff.mp hfresh
    rw [hentry] at hfresh
    obtain ⟨hle, text, htext, rfl⟩ := h.code_of_accepts hp hfind hentry hfresh
    exact ⟨text, made, false, s, htext, hle,
      Cache.run_getOrCompile_of_fresh h.ready hstat hentry hfresh, .refl, h, hentry⟩
  | false =>
    have hstale : (e.compilePath p).run.run s = _ :=
      Cache.run_getOrCompile_of_stale h.ready hstat hfresh
    have hcompile : (e.compileText p).run.run s = _ := run_compileText hfind
    cases htext : e.textOf p source with
    | error error =>
      rw [htext] at hcompile
      exact .inl ⟨error, rfl, hstale.trans (Cache.run_recompile_of_error h.ready hfresh hcompile)⟩
    | ok text =>
      rw [htext] at hcompile
      obtain ⟨t, hrun, hst, ht⟩ := Cache.run_recompile_of_ok h.ready hfresh hcompile
      exact .inr ⟨text, _, true, t, rfl, Nat.le_max_right _ _, hstale.trans hrun, hst,
        h.refreshed hp hst ht hfind htext, ht⟩

theorem stale_of_directory (h : e.Current A s) (hp : e.IsSource A p)
    (hfind : s.find p = .ok .directory) :
    Cache.accepts s.clock (s.entryAt? (e.cache.place s.workingDir p)) = false := by
  by_contra hfresh
  rw [Bool.not_eq_false] at hfresh
  obtain ⟨contents, made, hentry, -, hheader⟩ := Cache.accepts_iff.mp hfresh
  obtain ⟨source, time, hsource, -⟩ := h.code p hp contents made hentry hheader
  rw [Store.entryAt?_of_find hfind] at hsource
  cases hsource

theorem run_compilePath_directory (h : e.Current A s) (hp : e.IsSource A p)
    (hfind : s.find p = .ok .directory) : (e.compilePath p).run.run s =
      (.error (.compile p (.file "cannot read template" .isDirectory)), s) := by
  have hstale := h.stale_of_directory hp hfind
  exact (Cache.run_getOrCompile_of_stale h.ready (Store.perform_modified_directory hfind)
    hstale).trans (Cache.run_recompile_of_error h.ready hstale (run_compileText_directory hfind))

theorem run_compilePath_missing {cause : OsError} (hfind : s.find p = .error cause) :
    (e.compilePath p).run.run s = (.error (.compile p (.file "cannot stat template" cause)), s) :=
  Attempt.run_bind_of_error (Cache.run_sourceTime_missing hfind)

theorem find_of_compilePath {r : Compiled} (h : e.Current A s) (hp : e.IsSource A p)
    (hrun : (e.compilePath p).run.run s = (.ok r, t)) :
    ∃ source time, s.find p = .ok (.file source time) := by
  cases hfind : s.find p with
  | error cause => cases (run_compilePath_missing hfind).symm.trans hrun
  | ok entry =>
    cases entry with
    | directory => cases (h.run_compilePath_directory hp hfind).symm.trans hrun
    | file source time => exact ⟨source, time, rfl⟩

theorem onlyAt_compilePath {r : Except TemplateError Compiled} (h : e.Current A s)
    (hp : e.IsSource A p) (hrun : (e.compilePath p).run.run s = (r, t)) :
    s.OnlyAt (e.cache.place s.workingDir p) t ∧ e.Current A t := by
  cases hfind : s.find p with
  | error cause =>
    cases (run_compilePath_missing hfind).symm.trans hrun
    exact ⟨.refl, h⟩
  | ok entry =>
    cases entry with
    | directory =>
      cases (h.run_compilePath_directory hp hfind).symm.trans hrun
      exact ⟨.refl, h⟩
    | file source time =>
      rcases h.run_compilePath hp hfind with ⟨error, -, herror⟩ |
        ⟨text, made, recompiled, u, -, -, hok, hst, hcurrent, -⟩
      · cases herror.symm.trans hrun
        exact ⟨.refl, h⟩
      · cases hok.symm.trans hrun
        exact ⟨hst, hcurrent⟩

/-- A template that was compiled is not compiled again, however late it is by then. -/
theorem run_compilePath_again {r : Compiled} (h : e.Current A s) (hp : e.IsSource A p)
    (hrun : (e.compilePath p).run.run s = (.ok r, t)) (clock : Time) :
    (e.compilePath p).run.run { t with clock } =
      (.ok { r with recompiled := false }, { t with clock }) := by
  obtain ⟨source, time, hfind⟩ := h.find_of_compilePath hp hrun
  rcases h.run_compilePath hp hfind with ⟨error, -, herror⟩ |
    ⟨text, made, recompiled, u, htext, hle, hok, hst, hcurrent, hentry⟩
  · cases herror.symm.trans hrun
  · cases hok.symm.trans hrun
    rw [← hst.workingDir] at hentry
    have hdirs := hst.sameDirectories (h.ready.place p) (by rw [← hst.workingDir, hentry]; simp)
    have hsame := hst.elsewhere _ (h.sources.location_ne hp)
    have hclock : Store.SameDirectories t { t with clock } := ⟨rfl, fun _ => Iff.rfl⟩
    exact Cache.run_getOrCompile_of_fresh (hcurrent.of_clock clock).ready
      (Store.perform_modified (hclock.find rfl (hdirs.find hsame hfind))) hentry
      (Cache.accepts_iff.mpr ⟨_, _, rfl, hle, isCurrentHeader_textOf htext⟩)

/-- An artifact that is called fresh holds the code of its template. -/
theorem code_of_isFresh (h : e.Current A s) (hp : e.IsSource A p)
    (hfresh : ((e.cache.isFresh p).run.run s).1 = .ok true) : ∃ source time text made,
      s.find p = .ok (.file source time) ∧ e.textOf p source = .ok text ∧
        s.find (e.cache.artifactPath p) = .ok (.file (.ofText text) made) := by
  have hcheck : ∀ time, s.perform (.modified p) = ((.ok time : Except OsError Time), s) →
      Cache.accepts time (s.entryAt? (e.cache.place s.workingDir p)) = true := by
    intro time hstat
    have hrun : (e.cache.isFresh p).run.run s = _ :=
      (Attempt.run_bind_of_ok (Cache.run_sourceTime hstat)).trans (Cache.run_check h.ready rfl)
    rw [hrun] at hfresh
    exact Except.ok.inj hfresh
  cases hfind : s.find p with
  | error cause =>
    rw [Cache.run_isFresh_missing hfind] at hfresh
    cases hfresh
  | ok entry =>
    cases entry with
    | directory =>
      have hstale := h.stale_of_directory hp hfind
      rw [hcheck s.clock (Store.perform_modified_directory hfind)] at hstale
      cases hstale
    | file source time =>
      have haccepts := hcheck time (Store.perform_modified hfind)
      obtain ⟨contents, made, hentry, -⟩ := Cache.accepts_iff.mp haccepts
      rw [hentry] at haccepts
      obtain ⟨-, text, htext, rfl⟩ := h.code_of_accepts hp hfind hentry haccepts
      exact ⟨source, time, text, made, rfl, htext, h.ready.find_file hentry⟩

end Current

end Invariant

end Engine

end ViewTemplate
