import ViewTemplate.Proofs.Cache.Direct
import ViewTemplate.Proofs.Files.Ending

namespace ViewTemplate

open Attempt

variable {s t u : Store} {p : Path}

/-- A compilation that failed: the error is one of the template, and the files are the same. -/
def Spared (p : Path) (s : Store) (error : TemplateError) (t : Store) : Prop :=
  s.SameFiles t ∧ ∃ fault, error = .compile p fault

theorem Spared.of_same {error : TemplateError} (h : Spared p t error u) (hst : s.SameFiles t) :
    Spared p s error u :=
  ⟨hst.trans h.1, h.2⟩

theorem spared_file (h : s.SameFiles t) {doing : String} {cause : OsError} :
    Spared p s (.compile p (.file doing cause)) t :=
  ⟨h, _, rfl⟩

namespace Cache

variable {c : Cache} {time : Time} {text : String} {compile : Path → Attempt String}

theorem getLast?_artifactPath (hext : Settings.isExtension c.extension = true) :
    (c.artifactPath p).text.toList.getLast? ≠ some '/' :=
  getLast?_join (artifactName_isInner hext)

theorem run_cleanUp_of_error {step undo : Job (Except OsError Unit)} {cause : OsError}
    {r : Except OsError Unit} (h : step.run s = (.error cause, t)) (hundo : undo.run t = (r, u)) :
    (do
      let result ← step
      if result matches .error _ then
        let _ ← undo
      return result : Job (Except OsError Unit)).run s = (.error cause, u) := by
  rw [Job.run_bind, h]
  show (undo >>= fun _ => pure (Except.error cause) : Job (Except OsError Unit)).run t = _
  rw [Job.run_bind, hundo]
  rfl

/-- Publishing puts the artifact in its place, or leaves the files as they are. -/
theorem ends_publish (hext : Settings.isExtension c.extension = true) (p : Path) (text : String)
    (s : Store) : (c.publish p (c.artifactPath p) text).Ends s
      (fun _ t => ∃ made, t.find (c.artifactPath p) = .ok (.file (.ofText text) made))
      (Spared p s) := by
  cases htemp : s.createTemp c.dir with
  | error cause =>
    exact ends_of_error (run_bind_of_error (run_orCompileError_of_error
      ((Job.run_perform _).trans (Store.perform_createTemp_error htemp)))) (spared_file .refl)
  | ok r =>
    obtain ⟨temp, s₁⟩ := r
    obtain ⟨s₂, v, hsave, hfind, hdrop, hsame⟩ := Store.save_new htemp (.ofText text)
    refine ends_bind_of_ok (run_orCompileError_of_ok
      ((Job.run_perform _).trans (Store.perform_createTemp htemp))) ?_
    refine ends_bind_of_ok (run_orCompileError_of_ok (run_cleanUp
      ((Job.run_perform _).trans (Store.perform_write hsave)))) ?_
    rcases Store.changed_cases (s := s₂) (s₂.move temp (c.artifactPath p)) with
      ⟨t, hmove, hmoved⟩ | ⟨cause, hkept⟩
    · obtain ⟨contents, made, hbefore, hartifact⟩ :=
        Store.find_of_move hmove (getLast?_artifactPath hext)
      rw [hfind] at hbefore
      cases hbefore
      exact ends_of_ok (run_orCompileError_of_ok (run_cleanUp ((Job.run_perform _).trans hmoved)))
        ⟨_, hartifact⟩
    · have hremove : (Job.perform (.remove temp)).run s₂ = _ := congrArg s₂.changed hdrop
      exact ends_of_error (run_orCompileError_of_error (run_cleanUp_of_error
        ((Job.run_perform _).trans hkept) hremove)) (spared_file hsame)

/-- The actions that put a text in the place of an artifact succeed: one after another they lead
from the first store to the second. -/
def CanPublish (c : Cache) (p : Path) (text : String) (s t : Store) : Prop :=
  ∃ temp u v, s.perform (.createTemp c.dir) = ((.ok temp : Except OsError Path), u) ∧
    u.perform (.write temp text) = ((.ok () : Except OsError Unit), v) ∧
    v.perform (.rename temp (c.artifactPath p)) = ((.ok () : Except OsError Unit), t)

theorem CanPublish.run (h : c.CanPublish p text s t) :
    (c.publish p (c.artifactPath p) text).run.run s = (.ok (), t) := by
  obtain ⟨temp, u, v, htemp, hwrite, hrename⟩ := h
  refine (run_bind_of_ok (run_orCompileError_of_ok ((Job.run_perform _).trans htemp))).trans ?_
  refine (run_bind_of_ok (run_orCompileError_of_ok (run_cleanUp
    ((Job.run_perform _).trans hwrite)))).trans ?_
  exact run_orCompileError_of_ok (run_cleanUp ((Job.run_perform _).trans hrename))

theorem ends_settleTime (hext : Settings.isExtension c.extension = true) {contents : Contents}
    {made : Time} (hfind : s.find (c.artifactPath p) = .ok (.file contents made)) :
    (settleTime p (c.artifactPath p) time).Ends s
      (fun _ t => ∃ made, t.find (c.artifactPath p) = .ok (.file contents made))
      (fun _ _ => False) := by
  have hask : (Attempt.ask (.modified (c.artifactPath p))).run.run s =
      (.ok (.ok made : Except OsError Time), s) := by
    rw [Attempt.ask, run_lift, Job.run_perform, Store.perform_modified hfind]
  refine ends_bind_of_ok hask ?_
  dsimp only
  split
  · obtain ⟨l, hlocate, hentry⟩ := Store.find_ok.mp hfind
    have htouch : s.touch (c.artifactPath p) time = _ := Store.touch_of_find hfind
    rw [Store.location_of_locate hlocate] at htouch
    exact ends_of_ok (run_orCompileError_of_ok
        ((Job.run_perform _).trans (Store.perform_setModified htouch)))
      ⟨_, Store.find_put hlocate (by simp [hentry]) (getLast?_artifactPath hext)⟩
  · exact ends_of_ok rfl ⟨made, hfind⟩

theorem run_describe_of_find {contents : Contents} {made : Time} {recompiled : Bool}
    (hfind : s.find (c.artifactPath p) = .ok (.file contents made)) :
    (c.describe p time recompiled).run.run s =
      (.ok ⟨c.key p, c.artifactPath p, time, made, recompiled⟩, s) :=
  run_bind_of_ok (run_orCompileError_of_ok
    ((Job.run_perform _).trans (Store.perform_modified hfind)))

/-- What a compilation that succeeds leaves: the store as it was, whose artifact is fresh, or a new
artifact whose text is one that the compilation can give. -/
def Served (c : Cache) (p : Path) (C : String → Prop) (s : Store) (r : Compiled) (t : Store) :
    Prop :=
  r.artifact = c.artifactPath p ∧
    (r.recompiled = false ∧ t = s ∧ (c.isFresh p).run.run s = (.ok true, s) ∨
      r.recompiled = true ∧ ∃ text, C text ∧
        t.find r.artifact = .ok (.file (.ofText text) r.artifactTime))

variable {C : String → Prop}

theorem run_lift_upToDate :
    (ExceptT.lift (upToDate time (c.artifactPath p)) : Attempt Bool).run.run s =
      (.ok (c.fresh p time s), s) := by
  rw [run_lift, run_upToDate_find]

theorem run_isFresh_of_time (hstat : (sourceTime p).run.run s = (.ok time, s)) :
    (c.isFresh p).run.run s = (.ok (c.fresh p time s), s) :=
  (run_bind_of_ok hstat).trans run_lift_upToDate

theorem ends_describe_of_fresh (hstat : (sourceTime p).run.run s = (.ok time, s))
    (h : c.fresh p time s = true) :
    (c.describe p time false).Ends s (c.Served p C s) (Spared p s) := by
  have hfresh : (c.isFresh p).run.run s = (.ok true, s) := by
    rw [run_isFresh_of_time hstat, h]
  obtain ⟨contents, made, hfind, -⟩ := fresh_iff.1 h
  exact ends_of_ok (run_describe_of_find hfind) ⟨rfl, .inl ⟨rfl, rfl, hfresh⟩⟩

theorem ends_createDirs (p dir : Path) (s : Store) :
    (Attempt.orCompileError p "cannot create cache directory"
      (Job.perform (.createDirs dir))).Ends s (fun _ u => s.Grows u) (Spared p s) := by
  have hgrows : s.Grows (s.perform (.createDirs dir)).2 := Store.grows_createDirs ..
  cases hdirs : s.perform (.createDirs dir) with
  | mk r u =>
    rw [hdirs] at hgrows
    cases r with
    | error cause =>
      exact ends_of_error (run_orCompileError_of_error ((Job.run_perform _).trans hdirs))
        (spared_file hgrows.sameFiles)
    | ok a => exact ends_of_ok (run_orCompileError_of_ok ((Job.run_perform _).trans hdirs)) hgrows

/-- Making an artifact anew, by a step that only reads and whose errors are those of the
template. -/
theorem ends_recompile (hext : Settings.isExtension c.extension = true)
    (hstat : (sourceTime p).run.run s = (.ok time, s))
    (hcompile : ∀ u, s.Grows u → (compile p).Ends u (fun text v => v = u ∧ C text)
      (fun error v => v = u ∧ ∃ fault, error = .compile p fault)) :
    (c.recompile compile p time).Ends s (c.Served p C s) (Spared p s) := by
  refine ends_bind_of_ok run_lift_upToDate ?_
  split
  · rename_i hfresh
    exact ends_describe_of_fresh hstat hfresh
  · refine (ends_createDirs p c.dir s).bind fun _ u hu => ?_
    refine ((hcompile u hu).mono (fun _ _ h => h) fun error v h => ?_).bind fun text v h => ?_
    · exact ⟨h.1 ▸ hu.sameFiles, h.2⟩
    · obtain ⟨rfl, hC⟩ := h
      refine ((ends_publish hext p text v).mono (fun _ _ h => h) fun error t h =>
        h.of_same hu.sameFiles).bind fun _ t ht => ?_
      obtain ⟨made, ht⟩ := ht
      refine ((ends_settleTime hext ht).mono (fun _ _ h => h) fun _ _ h => h.elim).bind
        fun _ w hw => ?_
      obtain ⟨made', hw⟩ := hw
      exact ends_of_ok (run_describe_of_find hw) ⟨rfl, .inr ⟨rfl, text, hC, hw⟩⟩

theorem ends_sourceTime (p : Path) (s : Store) :
    (sourceTime p).Ends s (fun time t => t = s ∧ (sourceTime p).run.run s = (.ok time, s) ∧
      ∃ entry, s.find p = .ok entry) (Spared p s) := by
  cases hfind : s.find p with
  | error cause => exact ends_of_error (run_sourceTime_missing hfind) (spared_file .refl)
  | ok entry =>
    obtain ⟨time, hstat⟩ : ∃ time, (sourceTime p).run.run s = (.ok time, s) := by
      cases entry with
      | directory => exact ⟨_, run_sourceTime (Store.perform_modified_directory hfind)⟩
      | file source time => exact ⟨_, run_sourceTime (Store.perform_modified hfind)⟩
    exact ends_of_ok hstat ⟨rfl, hstat, entry, rfl⟩

theorem Ends.locked {α : Type} {x : Attempt α} {P : α → Store → Prop}
    {E : TemplateError → Store → Prop} (h : x.Ends s P E) (key : String) :
    (locked key x).Ends s P E := by
  refine ⟨fun hrun => ?_, fun hrun => ?_⟩ <;> rw [run_locked] at hrun
  · exact h.ok hrun
  · exact h.error hrun

/-- The artifact of a template on any store, by a compilation that only reads. -/
theorem ends_getOrCompile (hext : Settings.isExtension c.extension = true)
    (hcompile : ∀ entry, s.find p = .ok entry → ∀ u, s.Grows u →
      (compile p).Ends u (fun text v => v = u ∧ C text)
        (fun error v => v = u ∧ ∃ fault, error = .compile p fault)) :
    (c.getOrCompile compile p).Ends s (c.Served p C s) (Spared p s) := by
  refine (ends_sourceTime p s).bind fun time u hu => ?_
  obtain ⟨rfl, hstat, entry, hfind⟩ := hu
  refine ends_bind_of_ok run_lift_upToDate ?_
  split
  · rename_i hfresh
    exact ends_describe_of_fresh hstat hfresh
  · exact Ends.locked (ends_recompile hext hstat (hcompile entry hfind)) _

theorem run_getOrCompile_of_notUpToDate
    (hstat : s.perform (.modified p) = ((.ok time : Except OsError Time), s))
    (hstale : (upToDate time (c.artifactPath p)).run s = (false, s))
    (hdirs : s.perform (.createDirs c.dir) = ((.ok () : Except OsError Unit), u)) :
    (c.getOrCompile compile p).run.run s = (do
      let text ← compile p
      c.publish p (c.artifactPath p) text
      settleTime p (c.artifactPath p) time
      c.describe p time true : Attempt Compiled).run.run u := by
  have hcheck : (ExceptT.lift (upToDate time (c.artifactPath p)) : Attempt Bool).run.run s =
      (.ok false, s) := by
    rw [run_lift, hstale]
  refine (run_bind_of_ok (run_sourceTime hstat)).trans ?_
  refine (run_bind_of_ok hcheck).trans ((run_locked _ _).trans ?_)
  -- the check is made again behind the lock, on the same files
  refine (run_bind_of_ok hcheck).trans ?_
  exact run_bind_of_ok (run_orCompileError_of_ok ((Job.run_perform _).trans hdirs))

/-- The actions behind the compile step make the artifact. -/
theorem ends_made (hext : Settings.isExtension c.extension = true)
    (hpublish : c.CanPublish p text s t) : (do
      c.publish p (c.artifactPath p) text
      settleTime p (c.artifactPath p) time
      c.describe p time true : Attempt Compiled).Ends s (fun r _ => r.recompiled = true)
        fun _ _ => False := by
  obtain ⟨made, hfind⟩ := (ends_publish hext p text s).ok hpublish.run
  apply ends_bind_of_ok hpublish.run
  apply (ends_settleTime hext hfind).bind
  intro _ u hsettled
  obtain ⟨made', hfind'⟩ := hsettled
  exact ends_of_ok (run_describe_of_find hfind') rfl

end Cache

namespace Engine

variable {e : Engine} {time : Time}

/-- Why a template is not compiled: its file cannot be read or is no text, a rule fails, or the code
that is generated is no program. -/
inductive NotCompiled (e : Engine) (s : Store) (p : Path) : CompileFault → Prop where
  | unreadable {cause : OsError}
      (hread : s.perform (.readText p) = ((.error cause : Except OsError String), s)) :
      NotCompiled e s p (.file "cannot read template" cause)
  | rule {source : String} {fault : CompileFault}
      (hread : s.perform (.readText p) = ((.ok source : Except OsError String), s))
      (hgenerate : Directive.generate e.settings.delimiters source = .error fault) :
      NotCompiled e s p fault
  | code {source code : String} {g : Directive.Generated} {fault : Code.SyntaxError}
      (hread : s.perform (.readText p) = ((.ok source : Except OsError String), s))
      (hgenerate : Directive.generate e.settings.delimiters source = .ok g)
      (hcode : Artifact.code g.text p = .ok code)
      (hparse : Code.Program.parse code = .error fault) :
      NotCompiled e s p (.invalidCode fault)

/-- What is compiled: a text is read, an artifact generated from it, and its code is a program. -/
structure IsCompiled (e : Engine) (s : Store) (p : Path) (source : String) (g : Directive.Generated)
    (code : String) (program : Code.Program) : Prop where
  read : s.perform (.readText p) = ((.ok source : Except OsError String), s)
  generate : Directive.generate e.settings.delimiters source = .ok g
  header : ∀ q, Artifact.code g.text q = .ok code
  parse : Code.Program.parse code = .ok program

theorem code_of_generate {d : Delimiters} {source : String} {g : Directive.Generated}
    (h : Directive.generate d source = .ok g) : ∃ code, ∀ q, Artifact.code g.text q = .ok code := by
  unfold Directive.generate at h
  cases hrules : Directive.applyRules (Directive.rules d) source.toList with
  | error fault =>
    rw [hrules] at h
    cases h
  | ok code =>
    rw [hrules] at h
    cases h
    exact ⟨_, Artifact.code_ofCode⟩

theorem program_of_code {text code : String} (h : Artifact.code text p = .ok code) :
    Artifact.program text p = match Code.Program.parse code with
      | .ok program => .ok program
      | .error fault => .error (.compile p (.invalidCode fault)) := by
  rw [Artifact.program, h]
  rfl

theorem IsCompiled.program {source code : String} {g : Directive.Generated} {program : Code.Program}
    (h : e.IsCompiled s p source g code program) (q : Path) :
    Artifact.program g.text q = .ok program := by
  rw [program_of_code (h.header q), h.parse]

theorem run_compileText_of_read {source : String}
    (hread : s.perform (.readText p) = ((.ok source : Except OsError String), s)) :
    (e.compileText p).run.run s =
      match Directive.generate e.settings.delimiters source with
      | .error fault => (.error (.compile p fault), s)
      | .ok g => ((Artifact.program g.text p).map fun _ => g.text, s) := by
  have htext : (orCompileError p "cannot read template" (Job.perform (.readText p))).run.run s =
      (.ok source, s) := run_orCompileError_of_ok ((Job.run_perform _).trans hread)
  have hfile : (e.generateFile p).run.run s =
      ((Directive.generate e.settings.delimiters source).mapError (.compile p), s) := by
    refine (run_bind_of_ok htext).trans ?_
    cases Directive.generate e.settings.delimiters source <;> rfl
  cases hg : Directive.generate e.settings.delimiters source with
  | error fault =>
    rw [hg] at hfile
    exact run_bind_of_error hfile
  | ok g =>
    rw [hg] at hfile
    refine (run_bind_of_ok hfile).trans ?_
    dsimp only
    cases Artifact.program g.text p <;> rfl

theorem IsCompiled.run {source code : String} {g : Directive.Generated} {program : Code.Program}
    (h : e.IsCompiled s p source g code program) :
    (e.compileText p).run.run s = (.ok g.text, s) := by
  rw [run_compileText_of_read h.read, h.generate]
  dsimp only
  rw [h.program p]
  rfl

theorem NotCompiled.run {fault : CompileFault} (h : e.NotCompiled s p fault) :
    (e.compileText p).run.run s = (.error (.compile p fault), s) := by
  cases h with
  | unreadable hread => exact run_readText_of_error hread
  | rule hread hgenerate => rw [run_compileText_of_read hread, hgenerate]
  | code hread hgenerate hcode hparse =>
    rw [run_compileText_of_read hread, hgenerate]
    dsimp only
    rw [program_of_code hcode, hparse]
    rfl

theorem compiled_or_not (e : Engine) (s : Store) (p : Path) :
    (∃ source g code program, e.IsCompiled s p source g code program) ∨
      ∃ fault, e.NotCompiled s p fault := by
  have hsame : (s.perform (.readText p)).2 = s := Store.perform_reading rfl
  cases hread : s.perform (.readText p) with
  | mk r t =>
    rw [hread] at hsame
    subst hsame
    cases r with
    | error cause => exact .inr ⟨_, .unreadable hread⟩
    | ok source =>
      cases hg : Directive.generate e.settings.delimiters source with
      | error fault => exact .inr ⟨_, .rule hread hg⟩
      | ok g =>
        obtain ⟨code, hcode⟩ := code_of_generate hg
        cases hparse : Code.Program.parse code with
        | error fault => exact .inr ⟨_, .code hread hg (hcode p) hparse⟩
        | ok program => exact .inl ⟨source, g, code, program, hread, hg, hcode, hparse⟩

/-- Nothing but the way to the template matters for what is compiled. -/
theorem IsCompiled.of_find {source code : String} {g : Directive.Generated} {program : Code.Program}
    (h : e.IsCompiled u p source g code program) (hfind : s.find p = u.find p) :
    e.IsCompiled s p source g code program := by
  refine { h with read := ?_ }
  have hread := congrArg Prod.fst h.read
  simp only [Store.perform, ← hfind] at hread
  exact Prod.ext hread rfl

theorem ends_compilePath (hext : Settings.isExtension e.settings.extension = true) (p : Path)
    (s : Store) : (e.compilePath p).Ends s
      (e.cache.Served p (fun text => ∃ source g code program,
        e.IsCompiled s p source g code program ∧ g.text = text) s) (Spared p s) := by
  refine Cache.ends_getOrCompile hext fun entry hfind u hu => ?_
  rcases compiled_or_not e u p with ⟨source, g, code, program, h⟩ | ⟨fault, h⟩
  · refine ends_of_ok h.run ⟨rfl, source, g, code, program, h.of_find ?_, rfl⟩
    rw [hfind, hu.find hfind]
  · exact ends_of_error h.run ⟨rfl, fault, rfl⟩

theorem run_compilePath_of_notCompiled {fault : CompileFault}
    (hstat : s.perform (.modified p) = ((.ok time : Except OsError Time), s))
    (hstale : (Cache.upToDate time (e.cache.artifactPath p)).run s = (false, s))
    (hdirs : s.perform (.createDirs e.cache.dir) = ((.ok () : Except OsError Unit), u))
    (hfault : e.NotCompiled u p fault) :
    (e.compilePath p).run.run s = (.error (.compile p fault), u) := by
  rw [compilePath, Cache.run_getOrCompile_of_notUpToDate hstat hstale hdirs]
  exact run_bind_of_error hfault.run

/-- A stale artifact is made anew when the compile step and the actions on files succeed. -/
theorem run_compilePath_of_isCompiled (hext : Settings.isExtension e.settings.extension = true)
    {source code : String} {g : Directive.Generated} {program : Code.Program}
    (hstat : s.perform (.modified p) = ((.ok time : Except OsError Time), s))
    (hstale : (Cache.upToDate time (e.cache.artifactPath p)).run s = (false, s))
    (hdirs : s.perform (.createDirs e.cache.dir) = ((.ok () : Except OsError Unit), u))
    (hcompiled : e.IsCompiled u p source g code program)
    (hpublish : e.cache.CanPublish p g.text u t) :
    ∃ r v, (e.compilePath p).run.run s = (.ok r, v) ∧ r.recompiled = true := by
  rw [compilePath, Cache.run_getOrCompile_of_notUpToDate hstat hstale hdirs,
    run_bind_of_ok hcompiled.run]
  exact (Cache.ends_made hext hpublish).succeeds

theorem accepts_iff_code {text : String} (q : Path) :
    (Contents.ofText text).firstLine?.any Artifact.isCurrentHeader = true ↔
      ∃ code, Artifact.code text q = .ok code := by
  rw [Contents.firstLine?_ofText, Artifact.code]
  cases hheader : Artifact.isCurrentHeader (Artifact.firstLine text.toList) <;> simp [hheader]

theorem eq_ofText_of_text? {contents : Contents} {text : String} (h : contents.text? = some text) :
    contents = .ofText text := by
  obtain ⟨start, broken⟩ := contents
  unfold Contents.text? at h
  split at h
  · rename_i hempty
    obtain rfl : broken = [] := List.isEmpty_iff.1 hempty
    cases h
    simp [Contents.ofText]
  · cases h

theorem ends_isFresh (c : Cache) (p : Path) (s : Store) :
    (c.isFresh p).Ends s (fun fresh t => t = s ∧ ∃ time, fresh = c.fresh p time s)
    (Spared p s) := by
  refine (Cache.ends_sourceTime p s).bind fun time t ht => ?_
  obtain ⟨rfl, -⟩ := ht
  exact ends_of_ok Cache.run_lift_upToDate ⟨rfl, time, rfl⟩

theorem load_of_isFresh (hfresh : (e.cache.isFresh p).run.run s = (.ok true, t)) (q : Path) :
    (load (e.cache.artifactPath p)).Ends t (fun _ _ => True)
      (fun error _ => error ≠ .render q .foreignArtifact) := by
  obtain ⟨rfl, time, htime⟩ := (ends_isFresh e.cache p s).ok hfresh
  obtain ⟨contents, made, hfind, -, hheader⟩ := Cache.fresh_iff.1 htime.symm
  cases htext : contents.text? with
  | none =>
    exact ends_of_error (run_bind_of_error (run_orCompileError_of_error
      ((Job.run_perform _).trans (Store.perform_readText_invalid hfind htext)))) (by simp)
  | some text =>
    rw [eq_ofText_of_text? htext] at hfind hheader
    obtain ⟨code, hcode⟩ := (accepts_iff_code (e.cache.artifactPath p)).1 hheader
    have hload := run_load hfind
    rw [program_of_code hcode] at hload
    cases hparse : Code.Program.parse code with
    | ok program =>
      rw [hparse] at hload
      exact ends_of_ok hload trivial
    | error fault =>
      rw [hparse] at hload
      exact ends_of_error hload (by simp)

/-- A compilation that fails leaves every file as it was, and its error names the template; it fails
whenever its compile step does, be it that the template cannot be read or is no text, that a rule
fails or that the generated code is no program. An artifact that is made holds the text that is
generated from the template, which has the header of the engine, and loads as the program of its
code. None is made only if the one that is there is fresh, and then nothing changes; a stale one is
made anew when the compile step and the actions on files succeed. The test of the header accepts the
texts that the guard lets through, those that begin with the header line, so an artifact that is
called fresh is not refused. -/
theorem compilePath_intact (e : Engine) (hext : Settings.isExtension e.settings.extension = true)
    (s : Store) (p : Path) :
    (∀ error t, (e.compilePath p).run.run s = (.error error, t) →
      s.SameFiles t ∧ ∃ fault, error = .compile p fault) ∧
    (∀ time u fault, s.perform (.modified p) = ((.ok time : Except OsError Time), s) →
      (Cache.upToDate time (e.cache.artifactPath p)).run s = (false, s) →
      s.perform (.createDirs e.cache.dir) = ((.ok () : Except OsError Unit), u) →
      e.NotCompiled u p fault → (e.compilePath p).run.run s = (.error (.compile p fault), u)) ∧
    (∀ r t, (e.compilePath p).run.run s = (.ok r, t) → r.recompiled = true →
      ∃ source g code program, e.IsCompiled s p source g code program ∧
        t.find r.artifact = .ok (.file (.ofText g.text) r.artifactTime) ∧
        (load r.artifact).run.run t = (.ok program, t)) ∧
    (∀ r t, (e.compilePath p).run.run s = (.ok r, t) → r.recompiled = false →
      t = s ∧ r.artifact = e.cache.artifactPath p ∧
        (e.cache.isFresh p).run.run s = (.ok true, s)) ∧
    (∀ time u v source g code program, s.perform (.modified p) =
      ((.ok time : Except OsError Time), s) →
      (Cache.upToDate time (e.cache.artifactPath p)).run s = (false, s) →
      s.perform (.createDirs e.cache.dir) = ((.ok () : Except OsError Unit), u) →
      e.IsCompiled u p source g code program → e.cache.CanPublish p g.text u v →
      ∃ r t, (e.compilePath p).run.run s = (.ok r, t) ∧ r.recompiled = true) ∧
    (∀ text q, ((Contents.ofText text).firstLine?.any Artifact.isCurrentHeader = true ↔
        ∃ code, Artifact.code text q = .ok code) ∧
      ∀ code, Artifact.code text q = .ok code ↔
        ∃ n, text.toList = Artifact.header.toList ++ List.replicate n '\r' ∧ code = "" ∨
          text.toList = Artifact.header.toList ++ List.replicate n '\r' ++ '\n' :: code.toList) ∧
    ∀ t, (e.cache.isFresh p).run.run s = (.ok true, t) → ∀ error u q,
      (load (e.cache.artifactPath p)).run.run t = (.error error, u) →
        error ≠ .render q .foreignArtifact := by
  have hends := ends_compilePath hext p s
  refine ⟨fun error t => hends.error, fun time u fault => run_compilePath_of_notCompiled,
    fun r t hrun hnew => ?_, fun r t hrun hold => ?_,
    fun time u v source g code program => run_compilePath_of_isCompiled hext,
    fun text q => ⟨accepts_iff_code q, fun code => Artifact.code_ok_iff⟩,
    fun t hfresh error u q => (load_of_isFresh hfresh q).error⟩
  -- An artifact was made anew or found fresh, and the result says which.
  · obtain ⟨-, ⟨hold, -⟩ | ⟨-, text, ⟨source, g, code, program, h, rfl⟩, hfind⟩⟩ := hends.ok hrun
    · rw [hnew] at hold
      cases hold
    · exact ⟨source, g, code, program, h, hfind, (run_load hfind).trans (by rw [h.program])⟩
  · obtain ⟨hartifact, ⟨-, hsame, hfresh⟩ | ⟨hnew, -⟩⟩ := hends.ok hrun
    · exact ⟨hsame, hartifact, hfresh⟩
    · rw [hold] at hnew
      cases hnew

/-- Of two templates the block of one is left open. It is not compiled; the other one is, and its
artifact loads. -/
theorem compilePath_intact_of_open_block :
    let e : Engine := ⟨{ Settings.standard with templateDir := ⟨"views"⟩, cacheDir := ⟨"cache"⟩ },
      Run.builtins, ⟨"/site"⟩, 9⟩
    let p : Path := ⟨"views/a.tpl"⟩
    let q : Path := ⟨"views/b.tpl"⟩
    let s : Store := ⟨[(["site"], .directory), (["site", "views"], .directory),
      (["site", "views", "a.tpl"], .file (.ofText "{if $x}open") 5),
      (["site", "views", "b.tpl"], .file (.ofText "{if $x}closed{/if}") 5)], ["site"], 7⟩
    Settings.isExtension e.settings.extension = true ∧
      (∃ fault t, (e.compilePath p).run.run s = (.error (.compile p fault), t) ∧ s.SameFiles t) ∧
      ∃ r t program, (e.compilePath q).run.run s = (.ok r, t) ∧ r.recompiled = true ∧
        (load r.artifact).run.run t = (.ok program, t) := by
  intro e p q s
  have hext : Settings.isExtension e.settings.extension = true := by decide
  refine ⟨hext, ?_, ?_⟩
  · have hfails : ((e.compilePath p).run.run s).1.isOk = false := by decide +kernel
    cases hrun : (e.compilePath p).run.run s with
    | mk r t =>
      rw [hrun] at hfails
      cases r with
      | ok r => cases hfails
      | error error =>
        obtain ⟨hsame, fault, rfl⟩ := (compilePath_intact e hext s p).1 error t hrun
        exact ⟨fault, t, rfl, hsame⟩
  · have hmade : ((e.compilePath q).run.run s).1.toOption.map Compiled.recompiled = some true := by
      decide +kernel
    cases hrun : (e.compilePath q).run.run s with
    | mk r t =>
      rw [hrun] at hmade
      cases r with
      | error error => cases hmade
      | ok r =>
        have hnew : r.recompiled = true := Option.some.inj hmade
        obtain ⟨-, -, -, program, -, -, hload⟩ :=
          (compilePath_intact e hext s q).2.2.1 r t hrun hnew
        exact ⟨r, t, program, rfl, hnew, hload⟩

end Engine

end ViewTemplate
