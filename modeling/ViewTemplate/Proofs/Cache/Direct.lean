import ViewTemplate.Proofs.Cache.Current
import ViewTemplate.Proofs.Run.Related

namespace ViewTemplate

open Code

namespace Engine

/-- The program of the template at `source`, made from what it holds now. -/
def programDirect (e : Engine) (source : Path) : Attempt Program := do
  Attempt.ofExcept (Artifact.program (← e.compileText source) source)

def includeDirect (e : Engine) (name : String) : Attempt (Path × Program) := do
  let source ← e.locate name
  return (source, ← e.programDirect source)

def directHost (e : Engine) : Run.Host Job :=
  { e.host with load := fun name => (e.includeDirect name).run }

def executeDirect (e : Engine) (source : Path) (scope : Entries Value) : Job Run.Outcome := do
  match ← (e.programDirect source).run with
  | .ok program => Run.execute e.directHost scope program source
  | .error error => return ⟨.error (.failed error), []⟩

def renderDirect (e : Engine) (scope : Entries Value) (request : Request) : Job Run.Outcome := do
  match ← (e.bind request.view request.layout request.route).run with
  | .error error => return ⟨.error (.failed error), []⟩
  | .ok binding =>
    let contentFile := if binding.layoutPath.isSome then binding.content.text else ""
    e.executeDirect binding.primary (← e.withMetadata scope contentFile request.isPartial)

def renderFileDirect (e : Engine) (scope : Entries Value) (path : Path) : Job Run.Outcome := do
  e.executeDirect path (← e.withMetadata scope "" false)

variable {e : Engine} {A : Path → Prop} {s t : Store} {α β : Type} {p : Path}

/-- What an engine without cache may ask for: it looks for files away from the artifacts, and reads
templates. -/
def Admits (e : Engine) (A : Path → Prop) (home : Location) : Action → Prop
  | .isFile p => ∀ q, p.location home ≠ e.cache.place home q
  | .readText p => e.IsSource A p
  | _ => True

/-- A store that differs from another at the places of artifacts at most. -/
structure Beside (e : Engine) (t s : Store) : Prop where
  workingDir : s.workingDir = t.workingDir
  clock : s.clock = t.clock
  elsewhere : ∀ l, (∀ q, l ≠ e.cache.place t.workingDir q) → s.entryAt? l = t.entryAt? l

namespace Beside

theorem refl : e.Beside s s := ⟨rfl, rfl, fun _ _ => rfl⟩

theorem trans_onlyAt {u : Store} {q : Path} (h : e.Beside t s)
    (hu : s.OnlyAt (e.cache.place s.workingDir q) u) : e.Beside t u := by
  refine ⟨hu.workingDir.trans h.workingDir, hu.clock.trans h.clock, fun l hl => ?_⟩
  rw [hu.elsewhere l (h.workingDir ▸ hl q), h.elsewhere l hl]

theorem sameDirectories (h : e.Beside t s) (hs : e.cache.Ready s) (ht : e.cache.Ready t) :
    Store.SameDirectories t s := by
  refine ⟨h.workingDir, fun l => ?_⟩
  by_cases hl : ∃ q, l = e.cache.place t.workingDir q
  · obtain ⟨q, rfl⟩ := hl
    exact ⟨fun hdir => absurd hdir (h.workingDir ▸ hs.place q),
      fun hdir => absurd hdir (ht.place q)⟩
  · rw [h.elsewhere l fun q hq => hl ⟨q, hq⟩]

theorem find_iff {entry : FileEntry} (h : e.Beside t s) (hs : e.cache.Ready s)
    (ht : e.cache.Ready t) (hp : ∀ q, p.location t.workingDir ≠ e.cache.place t.workingDir q) :
    s.find p = .ok entry ↔ t.find p = .ok entry := by
  have hdirs := h.sameDirectories hs ht
  have hsame := h.elsewhere _ hp
  exact ⟨hdirs.symm.find (h.workingDir ▸ hsame.symm), hdirs.find hsame⟩

end Beside

/-- What the first job does on a store with artifacts, the second answers on a store that it does
not change. -/
def Serves (e : Engine) (A : Path → Prop) (t : Store) (x y : Job α) : Prop :=
  ∀ s, e.Current A s → e.Beside t s → (∀ action ∈ y.asks t, e.Admits A t.workingDir action) →
    (y.run t).2 = t ∧ ∃ s', x.run s = ((y.run t).1, s') ∧ e.Current A s' ∧ e.Beside t s'

namespace Serves

theorem pure (a : α) : e.Serves A t (pure a : Job α) (Pure.pure a) :=
  fun s hs ht _ => ⟨rfl, s, rfl, hs, ht⟩

theorem bind {x y : Job α} {f g : α → Job β} (h : e.Serves A t x y)
    (hf : ∀ a, y.run t = (a, t) → e.Serves A t (f a) (g a)) :
    e.Serves A t (x >>= f) (y >>= g) := by
  intro s hs ht hasks
  rw [Job.asks_bind] at hasks
  obtain ⟨hstay, u, hx, hu, hut⟩ :=
    h s hs ht fun action ha => hasks action (List.mem_append_left _ ha)
  rw [hstay] at hasks
  obtain ⟨hstay', v, hfa, hv, hvt⟩ := hf _ (Prod.ext rfl hstay) u hu hut fun action ha =>
    hasks action (List.mem_append_right _ ha)
  rw [Job.run_bind, Job.run_bind, hx, hstay]
  exact ⟨hstay', v, hfa, hv, hvt⟩

theorem attempt_bind {x y : Attempt α} {f g : α → Attempt β} (h : e.Serves A t x.run y.run)
    (hf : ∀ a, y.run.run t = (.ok a, t) → e.Serves A t (f a).run (g a).run) :
    e.Serves A t (x >>= f).run (y >>= g).run := by
  show e.Serves A t (x.run >>= ExceptT.bindCont f) (y.run >>= ExceptT.bindCont g)
  refine h.bind fun r hr => ?_
  cases r with
  | error error => exact .pure _
  | ok a => exact hf a hr

theorem lift {x y : Job α} (h : e.Serves A t x y) :
    e.Serves A t (ExceptT.lift x : Attempt α).run (ExceptT.lift y : Attempt α).run :=
  h.bind fun _ _ => .pure _

theorem now : e.Serves A t (Job.perform .now) (Job.perform .now) := by
  intro s hs ht _
  refine ⟨rfl, s, ?_, hs, ht⟩
  show (s.clock, s) = (t.clock, s)
  rw [ht.clock]

theorem isFile (hready : e.cache.Ready t) (p : Path) :
    e.Serves A t (Job.perform (.isFile p)) (Job.perform (.isFile p)) := by
  intro s hs ht hasks
  have hp : ∀ q, p.location t.workingDir ≠ e.cache.place t.workingDir q :=
    hasks (.isFile p) List.mem_cons_self
  have hiff : ∀ entry, s.find p = .ok entry ↔ t.find p = .ok entry :=
    fun _ => ht.find_iff hs.ready hready hp
  have hsame : (s.perform (.isFile p)).1 = (t.perform (.isFile p)).1 := by
    simp only [Store.perform]
    cases hfind : t.find p with
    | ok entry => rw [(hiff entry).mpr hfind]
    | error cause =>
      cases hfind' : s.find p with
      | ok entry => cases hfind.symm.trans ((hiff entry).mp hfind')
      | error cause' => rfl
  exact ⟨rfl, s, congrArg (·, s) hsame, hs, ht⟩

end Serves

section Finding

theorem run_firstFile_cons {q : Path} {rest : List Path} {isThere : Bool}
    (h : t.perform (.isFile q) = (isThere, t)) : (Resolver.firstFile (q :: rest)).run t =
      if isThere then (some q, t) else (Resolver.firstFile rest).run t := by
  show ((fun isThere : Bool => if isThere then pure (some q) else Resolver.firstFile rest)
    (t.perform (.isFile q)).1).run (t.perform (.isFile q)).2 = _
  rw [h]
  cases isThere <;> rfl

theorem run_firstFile (ps : List Path) : ((Resolver.firstFile ps).run t).2 = t ∧
    ∀ p, ((Resolver.firstFile ps).run t).1 = some p →
      ∃ source time, t.find p = .ok (.file source time) := by
  induction ps with
  | nil => exact ⟨rfl, fun p h => nomatch h⟩
  | cons q rest ih =>
    cases hfind : t.find q with
    | error cause =>
      rw [run_firstFile_cons (Store.perform_isFile_missing hfind)]
      exact ih
    | ok entry =>
      cases entry with
      | directory =>
        rw [run_firstFile_cons (Store.perform_isFile_directory hfind)]
        exact ih
      | file source time =>
        rw [run_firstFile_cons (Store.perform_isFile hfind)]
        refine ⟨rfl, fun p hp => ?_⟩
        cases hp
        exact ⟨source, time, hfind⟩

theorem serves_firstFile (ht : e.cache.Ready t) (ps : List Path) :
    e.Serves A t (Resolver.firstFile ps) (Resolver.firstFile ps) := by
  induction ps with
  | nil => exact .pure _
  | cons q rest ih =>
    refine Serves.bind (.isFile ht q) fun isThere _ => ?_
    cases isThere with
    | true => exact .pure _
    | false => exact ih

/-- The first of some paths that is a file, which is what resolvers answer. -/
def firstOr (tried : List Path) (error : TemplateError) : Attempt Path := do
  match ← ExceptT.lift (Resolver.firstFile tried) with
  | some p => return p
  | none => throw error

theorem serves_firstOr (ht : e.cache.Ready t) (tried : List Path) (error : TemplateError) :
    e.Serves A t (firstOr tried error).run (firstOr tried error).run := by
  refine Serves.attempt_bind (Serves.lift (serves_firstFile ht tried)) fun found _ => ?_
  cases found <;> exact .pure _

theorem find_of_firstOr {tried : List Path} {error : TemplateError} {u : Store}
    (h : (firstOr tried error).run.run t = (.ok p, u)) :
    u = t ∧ ∃ source time, t.find p = .ok (.file source time) := by
  obtain ⟨found, v, hfound, h⟩ := Attempt.exists_of_run_bind h
  rw [Attempt.run_lift, (run_firstFile tried).1] at hfound
  cases hfound
  cases hsome : ((Resolver.firstFile tried).run t).1 with
  | none =>
    rw [hsome] at h
    cases h
  | some q =>
    rw [hsome] at h
    cases h
    exact ⟨rfl, (run_firstFile tried).2 p hsome⟩

theorem locate_eq (name : String) : e.locate name =
    firstOr (Resolver.includeCandidates e.settings.templateDir name)
      (.notFound name (Resolver.includeCandidates e.settings.templateDir name)) := rfl

theorem resolve_eq (name : String) (route : Option Route) : e.resolve name route =
    firstOr (Resolver.candidates e.settings.templateDir name route)
      (.notFound (Resolver.viewName name route)
        (Resolver.candidates e.settings.templateDir name route)) := rfl

theorem bind_eq (view : String) (layout : Option String) (route : Option Route) :
    e.bind view layout route =
      if layout = some view then throw (.layoutConflict ⟨view⟩)
      else e.resolve view route >>= fun content =>
        match layout with
        | none => pure ⟨view, none, content, none⟩
        | some name => e.resolve name route >>= fun path =>
          if path.sameAs content then throw (.layoutConflict path)
          else pure ⟨view, some name, content, some path⟩ := by
  unfold Engine.bind
  cases layout with
  | none => rfl
  | some name =>
    dsimp only
    split
    · rfl
    · refine congrArg _ (funext fun content => congrArg _ (funext fun path => ?_))
      split <;> rfl

theorem serves_locate (ht : e.cache.Ready t) (name : String) :
    e.Serves A t (e.locate name).run (e.locate name).run := by
  rw [locate_eq]
  exact serves_firstOr ht _ _

theorem find_of_locate {name : String} {u : Store} (h : (e.locate name).run.run t = (.ok p, u)) :
    u = t ∧ ∃ source time, t.find p = .ok (.file source time) := by
  rw [locate_eq] at h
  exact find_of_firstOr h

theorem serves_bind (ht : e.cache.Ready t) (view : String) (layout : Option String)
    (route : Option Route) :
    e.Serves A t (e.bind view layout route).run (e.bind view layout route).run := by
  rw [bind_eq]
  split
  · exact .pure _
  · rw [resolve_eq]
    refine Serves.attempt_bind (serves_firstOr ht _ _) fun content _ => ?_
    cases layout with
    | none => exact .pure _
    | some name =>
      dsimp only
      rw [resolve_eq]
      refine Serves.attempt_bind (serves_firstOr ht _ _) fun path _ => ?_
      split <;> exact .pure _

theorem find_of_bind {view : String} {layout : Option String} {route : Option Route}
    {binding : Binding} {u : Store} (h : (e.bind view layout route).run.run t = (.ok binding, u)) :
    ∃ source time, t.find binding.primary = .ok (.file source time) := by
  rw [bind_eq] at h
  split at h
  · cases h
  · obtain ⟨content, v, hcontent, hrest⟩ := Attempt.exists_of_run_bind h
    rw [resolve_eq] at hcontent
    obtain ⟨rfl, hfile⟩ := find_of_firstOr hcontent
    cases layout with
    | none =>
      cases hrest
      exact hfile
    | some name =>
      obtain ⟨path, w, hpath, hlast⟩ := Attempt.exists_of_run_bind hrest
      rw [resolve_eq] at hpath
      obtain ⟨rfl, hfile⟩ := find_of_firstOr hpath
      split at hlast
      · cases hlast
      · cases hlast
        exact hfile

theorem serves_withMetadata (scope : Entries Value) (contentFile : String) (isPartial : Bool) :
    e.Serves A t (e.withMetadata scope contentFile isPartial)
      (e.withMetadata scope contentFile isPartial) := by
  refine Serves.bind ?_ fun _ _ => .pure _
  unfold assetVersion
  split
  · exact Serves.bind .now fun _ _ => .pure _
  · exact .pure _

end Finding

section Programs

variable {source : Contents} {time : Time} {text : String}

theorem run_load {made : Time} (h : s.find p = .ok (.file (.ofText text) made)) :
    (load p).run.run s = (Artifact.program text p, s) := by
  have hread : (Attempt.orCompileError p "cannot read artifact"
      (Job.perform (.readText p))).run.run s = (.ok text, s) :=
    Attempt.run_orCompileError_of_ok
      ((Job.run_perform _).trans (Store.perform_readText h (Contents.text?_ofText text)))
  exact Attempt.run_bind_of_ok hread

theorem run_programDirect_of_ok {program : Program} (h : t.find p = .ok (.file source time))
    (htext : e.textOf p source = .ok text) (hprogram : Artifact.program text p = .ok program) :
    (e.programDirect p).run.run t = (.ok program, t) := by
  have hcompile : (e.compileText p).run.run t = (.ok text, t) := htext ▸ run_compileText h
  refine (Attempt.run_bind_of_ok hcompile).trans ?_
  rw [hprogram]
  rfl

/-- The engine with artifacts serves the programs of templates. -/
theorem serves_programAt {entry : FileEntry} (ht : e.Current A t) (hfind : t.find p = .ok entry) :
    e.Serves A t (e.programAt p).run (e.programDirect p).run := by
  intro s hs hst hasks
  have hp : e.IsSource A p := hasks (.readText p) List.mem_cons_self
  have hfind' := (hst.find_iff hs.ready ht.ready fun _ => ht.sources.location_ne hp).mpr hfind
  cases entry with
  -- Neither engine reads a directory.
  | directory =>
    have hdirect : (e.programDirect p).run.run t = _ :=
      Attempt.run_bind_of_error (run_compileText_directory hfind)
    have hcached : (e.programAt p).run.run s = _ :=
      Attempt.run_bind_of_error (hs.run_compilePath_directory hp hfind')
    rw [hdirect, hcached]
    exact ⟨rfl, s, rfl, hs, hst⟩
  | file source time =>
    rcases hs.run_compilePath hp hfind' with ⟨error, htext, hrun⟩ |
      ⟨text, made, recompiled, u, htext, -, hrun, hsu, hu, hentry⟩
    · have hcompile : (e.compileText p).run.run t = (.error error, t) :=
        htext ▸ run_compileText hfind
      have hdirect : (e.programDirect p).run.run t = _ := Attempt.run_bind_of_error hcompile
      have hcached : (e.programAt p).run.run s = _ := Attempt.run_bind_of_error hrun
      rw [hdirect, hcached]
      exact ⟨rfl, s, rfl, hs, hst⟩
    · obtain ⟨_, _, program, -, -, hprogram, rfl⟩ := textOf_ok.mp htext
      have hdirect := run_programDirect_of_ok hfind htext hprogram
      rw [← hsu.workingDir] at hentry
      have hload := run_load (hu.ready.find_file hentry)
      rw [Artifact.program_ok hprogram] at hload
      have hcached : (e.programAt p).run.run s = _ := (Attempt.run_bind_of_ok hrun).trans hload
      rw [hdirect, hcached]
      exact ⟨rfl, u, rfl, hu, hst.trans_onlyAt hsu⟩

theorem serves_includeNamed (ht : e.Current A t) (name : String) :
    e.Serves A t (e.includeNamed name).run (e.includeDirect name).run := by
  refine Serves.attempt_bind (serves_locate ht.ready name) fun source hsource => ?_
  obtain ⟨-, _, _, hfind⟩ := find_of_locate hsource
  exact Serves.attempt_bind (serves_programAt ht hfind) fun program _ => .pure _

end Programs

section Renderings

open Run

/-- What the first step of a rendering does on a store with artifacts, the second answers without
them. -/
def ServesStep (e : Engine) (A : Path → Prop) (t : Store) {α : Type} (x y : Step Job α) : Prop :=
  ∀ st, e.Serves A t (x st) (y st)

namespace ServesStep

variable {x y : Step Job α}

theorem of_pure (h : ∀ st, ∃ r, x st = Pure.pure r) : e.ServesStep A t x x := by
  intro st
  obtain ⟨r, hr⟩ := h st
  rw [hr]
  exact .pure r

theorem pure (a : α) : e.ServesStep A t (pure a : Step Job α) (Pure.pure a) :=
  of_pure fun st => ⟨_, pure_run a st⟩

theorem throw (stop : Stop) : e.ServesStep A t (throw stop : Step Job α) (throw stop) :=
  of_pure fun st => ⟨_, throw_run stop st⟩

theorem getState : e.ServesStep A t (get : Step Job State) get :=
  of_pure fun st => ⟨_, get_run st⟩

theorem change (f : State → State) :
    e.ServesStep A t (modify f : Step Job Unit) (modify f) :=
  of_pure fun st => ⟨_, modify_run f st⟩

theorem bind {f g : α → Step Job β} (h : e.ServesStep A t x y)
    (hf : ∀ a, e.ServesStep A t (f a) (g a)) : e.ServesStep A t (x >>= f) (y >>= g) := by
  intro st
  rw [bind_run, bind_run]
  refine Serves.bind (h st) fun p _ => ?_
  obtain ⟨r, u⟩ := p
  cases r with
  | ok a => exact hf a u
  | error stop => exact .pure _

theorem map (f : α → β) (h : e.ServesStep A t x y) : e.ServesStep A t (f <$> x) (f <$> y) := by
  rw [map_eq_pure_bind, map_eq_pure_bind]
  exact h.bind fun a => .pure (f a)

theorem within {enter : Frame → Frame} {back : Frame → Frame → Frame} (h : e.ServesStep A t x y) :
    e.ServesStep A t (within enter back x) (within enter back y) :=
  fun _ => Serves.bind (h _) fun _ _ => .pure _

theorem fail (fault : RenderFault) : e.ServesStep A t (fail fault : Step Job α) (fail fault) :=
  getState.bind fun _ => throw _

theorem missing (fault : RenderFault) :
    e.ServesStep A t (missing e.host fault) (missing e.directHost fault) := by
  show e.ServesStep A t (Run.missing e.host fault) (Run.missing e.host fault)
  unfold Run.missing
  split
  · exact fail fault
  · exact pure _

theorem callFunction (name : String) (args : List Value) :
    e.ServesStep A t (callFunction e.host name args) (callFunction e.directHost name args) := by
  show e.ServesStep A t (Run.callFunction e.host name args) (Run.callFunction e.host name args)
  unfold Run.callFunction
  split
  · exact fail _
  · refine (change _).bind fun _ => ?_
    split
    · exact pure _
    · exact throw _
    · exact fail _

theorem includeTemplate (ht : e.Current A t) {runBody runBody' : List Stmt → Step Job Flow}
    (hbody : ∀ body, e.ServesStep A t (runBody body) (runBody' body)) (name : String) :
    e.ServesStep A t (includeTemplate e.host runBody name)
      (includeTemplate e.directHost runBody' name) := by
  refine getState.bind fun st => ?_
  show e.ServesStep A t (if e.host.maxIncludeDepth ≤ st.frame.includeDepth then _ else _)
    (if e.host.maxIncludeDepth ≤ st.frame.includeDepth then _ else _)
  split
  · exact throw _
  · refine bind (fun u => ?_) fun loaded => ?_
    · rw [lift_run, lift_run]
      exact (serves_includeNamed ht name).bind fun _ _ => .pure _
    · cases loaded with
      | error error => exact throw _
      | ok template => exact map _ (within (hbody _))

end ServesStep

theorem congruence (ht : e.Current A t) :
    Congruence e.host e.directHost (fun x y => e.ServesStep A t x y) where
  pure := .pure
  bind := .bind
  map := .map
  throw := .throw
  get := .getState
  write _ := .change _
  assignVariable _ _ := .change _
  unset _ := .change _
  missing := .missing
  callFunction := .callFunction
  inLoop := .within
  includeTemplate hbody name := .includeTemplate ht hbody name
  maxRounds := .inl rfl

/-- The engine with artifacts serves the same rendering of a template as the one without. -/
theorem serves_execute {entry : FileEntry} (ht : e.Current A t) (hfind : t.find p = .ok entry)
    (scope : Entries Value) : e.Serves A t (e.execute p scope) (e.executeDirect p scope) := by
  refine (serves_programAt ht hfind).bind fun loaded _ => ?_
  cases loaded with
  | error error => exact .pure _
  | ok program =>
    refine Serves.bind ((congruence ht).execBody (.inl rfl) program.body _) fun r _ => ?_
    exact .pure _

theorem serves_render (ht : e.Current A t) (scope : Entries Value) (request : Request) :
    e.Serves A t (e.render scope request) (e.renderDirect scope request) := by
  refine (serves_bind ht.ready _ _ _).bind fun bound hbound => ?_
  cases bound with
  | error error => exact .pure _
  | ok binding =>
    obtain ⟨_, _, hfind⟩ := find_of_bind hbound
    exact (serves_withMetadata _ _ _).bind fun scope _ => serves_execute ht hfind scope

theorem serves_renderFile {entry : FileEntry} (ht : e.Current A t) (hfind : t.find p = .ok entry)
    (scope : Entries Value) : e.Serves A t (e.renderFile scope p) (e.renderFileDirect scope p) :=
  (serves_withMetadata _ _ _).bind fun scope _ => serves_execute ht hfind scope

end Renderings

end Engine

end ViewTemplate
