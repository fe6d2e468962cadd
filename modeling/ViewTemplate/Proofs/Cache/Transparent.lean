import ViewTemplate.Proofs.Cache.Direct

namespace ViewTemplate.Engine

variable {e : Engine} {A : Path → Prop} {s t : Store} {α : Type} {p : Path}

/-- A job of an engine without cache that keeps to the templates in `A`. -/
def Uses (e : Engine) (A : Path → Prop) (s : Store) (job : Job α) : Prop :=
  ∀ action ∈ job.asks s, e.Admits A s.workingDir action

/-- A change of a template: away from the artifacts, and dated later than each of them. -/
structure Edits (e : Engine) (A : Path → Prop) (s : Store) (p : Path) (time : Time) : Prop where
  apart : ∀ q, p.location s.workingDir ≠ e.cache.place s.workingDir q
  later : ∀ q, e.IsSource A q → ∀ contents made,
    s.entryAt? (e.cache.place s.workingDir q) = some (.file contents made) → made < time

/-- What can happen to the files of an engine: its user changes a template, or takes an artifact
away or spoils it, time goes by, or the engine compiles and renders. -/
inductive Happens (e : Engine) (A : Path → Prop) (s : Store) : Store → Prop
  | write {p : Path} {contents : Contents} {time : Time} {t : Store} (h : e.Edits A s p time)
    (hsave : s.save p contents time = .ok t) : Happens e A s t
  | touch {p : Path} {time : Time} {t : Store} (h : e.Edits A s p time)
    (htouch : s.touch p time = .ok t) : Happens e A s t
  | discard {p : Path} {t : Store} (hdrop : s.drop (e.cache.artifactPath p) = .ok t) :
      Happens e A s t
  | overwrite {p : Path} {contents : Contents} {time : Time} {t : Store}
    (hforeign : contents.firstLine?.any Artifact.isCurrentHeader = false)
    (hsave : s.save (e.cache.artifactPath p) contents time = .ok t) : Happens e A s t
  | wait (clock : Time) : Happens e A s { s with clock }
  | compile (name : String) (h : e.Uses A s (e.includeDirect name).run) :
    Happens e A s ((e.compile name).run.run s).2
  | compilePath {p : Path} (h : e.IsSource A p) : Happens e A s ((e.compilePath p).run.run s).2
  | render (scope : Entries Value) (request : Request)
    (h : e.Uses A s (e.renderDirect scope request)) :
    Happens e A s ((e.render scope request).run s).2
  | renderFile (scope : Entries Value) {p : Path} {entry : FileEntry} (hfind : s.find p = .ok entry)
    (h : e.Uses A s (e.renderFileDirect scope p)) :
    Happens e A s ((e.renderFile scope p).run s).2

/-- What the files of an engine can come to after its cache was empty. -/
inductive Reachable (e : Engine) (A : Path → Prop) : Store → Prop
  | start {s : Store} (hsources : e.Sources A s.workingDir) (hready : e.cache.Ready s)
    (hempty : ∀ p, s.entryAt? (e.cache.place s.workingDir p) = none) : Reachable e A s
  | step {s t : Store} (hs : Reachable e A s) (h : e.Happens A s t) : Reachable e A t

section Compiling

theorem run_compile_of_locate {name : String} (h : (e.locate name).run.run s = (.ok p, s)) :
    (e.compile name).run.run s = (e.compilePath p).run.run s :=
  Attempt.run_bind_of_ok h

theorem Uses.isSource {name : String} (h : e.Uses A s (e.includeDirect name).run)
    (hlocate : (e.locate name).run.run s = (.ok p, s)) : e.IsSource A p := by
  refine h (.readText p) ?_
  unfold includeDirect
  rw [Attempt.asks_bind_of_ok hlocate]
  exact List.mem_append_right _ List.mem_cons_self

theorem Uses.locate {name : String} (h : e.Uses A s (e.includeDirect name).run) :
    e.Uses A s (e.locate name).run := by
  intro action ha
  exact h action (Attempt.mem_asks_bind ha)

end Compiling

namespace Current

theorem compile {name : String} (h : e.Current A s)
    (huses : e.Uses A s (e.includeDirect name).run) :
    e.Current A ((e.compile name).run.run s).2 := by
  cases hlocate : (e.locate name).run.run s with
  | mk r u =>
    cases r with
    | error error =>
      obtain ⟨hstay, -⟩ := serves_locate h.ready name s h .refl huses.locate
      rw [hlocate] at hstay
      cases hstay
      have hrun : (e.compile name).run.run u = _ := Attempt.run_bind_of_error hlocate
      rw [hrun]
      exact h
    | ok p =>
      obtain ⟨rfl, -⟩ := find_of_locate hlocate
      rw [run_compile_of_locate hlocate]
      exact (h.onlyAt_compilePath (huses.isSource hlocate) rfl).2

theorem happens (h : e.Current A s) (hst : e.Happens A s t) : e.Current A t := by
  -- A changed source is newer than its artifact, and an artifact that is gone or foreign is stale.
  cases hst with
  | @write p contents time _ hedit hsave =>
    obtain ⟨hdir, rfl⟩ := Store.save_ok hsave
    exact h.edited Store.onlyAt_put hedit.apart hdir
      (Store.entryAt?_put_self (Store.ne_root_of_entryAt? hdir)) hedit.later
  | @touch p time _ hedit htouch =>
    obtain ⟨source, old, hfind, rfl⟩ := Store.touch_ok htouch
    have hdir : s.entryAt? (p.location s.workingDir) ≠ some .directory := by
      simp [Store.entryAt?_of_find hfind]
    exact h.edited Store.onlyAt_put hedit.apart hdir
      (Store.entryAt?_put_self (Store.ne_root_of_entryAt? hdir)) hedit.later
  | @discard p _ hdrop =>
    obtain ⟨_, _, -, rfl⟩ := Store.drop_ok hdrop
    rw [Store.location_of_locate (h.ready.locate p)]
    have hnone : (s.delete (e.cache.place s.workingDir p)).entryAt?
        (e.cache.place s.workingDir p) = none :=
      Store.entryAt?_delete_self (Store.ne_root_of_entryAt? (h.ready.place p))
    exact h.discarded Store.onlyAt_delete (by simp [hnone]) (by simp [hnone])
  | @overwrite p contents time _ hforeign hsave =>
    obtain ⟨-, rfl⟩ := Store.save_ok hsave
    rw [Store.location_of_locate (h.ready.locate p)]
    have hput : (s.put (e.cache.place s.workingDir p) (.file contents time)).entryAt?
        (e.cache.place s.workingDir p) = some (.file contents time) :=
      Store.entryAt?_put_self (Store.ne_root_of_entryAt? (h.ready.place p))
    refine h.discarded Store.onlyAt_put (by simp [hput]) fun contents' made hentry => ?_
    cases hput.symm.trans hentry
    exact hforeign
  | wait clock => exact h.of_clock clock
  | compile name huses => exact h.compile huses
  | compilePath hp => exact (h.onlyAt_compilePath hp rfl).2
  | render scope request huses =>
    obtain ⟨-, u, hrun, hu, -⟩ := serves_render h scope request s h .refl huses
    rw [hrun]
    exact hu
  | @renderFile scope p _ hfind huses =>
    obtain ⟨-, u, hrun, hu, -⟩ := serves_renderFile h hfind scope s h .refl huses
    rw [hrun]
    exact hu

end Current

theorem Reachable.current (h : e.Reachable A s) : e.Current A s := by
  induction h with
  | start hsources hready hempty =>
    exact ⟨hsources, hready, fun p _ _ _ hentry => by simp [hempty p] at hentry⟩
  | step _ hstep ih => exact ih.happens hstep

/-- Compiling by name a second time finds the same artifact. -/
theorem Current.run_compile_again {name : String} {r : Compiled} (h : e.Current A s)
    (huses : e.Uses A s (e.includeDirect name).run)
    (hrun : (e.compile name).run.run s = (.ok r, t)) :
    (e.compile name).run.run t = (.ok { r with recompiled := false }, t) := by
  obtain ⟨p, u, hlocate, -⟩ := Attempt.exists_of_run_bind hrun
  obtain ⟨rfl, -⟩ := find_of_locate hlocate
  have hp := huses.isSource hlocate
  rw [run_compile_of_locate hlocate] at hrun
  obtain ⟨hst, ht⟩ := h.onlyAt_compilePath hp hrun
  -- the artifact is all that changed, so the name leads to the same template
  obtain ⟨-, v, hagain, -⟩ :=
    serves_locate h.ready name t ht (Beside.refl.trans_onlyAt hst) huses.locate
  rw [hlocate] at hagain
  obtain ⟨rfl, -⟩ := find_of_locate hagain
  rw [run_compile_of_locate hagain]
  exact h.run_compilePath_again hp hrun v.clock

/-- From an empty cache on, renderings are those of an engine without cache, artifacts that are
called fresh hold the code of what their templates hold now, and a template that was just compiled
is not compiled again. The templates are those in `A`, none of which stands at the place of an
artifact (`Sources.apart`). A file that is rendered by its path is there: the engines fail at
different actions when it is missing. -/
theorem Reachable.transparent (h : e.Reachable A s) :
    (∀ scope request, e.Uses A s (e.renderDirect scope request) →
      ((e.render scope request).run s).1 = ((e.renderDirect scope request).run s).1) ∧
    (∀ scope p entry, s.find p = .ok entry → e.Uses A s (e.renderFileDirect scope p) →
      ((e.renderFile scope p).run s).1 = ((e.renderFileDirect scope p).run s).1) ∧
    (∀ p, e.IsSource A p → ((e.cache.isFresh p).run.run s).1 = .ok true →
      ∃ source time template g made, s.find p = .ok (.file source time) ∧
        source.text? = some template ∧ Directive.generate e.settings.delimiters template = .ok g ∧
          s.find (e.cache.artifactPath p) = .ok (.file (.ofText g.text) made)) ∧
    (∀ p r t clock, e.IsSource A p → (e.compilePath p).run.run s = (.ok r, t) →
      (e.compilePath p).run.run { t with clock } =
        (.ok { r with recompiled := false }, { t with clock })) ∧
    ∀ name r t, e.Uses A s (e.includeDirect name).run →
      (e.compile name).run.run s = (.ok r, t) →
        (e.compile name).run.run t = (.ok { r with recompiled := false }, t) := by
  have hs := h.current
  refine ⟨fun scope request huses => ?_, fun scope p entry hfind huses => ?_,
    fun p hp hfresh => ?_, fun p r t clock hp hrun => hs.run_compilePath_again hp hrun clock,
    fun name r t huses hrun => hs.run_compile_again huses hrun⟩
  · obtain ⟨-, u, hrun, -⟩ := serves_render hs scope request s hs .refl huses
    rw [hrun]
  · obtain ⟨-, u, hrun, -⟩ := serves_renderFile hs hfind scope s hs .refl huses
    rw [hrun]
  · obtain ⟨source, time, text, made, hfind, htext, hartifact⟩ := hs.code_of_isFresh hp hfresh
    obtain ⟨template, g, -, htemplate, hg, -, rfl⟩ := textOf_ok.mp htext
    exact ⟨source, time, template, g, made, hfind, htemplate, hg, hartifact⟩

theorem Sources.single {a : Path} {home : Location} (hworking : e.workingDir.isAbsolute = true)
    (hhome : e.workingDir.location [] = home) (ha : a.isAbsolute = true)
    (hapart : ∀ q, a.location home ≠ e.cache.place home q) : e.Sources (fun b => b = a) home where
  workingDir := hworking
  location_workingDir := hhome
  isAbsolute := by
    rintro _ rfl
    exact ha
  keys := by
    rintro _ _ rfl rfl -
    rfl
  apart := by
    rintro _ rfl
    exact hapart

/-- All paths of one template have one artifact. -/
theorem IsSource.artifactName_eq {a q : Path} (hp : e.IsSource (fun b => b = a) p)
    (hq : e.IsSource (fun b => b = a) q) : e.cache.artifactName q = e.cache.artifactName p := by
  rw [Cache.artifactName_inj, Cache.key, Cache.key]
  exact congrArg (fun b : Path => Cache.keyOf b.text) (Eq.trans hq hp.symm)

theorem eq_ok_of_isOk {ε : Type} {x : Except ε α} (h : x.isOk = true) (a : α) :
    x = .ok (x.toOption.getD a) := by
  cases x with
  | ok b => rfl
  | error cause => cases h

/-- A template is compiled, written anew and rendered. -/
theorem transparent_of_edit :
    let e : Engine := ⟨{ Settings.standard with templateDir := ⟨"views"⟩, cacheDir := ⟨"cache"⟩ },
      Run.builtins, ⟨"/site"⟩, 9⟩
    let p : Path := ⟨"views/a.tpl"⟩
    let A : Path → Prop := fun a => a = ⟨"/site/views/a.tpl"⟩
    let s : Store := ⟨[(["site"], .directory), (["site", "cache"], .directory),
      (["site", "views"], .directory), (["site", "views", "a.tpl"], .file (.ofText "old") 5)],
      ["site"], 7⟩
    let t := ((e.compilePath p).run.run s).2
    let u := (t.save p (.ofText "new") 8).toOption.getD t
    e.Reachable A u ∧ ((e.renderFile [] p).run u).1 = ((e.renderFileDirect [] p).run u).1 ∧
      (((e.renderFileDirect [] p).run u).1.result matches .ok "new") = true := by
  intro e p A s t u
  have hext : Settings.isExtension e.settings.extension = true := by decide
  have hdir : e.cache.dir.location s.workingDir = ["site", "cache"] := by decide
  have hplace : ∀ q, e.cache.place s.workingDir q = ["site", "cache", e.cache.artifactName q] :=
    fun q => (Cache.place_eq hext).trans (congrArg (· ++ [e.cache.artifactName q]) hdir)
  have hlocation : (⟨"/site/views/a.tpl"⟩ : Path).location s.workingDir =
      ["site", "views", "a.tpl"] := by
    decide
  have hsources : e.Sources A s.workingDir := by
    refine .single (by decide) (by decide) (by decide) fun q => ?_
    rw [hlocation, hplace]
    simp
  have hempty : ∀ q, s.entryAt? (e.cache.place s.workingDir q) = none := by
    intro q
    rw [hplace]
    simp [Store.entryAt?, s]
  have hready : e.cache.Ready s :=
    ⟨hext, Store.find_of_isDirectory (by decide), fun q => by simp [hempty q]⟩
  have hstart : e.Reachable A s := .start hsources hready hempty
  have hp : e.IsSource A p := by
    show Path.absolute e.workingDir p = _
    decide
  have ht : e.Reachable A t := hstart.step (.compilePath hp)
  have hhome : t.workingDir = s.workingDir := by decide +kernel
  -- The one artifact was made at 7, before the new template is dated.
  have hmade : ((t.entryAt? ["site", "cache", e.cache.artifactName p]).bind FileEntry.time?) =
      some 7 := by decide +kernel
  have hedits : e.Edits A t p 8 := by
    refine ⟨fun q => hhome ▸ hsources.location_ne hp, fun q hq contents made hentry => ?_⟩
    rw [hhome, hplace, hp.artifactName_eq hq] at hentry
    rw [hentry] at hmade
    cases hmade
    decide
  have hsave : t.save p (.ofText "new") 8 = .ok u := eq_ok_of_isOk (by decide +kernel) t
  have hu : e.Reachable A u := ht.step (.write hedits hsave)
  have huses : e.Uses A u (e.renderFileDirect [] p) := by
    have hasks : (e.renderFileDirect [] p).asks u = [.readText p] := by decide +kernel
    intro action ha
    rw [hasks, List.mem_singleton] at ha
    rw [ha]
    exact hp
  have hfind : u.find p = .ok _ := eq_ok_of_isOk (by decide +kernel) .directory
  exact ⟨hu, hu.transparent.2.1 [] p _ hfind huses, by decide +kernel⟩

end ViewTemplate.Engine
