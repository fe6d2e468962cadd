import ViewTemplate.Proofs.Cache.Refresh
import ViewTemplate.Proofs.Files.Changes
import ViewTemplate.Proofs.Files.Turns

namespace ViewTemplate.Cache

variable {n : Nat} {c : Cache} {p : Path} {s t : Store} {text : String} {source contents : Contents}
  {time : Time} {i j : Fin n} {σ τ υ : Scene n} {action : Action}

/-- A template that is there, and for which an artifact can be made. -/
structure Makeable (c : Cache) (p : Path) (source : Contents) (time : Time) (s : Store) : Prop where
  extension : Settings.isExtension c.extension = true
  source : s.find p = .ok (.file source time)
  apart : p.location s.workingDir ≠ c.place s.workingDir p
  dirs : ((s.perform (.createDirs c.dir)).1 : Except OsError Unit) = .ok ()
  dir : (s.perform (.createDirs c.dir)).2.find c.dir = .ok .directory
  place : (s.perform (.createDirs c.dir)).2.entryAt? (c.place s.workingDir p) ≠ some .directory

def Makes (c : Cache) (σ : Scene n) (i : Fin n) : Prop := (i, .createDirs c.dir) ∈ σ.log

def IsMade (c : Cache) (p : Path) (s : Store) : Prop :=
  ∃ contents made, s.find (c.artifactPath p) = .ok (.file contents made)

/-- What the artifact's place holds: what was there at first, or the new text. -/
def Whole (c : Cache) (p : Path) (text : String) (s t : Store) : Prop :=
  t.entryAt? (c.place s.workingDir p) = s.entryAt? (c.place s.workingDir p) ∨
    ∃ made, t.entryAt? (c.place s.workingDir p) = some (.file (.ofText text) made)

/-- What holds at all times for calls that began at `s`. -/
structure Making (c : Cache) (p : Path) (text : String) (time : Time) (s : Store) (σ : Scene n) :
    Prop where
  spares : s.Spares (c.place s.workingDir p) σ.store
  whole : c.Whole p text s σ.store
  untouched : (∀ i, ¬c.Makes σ i) → s.Still σ.store
  dir : ∀ i, c.Makes σ i → σ.store.find c.dir = .ok .directory
  stale : ∀ i, c.Makes σ i → c.fresh p time s = false
  unique : ∀ i j, c.Makes σ i → c.Makes σ j → i = j
  settled : ∀ i, c.Makes σ i → σ.holder (c.key p) = some i ∨ c.fresh p time σ.store = true

/-- What a call relies on of the others: they leave all to the one that holds the lock. -/
structure Leaves (c : Cache) (p : Path) (i : Fin n) (σ τ : Scene n) : Prop where
  holder : ∀ key, τ.holder key = some i ↔ σ.holder key = some i
  makes : c.Makes τ i ↔ c.Makes σ i
  makers : ∀ j, c.Makes σ j → c.Makes τ j
  isMade : c.IsMade p σ.store → c.IsMade p τ.store
  held : σ.holder (c.key p) = some i → σ.store.Still τ.store ∧ ∀ j, c.Makes τ j → c.Makes σ j

theorem Leaves.refl : c.Leaves p i σ σ :=
  ⟨fun _ => .rfl, .rfl, fun _ => id, id, fun _ => ⟨.refl, fun _ => id⟩⟩

theorem Leaves.trans (h : c.Leaves p i σ τ) (h' : c.Leaves p i τ υ) : c.Leaves p i σ υ := by
  refine ⟨fun key => (h'.holder key).trans (h.holder key), h'.makes.trans h.makes,
    fun j hj => h'.makers j (h.makers j hj), fun hmade => h'.isMade (h.isMade hmade),
    fun hheld => ?_⟩
  obtain ⟨hstill, hmakers⟩ := h.held hheld
  obtain ⟨hstill', hmakers'⟩ := h'.held ((h.holder _).mpr hheld)
  exact ⟨hstill.trans hstill', fun j hj => hmakers j (hmakers' j hj)⟩

/-- The contract of calls that began at `s`. -/
def once (c : Cache) (p : Path) (text : String) (time : Time) (s : Store) : Contract n where
  inv := c.Making p text time s
  rely i _ := c.Leaves p i
  refl _ _ _ := .refl
  trans := .trans

section Facts

theorem Makeable.place_ne_directory (h : c.Makeable p source time s) :
    s.entryAt? (c.place s.workingDir p) ≠ some .directory := by
  intro hdir
  rcases (Store.grows_createDirs _ c.dir s).entry (c.place s.workingDir p) with hsame | ⟨hnone, -⟩
  · exact h.place (hsame.trans hdir)
  · cases hnone.symm.trans hdir

theorem Makeable.find (h : c.Makeable p source time s)
    (ht : s.Spares (c.place s.workingDir p) t) : t.find p = .ok (.file source time) :=
  ht.find h.place_ne_directory h.source h.apart

theorem Whole.place_ne_directory (h : c.Makeable p source time s) (ht : c.Whole p text s t) :
    t.entryAt? (c.place s.workingDir p) ≠ some .directory := by
  rcases ht with hsame | ⟨made, hnew⟩
  · rw [hsame]
    exact h.place_ne_directory
  · simp [hnew]

theorem find_artifact (hext : Settings.isExtension c.extension = true)
    (hdir : t.find c.dir = .ok .directory) : t.find (c.artifactPath p) =
      match t.entryAt? (c.place t.workingDir p) with
        | some e => .ok e
        | none => .error .notFound :=
  Store.find_of_locate (locate_artifactPath hext hdir p)

theorem fresh_of_still (h : s.Still t) : c.fresh p time t = c.fresh p time s := by
  rw [fresh, h.find, fresh]

theorem isMade_of_fresh (h : c.fresh p time s = true) : c.IsMade p s := by
  obtain ⟨contents, made, hfind, -⟩ := fresh_iff.mp h
  exact ⟨contents, made, hfind⟩

theorem makes_after : c.Makes (σ.after i action) j ↔
    (j = i ∧ action = .createDirs c.dir) ∨ c.Makes σ j := by
  simp [Makes, Scene.after, eq_comm]

end Facts

section Actions

theorem leaves_of_still (hholder : ∀ key, σ.holderAfter i action key = some j ↔
      σ.holder key = some j) (hstore : (σ.store.perform action).2 = σ.store)
    (hother : action ≠ .createDirs c.dir) : c.Leaves p j σ (σ.after i action) := by
  have hafter : (σ.after i action).store = σ.store := hstore
  have hmakes : ∀ k, c.Makes (σ.after i action) k ↔ c.Makes σ k := by
    intro k
    simp [makes_after, hother]
  refine ⟨hholder, hmakes j, fun k => (hmakes k).mpr, ?_,
    fun _ => ⟨⟨_, hafter⟩, fun k => (hmakes k).mp⟩⟩
  rw [hafter]
  exact id

/-- An action that changes no files keeps to the contract, if no lock is given back before the
artifact is good. -/
theorem keeps_of_still (hσ : c.Making p text time s σ) (hallows : σ.allows action = true)
    (hstore : (σ.store.perform action).2 = σ.store) (hother : action ≠ .createDirs c.dir)
    (hsettled : ∀ j, c.Makes σ j → σ.holder (c.key p) = some j →
      σ.holderAfter i action (c.key p) = some j ∨ c.fresh p time σ.store = true) :
    (once c p text time s).Keeps i σ action := by
  have hafter : (σ.after i action).store = σ.store := hstore
  have hmakes : ∀ j, c.Makes (σ.after i action) j ↔ c.Makes σ j := by
    intro j
    simp [makes_after, hother]
  refine ⟨⟨hafter ▸ hσ.spares, hafter ▸ hσ.whole, ?_, ?_, ?_, ?_, fun j hj => ?_⟩, fun j hij _ =>
    leaves_of_still (Scene.holderAfter_eq (Ne.symm hij) hallows) hstore hother⟩
  · simpa only [hmakes, hafter] using hσ.untouched
  · simpa only [hmakes, hafter] using hσ.dir
  · simpa only [hmakes] using hσ.stale
  · simpa only [hmakes] using hσ.unique
  · rw [hafter]
    rcases hσ.settled j ((hmakes j).mp hj) with hheld | hfresh
    · exact hsettled j ((hmakes j).mp hj) hheld
    · exact .inr hfresh

section Reading

variable {α : Type} {post : α → Scene n → Prop}

theorem fits_reading {next : action.Answer → Job α} (hread : action.isReading = true)
    (hnext : ∀ τ, c.Leaves p i σ τ → c.Making p text time s τ →
      (next (τ.store.perform action).1).Fits (once c p text time s) i post τ) :
    (Job.act action next).Fits (once c p text time s) i post σ := by
  have hfree : action.isLocking = false := by
    cases action <;> first | rfl | cases hread
  have hother : action ≠ .createDirs c.dir := by
    rintro rfl
    cases hread
  refine .act hfree fun τ hrely hτ => ?_
  have hstore : (τ.store.perform action).2 = τ.store := Store.perform_reading hread
  have hkeeps := keeps_of_still (i := i) hτ (Scene.allows_of_isLocking hfree) hstore hother
    (fun j _ hheld => .inl (by rw [Scene.holderAfter_of_isLocking hfree, hheld]))
  have hleaves : c.Leaves p i τ (τ.after i action) :=
    leaves_of_still (fun key => by rw [Scene.holderAfter_of_isLocking hfree]) hstore hother
  have hafter : (τ.after i action).store = τ.store := hstore
  have hrest := hnext (τ.after i action) (hrely.trans hleaves) hkeeps.inv
  rw [hafter] at hrest
  exact ⟨hkeeps, hrest⟩

theorem fits_yields {Q : α → Prop} {job : Job α} (hm : c.Makeable p source time s)
    (hjob : job.Yields (fun t => t.find p = .ok (.file source time)) Q)
    (hpost : ∀ a τ, Q a → c.Leaves p i σ τ → post a τ) :
    job.Fits (once c p text time s) i post σ := by
  induction job generalizing σ with
  | done a => exact hpost a σ hjob .refl
  | act action next ih =>
    refine fits_reading hjob.1 fun τ hστ hτ => ?_
    exact ih _ (hjob.2 τ.store (hm.find hτ.spares)) fun a υ ha hτυ => hpost a υ ha (hστ.trans hτυ)

/-- The check looks twice. What it says is right if nothing changed in between. -/
theorem fits_upToDate {post : Bool → Scene n → Prop}
    (hm : c.Makeable p source time s)
    (hpost : ∀ τ υ isFresh, c.Leaves p i σ τ → c.Making p text time s τ → c.Leaves p i τ υ →
      c.Making p text time s υ → (isFresh = true → c.IsMade p τ.store) →
      (υ.store.find (c.artifactPath p) = τ.store.find (c.artifactPath p) →
        isFresh = c.fresh p time τ.store) → post isFresh υ) :
    (upToDate time (c.artifactPath p)).Fits (once c p text time s) i post σ := by
  refine fits_reading rfl fun τ hστ hτ => ?_
  cases hfind : τ.store.find (c.artifactPath p) with
  | error cause =>
    rw [Store.perform_modified_missing hfind]
    refine hpost τ τ false hστ hτ .refl hτ (fun h => absurd h Bool.false_ne_true) fun _ => ?_
    rw [fresh, hfind]
    rfl
  | ok entry =>
    cases entry with
    | directory =>
      have hdir := Store.entryAt?_of_find hfind
      rw [location_artifactPath, hτ.spares.workingDir] at hdir
      exact absurd hdir (hτ.whole.place_ne_directory hm)
    | file contents made =>
      have hmade : c.IsMade p τ.store := ⟨contents, made, hfind⟩
      have hfresh : c.fresh p time τ.store = _ := fresh_of_find hfind
      rw [Store.perform_modified hfind]
      show Job.Fits _ i post (if made < time then pure false else _) τ
      -- The second look is only taken when the artifact is not older than its template.
      by_cases hlt : made < time
      · rw [if_pos hlt]
        refine hpost τ τ false hστ hτ .refl hτ (fun _ => hmade) fun _ => ?_
        rw [hfresh]
        simp [accepts, hlt]
      · rw [if_neg hlt]
        refine fits_reading rfl fun υ hτυ hυ => ?_
        refine hpost τ υ _ hστ hτ hτυ hυ (fun _ => hmade) fun hsame => ?_
        rw [Store.perform_firstLine (hsame.trans hfind), hfresh]
        simp [accepts, hlt]

theorem fits_describe {post : Except TemplateError Compiled → Scene n → Prop}
    (hmade : c.IsMade p σ.store) (recompiled : Bool)
    (hpost : ∀ τ made, c.Leaves p i σ τ → c.Making p text time s τ →
      post (.ok ⟨c.key p, c.artifactPath p, time, made, recompiled⟩) τ) :
    (c.describe p time recompiled).run.Fits (once c p text time s) i post σ := by
  refine Attempt.fits_bind (Attempt.fits_orCompileError (fits_reading rfl fun τ hστ hτ => ?_))
  obtain ⟨contents, made, hfind⟩ := hστ.isMade hmade
  rw [Store.perform_modified hfind]
  exact hpost τ made hστ hτ

end Reading

section Changing

/-- A store in which the artifact can be made. -/
structure Workable (c : Cache) (p : Path) (text : String) (s t : Store) : Prop where
  spares : s.Spares (c.place s.workingDir p) t
  whole : c.Whole p text s t
  dir : t.find c.dir = .ok .directory

/-- Job `i` holds the lock to make the artifact, and all is as in `t` but for the time. -/
structure Holds (c : Cache) (p : Path) (i : Fin n) (t : Store) (σ : Scene n) : Prop where
  holder : ∀ key, σ.holder key = some i ↔ key = c.key p
  makes : c.Makes σ i
  store : t.Still σ.store

theorem Holds.leaves (h : c.Holds p i t σ) (hστ : c.Leaves p i σ τ) : c.Holds p i t τ := by
  obtain ⟨hstill, -⟩ := hστ.held ((h.holder _).mpr rfl)
  exact ⟨fun key => (hστ.holder key).trans (h.holder key), hστ.makes.mpr h.makes,
    h.store.trans hstill⟩

theorem Workable.find (hm : c.Makeable p source time s) (h : c.Workable p text s t) :
    t.find (c.artifactPath p) = match t.entryAt? (c.place s.workingDir p) with
      | some e => .ok e
      | none => .error .notFound := by
  rw [find_artifact hm.extension h.dir, h.spares.workingDir]

theorem Workable.isMade {made : Time} (hm : c.Makeable p source time s) (h : c.Workable p text s t)
    (hentry : t.entryAt? (c.place s.workingDir p) = some (.file contents made)) :
    t.find (c.artifactPath p) = .ok (.file contents made) := by
  rw [h.find hm, hentry]

theorem isMade_of_whole {u : Store} (hm : c.Makeable p source time s) (hu : c.Workable p text s u)
    (ht : t.workingDir = s.workingDir)
    (hwhole : u.entryAt? (c.place s.workingDir p) = t.entryAt? (c.place s.workingDir p) ∨
      ∃ made, u.entryAt? (c.place s.workingDir p) = some (.file (.ofText text) made))
    (hmade : c.IsMade p t) : c.IsMade p u := by
  obtain ⟨contents, made, hfind⟩ := hmade
  rcases hwhole with hsame | ⟨made, hnew⟩
  · have hentry := Store.entryAt?_of_find hfind
    rw [location_artifactPath, ht, ← hsame] at hentry
    exact ⟨contents, made, hu.isMade hm hentry⟩
  · exact ⟨_, made, hu.isMade hm hnew⟩

/-- The one that holds the lock may change files. -/
theorem keeps_of_holder (hfree : action.isLocking = false)
    (hholder : σ.holder (c.key p) = some i) (honly : ∀ j, c.Makes σ j → j = i)
    (hmakes : c.Makes (σ.after i action) i) (hstale : c.fresh p time s = false)
    (hwork : c.Workable p text s (σ.store.perform action).2)
    (hisMade : c.IsMade p σ.store → c.IsMade p (σ.store.perform action).2) :
    (once c p text time s).Keeps i σ action := by
  have honly' : ∀ j, c.Makes (σ.after i action) j → j = i := by
    intro j hj
    rcases makes_after.mp hj with ⟨rfl, -⟩ | hj
    · rfl
    · exact honly j hj
  refine ⟨⟨hwork.spares, hwork.whole, fun hnone => absurd hmakes (hnone i), fun _ _ => hwork.dir,
    fun _ _ => hstale, fun j k hj hk => (honly' j hj).trans (honly' k hk).symm, fun j hj => ?_⟩,
    fun j hij _ => ⟨?_, ?_, fun k hk => makes_after.mpr (.inr hk), hisMade, fun hheld => ?_⟩⟩
  · rw [honly' j hj]
    exact .inl (by rw [Scene.after, Scene.holderAfter_of_isLocking hfree, hholder])
  · exact Scene.holderAfter_eq (Ne.symm hij) (Scene.allows_of_isLocking hfree)
  · simp [makes_after, hij]
  · rw [hholder] at hheld
    exact absurd (Option.some.inj hheld).symm hij

theorem fits_change {α : Type} {post : α → Scene n → Prop} {next : action.Answer → Job α}
    (hm : c.Makeable p source time s) (ht : c.Workable p text s t) (hσ : c.Holds p i t σ)
    (hfree : action.isLocking = false)
    (hstep : ∀ clock, ∃ answer u, Store.perform { t with clock } action = (answer, u) ∧
      c.Workable p text s u ∧
      (u.entryAt? (c.place s.workingDir p) = t.entryAt? (c.place s.workingDir p) ∨
        ∃ made, u.entryAt? (c.place s.workingDir p) = some (.file (.ofText text) made)) ∧
      ∀ τ, c.Holds p i u τ → (next answer).Fits (once c p text time s) i post τ) :
    (Job.act action next).Fits (once c p text time s) i post σ := by
  refine .act hfree fun τ hστ hτ => ?_
  have hold := hσ.leaves hστ
  obtain ⟨clock, hstore⟩ := hold.store
  obtain ⟨answer, u, hperform, hu, hwhole, hnext⟩ := hstep clock
  rw [← hstore] at hperform
  rw [hperform]
  refine ⟨keeps_of_holder hfree ((hold.holder _).mpr rfl)
    (fun j hj => hτ.unique j i hj hold.makes) (makes_after.mpr (.inr hold.makes))
    (hτ.stale i hold.makes) (hperform ▸ hu) ?_, hnext _ ⟨?_, ?_, u.clock, ?_⟩⟩
  · rw [hperform, hstore]
    exact isMade_of_whole hm hu ht.spares.workingDir hwhole
  · intro key
    rw [Scene.after, Scene.holderAfter_of_isLocking hfree]
    exact hold.holder key
  · exact makes_after.mpr (.inr hold.makes)
  · exact congrArg Prod.snd hperform

theorem Workable.clock (h : c.Workable p text s t) (clock : Time) :
    c.Workable p text s { t with clock } :=
  ⟨h.spares.trans .of_clock, h.whole, Store.find_clock.trans h.dir⟩

variable {l : Location} {u : Store} {made : Time}

theorem Workable.onlyAt (h : c.Workable p text s t) (htu : t.OnlyAt l u)
    (hl : l ≠ c.place s.workingDir p) (hnew : s.entryAt? l = none)
    (ht : t.entryAt? l ≠ some .directory) (hu : u.entryAt? l ≠ some .directory) :
    c.Workable p text s u := by
  have hsame := htu.elsewhere _ hl.symm
  exact ⟨h.spares.onlyAt htu (.inr hnew), h.whole.imp hsame.trans fun ⟨made, h⟩ =>
    ⟨made, hsame.trans h⟩, (htu.sameDirectories ht hu).find_directory h.dir⟩

theorem Workable.put (h : c.Workable p text s t) (hl : l ≠ c.place s.workingDir p)
    (hnew : s.entryAt? l = none) (ht : t.entryAt? l ≠ some .directory) (contents : Contents)
    (made : Time) : c.Workable p text s (t.put l (.file contents made)) := by
  refine h.onlyAt Store.onlyAt_put hl hnew ht ?_
  rw [Store.entryAt?_put_self (Store.ne_root_of_entryAt? ht)]
  simp

theorem Workable.replaced (hm : c.Makeable p source time s) (h : c.Workable p text s t)
    (htu : t.OnlyAt (c.place s.workingDir p) u)
    (hu : u.entryAt? (c.place s.workingDir p) = some (.file (.ofText text) made)) :
    c.Workable p text s u :=
  ⟨h.spares.onlyAt htu (.inl rfl), .inr ⟨made, hu⟩,
    (htu.sameDirectories (h.whole.place_ne_directory hm) (by simp [hu])).find_directory h.dir⟩

structure Temporary (c : Cache) (p temp : Path) (l : Location) (contents : Contents) (made : Time)
    (s t : Store) : Prop where
  noSlash : temp.text.toList.getLast? ≠ some '/'
  apart : l ≠ c.place s.workingDir p
  isNew : s.entryAt? l = none
  locate : t.locate temp = .ok l
  entry : t.entryAt? l = some (.file contents made)

variable {α : Type} {post : α → Scene n → Prop} {temp : Path}

theorem fits_createTemp {next : (Action.createTemp c.dir).Answer → Job α}
    (hm : c.Makeable p source time s) (ht : c.Workable p text s t) (hσ : c.Holds p i t σ)
    (hnext : ∀ temp l made u τ, c.Workable p text s u → c.Holds p i u τ →
      c.Temporary p temp l ⟨[], []⟩ made s u →
        (next (.ok temp : Except OsError Path)).Fits (once c p text time s) i post τ) :
    (Job.act (.createTemp c.dir) next).Fits (once c p text time s) i post σ := by
  refine fits_change hm ht hσ rfl fun clock => ?_
  obtain ⟨k, hfree, hcreate⟩ := Store.createTemp_of_find (ht.clock clock).dir
  have hlocate := Store.locate_tempName (ht.clock clock).dir k
  have hplace : (c.dir.join ⟨Store.tempName k⟩).location t.workingDir ≠ c.place s.workingDir p := by
    rw [ht.spares.workingDir]
    exact tempName_ne_place hm.extension k
  have hdir : Store.entryAt? { t with clock } ((c.dir.join ⟨Store.tempName k⟩).location
      t.workingDir) ≠ some .directory := by simp [hfree]
  have hlast := getLast?_join (q := c.dir) (Store.tempName_isInner k)
  have hnew := ht.spares.isNew hplace hfree
  exact ⟨_, _, Store.perform_createTemp hcreate, (ht.clock clock).put hplace hnew hdir _ _,
    .inl (Store.entryAt?_put_of_ne hplace.symm), fun τ hτ => hnext _ _ clock _ τ
      ((ht.clock clock).put hplace hnew hdir _ _) hτ ⟨hlast, hplace, hnew,
        Store.locate_put hlocate hdir hlast,
        Store.entryAt?_put_self (Store.ne_root_of_entryAt? hdir)⟩⟩

theorem fits_write {next : (Action.write temp text).Answer → Job α}
    (hm : c.Makeable p source time s) (ht : c.Workable p text s t) (hσ : c.Holds p i t σ)
    (htemp : c.Temporary p temp l contents made s t)
    (hnext : ∀ made u τ, c.Workable p text s u → c.Holds p i u τ →
      c.Temporary p temp l (.ofText text) made s u →
        (next (.ok () : Except OsError Unit)).Fits (once c p text time s) i post τ) :
    (Job.act (.write temp text) next).Fits (once c p text time s) i post σ := by
  refine fits_change hm ht hσ rfl fun clock => ?_
  have hlocate : Store.locate { t with clock } temp = .ok l := Store.locate_clock.trans htemp.locate
  have hentry : Store.entryAt? { t with clock } l = some (.file contents made) := htemp.entry
  have hdir : Store.entryAt? { t with clock } l ≠ some .directory := by simp [hentry]
  have hu := (ht.clock clock).put htemp.apart htemp.isNew hdir (.ofText text) clock
  exact ⟨_, _, Store.perform_write (Store.save_of_locate hlocate hdir htemp.noSlash), hu,
    .inl (Store.entryAt?_put_of_ne htemp.apart.symm), fun τ hτ => hnext clock _ τ hu hτ
      ⟨htemp.noSlash, htemp.apart, htemp.isNew, Store.locate_put hlocate hdir htemp.noSlash,
        Store.entryAt?_put_self (Store.ne_root_of_entryAt? hdir)⟩⟩

theorem fits_rename {next : (Action.rename temp (c.artifactPath p)).Answer → Job α}
    (hm : c.Makeable p source time s) (ht : c.Workable p text s t) (hσ : c.Holds p i t σ)
    (htemp : c.Temporary p temp l (.ofText text) made s t)
    (hnext : ∀ made u τ, c.Workable p text s u → c.Holds p i u τ →
      u.entryAt? (c.place s.workingDir p) = some (.file (.ofText text) made) →
        (next (.ok () : Except OsError Unit)).Fits (once c p text time s) i post τ) :
    (Job.act (.rename temp (c.artifactPath p)) next).Fits (once c p text time s) i post σ := by
  refine fits_change hm ht hσ rfl fun clock => ?_
  have hlocate : Store.locate { t with clock } temp = .ok l := Store.locate_clock.trans htemp.locate
  have hentry : Store.entryAt? { t with clock } l = some (.file (.ofText text) made) := htemp.entry
  have hroot : l ≠ [] := Store.ne_root_of_entryAt? (s := { t with clock }) (by simp [hentry])
  have hartifact : Store.locate { t with clock } (c.artifactPath p) =
      .ok (c.place s.workingDir p) := by
    rw [Store.locate_clock, locate_artifactPath hm.extension ht.dir, ht.spares.workingDir]
  have hplace := (ht.clock clock).whole.place_ne_directory hm
  have hmove := Store.move_of_find (Store.find_ok.mpr ⟨l, hlocate, hentry⟩) hartifact hplace
  rw [Store.location_of_locate hlocate] at hmove
  -- the temporary file goes away, and the artifact is replaced
  have hgone : (Store.delete { t with clock } l).entryAt? l = none :=
    Store.entryAt?_delete_self hroot
  have hdeleted := (ht.clock clock).onlyAt Store.onlyAt_delete htemp.apart htemp.isNew
    (by simp [hentry]) (by simp [hgone])
  have hnew : ((Store.delete { t with clock } l).put (c.place s.workingDir p)
      (.file (.ofText text) made)).entryAt? (c.place s.workingDir p) =
        some (.file (.ofText text) made) :=
    Store.entryAt?_put_self (Store.ne_root_of_entryAt? hplace)
  have hu := hdeleted.replaced hm Store.onlyAt_put hnew
  exact ⟨_, _, Store.perform_rename hmove, hu, .inr ⟨made, hnew⟩,
    fun τ hτ => hnext made _ τ hu hτ hnew⟩

theorem fits_publish {post : Except TemplateError Unit → Scene n → Prop}
    (hm : c.Makeable p source time s) (ht : c.Workable p text s t) (hσ : c.Holds p i t σ)
    (hpost : ∀ made u τ, c.Workable p text s u → c.Holds p i u τ →
      u.entryAt? (c.place s.workingDir p) = some (.file (.ofText text) made) → post (.ok ()) τ) :
    (c.publish p (c.artifactPath p) text).run.Fits (once c p text time s) i post σ := by
  refine Attempt.fits_bind (Attempt.fits_orCompileError ?_)
  refine fits_createTemp hm ht hσ fun temp l made u τ hu hτ htemp => ?_
  refine Attempt.fits_bind (Attempt.fits_orCompileError ?_)
  refine fits_write hm hu hτ htemp fun made v υ hv hυ htemp => ?_
  refine Attempt.fits_orCompileError ?_
  exact fits_rename hm hv hυ htemp fun made w φ hw hφ hnew => hpost made w φ hw hφ hnew

theorem fits_settleTime {post : Except TemplateError Unit → Scene n → Prop}
    (hm : c.Makeable p source time s) (hheader : (Contents.ofText text).firstLine?.any
      Artifact.isCurrentHeader = true) (ht : c.Workable p text s t) (hσ : c.Holds p i t σ)
    (hentry : t.entryAt? (c.place s.workingDir p) = some (.file (.ofText text) made))
    (hpost : ∀ u τ, c.Holds p i u τ → c.fresh p time u = true → post (.ok ()) τ) :
    (settleTime p (c.artifactPath p) time).run.Fits (once c p text time s) i post σ := by
  have hfresh : ∀ (u : Store) (made : Time), c.Workable p text s u → time ≤ made →
      u.entryAt? (c.place s.workingDir p) = some (.file (.ofText text) made) →
        c.fresh p time u = true := by
    intro u made hu hle hentry
    rw [fresh_of_find (hu.isMade hm hentry)]
    exact accepts_iff.mpr ⟨_, _, rfl, hle, hheader⟩
  refine Attempt.fits_bind (Attempt.fits_lift (fits_reading rfl fun τ hστ hτ => ?_))
  have hold := hσ.leaves hστ
  obtain ⟨clock, hstore⟩ := hold.store
  have hfind := hstore ▸ (ht.clock clock).isMade hm hentry
  rw [Store.perform_modified hfind]
  show Job.Fits _ i post (if made < time then _ else pure () : Attempt Unit).run τ
  -- An artifact that is dated before its template gets the time of the template.
  by_cases hlt : made < time
  · rw [if_pos hlt]
    refine Attempt.fits_orCompileError (fits_change hm ht hold rfl fun clock => ?_)
    have hw := ht.clock clock
    have hplace := hw.whole.place_ne_directory hm
    have htouch : Store.touch { t with clock } (c.artifactPath p) time =
        .ok (Store.put { t with clock } (c.place s.workingDir p) (.file (.ofText text) time)) := by
      rw [Store.touch_of_find (hw.isMade hm hentry), location_artifactPath, hw.spares.workingDir]
    have hnew := Store.entryAt?_put_self (s := { t with clock }) (e := .file (.ofText text) time)
      (Store.ne_root_of_entryAt? hplace)
    have hu := hw.replaced hm Store.onlyAt_put hnew
    generalize Store.put { t with clock } (c.place s.workingDir p) _ = u at htouch hnew hu
    exact ⟨_, u, Store.perform_setModified htouch, hu, .inr ⟨time, hnew⟩,
      fun υ hυ => hpost u υ hυ (hfresh u time hu le_rfl hnew)⟩
  · rw [if_neg hlt]
    exact hpost t τ hold (hfresh t made ht (Nat.le_of_not_lt hlt) hentry)

end Changing

end Actions

section Calls

/-- How a call ends: it gives the artifact, which it made itself, or another did, or nobody
had to. -/
def Ends (c : Cache) (p : Path) (time : Time) (s : Store) (i : Fin n)
    (r : Except TemplateError Compiled) (σ : Scene n) : Prop :=
  ∃ made recompiled, r = .ok ⟨c.key p, c.artifactPath p, time, made, recompiled⟩ ∧
    (recompiled = true ↔ c.Makes σ i) ∧ ((∃ j, c.Makes σ j) ∨ c.fresh p time s = true)

theorem Ends.imp {r : Except TemplateError Compiled} (h : c.Ends p time s i r σ)
    (hmakes : c.Makes τ i ↔ c.Makes σ i) (hmakers : ∀ j, c.Makes σ j → c.Makes τ j) :
    c.Ends p time s i r τ := by
  obtain ⟨made, recompiled, hr, hmade, hsome⟩ := h
  exact ⟨made, recompiled, hr, hmade.trans hmakes.symm, hsome.imp_left (·.imp hmakers)⟩

variable {compile : Path → Attempt String}

theorem Makeable.entry_createDirs (hm : c.Makeable p source time s) :
    (s.perform (.createDirs c.dir)).2.entryAt? (c.place s.workingDir p) =
      s.entryAt? (c.place s.workingDir p) := by
  rcases (Store.grows_createDirs _ c.dir s).entry (c.place s.workingDir p) with hsame | ⟨-, hdir⟩
  · exact hsame
  · exact absurd hdir hm.place

theorem Makeable.workable (hm : c.Makeable p source time s) :
    c.Workable p text s (s.perform (.createDirs c.dir)).2 :=
  ⟨(Store.grows_createDirs _ _ _).spares, .inl hm.entry_createDirs, hm.dir⟩

theorem Makeable.perform_createDirs (hm : c.Makeable p source time s) (clock : Time) :
    Store.perform { s with clock } (.createDirs c.dir) =
      ((.ok () : Except OsError Unit), { (s.perform (.createDirs c.dir)).2 with clock }) :=
  (Store.createDirs_clock _ c.dir s).trans (Prod.ext hm.dirs rfl)

theorem fits_make {post : Except TemplateError Compiled → Scene n → Prop}
    (hm : c.Makeable p source time s)
    (hheader : (Contents.ofText text).firstLine?.any Artifact.isCurrentHeader = true)
    (hcompile : (compile p).run.Yields (fun t => t.find p = .ok (.file source time)) (· = .ok text))
    (hholder : ∀ key, σ.holder key = some i ↔ key = c.key p) (hnone : ∀ j, ¬c.Makes σ j)
    (hstale : c.fresh p time s = false)
    (hpost : ∀ made u τ, c.Holds p i u τ → c.fresh p time u = true →
        post (.ok ⟨c.key p, c.artifactPath p, time, made, true⟩) τ) :
    (do
      Attempt.orCompileError p "cannot create cache directory" (Job.perform (.createDirs c.dir))
      let text ← compile p
      c.publish p (c.artifactPath p) text
      settleTime p (c.artifactPath p) time
      c.describe p time true : Attempt Compiled).run.Fits (once c p text time s) i post σ := by
  refine Attempt.fits_bind (Attempt.fits_orCompileError (.act rfl fun τ hστ hτ => ?_))
  have hnone' : ∀ j, ¬c.Makes τ j :=
    fun j hj => hnone j ((hστ.held ((hholder _).mpr rfl)).2 j hj)
  have hholder' : ∀ key, τ.holder key = some i ↔ key = c.key p :=
    fun key => (hστ.holder key).trans (hholder key)
  obtain ⟨clock, hstore⟩ := hτ.untouched hnone'
  have hperform : τ.store.perform (.createDirs c.dir) = _ :=
    hstore ▸ hm.perform_createDirs clock
  have hwork : c.Workable p text s (τ.store.perform (.createDirs c.dir)).2 :=
    hperform ▸ hm.workable.clock clock
  -- With this step the job counts as the one that makes the artifact.
  have hmakes : c.Makes (τ.after i (.createDirs c.dir)) i := makes_after.mpr (.inl ⟨rfl, rfl⟩)
  refine ⟨keeps_of_holder rfl ((hholder' _).mpr rfl) (fun j hj => absurd hj (hnone' j)) hmakes
    hstale hwork fun hmade => ?_, ?_⟩
  · refine isMade_of_whole hm hwork (hstore ▸ rfl) (.inl ?_) hmade
    rw [hperform, hstore]
    exact hm.entry_createDirs
  · rw [hperform]
    refine Attempt.fits_bind (fits_yields hm hcompile fun r υ hr hυ => ?_)
    have hold : c.Holds p i (s.perform (.createDirs c.dir)).2 (τ.after i (.createDirs c.dir)) :=
      ⟨hholder', hmakes, clock, congrArg Prod.snd hperform⟩
    rw [hr]
    refine Attempt.fits_bind (fits_publish hm hm.workable (hold.leaves hυ) ?_)
    intro made u φ hu hφ hnew
    refine Attempt.fits_bind (fits_settleTime hm hheader hu hφ hnew fun v χ hχ hfresh => ?_)
    refine fits_describe (isMade_of_fresh ((fresh_of_still hχ.store).trans hfresh)) true ?_
    exact fun ψ made hψ _ => hpost made v ψ (hχ.leaves hψ) hfresh

/-- What a call does while it holds the lock. -/
theorem fits_recompile {post : Except TemplateError Compiled → Scene n → Prop}
    (hm : c.Makeable p source time s)
    (hheader : (Contents.ofText text).firstLine?.any Artifact.isCurrentHeader = true)
    (hcompile : (compile p).run.Yields (fun t => t.find p = .ok (.file source time)) (· = .ok text))
    (hholder : ∀ key, σ.holder key = some i ↔ key = c.key p) (hmakes : ¬c.Makes σ i)
    (hpost : ∀ r τ, c.Ends p time s i r τ → (∀ key, τ.holder key = some i ↔ key = c.key p) →
      (c.Makes τ i → c.fresh p time τ.store = true) → post r τ) :
    (c.recompile compile p time).run.Fits (once c p text time s) i post σ := by
  refine Attempt.fits_bind (Attempt.fits_lift (fits_upToDate hm ?_))
  intro τ υ isFresh hστ hτ hτυ hυ _ hsame
  have hholder' : ∀ key, υ.holder key = some i ↔ key = c.key p :=
    fun key => ((hτυ.holder key).trans (hστ.holder key)).trans (hholder key)
  have hmakes' : ¬c.Makes υ i := fun h => hmakes (hστ.makes.mp (hτυ.makes.mp h))
  -- nothing changes while the lock is held, so the check is right
  have hright : isFresh = c.fresh p time υ.store := by
    obtain ⟨hstill, -⟩ := hτυ.held ((hστ.holder _).mpr ((hholder _).mpr rfl))
    exact (hsame hstill.find).trans (fresh_of_still hstill).symm
  have huntouched (hnone : ∀ j, ¬c.Makes υ j) : c.fresh p time υ.store = c.fresh p time s :=
    fresh_of_still (hυ.untouched hnone)
  cases isFresh with
  | true =>
    refine fits_describe (isMade_of_fresh hright.symm) false fun φ made hφ _ => ?_
    refine hpost _ φ ⟨made, false, rfl, ?_, ?_⟩ (fun key => (hφ.holder key).trans (hholder' key))
      fun h => absurd (hφ.makes.mp h) hmakes'
    · exact iff_of_false Bool.false_ne_true fun h => hmakes' (hφ.makes.mp h)
    · by_cases hsome : ∃ j, c.Makes υ j
      · exact .inl (hsome.imp hφ.makers)
      · exact .inr ((huntouched (not_exists.mp hsome)).symm.trans hright.symm)
  | false =>
    have hnone : ∀ j, ¬c.Makes υ j := by
      intro j hj
      rcases hυ.settled j hj with hheld | hfresh
      · have hij := Option.some.inj (hheld.symm.trans ((hholder' _).mpr rfl))
        exact hmakes' (hij ▸ hj)
      · exact Bool.false_ne_true (hright.trans hfresh)
    refine fits_make hm hheader hcompile hholder' hnone
      ((huntouched hnone).symm.trans hright.symm) fun made u φ hφ hfresh => ?_
    exact hpost _ φ ⟨made, true, rfl, iff_of_true rfl hφ.makes, .inl ⟨i, hφ.makes⟩⟩ hφ.holder
      fun _ => (fresh_of_still hφ.store).trans hfresh

theorem fits_locked {attempt : Attempt Compiled} (hfree : σ.Free i) (hmakes : ¬c.Makes σ i)
    (h : ∀ τ, (∀ key, τ.holder key = some i ↔ key = c.key p) → ¬c.Makes τ i →
      attempt.run.Fits (once c p text time s) i (fun r τ => c.Ends p time s i r τ ∧
        (∀ key, τ.holder key = some i ↔ key = c.key p) ∧
          (c.Makes τ i → c.fresh p time τ.store = true)) τ) :
    (locked (c.key p) attempt).run.Fits (once c p text time s) i
      (fun r τ => c.Ends p time s i r τ ∧ τ.Free i) σ := by
  intro τ hστ hτ
  have hfree : τ.Free i := fun key hkey => hfree key ((hστ.holder key).mp hkey)
  refine ⟨.inr hfree, fun hallows => ?_⟩
  have hnone : τ.holder (c.key p) = none := Option.isNone_iff_eq_none.mp hallows
  have hkeeps := keeps_of_still (i := i) hτ hallows rfl Action.noConfusion fun j _ hheld => by
    cases hnone.symm.trans hheld
  refine ⟨hkeeps, ?_⟩
  show (attempt.run >>= fun result => Job.perform (.unlock (c.key p)) >>= fun _ =>
    pure result : Job _).Fits _ i _ _
  refine Job.Fits.bind ((h _ (fun key => ?_) ?_).imp ?_)
  · by_cases hkey : key = c.key p
    · simp [Scene.after, Scene.holderAfter, hkey]
    · simp [Scene.after, Scene.holderAfter, hkey, hfree key]
  · simpa [makes_after] using fun hτ => hmakes (hστ.makes.mp hτ)
  · rintro r υ ⟨hends, hholder, hfresh⟩ φ hυφ hφ
    have hholder : ∀ key, φ.holder key = some i ↔ key = c.key p :=
      fun key => (hυφ.holder key).trans (hholder key)
    have hown : φ.holder (c.key p) = some i := (hholder _).mpr rfl
    have hkeeps : (once c p text time s).Keeps i φ (.unlock (c.key p)) := by
      refine keeps_of_still hφ rfl rfl Action.noConfusion fun j hj hheld => .inr ?_
      -- the lock is given back by the one that made the artifact
      obtain rfl : j = i := Option.some.inj (hheld.symm.trans hown)
      have hstill := (hυφ.held ((hυφ.holder _).mp hown)).1
      exact (fresh_of_still hstill).trans (hfresh (hυφ.makes.mp hj))
    refine ⟨.inl rfl, fun _ => ⟨hkeeps, hends.imp ?_ fun j hj => ?_, fun key => ?_⟩⟩
    · simpa [makes_after] using hυφ.makes
    · exact makes_after.mpr (.inr (hυφ.makers j hj))
    · by_cases hkey : key = c.key p
      · simp [Scene.after, Scene.holderAfter, hown, hkey]
      · simpa [Scene.after, Scene.holderAfter, hown, hkey] using mt (hholder key).mp hkey

/-- What a call does, from when it holds no lock to when it holds none. -/
theorem fits_getOrCompile (hm : c.Makeable p source time s)
    (hheader : (Contents.ofText text).firstLine?.any Artifact.isCurrentHeader = true)
    (hcompile : (compile p).run.Yields (fun t => t.find p = .ok (.file source time)) (· = .ok text))
    (hfree : σ.Free i) (hmakes : ¬c.Makes σ i) :
    (c.getOrCompile compile p).run.Fits (once c p text time s) i
      (fun r τ => c.Ends p time s i r τ ∧ τ.Free i) σ := by
  refine Attempt.fits_bind (Attempt.fits_orCompileError (fits_reading rfl fun τ hστ hτ => ?_))
  have hfree : τ.Free i := fun key hkey => hfree key ((hστ.holder key).mp hkey)
  have hmakes : ¬c.Makes τ i := fun h => hmakes (hστ.makes.mp h)
  rw [Store.perform_modified (hm.find hτ.spares)]
  refine Attempt.fits_bind (Attempt.fits_lift (fits_upToDate hm ?_))
  intro υ φ isFresh hτυ hυ hυφ hφ hmade hsame
  have hleaves := hτυ.trans hυφ
  have hfree : φ.Free i := fun key hkey => hfree key ((hleaves.holder key).mp hkey)
  have hmakes : ¬c.Makes φ i := fun h => hmakes (hleaves.makes.mp h)
  cases isFresh with
  | true =>
    refine fits_describe (hυφ.isMade (hmade rfl)) false fun χ made hχ _ => ?_
    refine ⟨⟨made, false, rfl, iff_of_false Bool.false_ne_true fun h => hmakes (hχ.makes.mp h), ?_⟩,
      fun key hkey => hfree key ((hχ.holder key).mp hkey)⟩
    by_cases hsome : ∃ j, c.Makes φ j
    · exact .inl (hsome.imp hχ.makers)
    · -- nobody has made the artifact yet, so both looks were at the first one
      have hstill := hυ.untouched fun j hj => hsome ⟨j, hυφ.makers j hj⟩
      have hstill' := hφ.untouched (not_exists.mp hsome)
      exact .inr ((hsame (hstill'.find.trans hstill.find.symm)).trans (fresh_of_still hstill)).symm
  | false =>
    exact fits_locked hfree hmakes fun χ hholder hmakes =>
      fits_recompile hm hheader hcompile hholder hmakes fun r ψ hends hholder hfresh =>
        ⟨hends, hholder, hfresh⟩

def AnyTime (_ : Fin n → Option Action) (σ τ : Scene n) : Prop :=
  ∃ clock, τ = { σ with store := { σ.store with clock } }

theorem admits_anyTime : Pool.Admits (once c p text time s)
    (fun i r σ => c.Ends p time s i r σ ∧ σ.Free (n := n) i) AnyTime where
  inv := by
    rintro pending σ τ ⟨clock, rfl⟩ hσ
    have hstill : σ.store.Still { σ.store with clock } := ⟨clock, rfl⟩
    exact ⟨hσ.spares.trans .of_clock, hσ.whole, fun hnone => (hσ.untouched hnone).trans hstill,
      fun i hi => hstill.find.trans (hσ.dir i hi), hσ.stale, hσ.unique, fun i hi =>
        (hσ.settled i hi).imp_right (fresh_of_still hstill).trans⟩
  rely := by
    rintro pending σ τ i ⟨clock, rfl⟩ -
    have hstill : σ.store.Still { σ.store with clock } := ⟨clock, rfl⟩
    refine ⟨fun _ => .rfl, .rfl, fun _ => id, ?_, fun _ => ⟨hstill, fun _ => id⟩⟩
    rintro ⟨contents, made, hfind⟩
    exact ⟨contents, made, hstill.find.trans hfind⟩
  stable h hrely _ := ⟨h.1.imp hrely.makes hrely.makers,
    fun key hkey => h.2 key ((hrely.holder key).mp hkey)⟩

def calls (c : Cache) (compile : Path → Attempt String) (p : Path) (n : Nat) (s : Store) :
    Pool n (Except TemplateError Compiled) :=
  ⟨.start s, fun _ => (c.getOrCompile compile p).run⟩

theorem fits_calls (hm : c.Makeable p source time s)
    (hheader : (Contents.ofText text).firstLine?.any Artifact.isCurrentHeader = true)
    (hcompile : (compile p).run.Yields (fun t => t.find p = .ok (.file source time))
      (· = .ok text)) :
    (c.calls compile p n s).Fits (once c p text time s)
      fun i r σ => c.Ends p time s i r σ ∧ σ.Free i := by
  have hnone : ∀ i : Fin n, ¬c.Makes (.start s) i := fun i hi => by cases hi
  refine ⟨⟨.refl, .inl rfl, fun _ => .refl, fun i hi => absurd hi (hnone i),
    fun i hi => absurd hi (hnone i), fun i _ hi => absurd hi (hnone i),
    fun i hi => absurd hi (hnone i)⟩, fun i => ?_⟩
  exact fits_getOrCompile hm hheader hcompile (fun _ h => by cases h) (hnone i)

/-- Calls for the artifact of a template that stays as it is, in any order of their steps and
at any times. The artifact's place holds what was there at first or the new text. As long as
not all calls are done one of them can go on, and they do not go on for ever. In the end all
of them have succeeded with the same artifact, and if it was stale at first then exactly one
of them has made it. -/
theorem getOrCompile_once (hm : c.Makeable p source time s)
    (hheader : (Contents.ofText text).firstLine?.any Artifact.isCurrentHeader = true)
    (hcompile : (compile p).run.Yields (fun t => t.find p = .ok (.file source time))
      (· = .ok text)) :
    (∀ q, Pool.Reach AnyTime (c.calls compile p n s) q →
      (q.scene.store.entryAt? (c.place s.workingDir p) = s.entryAt? (c.place s.workingDir p) ∨
        ∃ made, q.scene.store.entryAt? (c.place s.workingDir p) =
          some (.file (.ofText text) made)) ∧
      ((∃ i q', q.act i = some q') ∨ ∃ results : Fin n → Compiled,
        (∀ i, q.jobs i = .done (.ok (results i)) ∧ (results i).artifact = c.artifactPath p) ∧
        (((c.isFresh p).run.run s).1 = .ok true → ∀ i, (results i).recompiled = false) ∧
        (((c.isFresh p).run.run s).1 = .ok false → 0 < n →
          ∃! i, (results i).recompiled = true))) ∧
    ∀ f : Nat → Pool n (Except TemplateError Compiled), f 0 = c.calls compile p n s →
      (∀ k, Pool.Turn AnyTime (f k) (f (k + 1))) → ∃ m, ∀ k, m ≤ k → (f k).jobs = (f m).jobs := by
  refine ⟨fun q hq => ?_, fun f _ hf => Pool.exists_jobs_eq f hf⟩
  have hfits := (fits_calls hm hheader hcompile).reach admits_anyTime hq
  refine ⟨hfits.inv.whole, (hfits.progress fun _ _ _ h => h.2).imp_right fun hdone => ?_⟩
  -- Each call has ended with a result that says whether it is the one that made the artifact.
  have hresult : ∀ i, ∃ result : Compiled, q.jobs i = .done (.ok result) ∧
      result.artifact = c.artifactPath p ∧ (result.recompiled = true ↔ c.Makes q.scene i) ∧
        ((∃ j, c.Makes q.scene j) ∨ c.fresh p time s = true) := by
    intro i
    obtain ⟨r, hr⟩ := hdone i
    have hpost := hfits.job i
    rw [hr] at hpost
    obtain ⟨made, recompiled, rfl, hmakes, hsome⟩ := hpost.1
    exact ⟨_, hr, rfl, hmakes, hsome⟩
  choose results hjob hartifact hmakes hsome using hresult
  rw [run_isFresh hm.source]
  refine ⟨results, fun i => ⟨hjob i, hartifact i⟩, fun hfresh i => ?_, fun hstale hn => ?_⟩
  · rw [Bool.eq_false_iff]
    intro hmade
    have hstale := hfits.inv.stale i ((hmakes i).mp hmade)
    cases (Except.ok.inj hfresh).symm.trans hstale
  · rcases hsome ⟨0, hn⟩ with ⟨j, hj⟩ | hfresh
    · refine ⟨j, (hmakes j).mpr hj, fun i hi => ?_⟩
      exact hfits.inv.unique i j ((hmakes i).mp hi) hj
    · cases (Except.ok.inj hstale).symm.trans hfresh

/-- Two calls find no cache directory, and a template from the future. -/
theorem getOrCompile_once_of_two :
    let c : Cache := ⟨⟨"cache"⟩, "stc", ⟨"/site"⟩⟩
    let p : Path := ⟨"views/a.tpl"⟩
    let s : Store := ⟨[(["site"], .directory), (["site", "views"], .directory),
      (["site", "views", "a.tpl"], .file (.ofText "old") 9)], ["site"], 7⟩
    let compile : Path → Attempt String := fun _ => pure Artifact.header
    ∃ (q : Pool 2 (Except TemplateError Compiled)) (results : Fin 2 → Compiled),
      Pool.Reach AnyTime (c.calls compile p 2 s) q ∧
        (∀ i, q.jobs i = .done (.ok (results i))) ∧ ∃! i, (results i).recompiled = true := by
  intro c p s compile
  have hdirs : (Store.createDirs (c.dir.text.length + 1) c.dir s).1 = .ok () := by decide +kernel
  have hm : c.Makeable p (.ofText "old") 9 s := by
    refine ⟨by decide, by decide +kernel, ?_, hdirs, by decide +kernel, by decide +kernel⟩
    rw [place_eq (by decide)]
    decide +kernel
  -- both calls find nothing, then the first makes the artifact while the second waits
  let turns : List (Fin 2) := [0, 0, 1, 1] ++ List.replicate 10 0 ++ List.replicate 5 1
  have hsome : ((c.calls compile p 2 s).acts turns).isSome = true := by decide +kernel
  have hend : ∀ i, (((c.calls compile p 2 s).acts turns).bind (·.act i)).isNone = true := by
    decide +kernel
  have hstale : ((c.isFresh p).run.run s).1 = .ok false := by
    rw [run_isFresh hm.source]
    exact congrArg Except.ok (by decide +kernel)
  have hheader : (Contents.ofText Artifact.header).firstLine?.any Artifact.isCurrentHeader = true :=
    by decide +kernel
  obtain ⟨q, hq⟩ := Option.isSome_iff_exists.mp hsome
  have hreach : Pool.Reach AnyTime (c.calls compile p 2 s) q := Pool.reach_of_acts hq
  rw [hq] at hend
  have hyields : (compile p).run.Yields (fun t => t.find p = .ok (.file (.ofText "old") 9))
      (· = .ok Artifact.header) := rfl
  rcases ((getOrCompile_once hm hheader hyields).1 q hreach).2 with
    ⟨i, q', hact⟩ | ⟨results, hdone, -, hmade⟩
  · have hnone := hend i
    rw [Option.bind_some, hact] at hnone
    cases hnone
  · exact ⟨q, results, hreach, fun i => (hdone i).1, hmade hstale (by decide)⟩

end Calls

end ViewTemplate.Cache
