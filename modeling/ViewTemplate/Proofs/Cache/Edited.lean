import ViewTemplate.Proofs.Cache.Current
import ViewTemplate.Proofs.Files.Changes
import ViewTemplate.Proofs.Files.Turns

namespace ViewTemplate

/-- What a job does between the reading of a template and the writing of its artifact. -/
def Action.isWriting : Action → Bool
  | .createTemp _ | .write .. => true
  | _ => false

namespace Engine

variable {n : Nat} {e : Engine} {p : Path} {home l m : Location} {s t u : Store}
  {source contents : Contents} {text : String} {time made since : Time} {i j : Fin n}
  {σ τ υ : Scene n}
  {action : Action} {pending : Option Action}

/-- A file at the place of the artifact is right if it is not accepted, or holds the code of the
template. -/
def Right (e : Engine) (p : Path) (source : Contents) (time : Time) (contents : Contents)
    (made : Time) : Prop :=
  contents.firstLine?.any Artifact.isCurrentHeader = true → time ≤ made →
    ∃ text, e.textOf p source = .ok text ∧ contents = .ofText text

/-- What holds at all times: nothing is from the future, and the artifact is right for a template
that was written at the time `since` or later. -/
structure Settled (e : Engine) (p : Path) (home : Location) (since : Time) (s : Store) : Prop where
  workingDir : s.workingDir = home
  source : ∃ source time, s.entryAt? (p.location home) = some (.file source time) ∧ time ≤ s.clock
  artifact : ∀ source time contents made,
    s.entryAt? (p.location home) = some (.file source time) →
      s.entryAt? (e.cache.place home p) = some (.file contents made) →
        made ≤ s.clock ∧ (since ≤ time → e.Right p source time contents made)

/-- What a call relies on of the others: the clock does not go back, from the time `since` on the
template is only written anew when the call is not about to write an artifact, and all else is left
to the one that holds the lock. -/
structure Allows (e : Engine) (p : Path) (home : Location) (since : Time) (i : Fin n)
    (pending : Option Action) (σ τ : Scene n) : Prop where
  holder : ∀ key, τ.holder key = some i ↔ σ.holder key = some i
  clock : σ.store.clock ≤ τ.store.clock
  edited : ∀ source time, τ.store.entryAt? (p.location home) = some (.file source time) →
    σ.store.entryAt? (p.location home) = some (.file source time) ∨
      σ.store.clock < time ∧
        (since ≤ time → ∀ action, pending = some action → action.isWriting = false)
  held : σ.holder (e.cache.key p) = some i → ∀ l, l ≠ p.location home →
    τ.store.entryAt? l = σ.store.entryAt? l

namespace Allows

theorem refl : e.Allows p home since i pending σ σ :=
  ⟨fun _ => .rfl, le_rfl, fun _ _ h => .inl h, fun _ _ _ => rfl⟩

theorem trans (h : e.Allows p home since i pending σ τ) (h' : e.Allows p home since i pending τ υ) :
    e.Allows p home since i pending σ υ := by
  refine ⟨fun key => (h'.holder key).trans (h.holder key), h.clock.trans h'.clock,
    fun source time hentry => ?_, fun hheld l hl => ?_⟩
  · rcases h'.edited source time hentry with hsame | ⟨hlater, hquiet⟩
    · exact h.edited source time hsame
    · exact .inr ⟨h.clock.trans_lt hlater, hquiet⟩
  · rw [h'.held ((h.holder _).mpr hheld) l hl, h.held hheld l hl]

theorem weaken (h : e.Allows p home since i pending σ τ) : e.Allows p home since i none σ τ :=
  ⟨h.holder, h.clock, fun source time hentry => (h.edited source time hentry).imp_right
    fun ⟨hlater, _⟩ => ⟨hlater, fun _ => nofun⟩, h.held⟩

end Allows

/-- The contract of calls that compile the template at `p`. -/
def edited (e : Engine) (p : Path) (home : Location) (since : Time) : Contract n where
  inv σ := e.Settled p home since σ.store
  rely := e.Allows p home since
  refl _ _ _ := .refl
  trans := .trans

/-- What an action of a call may change: the place of the artifact, if what comes there is right,
and what is neither there nor the template. -/
structure Change (e : Engine) (p : Path) (home : Location) (since : Time) (s t : Store) : Prop where
  workingDir : t.workingDir = s.workingDir
  clock : t.clock = s.clock
  source : t.entryAt? (p.location home) = s.entryAt? (p.location home)
  artifact : ∀ contents made, t.entryAt? (e.cache.place home p) = some (.file contents made) →
    s.entryAt? (e.cache.place home p) = some (.file contents made) ∨
      made ≤ s.clock ∧ ∀ source time,
        s.entryAt? (p.location home) = some (.file source time) → since ≤ time →
          e.Right p source time contents made

namespace Change

theorem refl : e.Change p home since s s := ⟨rfl, rfl, rfl, fun _ _ h => .inl h⟩

theorem settled (h : e.Settled p home since s) (hst : e.Change p home since s t) :
    e.Settled p home since t := by
  refine ⟨hst.workingDir.trans h.workingDir, ?_, fun source time contents made hsource hentry => ?_⟩
  · rw [hst.source, hst.clock]
    exact h.source
  · rw [hst.source] at hsource
    rw [hst.clock]
    rcases hst.artifact contents made hentry with hsame | ⟨hmade, hright⟩
    · exact h.artifact source time contents made hsource hsame
    · exact ⟨hmade, hright source time hsource⟩

theorem of_onlyAt (h : s.OnlyAt l t) (hsource : l ≠ p.location home)
    (hplace : l ≠ e.cache.place home p) : e.Change p home since s t :=
  ⟨h.workingDir, h.clock, h.elsewhere _ hsource.symm,
    fun _ _ hentry => .inl (h.elsewhere _ hplace.symm ▸ hentry)⟩

theorem of_grows (hs : e.Settled p home since s) (h : s.Grows t) : e.Change p home since s t := by
  refine ⟨h.workingDir, h.clock, ?_, fun contents made hentry => .inl ?_⟩
  · obtain ⟨source, time, hsource, -⟩ := hs.source
    rcases h.entry (p.location home) with hsame | ⟨hnone, -⟩
    · exact hsame
    · cases hnone.symm.trans hsource
  · rcases h.entry (e.cache.place home p) with hsame | ⟨-, hdir⟩
    · exact hsame.symm.trans hentry
    · cases hdir.symm.trans hentry

end Change

section Actions

variable {α : Type} {post : α → Scene n → Prop}

/-- Files are changed only by the one that holds the lock. -/
theorem keeps_of_change (hσ : e.Settled p home since σ.store) (hallows : σ.allows action = true)
    (hchange : e.Change p home since σ.store (σ.store.perform action).2)
    (hheld : (σ.store.perform action).2 = σ.store ∨ σ.holder (e.cache.key p) = some i) :
    (edited e p home since).Keeps i σ action := by
  refine ⟨hchange.settled hσ, fun j hij pending => ⟨Scene.holderAfter_eq (Ne.symm hij) hallows,
    hchange.clock.ge, fun source time hentry => .inl (hchange.source ▸ hentry), fun hown l _ => ?_⟩⟩
  rcases hheld with hsame | hother
  · exact congrArg (Store.entryAt? · l) hsame
  · exact absurd (Option.some.inj (hown.symm.trans hother)) hij

theorem fits_reading {next : action.Answer → Job α} (hread : action.isReading = true)
    (hnext : ∀ τ, e.Allows p home since i (some action) σ τ → e.Settled p home since τ.store →
      (next (τ.store.perform action).1).Fits (edited e p home since) i post τ) :
    (Job.act action next).Fits (edited e p home since) i post σ := by
  have hfree : action.isLocking = false := by
    cases action <;> first | rfl | cases hread
  refine .act hfree fun τ hrely hτ => ?_
  have hstore : (τ.store.perform action).2 = τ.store := Store.perform_reading hread
  have hafter : (τ.after i action).store = τ.store := hstore
  refine ⟨keeps_of_change hτ (Scene.allows_of_isLocking hfree) (by rw [hstore]; exact .refl)
    (.inl hstore), ?_⟩
  have hsame : e.Allows p home since i (some action) τ (τ.after i action) := by
    refine ⟨fun key => ?_, ?_, fun _ _ => ?_, fun _ l _ => ?_⟩
    · rw [Scene.after, Scene.holderAfter_of_isLocking hfree]
    · rw [hafter]
    · rw [hafter]
      exact .inl
    · rw [hafter]
  have hrest := hnext (τ.after i action) (hrely.trans hsame) (hafter ▸ hτ)
  rwa [hafter] at hrest

theorem fits_yields {job : Job α} (hjob : job.Yields (fun _ => True) (fun _ => True))
    (hpost : ∀ a τ, e.Allows p home since i none σ τ → post a τ) :
    job.Fits (edited e p home since) i post σ := by
  induction job generalizing σ with
  | done a => exact hpost a σ .refl
  | act action next ih =>
    refine fits_reading hjob.1 fun τ hστ _ => ?_
    exact ih _ (hjob.2 τ.store trivial) fun a υ hτυ => hpost a υ (hστ.weaken.trans hτυ)

theorem fits_change {next : action.Answer → Job α} (hfree : action.isLocking = false)
    (hheld : σ.holder (e.cache.key p) = some i)
    (hstep : ∀ τ, e.Allows p home since i (some action) σ τ → e.Settled p home since τ.store →
      τ.holder (e.cache.key p) = some i → e.Change p home since τ.store (τ.store.perform action).2 ∧
        ∀ υ, υ.holder (e.cache.key p) = some i → υ.store = (τ.store.perform action).2 →
          (next (τ.store.perform action).1).Fits (edited e p home since) i post υ) :
    (Job.act action next).Fits (edited e p home since) i post σ := by
  refine .act hfree fun τ hrely hτ => ?_
  have hheld : τ.holder (e.cache.key p) = some i := (hrely.holder _).mpr hheld
  obtain ⟨hchange, hnext⟩ := hstep τ hrely hτ hheld
  refine ⟨keeps_of_change hτ (Scene.allows_of_isLocking hfree) hchange (.inr hheld), hnext _ ?_ rfl⟩
  rw [Scene.after, Scene.holderAfter_of_isLocking hfree, hheld]

end Actions

section Compiling

theorem fits_compileText {post : Except TemplateError String → Scene n → Prop}
    (hpost : ∀ r τ, e.Allows p home since i none σ τ → e.Settled p home since τ.store →
      (∀ text source time, r = .ok text →
        τ.store.entryAt? (p.location home) = some (.file source time) →
          e.textOf p source = .ok text) → post r τ) :
    (e.compileText p).run.Fits (edited e p home since) i post σ := by
  refine Attempt.fits_bind (Attempt.fits_bind (Attempt.fits_orCompileError
    (fits_reading rfl fun τ hστ hτ => ?_)))
  cases hfind : τ.store.find p with
  | error cause =>
    rw [Store.perform_readText_missing hfind]
    exact hpost (.error _) τ hστ.weaken hτ nofun
  | ok entry =>
    -- What is read is what stands at the place of the template at that moment.
    obtain ⟨source, time, hsource, -⟩ := hτ.source
    have hentry := Store.entryAt?_of_find hfind
    rw [hτ.workingDir, hsource] at hentry
    obtain rfl := Option.some.inj hentry
    cases htext : source.text? with
    | none =>
      rw [Store.perform_readText_invalid hfind htext]
      exact hpost (.error _) τ hστ.weaken hτ nofun
    | some template =>
      rw [Store.perform_readText hfind htext]
      simp only [Job.Fits, Except.mapError, Attempt.Then]
      cases hg : Directive.generate e.settings.delimiters template with
      | error fault => exact hpost (.error _) τ hστ.weaken hτ nofun
      | ok g =>
        refine Attempt.fits_bind ?_
        cases hprogram : Artifact.program g.text p with
        | error error => exact hpost (.error _) τ hστ.weaken hτ nofun
        | ok program =>
          refine hpost (.ok g.text) τ hστ.weaken hτ fun text source' time' hok hsource' => ?_
          cases hsource.symm.trans hsource'
          rw [← Except.ok.inj hok]
          exact textOf_ok.mpr ⟨template, g, program, htext, hg, hprogram, rfl⟩

end Compiling

section Publishing

variable {α : Type} {post : α → Scene n → Prop} {temp : Path} {w : Time}

/-- The text is the code of the template as it is now, and the given time is not in the future. -/
structure IsCode (e : Engine) (p : Path) (home : Location) (since : Time) (text : String)
    (time : Time) (s : Store) : Prop where
  time_le : time ≤ s.clock
  code : ∀ source time, s.entryAt? (p.location home) = some (.file source time) → since ≤ time →
    e.textOf p source = .ok text

theorem IsCode.allows (h : e.IsCode p home since text time σ.store)
    (hwriting : action.isWriting = true)
    (hστ : e.Allows p home since i (some action) σ τ) :
    e.IsCode p home since text time τ.store := by
  refine ⟨h.time_le.trans hστ.clock, fun source time hentry hsince => ?_⟩
  rcases hστ.edited source time hentry with hsame | ⟨-, hquiet⟩
  · exact h.code source time hsame hsince
  · rw [hquiet hsince action rfl] at hwriting
    cases hwriting

/-- A file with the text, written when the text was the code of the template. -/
structure Written (e : Engine) (p : Path) (home : Location) (since : Time) (text : String)
    (time : Time) (l : Location) (made : Time) (s : Store) : Prop where
  entry : s.entryAt? l = some (.file (.ofText text) made)
  time_le : time ≤ made
  le_clock : made ≤ s.clock
  code : ∀ source time, s.entryAt? (p.location home) = some (.file source time) → since ≤ time →
    time ≤ made → e.textOf p source = .ok text

/-- Edits come later, so that what was written before is then too old. -/
theorem Written.allows (h : e.Written p home since text time l made σ.store)
    (hl : l ≠ p.location home) (hheld : σ.holder (e.cache.key p) = some i)
    (hστ : e.Allows p home since i pending σ τ) :
    e.Written p home since text time l made τ.store := by
  refine ⟨(hστ.held hheld l hl).trans h.entry, h.time_le, h.le_clock.trans hστ.clock,
    fun source time hentry hsince hle => ?_⟩
  rcases hστ.edited source time hentry with hsame | ⟨hlater, -⟩
  · exact h.code source time hsame hsince hle
  · exact absurd (hlater.trans_le (hle.trans h.le_clock)) (lt_irrefl _)

theorem fits_remove {next : (Action.remove temp).Answer → Job α}
    (hl : temp.location home ≠ p.location home) (hplace : temp.location home ≠ e.cache.place home p)
    (hheld : σ.holder (e.cache.key p) = some i)
    (hnext : ∀ answer τ, τ.holder (e.cache.key p) = some i →
      (next answer).Fits (edited e p home since) i post τ) :
    (Job.act (.remove temp) next).Fits (edited e p home since) i post σ := by
  refine fits_change rfl hheld fun τ _ hτ _ => ⟨?_, fun υ hυ _ => hnext _ υ hυ⟩
  show e.Change p home since τ.store (τ.store.changed (τ.store.drop temp)).2
  rcases Store.changed_cases (τ.store.drop temp) with ⟨t, ht, hok⟩ | ⟨cause, herror⟩
  · obtain ⟨_, _, -, rfl⟩ := Store.drop_ok ht
    rw [hok, hτ.workingDir]
    exact .of_onlyAt Store.onlyAt_delete hl hplace
  · rw [herror]
    exact .refl

theorem fits_createTemp {next : (Action.createTemp e.cache.dir).Answer → Job α}
    (hext : Settings.isExtension e.settings.extension = true)
    (hheld : σ.holder (e.cache.key p) = some i) (hcode : e.IsCode p home since text time σ.store)
    (herror : ∀ cause τ, τ.holder (e.cache.key p) = some i →
      (next (.error cause : Except OsError Path)).Fits (edited e p home since) i post τ)
    (hok : ∀ temp τ, τ.holder (e.cache.key p) = some i → e.IsCode p home since text time τ.store →
      temp.location home ≠ p.location home → temp.location home ≠ e.cache.place home p →
        (next (.ok temp : Except OsError Path)).Fits (edited e p home since) i post τ) :
    (Job.act (.createTemp e.cache.dir) next).Fits (edited e p home since) i post σ := by
  refine fits_change rfl hheld fun τ hστ hτ _ => ?_
  have hcode := hcode.allows rfl hστ
  cases hcreate : τ.store.createTemp e.cache.dir with
  | error cause =>
    rw [Store.perform_createTemp_error hcreate]
    exact ⟨.refl, fun υ hυ _ => herror cause υ hυ⟩
  | ok r =>
    obtain ⟨temp, t⟩ := r
    rw [Store.perform_createTemp hcreate]
    obtain ⟨k, rfl, hfree, rfl⟩ := Store.createTemp_ok hcreate
    rw [hτ.workingDir] at hfree ⊢
    have hplace : (e.cache.dir.join ⟨Store.tempName k⟩).location home ≠ e.cache.place home p :=
      Cache.tempName_ne_place hext k
    generalize e.cache.dir.join ⟨Store.tempName k⟩ = temp at hfree hplace
    -- The place was free, so it is not that of the template.
    have hl : temp.location home ≠ p.location home := by
      intro heq
      obtain ⟨source, time, hsource, -⟩ := hτ.source
      cases (heq ▸ hfree).symm.trans hsource
    have hchange : e.Change p home since τ.store _ :=
      .of_onlyAt (Store.onlyAt_put (e := .file ⟨[], []⟩ τ.store.clock)) hl hplace
    refine ⟨hchange, fun υ hυ hstore => hok temp υ hυ ⟨?_, fun source time hentry => ?_⟩ hl hplace⟩
    · rw [hstore]
      exact hcode.time_le
    · rw [hstore, hchange.source] at hentry
      exact hcode.code source time hentry

theorem fits_write {next : (Action.write temp text).Answer → Job α}
    (hl : temp.location home ≠ p.location home) (hplace : temp.location home ≠ e.cache.place home p)
    (hheld : σ.holder (e.cache.key p) = some i) (hcode : e.IsCode p home since text time σ.store)
    (herror : ∀ cause τ, τ.holder (e.cache.key p) = some i →
      (next (.error cause : Except OsError Unit)).Fits (edited e p home since) i post τ)
    (hok : ∀ made τ, τ.holder (e.cache.key p) = some i →
      e.Written p home since text time (temp.location home) made τ.store →
        (next (.ok () : Except OsError Unit)).Fits (edited e p home since) i post τ) :
    (Job.act (.write temp text) next).Fits (edited e p home since) i post σ := by
  refine fits_change rfl hheld fun τ hστ hτ _ => ?_
  have hcode := hcode.allows rfl hστ
  have hperform : τ.store.perform (.write temp text) =
      τ.store.changed (τ.store.save temp (.ofText text) τ.store.clock) := rfl
  rw [hperform]
  rcases Store.changed_cases (τ.store.save temp (.ofText text) τ.store.clock) with
    ⟨t, ht, hdone⟩ | ⟨cause, hfail⟩
  -- The text is at its place then, and nothing else has changed.
  · rw [hdone]
    obtain ⟨hdir, rfl⟩ := Store.save_ok ht
    rw [hτ.workingDir] at hdir ⊢
    have hchange : e.Change p home since τ.store _ :=
      .of_onlyAt (Store.onlyAt_put (e := .file (.ofText text) τ.store.clock)) hl hplace
    refine ⟨hchange, fun υ hυ hstore => hok τ.store.clock υ hυ ⟨?_, hcode.time_le, ?_, ?_⟩⟩
    · rw [hstore]
      exact Store.entryAt?_put_self (Store.ne_root_of_entryAt? hdir)
    · rw [hstore]
      exact le_rfl
    · intro source time hentry hsince _
      rw [hstore, hchange.source] at hentry
      exact hcode.code source time hentry hsince
  · rw [hfail]
    exact ⟨.refl, fun υ hυ _ => herror cause υ hυ⟩

theorem fits_rename {next : (Action.rename temp (e.cache.artifactPath p)).Answer → Job α}
    (hext : Settings.isExtension e.settings.extension = true)
    (hapart : p.location home ≠ e.cache.place home p)
    (hl : temp.location home ≠ p.location home) (hheld : σ.holder (e.cache.key p) = some i)
    (hwritten : e.Written p home since text time (temp.location home) made σ.store)
    (herror : ∀ cause τ, τ.holder (e.cache.key p) = some i →
      (next (.error cause : Except OsError Unit)).Fits (edited e p home since) i post τ)
    (hok : ∀ made τ, τ.holder (e.cache.key p) = some i → time ≤ made →
      τ.store.entryAt? (e.cache.place home p) = some (.file (.ofText text) made) →
        (next (.ok () : Except OsError Unit)).Fits (edited e p home since) i post τ) :
    (Job.act (.rename temp (e.cache.artifactPath p)) next).Fits (edited e p home since) i
    post σ := by
  refine fits_change rfl hheld fun τ hστ hτ _ => ?_
  have hwritten := hwritten.allows hl hheld hστ
  have hperform : τ.store.perform (.rename temp (e.cache.artifactPath p)) =
      τ.store.changed (τ.store.move temp (e.cache.artifactPath p)) := rfl
  rw [hperform]
  rcases Store.changed_cases (τ.store.move temp (e.cache.artifactPath p)) with
    ⟨t, ht, hdone⟩ | ⟨cause, hfail⟩
  · rw [hdone]
    -- What is moved is what was written.
    obtain ⟨contents, made', hfind, rfl⟩ := Store.move_ok ht
    have hentry := Store.entryAt?_of_find hfind
    rw [hτ.workingDir, hwritten.entry] at hentry
    cases hentry
    rw [hτ.workingDir, Cache.location_artifactPath]
    have hroot : e.cache.place home p ≠ [] := by
      rw [Cache.place_eq hext]
      simp
    have hput := Store.entryAt?_put_self (s := τ.store.delete (temp.location home))
      (e := .file (.ofText text) made) hroot
    refine ⟨⟨rfl, rfl, ?_, fun contents made' hentry => .inr ?_⟩, fun υ hυ hstore => ?_⟩
    · rw [Store.entryAt?_put_of_ne hapart, Store.entryAt?_delete_of_ne hl.symm]
    · cases hput.symm.trans hentry
      exact ⟨hwritten.le_clock, fun source time hsource hsince _ hle =>
        ⟨text, hwritten.code source time hsource hsince hle, rfl⟩⟩
    · exact hok made υ hυ hwritten.time_le (by rw [hstore, hput])
  · rw [hfail]
    exact ⟨.refl, fun υ hυ _ => herror cause υ hυ⟩

theorem fits_publish {post : Except TemplateError Unit → Scene n → Prop}
    (hext : Settings.isExtension e.settings.extension = true)
    (hapart : p.location home ≠ e.cache.place home p)
    (hheld : σ.holder (e.cache.key p) = some i) (hcode : e.IsCode p home since text time σ.store)
    (herror : ∀ error τ, τ.holder (e.cache.key p) = some i → post (.error error) τ)
    (hok : ∀ made τ, τ.holder (e.cache.key p) = some i → time ≤ made →
      τ.store.entryAt? (e.cache.place home p) = some (.file (.ofText text) made) →
        post (.ok ()) τ) :
    (e.cache.publish p (e.cache.artifactPath p) text).run.Fits (edited e p home since) i
    post σ := by
  refine Attempt.fits_bind (Attempt.fits_orCompileError ?_)
  refine fits_createTemp hext hheld hcode (fun cause τ hτ => herror _ τ hτ) ?_
  intro temp τ hτ hcode hl hplace
  refine Attempt.fits_bind (Attempt.fits_orCompileError ?_)
  refine fits_write hl hplace hτ hcode (fun cause υ hυ => ?_) fun made υ hυ hwritten => ?_
  · exact fits_remove hl hplace hυ fun _ _ hφ => herror _ _ hφ
  refine Attempt.fits_orCompileError ?_
  refine fits_rename hext hapart hl hυ hwritten (fun cause φ hφ => ?_) hok
  exact fits_remove hl hplace hφ fun _ _ hχ => herror _ _ hχ

theorem fits_settleTime {post : Except TemplateError Unit → Scene n → Prop}
    (hapart : p.location home ≠ e.cache.place home p)
    (hheld : σ.holder (e.cache.key p) = some i) (hle : time ≤ made)
    (hentry : σ.store.entryAt? (e.cache.place home p) = some (.file contents made))
    (hpost : ∀ τ, τ.holder (e.cache.key p) = some i → post (.ok ()) τ) :
    (Cache.settleTime p (e.cache.artifactPath p) time).run.Fits (edited e p home since) i
    post σ := by
  refine Attempt.fits_bind (Attempt.fits_lift (fits_reading rfl fun τ hστ hτ => ?_))
  have hdone : post (.ok ()) τ := hpost τ ((hστ.holder _).mpr hheld)
  cases hfind : τ.store.find (e.cache.artifactPath p) with
  | error cause =>
    rw [Store.perform_modified_missing hfind]
    exact hdone
  | ok entry =>
    have hsame := Store.entryAt?_of_find hfind
    rw [hτ.workingDir, Cache.location_artifactPath, hστ.held hheld _ hapart.symm, hentry] at hsame
    obtain rfl := Option.some.inj hsame
    rw [Store.perform_modified hfind]
    simp only [Job.Fits, Attempt.Then, if_neg (Nat.not_lt.mpr hle)]
    exact hdone

end Publishing

section Calls

variable {post : Except TemplateError Compiled → Scene n → Prop}

theorem yields_perform {P : Store → Prop} (h : action.isReading = true) :
    (Job.perform action).Yields P (fun _ => True) :=
  ⟨h, fun _ _ => trivial⟩

theorem yields_upToDate (artifact : Path) :
    (Cache.upToDate time artifact).Yields (fun _ => True) (fun _ => True) := by
  refine (yields_perform rfl).bind fun answer _ => ?_
  cases answer with
  | error cause => trivial
  | ok made =>
    dsimp only
    split
    · trivial
    · exact (yields_perform rfl).bind fun _ _ => trivial

theorem yields_describe (c : Cache) (recompiled : Bool) :
    (c.describe p time recompiled).run.Yields (fun _ => True) (fun _ => True) := by
  refine Job.Yields.bind (Q := fun _ => True) ?_ fun r _ => by cases r <;> trivial
  exact (yields_perform rfl).bind fun r _ => by cases r <;> trivial

/-- What a call does while it holds the lock. -/
theorem fits_recompile (hext : Settings.isExtension e.settings.extension = true)
    (hapart : p.location home ≠ e.cache.place home p)
    (hheld : σ.holder (e.cache.key p) = some i) (htime : time ≤ σ.store.clock)
    (hpost : ∀ r τ, τ.holder (e.cache.key p) = some i → post r τ) :
    (e.cache.recompile e.compileText p time).run.Fits (edited e p home since) i post σ := by
  have hdescribe : ∀ recompiled τ, τ.holder (e.cache.key p) = some i →
      (e.cache.describe p time recompiled).run.Fits (edited e p home since) i post τ :=
    fun recompiled τ hτ => fits_yields (yields_describe _ _) fun r υ hτυ =>
      hpost r υ ((hτυ.holder _).mpr hτ)
  refine Attempt.fits_bind
    (Attempt.fits_lift (fits_yields (yields_upToDate _) fun fresh τ hστ => ?_))
  have hheld : τ.holder (e.cache.key p) = some i := (hστ.holder _).mpr hheld
  have htime : time ≤ τ.store.clock := htime.trans hστ.clock
  -- Another call may have made the artifact while this one waited for the lock.
  cases fresh with
  | true => exact hdescribe false τ hheld
  | false =>
    refine Attempt.fits_bind
      (Attempt.fits_orCompileError (fits_change rfl hheld fun υ hτυ hυ _ => ?_))
    have hgrows : υ.store.Grows (υ.store.perform (.createDirs e.cache.dir)).2 :=
      Store.grows_createDirs _ _ _
    have htime : time ≤ υ.store.clock := htime.trans hτυ.clock
    refine ⟨.of_grows hυ hgrows, fun φ hφ hstore => ?_⟩
    have htime : time ≤ φ.store.clock := by rw [hstore, hgrows.clock]; exact htime
    cases ((υ.store.perform (.createDirs e.cache.dir)).1 : Except OsError Unit) with
    | error cause => exact hpost _ φ hφ
    | ok _ =>
      refine Attempt.fits_bind (fits_compileText fun r χ hφχ hχ hcode => ?_)
      have hheld : χ.holder (e.cache.key p) = some i := (hφχ.holder _).mpr hφ
      cases r with
      | error error => exact hpost _ χ hheld
      | ok text =>
        refine Attempt.fits_bind (fits_publish hext hapart hheld
          ⟨htime.trans hφχ.clock, fun source time hentry _ => hcode text source time rfl hentry⟩
          (fun error ψ hψ => hpost _ ψ hψ) fun made ψ hψ hle hentry => ?_)
        exact Attempt.fits_bind (fits_settleTime hapart hψ hle hentry fun ω hω =>
          hdescribe true ω hω)

theorem fits_locked {attempt : Attempt Compiled} (hfree : σ.Free i)
    (h : ∀ τ, τ.holder (e.cache.key p) = some i → σ.store.clock ≤ τ.store.clock →
      attempt.run.Fits (edited e p home since) i (fun _ τ => τ.holder (e.cache.key p) = some i) τ) :
    (Cache.locked (e.cache.key p) attempt).run.Fits (edited e p home since) i
    (fun _ _ => True) σ := by
  intro τ hστ hτ
  refine ⟨.inr fun key hkey => hfree key ((hστ.holder key).mp hkey), fun hallows => ?_⟩
  refine ⟨keeps_of_change hτ hallows .refl (.inl rfl), ?_⟩
  show (attempt.run >>= fun result => Job.perform (.unlock (e.cache.key p)) >>= fun _ =>
    pure result : Job _).Fits _ i _ _
  have hown : (τ.after i (.lock (e.cache.key p))).holder (e.cache.key p) = some i :=
    Function.update_self _ _ _
  have hclock : σ.store.clock ≤ (τ.after i (.lock (e.cache.key p))).store.clock := by
    rw [Scene.store_after_lock]
    exact hστ.clock
  refine Job.Fits.bind ((h _ hown hclock).imp fun r υ _ => ?_)
  intro φ _ hφ
  have hkeeps : (edited e p home since).Keeps i φ (.unlock (e.cache.key p)) :=
    keeps_of_change hφ rfl .refl (.inl rfl)
  exact ⟨.inl rfl, fun _ => ⟨hkeeps, trivial⟩⟩

theorem fits_compilePath (hext : Settings.isExtension e.settings.extension = true)
    (hapart : p.location home ≠ e.cache.place home p) (hfree : σ.Free i) :
    (e.compilePath p).run.Fits (edited e p home since) i (fun _ _ => True) σ := by
  refine Attempt.fits_bind (Attempt.fits_orCompileError (fits_reading rfl fun τ hστ hτ => ?_))
  have hfree : τ.Free i := fun key hkey => hfree key ((hστ.holder key).mp hkey)
  cases hfind : τ.store.find p with
  | error cause =>
    rw [Store.perform_modified_missing hfind]
    trivial
  | ok entry =>
    obtain ⟨source, time, hsource, htime⟩ := hτ.source
    have hentry := Store.entryAt?_of_find hfind
    rw [hτ.workingDir, hsource] at hentry
    obtain rfl := Option.some.inj hentry
    rw [Store.perform_modified hfind]
    refine Attempt.fits_bind
      (Attempt.fits_lift (fits_yields (yields_upToDate _) fun fresh υ hτυ => ?_))
    have hfree : υ.Free i := fun key hkey => hfree key ((hτυ.holder key).mp hkey)
    cases fresh with
    | true => exact fits_yields (yields_describe _ _) fun _ _ _ => trivial
    | false =>
      exact fits_locked hfree fun φ hφ hclock => fits_recompile hext hapart hφ
        ((htime.trans hτυ.clock).trans hclock) fun _ _ h => h

end Calls

section Editing

/-- What happens to a template while it is compiled: time goes by, and somebody writes it anew, at a
later time. From the time `since` on nobody does so between the reading of a template and the
writing of its artifact. -/
inductive Rewrites (p : Path) (since : Time) (pending : Fin n → Option Action) (σ : Scene n) :
    Scene n → Prop
  | wait {clock : Time} (h : σ.store.clock ≤ clock) :
    Rewrites p since pending σ { σ with store := { σ.store with clock } }
  | write {clock : Time} {contents : Contents} {t : Store} (hlater : σ.store.clock < clock)
    (hquiet : since ≤ clock → ∀ i action, pending i = some action → action.isWriting = false)
    (hsave : Store.save { σ.store with clock } p contents clock = .ok t) :
    Rewrites p since pending σ { σ with store := t }

/-- An edit makes the artifact too old. -/
theorem Settled.written {clock : Time} (hapart : p.location home ≠ e.cache.place home p)
    (h : e.Settled p home since s) (hlater : s.clock < clock)
    (hst : Store.OnlyAt (p.location home) { s with clock } t)
    (ht : t.entryAt? (p.location home) = some (.file source clock)) : e.Settled p home since t := by
  refine ⟨hst.workingDir.trans h.workingDir, ⟨source, clock, ht, hst.clock.ge⟩, ?_⟩
  intro source' time contents made hsource hentry
  cases ht.symm.trans hsource
  rw [hst.elsewhere _ hapart.symm] at hentry
  obtain ⟨source₀, time₀, hsource₀, -⟩ := h.source
  have hmade : made ≤ s.clock := (h.artifact source₀ time₀ contents made hsource₀ hentry).1
  rw [hst.clock]
  exact ⟨hmade.trans hlater.le, fun _ _ hle => absurd (hlater.trans_le (hle.trans hmade))
    (lt_irrefl _)⟩

theorem onlyAt_of_save {clock : Time} (hs : s.workingDir = home)
    (hsave : Store.save { s with clock } p contents clock = .ok t) :
    Store.OnlyAt (p.location home) { s with clock } t ∧
      t.entryAt? (p.location home) = some (.file contents clock) := by
  obtain ⟨hdir, rfl⟩ := Store.save_ok hsave
  subst hs
  exact ⟨Store.onlyAt_put, Store.entryAt?_put_self (Store.ne_root_of_entryAt? hdir)⟩

theorem admits_rewrites (hapart : p.location home ≠ e.cache.place home p) :
    Pool.Admits (edited e p home since)
      (fun (_ : Fin n) (_ : Except TemplateError Compiled) _ => True)
      (Rewrites p since) where
  inv := by
    rintro pending σ τ hmove hσ
    cases hmove with
    | wait hle =>
      obtain ⟨source, time, hsource, htime⟩ := hσ.source
      refine ⟨hσ.workingDir, ⟨source, time, hsource, htime.trans hle⟩, ?_⟩
      intro source time contents made hsource hentry
      obtain ⟨hmade, hright⟩ := hσ.artifact source time contents made hsource hentry
      exact ⟨hmade.trans hle, hright⟩
    | write hlater _ hsave =>
      obtain ⟨hst, ht⟩ := onlyAt_of_save hσ.workingDir hsave
      exact Settled.written hapart hσ hlater hst ht
  rely := by
    rintro pending σ τ i hmove hσ
    cases hmove with
    | wait hle => exact ⟨fun _ => .rfl, hle, fun _ _ => .inl, fun _ _ _ => rfl⟩
    | write hlater hquiet hsave =>
      obtain ⟨hst, ht⟩ := onlyAt_of_save hσ.workingDir hsave
      refine ⟨fun _ => .rfl, hlater.le.trans hst.clock.ge, fun source time hentry => .inr ?_,
        fun _ l hl => hst.elsewhere l hl⟩
      cases ht.symm.trans hentry
      exact ⟨hlater, fun hsince => hquiet hsince i⟩
  stable _ _ _ := trivial

def compilations (e : Engine) (p : Path) (n : Nat) (s : Store) :
    Pool n (Except TemplateError Compiled) :=
  ⟨.start s, fun _ => (e.compilePath p).run⟩

/-- The artifact of the template at `p` holds the code of the template as it is. -/
def HoldsCode (e : Engine) (p : Path) (s : Store) : Prop :=
  ∃ source time template g made, s.find p = .ok (.file source time) ∧
    source.text? = some template ∧ Directive.generate e.settings.delimiters template = .ok g ∧
      s.find (e.cache.artifactPath p) = .ok (.file (.ofText g.text) made)

/-- While a template is compiled and edited, an artifact that is called fresh holds the code of the
template as it is now, if the last edit did not fall between the reading of the template and the
writing of its artifact. At first neither may be dated in the future, and the artifact must not be
wrongly called fresh. -/
theorem fresh_of_edits (hext : Settings.isExtension e.settings.extension = true)
    (hapart : p.location s.workingDir ≠ e.cache.place s.workingDir p)
    (hfind : s.find p = .ok (.file source time)) (htime : time ≤ s.clock)
    (hartifact : ∀ contents made,
      s.entryAt? (e.cache.place s.workingDir p) = some (.file contents made) →
        made ≤ s.clock ∧ e.Right p source time contents made)
    {q : Pool n (Except TemplateError Compiled)}
    (hreach : Pool.Reach (Rewrites p since) (e.compilations p n s) q)
    (hsince : ∀ source time, q.scene.store.find p = .ok (.file source time) → since ≤ time)
    (hfresh : ((e.cache.isFresh p).run.run q.scene.store).1 = .ok true) :
    e.HoldsCode p q.scene.store := by
  have hstart : (e.compilations p n s).Fits (edited e p s.workingDir since) fun _ _ _ => True := by
    have hsource := Store.entryAt?_of_find hfind
    refine ⟨⟨rfl, ⟨source, time, hsource, htime⟩, fun source' time' contents made hsource' => ?_⟩,
      fun i => fits_compilePath hext hapart nofun⟩
    cases hsource.symm.trans hsource'
    intro hentry
    exact (hartifact contents made hentry).imp_right fun hright _ => hright
  -- The invariant holds of the last store, where the check has found the source and the artifact.
  have hq : e.Settled p s.workingDir since q.scene.store :=
    (hstart.reach (admits_rewrites hapart) hreach).inv
  cases hfind : q.scene.store.find p with
  | error cause =>
    rw [Cache.run_isFresh_missing hfind] at hfresh
    cases hfresh
  | ok entry =>
    obtain ⟨source, time, hsource, -⟩ := hq.source
    have hentry := Store.entryAt?_of_find hfind
    rw [hq.workingDir, hsource] at hentry
    obtain rfl := Option.some.inj hentry
    rw [Cache.run_isFresh hfind] at hfresh
    obtain ⟨contents, made, hartifact, hle, hheader⟩ :=
      Cache.fresh_iff.mp (Except.ok.inj hfresh)
    have hplace := Store.entryAt?_of_find hartifact
    rw [hq.workingDir, Cache.location_artifactPath] at hplace
    obtain ⟨text, htext, rfl⟩ := (hq.artifact source time contents made hsource hplace).2
      (hsince source time hfind) hheader hle
    obtain ⟨template, g, -, htemplate, hg, -, rfl⟩ := textOf_ok.mp htext
    exact ⟨source, time, template, g, made, hfind, htemplate, hg, hartifact⟩

end Editing

section Schedules

/-- One step of a schedule: a turn of a job, or an edit. -/
inductive Move (n : Nat) where
  | turn (i : Fin n)
  | edit (contents : Contents) (clock : Time)

def moved (p : Path) (since : Time) (q : Pool n (Except TemplateError Compiled)) :
    Move n → Option (Pool n (Except TemplateError Compiled))
  | .turn i => q.act i
  | .edit contents clock =>
    if q.scene.store.clock < clock ∧
        (since ≤ clock → ∀ i, (q.pending i).any Action.isWriting = false) then
      match Store.save { q.scene.store with clock } p contents clock with
      | .ok store => some ⟨{ q.scene with store }, q.jobs⟩
      | .error _ => none
    else none

variable {q r : Pool n (Except TemplateError Compiled)}

theorem turn_of_moved {move : Move n} (h : moved p since q move = some r) :
    Pool.Turn (Rewrites p since) q r := by
  cases move with
  | turn i => exact .act i h
  | edit contents clock =>
    simp only [moved] at h
    split at h
    · rename_i hfree
      split at h
      · rename_i hsave
        cases h
        refine .move (.write hfree.1 (fun hsince i action hpending => ?_) hsave)
        simpa [hpending] using hfree.2 hsince i
      · cases h
    · cases h

theorem reach_of_moves {moves : List (Move n)} (h : moves.foldlM (moved p since) q = some r) :
    Pool.Reach (Rewrites p since) q r := by
  induction moves generalizing q with
  | nil =>
    cases h
    exact .refl
  | cons move moves ih =>
    obtain ⟨a, ha, hr⟩ := Option.bind_eq_some_iff.mp h
    exact .head (turn_of_moved ha) (ih hr)

def finished (q : Pool n (Except TemplateError Compiled)) : Prop :=
  ∀ i, q.pending i = none

instance : Decidable (finished q) := inferInstanceAs (Decidable (∀ i, q.pending i = none))

theorem exists_done (h : finished q) (i : Fin n) : ∃ r, q.jobs i = .done r := by
  have hi := h i
  cases hjob : q.jobs i with
  | done r => exact ⟨r, rfl⟩
  | act action next =>
    rw [Pool.pending_of_act hjob] at hi
    cases hi

theorem not_holdsCode {template text : String}
    (hsource : s.find p = .ok (.file (.ofText template) time))
    (hartifact : s.find (e.cache.artifactPath p) = .ok (.file (.ofText text) made))
    (hne : (Directive.generate e.settings.delimiters template).toOption.map (·.text) ≠ some text) :
    ¬e.HoldsCode p s := by
  rintro ⟨source, time', template', g, made', hsource', htemplate, hg, hartifact'⟩
  cases hsource.symm.trans hsource'
  rw [Contents.text?_ofText] at htemplate
  cases htemplate
  have hentry := Except.ok.inj (hartifact.symm.trans hartifact')
  have htext := congrArg Contents.text? (FileEntry.file.inj hentry).1
  rw [Contents.text?_ofText, Contents.text?_ofText, Option.some.injEq] at htext
  rw [hg] at hne
  exact hne (congrArg some htext.symm)

/-- An engine in `/site`, with a template `old` there that was never compiled. -/
def sampleEngine : Engine :=
  ⟨{ Settings.standard with templateDir := ⟨"views"⟩, cacheDir := ⟨"cache"⟩ }, Run.builtins,
    ⟨"/site"⟩, 9⟩

def samplePath : Path := ⟨"views/a.tpl"⟩

def sampleStore : Store :=
  ⟨[(["site"], .directory), (["site", "cache"], .directory), (["site", "views"], .directory),
    (["site", "views", "a.tpl"], .file (.ofText "old") 5)], ["site"], 7⟩

def sampleCalls (n : Nat) : Pool n (Except TemplateError Compiled) :=
  sampleEngine.compilations samplePath n sampleStore

def outlook (s : Store) : Except OsError FileEntry × Except OsError FileEntry × Bool :=
  (s.find samplePath, s.find (sampleEngine.cache.artifactPath samplePath),
    ((sampleEngine.cache.isFresh samplePath).run.run s).1 matches .ok true)

theorem isFresh_of_outlook {a b : Except OsError FileEntry} (h : outlook s = (a, b, true)) :
    ((sampleEngine.cache.isFresh samplePath).run.run s).1 = .ok true := by
  have hfresh := congrArg (·.2.2) h
  simp only [outlook] at hfresh
  split at hfresh
  · assumption
  · cases hfresh

/-- An edit is lost between the reading of the template and the writing of its artifact. It is not
the last: a later one comes after a call has found the artifact stale, and before it reads the
template. -/
theorem fresh_of_edits_of_two :
    ∃ q, Pool.Reach (Rewrites samplePath 10) (sampleCalls 2) q ∧ (∀ i, ∃ r, q.jobs i = .done r) ∧
      ((sampleEngine.cache.isFresh samplePath).run.run q.scene.store).1 = .ok true ∧
      sampleEngine.HoldsCode samplePath q.scene.store := by
  let moves : List (Move 2) := List.replicate 6 (.turn 0) ++ [.edit (.ofText "lost") 9] ++
    List.replicate 6 (.turn 0) ++ [.edit (.ofText "new") 10] ++ List.replicate 12 (.turn 1)
  have hend : ((moves.foldlM (moved samplePath 10) (sampleCalls 2)).map fun q =>
      (decide (finished q), q.scene.store.find samplePath, (outlook q.scene.store).2.2)) =
        some (true, .ok (.file (.ofText "new") 10), true) := by decide +kernel
  obtain ⟨q, hq, hout⟩ := Option.map_eq_some_iff.mp hend
  obtain ⟨hfinished, hout⟩ := Prod.mk.inj hout
  obtain ⟨hsource, hfresh⟩ := Prod.mk.inj hout
  have hreach := reach_of_moves hq
  have hisFresh := isFresh_of_outlook (s := q.scene.store) (Prod.ext rfl (Prod.ext rfl hfresh))
  refine ⟨q, hreach, exists_done (of_decide_eq_true hfinished), hisFresh, ?_⟩
  have hfind : sampleStore.find samplePath = .ok (.file (.ofText "old") 5) := by decide +kernel
  have hnone : sampleStore.entryAt? (sampleEngine.cache.place sampleStore.workingDir samplePath) =
      none := by decide +kernel
  refine fresh_of_edits (by decide) (by decide +kernel) hfind (by decide) ?_ hreach ?_ hisFresh
  · intro contents made hentry
    cases hnone.symm.trans hentry
  · intro source time hnow
    cases hsource.symm.trans hnow
    exact le_rfl

/-- An edit between the reading of a template and the writing of its artifact is lost, and so is one
that is dated by a clock behind the one of the artifacts. -/
theorem not_fresh_of_edits :
    (∃ q, Pool.Reach (Rewrites samplePath 9) (sampleCalls 1) q ∧ (∀ i, ∃ r, q.jobs i = .done r) ∧
      ((sampleEngine.cache.isFresh samplePath).run.run q.scene.store).1 = .ok true ∧
      ¬sampleEngine.HoldsCode samplePath q.scene.store) ∧
    ∃ q t, Pool.Reach (Rewrites samplePath 0) (sampleCalls 1) q ∧ (∀ i, ∃ r, q.jobs i = .done r) ∧
      q.scene.store.save samplePath (.ofText "new") 6 = .ok t ∧
      ((sampleEngine.cache.isFresh samplePath).run.run t).1 = .ok true ∧
      ¬sampleEngine.HoldsCode samplePath t := by
  have hnew : (Directive.generate sampleEngine.settings.delimiters "new").toOption.map (·.text) ≠
      some "#!stencil-artifact v1 stencil/0.1.0\nold" := by decide +kernel
  constructor
  · -- The template is read, then edited, and the code of the old text is written after that.
    let moves : List (Move 1) := List.replicate 6 (.turn 0) ++ [.edit (.ofText "new") 8] ++
      List.replicate 6 (.turn 0)
    have hend : ((moves.foldlM (moved samplePath 9) (sampleCalls 1)).map fun q =>
        (decide (finished q), outlook q.scene.store)) =
          some (true, .ok (.file (.ofText "new") 8),
            .ok (.file (.ofText "#!stencil-artifact v1 stencil/0.1.0\nold") 8), true) := by
      decide +kernel
    obtain ⟨q, hq, hout⟩ := Option.map_eq_some_iff.mp hend
    obtain ⟨hfinished, hout⟩ := Prod.mk.inj hout
    obtain ⟨hsource, hout'⟩ := Prod.mk.inj hout
    exact ⟨q, reach_of_moves hq, exists_done (of_decide_eq_true hfinished), isFresh_of_outlook hout,
      not_holdsCode hsource (Prod.mk.inj hout').1 hnew⟩
  · let moves : List (Move 1) := List.replicate 12 (.turn 0)
    have hend : ((moves.foldlM (moved samplePath 0) (sampleCalls 1)).map fun q =>
        (decide (finished q), (q.scene.store.save samplePath (.ofText "new") 6).map outlook)) =
          some (true, .ok (.ok (.file (.ofText "new") 6),
            .ok (.file (.ofText "#!stencil-artifact v1 stencil/0.1.0\nold") 7), true)) := by
      decide +kernel
    obtain ⟨q, hq, hout⟩ := Option.map_eq_some_iff.mp hend
    obtain ⟨hfinished, hout⟩ := Prod.mk.inj hout
    cases hsave : q.scene.store.save samplePath (.ofText "new") 6 with
    | error cause =>
      rw [hsave] at hout
      cases hout
    | ok t =>
      rw [hsave] at hout
      have hout : outlook t = _ := Except.ok.inj hout
      obtain ⟨hsource, hout'⟩ := Prod.mk.inj hout
      exact ⟨q, t, reach_of_moves hq, exists_done (of_decide_eq_true hfinished), hsave,
        isFresh_of_outlook hout, not_holdsCode hsource (Prod.mk.inj hout').1 hnew⟩

end Schedules

end Engine

end ViewTemplate
