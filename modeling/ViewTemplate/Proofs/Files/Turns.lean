import ViewTemplate.Proofs.Files.Running
import Mathlib.Data.DFinsupp.WellFounded
import Mathlib.Logic.Relation

namespace ViewTemplate

/-- What jobs that take turns act on: the files, the locks, and what was done so far. -/
structure Scene (n : Nat) where
  store : Store
  /-- The job that holds the lock of a key. -/
  holder : String → Option (Fin n)
  /-- The actions that were performed, with the jobs that asked for them. -/
  log : List (Fin n × Action)

/-- Jobs and what they act on. -/
structure Pool (n : Nat) (α : Type) where
  scene : Scene n
  jobs : Fin n → Job α

variable {n : Nat} {α β : Type} {i j : Fin n} {σ τ υ : Scene n} {action : Action}

/-- Actions on locks. -/
def Action.isLocking : Action → Bool
  | .lock _ | .unlock _ => true
  | _ => false

namespace Scene

def start (s : Store) : Scene n := ⟨s, fun _ => none, []⟩

/-- A lock that is held makes a job wait; nothing else does. -/
def allows (σ : Scene n) : Action → Bool
  | .lock key => (σ.holder key).isNone
  | _ => true

/-- Who holds the locks after an action of job `i`. -/
def holderAfter (σ : Scene n) (i : Fin n) : Action → String → Option (Fin n)
  | .lock key => Function.update σ.holder key (some i)
  | .unlock key => if σ.holder key = some i then Function.update σ.holder key none else σ.holder
  | _ => σ.holder

def after (σ : Scene n) (i : Fin n) (action : Action) : Scene n :=
  ⟨(σ.store.perform action).2, σ.holderAfter i action, (i, action) :: σ.log⟩

theorem allows_of_isLocking (h : action.isLocking = false) : σ.allows action = true := by
  cases action <;> first | rfl | cases h

theorem holderAfter_of_isLocking (h : action.isLocking = false) :
    σ.holderAfter i action = σ.holder := by
  cases action <;> first | rfl | cases h

theorem store_after_lock (key : String) : (σ.after i (.lock key)).store = σ.store := rfl

def Free (σ : Scene n) (i : Fin n) : Prop := ∀ key, σ.holder key ≠ some i

/-- Only a free lock is taken, and only the own one is given back. -/
theorem holderAfter_eq (hij : i ≠ j) (h : σ.allows action = true) (key : String) :
    σ.holderAfter i action key = some j ↔ σ.holder key = some j := by
  cases action with
  | lock k =>
    have hnone : σ.holder k = none := Option.isNone_iff_eq_none.mp h
    by_cases hk : key = k
    · subst hk
      simp [holderAfter, hnone, hij]
    · simp [holderAfter, hk]
  | unlock k =>
    by_cases hown : σ.holder k = some i
    · by_cases hk : key = k
      · subst hk
        simp [holderAfter, hown, hij]
      · simp [holderAfter, hown, hk]
    · simp [holderAfter, hown]
  | _ => rfl

end Scene

namespace Pool

variable {p q : Pool n α}

def act (p : Pool n α) (i : Fin n) : Option (Pool n α) :=
  match p.jobs i with
  | .done _ => none
  | .act action next =>
    if p.scene.allows action then
      some ⟨p.scene.after i action,
        Function.update p.jobs i (next (p.scene.store.perform action).1)⟩
    else none

def acts (p : Pool n α) (is : List (Fin n)) : Option (Pool n α) := is.foldlM act p

def pending (p : Pool n α) (i : Fin n) : Option Action :=
  match p.jobs i with
  | .done _ => none
  | .act action _ => some action

/-- A turn of a job, or a move of the world. What the world can do may depend on what the jobs are
about to do. -/
inductive Turn (world : (Fin n → Option Action) → Scene n → Scene n → Prop) :
    Pool n α → Pool n α → Prop
  | act {p q : Pool n α} (i : Fin n) (h : p.act i = some q) : Turn world p q
  | move {p : Pool n α} {τ : Scene n} (h : world p.pending p.scene τ) : Turn world p ⟨τ, p.jobs⟩

variable {world : (Fin n → Option Action) → Scene n → Scene n → Prop}

abbrev Reach (world : (Fin n → Option Action) → Scene n → Scene n → Prop) :
    Pool n α → Pool n α → Prop :=
  Relation.ReflTransGen (Turn world)

theorem reach_of_acts {is : List (Fin n)} (h : p.acts is = some q) : Reach world p q := by
  induction is generalizing p with
  | nil =>
    cases h
    exact .refl
  | cons i is ih =>
    obtain ⟨r, hr, hq⟩ := Option.bind_eq_some_iff.mp h
    exact .head (.act i hr) (ih hq)

theorem act_eq_some : p.act i = some q ↔ ∃ action next, p.jobs i = .act action next ∧
    p.scene.allows action = true ∧ q = ⟨p.scene.after i action,
      Function.update p.jobs i (next (p.scene.store.perform action).1)⟩ := by
  unfold act
  cases hjob : p.jobs i with
  | done a => simp
  | act action next =>
    dsimp only
    split
    · rename_i hallows
      constructor
      · rintro ⟨⟩
        exact ⟨action, next, rfl, hallows, rfl⟩
      · rintro ⟨_, _, ⟨⟩, _, rfl⟩
        rfl
    · rename_i hno
      constructor
      · rintro ⟨⟩
      · rintro ⟨_, _, ⟨⟩, hallows, _⟩
        exact absurd hallows hno

section Ending

/-- What is left of a job after one of its actions. -/
inductive Continues : Job α → Job α → Prop
  | act {action : Action} (next : action.Answer → Job α) (answer : action.Answer) :
    Continues (next answer) (.act action next)

theorem wellFounded_continues : WellFounded (Continues (α := α)) := by
  refine ⟨fun job => ?_⟩
  induction job with
  | done a => exact ⟨_, fun _ h => nomatch h⟩
  | act action next ih =>
    refine ⟨_, ?_⟩
    rintro _ ⟨_, answer⟩
    exact ih answer

theorem continues_of_act (h : p.act i = some q) :
    Pi.Lex (· < ·) (fun {_ : Fin n} => Continues (α := α)) q.jobs p.jobs := by
  obtain ⟨action, next, hjob, -, rfl⟩ := act_eq_some.mp h
  refine ⟨i, fun j hj => Function.update_of_ne hj.ne _ _, ?_⟩
  simp only [Function.update_self, hjob]
  exact .act next _

/-- Jobs do not take turns for ever: in an endless run there comes a time from which on only the
world moves. -/
theorem exists_jobs_eq (f : Nat → Pool n α) (h : ∀ k, Turn world (f k) (f (k + 1))) :
    ∃ m, ∀ k, m ≤ k → (f k).jobs = (f m).jobs := by
  have hwf : WellFounded (Pi.Lex (· < ·) fun {_ : Fin n} => Continues (α := α)) :=
    Pi.Lex.wellFounded _ fun _ => wellFounded_continues
  -- the jobs at a time after which there are never lesser ones
  obtain ⟨_, ⟨m, rfl⟩, hmin⟩ := hwf.has_min (Set.range fun k => (f k).jobs) ⟨_, 0, rfl⟩
  refine ⟨m, fun k hk => ?_⟩
  induction k, hk using Nat.le_induction with
  | base => rfl
  | succ k _ ih =>
    have hturn := h k
    have hleast := hmin _ ⟨k + 1, rfl⟩
    dsimp only at hleast
    generalize f (k + 1) = q at hturn hleast
    cases hturn with
    | move hworld => exact ih
    | act i hact => exact absurd (ih ▸ continues_of_act hact) hleast

end Ending

end Pool

/-- What holds whenever no job is in the middle of an action, and what each job relies on of the
others while it is about to do the given action. -/
structure Contract (n : Nat) where
  inv : Scene n → Prop
  rely : Fin n → Option Action → Scene n → Scene n → Prop
  refl : ∀ i pending σ, rely i pending σ σ
  trans : ∀ {i pending σ τ υ}, rely i pending σ τ → rely i pending τ υ → rely i pending σ υ

variable {C : Contract n}

/-- An action of job `i` keeps to the contract. -/
structure Contract.Keeps (C : Contract n) (i : Fin n) (σ : Scene n) (action : Action) : Prop where
  inv : C.inv (σ.after i action)
  others : ∀ j, j ≠ i → ∀ pending, C.rely j pending σ (σ.after i action)

/-- Job `i` keeps to the contract if the others do, never waits for a lock while it holds one, and
ends as `post` says. -/
def Job.Fits (C : Contract n) (i : Fin n) (post : α → Scene n → Prop) : Job α → Scene n → Prop
  | .done a, σ => post a σ
  | .act action next, σ => ∀ τ, C.rely i (some action) σ τ → C.inv τ →
    (τ.allows action = true ∨ τ.Free i) ∧ (τ.allows action = true → C.Keeps i τ action ∧
      (next (τ.store.perform action).1).Fits C i post (τ.after i action))

namespace Job.Fits

variable {post post' : α → Scene n → Prop}

theorem imp {job : Job α} (h : job.Fits C i post σ) (hpost : ∀ a τ, post a τ → post' a τ) :
    job.Fits C i post' σ := by
  induction job generalizing σ with
  | done a => exact hpost a σ h
  | act action next ih =>
    intro τ hrely hinv
    obtain ⟨hwait, hstep⟩ := h τ hrely hinv
    exact ⟨hwait, fun hallows => ⟨(hstep hallows).1, ih _ (hstep hallows).2⟩⟩

theorem bind {job : Job α} {f : α → Job β} {post : β → Scene n → Prop}
    (h : job.Fits C i (fun a τ => (f a).Fits C i post τ) σ) : (job >>= f).Fits C i post σ := by
  induction job generalizing σ with
  | done a => exact h
  | act action next ih =>
    intro τ hrely hinv
    obtain ⟨hwait, hstep⟩ := h τ hrely hinv
    exact ⟨hwait, fun hallows => ⟨(hstep hallows).1, ih _ (hstep hallows).2⟩⟩

theorem act {next : action.Answer → Job α} (hfree : action.isLocking = false)
    (h : ∀ τ, C.rely i (some action) σ τ → C.inv τ → C.Keeps i τ action ∧
      (next (τ.store.perform action).1).Fits C i post (τ.after i action)) :
    (Job.act action next).Fits C i post σ :=
  fun τ hrely hinv => ⟨.inl (Scene.allows_of_isLocking hfree), fun _ => h τ hrely hinv⟩

theorem of_rely {job : Job α} {pending : Option Action} (h : job.Fits C i post σ)
    (hpending : ∀ action next, job = .act action next → pending = some action)
    (hdone : ∀ a, job = .done a → post a τ) (hrely : C.rely i pending σ τ) :
    job.Fits C i post τ := by
  cases job with
  | done a => exact hdone a rfl
  | act action next =>
    rw [hpending action next rfl] at hrely
    exact fun υ hυ hinv => h υ (C.trans hrely hυ) hinv

end Job.Fits

namespace Attempt

variable {post : Except TemplateError β → Scene n → Prop}

/-- What an attempt goes on with: the rest after a success, nothing after a failure. -/
def Then (C : Contract n) (i : Fin n) (post : Except TemplateError β → Scene n → Prop)
    (f : α → Attempt β) : Except TemplateError α → Scene n → Prop
  | .ok a, σ => (f a).run.Fits C i post σ
  | .error e, σ => post (.error e) σ

theorem fits_bind {x : Attempt α} {f : α → Attempt β} (h : x.run.Fits C i (Then C i post f) σ) :
    (x >>= f).run.Fits C i post σ := by
  show (x.run >>= ExceptT.bindCont f).Fits C i post σ
  refine Job.Fits.bind (h.imp fun r τ hr => ?_)
  cases r with
  | ok a => exact hr
  | error e => exact hr

theorem fits_lift {job : Job β} (h : job.Fits C i (fun a τ => post (.ok a) τ) σ) :
    (ExceptT.lift job : Attempt β).run.Fits C i post σ :=
  Job.Fits.bind h

theorem fits_orCompileError {source : Path} {doing : String} {job : Job (Except OsError β)}
    (h : job.Fits C i
      (fun r τ => post (r.mapError fun e => .compile source (.file doing e)) τ) σ) :
    (orCompileError source doing job).run.Fits C i post σ := by
  refine Job.Fits.bind (h.imp fun r τ hr => ?_)
  cases r with
  | ok a => exact hr
  | error e => exact hr

end Attempt

namespace Pool

variable {p q : Pool n α} {world : (Fin n → Option Action) → Scene n → Scene n → Prop}
  {post : Fin n → α → Scene n → Prop}

/-- All jobs of a pool keep to a contract. -/
structure Fits (C : Contract n) (post : Fin n → α → Scene n → Prop) (p : Pool n α) : Prop where
  inv : C.inv p.scene
  job : ∀ i, (p.jobs i).Fits C i (post i) p.scene

/-- The world keeps to a contract, and results stay as they are. -/
structure Admits (C : Contract n) (post : Fin n → α → Scene n → Prop)
    (world : (Fin n → Option Action) → Scene n → Scene n → Prop) : Prop where
  inv : ∀ {pending σ τ}, world pending σ τ → C.inv σ → C.inv τ
  rely : ∀ {pending σ τ} i, world pending σ τ → C.inv σ → C.rely i (pending i) σ τ
  stable : ∀ {i a σ τ}, post i a σ → C.rely i none σ τ → C.inv τ → post i a τ

theorem pending_of_act {next : action.Answer → Job α} (h : p.jobs i = .act action next) :
    p.pending i = some action := by
  rw [pending, h]

theorem pending_of_done {a : α} (h : p.jobs i = .done a) : p.pending i = none := by
  rw [pending, h]

theorem Fits.of_rely (hworld : Admits C post world) (h : p.Fits C post) (hinv : C.inv τ)
    (hrely : C.rely i (p.pending i) p.scene τ) : (p.jobs i).Fits C i (post i) τ := by
  refine (h.job i).of_rely (fun action next hjob => pending_of_act hjob) (fun a hjob => ?_) hrely
  have hpost := h.job i
  rw [hjob] at hpost
  exact hworld.stable hpost (pending_of_done hjob ▸ hrely) hinv

theorem Fits.turn (hworld : Admits C post world) (h : p.Fits C post) (hturn : Turn world p q) :
    q.Fits C post := by
  cases hturn with
  | act i hact =>
    obtain ⟨action, next, hjob, hallows, rfl⟩ := act_eq_some.mp hact
    have hfits := h.job i
    rw [hjob] at hfits
    obtain ⟨-, hstep⟩ := hfits p.scene (C.refl _ _ _) h.inv
    obtain ⟨hkeeps, hrest⟩ := hstep hallows
    refine ⟨hkeeps.inv, fun j => ?_⟩
    by_cases hij : j = i
    · subst hij
      simpa using hrest
    · simp only [Function.update_of_ne hij]
      exact h.of_rely hworld hkeeps.inv (hkeeps.others j hij _)
  | move hmove =>
    have hinv := hworld.inv hmove h.inv
    exact ⟨hinv, fun i => Fits.of_rely (p := p) hworld h hinv (hworld.rely i hmove h.inv)⟩

/-- Jobs that keep to a contract go on to do so. -/
theorem Fits.reach (hworld : Admits C post world) (h : p.Fits C post) (hreach : Reach world p q) :
    q.Fits C post := by
  induction hreach with
  | refl => exact h
  | tail _ hturn ih => exact ih.turn hworld hturn

/-- Some job can take a turn, unless all are done: a job that waits does so for one that does
not. -/
theorem Fits.progress (hfree : ∀ i a σ, post i a σ → σ.Free i) (h : p.Fits C post) :
    (∃ i q, p.act i = some q) ∨ ∀ i, ∃ a, p.jobs i = .done a := by
  -- a job with a lock is not done, and it can go on
  have hholds : ∀ i key, p.scene.holder key = some i → ∃ q, p.act i = some q := by
    intro i key hkey
    have hfits := h.job i
    cases hjob : p.jobs i with
    | done a =>
      rw [hjob] at hfits
      exact absurd hkey (hfree i a _ hfits key)
    | act action next =>
      rw [hjob] at hfits
      rcases (hfits p.scene (C.refl _ _ _) h.inv).1 with hallows | hnone
      · exact ⟨_, act_eq_some.mpr ⟨action, next, hjob, hallows, rfl⟩⟩
      · exact absurd hkey (hnone key)
  by_cases hall : ∀ i, ∃ a, p.jobs i = .done a
  · exact .inr hall
  · obtain ⟨i, hi⟩ := not_forall.mp hall
    left
    cases hjob : p.jobs i with
    | done a => exact absurd ⟨a, hjob⟩ hi
    | act action next =>
      cases hallows : p.scene.allows action with
      | true => exact ⟨i, _, act_eq_some.mpr ⟨action, next, hjob, hallows, rfl⟩⟩
      | false =>
        cases action with
        | lock key =>
          obtain ⟨j, hj⟩ := Option.isSome_iff_exists.mp (Option.isNone_eq_false_iff.mp hallows)
          exact ⟨j, hholds j key hj⟩
        | _ => cases hallows

end Pool

end ViewTemplate
