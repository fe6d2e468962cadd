import ViewTemplate.Proofs.Files.Running

namespace ViewTemplate

variable {α β : Type} {s t u : Store}

def Action.isReading : Action → Bool
  | .modified _ | .isFile _ | .readText _ | .firstLine _ | .now => true
  | _ => false

namespace Job

/-- A job that only looks, at stores that may change in between as long as `P` holds of them, and
ends as `Q` says. -/
def Yields (P : Store → Prop) (Q : α → Prop) : Job α → Prop
  | done a => Q a
  | act action next =>
    action.isReading = true ∧ ∀ s, P s → (next (s.perform action).1).Yields P Q

theorem Yields.bind {P : Store → Prop} {Q : α → Prop} {R : β → Prop} {job : Job α} {f : α → Job β}
    (h : job.Yields P Q) (hf : ∀ a, Q a → (f a).Yields P R) : (job >>= f).Yields P R := by
  induction job with
  | done a => exact hf a h
  | act action next ih => exact ⟨h.1, fun s hs => ih _ (h.2 s hs)⟩

end Job

namespace Store

variable {l m : Location} {p dir : Path} {e : FileEntry} {clock : Time}

theorem perform_reading {action : Action} (h : action.isReading = true) :
    (s.perform action).2 = s := by
  cases action <;> first | rfl | cases h

section Clock

theorem walk_clock {ps : List (List Char)} : walk { s with clock } l ps = s.walk l ps := by
  have hdir (m : Location) : checkDirectory { s with clock } m = s.checkDirectory m := rfl
  induction ps generalizing l with
  | nil => rfl
  | cons piece rest ih => simp only [walk, hdir, ih]

theorem locate_clock : locate { s with clock } p = s.locate p := by
  unfold locate
  simp only [walk_clock]
  rfl

theorem find_clock : find { s with clock } p = s.find p := by
  unfold find
  rw [locate_clock]
  rfl

theorem isDirectory_clock : isDirectory { s with clock } p = s.isDirectory p := by
  unfold isDirectory
  rw [find_clock]

/-- The same files, perhaps at another time. -/
def Still (s t : Store) : Prop := ∃ clock, t = { s with clock }

theorem Still.refl : Still s s := ⟨_, rfl⟩

theorem Still.trans (h : Still s t) (h' : Still t u) : Still s u := by
  obtain ⟨clock, rfl⟩ := h
  obtain ⟨clock', rfl⟩ := h'
  exact ⟨clock', rfl⟩

theorem Still.find (h : Still s t) : t.find p = s.find p := by
  obtain ⟨clock, rfl⟩ := h
  exact find_clock

end Clock

/-- All that there is in the first store, but for one place, is still there in the second. -/
structure Spares (l : Location) (s t : Store) : Prop where
  workingDir : t.workingDir = s.workingDir
  entry : ∀ m, m ≠ l → s.entryAt? m ≠ none → t.entryAt? m = s.entryAt? m

namespace Spares

theorem refl : Spares l s s := ⟨rfl, fun _ _ _ => rfl⟩

theorem trans (h : Spares l s t) (h' : Spares l t u) : Spares l s u := by
  refine ⟨h'.workingDir.trans h.workingDir, fun m hm hsome => ?_⟩
  have hst := h.entry m hm hsome
  rw [h'.entry m hm (hst ▸ hsome), hst]

theorem of_clock : Spares l s { s with clock } := ⟨rfl, fun _ _ _ => rfl⟩

theorem onlyAt (h : Spares l s t) (htu : OnlyAt m t u) (hm : m = l ∨ s.entryAt? m = none) :
    Spares l s u := by
  refine ⟨htu.workingDir.trans h.workingDir, fun k hk hsome => ?_⟩
  have hne : k ≠ m := by
    rintro rfl
    rcases hm with rfl | hnone
    · exact hk rfl
    · exact hsome hnone
  rw [htu.elsewhere k hne, h.entry k hk hsome]

theorem isNew (h : Spares l s t) (hm : m ≠ l) (hnone : t.entryAt? m = none) :
    s.entryAt? m = none := by
  by_contra hsome
  exact hsome ((h.entry m hm hsome).symm.trans hnone)

theorem find (h : Spares l s t) (hl : s.entryAt? l ≠ some .directory) (hfind : s.find p = .ok e)
    (hp : p.location s.workingDir ≠ l) : t.find p = .ok e := by
  have hdirs : ∀ k, s.entryAt? k = some .directory → t.entryAt? k = some .directory := by
    intro k hdir
    rw [h.entry k (fun heq => hl (heq ▸ hdir)) (by simp [hdir]), hdir]
  exact find_mono h.workingDir hdirs (h.entry _ hp (by simp [entryAt?_of_find hfind])) hfind

end Spares

/-- A store with some more directories. -/
structure Grows (s t : Store) : Prop where
  workingDir : t.workingDir = s.workingDir
  clock : t.clock = s.clock
  entry : ∀ m, t.entryAt? m = s.entryAt? m ∨
    s.entryAt? m = none ∧ t.entryAt? m = some .directory

namespace Grows

theorem refl : Grows s s := ⟨rfl, rfl, fun _ => .inl rfl⟩

theorem trans (h : Grows s t) (h' : Grows t u) : Grows s u := by
  refine ⟨h'.workingDir.trans h.workingDir, h'.clock.trans h.clock, fun m => ?_⟩
  rcases h.entry m with hst | ⟨hnone, hdir⟩
  · rcases h'.entry m with htu | ⟨hnone, hdir⟩
    · exact .inl (htu.trans hst)
    · exact .inr ⟨hst ▸ hnone, hdir⟩
  · rcases h'.entry m with htu | ⟨hnone', hdir'⟩
    · exact .inr ⟨hnone, htu.trans hdir⟩
    · exact .inr ⟨hnone, hdir'⟩

theorem spares (h : Grows s t) : Spares l s t := by
  refine ⟨h.workingDir, fun m _ hsome => ?_⟩
  rcases h.entry m with hst | ⟨hnone, -⟩
  · exact hst
  · exact absurd hnone hsome

end Grows

section CreateDirs

theorem grows_createDir (h : s.createDir p = .ok t) : Grows s t := by
  unfold createDir at h
  cases hl : s.locate p with
  | error e =>
    rw [hl] at h
    cases h
  | ok l =>
    rw [hl] at h
    simp only [bind, Except.bind] at h
    cases hentry : s.entryAt? l with
    | some e =>
      rw [hentry] at h
      cases h
    | none =>
      rw [hentry] at h
      cases h
      have hroot : l ≠ [] := ne_root_of_entryAt? (s := s) (by simp [hentry])
      refine ⟨rfl, rfl, fun m => ?_⟩
      by_cases hm : m = l
      · subst hm
        exact .inr ⟨hentry, entryAt?_put_self hroot⟩
      · exact .inl (entryAt?_put_of_ne hm)

theorem grows_createDirs (fuel : Nat) (p : Path) (s : Store) :
    Grows s (createDirs fuel p s).2 := by
  induction fuel generalizing p s with
  | zero => exact .refl
  | succ fuel ih =>
    unfold createDirs
    dsimp only
    split
    · exact .refl
    · split
      · rename_i hcreate
        exact grows_createDir hcreate
      · split
        · exact .refl
        · rename_i parent _
          have hparent := ih parent s
          split
          · rename_i hdirs
            rw [hdirs] at hparent
            split
            · rename_i hcreate
              exact hparent.trans (grows_createDir hcreate)
            · split <;> exact hparent
          · exact hparent
      · split <;> exact .refl

/-- Making directories goes the same way at any time. -/
theorem createDir_clock : createDir { s with clock } p =
    (s.createDir p).map fun t => { t with clock } := by
  unfold createDir
  rw [locate_clock]
  cases s.locate p with
  | error e => rfl
  | ok l =>
    have hentry : entryAt? { s with clock } l = s.entryAt? l := rfl
    simp only [bind, Except.bind, hentry]
    cases s.entryAt? l <;> rfl

theorem createDirs_clock (fuel : Nat) (p : Path) (s : Store) :
    createDirs fuel p { s with clock } =
      ((createDirs fuel p s).1, { (createDirs fuel p s).2 with clock }) := by
  induction fuel generalizing p s with
  | zero => rfl
  | succ fuel ih =>
    unfold createDirs
    simp only [createDir_clock, isDirectory_clock]
    split
    · rfl
    · cases s.createDir p with
      | ok t => rfl
      | error cause =>
        cases cause with
        -- Only where the parent is missing is there a second attempt.
        | notFound =>
          dsimp only [Except.map]
          cases p.parent? with
          | none => rfl
          | some parent =>
            dsimp only
            rw [ih]
            obtain ⟨r, t⟩ := createDirs fuel parent s
            cases r with
            | error e => rfl
            | ok _ =>
              dsimp only
              rw [createDir_clock]
              cases t.createDir p with
              | ok u => rfl
              | error e =>
                simp only [Except.map, isDirectory_clock]
                split <;> rfl
        | _ =>
          dsimp only [Except.map]
          split <;> rfl

end CreateDirs

end Store

end ViewTemplate
