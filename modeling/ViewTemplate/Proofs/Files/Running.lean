import ViewTemplate.Proofs.Files.Location
import Mathlib.Data.List.Nodup
import Mathlib.Data.List.Perm.Subperm

namespace ViewTemplate

def FileEntry.time? : FileEntry → Option Time
  | .file _ time => some time
  | .directory => none

variable {α β : Type} {s t : Store}

namespace Job

theorem id_map_eq (x : Job α) : id <$> x = x := by
  induction x with
  | done a => rfl
  | act action next ih => exact congrArg (act action) (funext ih)

theorem bind_assoc_eq {γ : Type} (x : Job α) (f : α → Job β) (g : β → Job γ) :
    x >>= f >>= g = x >>= fun a => f a >>= g := by
  induction x with
  | done a => rfl
  | act action next ih => exact congrArg (act action) (funext ih)

instance : LawfulMonad Job :=
  LawfulMonad.mk' Job id_map_eq (fun _ _ => rfl) bind_assoc_eq

@[simp] theorem run_pure (a : α) : (pure a : Job α).run s = (a, s) := rfl

@[simp] theorem run_bind (j : Job α) (f : α → Job β) :
    (j >>= f).run s = (f (j.run s).1).run (j.run s).2 := by
  induction j generalizing s with
  | done a => rfl
  | act action next ih => exact ih _

@[simp] theorem run_perform (action : Action) : (perform action).run s = s.perform action := rfl

def asks (s : Store) : Job α → List Action
  | done _ => []
  | act action next =>
    let (answer, t) := s.perform action
    action :: (next answer).asks t

@[simp] theorem asks_pure (a : α) : (pure a : Job α).asks s = [] := rfl

@[simp] theorem asks_bind (j : Job α) (f : α → Job β) :
    (j >>= f).asks s = j.asks s ++ (f (j.run s).1).asks (j.run s).2 := by
  induction j generalizing s with
  | done a => rfl
  | act action next ih => exact congrArg (action :: ·) (ih _)

end Job

namespace Attempt

variable {x : Attempt α} {f : α → Attempt β} {a : α}

theorem run_bind_of_ok (h : x.run.run s = (.ok a, t)) :
    (x >>= f).run.run s = (f a).run.run t := by
  show (x.run >>= ExceptT.bindCont f).run s = _
  rw [Job.run_bind, h]
  rfl

theorem run_bind_of_error {error : TemplateError} (h : x.run.run s = (.error error, t)) :
    (x >>= f).run.run s = (.error error, t) := by
  show (x.run >>= ExceptT.bindCont f).run s = _
  rw [Job.run_bind, h]
  rfl

theorem exists_of_run_bind {b : β} (h : (x >>= f).run.run s = (.ok b, t)) :
    ∃ a u, x.run.run s = (.ok a, u) ∧ (f a).run.run u = (.ok b, t) := by
  cases hx : x.run.run s with
  | mk r u =>
    cases r with
    | error error => cases (run_bind_of_error hx).symm.trans h
    | ok a => exact ⟨a, u, rfl, (run_bind_of_ok hx).symm.trans h⟩

theorem asks_bind_of_ok (h : x.run.run s = (.ok a, t)) :
    (x >>= f).run.asks s = x.run.asks s ++ (f a).run.asks t := by
  show (x.run >>= ExceptT.bindCont f).asks s = _
  rw [Job.asks_bind, h]
  rfl

theorem mem_asks_bind {action : Action} (h : action ∈ x.run.asks s) :
    action ∈ (x >>= f).run.asks s := by
  show action ∈ (x.run >>= ExceptT.bindCont f).asks s
  rw [Job.asks_bind]
  exact List.mem_append_left _ h

theorem run_lift (j : Job α) :
    (ExceptT.lift j : Attempt α).run.run s = (.ok (j.run s).1, (j.run s).2) := by
  show (j >>= fun a => pure (Except.ok a)).run s = _
  rw [Job.run_bind]
  rfl

variable {source : Path} {doing : String} {job : Job (Except OsError α)}

theorem run_orCompileError_of_ok (h : job.run s = (.ok a, t)) :
    (orCompileError source doing job).run.run s = (.ok a, t) := by
  show (job >>= _).run s = _
  rw [Job.run_bind, h]
  rfl

theorem run_orCompileError_of_error {e : OsError} (h : job.run s = (.error e, t)) :
    (orCompileError source doing job).run.run s =
      (.error (.compile source (.file doing e)), t) := by
  show (job >>= _).run s = _
  rw [Job.run_bind, h]
  rfl

end Attempt

namespace Store

variable {l m : Location} {p q dir : Path} {c : Contents} {time : Time} {e : FileEntry}

theorem entryAt?_root : s.entryAt? [] = some .directory := rfl

theorem entryAt?_put_self (hl : l ≠ []) : (s.put l e).entryAt? l = some e := by
  simp [entryAt?, put, hl]

theorem entryAt?_put_of_ne (h : m ≠ l) : (s.put l e).entryAt? m = s.entryAt? m := by
  unfold entryAt? put
  split
  · rfl
  · rw [List.find?_cons_of_neg (by simpa using Ne.symm h), List.find?_filter]
    congr 2
    funext old
    by_cases hold : old.1 = m
    · simp [hold, h]
    · simp [hold]

theorem entryAt?_delete_self (hl : l ≠ []) : (s.delete l).entryAt? l = none := by
  simp [entryAt?, delete, hl, List.find?_eq_none]

theorem entryAt?_delete_of_ne (h : m ≠ l) : (s.delete l).entryAt? m = s.entryAt? m := by
  unfold entryAt? delete
  split
  · rfl
  · rw [List.find?_filter]
    congr 2
    funext old
    by_cases hold : old.1 = m
    · simp [hold, h]
    · simp [hold]

/-- A store that differs from another at one place at most. -/
structure OnlyAt (l : Location) (s t : Store) : Prop where
  workingDir : t.workingDir = s.workingDir
  clock : t.clock = s.clock
  elsewhere : ∀ m, m ≠ l → t.entryAt? m = s.entryAt? m

theorem onlyAt_put : OnlyAt l s (s.put l e) := ⟨rfl, rfl, fun _ => entryAt?_put_of_ne⟩

theorem onlyAt_delete : OnlyAt l s (s.delete l) := ⟨rfl, rfl, fun _ => entryAt?_delete_of_ne⟩

theorem OnlyAt.refl : OnlyAt l s s := ⟨rfl, rfl, fun _ _ => rfl⟩

theorem OnlyAt.trans {u : Store} (h : OnlyAt l s t) (h' : OnlyAt l t u) : OnlyAt l s u :=
  ⟨h'.workingDir.trans h.workingDir, h'.clock.trans h.clock,
    fun m hm => (h'.elsewhere m hm).trans (h.elsewhere m hm)⟩

theorem OnlyAt.sameDirectories (h : OnlyAt l s t) (hs : s.entryAt? l ≠ some .directory)
    (ht : t.entryAt? l ≠ some .directory) : SameDirectories s t := by
  refine ⟨h.workingDir, fun m => ?_⟩
  by_cases hm : m = l
  · subst hm
    exact ⟨fun hdir => absurd hdir ht, fun hdir => absurd hdir hs⟩
  · rw [h.elsewhere m hm]

theorem ne_root_of_entryAt? (h : s.entryAt? l ≠ some .directory) : l ≠ [] := by
  rintro rfl
  exact h entryAt?_root

section Changes

theorem save_of_locate (h : s.locate p = .ok l) (hl : s.entryAt? l ≠ some .directory)
    (hlast : p.text.toList.getLast? ≠ some '/') :
    s.save p c time = .ok (s.put l (.file c time)) := by
  unfold save
  rw [h]
  simp only [bind, Except.bind, pure, Except.pure]
  cases hentry : s.entryAt? l with
  | none => simp [hlast]
  | some e =>
    cases e with
    | directory => exact absurd hentry hl
    | file => rfl

theorem save_ok (h : s.save p c time = .ok t) :
    s.entryAt? (p.location s.workingDir) ≠ some .directory ∧
    t = s.put (p.location s.workingDir) (.file c time) := by
  unfold save at h
  cases hl : s.locate p with
  | error e =>
    rw [hl] at h
    cases h
  | ok l =>
    rw [hl] at h
    rw [location_of_locate hl]
    simp only [bind, Except.bind, pure, Except.pure] at h
    cases hentry : s.entryAt? l with
    | none =>
      simp only [hentry] at h
      split at h
      · cases h
      · cases h
        simp
    | some e =>
      cases e with
      | directory =>
        rw [hentry] at h
        cases h
      | file =>
        rw [hentry] at h
        cases h
        simp

theorem fileAt_of_find (h : s.find p = .ok (.file c time)) :
    s.fileAt p = .ok (p.location s.workingDir, c, time) := by
  obtain ⟨l, hl, he⟩ := find_ok.mp h
  unfold fileAt
  rw [location_of_locate hl, hl]
  simp only [bind, Except.bind, pure, Except.pure, he]

theorem find_of_fileAt (h : s.fileAt p = .ok (l, c, time)) :
    s.find p = .ok (.file c time) ∧ p.location s.workingDir = l := by
  unfold fileAt at h
  cases hl : s.locate p with
  | error e =>
    rw [hl] at h
    cases h
  | ok k =>
    rw [hl] at h
    simp only [bind, Except.bind, pure, Except.pure] at h
    split at h
    · rename_i hentry
      cases h
      exact ⟨find_ok.mpr ⟨l, hl, hentry⟩, location_of_locate hl⟩
    · cases h
    · cases h

theorem touch_of_find {old : Time} (h : s.find p = .ok (.file c old)) :
    s.touch p time = .ok (s.put (p.location s.workingDir) (.file c time)) := by
  unfold touch
  rw [fileAt_of_find h]
  rfl

theorem touch_ok (h : s.touch p time = .ok t) : ∃ c old, s.find p = .ok (.file c old) ∧
    t = s.put (p.location s.workingDir) (.file c time) := by
  unfold touch at h
  cases hat : s.fileAt p with
  | error e =>
    rw [hat] at h
    cases h
  | ok r =>
    obtain ⟨l, c, old⟩ := r
    obtain ⟨hfind, rfl⟩ := find_of_fileAt hat
    rw [hat] at h
    cases h
    exact ⟨c, old, hfind, rfl⟩

theorem drop_ok (h : s.drop p = .ok t) : ∃ c old, s.find p = .ok (.file c old) ∧
    t = s.delete (p.location s.workingDir) := by
  unfold drop at h
  cases hat : s.fileAt p with
  | error e =>
    rw [hat] at h
    cases h
  | ok r =>
    obtain ⟨l, c, old⟩ := r
    obtain ⟨hfind, rfl⟩ := find_of_fileAt hat
    rw [hat] at h
    cases h
    exact ⟨c, old, hfind, rfl⟩

theorem move_ok (h : s.move p q = .ok t) : ∃ c time, s.find p = .ok (.file c time) ∧
    t = (s.delete (p.location s.workingDir)).put (q.location s.workingDir) (.file c time) := by
  unfold move at h
  cases hat : s.fileAt p with
  | error e =>
    rw [hat] at h
    cases h
  | ok r =>
    obtain ⟨l, c, time⟩ := r
    obtain ⟨hfind, rfl⟩ := find_of_fileAt hat
    rw [hat] at h
    cases hq : s.locate q with
    | error e =>
      rw [hq] at h
      cases h
    | ok m =>
      rw [hq] at h
      simp only [bind, Except.bind] at h
      split at h
      · cases h
      · cases h
        exact ⟨c, time, hfind, by rw [location_of_locate hq]⟩

theorem move_of_find (h : s.find p = .ok (.file c time)) (hq : s.locate q = .ok m)
    (hm : s.entryAt? m ≠ some .directory) :
    s.move p q = .ok ((s.delete (p.location s.workingDir)).put m (.file c time)) := by
  unfold move
  rw [fileAt_of_find h]
  simp only [bind, Except.bind, pure, Except.pure, hq]

theorem locate_put (h : s.locate p = .ok l) (hl : s.entryAt? l ≠ some .directory)
    (hlast : p.text.toList.getLast? ≠ some '/') : (s.put l (.file c time)).locate p = .ok l := by
  have hput := entryAt?_put_self (s := s) (e := .file c time) (ne_root_of_entryAt? hl)
  have hdirs : SameDirectories s (s.put l (.file c time)) :=
    onlyAt_put.sameDirectories hl (by simp [hput])
  exact hdirs.locate_of_noSlash h hlast

theorem createDirs_of_find (n : Nat) (h : s.find p = .ok .directory) :
    createDirs (n + 1) p s = (.ok (), s) := by
  obtain ⟨l, hl, he⟩ := find_ok.mp h
  have hcreate : s.createDir p = .error .alreadyExists := by
    unfold createDir
    rw [hl]
    simp only [bind, Except.bind, he]
    rfl
  have hdir : s.isDirectory p = true := by
    rw [isDirectory, h]
  unfold createDirs
  simp only [hcreate, hdir, (locate_ok.mp hl).1, if_false, if_true]

end Changes

section Answers

theorem perform_modified (h : s.find p = .ok (.file c time)) :
    s.perform (.modified p) = ((.ok time : Except OsError Time), s) := by
  simp only [perform, h]
  rfl

theorem perform_modified_directory (h : s.find p = .ok .directory) :
    s.perform (.modified p) = ((.ok s.clock : Except OsError Time), s) := by
  simp only [perform, h]
  rfl

theorem perform_modified_missing {cause : OsError} (h : s.find p = .error cause) :
    s.perform (.modified p) = ((.error cause : Except OsError Time), s) := by
  simp only [perform, h]
  rfl

theorem perform_isFile (h : s.find p = .ok (.file c time)) :
    s.perform (.isFile p) = ((true : Bool), s) := by
  simp only [perform, h]
  rfl

theorem perform_isFile_directory (h : s.find p = .ok .directory) :
    s.perform (.isFile p) = ((false : Bool), s) := by
  simp only [perform, h]
  rfl

theorem perform_isFile_missing {cause : OsError} (h : s.find p = .error cause) :
    s.perform (.isFile p) = ((false : Bool), s) := by
  simp only [perform, h]
  rfl

theorem perform_firstLine (h : s.find p = .ok (.file c time)) :
    s.perform (.firstLine p) = (c.firstLine?, s) := by
  simp only [perform, h]
  rfl

theorem perform_readText {text : String} (h : s.find p = .ok (.file c time))
    (htext : c.text? = some text) :
    s.perform (.readText p) = ((.ok text : Except OsError String), s) := by
  simp only [perform, h, htext]
  rfl

theorem perform_readText_invalid (h : s.find p = .ok (.file c time)) (htext : c.text? = none) :
    s.perform (.readText p) = ((.error .invalidText : Except OsError String), s) := by
  simp only [perform, h, htext]
  rfl

theorem perform_readText_directory (h : s.find p = .ok .directory) :
    s.perform (.readText p) = ((.error .isDirectory : Except OsError String), s) := by
  simp only [perform, h]
  rfl

theorem perform_readText_missing {cause : OsError} (h : s.find p = .error cause) :
    s.perform (.readText p) = ((.error cause : Except OsError String), s) := by
  simp only [perform, h]
  rfl

theorem perform_createTemp {temp : Path} (h : s.createTemp dir = .ok (temp, t)) :
    s.perform (.createTemp dir) = ((.ok temp : Except OsError Path), t) := by
  simp only [perform, h]
  rfl

theorem perform_write {text : String} (h : s.save p (.ofText text) s.clock = .ok t) :
    s.perform (.write p text) = ((.ok () : Except OsError Unit), t) := by
  simp only [perform, h, changed]
  rfl

theorem perform_rename (h : s.move p q = .ok t) :
    s.perform (.rename p q) = ((.ok () : Except OsError Unit), t) := by
  simp only [perform, h, changed]
  rfl

theorem perform_setModified (h : s.touch p time = .ok t) :
    s.perform (.setModified p time) = ((.ok () : Except OsError Unit), t) := by
  simp only [perform, h, changed]
  rfl

theorem perform_createDirs (h : s.find p = .ok .directory) :
    s.perform (.createDirs p) = ((.ok () : Except OsError Unit), s) :=
  createDirs_of_find _ h

theorem perform_createTemp_error {cause : OsError} (h : s.createTemp dir = .error cause) :
    s.perform (.createTemp dir) = ((.error cause : Except OsError Path), s) := by
  simp only [perform, h]
  rfl

theorem changed_cases (r : Except OsError Store) : (∃ t, r = .ok t ∧ s.changed r = (.ok (), t)) ∨
    ∃ cause, s.changed r = (.error cause, s) := by
  cases r with
  | ok t => exact .inl ⟨t, rfl, rfl⟩
  | error cause => exact .inr ⟨cause, rfl⟩

end Answers

section Temporary

theorem noSlash_toString (n : Nat) : '/' ∉ (toString n).toList := by
  rw [Nat.toString_eq_ofList_toDigits, String.toList_ofList]
  intro h
  exact absurd (Nat.isDigit_of_mem_toDigits (by decide) (by decide) h) (by decide)

theorem toList_tempName (n : Nat) :
    (tempName n).toList = ".stencil-".toList ++ (toString n).toList ++ ".tmp".toList := by
  rw [tempName, String.toList_append, String.toList_append]

theorem noSlash_tempName (n : Nat) : '/' ∉ (tempName n).toList := by
  rw [toList_tempName]
  simp only [List.mem_append, not_or]
  exact ⟨⟨by decide, noSlash_toString n⟩, by decide⟩

theorem tempName_injective : Function.Injective tempName := by
  intro a b h
  have hdigits := congrArg String.toList h
  rw [toList_tempName, toList_tempName, List.append_left_inj, List.append_right_inj,
    Nat.toString_eq_ofList_toDigits, Nat.toString_eq_ofList_toDigits, String.toList_ofList,
    String.toList_ofList] at hdigits
  rw [← Nat.ofDigitChars_ten_toDigits (n := a), hdigits, Nat.ofDigitChars_ten_toDigits]

theorem component?_tempName (n : Nat) :
    Path.component? (tempName n).toList = some (.normal (tempName n)) := by
  have hhead : (tempName n).toList = '.' :: 's' :: (tempName n).toList.drop 2 := by
    rw [toList_tempName]
    rfl
  rw [Path.component?, if_neg, if_neg, String.ofList_toList]
  · rw [hhead]
    simp
  · rw [hhead]
    simp

theorem tempName_isInner (n : Nat) : (Component.normal (tempName n)).IsInner :=
  ⟨noSlash_tempName n, component?_tempName n⟩

theorem location_tempName (home : Location) (n : Nat) :
    (dir.join ⟨tempName n⟩).location home = dir.location home ++ [tempName n] :=
  location_join_name (tempName_isInner n)

theorem locate_tempName (hdir : s.find dir = .ok .directory) (n : Nat) :
    s.locate (dir.join ⟨tempName n⟩) = .ok ((dir.join ⟨tempName n⟩).location s.workingDir) := by
  obtain ⟨l, hl, hentry⟩ := find_ok.mp hdir
  have hlocate := locate_join hl hentry (tempName_isInner n)
  rw [location_of_locate hlocate, hlocate]

theorem find_tempName (hdir : s.find dir = .ok .directory) (n : Nat) :
    s.find (dir.join ⟨tempName n⟩) =
      match s.entryAt? ((dir.join ⟨tempName n⟩).location s.workingDir) with
      | some e => .ok e
      | none => .error .notFound :=
  find_of_locate (locate_tempName hdir n)

/-- There are more names than entries, so one of them is free. -/
theorem exists_free (s : Store) (l : Location) :
    ∃ n < s.entries.length + 1, s.entryAt? (l ++ [tempName n]) = none := by
  by_contra h
  simp only [not_exists, not_and] at h
  let names := (List.range (s.entries.length + 1)).map fun n => l ++ [tempName n]
  have hnodup : names.Nodup := List.Nodup.map
    (fun a b hab => tempName_injective (by simpa using hab)) List.nodup_range
  have hsub : names ⊆ s.entries.map (·.1) := by
    intro m hm
    obtain ⟨n, hn, rfl⟩ := List.mem_map.mp hm
    have hentry := h n (List.mem_range.mp hn)
    rw [entryAt?, if_neg (by simp), Option.map_eq_none_iff, List.find?_eq_none] at hentry
    simp only [not_forall, decide_eq_true_eq, not_not] at hentry
    obtain ⟨old, hold, heq⟩ := hentry
    exact List.mem_map.mpr ⟨old, hold, heq⟩
  have hlength := (List.subperm_of_subset hnodup hsub).length_le
  simp only [names, List.length_map, List.length_range] at hlength
  omega

theorem createTemp_of_find (hdir : s.find dir = .ok .directory) : ∃ k,
    s.entryAt? ((dir.join ⟨tempName k⟩).location s.workingDir) = none ∧
      s.createTemp dir = .ok (dir.join ⟨tempName k⟩,
        s.put ((dir.join ⟨tempName k⟩).location s.workingDir) (.file ⟨[], []⟩ s.clock)) := by
  obtain ⟨n, hn, hfree⟩ := exists_free s (dir.location s.workingDir)
  unfold createTemp
  simp only
  split
  · rename_i p hfound
    obtain ⟨k, -, rfl⟩ := List.mem_map.mp (List.mem_of_find?_eq_some hfound)
    have hk := List.find?_some hfound
    rw [find_tempName hdir] at hk
    cases hentry : s.entryAt? ((dir.join ⟨tempName k⟩).location s.workingDir) with
    | some e =>
      rw [hentry] at hk
      cases hk
    | none =>
      refine ⟨k, hentry, ?_⟩
      simp only [save_of_locate (locate_tempName hdir k) (by simp [hentry])
        (getLast?_join (tempName_isInner k)), bind, Except.bind, pure, Except.pure]
  · rename_i hnone
    rw [List.find?_eq_none] at hnone
    have hn := hnone _ (List.mem_map.mpr ⟨n, List.mem_range.mpr hn, rfl⟩)
    rw [find_tempName hdir, location_tempName, hfree] at hn
    exact absurd rfl hn

theorem createTemp_ok (h : s.createTemp dir = .ok (p, t)) : ∃ k, p = dir.join ⟨tempName k⟩ ∧
    s.entryAt? (p.location s.workingDir) = none ∧
      t = s.put (p.location s.workingDir) (.file ⟨[], []⟩ s.clock) := by
  unfold createTemp at h
  simp only at h
  split at h
  · rename_i q hfound
    obtain ⟨k, -, rfl⟩ := List.mem_map.mp (List.mem_of_find?_eq_some hfound)
    have hmissing := List.find?_some hfound
    cases hsave : s.save (dir.join ⟨tempName k⟩) ⟨[], []⟩ s.clock with
    | error e =>
      rw [hsave] at h
      cases h
    | ok u =>
      rw [hsave] at h
      cases h
      obtain ⟨-, rfl⟩ := save_ok hsave
      refine ⟨k, rfl, ?_, rfl⟩
      -- what is saved is at a place that the path leads to, where nothing was found
      by_contra hsome
      obtain ⟨e, he⟩ := Option.ne_none_iff_exists'.mp hsome
      cases hl : s.locate (dir.join ⟨tempName k⟩) with
      | error cause =>
        unfold save at hsave
        rw [hl] at hsave
        cases hsave
      | ok l =>
        rw [location_of_locate hl] at he
        rw [find_ok.mpr ⟨l, hl, he⟩] at hmissing
        cases hmissing
  · cases h

end Temporary

end Store

end ViewTemplate
