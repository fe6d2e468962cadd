import ViewTemplate.Cache.Basic
import ViewTemplate.Proofs.Files.Running
import ViewTemplate.Settings.Basic

namespace ViewTemplate

variable {α : Type} {s t : Store}

namespace Cache

variable {c : Cache} {home : Location} {p q : Path} {time : Time} {text : String}

section Names

theorem toDigits_sixteen (n : Nat) : ∀ ch ∈ Nat.toDigits 16 n, ∃ d < 16, ch = Nat.digitChar d := by
  induction n using Nat.strongRecOn with
  | ind n ih =>
    rw [Nat.toDigits_eq_if (by decide)]
    split
    · rename_i h
      intro ch hch
      exact ⟨n, h, List.mem_singleton.mp hch⟩
    · rename_i h
      intro ch hch
      rcases List.mem_append.mp hch with hch | hch
      · exact ih (n / 16) (by omega) ch hch
      · exact ⟨n % 16, Nat.mod_lt n (by decide), List.mem_singleton.mp hch⟩

theorem hex_plain (x : UInt64) : ∀ ch ∈ (hex x).toList, ch ≠ '/' ∧ ch ≠ '.' := by
  have hdigit : ∀ d < 16, Nat.digitChar d ≠ '/' ∧ Nat.digitChar d ≠ '.' := by decide
  intro ch hch
  rw [hex, String.toList_ofList, List.mem_append] at hch
  rcases hch with hch | hch
  · rw [List.eq_of_mem_replicate hch]
    decide
  · obtain ⟨d, hd, rfl⟩ := toDigits_sixteen _ ch hch
    exact hdigit d hd

theorem hex_ne_nil (x : UInt64) : (hex x).toList ≠ [] := by
  rw [hex, String.toList_ofList]
  exact List.append_ne_nil_of_right_ne_nil _ Nat.toDigits_ne_nil

def artifactName (c : Cache) (p : Path) : String := c.key p ++ "." ++ c.extension

theorem artifactName_inj : c.artifactName p = c.artifactName q ↔ c.key p = c.key q := by
  rw [artifactName, artifactName, String.append_left_inj, String.append_left_inj]

theorem artifactName_isInner (hext : Settings.isExtension c.extension = true) :
    (Component.normal (c.artifactName p)).IsInner := by
  obtain ⟨d, rest, hkey⟩ := List.exists_cons_of_ne_nil
    (hex_ne_nil (hash (Path.absolute c.workingDir p).text.toUTF8.toList))
  have hplain := hex_plain (hash (Path.absolute c.workingDir p).text.toUTF8.toList)
  rw [hkey] at hplain
  have hname : (c.artifactName p).toList = d :: (rest ++ '.' :: c.extension.toList) := by
    rw [artifactName, key, keyOf, String.toList_append, String.toList_append, hkey]
    simp
  refine ⟨?_, ?_⟩
  · rw [Settings.isExtension, Bool.and_eq_true, List.all_eq_true] at hext
    have hslash : '/' ∉ c.extension.toList := fun h => by simpa using hext.2 _ h
    rw [hname]
    intro h
    rw [List.mem_cons, List.mem_append, List.mem_cons] at h
    rcases h with h | h | h | h
    · exact (hplain d List.mem_cons_self).1 h.symm
    · exact (hplain '/' (List.mem_cons_of_mem _ h)).1 rfl
    · cases h
    · exact hslash h
  · have hdot : d ≠ '.' := (hplain d List.mem_cons_self).2
    rw [Path.component?, if_neg, if_neg, String.ofList_toList]
    · rw [hname]
      simp [hdot]
    · rw [hname]
      simp [hdot]

end Names

/-- Where a template's artifact is. -/
@[irreducible] def place (c : Cache) (home : Location) (p : Path) : Location :=
  (c.artifactPath p).location home

theorem place_eq (hext : Settings.isExtension c.extension = true) :
    c.place home p = c.dir.location home ++ [c.artifactName p] := by
  unfold place
  exact location_join_name (artifactName_isInner hext)

theorem place_inj (hext : Settings.isExtension c.extension = true) :
    c.place home p = c.place home q ↔ c.key p = c.key q := by
  rw [place_eq hext, place_eq hext, List.append_right_inj, List.singleton_inj, artifactName_inj]

theorem tempName_ne_artifactName (k : Nat) : Store.tempName k ≠ c.artifactName p := by
  intro h
  have hkey := hex_plain (hash (Path.absolute c.workingDir p).text.toUTF8.toList)
  obtain ⟨d, rest, hd⟩ := List.exists_cons_of_ne_nil
    (hex_ne_nil (hash (Path.absolute c.workingDir p).text.toUTF8.toList))
  rw [hd] at hkey
  have hchars := congrArg String.toList h
  rw [Store.toList_tempName, artifactName, key, keyOf, String.toList_append, String.toList_append,
    hd] at hchars
  exact (hkey d List.mem_cons_self).2 (List.cons.inj hchars).1.symm

theorem tempName_ne_place (hext : Settings.isExtension c.extension = true) (k : Nat) :
    (c.dir.join ⟨Store.tempName k⟩).location home ≠ c.place home p := by
  rw [Store.location_tempName, place_eq hext]
  simpa using tempName_ne_artifactName k

/-- A store that the cache can work on: its directory is there, and no other where an artifact
belongs. -/
structure Ready (c : Cache) (s : Store) : Prop where
  extension : Settings.isExtension c.extension = true
  dir : s.find c.dir = .ok .directory
  place : ∀ p, s.entryAt? (c.place s.workingDir p) ≠ some .directory

theorem Ready.of_onlyAt {l : Location} (h : c.Ready s) (hst : s.OnlyAt l t)
    (hs : s.entryAt? l ≠ some .directory) (ht : t.entryAt? l ≠ some .directory) : c.Ready t := by
  have hdirs := hst.sameDirectories hs ht
  refine ⟨h.extension, hdirs.find_directory h.dir, fun p => ?_⟩
  rw [hst.workingDir]
  exact fun hentry => h.place p ((hdirs.iff _).mp hentry)

theorem location_artifactPath : (c.artifactPath p).location home = c.place home p := by
  unfold place
  rfl

theorem locate_artifactPath (hext : Settings.isExtension c.extension = true)
    (hdir : s.find c.dir = .ok .directory) (p : Path) :
    s.locate (c.artifactPath p) = .ok (c.place s.workingDir p) := by
  obtain ⟨l, hl, hentry⟩ := Store.find_ok.mp hdir
  rw [place_eq hext, Store.location_of_locate hl]
  exact Store.locate_join hl hentry (artifactName_isInner hext)

theorem Ready.locate (h : c.Ready s) (p : Path) :
    s.locate (c.artifactPath p) = .ok (c.place s.workingDir p) :=
  locate_artifactPath h.extension h.dir p

theorem Ready.find (h : c.Ready s) (p : Path) : s.find (c.artifactPath p) =
    match s.entryAt? (c.place s.workingDir p) with
      | some e => .ok e
      | none => .error .notFound :=
  Store.find_of_locate (h.locate p)

theorem Ready.find_file {contents : Contents} {t : Time} (h : c.Ready s)
    (hentry : s.entryAt? (c.place s.workingDir p) = some (.file contents t)) :
    s.find (c.artifactPath p) = .ok (.file contents t) := by
  rw [h.find p, hentry]

section Steps

/-- Whether what is at the place of an artifact is good for a template of the given time. -/
def accepts (time : Time) : Option FileEntry → Bool
  | some (.file contents t) => !(t < time) && contents.firstLine?.any Artifact.isCurrentHeader
  | _ => false

theorem accepts_iff {found : Option FileEntry} : accepts time found = true ↔
    ∃ contents t, found = some (.file contents t) ∧ time ≤ t ∧
      contents.firstLine?.any Artifact.isCurrentHeader = true := by
  unfold accepts
  split
  · simp
  · rename_i hno
    exact ⟨fun h => absurd h Bool.false_ne_true, fun ⟨contents, t, h, _⟩ => (hno contents t h).elim⟩

/-- Whether the artifact of a template of the given time is good. -/
def fresh (c : Cache) (p : Path) (time : Time) (s : Store) : Bool :=
  accepts time (s.find (c.artifactPath p)).toOption

theorem run_upToDate_find : (upToDate time (c.artifactPath p)).run s = (c.fresh p time s, s) := by
  unfold upToDate fresh
  rw [Job.run_bind, Job.run_perform]
  cases hfind : s.find (c.artifactPath p) with
  | error cause =>
    rw [Store.perform_modified_missing hfind]
    rfl
  | ok entry =>
    cases entry with
    | directory =>
      rw [Store.perform_modified_directory hfind]
      dsimp only
      split
      · rfl
      · simp only [Job.run_bind, Job.run_perform, Store.perform, hfind]
        rfl
    | file contents made =>
      rw [Store.perform_modified hfind]
      dsimp only [accepts, Except.toOption]
      split
      · simp [*]
      · simp [*, Job.run_bind, Job.run_perform, Store.perform_firstLine hfind]

theorem fresh_of_find {contents : Contents} {made : Time}
    (h : s.find (c.artifactPath p) = .ok (.file contents made)) :
    c.fresh p time s = accepts time (some (.file contents made)) := by
  rw [fresh, h]
  rfl

theorem fresh_iff : c.fresh p time s = true ↔ ∃ contents made,
    s.find (c.artifactPath p) = .ok (.file contents made) ∧ time ≤ made ∧
      contents.firstLine?.any Artifact.isCurrentHeader = true := by
  rw [fresh, accepts_iff]
  cases s.find (c.artifactPath p) <;> simp [Except.toOption]

theorem run_upToDate (h : c.Ready s) : (upToDate time (c.artifactPath p)).run s =
    (accepts time (s.entryAt? (c.place s.workingDir p)), s) := by
  rw [run_upToDate_find, fresh, h.find p]
  cases s.entryAt? (c.place s.workingDir p) <;> rfl

theorem run_describe {contents : Contents} {t : Time} (h : c.Ready s)
    (hentry : s.entryAt? (c.place s.workingDir p) = some (.file contents t)) (made : Bool) :
    (c.describe p time made).run.run s = (.ok ⟨c.key p, c.artifactPath p, time, t, made⟩, s) := by
  exact Attempt.run_bind_of_ok
    (Attempt.run_orCompileError_of_ok ((Job.run_perform _).trans
      (Store.perform_modified (h.find_file hentry))))

theorem run_cleanUp {step undo : Job (Except OsError Unit)} (h : step.run s = (.ok (), t)) :
    (do
      let result ← step
      if result matches .error _ then
        let _ ← undo
      return result : Job (Except OsError Unit)).run s = (.ok (), t) := by
  rw [Job.run_bind, h]
  rfl

theorem run_publish (text : String) (h : c.Ready s) : ∃ t,
    (c.publish p (c.artifactPath p) text).run.run s = (.ok (), t) ∧
      s.OnlyAt (c.place s.workingDir p) t ∧
        t.entryAt? (c.place s.workingDir p) = some (.file (.ofText text) s.clock) := by
  obtain ⟨n, hfree, hcreate⟩ := Store.createTemp_of_find h.dir
  have hlocate := Store.locate_tempName h.dir n
  have hroot : (c.dir.join ⟨Store.tempName n⟩).location s.workingDir ≠ [] := by
    simp [Store.location_tempName]
  have hlast := getLast?_join (q := c.dir) (Store.tempName_isInner n)
  generalize c.dir.join ⟨Store.tempName n⟩ = temp at hfree hcreate hlocate hroot hlast
  generalize temp.location s.workingDir = m at hfree hcreate hlocate hroot
  -- the new file is empty at first, then it has the text, and last it is moved away
  let s₁ := s.put m (.file ⟨[], []⟩ s.clock)
  let s₂ := s₁.put m (.file (.ofText text) s.clock)
  have he₁ : s₁.entryAt? m = some (.file ⟨[], []⟩ s.clock) := Store.entryAt?_put_self hroot
  have he₂ : s₂.entryAt? m = some (.file (.ofText text) s.clock) := Store.entryAt?_put_self hroot
  have h₁ : c.Ready s₁ := h.of_onlyAt Store.onlyAt_put (by simp [hfree]) (by simp [he₁])
  have h₂ : c.Ready s₂ := h₁.of_onlyAt Store.onlyAt_put (by simp [he₁]) (by simp [he₂])
  have hlocate₁ : s₁.locate temp = .ok m := Store.locate_put hlocate (by simp [hfree]) hlast
  have hlocate₂ : s₂.locate temp = .ok m := Store.locate_put hlocate₁ (by simp [he₁]) hlast
  have hsave : s₁.save temp (.ofText text) s₁.clock = .ok s₂ :=
    Store.save_of_locate hlocate₁ (by simp [he₁]) hlast
  have hmove := Store.move_of_find (Store.find_ok.mpr ⟨m, hlocate₂, he₂⟩) (h₂.locate p) (h₂.place p)
  rw [Store.location_of_locate hlocate₂] at hmove
  refine ⟨(s₂.delete m).put (c.place s.workingDir p) (.file (.ofText text) s.clock), ?_,
    ⟨rfl, rfl, ?_⟩, Store.entryAt?_put_self (Store.ne_root_of_entryAt? (h.place p))⟩
  · refine (Attempt.run_bind_of_ok
      (Attempt.run_orCompileError_of_ok (a := temp) (t := s₁) ?_)).trans
      ((Attempt.run_bind_of_ok (Attempt.run_orCompileError_of_ok (run_cleanUp (t := s₂) ?_))).trans
        (Attempt.run_orCompileError_of_ok (run_cleanUp ?_)))
    · exact (Job.run_perform _).trans (Store.perform_createTemp hcreate)
    · exact (Job.run_perform _).trans (Store.perform_write hsave)
    · exact (Job.run_perform _).trans (Store.perform_rename hmove)
  · intro k hk
    rw [Store.entryAt?_put_of_ne hk]
    by_cases hkm : k = m
    · rw [hkm, Store.entryAt?_delete_self hroot]
      exact hfree.symm
    · rw [Store.entryAt?_delete_of_ne hkm, Store.entryAt?_put_of_ne hkm,
        Store.entryAt?_put_of_ne hkm]

theorem run_settleTime {contents : Contents} {made : Time} (time : Time) (h : c.Ready s)
    (hentry : s.entryAt? (c.place s.workingDir p) = some (.file contents made)) : ∃ t,
    (settleTime p (c.artifactPath p) time).run.run s = (.ok (), t) ∧
      s.OnlyAt (c.place s.workingDir p) t ∧
        t.entryAt? (c.place s.workingDir p) = some (.file contents (max made time)) := by
  have hfind := h.find_file hentry
  have hask : (Attempt.ask (.modified (c.artifactPath p))).run.run s =
      (.ok (.ok made : Except OsError Time), s) := by
    show (Job.perform (.modified (c.artifactPath p)) >>= fun a => pure (Except.ok a)).run s = _
    rw [Job.run_bind, Job.run_perform, Store.perform_modified hfind]
    rfl
  by_cases hlt : made < time
  · have htouch : s.touch (c.artifactPath p) time = _ := Store.touch_of_find hfind
    rw [Store.location_of_locate (h.locate p)] at htouch
    refine ⟨s.put (c.place s.workingDir p) (.file contents time), ?_, Store.onlyAt_put, ?_⟩
    · refine (Attempt.run_bind_of_ok hask).trans ?_
      simp only [hlt, if_true]
      exact Attempt.run_orCompileError_of_ok
        ((Job.run_perform _).trans (Store.perform_setModified htouch))
    · rw [Nat.max_eq_right (Nat.le_of_lt hlt)]
      exact Store.entryAt?_put_self (Store.ne_root_of_entryAt? (h.place p))
  · refine ⟨s, ?_, Store.OnlyAt.refl, ?_⟩
    · refine (Attempt.run_bind_of_ok hask).trans ?_
      simp only [hlt, if_false]
      rfl
    · rw [Nat.max_eq_left (Nat.le_of_not_lt hlt), hentry]

variable {compile : Path → Attempt String}

theorem run_createDirs (h : c.Ready s) :
    (Attempt.orCompileError p "cannot create cache directory"
      (Job.perform (.createDirs c.dir))).run.run s = (.ok (), s) :=
  Attempt.run_orCompileError_of_ok ((Job.run_perform _).trans (Store.perform_createDirs h.dir))

theorem run_check {fresh : Bool} (h : c.Ready s)
    (hfresh : accepts time (s.entryAt? (c.place s.workingDir p)) = fresh) :
    (ExceptT.lift (upToDate time (c.artifactPath p)) : Attempt Bool).run.run s =
    (.ok fresh, s) := by
  show (upToDate time (c.artifactPath p) >>= fun a => pure (Except.ok a)).run s = _
  rw [Job.run_bind, run_upToDate h, hfresh]
  rfl

/-- What a stale artifact is replaced with, unless the compilation fails. -/
theorem run_recompile_of_ok (h : c.Ready s)
    (hstale : accepts time (s.entryAt? (c.place s.workingDir p)) = false)
    (hcompile : (compile p).run.run s = (.ok text, s)) : ∃ t,
    (c.recompile compile p time).run.run s =
      (.ok ⟨c.key p, c.artifactPath p, time, max s.clock time, true⟩, t) ∧
      s.OnlyAt (c.place s.workingDir p) t ∧
        t.entryAt? (c.place s.workingDir p) = some (.file (.ofText text) (max s.clock time)) := by
  obtain ⟨t, hpublish, hst, ht⟩ := run_publish (p := p) text h
  have hready := h.of_onlyAt hst (h.place p) (by simp [ht])
  rw [← hst.workingDir] at ht
  obtain ⟨u, hsettle, htu, hu⟩ := run_settleTime time hready ht
  have hready' := hready.of_onlyAt htu (hready.place p) (by simp [hu])
  rw [← htu.workingDir] at hu
  refine ⟨u, ?_, hst.trans (hst.workingDir ▸ htu), by rw [← hst.workingDir, ← htu.workingDir, hu]⟩
  refine (Attempt.run_bind_of_ok (run_check h hstale)).trans ?_
  refine (Attempt.run_bind_of_ok (run_createDirs h)).trans ?_
  refine (Attempt.run_bind_of_ok hcompile).trans ?_
  refine (Attempt.run_bind_of_ok hpublish).trans ?_
  refine (Attempt.run_bind_of_ok hsettle).trans ?_
  exact run_describe hready' hu true

theorem run_recompile_of_error {error : TemplateError} (h : c.Ready s)
    (hstale : accepts time (s.entryAt? (c.place s.workingDir p)) = false)
    (hcompile : (compile p).run.run s = (.error error, s)) :
    (c.recompile compile p time).run.run s = (.error error, s) := by
  refine (Attempt.run_bind_of_ok (run_check h hstale)).trans ?_
  refine (Attempt.run_bind_of_ok (run_createDirs h)).trans ?_
  exact Attempt.run_bind_of_error hcompile

theorem run_locked (key : String) (attempt : Attempt α) :
    (locked key attempt).run.run s = attempt.run.run s := by
  show (Job.perform (.lock key) >>= fun _ => attempt.run >>= fun r =>
    Job.perform (.unlock key) >>= fun _ => pure r).run s = _
  rw [Job.run_bind, Job.run_perform]
  show (attempt.run >>= fun r => Job.perform (.unlock key) >>= fun _ => pure r).run s = _
  rw [Job.run_bind]
  rfl

theorem run_sourceTime
    (hstat : s.perform (.modified p) = ((.ok time : Except OsError Time), s)) :
    (sourceTime p).run.run s = (.ok time, s) :=
  Attempt.run_orCompileError_of_ok ((Job.run_perform _).trans hstat)

theorem run_sourceTime_missing {cause : OsError} (h : s.find p = .error cause) :
    (sourceTime p).run.run s = (.error (.compile p (.file "cannot stat template" cause)), s) :=
  Attempt.run_orCompileError_of_error
    ((Job.run_perform _).trans (Store.perform_modified_missing h))

theorem run_isFresh_missing {cause : OsError} (h : s.find p = .error cause) :
    (c.isFresh p).run.run s = (.error (.compile p (.file "cannot stat template" cause)), s) :=
  Attempt.run_bind_of_error (run_sourceTime_missing h)

theorem run_isFresh {source : Contents} (h : s.find p = .ok (.file source time)) :
    (c.isFresh p).run.run s = (.ok (c.fresh p time s), s) := by
  refine (Attempt.run_bind_of_ok (run_sourceTime (Store.perform_modified h))).trans ?_
  rw [Attempt.run_lift, run_upToDate_find]

theorem run_getOrCompile_of_fresh {contents : Contents} {made : Time} (h : c.Ready s)
    (hstat : s.perform (.modified p) = ((.ok time : Except OsError Time), s))
    (hentry : s.entryAt? (c.place s.workingDir p) = some (.file contents made))
    (hfresh : accepts time (some (.file contents made)) = true) :
    (c.getOrCompile compile p).run.run s =
      (.ok ⟨c.key p, c.artifactPath p, time, made, false⟩, s) := by
  rw [← hentry] at hfresh
  refine (Attempt.run_bind_of_ok (run_sourceTime hstat)).trans ?_
  refine (Attempt.run_bind_of_ok (run_check h hfresh)).trans ?_
  exact run_describe h hentry false

theorem run_getOrCompile_of_stale (h : c.Ready s)
    (hstat : s.perform (.modified p) = ((.ok time : Except OsError Time), s))
    (hstale : accepts time (s.entryAt? (c.place s.workingDir p)) = false) :
    (c.getOrCompile compile p).run.run s = (c.recompile compile p time).run.run s := by
  refine (Attempt.run_bind_of_ok (run_sourceTime hstat)).trans ?_
  refine (Attempt.run_bind_of_ok (run_check h hstale)).trans ?_
  exact run_locked _ _

end Steps

end Cache

end ViewTemplate
