import ViewTemplate.Proofs.Files.Changes

namespace ViewTemplate

variable {α β : Type} {s t u : Store}

namespace Attempt

variable {x : Attempt α} {f : α → Attempt β} {P : α → Store → Prop} {Q : β → Store → Prop}
  {E : TemplateError → Store → Prop}

/-- An attempt that ends as the first condition says when it succeeds, and as the second says when
it fails. -/
structure Ends (x : Attempt α) (s : Store) (P : α → Store → Prop)
    (E : TemplateError → Store → Prop) : Prop where
  ok : ∀ {a t}, x.run.run s = (.ok a, t) → P a t
  error : ∀ {error t}, x.run.run s = (.error error, t) → E error t

theorem ends_of_ok {a : α} (h : x.run.run s = (.ok a, t)) (hP : P a t) : x.Ends s P E := by
  refine ⟨fun hrun => ?_, fun hrun => ?_⟩ <;> cases h.symm.trans hrun
  exact hP

theorem ends_of_error {error : TemplateError} (h : x.run.run s = (.error error, t))
    (hE : E error t) : x.Ends s P E := by
  refine ⟨fun hrun => ?_, fun hrun => ?_⟩ <;> cases h.symm.trans hrun
  exact hE

theorem ends_bind_of_ok {a : α} (h : x.run.run s = (.ok a, t)) (hf : (f a).Ends t Q E) :
    (x >>= f).Ends s Q E := by
  refine ⟨fun hrun => ?_, fun hrun => ?_⟩ <;> rw [run_bind_of_ok h] at hrun
  · exact hf.ok hrun
  · exact hf.error hrun

theorem Ends.bind (h : x.Ends s P E) (hf : ∀ a t, P a t → (f a).Ends t Q E) :
    (x >>= f).Ends s Q E := by
  cases hx : x.run.run s with
  | mk r t =>
    cases r with
    | error error => exact ends_of_error (run_bind_of_error hx) (h.error hx)
    | ok a => exact ends_bind_of_ok hx (hf a t (h.ok hx))

theorem Ends.succeeds (h : x.Ends s P fun _ _ => False) :
    ∃ a t, x.run.run s = (.ok a, t) ∧ P a t := by
  cases hx : x.run.run s with
  | mk r t =>
    cases r with
    | error error => exact (h.error hx).elim
    | ok a => exact ⟨a, t, rfl, h.ok hx⟩

theorem Ends.mono {P' : α → Store → Prop} {E' : TemplateError → Store → Prop} (h : x.Ends s P E)
    (hP : ∀ a t, P a t → P' a t) (hE : ∀ error t, E error t → E' error t) : x.Ends s P' E' :=
  ⟨fun hrun => hP _ _ (h.ok hrun), fun hrun => hE _ _ (h.error hrun)⟩

end Attempt

namespace Store

variable {l m : Location} {p q dir : Path} {c : Contents} {time : Time}

/-- The same files with the same contents and times; directories may be new. -/
def SameFiles (s t : Store) : Prop :=
  ∀ l c time, t.entryAt? l = some (.file c time) ↔ s.entryAt? l = some (.file c time)

theorem SameFiles.refl : SameFiles s s := fun _ _ _ => Iff.rfl

theorem SameFiles.trans (h : SameFiles s t) (h' : SameFiles t u) : SameFiles s u :=
  fun l c time => (h' l c time).trans (h l c time)

theorem Grows.sameFiles (h : Grows s t) : SameFiles s t := by
  intro l c time
  rcases h.entry l with hsame | ⟨hnone, hdir⟩
  · rw [hsame]
  · rw [hnone, hdir]
    simp

theorem Grows.find {e : FileEntry} (h : Grows s t) (hfind : s.find p = .ok e) :
    t.find p = .ok e := by
  have hkept : ∀ l, s.entryAt? l ≠ none → t.entryAt? l = s.entryAt? l := fun l hl =>
    (h.entry l).resolve_right fun hnew => hl hnew.1
  exact find_mono h.workingDir (fun l hdir => (hkept l (by simp [hdir])).trans hdir)
    (hkept _ (by simp [entryAt?_of_find hfind])) hfind

theorem locate_of_save (h : s.save p c time = .ok t) :
    s.locate p = .ok (p.location s.workingDir) := by
  unfold save at h
  cases hl : s.locate p with
  | error cause =>
    rw [hl] at h
    cases h
  | ok l => rw [location_of_locate hl]

theorem save_of_createTemp (h : s.createTemp dir = .ok (p, t)) :
    s.save p ⟨[], []⟩ s.clock = .ok t := by
  unfold createTemp at h
  simp only at h
  split at h
  · rename_i q _
    cases hsave : s.save q ⟨[], []⟩ s.clock with
    | error e =>
      rw [hsave] at h
      cases h
    | ok u =>
      rw [hsave] at h
      cases h
      exact hsave
  · cases h

theorem find_put (h : s.locate p = .ok l) (hl : s.entryAt? l ≠ some .directory)
    (hlast : p.text.toList.getLast? ≠ some '/') :
    (s.put l (.file c time)).find p = .ok (.file c time) :=
  find_ok.mpr ⟨l, locate_put h hl hlast, entryAt?_put_self (ne_root_of_entryAt? hl)⟩

theorem save_new (htemp : s.createTemp dir = .ok (p, t)) (c : Contents) : ∃ u v,
    t.save p c t.clock = .ok u ∧ u.find p = .ok (.file c t.clock) ∧ u.drop p = .ok v ∧
      SameFiles s v := by
  have hlocate := locate_of_save (save_of_createTemp htemp)
  obtain ⟨k, hname, hfree, ht⟩ := createTemp_ok htemp
  have hlast : p.text.toList.getLast? ≠ some '/' := hname ▸ getLast?_join (tempName_isInner k)
  generalize p.location s.workingDir = m at hlocate hfree ht
  have hroot : m ≠ [] := ne_root_of_entryAt? (s := s) (by simp [hfree])
  have hempty : t.entryAt? m = some (.file ⟨[], []⟩ s.clock) := by
    rw [ht]
    exact entryAt?_put_self hroot
  have hlocate' : t.locate p = .ok m := by
    rw [ht]
    exact locate_put hlocate (by simp [hfree]) hlast
  let u := t.put m (.file c t.clock)
  have hfind : u.find p = .ok (.file c t.clock) := find_put hlocate' (by simp [hempty]) hlast
  have hthere : u.locate p = .ok m := locate_put hlocate' (by simp [hempty]) hlast
  have hdrop : u.drop p = .ok (u.delete m) := by
    rw [drop, fileAt_of_find hfind, location_of_locate hthere]
    rfl
  refine ⟨u, _, save_of_locate hlocate' (by simp [hempty]) hlast, hfind, hdrop, ?_⟩
  intro l contents made
  by_cases hl : l = m
  · subst hl
    rw [entryAt?_delete_self hroot, hfree]
  · rw [entryAt?_delete_of_ne hl, entryAt?_put_of_ne hl, ht, entryAt?_put_of_ne hl]

theorem target_of_move (h : s.move p q = .ok t) :
    s.locate q = .ok (q.location s.workingDir) ∧
      s.entryAt? (q.location s.workingDir) ≠ some .directory := by
  unfold move at h
  cases hat : s.fileAt p with
  | error cause =>
    rw [hat] at h
    cases h
  | ok r =>
    rw [hat] at h
    cases hq : s.locate q with
    | error cause =>
      rw [hq] at h
      cases h
    | ok m =>
      rw [hq] at h
      rw [location_of_locate hq]
      refine ⟨rfl, fun hdir => ?_⟩
      simp only [bind, Except.bind, hdir] at h
      cases h

theorem locate_delete (h : s.locate q = .ok m) (hl : s.entryAt? l = some (.file c time))
    (hlast : q.text.toList.getLast? ≠ some '/') : (s.delete l).locate q = .ok m := by
  have hgone := entryAt?_delete_self (s := s) (ne_root_of_entryAt? (s := s) (l := l) (by simp [hl]))
  have hdirs : SameDirectories s (s.delete l) :=
    onlyAt_delete.sameDirectories (by simp [hl]) (by simp [hgone])
  exact hdirs.locate_of_noSlash h hlast

theorem find_of_move (h : s.move p q = .ok t) (hlast : q.text.toList.getLast? ≠ some '/') :
    ∃ c time, s.find p = .ok (.file c time) ∧ t.find q = .ok (.file c time) := by
  obtain ⟨hlocate, htarget⟩ := target_of_move h
  obtain ⟨c, time, hfind, rfl⟩ := move_ok h
  have hentry := entryAt?_of_find hfind
  refine ⟨c, time, hfind, find_put (locate_delete hlocate hentry hlast) (fun hdir => ?_) hlast⟩
  by_cases hsame : q.location s.workingDir = p.location s.workingDir
  · rw [hsame, entryAt?_delete_self (ne_root_of_entryAt? (s := s) (by simp [hentry]))] at hdir
    cases hdir
  · rw [entryAt?_delete_of_ne hsame] at hdir
    exact htarget hdir

end Store

end ViewTemplate
