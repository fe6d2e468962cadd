import ViewTemplate.Files.Store

namespace ViewTemplate

open ViewTemplate.Path

variable {home l : Location} {p q r : Path} {ps qs : List (List Char)}

/-- One piece further: no way for an empty one or a dot, up for two dots, and else down. -/
def Location.step (l : Location) (piece : List Char) : Location :=
  if piece = [] ∨ piece = ['.'] then l
  else if piece = ['.', '.'] then l.dropLast
  else l ++ [String.ofList piece]

def Location.follow (l : Location) (ps : List (List Char)) : Location := ps.foldl Location.step l

/-- Where a path leads from a working directory, if all that it goes through are directories. -/
def Path.location (home : Location) (p : Path) : Location :=
  Location.follow (if p.isAbsolute then [] else home) (pieces p.text.toList)

namespace Path

section Pieces

variable {cs ds : List Char}

theorem pieces_ne_nil : pieces cs ≠ [] := by
  cases cs with
  | nil => simp [pieces]
  | cons c rest =>
    unfold pieces
    split
    · simp
    · split <;> simp

theorem pieces_append_slash : pieces (cs ++ '/' :: ds) = pieces cs ++ pieces ds := by
  induction cs with
  | nil => simp [pieces]
  | cons c rest ih =>
    rw [List.cons_append, pieces, pieces, ih]
    split
    · simp
    · cases h : pieces rest with
      | nil => exact absurd h pieces_ne_nil
      | cons piece more => simp

theorem pieces_of_noSlash (h : '/' ∉ cs) : pieces cs = [cs] := by
  induction cs with
  | nil => rfl
  | cons c rest ih =>
    rw [List.mem_cons, not_or] at h
    rw [pieces, if_neg (Ne.symm h.1), ih h.2]

theorem noSlash_of_mem_pieces {piece : List Char} (h : piece ∈ pieces cs) : '/' ∉ piece := by
  induction cs generalizing piece with
  | nil => simp_all [pieces]
  | cons c rest ih =>
    unfold pieces at h
    split at h
    · rcases List.mem_cons.mp h with rfl | h
      · simp
      · exact ih h
    · rename_i hc
      split at h
      · rename_i first more hrest
        rcases List.mem_cons.mp h with rfl | h
        · have : '/' ∉ first := ih (by simp [hrest])
          simp [Ne.symm hc, this]
        · exact ih (by simp [hrest, h])
      · simp_all [Ne.symm hc]

end Pieces

theorem toList_join (h : r.isAbsolute = false) :
    (q.join r).text.toList = q.text.toList ++
      (if q.text.toList.getLast?.all (· = '/') then [] else ['/']) ++ r.text.toList := by
  rw [join, if_neg (by simp [h])]
  simp only [String.toList_append]
  split <;> simp_all

theorem pieces_join (h : r.isAbsolute = false) :
    (pieces (q.join r).text.toList).filter (· ≠ []) =
      (pieces q.text.toList).filter (· ≠ []) ++ (pieces r.text.toList).filter (· ≠ []) := by
  rw [toList_join h]
  cases hlast : q.text.toList.getLast? with
  | none =>
    rw [List.getLast?_eq_none_iff] at hlast
    simp [hlast, pieces]
  | some c =>
    obtain ⟨front, hfront⟩ := List.getLast?_eq_some_iff.mp hlast
    by_cases hc : c = '/'
    · simp [hfront, hc, pieces_append_slash, pieces]
    · simp [hc, pieces_append_slash]

theorem isAbsolute_join (h : r.isAbsolute = false) : (q.join r).isAbsolute = q.isAbsolute := by
  rw [join, if_neg (by simp [h])]
  unfold isAbsolute at h ⊢
  cases hq : q.text.toList with
  | nil => simpa [hq] using h
  | cons c rest => simp [hq]

end Path

namespace Location

theorem step_nil (l : Location) : step l [] = l := by simp [step]

theorem follow_filter (l : Location) (ps : List (List Char)) :
    follow l (ps.filter (· ≠ [])) = follow l ps := by
  induction ps generalizing l with
  | nil => rfl
  | cons piece rest ih =>
    by_cases h : piece = []
    · subst h
      simpa [follow, step_nil] using ih l
    · simpa [follow, h] using ih (step l piece)

theorem follow_append (l : Location) (ps qs : List (List Char)) :
    follow l (ps ++ qs) = follow (follow l ps) qs := List.foldl_append

end Location

open Location

theorem Path.location_join (h : r.isAbsolute = false) :
    (q.join r).location home = follow (q.location home) (pieces r.text.toList) := by
  rw [location, isAbsolute_join h, ← follow_filter, pieces_join h, follow_append, follow_filter,
    follow_filter]
  rfl

section Absolute

def Location.stepOf (l : Location) : Component → Location
  | .root => []
  | .current => l
  | .parent => l.dropLast
  | .normal name => l ++ [name]

/-- A component that a piece inside a path can be. -/
def Component.IsInner : Component → Prop
  | .root | .current => False
  | .parent => True
  | .normal name => '/' ∉ name.toList ∧ component? name.toList = some (.normal name)

theorem component?_isInner {piece : List Char} {c : Component} (hslash : '/' ∉ piece)
    (h : component? piece = some c) : c.IsInner := by
  have hpiece := h
  unfold component? at h
  split at h
  · cases h
  · split at h
    · cases h
      trivial
    · cases h
      simpa [Component.IsInner] using ⟨hslash, hpiece⟩

theorem isAbsolute_name {name : String} (h : (Component.normal name).IsInner) :
    (⟨name⟩ : Path).isAbsolute = false :=
  decide_eq_false fun hhead => h.1 (List.mem_of_mem_head? hhead)

theorem component?_ne {piece : List Char} {name : String}
    (h : component? piece = some (.normal name)) :
    piece ≠ [] ∧ piece ≠ ['.'] ∧ piece ≠ ['.', '.'] := by
  refine ⟨?_, ?_, ?_⟩ <;> rintro rfl <;> simp [component?] at h

theorem getLast?_join {name : String} (h : (Component.normal name).IsInner) :
    (q.join ⟨name⟩).text.toList.getLast? ≠ some '/' := by
  rw [toList_join (isAbsolute_name h), List.getLast?_append]
  cases hlast : name.toList.getLast? with
  | none => exact absurd (List.getLast?_eq_none_iff.mp hlast) (component?_ne h.2).1
  | some c =>
    rintro ⟨⟩
    exact h.1 (List.mem_of_getLast? hlast)

theorem stepOf_component? {piece : List Char} {c : Component} (h : component? piece = some c) :
    stepOf l c = step l piece := by
  unfold component? at h
  unfold step
  split at h
  · cases h
  · rename_i hno
    rw [if_neg hno]
    split at h
    · rename_i hup
      cases h
      rw [if_pos hup, stepOf]
    · rename_i hup
      cases h
      rw [if_neg hup, stepOf]

theorem foldl_stepOf (l : Location) (ps : List (List Char)) :
    (ps.filterMap component?).foldl stepOf l = follow l ps := by
  induction ps generalizing l with
  | nil => rfl
  | cons piece rest ih =>
    cases h : component? piece with
    | none =>
      have hstep : step l piece = l := by
        unfold component? at h
        unfold step
        split at h
        · rename_i hno
          rw [if_pos hno]
        · split at h <;> cases h
      rw [List.filterMap_cons_none h, ih, follow, follow, List.foldl_cons, hstep]
    | some c =>
      rw [List.filterMap_cons_some h, List.foldl_cons, ih, stepOf_component? h]
      rfl

theorem location_join_ofComponent {c : Component} (h : c.IsInner) :
    (q.join (ofComponent c)).location home = stepOf (q.location home) c := by
  cases c with
  | root => exact h.elim
  | current => exact h.elim
  | parent =>
    rw [location_join (by decide)]
    simp [ofComponent, stepOf, pieces, follow, step]
  | normal name =>
    rw [ofComponent, location_join (isAbsolute_name h), pieces_of_noSlash h.1,
      stepOf_component? h.2]
    rfl

theorem location_join_name {name : String} (h : (Component.normal name).IsInner) :
    (q.join ⟨name⟩).location home = q.location home ++ [name] :=
  location_join_ofComponent (c := .normal name) h

theorem location_foldl_join {cs : List Component} (h : ∀ c ∈ cs, c.IsInner) :
    (cs.foldl (fun q c => q.join (ofComponent c)) q).location home =
      cs.foldl stepOf (q.location home) := by
  induction cs generalizing q with
  | nil => rfl
  | cons c rest ih =>
    rw [List.foldl_cons, List.foldl_cons, ih fun d hd => h d (List.mem_cons_of_mem _ hd),
      location_join_ofComponent (h c List.mem_cons_self)]

theorem inner_of_pieces {cs : List Char} (hsub : ps ⊆ pieces cs) :
    ∀ c ∈ ps.filterMap component?, c.IsInner := by
  intro c hc
  obtain ⟨piece, hmem, hpiece⟩ := List.mem_filterMap.mp hc
  exact component?_isInner (noSlash_of_mem_pieces (hsub hmem)) hpiece

theorem components_eq (hp : p.text ≠ "") :
    ∃ ps ⊆ pieces p.text.toList, (∀ l, follow l ps = follow l (pieces p.text.toList)) ∧
      (p.components = .root :: ps.filterMap component? ∧ p.isAbsolute = true ∨
        (p.components = .current :: ps.filterMap component? ∨
          p.components = ps.filterMap component?) ∧ p.isAbsolute = false) := by
  have hcs : p.text.toList ≠ [] := by simpa using hp
  unfold components isAbsolute
  cases htext : p.text.toList with
  | nil => exact absurd htext hcs
  | cons c rest =>
    by_cases hc : c = '/'
    · subst hc
      refine ⟨pieces rest, by simp [pieces], fun l => by simp [pieces, follow, step_nil], ?_⟩
      have hne : (pieces rest).isEmpty = false := by simp [pieces_ne_nil]
      simp [pieces, hne]
    · cases hrest : pieces rest with
      | nil => exact absurd hrest pieces_ne_nil
      | cons piece more =>
        have hpieces : pieces (c :: rest) = (c :: piece) :: more := by
          rw [pieces, if_neg hc, hrest]
        rw [hpieces]
        -- A dot at the beginning is a component of its own, and leads nowhere.
        by_cases hdot : c :: piece = ['.']
        · refine ⟨more, by simp, fun l => ?_, ?_⟩
          · rw [hdot]
            simp [follow, step]
          · rw [hdot]
            simp [hc]
        · refine ⟨(c :: piece) :: more, by simp, fun _ => rfl, ?_⟩
          simp [hc]

theorem location_join_nothing : (q.join ⟨""⟩).location home = q.location home := by
  rw [location_join (by decide)]
  simp [pieces, follow, step]

/-- The path from the root leads to the same place as the path itself. -/
theorem Path.location_absolute {cwd : Path} (hp : p.text ≠ "") (hcwd : cwd.isAbsolute = true) :
    (absolute cwd p).location home = p.location (cwd.location []) := by
  obtain ⟨ps, hsub, hfollow, hcomponents⟩ := components_eq hp
  have hfold : ∀ q : Path, ((ps.filterMap component?).foldl (fun q c => q.join (ofComponent c))
      q).location home = follow (q.location home) (pieces p.text.toList) := by
    intro q
    rw [location_foldl_join (inner_of_pieces hsub), foldl_stepOf, hfollow]
  have htrail : ∀ q : Path, (if p.text.toList.getLast? = some '/' then q.join ⟨""⟩
      else q).location home = q.location home := by
    intro q
    split
    · exact location_join_nothing
    · rfl
  unfold absolute
  simp only [hp, if_false]
  rw [htrail]
  rcases hcomponents with ⟨hcomponents, habs⟩ | ⟨hcomponents, habs⟩
  · have hhere : p.location (cwd.location []) = follow [] (pieces p.text.toList) := by
      rw [location, if_pos habs]
    rw [hhere, hcomponents]
    split
    · exact hfold ⟨"//"⟩
    · exact hfold ⟨"/"⟩
  · have hhere : p.location (cwd.location []) =
        follow (cwd.location home) (pieces p.text.toList) := by
      rw [location, if_neg (by simp [habs]), location, location, if_pos hcwd, if_pos hcwd]
    have hone : List.isPrefixOf ['/', '/'] p.text.toList = false := by
      unfold isAbsolute at habs
      cases h : p.text.toList with
      | nil => rfl
      | cons c rest =>
        simp only [h, List.head?_cons, Option.some.injEq, decide_eq_false_iff_not] at habs
        simp [List.isPrefixOf, Ne.symm habs]
    rw [hhere]
    simp only [hone, Bool.false_and, Bool.false_eq_true, if_false, habs]
    rcases hcomponents with hcomponents | hcomponents
    · rw [hcomponents]
      exact hfold cwd
    · -- a component inside a path is no dot, so none is dropped here
      have hinner := inner_of_pieces hsub
      rw [hcomponents]
      split
      · rename_i hcurrent
        rw [hcurrent] at hinner
        exact (hinner _ List.mem_cons_self).elim
      · exact hfold cwd

end Absolute

namespace Store

variable {s t : Store} {m : Location}

theorem walk_cons (l : Location) (piece : List Char) (rest : List (List Char)) :
    s.walk l (piece :: rest) = if piece = [] then s.walk l rest
      else s.checkDirectory l >>= fun _ => s.walk (l.step piece) rest := by
  rw [walk, Location.step]
  split
  · rfl
  · simp only [*, false_or, apply_ite (s.walk · rest)]

theorem checkDirectory_ok : s.checkDirectory l = .ok () ↔ s.entryAt? l = some .directory := by
  unfold checkDirectory
  split <;> simp_all

theorem walk_cons_ok {piece : List Char} {rest : List (List Char)} :
    s.walk l (piece :: rest) = .ok m ↔
      (piece = [] ∨ s.entryAt? l = some .directory) ∧ s.walk (l.step piece) rest = .ok m := by
  rw [walk_cons, ← checkDirectory_ok]
  split
  · rename_i hnil
    simp [hnil, Location.step]
  · rename_i hnil
    cases s.checkDirectory l <;> simp [hnil, bind, Except.bind]

theorem walk_eq (h : s.walk l ps = .ok m) : m = follow l ps := by
  induction ps generalizing l with
  | nil =>
    cases h
    rfl
  | cons piece rest ih => exact ih (walk_cons_ok.mp h).2

theorem walk_append (l : Location) (ps qs : List (List Char)) :
    s.walk l (ps ++ qs) = s.walk l ps >>= fun m => s.walk m qs := by
  induction ps generalizing l with
  | nil => rfl
  | cons piece rest ih =>
    rw [List.cons_append, walk_cons, walk_cons]
    split
    · exact ih l
    · cases s.checkDirectory l with
      | error e => rfl
      | ok u => exact ih _

theorem walk_filter (l : Location) (ps : List (List Char)) :
    s.walk l (ps.filter (· ≠ [])) = s.walk l ps := by
  induction ps generalizing l with
  | nil => rfl
  | cons piece rest ih =>
    by_cases h : piece = []
    · simp only [h, walk, ne_eq, not_true_eq_false, decide_false, Bool.false_eq_true,
        not_false_eq_true, List.filter_cons_of_neg, if_true]
      exact ih l
    · rw [List.filter_cons_of_pos (by simp [h]), walk, walk, if_neg h, if_neg h]
      simp only [ih]

/-- The same directories, for jobs that begin relative paths at the same place. -/
structure SameDirectories (s t : Store) : Prop where
  workingDir : t.workingDir = s.workingDir
  iff : ∀ l, t.entryAt? l = some .directory ↔ s.entryAt? l = some .directory

theorem walk_mono (h : ∀ l, s.entryAt? l = some .directory → t.entryAt? l = some .directory)
    (hs : s.walk l ps = .ok m) : t.walk l ps = .ok m := by
  induction ps generalizing l with
  | nil => exact hs
  | cons piece rest ih =>
    obtain ⟨hdir, hs⟩ := walk_cons_ok.mp hs
    exact walk_cons_ok.mpr ⟨hdir.imp_right (h l), ih hs⟩

/-- The place that a path leads to, which is no file when the path ends in a slash. -/
theorem locate_ok : s.locate p = .ok l ↔ p.text ≠ "" ∧
    s.walk (if p.isAbsolute then [] else s.workingDir) (pieces p.text.toList) = .ok l ∧
      ¬(p.text.toList.getLast? = some '/' ∧ ∃ c t, s.entryAt? l = some (.file c t)) := by
  unfold locate
  by_cases hp : p.text = ""
  · simp only [hp, if_true]
    simp [throw, throwThe, MonadExceptOf.throw, bind, Except.bind]
  · simp only [hp, if_false]
    cases s.walk (if p.isAbsolute then [] else s.workingDir) (pieces p.text.toList) with
    | error e => simp [bind, Except.bind]
    | ok m =>
      simp only [bind, Except.bind, pure, Except.pure]
      split
      · simp_all [throw, throwThe, MonadExceptOf.throw]
        grind
      · simp_all
        grind

theorem location_of_locate (h : s.locate p = .ok l) : p.location s.workingDir = l :=
  (walk_eq (locate_ok.mp h).2.1).symm

theorem locate_mono (hhome : t.workingDir = s.workingDir)
    (hdirs : ∀ l, s.entryAt? l = some .directory → t.entryAt? l = some .directory)
    (hl : t.entryAt? l = s.entryAt? l) (hs : s.locate p = .ok l) : t.locate p = .ok l := by
  obtain ⟨hp, hwalk, hfile⟩ := locate_ok.mp hs
  rw [← hhome] at hwalk
  exact locate_ok.mpr ⟨hp, walk_mono hdirs hwalk, by rwa [hl]⟩

theorem SameDirectories.locate (h : SameDirectories s t) (hs : s.locate p = .ok l)
    (hl : t.entryAt? l = s.entryAt? l) : t.locate p = .ok l :=
  locate_mono h.workingDir (fun l => (h.iff l).mpr) hl hs

theorem SameDirectories.locate_of_noSlash (h : SameDirectories s t) (hs : s.locate p = .ok l)
    (hlast : p.text.toList.getLast? ≠ some '/') : t.locate p = .ok l := by
  obtain ⟨hp, hwalk, -⟩ := locate_ok.mp hs
  rw [← h.workingDir] at hwalk
  exact locate_ok.mpr ⟨hp, walk_mono (fun l => (h.iff l).mpr) hwalk, fun hslash => hlast hslash.1⟩

theorem SameDirectories.symm (h : SameDirectories s t) : SameDirectories t s :=
  ⟨h.workingDir.symm, fun l => (h.iff l).symm⟩

theorem find_ok {e : FileEntry} :
    s.find p = .ok e ↔ ∃ l, s.locate p = .ok l ∧ s.entryAt? l = some e := by
  unfold find
  cases s.locate p with
  | error _ => simp [bind, Except.bind]
  | ok l =>
    simp only [bind, Except.bind]
    split <;> simp_all [pure, Except.pure, throw, throwThe, MonadExceptOf.throw]

theorem find_of_locate (h : s.locate p = .ok l) :
    s.find p = match s.entryAt? l with
      | some e => .ok e
      | none => .error .notFound := by
  unfold find
  rw [h]
  simp only [bind, Except.bind]
  cases s.entryAt? l <;> rfl

theorem find_of_isDirectory (h : s.isDirectory p = true) : s.find p = .ok .directory := by
  unfold isDirectory at h
  split at h
  · assumption
  · cases h

theorem entryAt?_of_find {e : FileEntry} (h : s.find p = .ok e) :
    s.entryAt? (p.location s.workingDir) = some e := by
  obtain ⟨l, hl, he⟩ := find_ok.mp h
  rw [location_of_locate hl, he]

/-- What a path leads to is still there, if no directory is gone and its place is as it was. -/
theorem find_mono {e : FileEntry} (hhome : t.workingDir = s.workingDir)
    (hdirs : ∀ l, s.entryAt? l = some .directory → t.entryAt? l = some .directory)
    (hl : t.entryAt? (p.location s.workingDir) = s.entryAt? (p.location s.workingDir))
    (hs : s.find p = .ok e) : t.find p = .ok e := by
  obtain ⟨l, hlocate, he⟩ := find_ok.mp hs
  rw [location_of_locate hlocate] at hl
  exact find_ok.mpr ⟨l, locate_mono hhome hdirs hl hlocate, hl.trans he⟩

theorem SameDirectories.find {e : FileEntry} (h : SameDirectories s t)
    (hl : t.entryAt? (p.location s.workingDir) = s.entryAt? (p.location s.workingDir))
    (hs : s.find p = .ok e) : t.find p = .ok e :=
  find_mono h.workingDir (fun l => (h.iff l).mpr) hl hs

theorem SameDirectories.find_directory (h : SameDirectories s t)
    (hs : s.find p = .ok .directory) : t.find p = .ok .directory := by
  have hdir := entryAt?_of_find hs
  refine h.find ?_ hs
  rw [hdir]
  exact (h.iff _).mpr hdir

theorem locate_join {dir : Path} {name : String} (hdir : s.locate dir = .ok l)
    (hl : s.entryAt? l = some .directory) (hname : (Component.normal name).IsInner) :
    s.locate (dir.join ⟨name⟩) = .ok (l ++ [name]) := by
  obtain ⟨hp, hwalk, -⟩ := locate_ok.mp hdir
  refine locate_ok.mpr ⟨?_, ?_, fun h => getLast?_join hname h.1⟩
  · intro h
    have := congrArg String.toList h
    rw [toList_join (isAbsolute_name hname)] at this
    simp_all
  · rw [isAbsolute_join (isAbsolute_name hname), ← walk_filter, pieces_join
      (isAbsolute_name hname), walk_append, walk_filter, hwalk, pieces_of_noSlash hname.1]
    have hne := component?_ne hname.2
    simp [bind, Except.bind, walk, hne, checkDirectory_ok.mpr hl]

end Store

end ViewTemplate
