import ViewTemplate.Proofs.Cache.Direct

namespace ViewTemplate

open ViewTemplate.Path

namespace Resolver

variable {dir p q templateDir : Path} {name : String} {route : Option Route}

/-- Something is left of a name without the separators at its start, and no slash ends it. -/
structure NamesFile (name : String) (route : Option Route) : Prop where
  nonempty : (viewName name route).toList.dropWhile isSeparator ≠ []
  noSlash : ((viewName name route).toList.dropWhile isSeparator).getLast? ≠ some '/'

section Extension

theorem toList_withExtension (p : Path) :
    (withExtension p).text.toList = p.text.toList ++ ['.', 't', 'p', 'l'] := by
  simp [withExtension, templateExtension]

theorem fst_splitLast_withExtension (p : Path) : (withExtension p).splitLast.1 =
    'l' :: 'p' :: 't' :: '.' :: p.text.toList.reverse.takeWhile (· ≠ '/') := by
  have hreverse : (withExtension p).text.toList.reverse =
      'l' :: 'p' :: 't' :: '.' :: p.text.toList.reverse := by
    simp [toList_withExtension]
  unfold splitLast
  rw [hreverse, dropRedundant.eq_4 _ (by simp) (by simp) (by simp)]
  simp

theorem extension?_withExtension (hp : p.text ≠ "") (h : p.text.toList.getLast? ≠ some '/') :
    (withExtension p).extension? = some templateExtension := by
  obtain ⟨c, hlast⟩ : ∃ c, p.text.toList.getLast? = some c :=
    Option.isSome_iff_exists.mp (by simpa [List.getLast?_isSome] using hp)
  obtain ⟨front, hfront⟩ := List.getLast?_eq_some_iff.mp hlast
  have hc : c ≠ '/' := fun hc => h (hc ▸ hlast)
  have hsplit := fst_splitLast_withExtension p
  rw [hfront, List.reverse_append, List.reverse_singleton, List.singleton_append,
    List.takeWhile_cons_of_pos (by simpa using hc)] at hsplit
  simp [extension?, fileName?, hsplit, templateExtension]

end Extension

section Candidates

theorem isAbsolute_trimmed (name : String) :
    (⟨String.ofList (name.toList.dropWhile isSeparator)⟩ : Path).isAbsolute = false := by
  have hhead := List.head?_dropWhile_not isSeparator name.toList
  rw [isAbsolute, String.toList_ofList]
  cases h : (name.toList.dropWhile isSeparator).head? with
  | none => rfl
  | some c =>
    rw [h] at hhead
    have : c ≠ '/' := by
      rintro rfl
      simp [isSeparator] at hhead
    simpa using this

theorem toList_under (h : name.toList.dropWhile isSeparator ≠ []) :
    (under dir name).text.toList = dir.text.toList ++
      (if dir.text.toList.getLast?.all (· = '/') then [] else ['/']) ++
        name.toList.dropWhile isSeparator := by
  unfold under
  rw [if_neg (by simpa using h), toList_join (isAbsolute_trimmed name), String.toList_ofList]

theorem getLast?_under (h : name.toList.dropWhile isSeparator ≠ []) :
    (under dir name).text.toList.getLast? = (name.toList.dropWhile isSeparator).getLast? := by
  rw [toList_under h, List.getLast?_append_of_ne_nil _ h]

theorem slash_mem_under (h : name.toList.dropWhile isSeparator ≠ []) (hdir : dir.text ≠ "") :
    '/' ∈ (under dir name).text.toList := by
  rw [toList_under h]
  cases hlast : dir.text.toList.getLast? with
  | none => exact absurd (List.getLast?_eq_none_iff.mp hlast) (by simpa using hdir)
  | some c =>
    by_cases hc : c = '/'
    · subst hc
      simp [List.mem_of_getLast? hlast]
    · simp [hc]

theorem text_ne_under (hdir : dir.text ≠ "") : (under dir name).text ≠ "" := by
  by_cases h : name.toList.dropWhile isSeparator = []
  · simpa [under, h] using hdir
  · intro htext
    have := slash_mem_under h hdir
    simp [htext] at this

theorem text_ne_of_mem_dirs (hT : templateDir.text ≠ "")
    (hdir : dir ∈ (route.map (routeDirs templateDir)).getD [] ++ [templateDir]) :
    dir.text ≠ "" := by
  cases route with
  | none =>
    obtain rfl : dir = templateDir := by simpa using hdir
    exact hT
  | some r =>
    have hmodule : (under templateDir r.moduleName).text ≠ "" := text_ne_under hT
    have hdir : dir = under (under templateDir r.moduleName) (Text.lower r.controller) ∨
        dir = under templateDir r.moduleName ∨ dir = templateDir := by
      simpa [routeDirs] using hdir
    rcases hdir with rfl | rfl | rfl
    · exact text_ne_under hmodule
    · exact hmodule
    · exact hT

/-- A candidate without its extension: it has a name that no slash ends, and a slash unless relative
paths begin in the template directory. -/
theorem exists_of_mem_candidates (hname : NamesFile name route)
    (hp : p ∈ candidates templateDir name route) : ∃ q, p = withExtension q ∧ q.text ≠ "" ∧
      q.text.toList.getLast? ≠ some '/' ∧ ('/' ∈ q.text.toList ∨ templateDir.text = "") := by
  unfold candidates at hp
  -- A path under one of the directories, or the name itself where it is absolute.
  rcases List.mem_append.mp hp with hp | hp
  · obtain ⟨dir, hdir, rfl⟩ := List.mem_map.mp hp
    refine ⟨_, rfl, ?_, getLast?_under hname.nonempty ▸ hname.noSlash, ?_⟩
    · intro htext
      have hunder : (under dir (viewName name route)).text.toList = _ := toList_under hname.nonempty
      simp [htext, hname.nonempty] at hunder
    · by_cases hT : templateDir.text = ""
      · exact .inr hT
      · exact .inl (slash_mem_under hname.nonempty (text_ne_of_mem_dirs hT hdir))
  · split at hp
    · rename_i habsolute
      obtain rfl : p = withExtension ⟨viewName name route⟩ := by simpa using hp
      have hslash : '/' ∈ (viewName name route).toList := by
        rw [Bool.and_eq_true, isAbsolute, decide_eq_true_eq] at habsolute
        exact List.mem_of_mem_head? habsolute.1
      have hlast : (viewName name route).toList.getLast? =
          ((viewName name route).toList.dropWhile isSeparator).getLast? := by
        conv_lhs => rw [← List.takeWhile_append_dropWhile (p := isSeparator)
          (l := (viewName name route).toList), List.getLast?_append_of_ne_nil _ hname.nonempty]
      refine ⟨_, rfl, fun htext => ?_, hlast ▸ hname.noSlash, .inl hslash⟩
      rw [show viewName name route = "" from htext] at hslash
      simp at hslash
    · cases hp

theorem includedPath_of_mem_candidates (hname : NamesFile name route)
    (hp : p ∈ candidates templateDir name route) : includedPath templateDir p.text = p := by
  obtain ⟨q, rfl, htext, hlast, hslash⟩ := exists_of_mem_candidates hname hp
  have hextension := extension?_withExtension htext hlast
  unfold includedPath
  split
  · rw [if_pos hextension]
  · rename_i hnone
    have hT : templateDir.text = "" := by
      refine hslash.resolve_left fun hq => hnone ?_
      simp [toList_withExtension, hq]
    have hkeep : Text.dropEndWhile isSeparator (withExtension q).text.toList =
        (withExtension q).text.toList := by
      simp [Text.dropEndWhile, toList_withExtension, isSeparator]
    have hjoin : templateDir.join (withExtension q) = withExtension q := by
      simp [join, hT]
    rw [hkeep, String.ofList_toList]
    show (if (templateDir.join (withExtension q)).extension? = some templateExtension then
      templateDir.join (withExtension q) else _) = _
    rw [hjoin, if_pos hextension]

end Candidates

end Resolver

namespace Engine

open Resolver

variable {e : Engine} {p : Path} {s t : Store} {name view : String} {layout : Option String}
  {route : Option Route} {b : Binding}

section Lookups

def isFileIn (s : Store) (p : Path) : Bool := (s.perform (.isFile p)).1

theorem run_firstFile_eq (ps : List Path) :
    (firstFile ps).run s = (ps.find? (isFileIn s), s) := by
  induction ps with
  | nil => rfl
  | cons q rest ih =>
    have hperform : s.perform (.isFile q) = (isFileIn s q, s) := rfl
    rw [run_firstFile_cons hperform]
    cases hq : isFileIn s q with
    | true => rw [if_pos rfl, List.find?_cons_of_pos hq]
    | false => rw [if_neg Bool.false_ne_true, List.find?_cons_of_neg (by simp [hq]), ih]

theorem run_firstOr {tried : List Path} {error : TemplateError} :
    (firstOr tried error).run.run s = (.ok p, t) ↔ tried.find? (isFileIn s) = some p ∧ t = s := by
  have hlift : (ExceptT.lift (firstFile tried) : Attempt (Option Path)).run.run s =
      (.ok (tried.find? (isFileIn s)), s) := by
    rw [Attempt.run_lift, run_firstFile_eq]
  refine iff_of_eq (congrArg (· = _) (Attempt.run_bind_of_ok hlift)) |>.trans ?_
  cases tried.find? (isFileIn s) with
  | none =>
    refine ⟨fun h => ?_, fun h => nomatch h.1⟩
    cases h
  | some q =>
    refine ⟨fun h => ?_, fun h => ?_⟩
    · cases h
      exact ⟨rfl, rfl⟩
    · obtain ⟨hq, rfl⟩ := h
      cases hq
      rfl

/-- The file of a view is the file of an include that names its path. -/
theorem locate_of_resolve (hname : NamesFile name route)
    (h : (e.resolve name route).run.run s = (.ok p, t)) :
    t = s ∧ (e.locate p.text).run.run s = (.ok p, s) := by
  rw [resolve_eq, run_firstOr] at h
  obtain ⟨hfind, rfl⟩ := h
  have hfirst := includedPath_of_mem_candidates hname (List.mem_of_find?_eq_some hfind)
  refine ⟨rfl, ?_⟩
  rw [locate_eq, includeCandidates, hfirst, run_firstOr]
  exact ⟨List.find?_cons_of_pos (List.find?_some hfind), rfl⟩

end Lookups

section Rendering

variable (scope : Entries Value) (isPartial : Bool)

theorem run_withMetadata (contentFile : String) :
    ∃ data, (e.withMetadata scope contentFile isPartial).run s = (data, s) ∧
      Entries.get? data "__template_file" = some (.string contentFile) := by
  have hversion : (e.assetVersion.run s).2 = s := by
    unfold assetVersion
    split <;> rfl
  refine ⟨_, (Job.run_bind _ _).trans (congrArg (_, ·) hversion), ?_⟩
  simp only [Entries.insertAll, List.foldl_cons, List.foldl_nil]
  rw [Entries.get?_insert_of_ne _ (by decide), Entries.get?_insert_of_ne _ (by decide),
    Entries.get?_insert_of_ne _ (by decide), Entries.get?_insert_of_ne _ (by decide),
    Entries.get?_insert_self]

/-- A layout is executed with the path of the content in `__template_file`. -/
theorem run_render_of_layout (h : (e.bind view layout route).run.run s = (.ok b, t))
    (hp : p ∈ b.layoutPath) : ∃ data,
      (e.render scope ⟨view, layout, route, isPartial⟩).run s = (e.execute p data).run t ∧
        Entries.get? data "__template_file" = some (.string b.content.text) := by
  obtain ⟨data, hdata, hfile⟩ := run_withMetadata scope isPartial b.content.text
  refine ⟨data, ?_, hfile⟩
  have hlayout : b.layoutPath = some p := hp
  unfold render
  rw [Job.run_bind, h]
  dsimp only
  rw [hlayout, Option.isSome_some, if_pos rfl, Job.run_bind, hdata, Binding.primary, hlayout]
  rfl

end Rendering

/-- A binding is found again by the paths in it: an include of the content's path answers the
content, and one of the layout's path the layout. The layout reads the content's path in
`__template_file`. -/
theorem locate_of_bind (hview : NamesFile view route)
    (hlayout : ∀ name ∈ layout, NamesFile name route)
    (h : (e.bind view layout route).run.run s = (.ok b, t)) :
    (e.locate b.content.text).run.run t = (.ok b.content, t) ∧
      ∀ p ∈ b.layoutPath, (e.locate p.text).run.run t = (.ok p, t) ∧
        ∀ scope isPartial, ∃ data,
          (e.render scope ⟨view, layout, route, isPartial⟩).run s = (e.execute p data).run t ∧
            Entries.get? data "__template_file" = some (.string b.content.text) := by
  have hrender := fun p (hp : p ∈ b.layoutPath) scope isPartial =>
    run_render_of_layout scope isPartial h hp
  rw [bind_eq] at h
  split at h
  · cases h
  · obtain ⟨content, u, hcontent, hrest⟩ := Attempt.exists_of_run_bind h
    obtain ⟨rfl, hfound⟩ := locate_of_resolve hview hcontent
    cases layout with
    | none =>
      cases hrest
      exact ⟨hfound, fun p hp => nomatch hp⟩
    | some name =>
      obtain ⟨path, v, hpath, hlast⟩ := Attempt.exists_of_run_bind hrest
      obtain ⟨rfl, hfound'⟩ := locate_of_resolve (hlayout name rfl) hpath
      split at hlast
      · cases hlast
      · cases hlast
        exact ⟨hfound, fun p hp => ⟨Option.mem_some.mp hp ▸ hfound', hrender p hp⟩⟩

/-- A view that is named by the action of its route, in a template directory that is given by a
relative path, with a layout beside it. -/
theorem locate_of_bind_of_action :
    let e : Engine := ⟨{ Settings.standard with templateDir := ⟨"views"⟩ }, [], ⟨"/site"⟩, 10⟩
    let s : Store := ⟨[(["site"], .directory), (["site", "views"], .directory),
      (["site", "views", "shop"], .directory),
      (["site", "views", "shop", "index.tpl"], .file (.ofText "in") 3),
      (["site", "views", "page.tpl"], .file (.ofText "out") 3)], ["site"], 9⟩
    let route : Route := ⟨"shop", "cart", "index"⟩
    let b : Binding := ⟨"", some "/page", ⟨"views/shop/index.tpl"⟩, some ⟨"views/page.tpl"⟩⟩
    NamesFile "" (some route) ∧ NamesFile "/page" (some route) ∧
      (e.bind "" (some "/page") (some route)).run.run s = (.ok b, s) ∧
      (e.locate b.content.text).run.run s = (.ok b.content, s) ∧
      (e.locate "views/page.tpl").run.run s = (.ok ⟨"views/page.tpl"⟩, s) := by
  intro e s route b
  have hview : NamesFile "" (some route) := ⟨by decide, by decide⟩
  have hlayout : NamesFile "/page" (some route) := ⟨by decide, by decide⟩
  have hcontent : (e.resolve "" (some route)).run.run s = (.ok b.content, s) :=
    run_firstOr.mpr ⟨by decide +kernel, rfl⟩
  have hpath : (e.resolve "/page" (some route)).run.run s = (.ok ⟨"views/page.tpl"⟩, s) :=
    run_firstOr.mpr ⟨by decide +kernel, rfl⟩
  have hbind : (e.bind "" (some "/page") (some route)).run.run s = (.ok b, s) := by
    rw [bind_eq, if_neg (by decide)]
    refine (Attempt.run_bind_of_ok hcontent).trans ((Attempt.run_bind_of_ok hpath).trans ?_)
    rw [if_neg (by decide)]
    rfl
  have hfound := locate_of_bind hview (fun name hname => Option.mem_some.mp hname ▸ hlayout) hbind
  exact ⟨hview, hlayout, hbind, hfound.1, (hfound.2 ⟨"views/page.tpl"⟩ rfl).1⟩

end Engine

end ViewTemplate
