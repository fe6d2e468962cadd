import ViewTemplate.Proofs.Resolver.Bound

namespace ViewTemplate

open ViewTemplate.Path

namespace Location

variable {l m : Location} {depth : Nat} {c : Component} {cs : List Component}

/-- Where some components lead, one after another. -/
def along (l : Location) (cs : List Component) : Location := cs.foldl stepOf l

/-- Whether components lead no further up than `depth` places above their start. -/
def descends : Nat → List Component → Bool
  | _, [] => true
  | _, .root :: _ => false
  | depth, .current :: rest => descends depth rest
  | 0, .parent :: _ => false
  | depth + 1, .parent :: rest => descends depth rest
  | depth, .normal _ :: rest => descends (depth + 1) rest

theorem along_append (l : Location) (cs ds : List Component) :
    along l (cs ++ ds) = along (along l cs) ds := List.foldl_append

/-- A walk from a place that stays below it, `m` being the way that it has gone down. -/
theorem isPrefix_along (h : descends m.length cs = true) : l <+: along (l ++ m) cs := by
  induction cs generalizing m with
  | nil => exact List.prefix_append l m
  | cons c rest ih =>
    cases c with
    | root => cases h
    | current => exact ih h
    | normal name =>
      rw [along, List.foldl_cons, stepOf, List.append_assoc]
      exact ih (by simpa [descends] using h)
    | parent =>
      rcases List.eq_nil_or_concat m with rfl | ⟨front, last, rfl⟩
      · cases h
      · rw [List.length_concat, descends] at h
        rw [along, List.foldl_cons, stepOf, List.concat_eq_append, ← List.append_assoc,
          List.dropLast_concat]
        exact ih h

/-- A place under which no walk begins again is not reached by names that differ from it. -/
theorem head?_along_ne {fresh : String} (hfresh : ∀ c ∈ cs, c ≠ .normal fresh)
    (h : l.head? ≠ some fresh) : (along l cs).head? ≠ some fresh := by
  induction cs generalizing l with
  | nil => exact h
  | cons c rest ih =>
    refine ih (fun d hd => hfresh d (List.mem_cons_of_mem _ hd)) ?_
    cases c with
    | root => simp [stepOf]
    | current => exact h
    | parent =>
      cases l with
      | nil => exact h
      | cons a rest =>
        cases rest with
        | nil => simp [stepOf]
        | cons b rest => simpa [stepOf] using h
    | normal name =>
      have hname : name ≠ fresh := fun hname =>
        hfresh _ List.mem_cons_self (congrArg Component.normal hname)
      cases l with
      | nil => simpa [stepOf] using hname
      | cons a rest => simpa [stepOf] using h

theorem head?_along_of_not_descends {fresh : String} (hfresh : ∀ c ∈ cs, c ≠ .normal fresh)
    (h : descends m.length cs = false) : (along (fresh :: m) cs).head? ≠ some fresh := by
  induction cs generalizing m with
  | nil => cases h
  | cons c rest ih =>
    have hrest : ∀ c ∈ rest, c ≠ .normal fresh := fun d hd => hfresh d (List.mem_cons_of_mem _ hd)
    cases c with
    | root => exact head?_along_ne (l := []) hrest (by simp)
    | current => exact ih hrest h
    | normal name => exact ih (m := m ++ [name]) hrest (by simpa [descends] using h)
    | parent =>
      rcases List.eq_nil_or_concat m with rfl | ⟨front, last, rfl⟩
      · exact head?_along_ne (l := []) hrest (by simp)
      · rw [List.length_concat, descends] at h
        rw [along, List.foldl_cons, stepOf, List.concat_eq_append, ← List.cons_append,
          List.dropLast_concat]
        exact ih hrest h

end Location

open Location

section Components

variable {home : Location} {p : Path}

theorem Path.location_eq_along (home : Location) (p : Path) :
    p.location home = along home p.components := by
  by_cases hp : p.text = ""
  · have hnone : p.components = [] := by simp [components, hp, pieces]
    simp [hnone, along, location, isAbsolute, hp, pieces, follow, step]
  · obtain ⟨ps, -, hfollow, ⟨hcomponents, habsolute⟩ | ⟨hcomponents | hcomponents, habsolute⟩⟩ :=
      components_eq hp
    all_goals
      rw [location, habsolute, hcomponents, ← hfollow, along]
      first
      | rw [List.foldl_cons, foldl_stepOf]
      | rw [foldl_stepOf]
    all_goals rfl

end Components

namespace Resolver

variable {dir templateDir p : Path} {name : String} {names : List String} {route : Option Route}
  {home : Location}

/-- The names of the directories below the template directory in which a view is looked up. -/
def dirNames (route : Option Route) : List (List String) :=
  (route.map fun r => [[r.moduleName, Text.lower r.controller], [r.moduleName]]).getD [] ++ [[]]

def nested (names : List String) : List Component :=
  names.flatMap fun name => components ⟨String.ofList (name.toList.dropWhile isSeparator)⟩

/-- A name that leads to a file inside every directory, with the names of its route in between. -/
structure Confined (name : String) (route : Option Route) : Prop where
  nonempty : (viewName name route).toList.dropWhile isSeparator ≠ []
  descends : ∀ names ∈ dirNames route,
    descends 0 (nested (names ++ [viewName name route ++ "." ++ templateExtension])) = true

/-- A path that leads, with the extension behind it, to a file below the template directory. -/
def Rooted (templateDir p : Path) : Prop :=
  ∃ rest, (withExtension p).components = templateDir.components ++ rest ∧ descends 0 rest = true

section Names

theorem location_under :
    (under dir name).location home = along (dir.location home) (nested [name]) := by
  rw [nested, List.flatMap_singleton]
  by_cases hempty : name.toList.dropWhile isSeparator = []
  · simp [under, hempty, components, pieces, along]
  · have hrelative := isAbsolute_trimmed name
    rw [under, if_neg (by simpa using hempty), location_join hrelative, ← Path.location_eq_along,
      Path.location.eq_1 (dir.location home), if_neg (by simp [hrelative])]

theorem location_foldl_under (dir : Path) (names : List String) :
    (names.foldl under dir).location home = along (dir.location home) (nested names) := by
  induction names generalizing dir with
  | nil => rfl
  | cons name rest ih =>
    have hnested : nested (name :: rest) = nested [name] ++ nested rest := by
      simp [nested]
    rw [List.foldl_cons, ih, location_under, hnested, along_append]

theorem withExtension_under (h : name.toList.dropWhile isSeparator ≠ []) :
    withExtension (under dir name) = under dir (name ++ "." ++ templateExtension) := by
  have htrimmed : (name ++ "." ++ templateExtension).toList.dropWhile isSeparator =
      name.toList.dropWhile isSeparator ++ ['.', 't', 'p', 'l'] := by
    simp [templateExtension, List.dropWhile_append, h]
  have hlong : (name ++ "." ++ templateExtension).toList.dropWhile isSeparator ≠ [] := by
    rw [htrimmed]
    exact List.append_ne_nil_of_left_ne_nil h _
  have htext : (withExtension (under dir name)).text.toList =
      (under dir (name ++ "." ++ templateExtension)).text.toList := by
    rw [toList_withExtension, toList_under h, toList_under hlong, htrimmed, List.append_assoc]
  exact congrArg Path.mk (String.toList_inj.mp htext)

/-- The candidates of a name: a file in each of the directories, and the name itself if it is a path
from the root that begins with the template directory. -/
theorem candidates_eq (h : (viewName name route).toList.dropWhile isSeparator ≠ []) :
    candidates templateDir name route =
      (dirNames route).map (fun names =>
        (names ++ [viewName name route ++ "." ++ templateExtension]).foldl under templateDir) ++
      if (⟨viewName name route⟩ : Path).isAbsolute &&
          (⟨viewName name route⟩ : Path).startsWith templateDir then
        [withExtension ⟨viewName name route⟩] else [] := by
  unfold candidates dirNames
  dsimp only
  congr 1
  cases route with
  | none => simp [withExtension_under h]
  | some r => simp [withExtension_under h, routeDirs]

end Names

theorem candidates_inside (hname : Confined name route)
    (hrooted : (⟨viewName name route⟩ : Path).startsWith templateDir = true →
      (⟨viewName name route⟩ : Path).isAbsolute = true → Rooted templateDir ⟨viewName name route⟩)
    (hp : p ∈ candidates templateDir name route) (home : Location) :
    templateDir.location home <+: p.location home := by
  rw [candidates_eq hname.nonempty] at hp
  rcases List.mem_append.mp hp with hp | hp
  · obtain ⟨names, hnames, rfl⟩ := List.mem_map.mp hp
    rw [location_foldl_under]
    simpa using isPrefix_along (m := []) (hname.descends names hnames)
  · split at hp
    · rename_i hbegins
      obtain rfl : p = withExtension ⟨viewName name route⟩ := by simpa using hp
      rw [Bool.and_eq_true] at hbegins
      obtain ⟨rest, hrest, hdescends⟩ := hrooted hbegins.2 hbegins.1
      rw [Path.location_eq_along home (withExtension _), hrest, along_append,
        ← Path.location_eq_along]
      simpa using isPrefix_along (m := []) hdescends
    · cases hp

section Converse

def letters (n : Nat) : String := String.ofList (List.replicate (n + 1) 'a')

theorem letters_isInner (n : Nat) : (Component.normal (letters n)).IsInner := by
  simp [Component.IsInner, letters, component?, List.replicate_succ]

theorem exists_letters (cs : List Component) :
    ∃ bound, ∀ n ≥ bound, ∀ c ∈ cs, c ≠ .normal (letters n) := by
  induction cs with
  | nil => exact ⟨0, fun n _ c hc => nomatch hc⟩
  | cons c rest ih =>
    obtain ⟨bound, hbound⟩ := ih
    cases c with
    | normal name =>
      refine ⟨bound + name.length, fun n hn c hc => ?_⟩
      rcases List.mem_cons.mp hc with rfl | hc
      · intro hname
        have hlength : name.length = n + 1 := by
          rw [Component.normal.inj hname, letters, String.length_ofList, List.length_replicate]
        omega
      · exact hbound n (by omega) c hc
    | _ =>
      refine ⟨bound, fun n hn c hc => ?_⟩
      rcases List.mem_cons.mp hc with rfl | hc
      · exact Component.noConfusion
      · exact hbound n hn c hc

/-- A view whose candidates lie inside every template directory stays below. -/
theorem confined_of_inside (h : ∀ templateDir, ∀ p ∈ candidates templateDir name route, ∀ home,
    templateDir.location home <+: p.location home) : Confined name route := by
  have hnonempty : (viewName name route).toList.dropWhile isSeparator ≠ [] := by
    intro hempty
    have hmem : withExtension (under ⟨"/a"⟩ (viewName name route)) ∈
        candidates ⟨"/a"⟩ name route := by
      simp [candidates]
    have hinside := h ⟨"/a"⟩ _ hmem []
    rw [under, if_pos (by simp [hempty])] at hinside
    exact absurd hinside (by decide)
  refine ⟨hnonempty, fun names hnames => ?_⟩
  by_contra hdescends
  obtain ⟨bound, hfresh⟩ :=
    exists_letters (nested (names ++ [viewName name route ++ "." ++ templateExtension]))
  -- a template directory with a name that the walk never takes
  let templateDir := (⟨"/"⟩ : Path).join ⟨letters bound⟩
  have hstart : templateDir.location [] = [letters bound] := by
    rw [location_join_name (letters_isInner bound)]
    rfl
  have hinside := h templateDir ((names ++ [viewName name route ++ "." ++ templateExtension]).foldl
    under templateDir) (by
      rw [candidates_eq hnonempty]
      exact List.mem_append_left _ (List.mem_map_of_mem hnames)) []
  rw [location_foldl_under, hstart] at hinside
  obtain ⟨below, hbelow⟩ := hinside
  refine head?_along_of_not_descends (m := []) (hfresh bound le_rfl) (by simpa using hdescends) ?_
  rw [← hbelow]
  rfl

end Converse

/-- The candidates of a relative name lie inside every template directory exactly when the name
stays below. -/
theorem candidates_inside_iff (h : (⟨viewName name route⟩ : Path).isAbsolute = false) :
    (∀ templateDir, ∀ p ∈ candidates templateDir name route, ∀ home,
      templateDir.location home <+: p.location home) ↔ Confined name route :=
  ⟨confined_of_inside, fun hname _ _ hp home =>
    candidates_inside hname (fun _ habsolute => nomatch h.symm.trans habsolute) hp home⟩

end Resolver

namespace Engine

open Resolver

variable {e : Engine} {name : String} {route : Option Route}

/-- A view that stays below is looked up, and found, inside the template directory only. -/
theorem resolve_inside (hname : Confined name route)
    (hrooted : (⟨viewName name route⟩ : Path).startsWith e.settings.templateDir = true →
      (⟨viewName name route⟩ : Path).isAbsolute = true →
        Rooted e.settings.templateDir ⟨viewName name route⟩) :
    (∀ p ∈ candidates e.settings.templateDir name route, ∀ home,
      e.settings.templateDir.location home <+: p.location home) ∧
    ∀ s t p, (e.resolve name route).run.run s = (.ok p, t) →
      e.settings.templateDir.location s.workingDir <+: p.location s.workingDir := by
  refine ⟨fun p hp home => candidates_inside hname hrooted hp home, fun s t p h => ?_⟩
  rw [resolve_eq, run_firstOr] at h
  exact candidates_inside hname hrooted (List.mem_of_find?_eq_some h.1) s.workingDir

/-- A path from the root under the template directory, with a step up in it, for a route. -/
theorem resolve_inside_of_welcome :
    let e : Engine := ⟨{ Settings.standard with templateDir := ⟨"/views"⟩ }, [], ⟨"/site"⟩, 10⟩
    let name := "/views/mail/../welcome"
    let route : Route := ⟨"shop", "Cart", "list"⟩
    let s : Store := ⟨[(["views"], .directory), (["views", "mail"], .directory),
      (["views", "welcome.tpl"], .file (.ofText "x") 3)], ["site"], 9⟩
    Confined name (some route) ∧ Rooted ⟨"/views"⟩ ⟨name⟩ ∧
      (e.resolve name (some route)).run.run s = (.ok ⟨"/views/mail/../welcome.tpl"⟩, s) ∧
      (⟨"/views"⟩ : Path).location ["site"] <+:
        (⟨"/views/mail/../welcome.tpl"⟩ : Path).location ["site"] := by
  intro e name route s
  have hname : Confined name (some route) := ⟨by decide, by decide +kernel⟩
  have hrooted : Rooted ⟨"/views"⟩ ⟨name⟩ :=
    ⟨[.normal "mail", .parent, .normal "welcome.tpl"], by decide, by decide⟩
  have hresolve : (e.resolve name (some route)).run.run s =
      (.ok ⟨"/views/mail/../welcome.tpl"⟩, s) := run_firstOr.mpr ⟨by decide +kernel, rfl⟩
  exact ⟨hname, hrooted, hresolve, (resolve_inside hname fun _ _ => hrooted).2 _ _ _ hresolve⟩

/-- Ways out of the template directory: steps up in the name of a view or of a module, behind the
template directory in a path from the root, the template directory itself as a path, no name at all,
and an empty template directory. The file above is found. -/
theorem not_candidates_inside :
    let leaves (templateDir name : String) (route : Option Route) :=
      ∃ p ∈ candidates ⟨templateDir⟩ name route,
        ¬(⟨templateDir⟩ : Path).location ["site"] <+: p.location ["site"]
    leaves "/views" "/../secret" none ∧ leaves "/views" "index" (some ⟨"..", "cart", "list"⟩) ∧
      leaves "/views" "/views/../secret" none ∧ leaves "/views" "/views" none ∧
      leaves "/views" "" none ∧ leaves "" "/etc/passwd" none ∧
      let e : Engine := ⟨{ Settings.standard with templateDir := ⟨"/views"⟩ }, [], ⟨"/site"⟩, 10⟩
      let s : Store :=
        ⟨[(["views"], .directory), (["secret.tpl"], .file (.ofText "x") 3)], ["site"], 9⟩
      (e.resolve "/../secret" none).run.run s = (.ok ⟨"/views/../secret.tpl"⟩, s) ∧
        (⟨"/views/../secret.tpl"⟩ : Path).location ["site"] = ["secret.tpl"] := by
  refine ⟨?_, ?_, ?_, ?_, ?_, ?_, run_firstOr.mpr ⟨by decide +kernel, rfl⟩, by decide⟩
  · exact ⟨⟨"/views/../secret.tpl"⟩, by decide, by decide⟩
  · exact ⟨⟨"/views/../index.tpl"⟩, by decide +kernel, by decide⟩
  · exact ⟨⟨"/views/../secret.tpl"⟩, by decide, by decide⟩
  · exact ⟨⟨"/views.tpl"⟩, by decide, by decide⟩
  · exact ⟨⟨"/views.tpl"⟩, by decide, by decide⟩
  · exact ⟨⟨"/etc/passwd.tpl"⟩, by decide, by decide⟩

end Engine

end ViewTemplate
