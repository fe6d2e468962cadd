import ViewTemplate.Directive.Generate
import ViewTemplate.Proofs.Directive.Paths

namespace ViewTemplate.Directive

section Passes

variable {r : Rule} {rs : List Rule} {n bound : Nat} {text out : List Char} {d : Delimiters}

/-- So many applications of a rule, each of which changes the text. -/
def Rule.passes? (r : Rule) : Nat → List Char → Option (List Char)
  | 0, text => some text
  | n + 1, text => r.apply? text >>= r.passes? n

/-- After at most so many applications the rule matches no more. -/
def Rule.RestsWithin (r : Rule) (bound : Nat) (text out : List Char) : Prop :=
  ∃ n ≤ bound, r.passes? n text = some out ∧ r.apply? out = none

/-- One rule after another comes to rest within the bound. -/
def SettlesWithin (bound : Nat) : List Rule → List Char → List Char → Prop
  | [], text, out => text = out
  | r :: rs, text, out => ∃ next, r.RestsWithin bound text next ∧ SettlesWithin bound rs next out

theorem Rule.exhaust?_eq_none : r.exhaust? n text = none ↔ ∃ out, r.passes? n text = some out := by
  induction n generalizing text with
  | zero => exact ⟨fun _ => ⟨text, rfl⟩, fun _ => rfl⟩
  | succ n ih =>
    rw [exhaust?, passes?]
    cases r.apply? text with
    | none =>
      constructor
      · intro h
        cases h
      · rintro ⟨out, h⟩
        cases h
    | some next => exact ih

theorem Rule.exhaust?_eq_some : r.exhaust? n text = some out ↔
    ∃ k < n, r.passes? k text = some out ∧ r.apply? out = none := by
  induction n generalizing text with
  | zero => exact ⟨nofun, fun ⟨_, hk, _⟩ => absurd hk (Nat.not_lt_zero _)⟩
  | succ n ih =>
    rw [exhaust?]
    cases happly : r.apply? text with
    | none =>
      refine ⟨?_, ?_⟩
      · rintro ⟨⟩
        exact ⟨0, Nat.zero_lt_succ n, rfl, happly⟩
      · rintro ⟨_ | k, -, hpasses, -⟩
        · exact hpasses
        · rw [passes?, happly] at hpasses
          cases hpasses
    | some next =>
      refine ih.trans ⟨?_, ?_⟩
      · rintro ⟨k, hk, hpasses, hrest⟩
        refine ⟨k + 1, Nat.succ_lt_succ hk, ?_, hrest⟩
        rwa [passes?, happly]
      · rintro ⟨_ | k, hk, hpasses, hrest⟩
        · cases hpasses
          rw [happly] at hrest
          cases hrest
        · rw [passes?, happly] at hpasses
          exact ⟨k, Nat.lt_of_succ_lt_succ hk, hpasses, hrest⟩

theorem Rule.exhaust?_maxPasses :
    r.exhaust? maxPasses text = some out ↔ r.RestsWithin (maxPasses - 1) text out := by
  rw [exhaust?_eq_some]
  exact exists_congr fun k => and_congr_left fun _ => Nat.lt_succ_iff

/-- The rules come to an end exactly when each of them comes to rest one pass before the last. -/
theorem applyRules_eq_ok :
    applyRules rs text = .ok out ↔ SettlesWithin (maxPasses - 1) rs text out := by
  induction rs generalizing text with
  | nil =>
    rw [applyRules, SettlesWithin]
    exact ⟨fun h => Except.ok.inj h, congrArg Except.ok⟩
  | cons r rs ih =>
    rw [applyRules, SettlesWithin]
    cases hnext : r.exhaust? maxPasses text with
    | none =>
      refine ⟨fun h => (by cases h), ?_⟩
      rintro ⟨next, hrests, -⟩
      rw [Rule.exhaust?_maxPasses.mpr hrests] at hnext
      cases hnext
    | some next =>
      refine ih.trans ⟨fun h => ⟨next, Rule.exhaust?_maxPasses.mp hnext, h⟩, ?_⟩
      rintro ⟨next', hrests, h⟩
      rw [Rule.exhaust?_maxPasses.mpr hrests] at hnext
      cases hnext
      exact h

theorem applyRules_eq_error {e : CompileFault} : applyRules rs text = .error e ↔
    ∃ before r after next, rs = before ++ r :: after ∧
      SettlesWithin (maxPasses - 1) before text next ∧
      (∃ last, r.passes? maxPasses next = some last) ∧ e = .noFixedPoint r.name := by
  induction rs generalizing text with
  | nil => exact ⟨nofun, fun ⟨before, r, after, _, h, _⟩ => by cases before <;> cases h⟩
  | cons r rs ih =>
    rw [applyRules]
    -- The first rule is the one that fails, or it comes to rest in front of that one.
    cases hnext : r.exhaust? maxPasses text with
    | none =>
      have hpasses := Rule.exhaust?_eq_none.mp hnext
      refine ⟨?_, ?_⟩
      · rintro ⟨⟩
        exact ⟨[], r, rs, text, rfl, rfl, hpasses, rfl⟩
      · rintro ⟨before, r', after, next, hrs, hbefore, -, rfl⟩
        cases before with
        | nil =>
          obtain ⟨rfl, -⟩ := List.cons.inj hrs
          rfl
        | cons b before =>
          obtain ⟨rfl, -⟩ := List.cons.inj hrs
          obtain ⟨next', hrests, -⟩ := hbefore
          rw [Rule.exhaust?_maxPasses.mpr hrests] at hnext
          cases hnext
    | some next =>
      have hrests := Rule.exhaust?_maxPasses.mp hnext
      refine ih.trans ⟨?_, ?_⟩
      · rintro ⟨before, r', after, last, rfl, hbefore, hlast⟩
        exact ⟨r :: before, r', after, last, rfl, ⟨next, hrests, hbefore⟩, hlast⟩
      · rintro ⟨before, r', after, last, hrs, hbefore, hlast⟩
        cases before with
        | nil =>
          obtain ⟨rfl, rfl⟩ := List.cons.inj hrs
          obtain rfl : text = last := hbefore
          rw [Rule.exhaust?_eq_none.mpr hlast.1] at hnext
          cases hnext
        | cons b before =>
          obtain ⟨rfl, rfl⟩ := List.cons.inj hrs
          obtain ⟨next', hrests', hbefore⟩ := hbefore
          rw [Rule.exhaust?_maxPasses.mpr hrests'] at hnext
          cases hnext
          exact ⟨before, r', after, last, rfl, hbefore, hlast⟩

theorem Rule.RestsWithin.mono {bound' : Nat} (h : r.RestsWithin bound text out)
    (hle : bound ≤ bound') : r.RestsWithin bound' text out := by
  obtain ⟨n, hn, hpasses, hrest⟩ := h
  exact ⟨n, Nat.le_trans hn hle, hpasses, hrest⟩

theorem Rule.RestsWithin.of_none (h : r.apply? text = none) :
    r.RestsWithin bound text text := ⟨0, Nat.zero_le _, rfl, h⟩

theorem SettlesWithin.mono {bound' : Nat} (h : SettlesWithin bound rs text out)
    (hle : bound ≤ bound') : SettlesWithin bound' rs text out := by
  induction rs generalizing text with
  | nil => exact h
  | cons r rs ih =>
    obtain ⟨next, hrests, h⟩ := h
    exact ⟨next, hrests.mono hle, ih h⟩

theorem SettlesWithin.append {rs' : List Rule} {next : List Char}
    (h : SettlesWithin bound rs text next) (h' : SettlesWithin bound rs' next out) :
    SettlesWithin bound (rs ++ rs') text out := by
  induction rs generalizing text with
  | nil =>
    obtain rfl : text = next := h
    exact h'
  | cons r rs ih =>
    obtain ⟨mid, hrests, h⟩ := h
    exact ⟨mid, hrests, ih h⟩

end Passes

theorem generate_eq_error {d : Delimiters} {source : String} {e : CompileFault} :
    generate d source = .error e ↔ applyRules (rules d) source.toList = .error e := by
  rw [generate]
  cases applyRules (rules d) source.toList with
  | error e' =>
    refine ⟨fun h => ?_, fun h => ?_⟩
    · cases h
      rfl
    · cases h
      rfl
  | ok out => exact ⟨nofun, nofun⟩

theorem exists_generate_eq_ok {d : Delimiters} {source : String} :
    (∃ g, generate d source = .ok g) ↔ ∃ out, applyRules (rules d) source.toList = .ok out := by
  rw [generate]
  cases applyRules (rules d) source.toList with
  | error e => exact ⟨nofun, nofun⟩
  | ok out => exact ⟨fun _ => ⟨out, rfl⟩, fun _ => ⟨_, rfl⟩⟩

section Chain

variable {x : Identifier} {k : Key} {done keys more : List Key} {bound : Nat}

theorem Rule.OpensWithBrace.apply_braced {r : Rule} {content : List Char} (hr : r.OpensWithBrace)
    (hleaves : r.Leaves (braced content ++ [])) (hbrace : ∀ c ∈ content, c ≠ '{') :
    r.apply? (braced content) = none := by
  have hrewrites := r.rewrites_nil.left hr hleaves hbrace
  rw [List.append_nil] at hrewrites
  rw [hrewrites.apply_eq, if_neg Bool.false_ne_true]

/-- A variable with the keys `done` as subscripts and `keys` behind dots. -/
def chain (x : Identifier) (done keys : List Key) : List Char :=
  '$' :: (x.chars ++ done.flatMap Key.bracketed ++ keys.flatMap Key.dotted)

theorem chain_chars : ∀ c ∈ chain x done keys, isPathChar c = true ∨ c = '$' ∨ c = '.' := by
  refine List.forall_mem_cons.mpr ⟨.inr (.inl rfl), List.forall_mem_append.mpr ⟨?_, ?_⟩⟩
  · refine List.forall_mem_append.mpr ⟨fun c hc => .inl (x.isPathChar c hc), fun c hc => .inl ?_⟩
    exact forall_mem_flatMap_bracketed done c hc
  · exact fun c hc => (forall_mem_flatMap_dotted keys c hc).imp_right .inr

theorem chain_noBrace : ∀ c ∈ chain x done keys, c ≠ '{' := by
  rintro _ hc rfl
  exact absurd (chain_chars _ hc) (by decide)

theorem chain_apply : Rule.apply? (dottedAccess .braces) (braced (chain x done (k :: keys))) =
    some (braced (chain x (done ++ [k]) keys)) := by
  have hchars : ∀ c ∈ x.chars ++ done.flatMap Key.bracketed, isPathChar c = true :=
    List.forall_mem_append.mpr ⟨x.isPathChar, forall_mem_flatMap_bracketed done⟩
  have hmore := forall_mem_flatMap_dotted keys
  have hbrace : '}' ∉ keys.flatMap Key.dotted := fun h => absurd (hmore _ h) (by decide)
  have hline : '\n' ∉ keys.flatMap Key.dotted := fun h => absurd (hmore _ h) (by decide)
  have hlast : ∀ c, (keys.flatMap Key.dotted).getLast? = some c → Text.isBlank c = false := by
    intro c hc
    rcases hmore c (List.mem_of_getLast? hc) with h | rfl
    · exact isBlank_of_isPathChar h
    · rfl
  have hturns := dottedAccess_turns_key .echo k [] (by simp [Identifier.chars]) hchars hbrace hline
    hlast (fun c hc => by cases keys <;> cases hc <;> rfl)
  have happly := ((dottedAccess .braces).rewrites_nil.turned hturns (by simp [braced])).apply_eq
  simpa [chain, Use.before] using happly

theorem chain_rests : Rule.apply? (dottedAccess .braces) (braced (chain x done [])) = none := by
  have hdot : '.' ∉ chain x done [] := by
    rw [chain, List.flatMap_nil, List.append_nil]
    intro hmem
    rcases List.mem_append.mp (List.mem_of_ne_of_mem (by decide) hmem) with hmem | hmem
    · exact absurd (x.isPathChar _ hmem) (by decide)
    · exact absurd (forall_mem_flatMap_bracketed done _ hmem) (by decide)
  exact opensWithBrace_dottedAccess.apply_braced (dottedAccess_leaves hdot []) chain_noBrace

/-- Each pass turns one key into a subscript. -/
theorem chain_passes (x : Identifier) (done keys more : List Key) :
    (dottedAccess .braces).passes? keys.length (braced (chain x done (keys ++ more))) =
      some (braced (chain x (done ++ keys) more)) := by
  induction keys generalizing done with
  | nil => rw [List.append_nil, List.nil_append, List.length_nil, Rule.passes?]
  | cons k keys ih =>
    rw [List.length_cons, Rule.passes?, List.cons_append, chain_apply, Option.bind_eq_bind,
      Option.bind_some, ih, List.append_assoc, List.singleton_append]

theorem chain_restsWithin (h : keys.length ≤ bound) :
    (dottedAccess .braces).RestsWithin bound (braced (chain x [] keys))
      (braced (chain x keys [])) := by
  have hpasses := chain_passes x [] keys []
  rw [List.append_nil, List.nil_append] at hpasses
  exact ⟨keys.length, h, hpasses, chain_rests⟩

theorem chain_before : SettlesWithin bound [comment .braces, rawEcho .braces]
    (braced (chain x done keys)) (braced (chain x done keys)) := by
  have hcomment : (comment .braces).OpensWithBrace := Rule.opensWithBrace_of_around rfl
  have hraw : (rawEcho .braces).OpensWithBrace := Rule.opensWithBrace_of_around rfl
  exact ⟨_, .of_none (hcomment.apply_braced (fun _ => rfl) chain_noBrace), _,
    .of_none (hraw.apply_braced (fun _ => rfl) chain_noBrace), rfl⟩

theorem chain_behind (x : Identifier) (keys : List Key) (hbound : maxPasses - 1 ≤ bound) :
    ∃ out, SettlesWithin bound ((rules .braces).drop 3) (braced (chain x keys [])) out := by
  let q : CodePath := ⟨x.chars ++ keys.flatMap Key.bracketed, by simp [Identifier.chars],
    List.forall_mem_append.mpr ⟨x.isPathChar, forall_mem_flatMap_bracketed keys⟩⟩
  let draft : Draft := [.inr (.path .echo q)]
  have hinert : draft.Inert := fun cs hcs => by cases List.mem_singleton.mp hcs
  have hshown : braced (chain x keys []) = draft.shown 0 := by
    simp [draft, Draft.shown, Pending.shown, Pending.content, Use.before, Use.after, chain, q]
  have hat : '@' ∉ braced (chain x keys []) :=
    not_mem_braced (fun h => absurd (chain_chars _ h) (by decide)) (by decide) (by decide)
  have hfields : Rule.apply? (loopToken .braces) (braced (chain x keys [])) = none := by
    rw [(loopToken_rewrites_same hat).apply_eq, if_neg Bool.false_ne_true]
  have hcode := Draft.applyRules (t := draft) hinert
  rw [← hshown] at hcode
  exact ⟨_, _, .of_none hfields, (applyRules_eq_ok.mp hcode).mono hbound⟩

theorem chain_settles (hbound : maxPasses - 1 ≤ bound) (h : keys.length ≤ bound) :
    ∃ out, SettlesWithin bound (rules .braces) (braced (chain x [] keys)) out := by
  obtain ⟨out, hout⟩ := chain_behind x keys hbound
  have hdots : SettlesWithin bound (dottedAccess .braces :: (rules .braces).drop 3)
      (braced (chain x [] keys)) out := ⟨_, chain_restsWithin h, hout⟩
  exact ⟨out, chain_before.append hdots⟩

theorem chain_given_up (h : maxPasses ≤ keys.length) :
    generate .braces (String.ofList (braced (chain x [] keys))) =
      .error (.noFixedPoint "dotted-access") := by
  rw [generate_eq_error, applyRules_eq_error, String.toList_ofList]
  refine ⟨[comment .braces, rawEcho .braces], dottedAccess .braces, (rules .braces).drop 3, _, rfl,
    chain_before, ?_, rfl⟩
  have hpasses := chain_passes x [] (keys.take maxPasses) (keys.drop maxPasses)
  rw [List.take_append_drop, List.length_take_of_le h] at hpasses
  exact ⟨_, hpasses⟩

/-- A variable may have one dot less than there are passes. -/
theorem chain_generate_iff :
    (∃ g, generate .braces (String.ofList (braced (chain x [] keys))) = .ok g) ↔
      keys.length < maxPasses := by
  refine ⟨?_, fun h => ?_⟩
  · rintro ⟨g, hg⟩
    by_contra h
    rw [chain_given_up (Nat.not_lt.mp h)] at hg
    cases hg
  · rw [exists_generate_eq_ok, String.toList_ofList]
    obtain ⟨out, hout⟩ := chain_settles (x := x) (Nat.le_refl _) (Nat.le_pred_of_lt h)
    exact ⟨out, applyRules_eq_ok.mpr hout⟩

/-- A template is given up exactly when some rule changes the text in every one of its passes, and
becomes code exactly when every rule comes to rest before its last pass. -/
theorem given_up_iff_every_pass_changes (d : Delimiters) (source : String) :
    (∀ e, generate d source = .error e ↔
      ∃ before r after text, rules d = before ++ r :: after ∧
        SettlesWithin (maxPasses - 1) before source.toList text ∧
        (∃ last, r.passes? maxPasses text = some last) ∧ e = .noFixedPoint r.name) ∧
    ((∃ g, generate d source = .ok g) ↔
      ∃ out, SettlesWithin (maxPasses - 1) (rules d) source.toList out) := by
  refine ⟨fun e => generate_eq_error.trans applyRules_eq_error, ?_⟩
  exact exists_generate_eq_ok.trans (exists_congr fun _ => applyRules_eq_ok)

/-- A rule that needs all of its passes is given up although it matches no more, and although all
rules would come to rest. -/
theorem not_given_up_only_without_rest :
    (¬∀ (d : Delimiters) (source : String) before r after text, d.check = .ok () →
      rules d = before ++ r :: after → SettlesWithin maxPasses before source.toList text →
      generate d source = .error (.noFixedPoint r.name) →
      ∃ last, r.passes? maxPasses text = some last ∧ r.apply? last ≠ none) ∧
    ¬∀ (d : Delimiters) (source : String), d.check = .ok () →
      (∃ out, SettlesWithin maxPasses (rules d) source.toList out) →
      ∃ g, generate d source = .ok g := by
  let x : Identifier := ⟨'a', [], .inl rfl, nofun⟩
  let k : Key := ⟨['b'], nofun, List.all_eq_true.mp rfl⟩
  let keys := List.replicate maxPasses k
  have hlength : keys.length = maxPasses := List.length_replicate
  have hcheck : Delimiters.braces.check = .ok () := rfl
  have herror := chain_given_up (x := x) (Nat.le_of_eq hlength.symm)
  refine ⟨fun h => ?_, fun h => ?_⟩
  · obtain ⟨last, hlast, hmatch⟩ := h .braces _ [comment .braces, rawEcho .braces]
      (dottedAccess .braces) ((rules .braces).drop 3) (braced (chain x [] keys)) hcheck rfl
      (String.toList_ofList ▸ chain_before) herror
    have hpasses := chain_passes x [] keys []
    rw [List.append_nil, hlength, hlast] at hpasses
    obtain rfl := Option.some.inj hpasses
    exact hmatch chain_rests
  · obtain ⟨out, hout⟩ := chain_settles (x := x) (Nat.pred_le maxPasses) (Nat.le_of_eq hlength)
    obtain ⟨g, hg⟩ := h .braces (String.ofList (braced (chain x [] keys))) hcheck
      ⟨out, String.toList_ofList.symm ▸ hout⟩
    rw [herror] at hg
    cases hg

end Chain

end ViewTemplate.Directive
