import ViewTemplate.Proofs.Directive.NamedArguments

namespace ViewTemplate

namespace Directive

open Code Run

variable {path : Path} {content : List Char} {name text : String} {v : Value}

/-- The template of a directive is compiled without a warning, and its program calls a function
once, with the value, writes what it returned, and does nothing else. -/
def CallsWith (path : Path) (content : List Char) (name : String) (v : Value) : Prop :=
  ∃ text program, generate .braces (String.ofList (braced content)) = .ok ⟨text, []⟩ ∧
    Artifact.program text path = .ok program ∧
    ∀ (m : Type → Type) [Monad m] [LawfulMonad m] (host : Host m) (f : Run.Function)
      (scope : Entries Value), host.functions.get? name = some f →
      execute host scope program path =
        pure ⟨(answer path (Text.lowerAscii name) (f [v])).map Value.output,
          [⟨Text.lowerAscii name, [v], f [v]⟩]⟩

theorem callsWith_of_call {e : Expr}
    (hgenerate : generate .braces (String.ofList (braced content)) = .ok ⟨text, []⟩)
    (hprogram : Artifact.program text path = .ok ⟨[.echo [.call (Text.lowerAscii name) [e]]]⟩)
    (hname : Text.lowerAscii name ∉ ["isset", "empty"]) (he : HasValue e v) :
    CallsWith path content name v := by
  refine ⟨text, _, hgenerate, hprogram, ?_⟩
  intro m _ _ host f scope hf
  refine execute_call hname ?_ he scope path
  rw [Registry.get?, Text.lowerAscii_lowerAscii]
  exact hf

section Arguments

variable {name : Identifier} {args : List NamedArgument}

theorem indexText?_identifier (x : Identifier) : Value.indexText? x.text = none := by
  have hdigit : x.head.isDigit = false := isDigit_eq_false x.head_ok
  simp [Value.indexText?, Identifier.text, Identifier.chars, hdigit]

/-- Named arguments arrive as one map, in their order and with their values. -/
theorem named_arguments_arrive (hname : CallName name) (hne : args ≠ [])
    (hkeys : (args.map fun a => a.key.text).Nodup) (hmarks : Unmarked (namedDirective name args))
    (path : Path) :
    CallsWith path (namedDirective name args) name.text (.map (args.map NamedArgument.entry)) := by
  have hword := hname.noWord
  have hother : Text.lowerAscii name.text ∉ ["isset", "empty"] := by
    simp only [List.mem_cons, List.not_mem_nil, or_false, not_or] at hword ⊢
    exact ⟨hword.2.1, hword.2.2.1⟩
  -- A key is an identifier, so that none is taken for a position.
  have hvalue : HasValue (.array ((args.map NamedArgument.entry).map entryItem))
      (.map (args.map NamedArgument.entry)) := by
    refine hasValue_array (by simpa using hne) ?_ ?_
    · intro key hkey
      simp only [Entries.keys, List.map_map, List.mem_map] at hkey
      obtain ⟨a, -, rfl⟩ := hkey
      exact indexText?_identifier a.key
    · rw [Entries.keys, List.map_map]
      exact hkeys
  exact callsWith_of_call (generate_named hname hne hmarks) (program_named hname hne path)
    hother hvalue

theorem named_arguments_arrive_link :
    ∃ (name : Identifier) (args : List NamedArgument),
      (CallName name ∧ args ≠ [] ∧ (args.map fun a => a.key.text).Nodup ∧
        Unmarked (namedDirective name args)) ∧
      CallsWith ⟨"view"⟩ "link path='/users' id=7 mode=full".toList "link"
        (.map [("path", .string "/users"), ("id", .int 7), ("mode", .string "full")]) := by
  let name : Identifier := ⟨'l', "ink".toList, .inl rfl, List.all_eq_true.mp (by decide)⟩
  let path : NamedArgument :=
    ⟨⟨'p', "ath".toList, .inl rfl, List.all_eq_true.mp (by decide)⟩,
      .string ⟨"/users".toList, by simp⟩⟩
  let id : NamedArgument :=
    ⟨⟨'i', "d".toList, .inl rfl, List.all_eq_true.mp (by decide)⟩,
      .number ⟨"7".toList, by decide, List.all_eq_true.mp (by decide)⟩⟩
  let mode : NamedArgument :=
    ⟨⟨'m', "ode".toList, .inl rfl, List.all_eq_true.mp (by decide)⟩,
      .word ⟨⟨'f', "ull".toList, .inl rfl, List.all_eq_true.mp (by decide)⟩, rfl, by decide⟩⟩
  have hname : CallName name := by
    have hprefixes : ∀ s ∈ ["if", "while", "else", "foreach", "include"], ∀ u ∈ name.chars.inits,
        ¬IsAnyCase s u := by decide +kernel
    exact ⟨fun s hs u hu => hprefixes s hs u ((List.mem_inits u name.chars).mpr hu), by decide⟩
  have hkeys : ([path, id, mode].map fun a => a.key.text).Nodup := by decide
  have hmarks : Unmarked (namedDirective name [path, id, mode]) :=
    .of_not_mem (by decide) (by decide)
  exact ⟨name, [path, id, mode], ⟨hname, by simp, hkeys, hmarks⟩,
    named_arguments_arrive hname (by simp) hkeys hmarks ⟨"view"⟩⟩

end Arguments

section Others

def soleHost (name : String) : Host Id :=
  ⟨[(Text.lowerAscii name, fun _ => .ok .null)], loadNothing, false, 0, 0⟩

/-- Whether the template of a directive calls the only function there is with a good value. -/
def tries (good : Value → Bool) (path : Path) (content : List Char) (name : String) : Bool :=
  (generate .braces (String.ofList (braced content))).toOption.any fun g =>
    (Artifact.program g.text path).toOption.any fun program =>
      (execute (soleHost name) [] program path).calls.any fun c => c.args.any good

theorem not_callsWith {good : Value → Bool} (h : tries good path content name = false)
    (hv : good v = true) : ¬CallsWith path content name v := by
  rintro ⟨text, program, hgenerate, hprogram, hrun⟩
  have hcalls := hrun Id (soleHost name) (fun _ => .ok .null) [] (if_pos rfl)
  rw [tries, hgenerate] at h
  replace h : (Artifact.program text path).toOption.any _ = false := h
  rw [hprogram] at h
  replace h : (execute (soleHost name) [] program path).calls.any _ = false := h
  rw [hcalls] at h
  simp [hv, pure] at h

def holdsDouble : Value → Bool
  | .map [(_, .float _)] => true
  | _ => false

def holdsText (s : String) : Value → Bool
  | .map [(_, .string t)] => t = s
  | _ => false

theorem holdsText_self (key s : String) : holdsText s (.map [(key, .string s)]) = true := by
  simp [holdsText]

/-- A numeral ends at its point, a word for a value and the name of a directive count in any case,
and the rules look into strings. -/
theorem not_named_arguments_arrive :
    ¬CallsWith ⟨"view"⟩ "f k=1.5".toList "f" (.map [("k", .float 1.5)]) ∧
      ¬CallsWith ⟨"view"⟩ "f k=TRUE".toList "f" (.map [("k", .string "TRUE")]) ∧
      (∀ s ∈ ["$a.b", "$x@last", "a?b:c", "a\nb"],
        ¬CallsWith ⟨"view"⟩ ("f k='" ++ s ++ "'").toList "f" (.map [("k", .string s)])) ∧
      ∀ name ∈ ["Iffy", "Isset"],
        ¬CallsWith ⟨"view"⟩ (name ++ " k=1").toList name (.map [("k", .int 1)]) := by
  refine ⟨?_, ?_, fun s hs => ?_, fun name hname => ?_⟩
  · have hcut : tries holdsDouble ⟨"view"⟩ "f k=1.5".toList "f" = false := by decide +kernel
    exact not_callsWith hcut rfl
  · have hvalue : tries (holdsText "TRUE") ⟨"view"⟩ "f k=TRUE".toList "f" = false := by
      decide +kernel
    exact not_callsWith hvalue (holdsText_self "k" "TRUE")
  · have hother : ∀ s ∈ ["$a.b", "$x@last", "a?b:c", "a\nb"],
        tries (holdsText s) ⟨"view"⟩ ("f k='" ++ s ++ "'").toList "f" = false := by decide +kernel
    exact not_callsWith (hother s hs) (holdsText_self "k" s)
  · have hnone : ∀ name ∈ ["Iffy", "Isset"],
        tries (fun _ => true) ⟨"view"⟩ (name ++ " k=1").toList name = false := by decide +kernel
    exact not_callsWith (hnone name hname) rfl

end Others

end Directive

end ViewTemplate
