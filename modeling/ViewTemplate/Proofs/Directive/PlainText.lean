import ViewTemplate.Proofs.Directive.LoopText
import ViewTemplate.Proofs.Directive.Unruled
import ViewTemplate.Proofs.Cache.Header
import ViewTemplate.Proofs.Run.Points

namespace ViewTemplate

namespace Pattern

variable {p : Pattern} {cs : List Char}

theorem pieces_eq_kept
    (h : ∀ before r, r <:+ cs → p.run some ⟨before, r, 0, []⟩ = none) (before : Option Char) :
    p.pieces before cs = cs.map .kept := by
  induction cs generalizing before with
  | nil => rw [Pattern.pieces, List.map_nil]
  | cons c cs ih =>
    rw [Pattern.pieces, h before _ List.suffix_rfl]
    exact congrArg _ (ih (fun before r hr => h before r (hr.trans (List.suffix_cons c cs))) _)

end Pattern

namespace Directive

open Pattern

/-- A text does not occur in another, in any case. -/
def Absent (s : String) (cs : List Char) : Prop :=
  ¬s.toList.map Text.foldChar <:+: cs.map Text.foldChar

variable {d : Delimiters} {cs : List Char} {m : Cursor} {next : Cursor → Option Cursor}

theorem Absent.suffix {s : String} {r : List Char} (h : Absent s cs) (hr : r <:+ cs) :
    Absent s r := fun hs => h (hs.trans (hr.map Text.foldChar).isInfix)

theorem Absent.run_anyCase {s : String} (h : Absent s m.rest) : (anyCase s).run next m = none := by
  refine run_eq_none fun n hn => absurd ?_ h
  obtain ⟨w, hw, hpast⟩ := takes_anyCase hn
  rw [hpast.1, List.map_append, hw]
  exact (List.prefix_append _ _).isInfix

theorem Absent.run_exact {s : String} (h : Absent s m.rest) : (exact s).run next m = none := by
  refine run_eq_none fun n hn => absurd ?_ h
  rw [(takes_exact hn).1, List.map_append]
  exact (List.prefix_append _ _).isInfix

section Rules

variable {r : Rule}

theorem Absent.leaves (h : Absent d.left cs) (hr : r ∈ rules d) : r.Leaves cs := by
  intro before
  have hopening : ∀ next, d.opening.run next ⟨before, cs, 0, []⟩ = none :=
    fun next => h.run_anyCase
  -- Two patterns keep the delimiter in a group; the others are directives around their content.
  cases hr using Rule.byName <;> exact hopening _

theorem Absent.rewrites (h : Absent d.left cs) (hr : r ∈ rules d) : r.Rewrites cs cs false := by
  induction cs with
  | nil => exact r.rewrites_nil
  | cons c cs ih => exact (ih (h.suffix (List.suffix_cons c cs))).kept (h.leaves hr)

theorem Absent.compileCalls (h : Absent d.left cs) : compileCalls d cs = (cs, []) := by
  have hnone : ∀ before r, r <:+ cs → (callDirective d).run some ⟨before, r, 0, []⟩ = none :=
    fun before r hr => (h.suffix hr).run_exact
  rw [Directive.compileCalls, pieces_eq_kept hnone, List.map_map]
  refine Prod.ext ?_ ?_
  · exact (List.flatMap_map ..).trans (List.flatMap_singleton' cs)
  · exact (List.flatMap_map ..).trans (List.flatMap_eq_nil_iff.2 fun _ _ => rfl)

theorem Absent.generate {source : String} (h : Absent d.left source.toList) :
    generate d source = .ok ⟨Artifact.header ++ "\n" ++ source, []⟩ := by
  have hrules : applyRules (rules d) source.toList = .ok source.toList :=
    applyRules_of_rewrites fun r hr => h.rewrites hr
  rw [Directive.generate, hrules]
  simp only [bind, Except.bind, h.compileCalls]
  rw [Artifact.ofCode, String.ofList_toList]
  rfl

end Rules

end Directive

namespace Code

/-- The statements of a text outside of code. -/
def plainBody (s : String) : List Stmt := if s = "" then [] else [.text s]

theorem eq_of_unlined_text {stmt : Stmt} {s : String} (h : stmt.unlined = .text s) :
    stmt = .text s := by
  cases stmt <;> cases h
  rfl

theorem textTokens_plain {s : String} (h : ¬openTag.toList <:+: s.toList) :
    ∃ ts, TextTokens s.toList ts ∧ Passage (plainBody s) ts := by
  unfold plainBody
  split
  · subst s
    exact ⟨[], .nil, .nil⟩
  · rename_i hne
    have hchars : s.toList ≠ [] := fun hnil => hne (String.toList_eq_nil_iff.1 hnil)
    refine ⟨[.text s], ?_, .text .nil⟩
    have htext := TextTokens.text hchars h
    rwa [String.ofList_toList] at htext

theorem eq_plainBody {s : String} {body : List Stmt}
    (h : unlinedAll body = unlinedAll (plainBody s)) : body = plainBody s := by
  unfold plainBody at h ⊢
  split at h
  · cases body with
    | nil => exact (if_pos ‹_›).symm
    | cons => cases h
  · obtain ⟨x, xs, rfl, hx, hxs⟩ := unlinedAll_eq_cons h
    rw [if_neg ‹_›, eq_of_unlined_text hx]
    cases xs with
    | nil => rfl
    | cons => cases hxs

theorem parse_plain {s : String} (h : ¬openTag.toList <:+: s.toList) :
    Program.parse s = .ok ⟨plainBody s⟩ := by
  obtain ⟨ts, htokens, hpassage⟩ := textTokens_plain h
  obtain ⟨stream, hstream, rfl⟩ := htokens 1
  obtain ⟨⟨body⟩, hprogram, hbody⟩ := hpassage.program
  obtain rfl : body = plainBody s := eq_plainBody hbody
  rw [Program.parse, tokenize, hstream]
  exact hprogram

end Code

namespace Run

open Code

variable {m : Type → Type} [Monad m] [LawfulMonad m]

theorem execute_plain (host : Host m) (scope : Entries Value) (s : String) (path : Path) :
    execute host scope ⟨plainBody s⟩ path = pure ⟨.ok s, []⟩ := by
  let start : State := ⟨scope, "", ⟨path, 0, 0⟩, []⟩
  have hbody : execBody host host.maxIncludeDepth (plainBody s) start =
      pure (.ok .normal, { start with output := s }) := by
    rw [execBody_eq]
    unfold plainBody
    split
    · subst s
      rfl
    · have hwrite : ∀ t : State, execStmt host (bodies host host.maxIncludeDepth) (.text s) t =
          pure (.ok .normal, { t with output := t.output ++ s }) :=
        fun t => (bind_run_of_ok (modify_run _ t)).trans (pure_run _ _)
      rw [execBlock]
      refine (bind_run_of_ok (hwrite start)).trans ?_
      rw [String.empty_append]
      rfl
  rw [execute, hbody, pure_bind]
  rfl

end Run

namespace Directive

open Run

/-- A source in which neither the left delimiter nor a code tag occurs is its own artifact, behind
the header, and its own output with all data, functions and settings. -/
theorem plain_text_kept {d : Delimiters} {source : String} (hleft : Absent d.left source.toList)
    (htag : ¬Code.openTag.toList <:+: source.toList) :
    generate d source = .ok ⟨Artifact.header ++ "\n" ++ source, []⟩ ∧
      ∀ artifact, ∃ program,
        Artifact.program (Artifact.header ++ "\n" ++ source) artifact = .ok program ∧
        ∀ (m : Type → Type) [Monad m] [LawfulMonad m] (host : Host m) (scope : Entries Value)
          (path : Path), execute host scope program path = pure ⟨.ok source, []⟩ := by
  refine ⟨hleft.generate, fun artifact => ⟨⟨Code.plainBody source⟩, ?_, ?_⟩⟩
  · have hcode : Artifact.code (Artifact.ofCode source.toList) artifact =
        .ok (String.ofList source.toList) := Artifact.code_ofCode artifact
    rw [Artifact.ofCode, String.ofList_toList] at hcode
    rw [Artifact.program, hcode]
    simp only [bind, Except.bind, Code.parse_plain htag]
  · intro m _ _ host scope path
    exact execute_plain host scope source path

def plainSample : String := "it's \\ \"$a@b\" ?> tpl> <?TPL\r\n<? php tag */ $x@last"

theorem plain_text_kept_sample :
    generate ⟨"<tpl", "tpl>"⟩ plainSample = .ok ⟨Artifact.header ++ "\n" ++ plainSample, []⟩ ∧
      ∃ program,
        Artifact.program (Artifact.header ++ "\n" ++ plainSample) ⟨"view"⟩ = .ok program ∧
        execute (m := Id) ⟨[], loadNothing, true, 0, 0⟩ [("a", .int 1)] program ⟨"view"⟩ =
          pure ⟨.ok plainSample, []⟩ := by
  have hleft : Absent "<tpl" plainSample.toList := by
    unfold Absent
    decide +kernel
  obtain ⟨hgenerate, hprogram⟩ := plain_text_kept (d := ⟨"<tpl", "tpl>"⟩) hleft (by decide +kernel)
  obtain ⟨program, hparse, hrun⟩ := hprogram ⟨"view"⟩
  exact ⟨hgenerate, program, hparse, hrun Id _ _ _⟩

end Directive

end ViewTemplate
