import ViewTemplate.Proofs.Directive.Characters
import ViewTemplate.Proofs.Pattern.Matching
import Mathlib.Data.List.Basic

namespace ViewTemplate

def Piece.replaced (replacement : Found → String) : Piece → List Char
  | .kept c => [c]
  | .found f => (replacement f).toList

def Piece.isFound : Piece → Bool
  | .kept _ => false
  | .found _ => true

namespace Directive

variable {r : Rule} {cs ds w e : List Char} {changed : Bool} {c : Char}

/-- One application of a rule turns `cs` into `ds`, whatever stands before it. -/
def Rule.Rewrites (r : Rule) (cs ds : List Char) (changed : Bool) : Prop :=
  ∀ before, (r.pattern.pieces before cs).flatMap (Piece.replaced r.replacement) = ds ∧
    (r.pattern.pieces before cs).any Piece.isFound = changed

/-- The rule does not match at the beginning of a text. -/
def Rule.Leaves (r : Rule) (cs : List Char) : Prop :=
  ∀ before, r.pattern.run some ⟨before, cs, 0, []⟩ = none

/-- The rule matches `w` in front of `rest`, and `e` takes its place. -/
def Rule.Turns (r : Rule) (w rest e : List Char) : Prop :=
  ∀ before, ∃ m, r.pattern.run some ⟨before, w ++ rest, 0, []⟩ = some m ∧ m.rest = rest ∧
    (r.replacement ⟨⟨w ++ rest, m.position⟩, m.groups⟩).toList = e

theorem Rule.rewrites_nil (r : Rule) : r.Rewrites [] [] false := by
  intro before
  rw [Pattern.pieces]
  exact ⟨rfl, rfl⟩

theorem Rule.Rewrites.kept (h : r.Rewrites cs ds changed) (hc : r.Leaves (c :: cs)) :
    r.Rewrites (c :: cs) (c :: ds) changed := by
  intro before
  obtain ⟨htext, hany⟩ := h (some c)
  have hpieces : r.pattern.pieces before (c :: cs) =
      .kept c :: r.pattern.pieces (some c) cs := by
    rw [Pattern.pieces, hc before]
  rw [hpieces, List.flatMap_cons, List.any_cons, htext, hany]
  exact ⟨rfl, rfl⟩

theorem Rule.Rewrites.turned (h : r.Rewrites cs ds changed) (ht : r.Turns w cs e) (hw : w ≠ []) :
    r.Rewrites (w ++ cs) (e ++ ds) true := by
  intro before
  obtain ⟨m, hrun, rfl, he⟩ := ht before
  obtain ⟨htext, -⟩ := h m.before
  obtain ⟨c, v, rfl⟩ := List.exists_cons_of_ne_nil hw
  rw [List.cons_append] at hrun he ⊢
  have hshorter : m.rest.length < (c :: (v ++ m.rest)).length := by
    rw [List.length_cons, List.length_append]
    omega
  have hpieces : r.pattern.pieces before (c :: (v ++ m.rest)) =
      .found ⟨⟨c :: (v ++ m.rest), m.position⟩, m.groups⟩ :: r.pattern.pieces m.before m.rest := by
    rw [Pattern.pieces, hrun]
    exact dif_pos hshorter
  rw [hpieces, List.flatMap_cons, htext]
  exact ⟨by rw [Piece.replaced, he], rfl⟩

theorem Rule.apply_eq_ite (r : Rule) (cs : List Char) :
    r.apply? cs = if (r.pattern.pieces none cs).any Piece.isFound then
      some ((r.pattern.pieces none cs).flatMap (Piece.replaced r.replacement)) else none := by
  unfold Rule.apply? Pattern.replace?
  generalize r.pattern.pieces none cs = pieces
  refine ite_congr (congrArg (· = true) ?_) (fun _ => congrArg some ?_) (fun _ => rfl)
  · refine List.any_congr rfl fun piece => ?_
    cases piece <;> rfl
  · refine List.flatMap_congr fun piece _ => ?_
    cases piece <;> rfl

theorem Rule.Rewrites.apply_eq (h : r.Rewrites cs ds changed) :
    r.apply? cs = if changed then some ds else none := by
  obtain ⟨htext, hany⟩ := h none
  rw [← htext, ← hany, Rule.apply_eq_ite]

/-- A rule whose matches all begin with a brace. -/
def Rule.OpensWithBrace (r : Rule) : Prop := ∀ c cs, c ≠ '{' → r.Leaves (c :: cs)

theorem Rule.OpensWithBrace.rewrites (hr : r.OpensWithBrace) (h : r.Rewrites cs ds changed)
    (hw : ∀ c ∈ w, c ≠ '{') : r.Rewrites (w ++ cs) (w ++ ds) changed := by
  induction w with
  | nil => exact h
  | cons c w ih =>
    have hrest := ih fun d hd => hw d (List.mem_cons_of_mem _ hd)
    exact hrest.kept (hr c _ (hw c List.mem_cons_self))

theorem braced_append (content rest : List Char) :
    braced content ++ rest = '{' :: (content ++ '}' :: rest) := by simp [braced]

theorem Rule.Rewrites.left {content : List Char} (h : r.Rewrites cs ds changed)
    (hr : r.OpensWithBrace) (hleaves : r.Leaves (braced content ++ cs))
    (hcontent : ∀ c ∈ content, c ≠ '{') :
    r.Rewrites (braced content ++ cs) (braced content ++ ds) changed := by
  rw [braced_append] at hleaves
  rw [braced_append, braced_append]
  refine Rewrites.kept ?_ hleaves
  refine hr.rewrites ?_ hcontent
  exact h.kept (hr '}' cs (by decide))

/-- A text of parts, some of which a rule turns. -/
theorem Rule.Rewrites.parts {α β : Type} {parts : List (α ⊕ β)} {inert : α → List Char}
    {shown shown' : β → List Char} (turned : β → Bool) (hr : r.OpensWithBrace)
    (hinert : ∀ a, .inl a ∈ parts → ∀ c ∈ inert a, c ≠ '{')
    (hturns : ∀ b, turned b = true → ∀ rest, shown b ≠ [] ∧ r.Turns (shown b) rest (shown' b))
    (hkept : ∀ b, turned b = false → ∀ {cs ds changed}, r.Rewrites cs ds changed →
      r.Rewrites (shown b ++ cs) (shown' b ++ ds) changed) :
    r.Rewrites (parts.flatMap (Sum.elim inert shown)) (parts.flatMap (Sum.elim inert shown'))
      (parts.any (Sum.elim (fun _ => false) turned)) := by
  induction parts with
  | nil => exact r.rewrites_nil
  | cons part parts ih =>
    have hrest := ih fun a ha => hinert a (List.mem_cons_of_mem _ ha)
    rw [List.flatMap_cons, List.flatMap_cons, List.any_cons]
    cases part with
    | inl a => exact hr.rewrites hrest (hinert a List.mem_cons_self)
    | inr b =>
      cases hb : turned b with
      | false => simpa [hb] using hkept b hb hrest
      | true =>
        obtain ⟨hne, hturn⟩ := hturns b hb (parts.flatMap (Sum.elim inert shown))
        simpa [hb] using hrest.turned hturn hne

open Pattern in
/-- The rules one by one. -/
@[elab_as_elim]
theorem Rule.byName {d : Delimiters} {motive : (r : Rule) → r ∈ rules d → Prop}
    (comment : ∀ h, motive (comment d) h) (rawEcho : ∀ h, motive (rawEcho d) h)
    (dottedAccess : ∀ h, motive (dottedAccess d) h) (loopToken : ∀ h, motive (loopToken d) h)
    (objectProperty : ∀ h, motive (objectProperty d) h)
    (unfiltered : ∀ h, motive (unfiltered d) h) (ternary : ∀ h, motive (ternary d) h)
    (assignment : ∀ h, motive (assignment d) h) (escapedEcho : ∀ h, motive (escapedEcho d) h)
    (loop : ∀ h, motive (conditional d "while" (anyCase "while") "while") h)
    (endLoop : ∀ h, motive (fixed d "end-while" (anyCase "/while") "endwhile;") h)
    (cond : ∀ h, motive (conditional d "if" (anyCase "if") "if") h)
    (elseCond : ∀ h,
      motive (conditional d "else-if" (anyCase "else" ++ many blank ++ anyCase "if") "elseif") h)
    (otherwise : ∀ h, motive (fixed d "else" (anyCase "else") "else :") h)
    (endCond : ∀ h, motive (fixed d "end-if" (anyCase "/if") "endif;") h)
    (leave : ∀ h, motive (fixed d "break" (anyCase "break") "break;") h)
    (next : ∀ h, motive (fixed d "continue" (anyCase "continue") "continue;") h)
    (each : ∀ h, motive (foreachValue d) h) (eachEntry : ∀ h, motive (foreachEntry d) h)
    (endEach : ∀ h, motive (fixed d "end-foreach" (anyCase "/foreach") "endforeach; endif;") h)
    (includeFile : ∀ h, motive (includeFile d) h) {r : Rule} (hr : r ∈ rules d) : motive r hr := by
  have hr' := hr
  simp only [rules, List.mem_cons, List.not_mem_nil, or_false] at hr'
  rcases hr' with rfl | rfl | rfl | rfl | rfl | rfl | rfl | rfl | rfl | rfl | rfl | rfl | rfl |
    rfl | rfl | rfl | rfl | rfl | rfl | rfl | rfl <;> apply_assumption

end Directive

end ViewTemplate
