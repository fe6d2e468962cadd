import ViewTemplate.Proofs.Directive.Template
import ViewTemplate.Text.Letter

namespace ViewTemplate.Directive

open Code (Expr Stmt Alternatives)

/-- The name of the variable that holds a field of the loop over a variable. -/
def loopFieldName (x field : String) : String := "_foreach_" ++ x ++ "_" ++ field

/-- The fields of a loop: the count of the rounds that began, and those a template can ask for. -/
def loopFieldNames : List String :=
  ["counter", "total", "index", "iteration", "first", "last"]

def setField (x field : String) (e : Expr) : Stmt :=
  .expr (.assign (.var (loopFieldName x field)) e)

structure IsName (x : String) : Prop where
  ne_nil : x.toList ≠ []
  parts : ∀ c ∈ x.toList, Text.isNamePart c = true

/-- What stands between the parentheses of a loop, from the text of its subject. -/
def loopHead (subject : String) (key : Option String) (x : String) : String :=
  match key with
  | none => subject ++ " as $" ++ x
  | some key => subject ++ " as " ++ ("$" ++ key) ++ " => $" ++ x

/-- A loop over what is not empty. -/
structure EachLoop where
  subject : Expr
  key : Option String
  value : String
  body : List Stmt
  /-- The line on which the rounds begin. -/
  line : Nat

namespace EachLoop

variable (l : EachLoop)

def field (name : String) : Expr := .var (loopFieldName l.value name)

def guard : Expr := .unary .not (.call "empty" [l.subject])

def entry : List Stmt :=
  [setField l.value "counter" (.literal (.int 0)),
    setField l.value "total" (.call "count" [l.subject])]

/-- What each round does first. -/
def fields : List Stmt :=
  [setField l.value "index" (l.field "counter"),
    setField l.value "iteration" (.binary .add (l.field "counter") (.literal (.int 1))),
    setField l.value "first" (.binary .eq (l.field "counter") (.literal (.int 0))),
    setField l.value "last" (.binary .eq (l.field "counter")
      (.binary .sub (l.field "total") (.literal (.int 1)))),
    setField l.value "counter" (.binary .add (l.field "counter") (.literal (.int 1)))]

def rounds : Stmt := .foreach l.subject l.key l.value (l.fields ++ l.body) l.line

def stmt : Stmt := .cond l.guard (l.entry ++ [l.rounds]) .none

end EachLoop

theorem eachStmt_eq (subject : Expr) (key : Option Identifier) (value : Identifier)
    (body : List Stmt) : eachStmt subject key value body =
      EachLoop.stmt ⟨subject, key.map Identifier.text, value.text, body, 0⟩ := rfl

theorem loopVariable_eq_field (x field : String) :
    loopVariable x field = "$" ++ loopFieldName x field := by
  have hname : "$_foreach_" = "$" ++ "_foreach_" := rfl
  simp only [loopVariable, loopFieldName, hname, String.append_assoc]

section Injective

variable {x y f g : String}

theorem underscore_notMem_of_field (hf : f ∈ loopFieldNames) : '_' ∉ f.toList := by
  revert f
  decide

theorem append_underscore_inj {as bs cs ds : List Char} (hcs : '_' ∉ cs) (hds : '_' ∉ ds)
    (h : as ++ '_' :: cs = bs ++ '_' :: ds) : as = bs ∧ cs = ds := by
  rcases List.append_eq_append_iff.mp h with ⟨us, rfl, hus⟩ | ⟨us, rfl, hus⟩
  · cases us with
    | nil => simpa using hus
    | cons u us =>
      obtain ⟨rfl, rfl⟩ := List.cons.inj hus
      exact absurd (List.mem_append_right _ List.mem_cons_self) hcs
  · cases us with
    | nil => simpa [eq_comm] using hus
    | cons u us =>
      obtain ⟨rfl, rfl⟩ := List.cons.inj hus
      exact absurd (List.mem_append_right _ List.mem_cons_self) hds

/-- No two fields, of one loop or of two, are kept in the same variable. -/
theorem loopFieldName_inj (hf : f ∈ loopFieldNames) (hg : g ∈ loopFieldNames)
    (h : loopFieldName x f = loopFieldName y g) : x = y ∧ f = g := by
  have hline : "_".toList = ['_'] := rfl
  have hchars := congrArg String.toList h
  simp only [loopFieldName, String.toList_append, hline, List.append_assoc,
    List.append_cancel_left_eq, List.cons_append, List.nil_append] at hchars
  obtain ⟨hx, hfield⟩ := append_underscore_inj (underscore_notMem_of_field hf)
    (underscore_notMem_of_field hg) hchars
  exact ⟨String.toList_injective hx, String.toList_injective hfield⟩

end Injective

end ViewTemplate.Directive
