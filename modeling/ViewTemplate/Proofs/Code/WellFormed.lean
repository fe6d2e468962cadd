import ViewTemplate.Code.Program
import ViewTemplate.Text.Case

namespace ViewTemplate.Code

def valueNames : List String := ["true", "false", "null"]

mutual

def Expr.WellFormed : Expr → Prop
  | .literal v => v.isArray = false
  | .var _ | .interpolated _ => True
  | .array items => ItemsWellFormed items
  | .index base key => base.WellFormed ∧ key.WellFormed
  | .append base => base.WellFormed
  | .property base _ => base.WellFormed
  | .call name args =>
    Text.lowerAscii name = name ∧ name ∉ "array" :: valueNames ∧ ExprsWellFormed args
  | .constant name => Text.lowerAscii name ∉ valueNames
  | .unary _ e => e.WellFormed
  | .binary _ l r => l.WellFormed ∧ r.WellFormed
  | .ternary c p n => c.WellFormed ∧ p.WellFormed ∧ n.WellFormed
  | .fallback c n => c.WellFormed ∧ n.WellFormed
  | .coalesce l r => l.WellFormed ∧ r.WellFormed
  | .assign target v => target.isPlace = true ∧ target.WellFormed ∧ v.WellFormed

def Item.WellFormed : Item → Prop
  | .value v => v.WellFormed
  | .keyed k v => k.WellFormed ∧ v.WellFormed

def ItemsWellFormed : List Item → Prop
  | [] => True
  | item :: more => item.WellFormed ∧ ItemsWellFormed more

def ExprsWellFormed : List Expr → Prop
  | [] => True
  | e :: more => e.WellFormed ∧ ExprsWellFormed more

end

mutual

def Stmt.WellFormed : Stmt → Prop
  | .text _ | .break _ | .continue _ => True
  | .echo es => es ≠ [] ∧ ExprsWellFormed es
  | .expr e => e.WellFormed
  | .unset targets => (∀ e ∈ targets, e.isPlace = true) ∧ ExprsWellFormed targets
  | .cond c body rest => c.WellFormed ∧ StmtsWellFormed body ∧ rest.WellFormed
  | .loop c body => c.WellFormed ∧ StmtsWellFormed body
  | .foreach subject _ _ body _ => subject.WellFormed ∧ StmtsWellFormed body
  | .include target _ => target.WellFormed

def Alternatives.WellFormed : Alternatives → Prop
  | .none => True
  | .otherwise body => StmtsWellFormed body
  | .elseIf c body rest => c.WellFormed ∧ StmtsWellFormed body ∧ rest.WellFormed

def StmtsWellFormed : List Stmt → Prop
  | [] => True
  | stmt :: more => stmt.WellFormed ∧ StmtsWellFormed more

end

end ViewTemplate.Code
