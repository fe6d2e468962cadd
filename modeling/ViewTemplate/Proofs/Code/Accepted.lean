import ViewTemplate.Proofs.Code.Clauses
import ViewTemplate.Proofs.Code.WellFormed
import ViewTemplate.Proofs.Run.OneCall

namespace ViewTemplate.Code

open ViewTemplate.Code.Parser (Tier)

/-- A name of a call is read in lower case, and is none of the words that are no functions. -/
theorem wellFormed_call {name : String} {args : List Expr}
    (hname : Text.lowerAscii name ∉ ["true", "false", "null", "array"]) (h : ExprsWellFormed args) :
    (Expr.call (Text.lowerAscii name) args).WellFormed := by
  simp only [List.mem_cons, List.not_mem_nil, or_false, not_or] at hname
  obtain ⟨htrue, hfalse, hnull, harray⟩ := hname
  refine ⟨Text.lowerAscii_lowerAscii name, ?_, h⟩
  simp [valueNames, htrue, hfalse, hnull, harray]

mutual

theorem Phrase.wellFormed {t : Tier} {e : Expr} {ts : List Token} : Phrase t e ts → e.WellFormed
  | .looser _ h | .parens h | .unary _ h => h.wellFormed
  | .binary _ hl hr | .coalesce hl hr | .fallback hl hr | .index hl hr =>
    ⟨hl.wellFormed, hr.wellFormed⟩
  | .assign hplace ht hv => ⟨hplace, ht.wellFormed, hv.wellFormed⟩
  | .ternary hc hp hn => ⟨hc.wellFormed, hp.wellFormed, hn.wellFormed⟩
  | .append hb | .property hb => hb.wellFormed
  | .var _ | .interpolated _ => trivial
  | .int _ | .float _ | .string _ | .true _ | .false _ | .null _ => rfl
  | .constant h => h
  | .array h | .arrayWord _ h => h.wellFormed
  | .call hname h => wellFormed_call hname h.wellFormed

theorem ItemPhrase.wellFormed {item : Item} {ts : List Token} : ItemPhrase item ts → item.WellFormed
  | .value hv => hv.wellFormed
  | .keyed hk hv => ⟨hk.wellFormed, hv.wellFormed⟩

theorem ItemPhrases.wellFormed {items : List Item} {ts : List Token} :
    ItemPhrases items ts → ItemsWellFormed items
  | .nil => trivial
  | .last h => ⟨h.wellFormed, trivial⟩
  | .cons h hmore => ⟨h.wellFormed, hmore.wellFormed⟩

theorem ArgumentPhrases.wellFormed {args : List Expr} {ts : List Token} :
    ArgumentPhrases args ts → ExprsWellFormed args
  | .nil => trivial
  | .last h => ⟨h.wellFormed, trivial⟩
  | .cons h hmore => ⟨h.wellFormed, hmore.wellFormed⟩

end

theorem ExprPhrases.wellFormed {es : List Expr} {ts : List Token} (h : ExprPhrases es ts) :
    es ≠ [] ∧ ExprsWellFormed es := by
  induction h with
  | last h => exact ⟨List.cons_ne_nil _ _, h.wellFormed, trivial⟩
  | cons h _ ih => exact ⟨List.cons_ne_nil _ _, h.wellFormed, ih.2⟩

theorem IsCondition.wellFormed {c : Expr} {ls : List Located} (h : IsCondition c ls) :
    c.WellFormed := by
  obtain ⟨ts, -, hc⟩ := h
  exact hc.wellFormed

theorem IsLoopHead.wellFormed {subject : Expr} {key : Option String} {value : String}
    {ls : List Located} (h : IsLoopHead subject key value ls) : subject.WellFormed := by
  obtain ⟨ts, as?, -, hsubject, -⟩ := h
  exact hsubject.wellFormed

mutual

theorem Clause.wellFormed {stmt : Stmt} {ls : List Located} : Clause stmt ls → stmt.WellFormed
  | .echo _ h _ => h.wellFormed
  | .expr h _ => h.wellFormed
  | .unset _ _ hplace h _ _ => ⟨hplace, h.wellFormed⟩
  | .cond _ hhead hbody hrest => ⟨hhead.wellFormed, hbody.wellFormed, hrest.wellFormed⟩
  | .loop _ hhead hbody _ _ => ⟨hhead.wellFormed, hbody.wellFormed⟩
  | .foreach _ hhead hbody _ _ => ⟨hhead.wellFormed, hbody.wellFormed⟩
  | .break _ _ | .continue _ _ => trivial
  | .include _ h _ => h.wellFormed

theorem OtherClauses.wellFormed {rest : Alternatives} {ls : List Located} :
    OtherClauses rest ls → rest.WellFormed
  | .none _ _ => trivial
  | .otherwise _ _ hbody _ _ => hbody.wellFormed
  | .elseIf _ hhead hbody hrest => ⟨hhead.wellFormed, hbody.wellFormed, hrest.wellFormed⟩

theorem Clauses.wellFormed {body : List Stmt} {ls : List Located} :
    Clauses body ls → StmtsWellFormed body
  | .nil => trivial
  | .closeTag h | .semicolon h => h.wellFormed
  | .text h => ⟨trivial, h.wellFormed⟩
  | .cons hs h => ⟨hs.wellFormed, h.wellFormed⟩

end

theorem Program.wellFormed_of_parse {source : String} {program : Program}
    (h : Program.parse source = .ok program) : StmtsWellFormed program.body := by
  obtain ⟨s, -, hprogram⟩ := exists_of_bind_eq_ok h
  exact (TokenStream.clauses_of_program hprogram).wellFormed

end ViewTemplate.Code
