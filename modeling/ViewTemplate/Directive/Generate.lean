import ViewTemplate.Artifact
import ViewTemplate.Directive.Call
import ViewTemplate.Directive.Rule

/-!
From a template to the artifact that holds its code: first the rules, then the calls. A rule fails
only by not coming to rest; the failure of a matcher that gives up at its limit for backtracking has
no counterpart here.
-/

namespace ViewTemplate.Directive

structure Generated where
  text : String
  diagnostics : List Diagnostic

def generate (d : Delimiters) (source : String) : Except CompileFault Generated := do
  let (code, diagnostics) := compileCalls d (← applyRules (rules d) source.toList)
  return ⟨Artifact.ofCode code, diagnostics⟩

end ViewTemplate.Directive
