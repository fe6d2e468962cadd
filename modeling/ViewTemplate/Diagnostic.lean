namespace ViewTemplate

structure Diagnostic where
  code : Option String
  message : String
  deriving DecidableEq

def Diagnostic.display (d : Diagnostic) : String :=
  match d.code with
  | some code => "warning[" ++ code ++ "]: " ++ d.message
  | none => "warning: " ++ d.message

end ViewTemplate
