import ViewTemplate.Error
import ViewTemplate.Pattern.Basic

namespace ViewTemplate

structure Delimiters where
  left : String
  right : String
  deriving DecidableEq

namespace Delimiters

def braces : Delimiters := ⟨"\x7b", "\x7d"⟩

/-- Generated code may contain the delimiter, or end in one. -/
def isReserved (delimiter : String) : Bool :=
  delimiter.toList.any ("()'\"$;?".toList.contains ·) ||
    delimiter.toList.all ("[]<>".toList.contains ·)

/-- Delimiters are two different texts that generated code does not contain. -/
def check (d : Delimiters) : Except ConfigFault Unit :=
  if d.left = "" ∨ d.right = "" then .error .emptyDelimiters
  else if d.left = d.right then .error (.equalDelimiters d.left)
  else match [d.left, d.right].find? isReserved with
    | some delimiter => .error (.reservedDelimiter delimiter)
    | none => .ok ()

open Pattern

def opening (d : Delimiters) : Pattern := anyCase d.left ++ many blank

def closing (d : Delimiters) : Pattern := many blank ++ anyCase d.right

def around (d : Delimiters) (content : Pattern) : Pattern := d.opening ++ content ++ d.closing

end Delimiters

end ViewTemplate
