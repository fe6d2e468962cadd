import ViewTemplate.Text.Case
import ViewTemplate.Value.Compare
import ViewTemplate.Value.Json

namespace ViewTemplate.Run

/-- How a function ends without a value: it failed, or it ends the whole rendering with an output.
-/
inductive FunctionError where
  | failed (message : String)
  | exit (output : String)
  deriving DecidableEq

abbrev Function := List Value → Except FunctionError Value

/-- Functions by their names in lower case. -/
abbrev Registry := Entries Function

namespace Registry

def get? (r : Registry) (name : String) : Option Function := Entries.get? r (Text.lowerAscii name)

def register (r : Registry) (name : String) (f : Function) : Registry :=
  Entries.insert r (Text.lowerAscii name) f

def names (r : Registry) : List String := (Entries.keys r).mergeSort fun a b => a ≤ b

end Registry

def argument (args : List Value) (i : Nat) : Value := args.getD i .null

def toInt (v : Value) : Int64 :=
  match v with
  | .string s => ((Number.leading? s).map Number.toInt64).getD 0
  | .list _ | .map _ => if v.truthy then 1 else 0
  | other => (other.number?.map Number.toInt64).getD 0

def toFloat (v : Value) : Float :=
  match v with
  | .string s => ((Number.leading? s).map Number.toFloat).getD 0.0
  | .list _ | .map _ => if v.truthy then 1.0 else 0.0
  | other => (other.number?.map Number.toFloat).getD 0.0

/-- The characters with a meaning in HTML, both quotes included, as entities. -/
def escapeChar (c : Char) : List Char :=
  if c = '&' then "&amp;".toList
  else if c = '<' then "&lt;".toList
  else if c = '>' then "&gt;".toList
  else if c = '"' then "&quot;".toList
  else if c = '\'' then "&#039;".toList
  else [c]

def escapeHtml (s : String) : String := String.ofList (s.toList.flatMap escapeChar)

def capitalize (s : String) : String :=
  match s.toList with
  | [] => ""
  | c :: rest => String.ofList (Text.upperChar c ++ rest)

/-- A break in front of every line end; a carriage return and a line feed are one line end. -/
def lineBreaks : List Char → List Char
  | [] => []
  | '\r' :: '\n' :: rest => "<br />\r\n".toList ++ lineBreaks rest
  | c :: rest =>
    if c = '\n' || c = '\r' then "<br />".toList ++ c :: lineBreaks rest
    else c :: lineBreaks rest

def elements : Value → List Value
  | .list items => items
  | .map entries => Entries.values entries
  | _ => []

def count (args : List Value) : Except FunctionError Value :=
  match argument args 0 with
  | .null => .ok (.int 0)
  | v =>
    match v.length? with
    | some n => .ok (.int (Int64.ofNat n))
    | none => .error (.failed ("argument must be of type array, " ++ v.typeName ++ " given"))

/-- Joins the outputs of an array's elements. The separator may stand before the array, behind it or
not at all. -/
def implode (args : List Value) : Except FunctionError Value :=
  let first := argument args 0
  let second := argument args 1
  let join (separator array : Value) : Except FunctionError Value :=
    .ok (.string (String.intercalate separator.output ((elements array).map Value.output)))
  if first.isArray then join second first
  else if second.isArray then join first second
  else .error (.failed "argument must be of type array")

/-- Whether an array holds a value: by loose equality, or by equality as data when the third
argument is true. -/
def inArray (args : List Value) : Except FunctionError Value :=
  let needle := argument args 0
  let haystack := argument args 1
  if !haystack.isArray then .error (.failed "argument #2 must be of type array")
  else
    let strict := (argument args 2).truthy
    .ok (.bool ((elements haystack).any fun v =>
      if strict then v.same needle else v.looseEq needle))

def arrayKeys (args : List Value) : Except FunctionError Value :=
  match argument args 0 with
  | .list items => .ok (.list ((List.range items.length).map fun i => .int (Int64.ofNat i)))
  | .map entries => .ok (.list ((Entries.keys entries).map .string))
  | other =>
    .error (.failed ("argument must be of type array, " ++ other.typeName ++ " given"))

def ofOutput (f : String → Value) : Function := fun args => .ok (f (argument args 0).output)

/-- The functions every registry of an engine starts with. -/
def builtins : Registry :=
  [("strval", ofOutput .string),
    ("intval", fun args => .ok (.int (toInt (argument args 0)))),
    ("floatval", fun args => .ok (.float (toFloat (argument args 0)))),
    ("boolval", fun args => .ok (.bool (argument args 0).truthy)),
    ("escape", ofOutput fun s => .string (escapeHtml s)),
    ("count", count),
    ("strlen", ofOutput fun s => .int (Int64.ofNat s.utf8ByteSize)),
    ("strtoupper", ofOutput fun s => .string (Text.upper s)),
    ("strtolower", ofOutput fun s => .string (Text.lower s)),
    ("ucfirst", ofOutput fun s => .string (capitalize s)),
    ("trim", ofOutput fun s => .string (String.ofList (Text.trim s.toList))),
    ("implode", implode),
    ("join", implode),
    ("json_encode", fun args => .ok (.string (Json.write (argument args 0)))),
    ("in_array", inArray),
    ("array_keys", arrayKeys),
    ("nl2br", ofOutput fun s => .string (String.ofList (lineBreaks s.toList))),
    ("is_array", fun args => .ok (.bool (argument args 0).isArray))]

end ViewTemplate.Run
