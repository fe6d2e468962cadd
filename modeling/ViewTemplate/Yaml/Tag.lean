import ViewTemplate.Value.Json
import ViewTemplate.Yaml.Cursor

namespace ViewTemplate.Yaml

structure TagName where
  handle : String
  suffix : String
  deriving DecidableEq

abbrev Handles := List (String × String)

/-- The handles that a document has unless it says otherwise. -/
def standardHandles : Handles := [("!", "!"), ("!!", "tag:yaml.org,2002:")]

def nullTag : String := "tag:yaml.org,2002:null"

def boolTag : String := "tag:yaml.org,2002:bool"

def intTag : String := "tag:yaml.org,2002:int"

def TagName.resolve? (t : TagName) (handles : Handles) : Option String :=
  if t.handle = "" then some t.suffix
  else (handles.lookup t.handle).map (· ++ t.suffix)

def isUriPart (isWhole : Bool) (c : Char) : Bool :=
  isNamePart c || ";/?:@&=+$.!~*'()".toList.contains c || (isWhole && ",[]".toList.contains c)

def readOctet : List Char → Option (Nat × List Char)
  | '%' :: a :: b :: rest => do return (16 * (← Json.hexValue? a) + (← Json.hexValue? b), rest)
  | _ => none

def octetCount? (octet : Nat) : Option Nat :=
  if octet < 0x80 then some 1
  else if octet < 0xc0 then none
  else if octet < 0xe0 then some 2
  else if octet < 0xf0 then some 3
  else if octet < 0xf8 then some 4
  else none

def readOctets : Nat → List Char → Option (List Char × List Char)
  | 0, cs => some ([], cs)
  | n + 1, cs => do
    let (octet, cs) ← readOctet cs
    if 0x80 ≤ octet ∧ octet < 0xc0 then
      let (octets, cs) ← readOctets n cs
      return (Char.ofNat octet :: octets, cs)
    else none

def readEscapedChar (cs : List Char) : Option (List Char × List Char) := do
  let (octet, cs) ← readOctet cs
  let (octets, cs) ← readOctets ((← octetCount? octet) - 1) cs
  return (Char.ofNat octet :: octets, cs)

def readUri (isWhole : Bool) : Nat → List Char → Option (List Char × List Char)
  | 0, _ => none
  | _ + 1, [] => some ([], [])
  | fuel + 1, c :: rest =>
    if c = '%' then do
      let (octets, rest) ← readEscapedChar (c :: rest)
      let (more, rest) ← readUri isWhole fuel rest
      return (octets ++ more, rest)
    else if isUriPart isWhole c then do
      let (more, rest) ← readUri isWhole fuel rest
      return (c :: more, rest)
    else some ([], c :: rest)

/-- An identifier of at least one character, up to a zero octet, and what follows. -/
def readUri1 (isWhole : Bool) (cs : List Char) : Option (String × List Char) := do
  let (octets, rest) ← readUri isWhole (cs.length + 1) cs
  if octets.isEmpty then none
  else return (String.ofList (octets.takeWhile (·.toNat ≠ 0)), rest)

def readHandle : List Char → Option (List Char × Bool × List Char)
  | '!' :: rest =>
    let name := rest.takeWhile isNamePart
    match rest.dropWhile isNamePart with
    | '!' :: rest => some ('!' :: name ++ ['!'], true, rest)
    | rest => some ('!' :: name, false, rest)
  | _ => none

/-- A tag that begins with its exclamation mark. A name without a second mark belongs to the
suffix, and a mark alone is a tag of its own. -/
def TagName.read (cs : List Char) : Option (TagName × List Char) :=
  match cs with
  | '!' :: '<' :: rest => do
    let (suffix, rest) ← readUri1 true rest
    match rest with
    | '>' :: rest => return (⟨"", suffix⟩, rest)
    | _ => none
  | _ => do
    let (handle, isHandle, rest) ← readHandle cs
    if isHandle then
      let (suffix, rest) ← readUri1 false rest
      return (⟨String.ofList handle, suffix⟩, rest)
    else
      let (octets, rest) ← readUri false (rest.length + 1) rest
      let suffix := String.ofList ((handle.drop 1 ++ octets).takeWhile (·.toNat ≠ 0))
      return (if suffix = "" then ⟨"", "!"⟩ else ⟨"!", suffix⟩, rest)

inductive Directive where
  | version (major minor : Nat)
  | handle (name meaning : String)
  deriving DecidableEq

/-- Up to nine digits, at least one. -/
def readVersionPart (cs : List Char) : Option (Nat × List Char) :=
  let digits := cs.takeWhile Char.isDigit
  if digits.isEmpty || 9 < digits.length then none
  else some (Decimal.natOfDigits digits, cs.dropWhile Char.isDigit)

def readVersion (cs : List Char) : Option (Directive × List Char) := do
  let (major, cs) ← readVersionPart cs
  match cs with
  | '.' :: cs => do
    let (minor, cs) ← readVersionPart cs
    return (.version major minor, cs)
  | _ => none

def readHandleMeaning (cs : List Char) : Option (Directive × List Char) := do
  let (handle, isHandle, cs) ← readHandle cs
  if (isHandle || handle = ['!']) && cs.head?.any isBlank then
    let (meaning, cs) ← readUri1 true (cs.dropWhile isBlank)
    if endsToken cs then return (.handle (String.ofList handle) meaning, cs) else none
  else none

def Directive.read (cs : List Char) : Option (Directive × List Char) :=
  let name := String.ofList (cs.takeWhile isNamePart)
  let rest := cs.dropWhile isNamePart
  if !endsToken rest then none
  else if name = "YAML" then readVersion (rest.dropWhile isBlank)
  else if name = "TAG" then readHandleMeaning (rest.dropWhile isBlank)
  else none

end ViewTemplate.Yaml
