import ViewTemplate.Yaml.Node
import ViewTemplate.Yaml.Token

namespace ViewTemplate.Yaml

/-- The tokens that are left, the numbers of the names given so far, and what handles stand for. -/
structure Reading where
  tokens : List Token
  numbers : List (String × Nat)
  handles : Handles

abbrev Reader := StateT Reading Option

namespace Reader

def fail {α : Type} : Reader α := fun _ => none

def next? : Reader (Option Token) := do return (← get).tokens.head?

def skip : Reader Unit := modify fun r => { r with tokens := r.tokens.drop 1 }

def expect (t : Token) : Reader Unit := do
  if (← next?) = some t then skip else fail

def isNext (ts : List Token) : Reader Bool := do return (← next?).any ts.contains

/-- Gives a name the next number. A name that is given again does not count twice, so that its
number may be that of another name. -/
def number (name : String) : Reader Nat := do
  let r ← get
  let n := r.numbers.length
  set { r with numbers := (name, n) :: r.numbers.filter (·.1 ≠ name) }
  return n

def numberOf (name : String) : Reader Nat := do
  match (← get).numbers.lookup name with
  | some n => return n
  | none => fail

def anchor? : Reader (Option String) := do
  match ← next? with
  | some (.anchor name) => skip; return some name
  | _ => return none

def tag? : Reader (Option String) := do
  match ← next? with
  | some (.tag name) =>
    skip
    match name.resolve? (← get).handles with
    | some tag => return some tag
    | none => fail
  | _ => return none

/-- An anchor and a tag, each at most once, in any order. -/
def properties : Reader (Option String × Option String) := do
  match ← anchor? with
  | some name => return (some name, ← tag?)
  | none =>
    let tag ← tag?
    return (← if tag.isSome then anchor? else pure none, tag)

mutual

/-- A node, of a block collection or a flow collection. Behind a key its dashes may stand in the
column of the key. -/
def node : Nat → Bool → Bool → Reader Node
  | 0, _, _ => fail
  | fuel + 1, inBlock, behindKey => do
    match ← next? with
    | some (.reference name) =>
      skip
      return .reference (← numberOf name)
    | _ =>
      let (name, tag) ← properties
      let number ← name.mapM number
      let content ← match ← next? with
        | some (.scalar text style) =>
          skip
          pure (Node.scalar text style (tag.filter (· ≠ "!")))
        | some .flowSequence => skip; pure (.sequence (← flowItems fuel true))
        | some .flowMapping => skip; pure (.mapping (← flowEntries fuel true))
        | some .blockSequence =>
          if inBlock then skip; pure (.sequence (← blockItems fuel)) else unwritten name tag
        | some .blockMapping =>
          if inBlock then skip; pure (.mapping (← blockEntries fuel)) else unwritten name tag
        | some .blockEntry =>
          if behindKey then pure (.sequence (← dashedItems fuel)) else unwritten name tag
        | _ => unwritten name tag
      return match number with
        | some n => .numbered n content
        | none => content

def unwritten (name tag : Option String) : Reader Node :=
  if name.isSome || tag.isSome then return .scalar "" .plain tag else fail

def nodeUnless : Nat → Bool → Bool → List Token → Reader Node
  | 0, _, _, _ => fail
  | fuel + 1, inBlock, behindKey, ts => do
    if ← isNext ts then return .empty else node fuel inBlock behindKey

/-- The value behind its colon, or an empty one if there is no colon. -/
def valueUnless : Nat → Bool → List Token → Reader Node
  | 0, _, _ => fail
  | fuel + 1, inBlock, ts => do
    if (← next?) = some .value then
      skip
      nodeUnless fuel inBlock inBlock ts
    else return .empty

def blockItems : Nat → Reader (List Node)
  | 0 => fail
  | fuel + 1 => do
    if (← next?) = some .blockEnd then
      skip
      return []
    else
      expect .blockEntry
      let item ← nodeUnless fuel true false [.blockEntry, .blockEnd]
      return item :: (← blockItems fuel)

def dashedItems : Nat → Reader (List Node)
  | 0 => fail
  | fuel + 1 => do
    if (← next?) = some .blockEntry then
      skip
      let item ← nodeUnless fuel true false [.blockEntry, .key, .value, .blockEnd]
      return item :: (← dashedItems fuel)
    else return []

def blockEntries : Nat → Reader (List (Node × Node))
  | 0 => fail
  | fuel + 1 => do
    if (← next?) = some .blockEnd then
      skip
      return []
    else
      expect .key
      let key ← nodeUnless fuel true true [.key, .value, .blockEnd]
      let value ← valueUnless fuel true [.key, .value, .blockEnd]
      return (key, value) :: (← blockEntries fuel)

/-- The items of a flow sequence up to its bracket; a key and its value are a mapping. What ends a
key that is not written does not count. -/
def flowItems : Nat → Bool → Reader (List Node)
  | 0, _ => fail
  | fuel + 1, isFirst => do
    unless isFirst || (← next?) = some .flowSequenceEnd do expect .flowEntry
    match ← next? with
    | some .flowSequenceEnd =>
      skip
      return []
    | some .key =>
      skip
      let isWritten := !(← isNext [.value, .flowEntry, .flowSequenceEnd])
      let key ← if isWritten then node fuel false false else skip; pure .empty
      let value ← valueUnless fuel false [.flowEntry, .flowSequenceEnd]
      return .mapping [(key, value)] :: (← flowItems fuel false)
    | _ =>
      let item ← node fuel false false
      return item :: (← flowItems fuel false)

/-- The entries of a flow mapping up to its brace. A node without a colon is a key alone. -/
def flowEntries : Nat → Bool → Reader (List (Node × Node))
  | 0, _ => fail
  | fuel + 1, isFirst => do
    unless isFirst || (← next?) = some .flowMappingEnd do expect .flowEntry
    match ← next? with
    | some .flowMappingEnd =>
      skip
      return []
    | some .key =>
      skip
      let key ← nodeUnless fuel false false [.value, .flowEntry, .flowMappingEnd]
      let value ← valueUnless fuel false [.flowEntry, .flowMappingEnd]
      return (key, value) :: (← flowEntries fuel false)
    | _ =>
      let key ← node fuel false false
      return (key, .empty) :: (← flowEntries fuel false)

end

/-- Directives in front of a document. Each may be given once, and the version is 1.1 or 1.2. -/
def directives (hasVersion : Bool) (handles : Handles) : Nat → Reader Handles
  | 0 => fail
  | fuel + 1 => do
    match ← next? with
    | some (.directive (.version major minor)) =>
      if hasVersion || major ≠ 1 || (minor ≠ 1 && minor ≠ 2) then fail
      else
        skip
        directives true handles fuel
    | some (.directive (.handle name meaning)) =>
      if (handles.lookup name).isSome then fail
      else
        skip
        directives hasVersion (handles ++ [(name, meaning)]) fuel
    | _ => return handles

def markedContent (steps : Nat) : Reader Node := do
  match ← next? with
  | none | some (.directive _) | some .documentStart | some .documentEnd => return .empty
  | some _ => node steps true false

def documentEnd : Reader Unit := do
  if (← get).tokens.all (· = .documentEnd) then return () else fail

def document (steps : Nat) : Reader Node := do
  let root ← match ← next? with
    | none => pure .empty
    | some (.directive _) | some .documentStart =>
      let handles ← directives false [] steps
      modify fun r => { r with handles := handles ++ standardHandles }
      expect .documentStart
      markedContent steps
    | some _ => node steps true false
  documentEnd
  return root

end Reader

def Node.read? (text : String) : Option Node := do
  let tokens ← tokens? text
  let (root, _) ← (Reader.document (4 * tokens.length + 8)).run ⟨tokens, [], standardHandles⟩
  return root

end ViewTemplate.Yaml
