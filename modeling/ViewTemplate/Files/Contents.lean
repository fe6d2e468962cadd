namespace ViewTemplate

structure Contents where
  start : List Char
  /-- Bytes that are no text, empty for a text file. -/
  broken : List UInt8
  deriving DecidableEq

namespace Contents

def ofText (s : String) : Contents := ⟨s.toList, []⟩

def text? (c : Contents) : Option String :=
  if c.broken.isEmpty then some (String.ofList c.start) else none

def firstLine? (c : Contents) : Option (List Char) :=
  if c.broken.isEmpty || c.start.contains '\n' then some (c.start.takeWhile (· ≠ '\n')) else none

/-- The number of bytes of a character that begins with `b`, and what `b` adds to its code. -/
def leadByte (b : Nat) : Option (Nat × Nat) :=
  if b < 0x80 then some (1, b)
  else if 0xc2 ≤ b ∧ b < 0xe0 then some (2, b - 0xc0)
  else if 0xe0 ≤ b ∧ b < 0xf0 then some (3, b - 0xe0)
  else if 0xf0 ≤ b ∧ b < 0xf5 then some (4, b - 0xf0)
  else none

/-- The least code that is written with so many bytes. -/
def leastCode : Nat → Nat
  | 2 => 0x80
  | 3 => 0x800
  | 4 => 0x10000
  | _ => 0

/-- The character at the start of bytes in UTF-8 and how many bytes it takes. -/
def firstChar? (bs : List UInt8) : Option (Char × Nat) := do
  let (n, lead) ← leadByte (← bs.head?).toNat
  let tail := (bs.drop 1).take (n - 1)
  if tail.length + 1 ≠ n ∨ !tail.all (fun b => 0x80 ≤ b.toNat ∧ b.toNat < 0xc0) then none
  else
    let code := tail.foldl (fun code b => 64 * code + (b.toNat - 0x80)) lead
    if code < leastCode n ∨ (0xd800 ≤ code ∧ code ≤ 0xdfff) ∨ 0x10ffff < code then none
    else some (Char.ofNat code, n)

/-- Reads as many characters as there are; `taken` are those before, in reverse. -/
def readBytes (taken : List Char) : Nat → List UInt8 → Contents
  | 0, bs => ⟨taken.reverse, bs⟩
  | fuel + 1, bs =>
    match firstChar? bs with
    | some (c, n) => readBytes (c :: taken) fuel (bs.drop n)
    | none => ⟨taken.reverse, bs⟩

def ofBytes (bs : List UInt8) : Contents := readBytes [] bs.length bs

end Contents

end ViewTemplate
