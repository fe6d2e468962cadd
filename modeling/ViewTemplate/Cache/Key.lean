namespace ViewTemplate.Cache

def mix (x y : UInt64) : UInt64 :=
  let product := x.toNat * y.toNat
  UInt64.ofNat product ^^^ UInt64.ofNat (product / UInt64.size)

def littleEndian (bs : List UInt8) : UInt64 :=
  bs.foldr (fun b word => word * 256 + b.toUInt64) 0

def rotateLeft (x : UInt64) (n : UInt64) : UInt64 := x <<< n ||| x >>> (64 - n)

structure HashState where
  first : UInt64
  second : UInt64

def HashState.start : HashState := ⟨0x243f6a8885a308d3, 0x13198a2e03707344⟩

/-- Folds in bytes in chunks of sixteen, up to a last one of at most sixteen. -/
def HashState.addChunks (s : HashState) : Nat → List UInt8 → HashState
  | 0, _ => s
  | fuel + 1, bs =>
    if bs.length ≤ 16 then s
    else
      let x := littleEndian (bs.take 8)
      let y := littleEndian ((bs.drop 8).take 8)
      let folded := mix (s.first ^^^ x) (0xa4093822299f31d0 ^^^ y)
      HashState.addChunks ⟨s.second, folded⟩ fuel (bs.drop 16)

/-- The words of the first and of the last bytes. They overlap where there are too few. -/
def endWords (bs : List UInt8) : UInt64 × UInt64 :=
  let n := bs.length
  if 16 < n then
    let last := bs.drop (n - 16)
    (littleEndian (last.take 8), littleEndian (last.drop 8))
  else if 8 ≤ n then (littleEndian (bs.take 8), littleEndian (bs.drop (n - 8)))
  else if 4 ≤ n then (littleEndian (bs.take 4), littleEndian (bs.drop (n - 4)))
  else
    let byte (i : Nat) : UInt64 := (bs.getD i 0).toUInt64
    if n = 0 then (0, 0) else (byte 0, byte (n - 1) <<< 8 ||| byte (n / 2))

def hash (bs : List UInt8) : UInt64 :=
  let s := HashState.start.addChunks bs.length bs
  let (x, y) := endWords bs
  let h := mix (s.first ^^^ x) (s.second ^^^ y) ^^^ UInt64.ofNat bs.length
  rotateLeft (h * 0xf1357aea2e62a9c5) 26

def hex (x : UInt64) : String :=
  let digits := Nat.toDigits 16 x.toNat
  String.ofList (List.replicate (16 - digits.length) '0' ++ digits)

def keyOf (text : String) : String := hex (hash text.toUTF8.toList)

end ViewTemplate.Cache
