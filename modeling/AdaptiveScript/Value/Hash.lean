import AdaptiveScript.Value.Basic

/-! # Hashing Values

  A value is hashed in two steps. `Value.writes` lists the words, byte
  strings and identities that determine it: a tag for its type, then its
  content. A hasher receives them, the identity of an object as the object's
  address, and answers with a word.

  Where objects lie and what a hasher makes of what it receives is not for the
  library to say. Both are given from outside, like the readings of a clock, and
  the encoding is free of them: two values with the same writes have the same
  hash wherever the objects are and whatever the hasher is. The hasher that is
  run, `Hash.multiplicative`, folds what it receives by multiplication with an
  odd constant.
-/

namespace AdaptiveScript

/-- One piece of a value's encoding. -/
inductive Write where
  /-- A word of eight bytes. -/
  | word (w : UInt64)
  /-- A single byte. -/
  | byte (b : UInt8)
  /-- A string of bytes. -/
  | bytes (bs : List UInt8)
  /-- A length. -/
  | count (n : Nat)
  /-- The identity of an object. -/
  | identity (id : ObjectId)
  deriving DecidableEq, Repr

/-! ### The encoding -/

namespace Value

/-- The tag of a value's type. -/
def tag : Value → UInt64
  | .nil => 0
  | .bool _ => 1
  | .int _ => 2
  | .float _ => 3
  | .str _ => 4
  | .list _ => 5
  | .object _ => 6
  | .callable _ _ => 7

/-- Text is its bytes in UTF-8, closed by a byte that no text holds. -/
def textWrites (s : String) : List Write := [.bytes s.toUTF8.toList, .byte 0xff]

/-- A boolean is one byte. -/
def boolWrites (b : Bool) : List Write := [.byte (if b then 1 else 0)]

mutual

/-- What a value feeds to the hash, in order: its tag, then its content. -/
def writes (v : Value) : List Write :=
  .word v.tag :: match v with
    | .nil => []
    | .bool b => boolWrites b
    | .int n => [.word n.toUInt64]
    | .float x => [.word x.toBits]
    | .str s => textWrites s
    | .list items => .count items.length :: writesAll items
    | .object id => [.identity id]
    | .callable name builtin => textWrites name ++ boolWrites builtin

/-- The writes of the items of a list, one item after the other. -/
def writesAll : List Value → List Write
  | [] => []
  | v :: vs => v.writes ++ writesAll vs

end

end Value

/-! ### Addresses -/

/-- The word that stands for each object. -/
abbrev Addresses := ObjectId → UInt64

/-- Objects lie one after the other from a first address on, at equal
distances. -/
def Addresses.spaced (first distance : Nat) : Addresses := fun id =>
  UInt64.ofNat (first + id * distance)

/-! ### Hashers -/

/-- A hasher: the word that it answers after it has received some writes. -/
abbrev Hasher := List Write → UInt64

/-- A write as the hasher receives it: lengths and identities have become words. -/
def Write.received (address : Addresses) : Write → Write
  | .count n => .word (UInt64.ofNat n)
  | .identity o => .word (address o)
  | w => w

namespace Value

/-- The writes of a value as the hasher receives them. -/
def received (address : Addresses) (v : Value) : List Write :=
  v.writes.map (Write.received address)

/-- The hash of a value. -/
def hash (hasher : Hasher) (address : Addresses) (v : Value) : UInt64 :=
  hasher (v.received address)

end Value

/-! ### The hasher that is run -/

namespace Hash

/-- The multiplier of the word hash. -/
def multiplier : UInt64 := 0xf1357aea2e62a9c5

/-- Start of the first lane of the byte digest. -/
def seed₁ : UInt64 := 0x243f6a8885a308d3

/-- Start of the second lane of the byte digest. -/
def seed₂ : UInt64 := 0x13198a2e03707344

/-- Keeps a zero block of bytes from annihilating the first lane. -/
def salt : UInt64 := 0xa4093822299f31d0

/-- Adds a word and spreads it over the state. -/
def addWord (h w : UInt64) : UInt64 := (h + w) * multiplier

/-- The two halves of the full product, folded by exclusive or. -/
def mix (a b : UInt64) : UInt64 :=
  let p := a.toNat * b.toNat
  UInt64.ofNat p ^^^ UInt64.ofNat (p / 0x10000000000000000)

/-- Bytes as a number, the least significant first. -/
def littleEndian (bs : List UInt8) : UInt64 :=
  bs.foldr (fun b n => n * 256 + b.toUInt64) 0

/-- Absorbs blocks of sixteen bytes as long as more than sixteen are left;
returns the lanes. -/
def blocks : Nat → List UInt8 → UInt64 → UInt64 → UInt64 × UInt64
  | 0, _, a, b => (a, b)
  | fuel + 1, bs, a, b =>
    if bs.length ≤ 16 then (a, b)
    else
      let x := littleEndian (bs.take 8)
      let y := littleEndian ((bs.drop 8).take 8)
      blocks fuel (bs.drop 16) b (mix (a ^^^ x) (salt ^^^ y))

/-- The digest of a byte string. The last sixteen bytes always enter as
they are; short strings enter through their first and last bytes. -/
def digest (bs : List UInt8) : UInt64 :=
  let n := bs.length
  let last (k : Nat) := littleEndian (bs.drop (n - k))
  let lanes : UInt64 × UInt64 :=
    if 16 < n then
      let s := blocks n bs seed₁ seed₂
      (s.1 ^^^ littleEndian ((bs.drop (n - 16)).take 8), s.2 ^^^ last 8)
    else if 8 ≤ n then (seed₁ ^^^ littleEndian (bs.take 8), seed₂ ^^^ last 8)
    else if 4 ≤ n then (seed₁ ^^^ littleEndian (bs.take 4), seed₂ ^^^ last 4)
    else if 0 < n then
      (seed₁ ^^^ littleEndian (bs.take 1),
        seed₂ ^^^ (last 1 * 256 + littleEndian ((bs.drop (n / 2)).take 1)))
    else (seed₁, seed₂)
  mix lanes.1 lanes.2 ^^^ UInt64.ofNat n

/-- One write added to the state. -/
def absorb (h : UInt64) : Write → UInt64
  | .word w => addWord h w
  | .byte b => addWord h b.toUInt64
  | .bytes bs => addWord h (digest bs)
  | .count n => addWord h (UInt64.ofNat n)
  | .identity o => addWord h (UInt64.ofNat o)

/-- Rotates a word left by 26 bits, so that its high bits become low. -/
def finish (h : UInt64) : UInt64 := (h <<< 26) ||| (h >>> 38)

/-- Folds the writes into a word, one after the other. -/
def multiplicative : Hasher := fun ws => finish (ws.foldl absorb 0)

end Hash

end AdaptiveScript
