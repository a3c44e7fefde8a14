/-!
# SHA-1

The digest of a byte sequence, over 32-bit words.
-/

namespace Chronicle.Text.Digest

structure State where
  a : UInt32
  b : UInt32
  c : UInt32
  d : UInt32
  e : UInt32
  deriving DecidableEq, Repr

def initial : State := ⟨0x67452301, 0xEFCDAB89, 0x98BADCFE, 0x10325476, 0xC3D2E1F0⟩

def rotate (word : UInt32) (count : UInt32) : UInt32 :=
  (word <<< count) ||| (word >>> (32 - count))

/-- The message, a one bit, zeros up to 56 bytes modulo 64, and the length in bits. -/
def pad (message : List UInt8) : List UInt8 :=
  let bits := message.length * 8
  let zeros := (119 - message.length % 64) % 64
  let length := (List.range 8).map fun place => (bits / Nat.pow 256 (7 - place)).toUInt8
  message ++ 0x80 :: List.replicate zeros 0 ++ length

def bigEndian (bytes : List UInt8) : UInt32 :=
  bytes.foldl (fun word byte => (word <<< 8) ||| byte.toUInt32) 0

/-- Cuts a list into pieces of the given size; `fuel` bounds their number. -/
def pieces (size : Nat) : Nat → List α → List (List α)
  | 0, _ => []
  | fuel + 1, items =>
      if items.isEmpty then [] else items.take size :: pieces size fuel (items.drop size)

/-- The sixteen words of a block, most recent first, extended to eighty. -/
def schedule : Nat → List UInt32 → List UInt32
  | 0, words => words.reverse
  | count + 1, words =>
      let word (back : Nat) : UInt32 := words.getD (back - 1) 0
      schedule count (rotate (word 3 ^^^ word 8 ^^^ word 14 ^^^ word 16) 1 :: words)

def round (state : State) (index : Nat) (word : UInt32) : State :=
  let ⟨a, b, c, d, e⟩ := state
  let (mixed, constant) :=
    if index < 20 then ((b &&& c) ||| (~~~b &&& d), 0x5A827999)
    else if index < 40 then (b ^^^ c ^^^ d, 0x6ED9EBA1)
    else if index < 60 then ((b &&& c) ||| (b &&& d) ||| (c &&& d), 0x8F1BBCDC)
    else (b ^^^ c ^^^ d, 0xCA62C1D6)
  ⟨rotate a 5 + mixed + e + constant + word, a, rotate b 30, c, d⟩

def block (state : State) (bytes : List UInt8) : State :=
  let words := schedule 64 ((pieces 4 16 bytes).map bigEndian).reverse
  let final := (words.zipIdx).foldl (fun state (word, index) => round state index word) state
  ⟨state.a + final.a, state.b + final.b, state.c + final.c, state.d + final.d, state.e + final.e⟩

def wordBytes (word : UInt32) : List UInt8 :=
  [(word >>> 24).toUInt8, (word >>> 16).toUInt8, (word >>> 8).toUInt8, word.toUInt8]

def sha1 (message : List UInt8) : List UInt8 :=
  let padded := pad message
  let final := (pieces 64 padded.length padded).foldl block initial
  [final.a, final.b, final.c, final.d, final.e].flatMap wordBytes

end Chronicle.Text.Digest
