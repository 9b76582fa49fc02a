/-!
# The 64-bit XXH digest

Four lanes absorb stripes of thirty-two bytes; what is left is absorbed in words, half words and
bytes, and a final mix spreads every input bit over the result.
-/

namespace Coupling.Digest.XxHash

def prime1 : UInt64 := 11400714785074694791
def prime2 : UInt64 := 14029467366897019727
def prime3 : UInt64 := 1609587929392839161
def prime4 : UInt64 := 9650029242287828579
def prime5 : UInt64 := 2870177450012600261

def rotate (w : UInt64) (n : UInt64) : UInt64 := (w <<< n) ||| (w >>> (64 - n))

/-- A number from its bytes, least significant first. -/
def word (bytes : List UInt8) : UInt64 :=
  bytes.foldr (fun b acc => (acc <<< 8) ||| b.toUInt64) 0

def round (lane input : UInt64) : UInt64 := rotate (lane + input * prime2) 31 * prime1

structure Lanes where
  v₁ : UInt64
  v₂ : UInt64
  v₃ : UInt64
  v₄ : UInt64

def Lanes.initial (seed : UInt64) : Lanes :=
  ⟨seed + prime1 + prime2, seed + prime2, seed, seed - prime1⟩

def Lanes.absorb (l : Lanes) (stripe : List UInt8) : Lanes :=
  ⟨round l.v₁ (word (stripe.take 8)), round l.v₂ (word ((stripe.drop 8).take 8)),
    round l.v₃ (word ((stripe.drop 16).take 8)), round l.v₄ (word ((stripe.drop 24).take 8))⟩

def Lanes.merge (l : Lanes) : UInt64 :=
  let start := rotate l.v₁ 1 + rotate l.v₂ 7 + rotate l.v₃ 12 + rotate l.v₄ 18
  [l.v₁, l.v₂, l.v₃, l.v₄].foldl (fun h v => (h ^^^ round 0 v) * prime1 + prime4) start

/-- Absorbs the first `count` stripes. -/
def stripes : Nat → Lanes → List UInt8 → Lanes
  | 0, l, _ => l
  | count + 1, l, bytes => stripes count (l.absorb (bytes.take 32)) (bytes.drop 32)

/-- Absorbs the first `count` words of eight bytes. -/
def longWords : Nat → UInt64 → List UInt8 → UInt64
  | 0, h, _ => h
  | count + 1, h, bytes =>
    longWords count (rotate (h ^^^ round 0 (word (bytes.take 8))) 27 * prime1 + prime4)
      (bytes.drop 8)

/-- Absorbs the bytes after the last stripe: whole words, a half word, single bytes. -/
def tail (h : UInt64) (bytes : List UInt8) : UInt64 :=
  let h := longWords (bytes.length / 8) h bytes
  let rest := bytes.drop (bytes.length / 8 * 8)
  let (h, rest) :=
    if rest.length < 4 then (h, rest)
    else (rotate (h ^^^ word (rest.take 4) * prime1) 23 * prime2 + prime3, rest.drop 4)
  rest.foldl (fun h b => rotate (h ^^^ b.toUInt64 * prime5) 11 * prime1) h

def avalanche (h : UInt64) : UInt64 :=
  let h := (h ^^^ (h >>> 33)) * prime2
  let h := (h ^^^ (h >>> 29)) * prime3
  h ^^^ (h >>> 32)

/-- The digest of some bytes under a seed. -/
def digest (seed : UInt64) (bytes : List UInt8) : UInt64 :=
  let count := bytes.length / 32
  let start :=
    if count = 0 then seed + prime5 else (stripes count (.initial seed) bytes).merge
  avalanche (tail (start + UInt64.ofNat bytes.length) (bytes.drop (32 * count)))

end Coupling.Digest.XxHash
