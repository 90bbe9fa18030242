import CallMemo.Identity

/-!
# Codecs

A codec assigns a fingerprint to a calling context. Codecs may be lossy, so every cache entry keeps
its raw input beside the fingerprint.
-/

namespace CallMemo

/-- A pure assignment of fingerprints to calling contexts. -/
structure Codec where
  /-- The fingerprint of a site and its input values. -/
  encode : SiteId → List UInt64 → Fingerprint

namespace Codec

/-- Folds the 128-bit product of two words onto one word: low half xor high half. -/
def foldProduct (a b : UInt64) : UInt64 :=
  (a.toNat * b.toNat).toUInt64 ^^^ (a.toNat * b.toNat / UInt64.size).toUInt64

/-- Mixes one word into a running state. -/
def mix (state word : UInt64) : UInt64 := foldProduct (word ^^^ state) 6364136223846793005

/-- Rotates a word to the left by the given number of bits, modulo the word size. -/
def rotateLeft (a count : UInt64) : UInt64 :=
  (a <<< (count % 64)) ||| (a >>> ((64 - count % 64) % 64))

/-- The default codec: a keyed multiplicative mix of the site, the width and the input values. The
first word of the state is the seed `0x13198a2e03707344` xor `0xbe5466cf34e90c6c`, and the last
factor is the seed `0x243f6a8885a308d3` xor `0x452821e638d01377`; the seeds and what they are
combined with are words of the fraction of π. -/
def mixing : Codec where
  encode site input :=
    let state := (site.val :: input.length.toUInt64 :: input).foldl mix 0xad4dece137997f28
    ⟨rotateLeft (foldProduct state 0x61174b6ebd731ba4) (state &&& 63)⟩

example : mixing.encode ⟨0x1000⟩ [5] = ⟨9647516879054260024⟩ := by decide +kernel

/-- A codec that tells no two inputs of a site apart. -/
def bySite : Codec where
  encode site _ := ⟨site.val⟩

/-- A codec that looks at the first input value only. -/
def byFirst : Codec where
  encode _ input := ⟨input.headD 0⟩

/-- A codec that adds the input values up, modulo `2 ^ 64`. -/
def bySum : Codec where
  encode _ input := ⟨input.foldl (· + ·) 0⟩

/-- A codec that gives every calling context the same fingerprint. -/
def constant (fp : Fingerprint) : Codec where
  encode _ _ := fp

end Codec

end CallMemo
