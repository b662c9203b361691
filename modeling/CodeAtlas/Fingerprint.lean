import CodeAtlas.Digest.Sha256
import CodeAtlas.SourceUnit

/-!
# Fingerprints of fact bases

A fingerprint identifies the units that a fact base was made of, in their order. It is the digest of
their canonical texts, each of which ends in a line end. The text that is hashed is kept, so that
what a fingerprint covers can be said without speaking of digests.

## Main definitions

* `Fingerprint`, with `Fingerprint.update`.
* `Fingerprint.hex`: the digest.
-/
namespace CodeAtlas

/-- The units of a fact base, as far as its identity goes. -/
structure Fingerprint where
  /-- The text that is hashed. -/
  stream : String := ""
  /-- The number of units in it. -/
  units : Nat := 0
deriving DecidableEq

namespace Fingerprint

/-- Cover one more unit. -/
def update (f : Fingerprint) (u : SourceUnit) : Fingerprint :=
  ⟨f.stream ++ u.canonical ++ "\n", f.units + 1⟩

/-- The digest of the stream in hexadecimal digits. -/
def hex (f : Fingerprint) : String := Sha256.hex f.stream.toUTF8.toList

/-- The written form of a fingerprint. -/
def text (f : Fingerprint) : String :=
  "Fingerprint \x7b units: " ++ toString f.units ++ ", digest: \"" ++ f.hex ++ "\" \x7d"

/-- The fingerprint of a list of units. -/
def ofUnits (us : List SourceUnit) : Fingerprint := us.foldl update {}

end Fingerprint
end CodeAtlas
