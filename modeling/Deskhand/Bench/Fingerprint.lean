import Deskhand.Bench.Value
import Deskhand.Hash.Sha256
import Deskhand.Number.Fixed
import Deskhand.Text.Utf8

/-!
# Fingerprints of results

A result is written out as bytes, each collection with its size before its items, and the digest of
the bytes is its fingerprint. Numbers count to six significant digits, and the order of a set's
items does not count.
-/

namespace Deskhand.Bench

/-- Bytes as hexadecimal digits. -/
def hexText (bytes : List UInt8) : Text := bytes.flatMap fun b ↦ Text.ofHex 2 b.toNat

namespace Value

/-- A letter and a size. -/
def sized (letter : Char) (n : Nat) : List UInt8 := Text.toUtf8 (letter :: Text.ofNat n)

/-- A number as it counts for a fingerprint. -/
def numberBytes (x : Binary64) : List UInt8 := Text.toUtf8 (x.roundDigits 6).text

mutual

/-- The bytes a result is written out as. -/
def outline : Value → List UInt8
  | .float x => numberBytes x
  | .complex re im => Text.toUtf8 ['c'] ++ numberBytes re ++ numberBytes im
  | .text t => Text.toUtf8 ('s' :: t)
  | .bytes _ data => Text.toUtf8 ['s'] ++ data
  | .list items => sized 'L' items.length ++ (outlines items).flatten
  | .tuple items => sized 'L' items.length ++ (outlines items).flatten
  | .set _ items =>
    let digests := (outlines items).map fun o ↦ (hexText (Sha256.digest o)).str
    sized 'S' items.length
      ++ Text.toUtf8 ((digests.mergeSort fun a b ↦ decide (a ≤ b)).flatMap String.toList)
  | .mapping entries => sized 'D' entries.length ++ entryOutlines entries
  | .array kind shape cells =>
    Text.toUtf8 ('A' :: shapeText shape ++ kind.code) ++ Sha256.digest (cells.flatMap kind.bytes)
  | v => Text.toUtf8 v.shown

/-- The bytes that results are written out as. -/
def outlines : List Value → List (List UInt8)
  | [] => []
  | v :: rest => outline v :: outlines rest

/-- The bytes that entries are written out as. -/
def entryOutlines : List (Value × Value) → List UInt8
  | [] => []
  | (k, v) :: rest => outline k ++ outline v ++ entryOutlines rest

end

/-- The fingerprint of a result. -/
def fingerprint (v : Value) : Text := hexText (Sha256.digest v.outline)

end Value

end Deskhand.Bench
