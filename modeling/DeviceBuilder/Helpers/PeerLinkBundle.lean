import Mathlib.Data.Int.Basic
import Mathlib.Data.List.Basic

/-!
# Bundle assembler

`BundleAssembler` of `helpers/peer_link_bundle.py`: payload bytes from a stream
of in-order chunks, checked against the totals a header announced. A call that
raises keeps the changes made before the raise, so every call returns the
assembler it leaves. The counts of a header are whatever integers the peer sent.

The digest of the assembled bytes is a parameter.
-/

namespace DeviceBuilder

inductive BundleAssemblerErrorCode
  | outOfOrder
  | postCompletion
  | oversized
  | undersized
  | hashMismatch
  | chunkCountMismatch
  | emptyBundle
  deriving DecidableEq

/-- `_chunk_bundle_iter`, from the chunk with this index on. -/
def chunkBundleIter (chunkSize : ℕ) (index : ℤ) (data : List UInt8) :
    List (ℤ × List UInt8 × Bool) :=
  if h : data = [] ∨ chunkSize = 0 then []
  else (index, data.take chunkSize, decide (data.length ≤ chunkSize)) ::
    chunkBundleIter chunkSize (index + 1) (data.drop chunkSize)
termination_by data.length
decreasing_by
  have hlen := List.length_pos_iff.2 fun hnil => h (Or.inl hnil)
  have hsize : chunkSize ≠ 0 := fun hzero => h (Or.inr hzero)
  rw [List.length_drop]
  omega

/-- `chunk_bundle`: each chunk with its index and `is_last`; fails on a size that is not
positive. -/
def chunkBundle (data : List UInt8) (chunkSize : ℤ) : Option (List (ℤ × List UInt8 × Bool)) :=
  if chunkSize ≤ 0 then none else some (chunkBundleIter chunkSize.toNat 0 data)

/-- `BUNDLE_MAX_TOTAL_BYTES`. -/
def bundleMaxTotalBytes : ℤ := 128 * 1024 * 1024

structure BundleAssembler where
  totalBytes : ℤ
  numChunks : ℤ
  sha256Hex : String
  buf : List UInt8 := []
  nextIndex : ℤ := 0
  closed : Bool := false
  result : Option (List UInt8) := none
  deriving DecidableEq

namespace BundleAssembler

/-- `__init__`; `sha256Hex` is the header's digest in lower case. -/
def create (totalBytes numChunks : ℤ) (sha256Hex : String) (maxTotalBytes : ℤ) :
    Except BundleAssemblerErrorCode BundleAssembler :=
  if totalBytes ≤ 0 then .error .emptyBundle
  else if numChunks ≤ 0 then .error .chunkCountMismatch
  else if totalBytes > maxTotalBytes then .error .oversized
  else .ok { totalBytes, numChunks, sha256Hex }

def feed (a : BundleAssembler) (chunkIndex : ℤ) (raw : List UInt8) (isLast : Bool) :
    Option BundleAssemblerErrorCode × BundleAssembler :=
  if a.closed then (some .postCompletion, a)
  else if chunkIndex ≠ a.nextIndex then (some .outOfOrder, a)
  else if (a.buf.length + raw.length : ℤ) > a.totalBytes then (some .oversized, a)
  else
    let a := { a with buf := a.buf ++ raw, nextIndex := a.nextIndex + 1 }
    if isLast ≠ decide (a.nextIndex = a.numChunks) then (some .chunkCountMismatch, a)
    else (none, if isLast then { a with closed := true } else a)

def finalise (sha256 : List UInt8 → String) (a : BundleAssembler) :
    Except BundleAssemblerErrorCode (List UInt8) × BundleAssembler :=
  match a.result with
  | some r => (.ok r, a)
  | none =>
    if ¬a.closed then (.error .undersized, a)
    else if (a.buf.length : ℤ) ≠ a.totalBytes then (.error .undersized, a)
    else if sha256 a.buf ≠ a.sha256Hex then (.error .hashMismatch, a)
    else (.ok a.buf, { a with result := some a.buf, buf := [] })

end BundleAssembler

end DeviceBuilder
