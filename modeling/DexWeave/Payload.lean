/-
  DexWeave/Payload.lean --- payloads and the mark they leave on a process.

  WHAT THIS FILE IS FOR.  A payload is the container that brings the hook classes; it
  is known by its SHA-256 digest.  The breadcrumb of a process records the payload
  that finished instrumenting it, once and for all: a second payload needs a new
  process.
-/
import DexWeave.Digest.Sha256
import DexWeave.Text.Hex

set_option autoImplicit false

namespace DexWeave

/-- The digest of a payload. -/
structure PayloadHash where
  /-- The digest in hexadecimal. -/
  text : String
  deriving DecidableEq, Repr, Inhabited

/-- The digest of the bytes of a payload. -/
def PayloadHash.ofBytes (payload : Bytes) : PayloadHash :=
  ⟨Hex.ofBytes (Sha256.digest payload)⟩

/-- The process was instrumented with another payload. -/
structure PayloadHashMismatch where
  /-- The payload on record. -/
  recorded : PayloadHash
  /-- The payload that was to be attached. -/
  current : PayloadHash
  deriving DecidableEq, Repr, Inhabited

/-- The text of the error. -/
def PayloadHashMismatch.message (m : PayloadHashMismatch) : String :=
  "The process was instrumented with payload " ++ m.recorded.text ++
    ", but the current payload is " ++ m.current.text

/-- What a breadcrumb says about a payload. -/
inductive BreadcrumbState where
  /-- No payload has finished. -/
  | absent
  /-- The payload has finished. -/
  | finished
  deriving DecidableEq, Repr, Inhabited

/-- The record of the payload that finished instrumenting a process. -/
structure Breadcrumb where
  /-- The payload on record. -/
  recorded : Option PayloadHash
  deriving DecidableEq, Repr, Inhabited

namespace Breadcrumb

/-- The breadcrumb of a new process. -/
def empty : Breadcrumb := ⟨none⟩

/-- Compares a payload with the record. -/
def check (b : Breadcrumb) (current : PayloadHash) :
    Except PayloadHashMismatch BreadcrumbState :=
  match b.recorded with
  | none => .ok .absent
  | some recorded =>
    if recorded = current then .ok .finished else .error ⟨recorded, current⟩

/-- Records a payload, unless there is a record already. -/
def mark (b : Breadcrumb) (finished : PayloadHash) : Breadcrumb :=
  match b.recorded with
  | none => ⟨some finished⟩
  | some _ => b

end Breadcrumb

end DexWeave
