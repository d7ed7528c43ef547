/-
  DexWeave/Attach.lean --- attaching to a process.

  WHAT THIS FILE IS FOR.  An attachment looks at the breadcrumb first: a payload that
  has finished already has nothing to do, and another payload must not be applied on
  top.  Otherwise the catalog of the mode is applied as one batch, with a cache where
  the configuration asks for one, and the breadcrumb records the payload if the batch
  is a success.

  WHO IS TOLD.  A batch tells the reporter about its failed classes itself; any other
  error is told once, as its text.
-/
import DexWeave.Catalog
import DexWeave.Instrument.Batch
import DexWeave.Transform.Fingerprint

set_option autoImplicit false

namespace DexWeave

/-- What a process is instrumented for. -/
inductive SwapMode where
  /-- Changed code. -/
  | applyChanges
  /-- Changed resources. -/
  | overlaySwap
  deriving DecidableEq, Repr, Inhabited

/-- The transforms of a mode. -/
def SwapMode.transforms : SwapMode → List Transform
  | applyChanges => Catalog.applyChanges
  | overlaySwap => Catalog.overlaySwap

/-- How a process is instrumented. -/
structure AgentConfig where
  /-- What for. -/
  mode : SwapMode
  /-- The directory that caches are made in. -/
  cacheBase : Path
  /-- Whether a cache is used, if that is asked for. -/
  caching : Option Bool
  deriving DecidableEq, Repr, Inhabited

namespace AgentConfig

/-- Applies changes, with no word on caching. -/
def new (cacheBase : Path) : AgentConfig := ⟨.applyChanges, cacheBase, none⟩

/-- Whether a cache is used.  Cached classes do not outlive a change of code, so by default only
resources are swapped with a cache. -/
def cachingEnabled (c : AgentConfig) : Bool := c.caching.getD (c.mode = .overlaySwap)

end AgentConfig

/-- What an attachment did. -/
inductive AttachOutcome where
  /-- The process was instrumented. -/
  | instrumented (report : BatchReport)
  /-- The payload had finished before. -/
  | alreadyInstrumented
  deriving DecidableEq, Repr, Inhabited

/-- Why an attachment failed. -/
inductive AttachError where
  /-- Another payload has finished before. -/
  | payloadHashMismatch (e : PayloadHashMismatch)
  /-- The batch failed. -/
  | instrumentation (e : InstrumentError)
  deriving DecidableEq, Repr, Inhabited

/-- The text of the error. -/
def AttachError.message : AttachError → String
  | payloadHashMismatch e => e.message
  | instrumentation e => e.message

/-- The end of an attachment. -/
structure Attachment (σ : Type) where
  /-- The result. -/
  result : Except AttachError AttachOutcome
  /-- What the reporter was told, in order. -/
  notices : List Notice
  /-- The breadcrumb afterwards. -/
  breadcrumb : Breadcrumb
  /-- The state of the machine. -/
  state : σ
  /-- The file tree. -/
  files : FileTree

namespace AgentConfig

/-- The directory of the cache for a payload. -/
def cacheRoot (c : AgentConfig) (hash : PayloadHash) : Path :=
  Cache.rootFor c.cacheBase hash.text (Transform.fingerprint c.mode.transforms)

/-- Makes the directory of the cache, if one is used; without the directory there is none. -/
def openCache (c : AgentConfig) (hash : PayloadHash) (files : FileTree) :
    Option (ClassCache FileTree) × FileTree :=
  if c.cachingEnabled then
    match files.createDirectories (c.cacheRoot hash).components with
    | .ok files => (some (Cache.inDirectory (c.cacheRoot hash)), files)
    | .error _ => (none, files)
  else (none, files)

end AgentConfig

/-- What the reporter is told about a batch that failed. -/
def attachNotices (e : InstrumentError) (told : List Notice) : List Notice :=
  match e with
  | .retransformFailed _ => told
  | e => told ++ [.unhandledFailure e.message]

/-- Instruments a process with a payload, unless the payload has finished before. -/
def attach {σ : Type} (vm : Vm σ) (config : AgentConfig) (payload : Bytes)
    (breadcrumb : Breadcrumb) (state : σ) (files : FileTree) : Attachment σ :=
  let hash := PayloadHash.ofBytes payload
  match breadcrumb.check hash with
  | .error e =>
    ⟨.error (.payloadHashMismatch e), [.unhandledFailure e.message], breadcrumb, state, files⟩
  | .ok .finished => ⟨.ok .alreadyInstrumented, [], breadcrumb, state, files⟩
  | .ok .absent =>
    let (cache, files) := config.openCache hash files
    let batch := (Instrumenter.new cache).instrument vm config.mode.transforms state files
    match batch.result with
    | .ok report =>
      ⟨.ok (.instrumented report), batch.notices, breadcrumb.mark hash, batch.state, batch.store⟩
    | .error e =>
      ⟨.error (.instrumentation e), attachNotices e batch.notices, breadcrumb, batch.state,
        batch.store⟩

end DexWeave
