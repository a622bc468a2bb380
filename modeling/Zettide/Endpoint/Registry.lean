import Zettide.Catalog.Format

/-! # The endpoint registry

Translation of `Registry` of `endpoint_registry.zig`. The registry keeps the endpoints that are
wanted, in a store and in memory, and runs one backend instance for each of them. An endpoint that
is released stays in the registry until its instance is stopped.

* The store is a parameter (`DesiredStore`). How a replacement in it ends is an input of a call.
* The backend is what it was asked to do (`Backend`): instances are numbered in the order in which
  `start` returned them, and the successful stops are listed. How its calls end is an input.
* A failed stop of an instance that has to be rolled back is a panic: the process is over. -/

namespace Zettide

/-- A byte array of fixed length. -/
abbrev FixedBytes (length : Nat) : Type := { bytes : List UInt8 // bytes.length = length }

namespace EndpointRegistry

def maxEndpointCount : Nat := 1024
def maxLocatorComponentLen : Nat := 256

abbrev EndpointId : Type := FixedBytes 16
abbrev PoolId : Type := FixedBytes 16
abbrev VolumeId : Type := FixedBytes 16

inductive Frontend where
  | nvmeOfTcp
  deriving DecidableEq, Repr

structure Spec where
  endpointId : EndpointId
  poolId : PoolId
  volumeId : VolumeId
  frontend : Frontend
  deriving DecidableEq, Repr

structure NvmeOfLocator where
  traddr : List UInt8
  trsvcid : List UInt8
  nqn : List UInt8
  nsid : Nat
  deriving DecidableEq, Repr

inductive Locator where
  | nvmeOfTcp (locator : NvmeOfLocator)
  deriving DecidableEq, Repr

def Locator.frontend : Locator → Frontend
  | .nvmeOfTcp _ => .nvmeOfTcp

/-- The steps of the replacement of a file. -/
inductive FileStep where
  | create | write | sync | rename | parentOpen | parentSync
  deriving DecidableEq, Repr

inductive StoreError where
  | invalidDesiredState | retiredEndpointFrontend | tooManyEndpoints | streamTooLong
  | failed (step : FileStep)
  deriving DecidableEq, Repr

inductive RegistryError where
  | store (error : StoreError)
  | invalidDesiredState | invalidEndpointSpec | endpointStopping | endpointConflict | poolBusy
  | tooManyEndpoints | frontendMismatch | invalidLocator | outOfMemory | startFailed | stopFailed
  -- the process is over
  | panicked
  deriving DecidableEq, Repr

/-- A store of the wanted endpoints. `φ` says how a replacement ends. -/
structure DesiredStore (σ φ : Type) where
  load : σ → Except StoreError (List Spec)
  replace : σ → φ → List Spec → σ × Except StoreError Unit

structure Instance where
  handle : Nat
  locator : Locator
  deriving DecidableEq, Repr

/-- How many instances were started, and which of them were stopped. -/
structure Backend where
  started : Nat
  stopped : List Nat
  deriving DecidableEq, Repr

inductive StartOutcome where
  | failed
  | started (locator : Locator)
  deriving DecidableEq, Repr

/-- How the calls end that a call of the registry makes for an endpoint. -/
structure Outcomes (φ : Type) where
  outOfMemory : Bool
  replace : φ
  start : EndpointId → StartOutcome
  rollsBack : EndpointId → Bool
  stops : EndpointId → Bool

inductive Phase where
  | pending | active | failed | stopping
  deriving DecidableEq, Repr

structure Entry where
  spec : Spec
  desired : Bool
  phase : Phase
  runtime : Option Instance
  deriving DecidableEq, Repr

inductive State where
  | pending | active | failed
  deriving DecidableEq, Repr

structure View where
  spec : Spec
  state : State
  locator : Option Locator
  deriving DecidableEq, Repr

structure ReconcileResult where
  started : Nat
  failed : Nat
  deriving DecidableEq, Repr

inductive Request (φ : Type) where
  | ensure (spec : Spec) (outcomes : Outcomes φ)
  | release (endpointId : EndpointId) (outcomes : Outcomes φ)

/-- The registry with the state of its store and of its backend. -/
structure Registry (σ : Type) where
  store : σ
  backend : Backend
  entries : List Entry

/-! ## Checks -/

def validateSpec (spec : Spec) : Except RegistryError Unit :=
  rejectIf (Bytes.isZero spec.endpointId.1 ∨ Bytes.isZero spec.poolId.1 ∨
    Bytes.isZero spec.volumeId.1) .invalidEndpointSpec

def validateLocatorString (value : List UInt8) : Except RegistryError Unit :=
  rejectIf (value.length = 0 ∨ value.length > maxLocatorComponentLen ∨
    ¬ PoolCatalog.utf8ValidateSlice value) .invalidLocator

def validateLocator : Locator → Except RegistryError Unit
  | .nvmeOfTcp nvme => do
      validateLocatorString nvme.traddr
      validateLocatorString nvme.trsvcid
      validateLocatorString nvme.nqn
      rejectIf (nvme.nsid = 0) .invalidLocator

/-! ## Entries -/

def desiredEntries (entries : List Entry) : List Entry := entries.filter Entry.desired

/-- The specs of the wanted entries, in order. -/
def desiredSpecs (entries : List Entry) : List Spec := (desiredEntries entries).map Entry.spec

def desiredCount (entries : List Entry) : Nat := (desiredSpecs entries).length

def viewOf (entry : Entry) : View where
  spec := entry.spec
  state :=
    match entry.phase with
    | .pending => .pending
    | .active => .active
    | .failed => .failed
    | .stopping => .failed
  locator := if entry.phase = .active then entry.runtime.map Instance.locator else none

/-- The check of what a backend has started. -/
def checkStarted (spec : Spec) (locator : Locator) : Except RegistryError Unit := do
  rejectIf (locator.frontend ≠ spec.frontend) .frontendMismatch
  validateLocator locator

def startEntry (backend : Backend) (entry : Entry) (start : StartOutcome) (rollsBack : Bool) :
    Backend × Entry × Except RegistryError Unit :=
  match start with
  | .failed => (backend, { entry with phase := .failed }, .error .startFailed)
  | .started locator =>
    let handle := backend.started
    let running := { backend with started := backend.started + 1 }
    match checkStarted entry.spec locator with
    | .error e =>
      if rollsBack then
        ({ running with stopped := running.stopped ++ [handle] },
          { entry with phase := .failed }, .error e)
      else (running, { entry with phase := .pending }, .error .panicked)
    | .ok () =>
      (running, { entry with phase := .active, runtime := some ⟨handle, locator⟩ }, .ok ())

/-- The stop of the instance of an entry, if it has one. -/
def stopEntry (backend : Backend) (entry : Entry) (stops : Bool) :
    Backend × Entry × Except RegistryError Unit :=
  match entry.runtime with
  | none => (backend, entry, .ok ())
  | some runtime =>
    if stops then
      ({ backend with stopped := backend.stopped ++ [runtime.handle] },
        { entry with runtime := none }, .ok ())
    else (backend, entry, .error .stopFailed)

namespace Registry

variable {σ φ : Type}

/-! ## Opening -/

/-- The loop over the loaded specs; `previous` are those already seen. -/
def validateSpecs (previous : List Spec) : List Spec → Except RegistryError Unit
  | [] => .ok ()
  | spec :: rest => do
      let _ ← orElseFail (value (validateSpec spec)) .invalidDesiredState
      rejectIf (∃ other ∈ previous, other.endpointId = spec.endpointId ∨
        other.poolId = spec.poolId) .invalidDesiredState
      validateSpecs (previous ++ [spec]) rest

/-- The entry of a wanted endpoint that was not started yet. -/
def pendingEntry (spec : Spec) : Entry := ⟨spec, true, .pending, none⟩

def init (desired : DesiredStore σ φ) (store : σ) : Except RegistryError (List Entry) := do
  let specs ← withError .store (desired.load store)
  rejectIf (specs.length > maxEndpointCount) .invalidDesiredState
  validateSpecs [] specs
  .ok (specs.map pendingEntry)

/-! ## Calls -/

/-- The entry that ends the search of `ensure`: it has the endpoint, or it uses the pool. -/
def Meets (spec : Spec) (entry : Entry) : Prop := entry.spec.endpointId = spec.endpointId ∨
    (entry.desired = true ∨ entry.runtime.isSome) ∧ entry.spec.poolId = spec.poolId

instance (spec : Spec) (entry : Entry) : Decidable (Meets spec entry) :=
  inferInstanceAs (Decidable (_ ∨ _))

/-- The start of the entry between the others. -/
def startBetween (registry : Registry σ) (before : List Entry) (entry : Entry)
    (behind : List Entry) (outcomes : Outcomes φ) : Registry σ × Except RegistryError View :=
  match startEntry registry.backend entry (outcomes.start entry.spec.endpointId)
      (outcomes.rollsBack entry.spec.endpointId) with
  | (backend, entry, result) =>
    ({ registry with backend := backend, entries := before ++ entry :: behind },
      result.map fun _ => viewOf entry)

def ensure (desired : DesiredStore σ φ) (registry : Registry σ) (spec : Spec)
    (outcomes : Outcomes φ) : Registry σ × Except RegistryError View :=
  match validateSpec spec with
  | .error e => (registry, .error e)
  | .ok () =>
    let before := registry.entries.takeWhile fun entry => ¬ Meets spec entry
    match registry.entries.dropWhile fun entry => ¬ Meets spec entry with
    | entry :: behind =>
      if entry.spec.endpointId ≠ spec.endpointId then (registry, .error .poolBusy)
      else if entry.desired = false then (registry, .error .endpointStopping)
      else if entry.spec ≠ spec then (registry, .error .endpointConflict)
      else if entry.runtime = none then
        registry.startBetween before entry behind outcomes
      else (registry, .ok (viewOf entry))
    | [] =>
      if desiredCount registry.entries = maxEndpointCount then
        (registry, .error .tooManyEndpoints)
      else if outcomes.outOfMemory then (registry, .error .outOfMemory)
      else
        match desired.replace registry.store outcomes.replace
            (desiredSpecs registry.entries ++ [spec]) with
        | (store, .error e) => ({ registry with store := store }, .error (.store e))
        | (store, .ok ()) =>
          ({ registry with store := store }).startBetween registry.entries
            (pendingEntry spec) [] outcomes

/-- The end of a release: the instance of the entry is stopped and the entry removed. -/
def stopBetween (registry : Registry σ) (before : List Entry) (entry : Entry)
    (behind : List Entry) (outcomes : Outcomes φ) : Registry σ × Except RegistryError Unit :=
  match stopEntry registry.backend entry (outcomes.stops entry.spec.endpointId) with
  | (backend, entry, .error e) =>
    ({ registry with
       backend := backend
       entries := before ++ { entry with phase := .stopping } :: behind }, .error e)
  | (backend, _, .ok ()) =>
    ({ registry with backend := backend, entries := before ++ behind }, .ok ())

def release (desired : DesiredStore σ φ) (registry : Registry σ) (endpointId : EndpointId)
    (outcomes : Outcomes φ) : Registry σ × Except RegistryError Unit :=
  let before := registry.entries.takeWhile fun entry => entry.spec.endpointId ≠ endpointId
  match registry.entries.dropWhile fun entry => entry.spec.endpointId ≠ endpointId with
  | [] => (registry, .ok ())
  | entry :: behind =>
    if entry.desired = false then registry.stopBetween before entry behind outcomes
    else if outcomes.outOfMemory then (registry, .error .outOfMemory)
    else
      match desired.replace registry.store outcomes.replace (desiredSpecs (before ++ behind)) with
      | (store, .error e) => ({ registry with store := store }, .error (.store e))
      | (store, .ok ()) =>
        ({ registry with store := store }).stopBetween before
          { entry with desired := false, phase := .stopping } behind outcomes

/-- A request to the registry; `ensure` is answered with a view. -/
def handle (desired : DesiredStore σ φ) (registry : Registry σ) :
    Request φ → Registry σ × Except RegistryError (Option View)
  | .ensure spec outcomes =>
    match registry.ensure desired spec outcomes with
    | (after, result) => (after, result.map some)
  | .release endpointId outcomes =>
    match registry.release desired endpointId outcomes with
    | (after, result) => (after, result.map fun _ => none)

/-- The loop of `reconcile`; a panic ends it. -/
def reconcileEntries (outcomes : Outcomes φ) :
    Backend → List Entry → Backend × List Entry × Except RegistryError ReconcileResult
  | backend, [] => (backend, [], .ok ⟨0, 0⟩)
  | backend, entry :: rest =>
    if entry.desired = false ∨ entry.runtime.isSome then
      match reconcileEntries outcomes backend rest with
      | (backend, rest, result) => (backend, entry :: rest, result)
    else
      match startEntry backend entry (outcomes.start entry.spec.endpointId)
          (outcomes.rollsBack entry.spec.endpointId) with
      | (backend, entry, .error .panicked) => (backend, entry :: rest, .error .panicked)
      | (backend, entry, .error _) =>
        match reconcileEntries outcomes backend rest with
        | (backend, rest, result) =>
          (backend, entry :: rest,
            result.map fun counts => { counts with failed := counts.failed + 1 })
      | (backend, entry, .ok ()) =>
        match reconcileEntries outcomes backend rest with
        | (backend, rest, result) =>
          (backend, entry :: rest,
            result.map fun counts => { counts with started := counts.started + 1 })

def reconcile (registry : Registry σ) (outcomes : Outcomes φ) :
    Registry σ × Except RegistryError ReconcileResult :=
  match reconcileEntries outcomes registry.backend registry.entries with
  | (backend, entries, result) =>
    ({ registry with backend := backend, entries := entries }, result)

/-- The loop of `shutdown`, which keeps the first error. -/
def shutdownEntries (outcomes : Outcomes φ) :
    Backend → List Entry → Backend × List Entry × Except RegistryError Unit
  | backend, [] => (backend, [], .ok ())
  | backend, entry :: rest =>
    match stopEntry backend entry (outcomes.stops entry.spec.endpointId) with
    | (backend, entry, .error e) =>
      match shutdownEntries outcomes backend rest with
      | (backend, rest, _) =>
        (backend, { entry with
                    phase := if entry.desired then .failed else .stopping } :: rest,
          .error e)
    | (backend, entry, .ok ()) =>
      match shutdownEntries outcomes backend rest with
      | (backend, rest, result) =>
        (backend, if entry.desired then { entry with phase := .pending } :: rest else rest, result)

def shutdown (registry : Registry σ) (outcomes : Outcomes φ) :
    Registry σ × Except RegistryError Unit :=
  match shutdownEntries outcomes registry.backend registry.entries with
  | (backend, entries, result) =>
    ({ registry with backend := backend, entries := entries }, result)

end Registry

/-! ## A process -/

/-- A process with at most one registry. -/
structure Process (σ : Type) where
  registry : Registry σ
  opened : Bool
  panicked : Bool

inductive Op (φ : Type) where
  | init
  | handle (request : Request φ)
  | reconcile (outcomes : Outcomes φ)
  | shutdown (outcomes : Outcomes φ)
  | deinit

namespace Process

variable {σ φ : Type}

def start (store : σ) : Process σ := ⟨⟨store, ⟨0, []⟩, []⟩, false, false⟩

/-- The process after a call of its registry. -/
def after {α : Type} (process : Process σ) : Registry σ × Except RegistryError α → Process σ
  | (registry, .error .panicked) => { process with registry := registry, panicked := true }
  | (registry, _) => { process with registry := registry }

/-- A call. There are no calls before a registry is opened, or after a panic, and no `deinit` while
an instance is held, which the source asserts. -/
def perform (desired : DesiredStore σ φ) (process : Process σ) (op : Op φ) : Process σ :=
  if process.panicked then process
  else
    match op, process.opened with
    | .init, false =>
      match Registry.init desired process.registry.store with
      | .error _ => process
      | .ok entries =>
        { process with registry := { process.registry with entries := entries }, opened := true }
    | .handle request, true => process.after (process.registry.handle desired request)
    | .reconcile outcomes, true => process.after (process.registry.reconcile outcomes)
    | .shutdown outcomes, true => process.after (process.registry.shutdown outcomes)
    | .deinit, true =>
      if ∀ entry ∈ process.registry.entries, entry.runtime = none then
        { process with registry := { process.registry with entries := [] }, opened := false }
      else process
    | _, _ => process

def run (desired : DesiredStore σ φ) (process : Process σ) (ops : List (Op φ)) : Process σ :=
  ops.foldl (perform desired) process

end Process

end EndpointRegistry

end Zettide
