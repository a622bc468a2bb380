import Zettide.Lib.Parties

/-! # Requests of a bdev endpoint

Translation of the request part of `bdev_endpoint.c`, which runs on the owner thread of the endpoint.
The callback of the caller is the last thing that a completion does, so what it submits or closes is
the next step. -/

namespace Zettide.Spdk

def eio : Int := -5
def enomem : Int := -12
def ebusy : Int := -16
def enodev : Int := -19

structure BdevEndpoint where
  outstanding : Nat
  removed : Bool
  closed : Bool
  deriving DecidableEq, Repr

/-- Which callback of SPDK a request waits for. -/
inductive RequestPhase where
  | fresh | issued | waiting | freed
  deriving DecidableEq, Repr

/-- A request, with the statuses that its caller was called with. -/
structure BdevRequest where
  phase : RequestPhase
  accepted : Bool
  statuses : List Int
  deriving DecidableEq, Repr

def BdevRequest.fresh : BdevRequest := ⟨.fresh, false, []⟩

section

variable (endpoint : BdevEndpoint) (request : BdevRequest)

def finishRequest (status : Int) : BdevEndpoint × BdevRequest :=
  ({ endpoint with outstanding := endpoint.outstanding - 1 },
    { request with phase := .freed, statuses := request.statuses ++ [status] })

def completeRequest (success : Bool) (aioStatus : Int) : BdevEndpoint × BdevRequest :=
  let failure := if aioStatus ≥ 0 then eio else aioStatus
  finishRequest endpoint request
    (if success then 0 else if endpoint.removed then enodev else failure)

/-- The device answers `started`; one that is out of memory is asked to call back when it has some
again, and answers `queued`. -/
def issueRequest (started queued : Int) : Except Int RequestPhase :=
  if started = enomem then if queued = 0 then .ok .waiting else .error queued
  else if started = 0 then .ok .issued else .error started

def retryRequest (started queued : Int) : BdevEndpoint × BdevRequest :=
  if endpoint.removed then finishRequest endpoint request enodev
  else
    match issueRequest started queued with
    | .error status => finishRequest endpoint request status
    | .ok phase => (endpoint, { request with phase := phase })

/-- `checked` is what the checks of the call and the allocation of the request answer. -/
def submitRequest (checked started queued : Int) : BdevEndpoint × BdevRequest :=
  let counted := { endpoint with outstanding := endpoint.outstanding + 1 }
  if checked ≠ 0 then (endpoint, { request with phase := .freed })
  else
    match issueRequest started queued with
    | .error _ =>
      ({ counted with outstanding := counted.outstanding - 1 }, { request with phase := .freed })
    | .ok phase => (counted, { request with phase := phase, accepted := true })

def bdevClose : BdevEndpoint × Int :=
  if endpoint.outstanding ≠ 0 then (endpoint, ebusy) else ({ endpoint with closed := true }, 0)

/-- Accepted and not completed. -/
def BdevRequest.live : Bool := request.accepted && request.statuses.isEmpty

/-- A step of a request. SPDK calls back once for what it has taken. -/
inductive RequestStep : BdevEndpoint → BdevRequest → Prop where
  | submit (checked started queued : Int) : endpoint.closed = false → request.phase = .fresh →
      RequestStep (submitRequest endpoint request checked started queued).1
        (submitRequest endpoint request checked started queued).2
  | complete (success : Bool) (aioStatus : Int) : request.phase = .issued →
      RequestStep (completeRequest endpoint request success aioStatus).1
        (completeRequest endpoint request success aioStatus).2
  | retry (started queued : Int) : request.phase = .waiting →
      RequestStep (retryRequest endpoint request started queued).1
        (retryRequest endpoint request started queued).2

end

/-- Any number of requests, removal of the device, and close. -/
def endpointProtocol : Protocol BdevEndpoint BdevRequest where
  joins request := request = .fresh
  acts := RequestStep
  moves endpoint after :=
    after = { endpoint with removed := true } ∨ after = (bdevClose endpoint).1

/-- What a request is in each phase. -/
structure BdevRequest.Fits (request : BdevRequest) : Prop where
  fresh : request.phase = .fresh → request = .fresh
  taken : request.phase = .issued ∨ request.phase = .waiting → request.live = true
  freed : request.phase = .freed → request.accepted = true → ∃ status, request.statuses = [status]
  refused : request.accepted = false → request.statuses = []

variable {endpoint : BdevEndpoint} {request : BdevRequest} {started queued : Int}

theorem issueRequest_ok {phase : RequestPhase} (h : issueRequest started queued = .ok phase) :
    phase = .issued ∨ phase = .waiting := by
  unfold issueRequest at h
  split at h <;> split at h <;> cases h <;> simp

/-- A completion of a request that SPDK has taken. -/
theorem finishRequest_counts {status : Int} (hlive : request.live = true)
    (hheld : 1 ≤ endpoint.outstanding)
    (hclosed : endpoint.closed = true → endpoint.outstanding = 0) :
    let after := finishRequest endpoint request status
    (after.1.closed = true → after.1.outstanding = 0) ∧ after.2.Fits ∧
      after.1.outstanding + 1 = endpoint.outstanding + (if after.2.live then 1 else 0) := by
  obtain ⟨haccepted, hnone⟩ : request.accepted = true ∧ request.statuses = [] := by
    simpa [BdevRequest.live] using hlive
  refine ⟨fun h => absurd (hclosed h) (by omega), ⟨?_, ?_, ?_, ?_⟩, ?_⟩ <;>
    simp [finishRequest, BdevRequest.live, haccepted, hnone]
  omega

theorem endpoint_counts : endpointProtocol.Counts BdevEndpoint.outstanding
    (fun request => if request.live then 1 else 0)
    (fun endpoint => endpoint.closed = true → endpoint.outstanding = 0)
    (fun _ => BdevRequest.Fits) where
  join := by
    rintro _ _ rfl
    exact ⟨rfl, by constructor <;> simp [BdevRequest.fresh]⟩
  act := by
    intro endpoint request after next hclosed hfits hheld hacts
    cases hacts with
    | submit checked started queued hopen hphase =>
      obtain rfl := hfits.fresh hphase
      have hrefused : { BdevRequest.fresh with phase := .freed }.Fits := by
        constructor <;> simp [BdevRequest.fresh]
      unfold submitRequest
      split
      · exact ⟨hclosed, hrefused, rfl⟩
      · cases hissue : issueRequest started queued with
        | error status => exact ⟨by simp [hopen], hrefused, rfl⟩
        | ok phase =>
          refine ⟨by simp [hopen], ?_, rfl⟩
          obtain rfl | rfl := issueRequest_ok hissue <;> constructor <;>
            simp [BdevRequest.fresh, BdevRequest.live]
    | complete success aioStatus hphase =>
      have hlive := hfits.taken (.inl hphase)
      rw [if_pos hlive] at hheld ⊢
      exact finishRequest_counts hlive hheld hclosed
    | retry started queued hphase =>
      have hlive := hfits.taken (.inr hphase)
      rw [if_pos hlive] at hheld ⊢
      unfold retryRequest
      split
      · exact finishRequest_counts hlive hheld hclosed
      · cases hissue : issueRequest started queued with
        | error status => exact finishRequest_counts hlive hheld hclosed
        | ok phase =>
          have hsame : { request with phase := phase }.live = true := hlive
          refine ⟨hclosed, ?_, by rw [if_pos hsame]⟩
          obtain rfl | rfl := issueRequest_ok hissue
          · exact ⟨by simp, fun _ => hlive, by simp, hfits.refused⟩
          · exact ⟨by simp, fun _ => hlive, by simp, hfits.refused⟩
  move := by
    rintro endpoint after hclosed (rfl | rfl)
    · exact ⟨hclosed, rfl⟩
    · unfold bdevClose
      split
      · exact ⟨hclosed, rfl⟩
      · exact ⟨fun _ => not_not.mp ‹_›, rfl⟩
  act_keeps _ h := h
  move_keeps _ h := h

end Zettide.Spdk
