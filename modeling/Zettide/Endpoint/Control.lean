import Zettide.Endpoint.Runs

/-! # Requests to the endpoint registry

Translation of `dispatch` of `endpoint_control.zig`. After an error it looks the endpoint up again
and answers by what it finds: an endpoint whose start failed is wanted all the same, and one that
could not be stopped is released all the same. There is no answer when the process panics. -/

namespace Zettide.EndpointControl

open EndpointRegistry List Registry Option

inductive Request (φ : Type) where
  | ensure (spec : Spec) (outcomes : Outcomes φ)
  | inspect (endpointId : EndpointId)
  | list (outOfMemory : Bool)
  | release (endpointId : EndpointId) (outcomes : Outcomes φ)

inductive ApiError where
  | endpointNotFound
  | registry (error : RegistryError)
  deriving DecidableEq, Repr

/-- A line that is written to the client. -/
inductive Reply where
  | endpoint (view : View)
  | endpoints (views : List View)
  | released (stopping : Bool)
  | error (error : ApiError)
  deriving DecidableEq, Repr

def Reply.isEndpoint : Reply → Bool
  | .endpoint _ => true
  | _ => false

def Reply.isError : Reply → Bool
  | .error _ => true
  | _ => false

/-- The errors of `ensure` after which the endpoint is not looked up. The store has an error of the
same name as one of the registry. -/
def rejects : RegistryError → Bool
  | .endpointConflict | .poolBusy | .endpointStopping | .invalidEndpointSpec
  | .tooManyEndpoints | .store .tooManyEndpoints => true
  | _ => false

section

variable {σ φ : Type}

def inspect (registry : Registry σ) (endpointId : EndpointId) : Option View :=
  (registry.entries.find? fun entry =>
    entry.desired = true ∧ entry.spec.endpointId = endpointId).map viewOf

def dispatch (desired : DesiredStore σ φ) (registry : Registry σ) :
    Request φ → Registry σ × Option Reply
  | .ensure spec outcomes =>
    match registry.ensure desired spec outcomes with
    | (after, .ok view) => (after, some (.endpoint view))
    | (after, .error .panicked) => (after, none)
    | (after, .error e) =>
      if rejects e then (after, some (.error (.registry e)))
      else
        match inspect after spec.endpointId with
        | some view => (after, some (.endpoint view))
        | none => (after, some (.error (.registry e)))
  | .inspect endpointId =>
    match inspect registry endpointId with
    | some view => (registry, some (.endpoint view))
    | none => (registry, some (.error .endpointNotFound))
  | .list outOfMemory =>
    if outOfMemory then (registry, some (.error (.registry .outOfMemory)))
    else (registry, some (.endpoints ((desiredEntries registry.entries).map viewOf)))
  | .release endpointId outcomes =>
    match registry.release desired endpointId outcomes with
    | (after, .ok ()) => (after, some (.released false))
    | (after, .error e) =>
      match inspect after endpointId with
      | some _ => (after, some (.error (.registry e)))
      | none => (after, some (.released true))

variable {desired : DesiredStore σ φ} {registry after : Registry σ} {outcomes : Outcomes φ}
  {before behind : List Entry} {entry : Entry} {endpointId : EndpointId} {spec : Spec}

/-! ## Lookups -/

theorem inspect_eq_none : inspect registry endpointId = none ↔
    ∀ entry ∈ registry.entries, entry.desired = true → entry.spec.endpointId ≠ endpointId := by
  simp [inspect, find?_eq_none]

theorem mem_desiredSpecs {entries : List Entry} :
    spec ∈ desiredSpecs entries ↔ ∃ entry ∈ entries, entry.desired = true ∧ entry.spec = spec := by
  simp [desiredSpecs, desiredEntries, and_assoc]

/-- No other entry has the identifier of an entry. -/
theorem others_differ (h : Consistent (before ++ entry :: behind)) :
    ∀ other ∈ before ++ behind, other.spec.endpointId ≠ entry.spec.endpointId := by
  have hids := h.endpoints
  rw [map_append, map_cons, nodup_middle, ← map_append, nodup_cons] at hids
  exact fun other hother heq => hids.1 (mem_map.mpr ⟨other, hother, heq⟩)

/-! ## Ensure -/

/-- A start leaves the endpoint wanted, and does not end in an error that is not looked up. -/
theorem startBetween_wanted {result : Except RegistryError View} (hdesired : entry.desired = true)
    (h : registry.startBetween before entry behind outcomes = (after, result)) :
    entry.spec ∈ desiredSpecs after.entries ∧ ∀ e, result = .error e → rejects e = false := by
  constructor
  · simp only [startBetween, Prod.mk.injEq] at h
    rw [← h.1, mem_desiredSpecs]
    refine ⟨_, mem_append_right _ mem_cons_self, ?_⟩
    unfold startEntry
    split
    · exact ⟨hdesired, rfl⟩
    split
    · split <;> exact ⟨hdesired, rfl⟩
    · exact ⟨hdesired, rfl⟩
  · rintro e rfl
    rcases startBetween_error h with rfl | rfl | rfl | rfl <;> rfl

/-- The endpoint is wanted after the call, or it is not and nothing has changed. -/
theorem ensure_cases (hstore : desired.AllOrNothing) (hconsistent : Consistent registry.entries)
    {result : Except RegistryError View}
    (h : registry.ensure desired spec outcomes = (after, result)) :
    spec ∈ desiredSpecs after.entries ∧ (∀ e, result = .error e → rejects e = false) ∨
      spec ∉ desiredSpecs registry.entries ∧ after.entries = registry.entries ∧
        desired.load after.store = desired.load registry.store ∧
        ∃ e, result = .error e ∧ e ≠ .panicked ∧
          (rejects e = true ∨ inspect after spec.endpointId = none) := by
  unfold ensure at h
  cases hvalid : validateSpec spec with
  | error e =>
    rw [hvalid] at h
    cases h
    simp only [validateSpec, rejectIf_eq_error] at hvalid
    obtain ⟨hzero, rfl⟩ := hvalid
    refine .inr ⟨fun hmem => ?_, rfl, rfl, _, rfl, by simp, .inl rfl⟩
    obtain ⟨entry, hentry, -, rfl⟩ := mem_desiredSpecs.mp hmem
    have hkept := (hconsistent.kept entry hentry).valid
    simp only [validateSpec, rejectIf_eq_ok] at hkept
    exact hkept hzero
  | ok _ =>
    rw [hvalid] at h
    dsimp only at h
    split at h
    case h_1 entry behind hdrop =>
      obtain ⟨hentries, hmeets⟩ := split_at_first hdrop
      have hmem : entry ∈ registry.entries := by
        rw [hentries]
        simp
      -- no other entry can have the spec: it has the identifier and the pool of this one
      have hfound : spec ∈ desiredSpecs registry.entries →
          entry.desired = true ∧ entry.spec = spec := by
        intro hwanted
        obtain ⟨other, hother, hdesired, rfl⟩ := mem_desiredSpecs.mp hwanted
        have hsame : other = entry := by
          rcases (by simpa using hmeets : Meets other.spec entry) with hid | ⟨-, hpool⟩
          · exact inj_on_of_nodup_map hconsistent.endpoints hother hmem hid.symm
          · exact inj_on_of_nodup_map hconsistent.pools hother hmem hpool.symm
        exact hsame ▸ ⟨hdesired, rfl⟩
      split at h
      case isTrue hid =>
        cases h
        exact .inr ⟨fun hwanted => hid (by rw [(hfound hwanted).2]), rfl, rfl, _, rfl, by simp,
          .inl rfl⟩
      split at h
      case isTrue hreleased =>
        cases h
        exact .inr ⟨fun hwanted => by simp [(hfound hwanted).1] at hreleased, rfl, rfl, _, rfl,
          by simp, .inl rfl⟩
      case isFalse hdesired =>
      rw [Bool.not_eq_false] at hdesired
      split at h
      case isTrue hspec =>
        cases h
        exact .inr ⟨fun hwanted => hspec (hfound hwanted).2, rfl, rfl, _, rfl, by simp, .inl rfl⟩
      case isFalse hspec =>
      rw [not_not] at hspec
      subst hspec
      split at h
      · exact .inl (startBetween_wanted hdesired h)
      · cases h
        exact .inl ⟨mem_desiredSpecs.mpr ⟨entry, hmem, hdesired, rfl⟩, by simp⟩
    rename_i hdrop
    have hfresh : ∀ entry ∈ registry.entries, entry.spec.endpointId ≠ spec.endpointId := by
      intro entry hentry hid
      have hmeets := dropWhile_eq_nil_iff.mp hdrop entry hentry
      simp [Meets, hid] at hmeets
    have hnone : spec ∉ desiredSpecs registry.entries := by
      intro hwanted
      obtain ⟨entry, hentry, -, rfl⟩ := mem_desiredSpecs.mp hwanted
      exact hfresh entry hentry rfl
    split at h
    · cases h
      exact .inr ⟨hnone, rfl, rfl, _, rfl, by simp, .inl rfl⟩
    have hlookup : ∀ store : σ, inspect { registry with store := store } spec.endpointId = none :=
      fun store => inspect_eq_none.mpr fun entry hentry _ => hfresh entry hentry
    split at h
    · cases h
      exact .inr ⟨hnone, rfl, rfl, _, rfl, by simp, .inr (hlookup _)⟩
    split at h
    case h_1 store e hreplace =>
      cases h
      exact .inr ⟨hnone, rfl, hstore.refused _ _ _ _ _ hreplace, _, rfl, by simp, .inr (hlookup _)⟩
    case h_2 store hreplace =>
      exact .inl (startBetween_wanted (by rfl) h)

/-! ## Release -/

/-- The endpoint is gone; or it is wanted as before; or it is released and holds its instance. -/
def Released (endpointId : EndpointId) (after : Registry σ) (result : Except RegistryError Unit) :
    Prop :=
  (result = .ok () ∧ ∀ entry ∈ after.entries, entry.spec.endpointId ≠ endpointId) ∨
  (∃ e, result = .error e) ∧ ∃ entry ∈ after.entries, entry.spec.endpointId = endpointId ∧
    (entry.desired = true ∨ entry.runtime.isSome ∧ ∀ other ∈ after.entries,
      other.spec.endpointId = endpointId → other.desired = false)

variable {result : Except RegistryError Unit}

theorem stopBetween_settles
    (h : registry.stopBetween before entry behind outcomes = (after, result))
    (hreleased : entry.desired = false)
    (hothers : ∀ other ∈ before ++ behind, other.spec.endpointId ≠ entry.spec.endpointId) :
    Released entry.spec.endpointId after result := by
  unfold stopBetween at h
  split at h
  case h_1 backend stopped e hstop =>
    cases h
    obtain ⟨-, rfl, hsome⟩ := (stopEntry_stops hstop).failed e rfl
    refine .inr ⟨⟨e, rfl⟩, _, mem_append_right _ mem_cons_self, rfl, .inr ⟨hsome, ?_⟩⟩
    intro other hother hid
    rcases mem_append.mp hother with hbefore | hbehind
    · exact absurd hid (hothers other (mem_append_left _ hbefore))
    rcases mem_cons.mp hbehind with rfl | hbehind
    · exact hreleased
    · exact absurd hid (hothers other (mem_append_right _ hbehind))
  case h_2 =>
    cases h
    exact .inl ⟨rfl, hothers⟩

theorem release_released (hconsistent : Consistent registry.entries)
    (h : registry.release desired endpointId outcomes = (after, result)) :
    Released endpointId after result := by
  unfold release at h
  dsimp only at h
  split at h
  case h_1 hdrop =>
    cases h
    refine .inl ⟨rfl, fun entry hentry => ?_⟩
    simpa using dropWhile_eq_nil_iff.mp hdrop entry hentry
  rename_i entry behind hdrop
  obtain ⟨hentries, hid⟩ := split_at_first hdrop
  have hmem : entry ∈ registry.entries := by
    rw [hentries]
    simp
  obtain rfl : entry.spec.endpointId = endpointId := by simpa using hid
  rw [hentries] at hconsistent
  have hothers := others_differ hconsistent
  split at h
  case isTrue hreleased => exact stopBetween_settles h hreleased hothers
  case isFalse hdesired =>
  rw [Bool.not_eq_false] at hdesired
  split at h
  · cases h
    exact .inr ⟨⟨_, rfl⟩, entry, hmem, rfl, .inl hdesired⟩
  split at h
  · cases h
    exact .inr ⟨⟨_, rfl⟩, entry, hmem, rfl, .inl hdesired⟩
  · have hsettled := stopBetween_settles h rfl hothers
    exact hsettled

/-! ## Replies -/

theorem dispatch_ensure (hstore : desired.AllOrNothing) (hconsistent : Consistent registry.entries)
    {reply : Reply} (h : dispatch desired registry (.ensure spec outcomes) = (after, some reply)) :
    (reply.isEndpoint = true ↔ spec ∈ desiredSpecs after.entries) ∧
      (spec ∉ desiredSpecs after.entries → reply.isError = true ∧
        desiredSpecs after.entries = desiredSpecs registry.entries ∧
        desired.load after.store = desired.load registry.store) := by
  rcases hensure : registry.ensure desired spec outcomes with ⟨next, result⟩
  have hcases := ensure_cases hstore hconsistent hensure
  simp only [dispatch, hensure] at h
  rcases hcases with ⟨hwanted, hlooked⟩ | ⟨hnone, hentries, hload, e, rfl, hpanic, hreject⟩
  · have hfound : inspect next spec.endpointId ≠ none := by
      obtain ⟨entry, hentry, hdesired, rfl⟩ := mem_desiredSpecs.mp hwanted
      exact fun hlookup => inspect_eq_none.mp hlookup entry hentry hdesired rfl
    have hreply : after = next ∧ reply.isEndpoint = true := by
      cases result with
      | ok view =>
        obtain ⟨rfl, hreply⟩ := Prod.mk.inj h
        exact ⟨rfl, by simp [← some.inj hreply, Reply.isEndpoint]⟩
      | error e =>
        grind [Reply.isEndpoint]
    obtain ⟨rfl, hendpoint⟩ := hreply
    exact ⟨iff_of_true hendpoint hwanted, fun hnone => absurd hwanted hnone⟩
  · have hreply : after = next ∧ reply = .error (.registry e) := by
      grind
    obtain ⟨rfl, rfl⟩ := hreply
    rw [← hentries] at hnone
    exact ⟨iff_of_false (by simp [Reply.isEndpoint]) hnone, fun _ => ⟨rfl, by rw [hentries], hload⟩⟩

theorem dispatch_release (hconsistent : Consistent registry.entries) {reply : Option Reply}
    (h : dispatch desired registry (.release endpointId outcomes) = (after, reply)) :
    ((∃ stopping, reply = some (.released stopping)) ↔
        ∀ entry ∈ after.entries, entry.spec.endpointId = endpointId → entry.desired = false) ∧
      ∀ stopping, reply = some (.released stopping) → (stopping = true ↔
        ∃ entry ∈ after.entries, entry.spec.endpointId = endpointId ∧ entry.runtime.isSome) := by
  rcases hrelease : registry.release desired endpointId outcomes with ⟨next, result⟩
  have hcases := release_released hconsistent hrelease
  simp only [dispatch, hrelease] at h
  rcases hcases with ⟨rfl, hgone⟩ | ⟨⟨e, rfl⟩, entry, hentry, hid, hwanted | ⟨hheld, hall⟩⟩
  · cases h
    grind
  · have hfound : inspect next endpointId ≠ none :=
      fun hlookup => inspect_eq_none.mp hlookup entry hentry hwanted hid
    obtain ⟨view, hview⟩ := ne_none_iff_exists'.mp hfound
    dsimp only at h
    rw [hview] at h
    cases h
    grind
  · have hlookup : inspect next endpointId = none := by
      refine inspect_eq_none.mpr fun other hother hdesired hsame => ?_
      simp [hall other hother hsame] at hdesired
    dsimp only at h
    rw [hlookup] at h
    cases h
    grind

/-- **Replies are truthful.**  After every run of a registry, an `ensure` is answered with an
endpoint exactly when the endpoint is wanted from then on, and otherwise with an error and no change
of what is wanted; only a panic leaves it without an answer. A `release` is answered as done exactly
when the endpoint is not wanted from then on, and says whether its instance is still held. -/
theorem replies_truthful (hstore : desired.AllOrNothing) (store : σ) (ops : List (Op φ))
    (hlives : ((Process.start store).run desired ops).panicked = false) :
    let registry := ((Process.start store).run desired ops).registry
    (∀ spec outcomes after reply,
      dispatch desired registry (.ensure spec outcomes) = (after, some reply) →
        (reply.isEndpoint = true ↔ spec ∈ desiredSpecs after.entries) ∧
        (spec ∉ desiredSpecs after.entries → reply.isError = true ∧
          desiredSpecs after.entries = desiredSpecs registry.entries ∧
          desired.load after.store = desired.load registry.store)) ∧
    (∀ spec outcomes, (dispatch desired registry (.ensure spec outcomes)).2 = none →
      (registry.ensure desired spec outcomes).2 = .error .panicked) ∧
    ∀ endpointId outcomes after reply,
      dispatch desired registry (.release endpointId outcomes) = (after, reply) →
        ((∃ stopping, reply = some (.released stopping)) ↔
          ∀ entry ∈ after.entries, entry.spec.endpointId = endpointId → entry.desired = false) ∧
        ∀ stopping, reply = some (.released stopping) → (stopping = true ↔
          ∃ entry ∈ after.entries, entry.spec.endpointId = endpointId ∧ entry.runtime.isSome) := by
  intro registry
  have hconsistent : Consistent registry.entries :=
    (((Process.lives_start store).run ops).registry hlives).consistent
  refine ⟨fun spec outcomes after reply h => dispatch_ensure hstore hconsistent h,
    fun spec outcomes h => ?_, fun endpointId outcomes after reply h =>
      dispatch_release hconsistent h⟩
  unfold dispatch at h
  grind

end

/-- The first endpoint, whose start is rolled back, is wanted and shown. -/
theorem replies_truthful_first :
    let registry := ((Process.start []).run Process.memoryStore [.init]).registry
    let after := dispatch Process.memoryStore registry
      (.ensure Process.sampleSpec Process.rolledBack)
    after.2 = some (.endpoint ⟨Process.sampleSpec, .failed, none⟩) ∧
      Process.sampleSpec ∈ desiredSpecs after.1.entries := by
  refine ⟨by decide, ?_⟩
  exact ((replies_truthful Process.memoryStore_allOrNothing [] [.init] (by decide)).1
    Process.sampleSpec Process.rolledBack _ _ (Prod.ext rfl (by decide))).1.mp (by decide)

end Zettide.EndpointControl
