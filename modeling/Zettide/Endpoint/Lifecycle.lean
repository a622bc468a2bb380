import Zettide.Endpoint.Registry
import Mathlib.Data.List.Nodup
import Mathlib.Data.List.TakeWhile

/-! # The life of endpoints and of their instances

What holds in every run of a registry. Instances are accounted for like tokens: each one that was
started is held by one entry or was stopped once (`Ledger`), and no call can break this because it
only moves an instance from an entry to the stopped ones. Every call is described by what it does
to the wanted specs (`Effect`); what the store holds follows from that alone. -/

namespace Zettide.EndpointRegistry

open Except List Option Prod

/-! ## Accounts of instances -/

/-- The instance that an entry holds. -/
def held (entry : Entry) : List Nat := (entry.runtime.map Instance.handle).toList

def handles (entries : List Entry) : List Nat := entries.flatMap held

/-- Every instance that was started is held, stopped or lost, and only once. -/
def Ledger (backend : Backend) (kept lost : List Nat) : Prop :=
  ∀ handle, kept.count handle + backend.stopped.count handle + lost.count handle =
    if handle < backend.started then 1 else 0

@[simp] theorem handles_nil : handles [] = [] := rfl

@[simp] theorem handles_cons (entry : Entry) (rest : List Entry) :
    handles (entry :: rest) = held entry ++ handles rest := rfl

@[simp] theorem handles_append (first second : List Entry) :
    handles (first ++ second) = handles first ++ handles second := flatMap_append

variable {backend after : Backend} {entry entry' : Entry} {result : Except RegistryError Unit}
  {lost others : List Nat}

theorem held_of_none (h : entry.runtime = none) : held entry = [] := by
  simp [held, h]

/-- The order in which instances are held does not matter. -/
theorem Ledger.of_count {kept other : List Nat} (h : Ledger backend kept lost)
    (same : ∀ handle, other.count handle = kept.count handle) : Ledger backend other lost := by
  intro handle
  rw [same]
  exact h handle

/-- A new instance has the number of those that were started before. -/
theorem Ledger.start (h : Ledger backend others []) :
    Ledger { backend with started := backend.started + 1 } (others ++ [backend.started]) [] := by
  intro handle
  have hold := h handle
  rw [count_append, count_singleton]
  by_cases hhandle : handle = backend.started
  · subst hhandle
    simp at hold ⊢
    omega
  · have hne : (backend.started == handle) = false := by simpa using Ne.symm hhandle
    have hiff : handle < backend.started + 1 ↔ handle < backend.started := by omega
    simp only [hne, hiff, Bool.false_eq_true, if_false, Nat.add_zero]
    exact hold

/-! ## Entries -/

/-- What is true of every entry: an active one holds an instance, and a released one stays only as
long as it holds one. -/
structure Entry.Kept (entry : Entry) : Prop where
  valid : validateSpec entry.spec = .ok ()
  active : entry.phase = .active → entry.runtime.isSome
  released : entry.desired = false → entry.runtime.isSome

structure Consistent (entries : List Entry) : Prop where
  kept : ∀ entry ∈ entries, entry.Kept
  endpoints : (entries.map fun entry => entry.spec.endpointId).Nodup
  pools : (entries.map fun entry => entry.spec.poolId).Nodup
  count : desiredCount entries ≤ maxEndpointCount

@[simp] theorem desiredSpecs_append (first second : List Entry) :
    desiredSpecs (first ++ second) = desiredSpecs first ++ desiredSpecs second := by
  simp [desiredSpecs, desiredEntries]

theorem desiredSpecs_cons (entry : Entry) (rest : List Entry) : desiredSpecs (entry :: rest) =
      if entry.desired then entry.spec :: desiredSpecs rest else desiredSpecs rest := by
  unfold desiredSpecs desiredEntries
  rw [filter_cons]
  split <;> rfl

/-- Entries are gone only if they were not wanted, and the others have kept their specs. -/
structure Retains (before after : List Entry) : Prop where
  specs : (after.map Entry.spec).Sublist (before.map Entry.spec)
  desired : desiredSpecs after = desiredSpecs before

namespace Retains

theorem refl (entries : List Entry) : Retains entries entries := ⟨.refl _, rfl⟩

variable {after before : List Entry}

theorem cons (h : Retains before after)
    (spec : entry'.spec = entry.spec) (desired : entry'.desired = entry.desired) :
    Retains (entry :: before) (entry' :: after) := by
  constructor
  · rw [map_cons, map_cons, spec]
    exact h.specs.cons_cons _
  · rw [desiredSpecs_cons, desiredSpecs_cons, h.desired, spec, desired]

theorem drop (h : Retains before after)
    (released : entry.desired = false) : Retains (entry :: before) after := by
  constructor
  · exact h.specs.cons _
  · rw [desiredSpecs_cons, h.desired]
    simp [released]

theorem append_left (first : List Entry) (h : Retains before after) :
    Retains (first ++ before) (first ++ after) := by
  constructor
  · rw [map_append, map_append]
    exact h.specs.append_left _
  · rw [desiredSpecs_append, desiredSpecs_append, h.desired]

end Retains

/-- Entries stay consistent when some are dropped. -/
theorem Consistent.of_sublist {before after : List Entry} (h : Consistent before)
    (specs : (after.map Entry.spec).Sublist (before.map Entry.spec))
    (count : desiredCount after ≤ desiredCount before)
    (kept : ∀ entry ∈ after, entry.Kept) : Consistent after := by
  have hendpoints := specs.map Spec.endpointId
  have hpools := specs.map Spec.poolId
  simp only [List.map_map] at hendpoints hpools
  exact ⟨kept, hendpoints.nodup h.endpoints, hpools.nodup h.pools, count.trans h.count⟩

theorem Consistent.retain {before after : List Entry} (h : Consistent before)
    (retains : Retains before after) (kept : ∀ entry ∈ after, entry.Kept) : Consistent after :=
  h.of_sublist retains.specs (by rw [desiredCount, desiredCount, retains.desired]) kept

theorem Consistent.kept_between {before behind : List Entry} {entry : Entry}
    (h : Consistent (before ++ entry :: behind)) (hkept : entry'.Kept) :
    ∀ found ∈ before ++ entry' :: behind, found.Kept := by
  have hall := h.kept
  simp only [forall_mem_append, forall_mem_cons] at hall ⊢
  exact ⟨hall.1, hkept, hall.2.2⟩

/-! ## Starts and stops -/

/-- How a start ends. Nothing is lost unless the process panics. -/
structure Starts (backend after : Backend) (entry entry' : Entry)
    (result : Except RegistryError Unit) (lost : List Nat) : Prop where
  spec : entry'.spec = entry.spec
  desired : entry'.desired = entry.desired
  active : entry'.phase = .active → entry'.runtime.isSome
  nothingLost : result ≠ .error .panicked → lost = []
  ledger : ∀ others, Ledger backend others [] → Ledger after (others ++ held entry') lost

theorem startEntry_starts {start : StartOutcome} {rollsBack : Bool} (hnone : entry.runtime = none)
    (h : startEntry backend entry start rollsBack = (after, entry', result)) :
    ∃ lost, Starts backend after entry entry' result lost := by
  unfold startEntry at h
  cases start with
  | failed =>
    cases h
    refine ⟨[], rfl, rfl, by simp, fun _ => rfl, fun others hledger => ?_⟩
    rw [show held { entry with phase := .failed } = [] from held_of_none hnone, append_nil]
    exact hledger
  | started locator =>
    dsimp only at h
    cases hcheck : checkStarted entry.spec locator with
    | ok _ =>
      rw [hcheck] at h
      cases h
      exact ⟨[], rfl, rfl, by simp, fun _ => rfl, fun others hledger => hledger.start⟩
    | error e =>
      rw [hcheck] at h
      cases rollsBack with
      | true =>
        obtain ⟨rfl, rfl, rfl⟩ := h
        refine ⟨[], rfl, rfl, by simp, fun _ => rfl, fun others hledger handle => ?_⟩
        have := hledger.start handle
        rw [show held { entry with phase := .failed } = [] from held_of_none hnone]
        simp only [append_nil, count_append, count_nil] at this ⊢
        omega
      | false =>
        obtain ⟨rfl, rfl, rfl⟩ := h
        refine ⟨[backend.started], rfl, rfl, by simp, fun hne => absurd rfl hne,
          fun others hledger handle => ?_⟩
        have := hledger.start handle
        rw [show held { entry with phase := .pending } = [] from held_of_none hnone]
        simp only [append_nil, count_append, count_nil] at this ⊢
        omega

theorem Starts.kept (h : Starts backend after entry entry' result lost) (hentry : entry.Kept)
    (hnone : entry.runtime = none) : entry'.Kept := by
  refine ⟨by rw [h.spec]; exact hentry.valid, h.active, fun hreleased => ?_⟩
  -- an entry without an instance is wanted
  have hsome := hentry.released (h.desired ▸ hreleased)
  simp [hnone] at hsome

/-- How a stop ends: the entry holds its instance, or the instance is stopped. -/
structure Stops (backend after : Backend) (entry entry' : Entry)
    (result : Except RegistryError Unit) : Prop where
  spec : entry'.spec = entry.spec
  desired : entry'.desired = entry.desired
  done : result = .ok () → entry'.runtime = none
  failed : ∀ e, result = .error e → e = .stopFailed ∧ entry' = entry ∧ entry.runtime.isSome
  ledger : ∀ others, Ledger backend (others ++ held entry) [] →
    Ledger after (others ++ held entry') []

theorem stopEntry_stops {stops : Bool}
    (h : stopEntry backend entry stops = (after, entry', result)) :
    Stops backend after entry entry' result := by
  unfold stopEntry at h
  split at h
  case h_1 hnone =>
    cases h
    exact ⟨rfl, rfl, fun _ => hnone, fun e he => by simp at he, fun _ hledger => hledger⟩
  rename_i runtime hsome
  cases stops with
  | true =>
    obtain ⟨rfl, rfl, rfl⟩ := h
    refine ⟨rfl, rfl, fun _ => rfl, fun e he => by simp at he, fun others hledger handle => ?_⟩
    have := hledger handle
    simp only [held, hsome, map_some, toList_some, map_none,
      toList_none, append_nil, count_append] at this ⊢
    omega
  | false =>
    obtain ⟨rfl, rfl, rfl⟩ := h
    refine ⟨rfl, rfl, fun he => by simp at he, fun e he => ?_, fun _ hledger => hledger⟩
    rw [error.injEq] at he
    exact ⟨he.symm, rfl, by simp [hsome]⟩

/-! ## Calls -/

/-- A registry whose entries are consistent and hold all instances but the stopped and lost ones. -/
structure Sound {σ : Type} (registry : Registry σ) (lost : List Nat) : Prop where
  consistent : Consistent registry.entries
  ledger : Ledger registry.backend (handles registry.entries) lost

/-- How a replacement that the request makes ends. -/
def Request.fault {φ : Type} : Request φ → φ
  | .ensure _ outcomes => outcomes.replace
  | .release _ outcomes => outcomes.replace

namespace Registry

variable {σ φ : Type} {registry : Registry σ} {before behind : List Entry} {entry : Entry}
  {outcomes : Outcomes φ}

/-- What a start between other entries leaves. -/
structure Started (registry after : Registry σ) (entries : List Entry)
    (result : Except RegistryError View) : Prop where
  store : after.store = registry.store
  retains : Retains entries after.entries
  sound : ∃ lost, (result ≠ .error .panicked → lost = []) ∧ Sound after lost
  view : ∀ view, result = .ok view → ∃ entry ∈ after.entries, view = viewOf entry

variable {entries : List Entry} {result : Except RegistryError View}

theorem startBetween_started {after : Registry σ}
    (hconsistent : Consistent (before ++ entry :: behind)) (hnone : entry.runtime = none)
    (hledger : Ledger registry.backend (handles (before ++ behind)) [])
    (h : registry.startBetween before entry behind outcomes = (after, result)) :
    Started registry after (before ++ entry :: behind) result := by
  unfold startBetween at h
  split at h
  case h_1 backend entry' started hstart =>
    cases h
    obtain ⟨lost, hstarts⟩ := startEntry_starts hnone hstart
    have hretains : Retains (before ++ entry :: behind) (before ++ entry' :: behind) :=
      (Retains.refl behind).cons hstarts.spec hstarts.desired |>.append_left before
    have hkept : entry'.Kept := hstarts.kept (hconsistent.kept entry (by simp)) hnone
    refine ⟨rfl, hretains, ⟨lost, fun hne => hstarts.nothingLost ?_, ?_, ?_⟩, ?_⟩
    · rintro rfl
      exact hne rfl
    · exact hconsistent.retain hretains (hconsistent.kept_between hkept)
    · refine (hstarts.ledger _ hledger).of_count fun handle => ?_
      simp only [handles_append, handles_cons, count_append]
      omega
    · intro view hview
      cases started with
      | error e => simp [Except.map] at hview
      | ok _ =>
        refine ⟨entry', by simp, ?_⟩
        simpa [Except.map] using hview.symm

/-- What a call does to the wanted specs and to the store: nothing, a replacement, or an attempt at
one. -/
inductive Effect (desired : DesiredStore σ φ) (fault : φ) (registry after : Registry σ) :
    Option StoreError → Prop where
  | unchanged : after.store = registry.store →
      desiredSpecs after.entries = desiredSpecs registry.entries →
      Effect desired fault registry after none
  | replaced (specs : List Spec) :
      desired.replace registry.store fault specs = (after.store, .ok ()) →
      specs.length ≠ (desiredSpecs registry.entries).length →
      desiredSpecs after.entries = specs → Effect desired fault registry after none
  | refused (specs : List Spec) (error : StoreError) :
      desired.replace registry.store fault specs = (after.store, .error error) →
      specs.length ≠ (desiredSpecs registry.entries).length →
      after.backend = registry.backend → after.entries = registry.entries →
      Effect desired fault registry after (some error)

/-- The error of the store that a call returned. -/
def storeError {α : Type} : Except RegistryError α → Option StoreError
  | .error (.store e) => some e
  | _ => none

/-- What a call leaves. -/
structure Handled (desired : DesiredStore σ φ) (fault : φ) (registry after : Registry σ)
    (result : Except RegistryError (Option View)) : Prop where
  effect : Effect desired fault registry after (storeError result)
  sound : ∃ lost, (result ≠ .error .panicked → lost = []) ∧ Sound after lost
  view : ∀ view, result = .ok (some view) → ∃ entry ∈ after.entries, view = viewOf entry

variable {desired : DesiredStore σ φ} {e : RegistryError} {specs : List Spec} {spec : Spec}

section

variable (hsound : Sound registry [])
include hsound

/-- A call that returns at once leaves everything as it was. -/
theorem Handled.same {fault : φ}
    {result : Except RegistryError (Option View)} (hstore : storeError result = none)
    (hview : ∀ view, result = .ok (some view) → ∃ entry ∈ registry.entries, view = viewOf entry) :
    Handled desired fault registry registry result := by
  refine ⟨?_, ⟨[], fun _ => rfl, hsound⟩, hview⟩
  rw [hstore]
  exact .unchanged rfl rfl

theorem Handled.failed {fault : φ}
    (hstore : storeError (.error e : Except RegistryError (Option View)) = none) :
    Handled desired fault registry registry (.error e) :=
  .same hsound hstore fun view h => by simp at h

/-- A call whose replacement is refused changes nothing but the store. -/
theorem Handled.refused {fault : φ} {store : σ} {e : StoreError}
    (hreplace : desired.replace registry.store fault specs = (store, .error e))
    (hlength : specs.length ≠ (desiredSpecs registry.entries).length) :
    Handled desired fault registry { registry with store := store } (.error (.store e)) :=
  ⟨.refused specs e hreplace hlength rfl rfl, ⟨[], fun _ => rfl, hsound.consistent, hsound.ledger⟩,
    fun view h => by simp at h⟩

end

theorem Handled.of_started {fault : φ} {other after : Registry σ}
    (hstarted : Started other after entries result)
    (hstore : storeError (result.map some) = none)
    (heffect : Effect desired fault registry after none) :
    Handled desired fault registry after (result.map some) := by
  refine ⟨hstore ▸ heffect, ?_, fun view hview => ?_⟩
  · obtain ⟨lost, hlost, hafter⟩ := hstarted.sound
    refine ⟨lost, fun hne => hlost ?_, hafter⟩
    rintro rfl
    exact hne rfl
  · cases result with
    | error e => simp [Except.map] at hview
    | ok found => exact hstarted.view view (by simpa [Except.map] using hview)

/-- The errors of a start are those of the backend and of the check of what it started. -/
theorem startBetween_error {after : Registry σ}
    (h : registry.startBetween before entry behind outcomes = (after, .error e)) :
    e = .startFailed ∨ e = .frontendMismatch ∨ e = .invalidLocator ∨ e = .panicked := by
  have hchecked : ∀ (spec : Spec) (locator : Locator) (e : RegistryError),
      checkStarted spec locator = .error e → e = .frontendMismatch ∨ e = .invalidLocator := by
    intro spec locator e hcheck
    cases locator with
    | nvmeOfTcp nvme =>
      simp only [checkStarted, validateLocator, validateLocatorString, bind_eq_error,
        rejectIf_eq_error] at hcheck
      grind
  simp only [startBetween, startEntry, Prod.mk.injEq] at h
  obtain ⟨-, h⟩ := h
  split at h
  · simp_all [Except.map]
  split at h
  · rename_i hcheck
    have hcases := hchecked _ _ _ hcheck
    split at h
    · cases h
      exact .inr (hcases.imp_right .inl)
    · cases h
      simp
  · simp [Except.map] at h

theorem storeError_startBetween {after : Registry σ}
    (h : registry.startBetween before entry behind outcomes = (after, result)) :
    storeError (result.map some) = none := by
  cases result with
  | ok _ => rfl
  | error e => rcases startBetween_error h with rfl | rfl | rfl | rfl <;> rfl

theorem nodup_snoc {α : Type} {f : Entry → α} (h : (entries.map f).Nodup)
    (hnew : ∀ other ∈ entries, f other ≠ f entry) : ((entries ++ [entry]).map f).Nodup := by
  rw [map_append, map_singleton, nodup_append]
  refine ⟨h, by simp, fun a ha b hb => ?_⟩
  obtain ⟨other, hother, rfl⟩ := mem_map.mp ha
  rw [mem_singleton.mp hb]
  exact hnew other hother

theorem Consistent.pending (h : Consistent entries)
    (hvalid : validateSpec spec = .ok ()) (hfresh : ∀ entry ∈ entries, ¬ Meets spec entry)
    (hcount : desiredCount entries ≠ maxEndpointCount) :
    Consistent (entries ++ [pendingEntry spec]) := by
  refine ⟨?_, nodup_snoc h.endpoints fun entry hmem hsame => hfresh entry hmem (.inl hsame),
    nodup_snoc h.pools fun entry hmem hsame => hfresh entry hmem (.inr ⟨?_, hsame⟩), ?_⟩
  · rw [forall_mem_append, forall_mem_singleton]
    exact ⟨h.kept, hvalid, by simp [pendingEntry], by simp [pendingEntry]⟩
  · -- an entry that is not wanted still has an instance
    cases hdesired : entry.desired with
    | true => exact .inl rfl
    | false => exact .inr ((h.kept entry hmem).released hdesired)
  · have hle := h.count
    have hadded : desiredCount (entries ++ [pendingEntry spec]) = desiredCount entries + 1 := by
      simp [desiredCount, desiredSpecs, desiredEntries, pendingEntry]
    omega

/-- The entry that ends a search, between those that it passes and those behind. -/
theorem split_at_first {p : Entry → Bool} (h : entries.dropWhile p = entry :: behind) :
    entries = entries.takeWhile p ++ entry :: behind ∧ p entry = false := by
  constructor
  · rw [← h]
    exact takeWhile_append_dropWhile.symm
  · have hhead := head_dropWhile_not p (l := entries) (by simp [h])
    simpa [h] using hhead

theorem ensure_handled (hsound : Sound registry []) {after : Registry σ}
    (h : registry.ensure desired spec outcomes = (after, result)) :
    Handled desired outcomes.replace registry after (result.map some) := by
  unfold ensure at h
  cases hvalid : validateSpec spec with
  | error e =>
    rw [hvalid] at h
    cases h
    refine .failed hsound ?_
    simp only [validateSpec, rejectIf_eq_error] at hvalid
    rw [← hvalid.2]
    rfl
  | ok _ =>
    rw [hvalid] at h
    dsimp only at h
    split at h
    case h_1 entry behind hdrop =>
      obtain ⟨hentries, -⟩ := split_at_first hdrop
      have hmem : entry ∈ registry.entries := by
        rw [hentries]
        simp
      split at h
      · cases h
        exact .failed hsound rfl
      split at h
      · cases h
        exact .failed hsound rfl
      split at h
      · cases h
        exact .failed hsound rfl
      split at h
      · -- the endpoint is known but not running
        rename_i hnone
        have hconsistent := hsound.consistent
        have hledger := hsound.ledger
        rw [hentries] at hconsistent hledger
        have hothers : Ledger registry.backend (handles
            ((registry.entries.takeWhile fun entry => ¬ Meets spec entry) ++ behind)) [] := by
          refine hledger.of_count fun handle => ?_
          simp [held_of_none hnone]
        have hstarted := startBetween_started hconsistent hnone hothers h
        refine .of_started hstarted (storeError_startBetween h) (.unchanged hstarted.store ?_)
        rw [hstarted.retains.desired, ← hentries]
      · cases h
        refine .same hsound rfl fun view hview => ⟨entry, hmem, ?_⟩
        simpa [Except.map] using hview.symm
    rename_i hdrop
    have hfresh : ∀ entry ∈ registry.entries, ¬ Meets spec entry := by
      intro entry hentry
      simpa using dropWhile_eq_nil_iff.mp hdrop entry hentry
    split at h
    · cases h
      exact .failed hsound rfl
    rename_i hcount
    split at h
    · cases h
      exact .failed hsound rfl
    have hlength : (desiredSpecs registry.entries ++ [spec]).length ≠
        (desiredSpecs registry.entries).length := by simp
    split at h
    case h_1 store e hreplace =>
      cases h
      exact .refused hsound hreplace hlength
    rename_i store hreplace
    have hconsistent := Consistent.pending hsound.consistent hvalid hfresh hcount
    have hothers : Ledger ({ registry with store := store } : Registry σ).backend
        (handles (registry.entries ++ [])) [] := by
      rw [append_nil]
      exact hsound.ledger
    have hstarted := startBetween_started hconsistent rfl hothers h
    refine .of_started hstarted (storeError_startBetween h) (.replaced _ ?_ hlength ?_)
    · rw [hstarted.store]
      exact hreplace
    · rw [hstarted.retains.desired, desiredSpecs_append]
      rfl

/-- What the end of a release leaves. `original` is the entry before it was released. -/
theorem stopBetween_released {original : Entry} {after : Registry σ}
    {result : Except RegistryError Unit} (hconsistent : Consistent (before ++ original :: behind))
    (hspec : entry.spec = original.spec) (hreleased : entry.desired = false)
    (hruntime : entry.runtime = original.runtime)
    (hledger : Ledger registry.backend (handles (before ++ original :: behind)) [])
    (h : registry.stopBetween before entry behind outcomes = (after, result)) :
    after.store = registry.store ∧
      desiredSpecs after.entries = desiredSpecs (before ++ behind) ∧ Sound after [] ∧
      ∀ e, result = .error e → e = .stopFailed := by
  have hcount : (desiredSpecs (before ++ behind)).length ≤
      (desiredSpecs (before ++ original :: behind)).length := by
    rw [desiredSpecs_append, desiredSpecs_append, desiredSpecs_cons]
    split <;> simp
  have hheld : held entry = held original := by rw [held, held, hruntime]
  have hothers : Ledger registry.backend (handles (before ++ behind) ++ held entry) [] := by
    refine hledger.of_count fun handle => ?_
    simp only [handles_append, handles_cons, count_append, hheld]
    omega
  unfold stopBetween at h
  split at h
  case h_1 backend stopped e hstop =>
    cases h
    have hstops := stopEntry_stops hstop
    obtain ⟨rfl, rfl, hsome⟩ := hstops.failed e rfl
    have hdesired : desiredSpecs (before ++ { stopped with phase := .stopping } :: behind) =
        desiredSpecs (before ++ behind) := by
      rw [desiredSpecs_append, desiredSpecs_cons, if_neg (by simp [hreleased]), desiredSpecs_append]
    refine ⟨rfl, hdesired, ⟨hconsistent.of_sublist ?_ ?_ (hconsistent.kept_between ?_), ?_⟩,
      fun _ he => (error.inj he).symm⟩
    · simp [hspec]
    · rw [desiredCount, hdesired]
      exact hcount
    · refine ⟨?_, fun hactive => by simp at hactive, fun _ => hsome⟩
      show validateSpec stopped.spec = .ok ()
      rw [hspec]
      exact (hconsistent.kept original (by simp)).valid
    · refine (hstops.ledger _ hothers).of_count fun handle => ?_
      have hsame : held { stopped with phase := .stopping } = held stopped := rfl
      simp only [handles_append, handles_cons, count_append, hsame]
      omega
  rename_i backend stopped hstop
  cases h
  have hstops := stopEntry_stops hstop
  have hkept := hconsistent.kept
  simp only [forall_mem_append, forall_mem_cons] at hkept
  refine ⟨rfl, rfl, ⟨hconsistent.of_sublist ?_ hcount
    (forall_mem_append.mpr ⟨hkept.1, hkept.2.2⟩), ?_⟩,
    fun e he => by simp at he⟩
  · rw [map_append, map_append, map_cons]
    exact (sublist_cons_self _ _).append_left _
  · have hafter := hstops.ledger _ hothers
    rw [held_of_none (hstops.done rfl), append_nil] at hafter
    exact hafter

theorem Handled.of_released {fault : φ} {after : Registry σ} {result : Except RegistryError Unit}
    (hsound : Sound after []) (hfailed : ∀ e, result = .error e → e = .stopFailed)
    (heffect : Effect desired fault registry after none) :
    Handled desired fault registry after (result.map fun _ => none) := by
  cases result with
  | error e =>
    obtain rfl := hfailed e rfl
    exact ⟨heffect, ⟨[], fun _ => rfl, hsound⟩, fun view h => by simp [Except.map] at h⟩
  | ok _ => exact ⟨heffect, ⟨[], fun _ => rfl, hsound⟩, fun view h => by simp [Except.map] at h⟩

theorem release_handled (hsound : Sound registry []) {endpointId : EndpointId}
    {after : Registry σ} {result : Except RegistryError Unit}
    (h : registry.release desired endpointId outcomes = (after, result)) :
    Handled desired outcomes.replace registry after (result.map fun _ => none) := by
  unfold release at h
  dsimp only at h
  split at h
  case h_1 =>
    cases h
    exact .same hsound rfl fun view hview => by simp [Except.map] at hview
  rename_i entry behind hdrop
  obtain ⟨hentries, -⟩ := split_at_first hdrop
  have hconsistent := hsound.consistent
  have hledger := hsound.ledger
  rw [hentries] at hconsistent hledger
  split at h
  · -- an earlier release could not stop the instance
    rename_i hreleased
    obtain ⟨hstore, hdesired, hafter, hfailed⟩ :=
      stopBetween_released hconsistent rfl hreleased rfl hledger h
    refine .of_released hafter hfailed (.unchanged hstore ?_)
    rw [hdesired, hentries, desiredSpecs_append, desiredSpecs_append, desiredSpecs_cons,
      if_neg (by simp [hreleased]), ← hentries]
  rename_i hwanted
  rw [Bool.not_eq_false] at hwanted
  split at h
  · cases h
    exact .failed hsound rfl
  have hspecs : desiredSpecs registry.entries =
      desiredSpecs (registry.entries.takeWhile fun entry => entry.spec.endpointId ≠ endpointId) ++
        entry.spec :: desiredSpecs behind := by
    conv_lhs => rw [hentries]
    rw [desiredSpecs_append, desiredSpecs_cons, if_pos hwanted]
  have hlength : (desiredSpecs ((registry.entries.takeWhile fun entry =>
      entry.spec.endpointId ≠ endpointId) ++ behind)).length ≠
      (desiredSpecs registry.entries).length := by
    rw [hspecs, desiredSpecs_append, length_append, length_append, length_cons]
    omega
  split at h
  case h_1 store e hreplace =>
    cases h
    exact .refused hsound hreplace hlength
  rename_i store hreplace
  have hkept : Ledger ({ registry with store := store } : Registry σ).backend
      (handles ((registry.entries.takeWhile fun entry =>
        entry.spec.endpointId ≠ endpointId) ++ entry :: behind)) [] := hledger
  obtain ⟨hstore, hdesired, hafter, hfailed⟩ :=
    stopBetween_released hconsistent (by rfl) (by rfl) (by rfl) hkept h
  refine .of_released hafter hfailed (.replaced _ ?_ hlength hdesired)
  rw [hstore]
  exact hreplace

theorem handle_handled (hsound : Sound registry []) {request : Request φ} {after : Registry σ}
    {result : Except RegistryError (Option View)}
    (h : registry.handle desired request = (after, result)) :
    Handled desired request.fault registry after result := by
  cases request with
  | ensure spec outcomes =>
    rcases hensure : registry.ensure desired spec outcomes with ⟨next, answer⟩
    simp only [handle, hensure, Prod.mk.injEq] at h
    obtain ⟨rfl, rfl⟩ := h
    exact ensure_handled hsound hensure
  | release endpointId outcomes =>
    rcases hrelease : registry.release desired endpointId outcomes with ⟨next, answer⟩
    simp only [handle, hrelease, Prod.mk.injEq] at h
    obtain ⟨rfl, rfl⟩ := h
    exact release_handled hsound hrelease

/-! ## Loops over all entries -/

/-- What a loop leaves of the entries behind those that it has passed. `others` are the instances
that the passed ones hold. -/
structure Looped (backend after : Backend) (entries entries' : List Entry) (lost : List Nat) :
    Prop where
  retains : Retains entries entries'
  kept : ∀ entry ∈ entries', entry.Kept
  ledger : ∀ others, Ledger backend (others ++ handles entries) [] →
    Ledger after (others ++ handles entries') lost

/-- The instance of an entry that is settled, and the loop over the entries behind it. -/
theorem ledger_cons {settled : Backend} {first : Entry} {rest rest' : List Entry} {moved : List Nat}
    (hmoves : ∀ others, Ledger backend (others ++ held entry) [] →
      Ledger settled (others ++ held first) moved)
    (hloop : ∀ others, Ledger settled (others ++ handles rest) moved →
      Ledger after (others ++ handles rest') lost)
    (h : Ledger backend (others ++ handles (entry :: rest)) []) :
    Ledger after (others ++ (held first ++ handles rest')) lost := by
  have hbefore : Ledger backend ((others ++ handles rest) ++ held entry) [] := by
    refine h.of_count fun handle => ?_
    simp only [handles_cons, count_append]
    omega
  have hbehind : Ledger settled ((others ++ held first) ++ handles rest) moved := by
    refine (hmoves _ hbefore).of_count fun handle => ?_
    simp only [count_append]
    omega
  rw [← append_assoc]
  exact hloop _ hbehind

theorem reconcileEntries_looped : ∀ {backend after : Backend} {entries' : List Entry}
      {result : Except RegistryError ReconcileResult},
      (∀ entry ∈ entries, entry.Kept) →
      reconcileEntries outcomes backend entries = (after, entries', result) →
      ∃ lost, (result ≠ .error .panicked → lost = []) ∧
        Looped backend after entries entries' lost := by
  induction entries with
  | nil =>
    intro backend after entries' result _ h
    obtain ⟨rfl, rfl, rfl⟩ := h
    exact ⟨[], fun _ => rfl, .refl _, by simp, fun _ hledger => hledger⟩
  | cons entry rest ih =>
    intro backend after entries' result hkept h
    obtain ⟨hentry, hrest⟩ := forall_mem_cons.mp hkept
    unfold reconcileEntries at h
    split at h
    case isTrue =>
      rcases hloop : reconcileEntries outcomes backend rest with ⟨last, rest', count⟩
      simp only [hloop, Prod.mk.injEq] at h
      obtain ⟨rfl, rfl, rfl⟩ := h
      obtain ⟨lost, hlost, hlooped⟩ := ih hrest hloop
      exact ⟨lost, hlost, hlooped.retains.cons rfl rfl, forall_mem_cons.mpr ⟨hentry, hlooped.kept⟩,
        fun _ => ledger_cons (fun _ hledger => hledger) hlooped.ledger⟩
    rename_i hidle
    have hnone : entry.runtime = none := by
      rw [not_or] at hidle
      simpa using hidle.2
    rcases hstart : startEntry backend entry (outcomes.start entry.spec.endpointId)
      (outcomes.rollsBack entry.spec.endpointId) with ⟨settled, first, answer⟩
    obtain ⟨lost, hstarts⟩ := startEntry_starts hnone hstart
    have hfirst := hstarts.kept hentry hnone
    have hmoves : ∀ others, Ledger backend (others ++ held entry) [] →
        Ledger settled (others ++ held first) lost := by
      intro others hledger
      rw [held_of_none hnone, append_nil] at hledger
      exact hstarts.ledger others hledger
    rw [hstart] at h
    by_cases hpanic : answer = .error .panicked
    · -- the loop ends
      subst hpanic
      cases h
      exact ⟨lost, fun hne => absurd rfl hne, (Retains.refl rest).cons hstarts.spec hstarts.desired,
        forall_mem_cons.mpr ⟨hfirst, hrest⟩, fun _ => ledger_cons hmoves fun _ hledger => hledger⟩
    obtain rfl := hstarts.nothingLost hpanic
    rcases hloop : reconcileEntries outcomes settled rest with ⟨last, rest', count⟩
    have hcount : after = last ∧ entries' = first :: rest' ∧
        (count = .error .panicked → result = .error .panicked) := by
      cases answer with
      | ok _ =>
        simp only [hloop, Prod.mk.injEq] at h
        exact ⟨h.1.symm, h.2.1.symm, fun hcount => by rw [← h.2.2, hcount]; rfl⟩
      | error e =>
        cases e with
        | panicked => exact absurd rfl hpanic
        | _ =>
          simp only [hloop, Prod.mk.injEq] at h
          exact ⟨h.1.symm, h.2.1.symm, fun hcount => by rw [← h.2.2, hcount]; rfl⟩
    obtain ⟨rfl, rfl, hresult⟩ := hcount
    obtain ⟨lost, hlost, hlooped⟩ := ih hrest hloop
    exact ⟨lost, fun hne => hlost fun hcount => hne (hresult hcount),
      hlooped.retains.cons hstarts.spec hstarts.desired,
      forall_mem_cons.mpr ⟨hfirst, hlooped.kept⟩, fun _ => ledger_cons hmoves hlooped.ledger⟩

theorem shutdownEntries_looped :
    ∀ {backend after : Backend} {entries' : List Entry} {result : Except RegistryError Unit},
      (∀ entry ∈ entries, entry.Kept) →
      shutdownEntries outcomes backend entries = (after, entries', result) →
      Looped backend after entries entries' [] ∧ result ≠ .error .panicked ∧
        (result = .ok () → handles entries' = []) := by
  induction entries with
  | nil =>
    intro backend after entries' result _ h
    obtain ⟨rfl, rfl, rfl⟩ := h
    exact ⟨⟨.refl _, by simp, fun _ hledger => hledger⟩, by simp, fun _ => rfl⟩
  | cons entry rest ih =>
    intro backend after entries' result hkept h
    obtain ⟨hentry, hrest⟩ := forall_mem_cons.mp hkept
    rcases hstop : stopEntry backend entry (outcomes.stops entry.spec.endpointId) with
      ⟨settled, first, answer⟩
    have hstops := stopEntry_stops hstop
    rcases hloop : shutdownEntries outcomes settled rest with ⟨last, rest', count⟩
    obtain ⟨hlooped, hcount, hempty⟩ := ih hrest hloop
    unfold shutdownEntries at h
    rw [hstop] at h
    cases answer with
    | error e =>
      obtain ⟨rfl, rfl, hsome⟩ := hstops.failed e rfl
      simp only [hloop, Prod.mk.injEq] at h
      obtain ⟨rfl, rfl, rfl⟩ := h
      exact ⟨⟨hlooped.retains.cons rfl rfl, forall_mem_cons.mpr
          ⟨⟨hentry.valid, fun _ => hsome, fun _ => hsome⟩, hlooped.kept⟩,
        fun _ => ledger_cons hstops.ledger hlooped.ledger⟩, by simp, fun hok => by simp at hok⟩
    | ok _ =>
      have hnone : first.runtime = none := hstops.done rfl
      simp only [hloop, Prod.mk.injEq] at h
      obtain ⟨rfl, rfl, rfl⟩ := h
      cases hdesired : first.desired with
      | true =>
        rw [if_pos rfl]
        refine ⟨⟨hlooped.retains.cons hstops.spec (hdesired.symm.trans hstops.desired),
          forall_mem_cons.mpr ⟨⟨?_, fun hactive => by simp at hactive,
            fun hreleased => by simp at hreleased⟩, hlooped.kept⟩,
          fun _ => ledger_cons hstops.ledger hlooped.ledger⟩, hcount, fun hok => ?_⟩
        · show validateSpec first.spec = .ok ()
          rw [hstops.spec]
          exact hentry.valid
        · rw [handles_cons, hempty hok, append_nil]
          exact held_of_none hnone
      | false =>
        refine ⟨⟨hlooped.retains.drop (hstops.desired ▸ hdesired), hlooped.kept,
          fun others hbefore => ?_⟩, hcount, hempty⟩
        have hafter := ledger_cons hstops.ledger hlooped.ledger hbefore
        rwa [held_of_none hnone, nil_append] at hafter

/-- Neither the endpoint nor the pool of one spec is that of the other. -/
def Apart (other spec : Spec) : Prop :=
  other.endpointId ≠ spec.endpointId ∧ other.poolId ≠ spec.poolId

/-- The specs that pass the loop are valid and apart, also from those already seen. -/
theorem validateSpecs_eq_ok : ∀ {previous : List Spec},
    validateSpecs previous specs = .ok () ↔ (∀ spec ∈ specs, validateSpec spec = .ok ()) ∧
      specs.Pairwise Apart ∧ ∀ spec ∈ specs, ∀ other ∈ previous, Apart other spec := by
  induction specs with
  | nil => simp [validateSpecs]
  | cons spec rest ih =>
    intro previous
    have hstep : validateSpecs previous (spec :: rest) = .ok () ↔
        validateSpec spec = .ok () ∧ (∀ other ∈ previous, Apart other spec) ∧
          validateSpecs (previous ++ [spec]) rest = .ok () := by
      simp only [validateSpecs, ok_iff, value_eq_some, Apart, not_exists, not_and, not_or, ne_eq]
    rw [hstep, ih, pairwise_cons]
    simp only [forall_mem_cons, forall_mem_append, imp_and, forall_and]
    constructor
    · rintro ⟨hspec, hprevious, hvalid, hrest, hlater, hfirst, -⟩
      exact ⟨⟨hspec, hvalid⟩, ⟨hfirst, hrest⟩, hprevious, hlater⟩
    · rintro ⟨⟨hspec, hvalid⟩, ⟨hfirst, hrest⟩, hprevious, hlater⟩
      exact ⟨hspec, hprevious, hvalid, hrest, hlater, hfirst, by simp⟩

theorem Sound.looped (hsound : Sound registry [])
    (hlooped : Looped registry.backend after registry.entries entries lost) :
    Sound ({ registry with backend := after, entries := entries } : Registry σ) lost :=
  ⟨hsound.consistent.retain hlooped.retains hlooped.kept, hlooped.ledger [] hsound.ledger⟩

theorem init_consistent {store : σ} (h : init desired store = .ok entries) :
    Consistent entries ∧ handles entries = [] ∧ desired.load store = .ok (desiredSpecs entries) ∧
      entries = (desiredSpecs entries).map pendingEntry := by
  simp only [init, ok_iff, not_lt] at h
  obtain ⟨specs, hload, hcount, hspecs, rfl⟩ := h
  have hdesired : desiredSpecs (specs.map pendingEntry) = specs := by
    unfold desiredSpecs desiredEntries
    rw [List.filter_eq_self.mpr (by simp [pendingEntry]), List.map_map]
    exact List.map_id specs
  obtain ⟨hvalid, hdistinct, -⟩ := validateSpecs_eq_ok.mp hspecs
  refine ⟨⟨fun entry hentry => ?_, ?_, ?_, ?_⟩, ?_, by rw [hdesired, hload], by rw [hdesired]⟩
  · obtain ⟨spec, hspec, rfl⟩ := List.mem_map.mp hentry
    exact ⟨hvalid spec hspec, by simp [pendingEntry], by simp [pendingEntry]⟩
  · rw [List.map_map]
    exact List.pairwise_map.mpr (hdistinct.imp fun hapart => hapart.1)
  · rw [List.map_map]
    exact List.pairwise_map.mpr (hdistinct.imp fun hapart => hapart.2)
  · rw [desiredCount, hdesired]
    exact hcount
  · refine flatMap_eq_nil_iff.mpr fun entry hentry => ?_
    obtain ⟨spec, -, rfl⟩ := mem_map.mp hentry
    rfl

end Registry

end Zettide.EndpointRegistry
