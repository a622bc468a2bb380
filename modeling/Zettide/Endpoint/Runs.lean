import Zettide.Endpoint.Lifecycle

/-! # Runs of a registry

What holds after every call of a process, from its start on: `Lives.perform` is the step and
`Lives.run` the induction. What the store holds is a separate invariant, because it needs a store
that replaces its contents as a whole or not at all. -/

namespace Zettide.EndpointRegistry

open List Registry Sound Option

/-- A replacement is done as a whole, or changes nothing. -/
structure DesiredStore.AllOrNothing {σ φ : Type} (desired : DesiredStore σ φ) : Prop where
  done : ∀ store fault specs after, desired.replace store fault specs = (after, .ok ()) →
    desired.load after = .ok specs
  refused : ∀ store fault specs after e, desired.replace store fault specs = (after, .error e) →
    desired.load after = desired.load store

/-- The instance was started and not stopped. -/
def Backend.Runs (backend : Backend) (handle : Nat) : Prop :=
  handle < backend.started ∧ handle ∉ backend.stopped

namespace Process

section

variable {σ φ : Type} {desired : DesiredStore σ φ} {process : Process σ}

/-- What holds of every process. -/
structure Lives (process : Process σ) : Prop where
  closed : process.opened = false → process.registry.entries = []
  sound : ∃ lost, (process.panicked = false → lost = []) ∧ Sound process.registry lost

/-- An open registry has the specs that the store has. -/
def Stored (desired : DesiredStore σ φ) (process : Process σ) : Prop := process.opened = true →
    desired.load process.registry.store = .ok (desiredSpecs process.registry.entries)

theorem lives_start (store : σ) : (start store).Lives := by
  refine ⟨fun _ => rfl, [], fun _ => rfl, ⟨by simp [start], ?_, ?_, ?_⟩, fun handle => ?_⟩
  · exact nodup_nil
  · exact nodup_nil
  · simp [start, desiredCount, desiredSpecs, desiredEntries]
  · simp [start]

@[simp] theorem after_registry {α : Type} (process : Process σ)
    (answer : Registry σ × Except RegistryError α) :
    (process.after answer).registry = answer.1 := by
  unfold after
  split <;> rfl

@[simp] theorem after_opened {α : Type} (process : Process σ)
    (answer : Registry σ × Except RegistryError α) :
    (process.after answer).opened = process.opened := by
  unfold after
  split <;> rfl

theorem after_panicked {α : Type} {process : Process σ}
    {answer : Registry σ × Except RegistryError α}
    (h : (process.after answer).panicked = false) : answer.2 ≠ .error .panicked := by
  intro hpanic
  obtain ⟨registry, result⟩ := answer
  subst hpanic
  simp [after] at h

/-- The process after a call that leaves its registry sound. -/
theorem Lives.after {α : Type} {answer : Registry σ × Except RegistryError α}
    (hopened : process.opened = true)
    (hsound : ∃ lost, (answer.2 ≠ .error .panicked → lost = []) ∧ Sound answer.1 lost) :
    (process.after answer).Lives := by
  obtain ⟨lost, hlost, hsound⟩ := hsound
  refine ⟨fun hclosed => ?_, lost, fun hpanicked => ?_, ?_⟩
  · rw [after_opened, hopened] at hclosed
    cases hclosed
  · exact hlost (after_panicked hpanicked)
  · rw [after_registry]
    exact hsound

theorem Lives.registry (h : process.Lives) (hprocess : process.panicked = false) :
    Sound process.registry [] := by
  obtain ⟨lost, hlost, hsound⟩ := h.sound
  exact hlost hprocess ▸ hsound

theorem reconcile_left (h : Sound process.registry []) (outcomes : Outcomes φ) :
    let answer := process.registry.reconcile outcomes
    (∃ lost, (answer.2 ≠ .error .panicked → lost = []) ∧ Sound answer.1 lost) ∧
      answer.1.store = process.registry.store ∧
      desiredSpecs answer.1.entries = desiredSpecs process.registry.entries := by
  rcases hloop : reconcileEntries outcomes process.registry.backend
    process.registry.entries with ⟨after, entries, result⟩
  obtain ⟨lost, hlost, hlooped⟩ := reconcileEntries_looped h.consistent.kept hloop
  simp only [reconcile, hloop]
  exact ⟨⟨lost, hlost, looped h hlooped⟩, trivial, hlooped.retains.desired⟩

/-- Nothing is held after a shutdown without errors. -/
theorem shutdown_left (h : Sound process.registry []) (outcomes : Outcomes φ) :
    let answer := process.registry.shutdown outcomes
    Sound answer.1 [] ∧ answer.1.store = process.registry.store ∧
      desiredSpecs answer.1.entries = desiredSpecs process.registry.entries ∧
      (answer.2 = .ok () → handles answer.1.entries = []) := by
  rcases hloop : shutdownEntries outcomes process.registry.backend
    process.registry.entries with ⟨after, entries, result⟩
  obtain ⟨hlooped, -, hempty⟩ := shutdownEntries_looped h.consistent.kept hloop
  simp only [shutdown, hloop]
  exact ⟨looped h hlooped, trivial, hlooped.retains.desired, hempty⟩

/-- What a call can do to a process. -/
inductive Performed (desired : DesiredStore σ φ) (process : Process σ) : Process σ → Prop where
  | same : Performed desired process process
  | opened {entries : List Entry} : process.opened = false →
      init desired process.registry.store = .ok entries →
      Performed desired process
        { process with registry := { process.registry with entries := entries }, opened := true }
  | called {α : Type} {answer : Registry σ × Except RegistryError α} {e : Option StoreError}
      (fault : φ) : process.opened = true →
      Effect desired fault process.registry answer.1 e →
      (∃ lost, (answer.2 ≠ .error .panicked → lost = []) ∧ Sound answer.1 lost) →
      Performed desired process (process.after answer)
  | closed : (∀ entry ∈ process.registry.entries, entry.runtime = none) →
      Performed desired process
        { process with registry := { process.registry with entries := [] }, opened := false }

theorem Lives.performed (h : process.Lives) (op : Op φ) :
    Performed desired process (process.perform desired op) := by
  unfold Process.perform
  by_cases hpanicked : process.panicked = true
  · rw [if_pos hpanicked]
    exact .same
  rw [if_neg hpanicked]
  have hsound := h.registry (by simpa using hpanicked)
  cases hopened : process.opened with
  | false =>
    cases op with
    | init =>
      dsimp only
      split
      · exact .same
      · exact .opened hopened ‹_›
    | _ => exact .same
  | true =>
    cases op with
    | init => exact .same
    | handle request =>
      exact .called request.fault hopened (handle_handled hsound rfl).effect
        (handle_handled hsound rfl).sound
    | reconcile outcomes =>
      obtain ⟨hafter, hstore, hspecs⟩ := reconcile_left hsound outcomes
      exact .called outcomes.replace hopened (.unchanged hstore hspecs) hafter
    | shutdown outcomes =>
      obtain ⟨hafter, hstore, hspecs, -⟩ := shutdown_left hsound outcomes
      exact .called outcomes.replace hopened (.unchanged hstore hspecs) ⟨[], fun _ => rfl, hafter⟩
    | deinit =>
      dsimp only
      split
      · exact .closed ‹_›
      · exact .same

theorem Performed.lives {after : Process σ} (step : Performed desired process after)
    (h : process.Lives) : after.Lives := by
  obtain ⟨lost, hlost, hsound⟩ := h.sound
  have hledger := hsound.ledger
  cases step with
  | same => exact h
  | opened hclosed hinit =>
    obtain ⟨hconsistent, hnone, -⟩ := init_consistent hinit
    refine ⟨fun hopen => by simp at hopen, lost, hlost, hconsistent, ?_⟩
    -- a registry that is not open holds nothing
    rw [h.closed hclosed] at hledger
    rw [hnone]
    exact hledger
  | called _ hopened _ hafter => exact .after hopened hafter
  | closed hidle =>
    have hnone : handles process.registry.entries = [] :=
      flatMap_eq_nil_iff.mpr fun entry hentry => held_of_none (hidle entry hentry)
    rw [hnone] at hledger
    refine ⟨fun _ => rfl, lost, hlost, ⟨by simp, by simp, by simp, ?_⟩, hledger⟩
    simp [desiredCount, desiredSpecs, desiredEntries]

theorem Lives.perform (h : process.Lives) (op : Op φ) : (process.perform desired op).Lives :=
  (h.performed op).lives h

theorem run_append (process : Process σ) (first second : List (Op φ)) :
    process.run desired (first ++ second) = (process.run desired first).run desired second :=
  foldl_append

theorem Lives.run (h : process.Lives) (ops : List (Op φ)) : (process.run desired ops).Lives := by
  induction ops generalizing process with
  | nil => exact h
  | cons op rest ih => exact ih (h.perform op)

/-! ## The store -/

section

variable (hstore : desired.AllOrNothing)
include hstore

/-- In a store that replaces as a whole, every effect leaves the wanted specs there. -/
theorem stored_of_effect {fault : φ} {registry after : Registry σ}
    {e : Option StoreError} (heffect : Effect desired fault registry after e)
    (h : desired.load registry.store = .ok (desiredSpecs registry.entries)) :
    desired.load after.store = .ok (desiredSpecs after.entries) := by
  cases heffect with
  | unchanged hsame hspecs => rw [hsame, hspecs, h]
  | replaced specs hreplace _ hspecs => rw [hspecs, hstore.done _ _ _ _ hreplace]
  | refused specs e hreplace _ _ hentries =>
    rw [hentries, hstore.refused _ _ _ _ _ hreplace, h]

theorem Performed.stored {after : Process σ}
    (step : Performed desired process after) (h : Stored desired process) :
    Stored desired after := by
  cases step with
  | same => exact h
  | opened _ hinit => exact fun _ => (init_consistent hinit).2.2.1
  | called fault hopened heffect _ =>
    intro _
    rw [after_registry]
    exact stored_of_effect hstore heffect (h hopened)
  | closed _ => exact fun hopen => absurd hopen (by simp)

theorem Stored.run (hlives : process.Lives)
    (h : Stored desired process) (ops : List (Op φ)) : Stored desired (process.run desired ops) := by
  induction ops generalizing process with
  | nil => exact h
  | cons op rest ih => exact ih (hlives.perform op) ((hlives.performed op).stored hstore h)

end

/-- Everything is stopped after a shutdown without errors. -/
theorem shutdown_idle (h : Sound process.registry []) {outcomes : Outcomes φ}
    (hok : (process.registry.shutdown outcomes).2 = .ok ()) (handle : Nat) :
    ¬ (process.registry.shutdown outcomes).1.backend.Runs handle := by
  intro hruns
  obtain ⟨hafter, -, -, hempty⟩ := shutdown_left h outcomes
  have hledger := hafter.ledger handle
  rw [hempty hok, if_pos hruns.1, count_eq_zero.mpr hruns.2] at hledger
  simp at hledger

/-! ## The accounts of a run -/

/-- A view shows the locator of a running instance, or none. -/
theorem view_locator {registry : Registry σ} {lost : List Nat} (h : Sound registry lost)
    {entry : Entry} (hentry : entry ∈ registry.entries) :
    (viewOf entry).locator.isSome ↔ (viewOf entry).state = .active ∧
      ∃ runtime, entry.runtime = some runtime ∧ registry.backend.Runs runtime.handle := by
  have hstate : (viewOf entry).state = .active ↔ entry.phase = .active := by
    unfold viewOf
    cases entry.phase <;> simp
  rw [hstate]
  by_cases hactive : entry.phase = .active
  · obtain ⟨runtime, hruntime⟩ :=
      isSome_iff_exists.mp ((h.consistent.kept entry hentry).active hactive)
    have hheld : 0 < (handles registry.entries).count runtime.handle := by
      refine count_pos_iff.mpr (mem_flatMap.mpr ⟨entry, hentry, ?_⟩)
      simp [held, hruntime]
    have hruns : registry.backend.Runs runtime.handle := by
      have hledger := h.ledger runtime.handle
      constructor
      · by_contra hlt
        rw [if_neg hlt] at hledger
        omega
      · intro hstopped
        have := count_pos_iff.mpr hstopped
        split at hledger <;> omega
    simp only [viewOf, hactive, if_true, hruntime, map_some, isSome_some, true_and]
    exact ⟨fun _ => ⟨runtime, rfl, hruns⟩, fun _ => trivial⟩
  · simp [viewOf, hactive]

/-- After every call: what the store holds, that no two endpoints share an identifier or a pool,
what views show, and where every instance is that was ever started. -/
theorem endpoints_accounted (hstore : desired.AllOrNothing) (store : σ) (ops : List (Op φ)) :
    let process := (start store).run desired ops
    let registry := process.registry
    (process.opened = true → desired.load registry.store = .ok (desiredSpecs registry.entries)) ∧
    (registry.entries.map fun entry => entry.spec.endpointId).Nodup ∧
    (registry.entries.map fun entry => entry.spec.poolId).Nodup ∧
    (∀ entry ∈ registry.entries, (viewOf entry).locator.isSome ↔ (viewOf entry).state = .active ∧
        ∃ runtime, entry.runtime = some runtime ∧ registry.backend.Runs runtime.handle) ∧
    -- an instance is held by one entry, or was stopped once, or its rollback was the panic
    (∀ handle < registry.backend.started,
      (handles registry.entries).count handle = 1 ∧ handle ∉ registry.backend.stopped ∨
      handle ∉ handles registry.entries ∧ registry.backend.stopped.count handle = 1 ∨
      process.panicked = true) ∧
    registry.backend.stopped.Nodup ∧
    ∀ outcomes : Outcomes φ, process.panicked = false → (registry.shutdown outcomes).2 = .ok () →
      (∀ handle, ¬ (registry.shutdown outcomes).1.backend.Runs handle) ∧
      desiredSpecs (registry.shutdown outcomes).1.entries = desiredSpecs registry.entries := by
  intro process registry
  have hlives : process.Lives := (lives_start store).run ops
  obtain ⟨lost, hlost, hsound⟩ : ∃ lost, (process.panicked = false → lost = []) ∧
      Sound registry lost := hlives.sound
  have hstored : Stored desired process :=
    Stored.run hstore (lives_start store) (fun hopen => absurd hopen (by simp [start])) ops
  refine ⟨hstored, hsound.consistent.endpoints, hsound.consistent.pools,
    fun entry hentry => view_locator hsound hentry, fun handle hlt => ?_, ?_,
    fun outcomes hpanicked hok => ⟨shutdown_idle (hlives.registry hpanicked) hok,
      (shutdown_left (hlives.registry hpanicked) outcomes).2.2.1⟩⟩
  · have hledger := hsound.ledger handle
    rw [if_pos hlt] at hledger
    cases hpanicked : process.panicked with
    | true => exact .inr (.inr rfl)
    | false =>
      rw [hlost hpanicked, count_nil] at hledger
      rw [← count_eq_zero, ← count_eq_zero]
      omega
  · refine nodup_iff_count_le_one.mpr fun handle => ?_
    have hledger := hsound.ledger handle
    split at hledger <;> omega

end

/-! ## A store in memory -/

/-- The store of the tests of the source; a replacement in it fails or is done. -/
def memoryStore : DesiredStore (List Spec) Bool where
  load := .ok
  replace store fails specs :=
    if fails then (store, .error (.failed .write)) else (specs, .ok ())

theorem memoryStore_allOrNothing : memoryStore.AllOrNothing := by
  constructor
  · intro store fault specs after h
    cases fault <;> simp_all [memoryStore]
  · intro store fault specs after e h
    cases fault <;> simp_all [memoryStore]

def sampleSpec : Spec :=
  ⟨⟨replicate 16 1, rfl⟩, ⟨replicate 16 2, rfl⟩, ⟨replicate 16 3, rfl⟩, .nvmeOfTcp⟩

/-- A start with a locator that is not valid, and a rollback of it. -/
def rolledBack : Outcomes Bool where
  outOfMemory := false
  replace := false
  start _ := .started (.nvmeOfTcp ⟨[], [], [], 1⟩)
  rollsBack _ := true
  stops _ := true

theorem memory_endpoints_accounted : memoryStore.AllOrNothing ∧
    let process := (start []).run memoryStore [.init, .handle (.ensure sampleSpec rolledBack)]
    process.opened = true ∧
      memoryStore.load process.registry.store = .ok (desiredSpecs process.registry.entries) := by
  refine ⟨memoryStore_allOrNothing, by decide, ?_⟩
  exact (endpoints_accounted memoryStore_allOrNothing []
    [.init, .handle (.ensure sampleSpec rolledBack)]).1 (by decide)

end Process

end Zettide.EndpointRegistry
