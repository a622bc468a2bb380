import Zettide.Spdk.Endpoint

/-! # Leases of the runtime

Translation of the lease count of `runtime.c`, and of where providers, controllers, dispatchers and
exports take and return leases. What is done under one lock of the mutex is one step, so a deletion
returns its two leases in two steps. -/

namespace Zettide.Spdk

open Option

def ealready : Int := -114

/-- `stopping` has whether the owner is to be sent a message. -/
inductive RuntimeState where
  | ready
  | stopping (owner : Bool)
  | stopped | failed
  deriving DecidableEq, Repr

structure Runtime where
  state : RuntimeState
  activeLeases : Nat
  deriving DecidableEq, Repr

section

variable (runtime : Runtime)

/-- `none` is `-ESHUTDOWN`. -/
def runtimeAcquire : Option Runtime :=
  if runtime.state ≠ .ready then none
  else some { runtime with activeLeases := runtime.activeLeases + 1 }

/-- `none` is the failed assertion. -/
def runtimeRelease : Option Runtime :=
  if runtime.activeLeases > 0 then some { runtime with activeLeases := runtime.activeLeases - 1 }
  else none

def runtimeStop : Except Int Runtime :=
  match runtime.state with
  | .stopped => .ok runtime
  | .failed =>
    if runtime.activeLeases ≠ 0 then .error eio else .ok { runtime with state := .stopping false }
  | .ready =>
    if runtime.activeLeases ≠ 0 then .error ebusy else .ok { runtime with state := .stopping true }
  | .stopping _ => .error ealready

/-- A stop has gone on to the reactor. -/
def Runtime.down : Bool :=
  match runtime.state with
  | .stopping _ | .stopped => true
  | _ => false

end

inductive LeaseKind where
  | provider | controller | dispatcher | exported
  deriving DecidableEq, Repr

/-- `releasing` is a deletion that has returned one lease, with the status of the unregistration. -/
inductive LeasePhase where
  | absent | creating | live | deleting
  | releasing (status : Int)
  | gone
  deriving DecidableEq, Repr

structure LeaseHolder where
  kind : LeaseKind
  phase : LeasePhase
  deriving DecidableEq, Repr

namespace LeaseHolder

variable (holder : LeaseHolder)

/-- The object exists; a provider does unless its unregistration succeeded. -/
def live : Bool :=
  match holder.phase with
  | .live | .deleting => true
  | .releasing status => status ≠ 0
  | _ => false

/-- A creation or a deletion of the object is in flight. -/
def inFlight : Bool :=
  match holder.phase with
  | .creating | .deleting | .releasing _ => true
  | _ => false

def held : Nat := (if holder.live then 1 else 0) + if holder.inFlight then 1 else 0

end LeaseHolder

/-- A step of an object, with the statuses that an unregistration can end with. -/
def LeaseStep (statuses : Int → Prop) (runtime : Runtime) (holder : LeaseHolder) (after : Runtime)
    (next : LeaseHolder) : Prop :=
  next.kind = holder.kind ∧
    match holder.phase, next.phase with
    | .absent, .creating => runtimeAcquire runtime = some after
    | .creating, .live => after = runtime
    | .creating, .gone => runtimeRelease runtime = some after
    | .live, .gone => holder.kind ≠ .provider ∧ runtimeRelease runtime = some after
    | .live, .deleting => holder.kind = .provider ∧ runtimeAcquire runtime = some after
    -- the message to the owner cannot be sent
    | .deleting, .live => runtimeRelease runtime = some after
    -- `provider_delete_done`, which does not look at the status
    | .deleting, .releasing status => statuses status ∧ runtimeRelease runtime = some after
    | .releasing status, .gone => status = 0 ∧ runtimeRelease runtime = some after
    | .releasing status, .live => status ≠ 0 ∧ runtimeRelease runtime = some after
    | _, _ => False

/-- Any number of objects, and what the runtime does: a stop, its message that cannot be sent, the
end of its thread, and an application that ends by itself. -/
def leaseProtocol (statuses : Int → Prop) : Protocol Runtime LeaseHolder where
  joins holder := holder.phase = .absent
  acts := LeaseStep statuses
  moves runtime after := runtimeStop runtime = .ok after ∨
    runtime.state = .stopping true ∧ after = { runtime with state := .ready } ∨
    (∃ owner, runtime.state = .stopping owner ∧ after = { runtime with state := .stopped }) ∨
    runtime.state = .ready ∧ after = { runtime with state := .failed }

variable {runtime after : Runtime} {holder next : LeaseHolder}

/-- A stop that goes on finds no lease, and changes none. -/
theorem runtimeStop_idle (idle : runtime.down = true → runtime.activeLeases = 0)
    (h : runtimeStop runtime = .ok after) :
    runtime.activeLeases = 0 ∧ after.activeLeases = 0 := by
  unfold runtimeStop at h
  split at h
  case h_1 hstate =>
    cases h
    simp_all [Runtime.down]
  case h_4 => cases h
  all_goals
    split at h
    · cases h
    · cases h
      exact ⟨not_not.mp ‹_›, not_not.mp ‹_›⟩

/-- While unregistrations succeed a step takes a lease, returns one, or leaves them. -/
theorem LeaseStep.balance (fits : ∀ status, holder.phase = .releasing status → status = 0)
    (h : LeaseStep (· = 0) runtime holder after next) :
    (∀ status, next.phase = .releasing status → status = 0) ∧
      (runtimeAcquire runtime = some after ∧ next.held = holder.held + 1 ∨
        runtimeRelease runtime = some after ∧ holder.held = next.held + 1 ∨
        after = runtime ∧ next.held = holder.held) := by
  obtain ⟨kind, phase⟩ := holder
  obtain ⟨_, phase'⟩ := next
  obtain ⟨rfl, h⟩ := h
  cases phase <;> cases phase' <;>
    simp_all [LeaseHolder.held, LeaseHolder.live, LeaseHolder.inFlight]

theorem lease_counts : (leaseProtocol (· = 0)).Counts Runtime.activeLeases LeaseHolder.held
    (fun runtime => runtime.down = true → runtime.activeLeases = 0)
    (fun _ holder => ∀ status, holder.phase = .releasing status → status = 0) where
  join := by
    rintro _ ⟨kind, _⟩ rfl
    exact ⟨rfl, by simp⟩
  act := by
    intro runtime holder after next idle fits hheld hacts
    obtain ⟨hfits, ⟨hacquire, hnext⟩ | ⟨hrelease, hnext⟩ | ⟨rfl, hnext⟩⟩ :=
      LeaseStep.balance fits hacts
    · simp only [runtimeAcquire, ne_eq, ite_none_left_eq_some, not_not, some.injEq] at hacquire
      obtain ⟨hready, rfl⟩ := hacquire
      exact ⟨by simp [Runtime.down, hready], hfits, by simp only; omega⟩
    · simp only [runtimeRelease, ite_none_right_eq_some, some.injEq] at hrelease
      obtain ⟨hpos, rfl⟩ := hrelease
      exact ⟨fun hdown => absurd (idle hdown) (by omega), hfits, by simp only; omega⟩
    · exact ⟨idle, hfits, by omega⟩
  move := by
    rintro runtime after idle (hstop | ⟨hstate, rfl⟩ | ⟨owner, hstate, rfl⟩ | ⟨hstate, rfl⟩)
    · obtain ⟨hnone, hafter⟩ := runtimeStop_idle idle hstop
      exact ⟨fun _ => hafter, hafter.trans hnone.symm⟩
    · exact ⟨by simp [Runtime.down], rfl⟩
    · exact ⟨fun _ => idle (by simp [Runtime.down, hstate]), rfl⟩
    · exact ⟨by simp [Runtime.down], rfl⟩
  act_keeps _ h := h
  move_keeps _ h := h

/-- **The lease count.**  While unregistrations of providers succeed, the count is that of the live
objects and of the creations and deletions in flight. A lease is taken only of a ready runtime, a
lease that is held can be returned, and a stop goes on only when there is none. -/
theorem leases_counted {state : Parties Runtime LeaseHolder}
    (run : (leaseProtocol (· = 0)).Reachable ⟨.ready, 0⟩ state) :
    state.shared.activeLeases = state.parties.countP LeaseHolder.live +
      state.parties.countP LeaseHolder.inFlight ∧
    ((runtimeAcquire state.shared).isSome → state.shared.state = .ready) ∧
    (∀ holder ∈ state.parties, holder.live ∨ holder.inFlight →
      (runtimeRelease state.shared).isSome) ∧
    (∀ after, runtimeStop state.shared = .ok after → state.shared.activeLeases = 0) ∧
    (state.shared.down = true → state.shared.activeLeases = 0) := by
  obtain ⟨idle, -, hcount⟩ := lease_counts.run (by simp [Runtime.down]) rfl run
  have hsum : state.shared.activeLeases = state.parties.countP LeaseHolder.live +
      state.parties.countP LeaseHolder.inFlight := by
    rw [hcount, ← Protocol.sum_map_ite, ← Protocol.sum_map_ite, ← List.sum_map_add]
    rfl
  refine ⟨hsum, by simp [runtimeAcquire], fun holder hmem hheld => ?_,
    fun after hstop => (runtimeStop_idle idle hstop).1, idle⟩
  have hpos : 0 < state.shared.activeLeases := by
    rw [hsum]
    rcases hheld with hlive | hflight
    · exact Nat.add_pos_left (List.countP_pos_iff.mpr ⟨holder, hmem, hlive⟩) _
    · exact Nat.add_pos_right _ (List.countP_pos_iff.mpr ⟨holder, hmem, hflight⟩)
  simp [runtimeRelease, hpos]

/-- A provider is created and deleted, and the unregistration ends with the status. -/
theorem provider_deleted {statuses : Int → Prop} {status : Int} (h : statuses status) :
    (leaseProtocol statuses).Reachable ⟨.ready, 0⟩
      ⟨⟨.ready, 0⟩, [⟨.provider, if status = 0 then .gone else .live⟩]⟩ := by
  have joined : (leaseProtocol statuses).Reachable ⟨.ready, 0⟩
      ⟨⟨.ready, 0⟩, [⟨.provider, .absent⟩]⟩ := .single (.join rfl)
  have created : LeaseStep statuses ⟨.ready, 0⟩ ⟨.provider, .absent⟩ _ ⟨.provider, .creating⟩ :=
    ⟨rfl, rfl⟩
  have live : LeaseStep statuses ⟨.ready, 1⟩ ⟨.provider, .creating⟩ _ ⟨.provider, .live⟩ :=
    ⟨rfl, rfl⟩
  have started : LeaseStep statuses ⟨.ready, 1⟩ ⟨.provider, .live⟩ _ ⟨.provider, .deleting⟩ :=
    ⟨rfl, rfl, rfl⟩
  have done : LeaseStep statuses ⟨.ready, 2⟩ ⟨.provider, .deleting⟩ _
      ⟨.provider, .releasing status⟩ := ⟨rfl, h, rfl⟩
  have released : LeaseStep statuses ⟨.ready, 1⟩ ⟨.provider, .releasing status⟩ ⟨.ready, 0⟩
      ⟨.provider, if status = 0 then .gone else .live⟩ := by
    refine ⟨rfl, ?_⟩
    split_ifs with hstatus
    · exact ⟨hstatus, rfl⟩
    · exact ⟨hstatus, rfl⟩
  have deleting := Relation.ReflTransGen.tail (.tail (.tail joined (.act (i := 0) rfl created))
    (.act (i := 0) rfl live)) (.act (i := 0) rfl started)
  exact .tail (.tail deleting (.act (i := 0) rfl done)) (.act (i := 0) rfl released)

theorem deleted_provider_counted : ∃ state, (leaseProtocol (· = 0)).Reachable ⟨.ready, 0⟩ state ∧
    state.parties = [⟨.provider, .gone⟩] ∧ state.shared.activeLeases = 0 :=
  ⟨_, provider_deleted rfl, rfl, (leases_counted (provider_deleted rfl)).1⟩

/-- **A deletion whose unregistration fails returns the lease of a provider that is still live**, and
a stop then goes on. -/
theorem live_provider_without_lease :
    ∃ state, (leaseProtocol fun _ => True).Reachable ⟨.ready, 0⟩ state ∧
      state.parties.countP LeaseHolder.live = 1 ∧ state.shared.activeLeases = 0 ∧
      runtimeStop state.shared = .ok ⟨.stopping true, 0⟩ :=
  ⟨_, @provider_deleted _ ebusy trivial, rfl, rfl, rfl⟩

end Zettide.Spdk
