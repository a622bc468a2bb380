import Zettide.Lib.Parties

/-! # Asynchronous reads of the storage adapter

Translation of the asynchronous reads of `storage.zig`. A loop of compare and swap takes effect
when the swap succeeds, so it is one step, and the last release after closing is two: the event is
set, then the word is stored. The steps of all threads interleave, and so do the releases of one
call. -/

namespace Zettide.Spdk

/-- `failure` has the status that the error is made of. -/
structure ReadResult where
  amount : Nat := 0
  failure : Option Int := none
  deriving DecidableEq, Repr

/-- Where `close` is: at the event, in the loop, or behind both. -/
inductive ClosePhase where
  | idle | waiting | spinning | draining | closed
  deriving DecidableEq, Repr

/-- `closing` is the top bit of the word `async_state`, and `count` the bits below it. -/
structure AsyncContext where
  closing : Bool := false
  count : Nat := 0
  drained : Bool := false
  closer : ClosePhase := .idle
  destroyed : Nat := 0
  deriving DecidableEq, Repr

/-- A call that answers `submitted` is `pending` until its completion is called. -/
inductive ReadPhase where
  | start | acquired | pending | completed | unsupported | failed
  deriving DecidableEq, Repr

/-- A call with the lengths of its reads, the results at each call of its completion, and how many
releases have not begun and how many have set the event. -/
structure ReadCall where
  lengths : List Nat
  results : List ReadResult
  phase : ReadPhase := .start
  completions : List (List ReadResult) := []
  releases : Nat := 0
  stores : Nat := 0
  deriving DecidableEq, Repr

def maxAsyncReads : Nat := 32

def asyncCountMask : Nat := 2 ^ 63 - 1

/-- The reads that are not empty, with the indexes of their results. -/
def readTask (lengths : List Nat) : List (Nat × Nat) := lengths.zipIdx.filter fun read => read.1 ≠ 0

def writeResults (task : List (Nat × Nat)) (statuses : List Int) (results : List ReadResult) :
    List ReadResult :=
  (task.zip statuses).foldl (fun results (read, status) => results.modify read.2 fun result =>
    if status = 0 then { result with amount := read.1 }
    else { result with failure := some status }) results

section

variable (context : AsyncContext) (call : ReadCall)

def acquireAsync : Option AsyncContext :=
  if context.closing then none
  else if context.count > asyncCountMask - 2 then none
  else some { context with count := context.count + 2 }

def submitReadManyAt : AsyncContext × ReadCall :=
  if call.lengths.length ≠ call.results.length then (context, { call with phase := .failed })
  else if call.lengths.length > maxAsyncReads then (context, { call with phase := .unsupported })
  else
    match acquireAsync context with
    | none => (context, { call with phase := .unsupported })
    | some after =>
      (after, { call with phase := .acquired, results := call.lengths.map fun _ => {} })

/-- The rest of `submitReadManyAt`, which releases one reference, and the other one unless the
dispatcher has it. `checked` is whether the reads are valid and the task is allocated. -/
def submitTask (checked accepted : Bool) : ReadCall :=
  if checked ∧ readTask call.lengths = [] then
    { call with
      phase := .completed
      completions := call.completions ++ [call.results]
      releases := call.releases + 2 }
  else if checked ∧ accepted then { call with phase := .pending, releases := call.releases + 1 }
  else { call with phase := .failed, releases := call.releases + 2 }

def asyncReadComplete (statuses : List Int) : ReadCall :=
  let results := writeResults (readTask call.lengths) statuses call.results
  { call with
    results
    phase := .completed
    completions := call.completions ++ [results]
    releases := call.releases + 1 }

/-- A step of a call, of its completion on another thread, or of one of its releases. -/
inductive CallStep : AsyncContext → ReadCall → Prop where
  | start : call.phase = .start →
      CallStep (submitReadManyAt context call).1 (submitReadManyAt context call).2
  | submit (checked accepted : Bool) : call.phase = .acquired →
      CallStep context (submitTask call checked accepted)
  | complete (statuses : List Int) : call.phase = .pending →
      statuses.length = (readTask call.lengths).length →
      CallStep context (asyncReadComplete call statuses)
  | swap : 0 < call.releases → ¬(context.closing = true ∧ context.count = 1) →
      CallStep { context with count := context.count - 1 }
        { call with releases := call.releases - 1 }
  | wake : 0 < call.releases → context.closing = true ∧ context.count = 1 →
      CallStep { context with drained := true }
        { call with releases := call.releases - 1, stores := call.stores + 1 }
  | store : 0 < call.stores →
      CallStep { context with closing := true, count := 0 } { call with stores := call.stores - 1 }

/-- A step of `close`. -/
inductive CloseStep : AsyncContext → Prop where
  | start : context.closer = .idle → CloseStep { context with
      closing := true
      closer := if context.count ≠ 0 then .waiting else .draining }
  | wake : context.closer = .waiting → context.drained = true →
      CloseStep { context with closer := .spinning }
  | zero : context.closer = .spinning → context.count = 0 →
      CloseStep { context with closer := .draining }
  | destroy : context.closer = .draining →
      CloseStep { context with closer := .closed, destroyed := context.destroyed + 1 }

/-- The references of the call. -/
def ReadCall.held : Nat :=
  (match call.phase with
    | .acquired => 2
    | .pending => 1
    | _ => 0) + call.releases + call.stores

/-- The completion was called once, with what one status for each read of the task says. -/
def ReadCall.CompletedOnce : Prop :=
  ∃ statuses, statuses.length = (readTask call.lengths).length ∧ call.completions =
    [writeResults (readTask call.lengths) statuses (call.lengths.map fun _ => {})]

structure ReadCall.Fits : Prop where
  storing : 0 < call.stores → context.drained = true
  blank : call.phase = .acquired ∨ call.phase = .pending →
    call.results = call.lengths.map fun _ => {}
  completed : call.phase = .completed → call.CompletedOnce
  uncompleted : call.phase ≠ .completed → call.completions = []

structure AsyncContext.Sound : Prop where
  bounded : context.count ≤ asyncCountMask
  closing : context.closing = true ↔ context.closer ≠ .idle
  drained : context.drained = true → context.closing = true ∧ context.count ≤ 1
  woken : context.closer = .waiting → context.count = 0 → context.drained = true
  zero : context.closer = .draining ∨ context.closer = .closed → context.count = 0
  destroyed : context.destroyed = if context.closer = .closed then 1 else 0

end

/-- Any number of calls, and one `close`. -/
def asyncProtocol : Protocol AsyncContext ReadCall where
  joins call := ∃ lengths results, call = { lengths, results }
  acts := CallStep
  moves := CloseStep

variable {context after : AsyncContext} {call next : ReadCall}

theorem CallStep.drained (h : CallStep context call after next) (hset : context.drained = true) :
    after.drained = true := by
  cases h with
  | start =>
    unfold submitReadManyAt acquireAsync
    split_ifs <;> exact hset
  | wake => rfl
  | _ => exact hset

/-- A release while the word counts it, which does not store zero before the event is set. -/
theorem AsyncContext.Sound.release (sound : context.Sound) {count : Nat} {drained : Bool}
    (held : 1 ≤ context.count) (hcount : count ≤ context.count)
    (hset : drained = true → context.closing = true ∧ count ≤ 1)
    (hzero : context.closing = true → count = 0 → drained = true) :
    { context with count, drained }.Sound where
  bounded := Nat.le_trans hcount sound.bounded
  closing := sound.closing
  drained := hset
  woken hwaiting := hzero (sound.closing.mpr (by simp_all))
  zero h := by
    have := sound.zero h
    omega
  destroyed := sound.destroyed

theorem CloseStep.sound (sound : context.Sound) (h : CloseStep context after) :
    after.Sound ∧ after.count = context.count := by
  obtain ⟨closing, count, drained, closer, destroyed⟩ := context
  obtain ⟨hbounded, hclosing, hdrained, hwoken, hzero, hdestroyed⟩ := sound
  cases h <;> refine ⟨⟨hbounded, ?_, ?_, ?_, ?_, ?_⟩, rfl⟩ <;> by_cases hcount : count = 0 <;>
    simp_all

theorem async_counts : asyncProtocol.Counts AsyncContext.count ReadCall.held
    AsyncContext.Sound (fun context call => call.Fits context) where
  join := by
    rintro _ _ ⟨lengths, results, rfl⟩
    exact ⟨rfl, by constructor <;> simp⟩
  act := by
    intro context call after next sound fits hheld hacts
    cases hacts with
    | start hstart =>
      have hrefused : ∀ phase, phase = .unsupported ∨ phase = .failed → context.Sound ∧
          { call with phase }.Fits context ∧
          context.count + call.held = context.count + { call with phase }.held := by
        rintro phase (rfl | rfl) <;> exact ⟨sound, ⟨fits.storing, by simp, by simp,
          fun _ => fits.uncompleted (by simp [hstart])⟩, by simp [ReadCall.held, hstart]⟩
      unfold submitReadManyAt acquireAsync
      split_ifs with hlengths hmany hclosing hfull
      · exact hrefused _ (.inr rfl)
      · exact hrefused _ (.inl rfl)
      · exact hrefused _ (.inl rfl)
      · exact hrefused _ (.inl rfl)
      · have hidle : context.closer = .idle := by simpa [hclosing] using sound.closing
        have hunset : ¬context.drained = true := fun h => hclosing (sound.drained h).1
        refine ⟨⟨?_, sound.closing, fun h => absurd h hunset, by simp [hidle], by simp [hidle],
          sound.destroyed⟩, ⟨fits.storing, fun _ => rfl, by simp,
          fun _ => fits.uncompleted (by simp [hstart])⟩, ?_⟩
        · have hmask : 2 ≤ asyncCountMask := by decide
          show context.count + 2 ≤ asyncCountMask
          omega
        · simp only [ReadCall.held, hstart]
          omega
    | submit checked accepted hacquired =>
      have hnone := fits.uncompleted (by simp [hacquired])
      have hblank := fits.blank (.inl hacquired)
      refine ⟨sound, ?_, ?_⟩ <;> unfold submitTask <;> split_ifs with hempty
      · exact ⟨fits.storing, by simp, fun _ => ⟨[], by simp [hempty.2],
          by simp [hnone, hblank, writeResults]⟩, by simp⟩
      · exact ⟨fits.storing, fun _ => hblank, by simp, fun _ => hnone⟩
      · exact ⟨fits.storing, by simp, by simp, fun _ => hnone⟩
      all_goals
        simp only [ReadCall.held, hacquired]
        omega
    | complete statuses hpending hlength =>
      have hnone := fits.uncompleted (by simp [hpending])
      have hblank := fits.blank (.inr hpending)
      refine ⟨sound, ⟨fits.storing, by simp [asyncReadComplete], fun _ => ⟨statuses, hlength, ?_⟩,
        by simp [asyncReadComplete]⟩, ?_⟩
      · simp [asyncReadComplete, hnone, hblank]
      · simp only [asyncReadComplete, ReadCall.held, hpending]
        omega
    | swap hpos hlast =>
      have hone : 1 ≤ context.count := by
        simp only [ReadCall.held] at hheld
        omega
      refine ⟨sound.release hone (Nat.sub_le _ _) (fun h => ?_) (fun hclosing hzero => ?_),
        { fits with }, ?_⟩
      · exact ⟨(sound.drained h).1, Nat.le_trans (Nat.sub_le _ _) (sound.drained h).2⟩
      · exact absurd ⟨hclosing, by omega⟩ hlast
      · simp only [ReadCall.held]
        omega
    | wake hpos hlast =>
      refine ⟨sound.release (by omega) (Nat.le_refl _) (fun _ => ⟨hlast.1, by omega⟩)
        (fun _ _ => rfl), { fits with storing := fun _ => rfl }, ?_⟩
      simp only [ReadCall.held]
      omega
    | store hpos =>
      have hset := fits.storing hpos
      obtain ⟨hclosing, hone⟩ := sound.drained hset
      rw [← hclosing]
      have hheld' : 1 ≤ context.count := by
        simp only [ReadCall.held] at hheld
        omega
      refine ⟨sound.release hheld' (Nat.zero_le _) (fun _ => ⟨hclosing, Nat.zero_le _⟩)
        (fun _ _ => hset), { fits with storing := fun _ => hset }, ?_⟩
      simp only [ReadCall.held]
      omega
  move sound hmoves := CloseStep.sound sound hmoves
  act_keeps hacts h := { h with storing := fun hstoring => hacts.drained (h.storing hstoring) }
  move_keeps hmoves h := { h with storing := fun hstoring => (by
    have := h.storing hstoring
    cases hmoves <;> exact this) }

/-- One read that is submitted, completed and released, and a context that is closed. -/
def closedReads : Parties AsyncContext ReadCall :=
  ⟨{ closing := true, drained := true, closer := .closed, destroyed := 1 },
    [{ lengths := [4], results := [{ amount := 4 }], phase := .completed,
       completions := [[{ amount := 4 }]] }]⟩

theorem closedReads_reachable : asyncProtocol.Reachable {} closedReads :=
  .head (.join ⟨[4], [{}], rfl⟩) <| .head (.act (i := 0) rfl (.start rfl)) <|
  .head (.act (i := 0) rfl (.submit true true rfl)) <|
  .head (.act (i := 0) rfl (.complete [0] rfl rfl)) <| .head (.move (.start rfl)) <|
  .head (.act (i := 0) rfl (.swap (by decide) (by decide))) <|
  .head (.act (i := 0) rfl (.wake (by decide) (by decide))) <| .head (.move (.wake rfl rfl)) <|
  .head (.act (i := 0) rfl (.store (by decide))) <| .head (.move (.zero rfl rfl)) <|
  .head (.move (.destroy rfl)) .refl

end Zettide.Spdk
