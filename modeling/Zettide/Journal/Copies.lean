import Zettide.Journal.Publication
import Zettide.Journal.Born

/-! # The two header copies

A header is published in one copy, or in both one after the other, and the catalog-data bit is set in
both. The first write always goes to the copy that is not selected, so the selected header stays
readable until a newer one is. What the two copies can be is said once, in `Paired`: the current
header in one of them, and in the other nothing readable, an older header, or the header before the
catalog-data bit was set. -/

namespace Zettide

open Relation Member WriteOutcome MemberFormat Except HeaderCopy

/-! ## Pairs of copies -/

/-- A header that may stand in the other copy beside the current one. -/
structure Superseded (header current : Header) : Prop where
  valid : validate header = .ok ()
  static : staticPart header = staticPart current
  order : header = current ∨
    header.headerSequence < current.headerSequence ∧ header.catalogData = current.catalogData ∨
    header.headerSequence + 1 = current.headerSequence ∧ header.catalogData = false ∧
      current.catalogData = true ∧ mutableEqual current header

/-- A header that can be written over one that it supersedes. -/
structure Successor (current next : Header) : Prop where
  superseded : Superseded current next
  valid : validate next = .ok ()
  bounded : next.headerSequence ≤ maxU64

/-- One copy is the current header, and what can be read of the other is superseded by it. -/
structure Paired (storage : Storage) (current : Header) (source : SourceSlot) : Prop where
  valid : validate current = .ok ()
  bounded : current.headerSequence ≤ maxU64
  held : storage.copyAt source = .bytes current
  other : ∀ header, storage.copyAt (otherCopy source) = .bytes header → Superseded header current

section

variable {member : Member} {current next header : Header} {source : SourceSlot} {storage : Storage}

theorem decodeCandidate_valid (h : validate header = .ok ()) :
    decodeCandidate (.bytes header) = some header := by
  simp [decodeCandidate, h, value]

/-- A header in copy `a` is selected before one that it supersedes in copy `b`. -/
theorem selectValid_a (h : Superseded header current) (bounded : current.headerSequence ≤ maxU64) :
    ∃ degraded, selectValid current header = .ok ⟨current, .a, degraded⟩ := by
  obtain ⟨_, hstatic, rfl | ⟨hlt, hcatalog⟩ | ⟨hnext, hoff, hon, hmutable⟩⟩ := h
  · exact ⟨false, by
      simp [selectValid, rejectIf, mutableEqual, bind, Except.bind]⟩
  · exact ⟨false, by
      simp [selectValid, rejectIf, hstatic, hcatalog, hlt, bind, Except.bind]⟩
  have hmax : header.headerSequence ≠ maxU64 := by omega
  exact ⟨true, by
    simp [selectValid, rejectIf, hstatic, hoff, hon, hmax, hnext, hmutable, bind, Except.bind]⟩

/-- A header in copy `b` is selected before one that it supersedes in copy `a`; when the copies are
the same, copy `a` is. -/
theorem selectValid_b (h : Superseded header current) (bounded : current.headerSequence ≤ maxU64) :
    ∃ source degraded, selectValid header current = .ok ⟨current, source, degraded⟩ ∧
      (source = .b ∨ header = current) := by
  obtain ⟨_, hstatic, rfl | ⟨hlt, hcatalog⟩ | ⟨hnext, hoff, hon, hmutable⟩⟩ := h
  · exact ⟨.a, false, by
      simp [selectValid, rejectIf, mutableEqual, bind, Except.bind], .inr rfl⟩
  · have hnot : ¬ header.headerSequence > current.headerSequence := by omega
    exact ⟨.b, false, by
      simp [selectValid, rejectIf, hstatic, hcatalog, hlt, hnot, bind, Except.bind],
      .inl rfl⟩
  · have hmax : header.headerSequence ≠ maxU64 := by omega
    exact ⟨.b, true, by
      simp [selectValid, rejectIf, hstatic, hoff, hon, hmax, hnext, hmutable, bind,
        Except.bind], .inl rfl⟩

theorem Superseded.refl (h : validate header = .ok ()) :
    Superseded header header := ⟨h, rfl, .inl rfl⟩

theorem Paired.of_both
    (valid : validate current = .ok ()) (bounded : current.headerSequence ≤ maxU64)
    (both : ∀ source, storage.copyAt source = .bytes current) (source : SourceSlot) :
    Paired storage current source := by
  refine ⟨valid, bounded, both source, fun header hother => ?_⟩
  rw [both] at hother
  obtain rfl := bytes.inj hother
  exact .refl valid

/-- **The current header of a pair is selected.** -/
theorem Paired.select (h : Paired storage current source) :
    ∃ selection, select storage.copyA storage.copyB = .ok selection ∧
      selection.header = current ∧ Paired storage current selection.source := by
  have hdecode := decodeCandidate_valid h.valid
  have hcurrent := h.held
  unfold MemberFormat.select
  cases source with
  | a =>
    simp only [Storage.copyAt] at hcurrent
    rw [hcurrent, hdecode]
    cases hother : storage.copyB with
    | damaged fault => exact ⟨⟨current, .a, true⟩, rfl, rfl, h⟩
    | bytes header =>
      have superseded := h.other header hother
      obtain ⟨degraded, hselect⟩ := selectValid_a superseded h.bounded
      rw [decodeCandidate_valid superseded.valid]
      exact ⟨_, hselect, rfl, h⟩
  | b =>
    simp only [Storage.copyAt] at hcurrent
    rw [hcurrent, hdecode]
    cases hother : storage.copyA with
    | damaged fault => exact ⟨⟨current, .b, true⟩, rfl, rfl, h⟩
    | bytes header =>
      have superseded := h.other header hother
      obtain ⟨source, degraded, hselect, hsource⟩ := selectValid_b superseded h.bounded
      rw [decodeCandidate_valid superseded.valid]
      refine ⟨_, hselect, rfl, ?_⟩
      rcases hsource with rfl | rfl
      · exact h
      refine Paired.of_both h.valid h.bounded (fun copy => ?_) source
      cases copy
      · exact hother
      · exact hcurrent

/-! ## Writing a copy -/

/-- **A write to the copy that is not selected leaves a pair of the old header, or of the new
one.** -/
theorem Paired.writeOther (h : Paired member.storage current source)
    (successor : Successor current next) (outcome : WriteOutcome) :
    (Paired (member.writeHeader (otherCopy source) next outcome).storage current source ∨
      Paired (member.writeHeader (otherCopy source) next outcome).storage next (otherCopy source)) ∧
    (outcome.succeeds = true →
      Paired (member.writeHeader (otherCopy source) next outcome).storage next
        (otherCopy source)) := by
  have hwritten := writeHeader_copyAt member (otherCopy source) next outcome
  have hkept := writeHeader_copyAt_other member (otherCopy source) next outcome
  rw [otherCopy_otherCopy, h.held] at hkept
  have hnew : (member.writeHeader (otherCopy source) next outcome).storage.copyAt
      (otherCopy source) = .bytes next →
      Paired (member.writeHeader (otherCopy source) next outcome).storage next
        (otherCopy source) := by
    intro hcopy
    refine ⟨successor.valid, successor.bounded, hcopy, fun header hother => ?_⟩
    rw [otherCopy_otherCopy, hkept] at hother
    exact bytes.inj hother ▸ successor.superseded
  cases outcome with
  | done => exact ⟨.inr (hnew hwritten), fun _ => hnew hwritten⟩
  | failedNew => exact ⟨.inr (hnew hwritten), by simp [WriteOutcome.succeeds]⟩
  | failedOld =>
    refine ⟨.inl ⟨h.valid, h.bounded, hkept, fun header hother => ?_⟩,
      by simp [WriteOutcome.succeeds]⟩
    rw [hwritten] at hother
    exact h.other header hother
  | failedTorn fault =>
    refine ⟨.inl ⟨h.valid, h.bounded, hkept, fun header hother => ?_⟩,
      by simp [WriteOutcome.succeeds]⟩
    rw [hwritten] at hother
    cases hother

/-- The second write of a publication leaves a pair of the new header, and two copies of it when it
succeeds. -/
theorem Paired.writeSame
    (h : Paired member.storage next (otherCopy source)) (outcome : WriteOutcome) :
    Paired (member.writeHeader source next outcome).storage next (otherCopy source) ∧
      (outcome.succeeds = true → ∀ copy,
        (member.writeHeader source next outcome).storage.copyAt copy = .bytes next) := by
  have hwritten := writeHeader_copyAt member source next outcome
  have hkept := (writeHeader_copyAt_other member source next outcome).trans h.held
  refine ⟨⟨h.valid, h.bounded, hkept, fun header hother => ?_⟩, fun hsucceeds copy => ?_⟩
  · rw [otherCopy_otherCopy, hwritten] at hother
    cases outcome with
    | done | failedNew => exact bytes.inj hother ▸ .refl h.valid
    | failedOld => exact h.other header (by rw [otherCopy_otherCopy]; exact hother)
    | failedTorn fault => cases hother
  · rcases eq_or_eq_otherCopy copy source with rfl | rfl
    · rw [hwritten, eq_done_of_succeeds hsucceeds]
      rfl
    · exact hkept

/-! ## The calls that write headers -/

/-- The header of an open member is the current one of its copies; once it can be relied on for a
reclaim, both copies hold it. -/
structure Current (member : Member) : Prop where
  paired : Paired member.storage member.header member.source
  ready : member.checkpointReclaimReady = true →
    ∀ source, member.storage.copyAt source = .bytes member.header

/-- What a call that publishes a header did: nothing, or it failed in a write and the member is
frozen, or the header is published. -/
inductive Updates (member : Member) (next : Header) : Member × Except JournalError Unit → Prop where
  | refused (e : JournalError) : e ≠ .writeFailed → Updates member next (member, .error e)
  | failed (after : Member) (current : Header) (source : SourceSlot) :
      member.frozen = false → Superseded member.header next → after.frozen = true →
      Paired after.storage current source → current = member.header ∨ current = next →
      Updates member next (after, .error .writeFailed)
  | done (after : Member) :
      member.frozen = false → Superseded member.header next → after.frozen = false →
      after.header = next → Current after → Updates member next (after, .ok ())

theorem preparePublication_ne_writeFailed (member : Member) (offset sequence : Nat)
    (digest : Digest) :
    member.preparePublication offset sequence digest ≠ .error .writeFailed := by
  simp [preparePublication, checkWritable]

theorem Current.publication (h : member.frozen = false → Current member) {offset sequence : Nat}
    {digest : Digest} (hprepare : member.preparePublication offset sequence digest = .ok next) :
    member.frozen = false ∧ next = checkpointHeader member.header offset sequence digest ∧
      Paired member.storage member.header member.source ∧ Successor member.header next := by
  simp only [preparePublication, checkWritable, ok_iff, Bool.not_eq_true] at hprepare
  obtain ⟨⟨_, hlive⟩, hmax, hvalid, rfl⟩ := hprepare
  have paired := (h hlive).paired
  have hbounded := paired.bounded
  refine ⟨hlive, rfl, paired, ⟨paired.valid, rfl, .inr (.inl ⟨Nat.lt_succ_self _, rfl⟩)⟩, hvalid,
    ?_⟩
  simp only [checkpointHeader]
  omega

/-- The two writes of a publication, from a member whose flags may have been changed. -/
theorem Paired.writeBoth
    (h : Paired member.storage current source) (successor : Successor current next)
    {first : WriteOutcome} (hfirst : first.succeeds = true) (second : WriteOutcome) :
    Paired ((member.writeHeader (otherCopy source) next first).writeHeader source next
        second).storage next (otherCopy source) ∧
      (second.succeeds = true → ∀ copy,
        ((member.writeHeader (otherCopy source) next first).writeHeader source next
          second).storage.copyAt copy = .bytes next) :=
  ((h.writeOther successor first).2 hfirst).writeSame second

/-- A first write that fails leaves one of the two headers. -/
theorem Updates.firstFailed {start : Member} (hlive : member.frozen = false)
    (h : Paired start.storage member.header source) (successor : Successor member.header next)
    {outcome : WriteOutcome} (hfails : ¬ outcome.succeeds = true) :
    Updates member next (start.writeHeader (otherCopy source) next outcome, .error .writeFailed) := by
  have hfrozen : (start.writeHeader (otherCopy source) next outcome).frozen = true := by
    simp [writeHeader_frozen, hfails]
  rcases (h.writeOther successor outcome).1 with hold | hnew
  · exact .failed _ _ _ hlive successor.superseded hfrozen hold (.inl rfl)
  · exact .failed _ _ _ hlive successor.superseded hfrozen hnew (.inr rfl)

theorem publishCheckpoint_updates (h : member.frozen = false → Current member)
    (offset sequence : Nat) (digest : Digest) (outcome : WriteOutcome) :
    Updates member (checkpointHeader member.header offset sequence digest)
      (member.publishCheckpoint offset sequence digest outcome) := by
  unfold publishCheckpoint
  rcases hprepare : member.preparePublication offset sequence digest with e | next
  · refine .refused e fun hfailed => ?_
    exact preparePublication_ne_writeFailed member offset sequence digest (hfailed ▸ hprepare)
  obtain ⟨hlive, rfl, paired, successor⟩ := Current.publication h hprepare
  have hstart : Paired { member with checkpointReclaimReady := false }.storage member.header
      member.source := paired
  simp only
  split
  case isTrue hsucceeds =>
    refine .done _ hlive successor.superseded ?_ rfl ⟨?_, ?_⟩
    · simp [writeHeader_frozen, hsucceeds, hlive]
    · exact (hstart.writeOther successor outcome).2 hsucceeds
    · intro hready
      simp [WriteOutcome.eq_done_of_succeeds hsucceeds, writeHeader, afterWrite,
        WriteOutcome.succeeds] at hready
  case isFalse hfails => exact .firstFailed hlive hstart successor hfails

theorem publishCheckpointRedundant_updates (h : member.frozen = false → Current member)
    (offset sequence : Nat) (digest : Digest) (first second : WriteOutcome) :
    Updates member (checkpointHeader member.header offset sequence digest)
      (member.publishCheckpointRedundant offset sequence digest first second) := by
  unfold publishCheckpointRedundant
  rcases hprepare : member.preparePublication offset sequence digest with e | next
  · refine .refused e fun hfailed => ?_
    exact preparePublication_ne_writeFailed member offset sequence digest (hfailed ▸ hprepare)
  obtain ⟨hlive, rfl, paired, successor⟩ := Current.publication h hprepare
  have hstart : Paired { member with checkpointReclaimReady := false }.storage member.header
      member.source := paired
  simp only
  split
  case isTrue hfirst =>
    obtain ⟨htwice, hboth⟩ := hstart.writeBoth successor hfirst second
    split
    case isTrue hsecond =>
      refine .done _ hlive successor.superseded ?_ rfl ⟨?_, fun _ => hboth hsecond⟩
      · simp [writeHeader_frozen, hfirst, hsecond, hlive]
      · exact Paired.of_both successor.valid successor.bounded (hboth hsecond) .a
    case isFalse hfails =>
      exact .failed _ _ _ hlive successor.superseded (by simp [writeHeader_frozen, hfails]) htwice
        (.inr rfl)
  case isFalse hfails => exact .firstFailed hlive hstart successor hfails

/-- The header that an activation leaves selected. -/
def activatedHeader (header : Header) : Header :=
  if header.catalogData then header else catalogHeader header

theorem prepareActivation_ne_writeFailed (member : Member) :
    member.prepareActivation ≠ .error .writeFailed := by
  unfold prepareActivation
  split <;> simp [checkWritable]

theorem Current.activation (h : member.frozen = false → Current member)
    (hprepare : member.prepareActivation = .ok next) :
    member.frozen = false ∧ next = activatedHeader member.header ∧
      Paired member.storage member.header member.source ∧ Successor member.header next := by
  simp only [prepareActivation, checkWritable, ok_iff, Bool.not_eq_true] at hprepare
  obtain ⟨⟨_, hlive⟩, _, hchoice⟩ := hprepare
  have paired := (h hlive).paired
  have hbounded := paired.bounded
  unfold activatedHeader
  split at hchoice
  case isTrue hon =>
    simp only [ok_iff] at hchoice
    obtain ⟨_, rfl⟩ := hchoice
    exact ⟨hlive, by rw [if_pos hon], paired, .refl paired.valid, paired.valid, hbounded⟩
  rename_i hoff
  simp only [ok_iff] at hchoice
  obtain ⟨hmax, hvalid, rfl⟩ := hchoice
  refine ⟨hlive, by rw [if_neg hoff], paired, ⟨paired.valid, rfl, .inr (.inr ?_)⟩, hvalid, ?_⟩
  · exact ⟨rfl, by simpa using hoff, rfl, rfl, rfl, rfl⟩
  · simp only [catalogHeader]
    omega

theorem activateCatalogData_updates
    (h : member.frozen = false → Current member) (first second : WriteOutcome) :
    Updates member (activatedHeader member.header) (member.activateCatalogData first second) := by
  unfold activateCatalogData
  rcases hprepare : member.prepareActivation with e | next
  · exact .refused e fun hfailed =>
      prepareActivation_ne_writeFailed member (hfailed ▸ hprepare)
  obtain ⟨hlive, rfl, paired, successor⟩ := Current.activation h hprepare
  simp only
  split
  case isTrue hon =>
    have hsame : activatedHeader member.header = member.header := by
      simp [activatedHeader, hon]
    rw [hsame] at successor ⊢
    split
    case isTrue => exact .done _ hlive successor.superseded hlive rfl (h hlive)
    -- the mirror is written with the header that is selected already
    have hself : Paired member.storage member.header (otherCopy (otherCopy member.source)) := by
      rw [otherCopy_otherCopy]
      exact paired
    obtain ⟨hmirror, hboth⟩ := hself.writeSame first
    split
    case isTrue hsucceeds =>
      have hsource : (member.writeHeader (otherCopy member.source) member.header
          first).source = member.source := by
        rw [eq_done_of_succeeds hsucceeds]
        rfl
      refine .done _ hlive successor.superseded ?_ ?_ ⟨?_, fun _ => ?_⟩
      · simp [writeHeader_frozen, hsucceeds, hlive]
      · simp
      · simpa [hsource] using hmirror
      · simpa using hboth hsucceeds
    case isFalse hfails =>
      exact .failed _ _ _ hlive successor.superseded (by simp [writeHeader_frozen, hfails])
        hmirror (.inl rfl)
  split
  case isTrue hfirst =>
    obtain ⟨htwice, hboth⟩ := paired.writeBoth successor hfirst second
    split
    case isTrue hsecond =>
      refine .done _ hlive successor.superseded ?_ rfl ⟨?_, fun _ => hboth hsecond⟩
      · simp [writeHeader_frozen, hfirst, hsecond, hlive]
      · exact Paired.of_both successor.valid successor.bounded (hboth hsecond) .a
    case isFalse hfails =>
      exact .failed _ _ _ hlive successor.superseded (by simp [writeHeader_frozen, hfails])
        htwice (.inr rfl)
  case isFalse hfails => exact .firstFailed hlive paired successor hfails

/-! ## Runs -/

/-- A member file and, while it is open, its member; with the header whose publication completed
last and the one whose publication was cut off. -/
structure HeaderSite where
  storage : Storage
  member : Option Member
  completed : Header
  pending : Option Header

namespace HeaderSite

/-- The site after a call that was to publish `next`. -/
def updated (site : HeaderSite) (next : Header) (result : Member × Except JournalError Unit) :
    HeaderSite :=
  match result.2 with
  | .ok () => ⟨result.1.storage, some result.1, next, none⟩
  | .error .writeFailed => ⟨result.1.storage, some result.1, site.completed, some next⟩
  | .error _ => ⟨result.1.storage, some result.1, site.completed, site.pending⟩

/-- One call, or the end of a session by a close or a crash. -/
inductive Step : HeaderSite → HeaderSite → Prop where
  | start (site : HeaderSite) (mode : OpenMode) (member : Member) :
      site.member = none → openStorage site.storage mode = .ok member →
      Step site ⟨site.storage, some member, member.header, none⟩
  | stop (site : HeaderSite) : Step site { site with member := none }
  | publish (site : HeaderSite) (member : Member) (offset sequence : Nat) (digest : Digest)
      (outcome : WriteOutcome) :
      site.member = some member →
      Step site (site.updated (checkpointHeader member.header offset sequence digest)
        (member.publishCheckpoint offset sequence digest outcome))
  | publishRedundant (site : HeaderSite) (member : Member) (offset sequence : Nat)
      (digest : Digest) (first second : WriteOutcome) :
      site.member = some member →
      Step site (site.updated (checkpointHeader member.header offset sequence digest)
        (member.publishCheckpointRedundant offset sequence digest first second))
  | activate (site : HeaderSite) (member : Member) (first second : WriteOutcome) :
      site.member = some member →
      Step site (site.updated (activatedHeader member.header)
        (member.activateCatalogData first second))

/-- A member that has just been created. -/
def Created (site : HeaderSite) : Prop :=
  ∃ header record outcome member, validateInitialCreate header = .ok () ∧
    createWithFirstRecord header record outcome = (site.storage, .ok member) ∧
    site.member = some member ∧ site.completed = header ∧ site.pending = none

def Reachable (site : HeaderSite) : Prop := ∃ start, Created start ∧ ReflTransGen Step start site

/-- The copies of a site are a pair of the header that was completed last or of the one that was
being written, and the member, while it can be written, has it selected. -/
structure Sound (site : HeaderSite) (current : Header) : Prop where
  paired : ∃ source, Paired site.storage current source
  known : current = site.completed ∨ site.pending = some current
  selected : ∀ member, site.member = some member → member.storage = site.storage ∧
    (member.frozen = false → Current member ∧ member.header = current ∧ current = site.completed)

/-- A later header: neither its sequence number nor its catalog-data bit goes back. -/
def Advances (before after : Header) : Prop := before.headerSequence ≤ after.headerSequence ∧
    (before.catalogData = true → after.catalogData = true)

variable {site : HeaderSite} {current : Header} {later : HeaderSite}

theorem advances_of_superseded (h : Superseded header current) : Advances header current := by
  obtain ⟨_, _, rfl | ⟨hlt, hcatalog⟩ | ⟨hnext, _, hon, _⟩⟩ := h
  · exact ⟨Nat.le_refl _, id⟩
  · exact ⟨hlt.le, fun h => hcatalog ▸ h⟩
  · exact ⟨by omega, fun _ => hon⟩

section

variable (h : site.Sound current)
include h

/-- **A call that publishes a header leaves a pair of copies, of a header that does not go
back.** -/
theorem Sound.updated (hmember : site.member = some member)
    {result : Member × Except JournalError Unit} (updates : Updates member next result) :
    ∃ current', (site.updated next result).Sound current' ∧ Advances current current' := by
  obtain ⟨hstorage, hselected⟩ := h.selected member hmember
  cases updates with
  | refused e hne =>
    refine ⟨current, ?_, Nat.le_refl _, id⟩
    have hsame : site.updated next (member, .error e) =
        ⟨member.storage, some member, site.completed, site.pending⟩ := by
      unfold HeaderSite.updated
      split
      · rename_i hok
        cases hok
      · rename_i hfailed
        exact absurd (error.inj hfailed) hne
      · rfl
    rw [hsame]
    refine ⟨by rw [hstorage]; exact h.paired, h.known, fun found hfound => ?_⟩
    cases hfound
    exact ⟨rfl, hselected⟩
  | failed after left source hlive superseded hfrozen paired hwhich =>
    obtain ⟨_, rfl, hcompleted⟩ := hselected hlive
    refine ⟨left, ⟨⟨source, paired⟩, ?_, fun found hfound => ?_⟩, ?_⟩
    · exact hwhich.imp (fun heq => heq.trans hcompleted) fun heq => congrArg some heq.symm
    · cases hfound
      refine ⟨rfl, fun hlive' => ?_⟩
      rw [hfrozen] at hlive'
      cases hlive'
    · rcases hwhich with rfl | rfl
      · exact ⟨Nat.le_refl _, id⟩
      · exact advances_of_superseded superseded
  | done after hlive superseded hlive' hheader hcurrent =>
    obtain ⟨_, rfl, _⟩ := hselected hlive
    refine ⟨next, ⟨⟨after.source, hheader ▸ hcurrent.paired⟩, .inl rfl, fun found hfound => ?_⟩,
      advances_of_superseded superseded⟩
    cases hfound
    exact ⟨rfl, fun _ => ⟨hcurrent, hheader, rfl⟩⟩

theorem Sound.step
    (step : Step site later) : ∃ current', later.Sound current' ∧ Advances current current' := by
  have hcurrent : ∀ member, site.member = some member → member.frozen = false →
      Current member := fun member hmember hlive => ((h.selected member hmember).2 hlive).1
  cases step with
  | start mode member _ hopen =>
    obtain ⟨source, paired⟩ := h.paired
    obtain ⟨selection, hselect, rfl, hsource⟩ := paired.select
    simp only [openStorage, hselect, ok_iff] at hopen
    obtain ⟨_, rfl, rfl⟩ := hopen
    refine ⟨selection.header, ⟨⟨source, paired⟩, .inl rfl, fun found hfound => ?_⟩,
      Nat.le_refl _, id⟩
    cases hfound
    exact ⟨rfl, fun _ => ⟨⟨hsource, by simp⟩, rfl, rfl⟩⟩
  | stop => exact ⟨current, ⟨h.paired, h.known, by simp⟩, Nat.le_refl _, id⟩
  | publish member offset sequence digest outcome hmember =>
    exact h.updated hmember
      (publishCheckpoint_updates (hcurrent member hmember) offset sequence digest outcome)
  | publishRedundant member offset sequence digest first second hmember =>
    exact h.updated hmember (publishCheckpointRedundant_updates (hcurrent member hmember) offset
      sequence digest first second)
  | activate member first second hmember =>
    exact h.updated hmember (activateCatalogData_updates (hcurrent member hmember) first second)

/-- Along a run the current header does not go back. -/
theorem Sound.run (run : ReflTransGen Step site later) :
    ∃ current', later.Sound current' ∧ Advances current current' := by
  induction run with
  | refl => exact ⟨current, h, Nat.le_refl _, id⟩
  | tail _ step ih =>
    obtain ⟨middle, hmiddle, hsequence, hcatalog⟩ := ih
    obtain ⟨current', hlater, hsequence', hcatalog'⟩ := hmiddle.step step
    exact ⟨current', hlater, hsequence.trans hsequence', hcatalog' ∘ hcatalog⟩

end

theorem Created.sound (h : site.Created) : site.Sound site.completed := by
  obtain ⟨header, record, outcome, member, hvalid, hcreate, hmember, rfl, hpending⟩ := h
  simp only [validateInitialCreate, ok_iff, not_not] at hvalid
  obtain ⟨hvalid, hone, _⟩ := hvalid
  have hbounded : site.completed.headerSequence ≤ maxU64 := by
    rw [hone]
    decide
  obtain ⟨hstorage, hheader, hready, hboth⟩ := createWithFirstRecord_copies hcreate
  have paired := Paired.of_both hvalid hbounded hboth
  refine ⟨⟨.a, paired .a⟩, .inl rfl, fun found hfound => ?_⟩
  obtain rfl := Option.some.inj (hmember.symm.trans hfound)
  refine ⟨hstorage, fun _ => ⟨⟨?_, by simp [hready]⟩, hheader, rfl⟩⟩
  rw [hstorage, hheader]
  exact paired member.source

/-- **Whatever a crash leaves of the two header copies, one header is selected: the one completed
last or the one being written. Its sequence number and its catalog-data bit never go back, and a
member that can be written and reclaimed has the same header in both copies.** -/
theorem reachable_copies {site : HeaderSite} (h : site.Reachable) :
    ∃ selection, MemberFormat.select site.storage.copyA site.storage.copyB = .ok selection ∧
      (selection.header = site.completed ∨ site.pending = some selection.header) ∧
      (∀ later, ReflTransGen Step site later → ∃ next,
        MemberFormat.select later.storage.copyA later.storage.copyB = .ok next ∧
          selection.header.headerSequence ≤ next.header.headerSequence ∧
          (selection.header.catalogData = true → next.header.catalogData = true)) ∧
      ∀ member, site.member = some member → member.checkpointReclaimReady = true →
        member.frozen = false → site.storage.copyA = site.storage.copyB := by
  obtain ⟨start, created, run⟩ := h
  obtain ⟨current, sound, _⟩ := created.sound.run run
  obtain ⟨source, paired⟩ := sound.paired
  obtain ⟨selection, hselect, rfl, _⟩ := paired.select
  refine ⟨selection, hselect, sound.known, fun later onward => ?_,
    fun member hmember hready hlive => ?_⟩
  · obtain ⟨current', sound', advances⟩ := sound.run onward
    obtain ⟨source', paired'⟩ := sound'.paired
    obtain ⟨next, hnext, rfl, _⟩ := paired'.select
    exact ⟨next, hnext, advances⟩
  · obtain ⟨hstorage, hselected⟩ := sound.selected member hmember
    have hboth := (hselected hlive).1.ready hready
    rw [← hstorage]
    exact (hboth .a).trans (hboth .b).symm

end HeaderSite

end

namespace Trio

/-- The header of member `1` that names a checkpoint in slot `1`. -/
def namedHeader : Header := checkpointHeader (header 1 8) 69632 2 5

def newStorage : Storage := ⟨.bytes (header 1 8), .bytes (header 1 8),
    .bytes (genesisOf 1) :: List.replicate 7 .zero⟩

def newMember : Member := ⟨newStorage, header 1 8, .a, false, false, .writable, false⟩

/-- The checkpoint is named by both copies. -/
def namedMember : Member := { newMember with
    storage := { newStorage with copyA := .bytes namedHeader, copyB := .bytes namedHeader }
    header := namedHeader
    checkpointReclaimReady := true }

theorem named_reachable :
    HeaderSite.Reachable ⟨namedMember.storage, some namedMember, namedHeader, none⟩ := by
  refine ⟨⟨newStorage, some newMember, header 1 8, none⟩, ?_, .single ?_⟩
  · exact ⟨header 1 8, genesisOf 1, CreateOutcome.done, newMember, by decide +kernel,
      by decide +kernel, rfl, rfl, rfl⟩
  · have step := HeaderSite.Step.publishRedundant ⟨newStorage, some newMember, header 1 8, none⟩
      newMember 69632 2 5 .done .done rfl
    exact step

/-- At this point the header is selected, and both copies are the same. -/
theorem named_copies :
    ∃ selection, MemberFormat.select namedMember.storage.copyA namedMember.storage.copyB =
        .ok selection ∧
      (selection.header = namedHeader ∨ none = some selection.header) ∧
      (∀ later, ReflTransGen HeaderSite.Step
          ⟨namedMember.storage, some namedMember, namedHeader, none⟩ later →
        ∃ next, MemberFormat.select later.storage.copyA later.storage.copyB = .ok next ∧
          selection.header.headerSequence ≤ next.header.headerSequence ∧
          (selection.header.catalogData = true → next.header.catalogData = true)) ∧
      ∀ member, some namedMember = some member → member.checkpointReclaimReady = true →
        member.frozen = false → namedMember.storage.copyA = namedMember.storage.copyB :=
  HeaderSite.reachable_copies named_reachable

/-- The catalog-data bit is to be set, and the first of the two writes is torn. -/
def tornMember : Member := { namedMember with
    storage := { namedMember.storage with copyB := .damaged .checksumMismatch }
    frozen := true }

/-- The member that froze still counts as ready for a reclaim, and its copies differ. -/
theorem torn_ready_copies_differ :
    ∃ site : HeaderSite, site.Reachable ∧ site.member = some tornMember ∧
      tornMember.checkpointReclaimReady = true ∧ site.storage.copyA ≠ site.storage.copyB := by
  have hactivate : namedMember.activateCatalogData (.failedTorn .checksumMismatch) .done =
      (tornMember, .error .writeFailed) := by
    decide +kernel
  have step := HeaderSite.Step.activate
    ⟨namedMember.storage, some namedMember, namedHeader, none⟩ namedMember
    (.failedTorn .checksumMismatch) .done rfl
  obtain ⟨start, created, run⟩ := named_reachable
  exact ⟨_, ⟨start, created, .tail run step⟩, rfl, rfl, by decide +kernel⟩

end Trio

end Zettide
