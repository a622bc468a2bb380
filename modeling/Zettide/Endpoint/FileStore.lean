import Zettide.Endpoint.Runs

/-! # The wanted endpoints in a file

Translation of `FileStore` of `endpoint_registry.zig`: the format of the file, the bounded read of
it, and its replacement by a rename.

The file is its contents, or nothing if there is no file. A replacement writes a new file beside
the old one; the rename is the only step that changes what a reader sees. Which step of a
replacement fails is an input. -/

namespace Zettide.EndpointRegistry.FileStore

open Bytes Registry List Except Subtype Process Codec

def magic : List UInt8 := [90, 69, 84, 69, 78, 68, 80, 49]
def version : Nat := 2
def headerSize : Nat := 20
def recordSize : Nat := 52
def maxStateBytes : Nat := headerSize + maxEndpointCount * recordSize

/-! ## The format -/

def frontendByte : Frontend → Nat
  | .nvmeOfTcp => 3

def frontendFromInt : Nat → Option Frontend
  | 3 => some .nvmeOfTcp
  | _ => none

def encodeRecord (spec : Spec) : List UInt8 :=
  spec.endpointId.1 ++ (spec.poolId.1 ++ (spec.volumeId.1 ++
    (ofNat 1 (frontendByte spec.frontend) ++ zeros 3)))

def encodeRecords (specs : List Spec) : List UInt8 := specs.flatMap encodeRecord

section

variable [Codec]

def encode (specs : List Spec) : Except StoreError (List UInt8) := do
  rejectIf (specs.length > maxEndpointCount) .tooManyEndpoints
  let records := encodeRecords specs
  .ok (magic ++ (ofNat 2 version ++ (ofNat 2 recordSize ++ (ofNat 4 specs.length ++
    (ofNat 4 (crc32c records) ++ records)))))

end

/-- The identifier at an offset of a record. -/
def identifierAt (record : List UInt8) (offset : Nat) : FixedBytes 16 :=
  ⟨fit 16 (slice record offset 16), length_fit _ _⟩

def decodeRecord (record : List UInt8) : Except StoreError Spec := do
  rejectIf (¬ isZero (slice record 49 3)) .invalidDesiredState
  let tag := getInt 1 record 48
  rejectIf (tag = 1 ∨ tag = 2 ∨ tag = 4) .retiredEndpointFrontend
  let frontend ← orElseFail (frontendFromInt tag) .invalidDesiredState
  .ok ⟨identifierAt record 0, identifierAt record 16, identifierAt record 32, frontend⟩

def decodeRecords : Nat → List UInt8 → Except StoreError (List Spec)
  | 0, _ => .ok []
  | count + 1, bytes => do
      let spec ← decodeRecord (bytes.take recordSize)
      let rest ← decodeRecords count (bytes.drop recordSize)
      .ok (spec :: rest)

section

variable [Codec]

def decode (bytes : List UInt8) : Except StoreError (List Spec) := do
  rejectIf (bytes.length < headerSize ∨ slice bytes 0 8 ≠ magic) .invalidDesiredState
  let encodedVersion := getInt 2 bytes 8
  let encodedRecordSize := getInt 2 bytes 10
  rejectIf (encodedVersion = 1) .retiredEndpointFrontend
  rejectIf (encodedVersion ≠ version ∨ encodedRecordSize ≠ recordSize) .invalidDesiredState
  let count := getInt 4 bytes 12
  rejectIf (count > maxEndpointCount ∨ bytes.length ≠ headerSize + count * recordSize)
    .invalidDesiredState
  rejectIf (getInt 4 bytes 16 ≠ crc32c (bytes.drop headerSize)) .invalidDesiredState
  decodeRecords count (bytes.drop headerSize)

/-! ## The file -/

/-- The contents of the file. A read that reaches the limit fails. -/
def readFileAlloc (file : Option (List UInt8)) (limit : Nat) :
    Except StoreError (Option (List UInt8)) :=
  match file with
  | none => .ok none
  | some bytes => do
      rejectIf (bytes.length ≥ limit) .streamTooLong
      .ok (some bytes)

def load (file : Option (List UInt8)) : Except StoreError (List Spec) := do
  let read ← readFileAlloc file maxStateBytes
  match read with
  | none => .ok []
  | some bytes => decode bytes

/-- The step comes after the rename. -/
def late : FileStep → Bool
  | .parentOpen => true
  | .parentSync => true
  | _ => false

def replace (file : Option (List UInt8)) (fault : Option FileStep) (specs : List Spec) :
    Option (List UInt8) × Except StoreError Unit :=
  match encode specs, fault with
  | .error e, _ => (file, .error e)
  | .ok bytes, none => (some bytes, .ok ())
  | .ok bytes, some step => (if late step then some bytes else file, .error (.failed step))

def desiredStore : DesiredStore (Option (List UInt8)) (Option FileStep) where
  load := load
  replace := replace

end

/-! ## Encoding and decoding -/

theorem length_encodeRecord (spec : Spec) : (encodeRecord spec).length = recordSize := by
  simp [encodeRecord, spec.endpointId.2, spec.poolId.2, spec.volumeId.2, recordSize]

theorem length_encodeRecords (specs : List Spec) :
    (encodeRecords specs).length = specs.length * recordSize := by
  induction specs with
  | nil => rfl
  | cons spec rest ih =>
    show (encodeRecord spec ++ encodeRecords rest).length = _
    rw [length_append, length_encodeRecord, ih, length_cons, Nat.add_mul, Nat.one_mul, Nat.add_comm]

variable {record : List UInt8} {spec : Spec}

theorem slice_eq_identifier {id : FixedBytes 16} {offset : Nat} (h : offset + 16 ≤ record.length) :
    slice record offset 16 = id.1 ↔ identifierAt record offset = id := by
  rw [← val_inj]
  show _ ↔ fit 16 (slice record offset 16) = id.1
  rw [fit_of_length (slice_length h)]

theorem frontendFromInt_iff {tag : Nat} {frontend : Frontend} :
    frontendFromInt tag = some frontend ↔ tag = frontendByte frontend := by
  cases frontend
  unfold frontendFromInt
  split <;> simp_all [frontendByte]

/-- A record decodes to a spec exactly when it is the encoding of it. -/
theorem decodeRecord_iff (hlength : record.length = recordSize) :
    decodeRecord record = .ok spec ↔ encodeRecord spec = record := by
  have hlength : record.length = 52 := hlength
  obtain ⟨endpointId, poolId, volumeId, frontend⟩ := spec
  have htag : ∀ frontend, frontendByte frontend = 3 := fun ⟨⟩ => rfl
  have hsome : Nonempty Frontend := ⟨frontend⟩
  unfold encodeRecord
  rw [append_eq_iff]
  simp only [append_eq_drop, endpointId.2, poolId.2, volumeId.2, length_ofNat, Nat.reduceAdd, htag]
  rw [eq_drop (by simp [hlength]), length_zeros, slice_eq_zeros hlength.ge]
  simp (disch := first | (rw [hlength]; decide) | decide) only [slice_eq_ofNat, slice_eq_identifier]
  simp only [decodeRecord, ok_iff, not_not, exists_and_left, frontendFromInt_iff, Spec.mk.injEq,
    exists_const,
    htag]
  grind

theorem decodeRecords_iff {count : Nat} : ∀ {bytes : List UInt8} {specs : List Spec},
    bytes.length = count * recordSize → (decodeRecords count bytes = .ok specs ↔
        specs.length = count ∧ encodeRecords specs = bytes) := by
  induction count with
  | zero =>
    intro bytes specs hlength
    obtain rfl : bytes = [] := eq_nil_of_length_eq_zero (by simpa using hlength)
    cases specs <;> simp [decodeRecords, encodeRecords]
  | succ count ih =>
    intro bytes specs hlength
    rw [Nat.add_mul, Nat.one_mul] at hlength
    have hfirst : (bytes.take recordSize).length = recordSize := by
      rw [length_take]
      omega
    cases specs with
    | nil => simp [decodeRecords]
    | cons spec rest =>
      have hrest := @ih (bytes.drop recordSize) rest (by rw [length_drop]; omega)
      simp only [decodeRecords, ok_iff, cons.injEq, existsAndEq, decodeRecord_iff hfirst,
        hrest, length_cons, encodeRecords, flatMap_cons, append_eq_iff,
        length_encodeRecord, slice_zero]
      grind

variable [Codec]

variable {specs : List Spec} {bytes : List UInt8} {file after : Option (List UInt8)}
  {n count : Nat} {process : Process (Option (List UInt8))} {fault : Option FileStep}
  {request : Request (Option FileStep)} {requests : List (Request (Option FileStep))}
  {step : FileStep}

theorem encode_eq_ok : encode specs = .ok bytes ↔ specs.length ≤ maxEndpointCount ∧
      bytes = magic ++ (ofNat 2 version ++ (ofNat 2 recordSize ++ (ofNat 4 specs.length ++
        (ofNat 4 (crc32c (encodeRecords specs)) ++ encodeRecords specs)))) := by
  simp only [encode, ok_iff, not_lt]
  exact and_congr_right fun _ => eq_comm

theorem length_of_encode (h : encode specs = .ok bytes) :
    bytes.length = headerSize + specs.length * recordSize := by
  obtain ⟨-, rfl⟩ := encode_eq_ok.mp h
  simp only [length_append, length_ofNat, length_encodeRecords]
  show 8 + (2 + (2 + (4 + (4 + specs.length * recordSize)))) = 20 + specs.length * recordSize
  omega

/-- The fields of a file of specs. -/
theorem file_iff (hsize : 20 ≤ bytes.length) : encode specs = .ok bytes ↔
    specs.length ≤ maxEndpointCount ∧ slice bytes 0 8 = magic ∧ getInt 2 bytes 8 = version ∧
      getInt 2 bytes 10 = recordSize ∧ getInt 4 bytes 12 = specs.length ∧
      getInt 4 bytes 16 = crc32c (encodeRecords specs) ∧
      encodeRecords specs = bytes.drop headerSize := by
  have hmax : maxEndpointCount < 256 ^ 4 := by decide
  rw [encode_eq_ok, eq_comm (a := bytes), append_eq_iff]
  refine and_congr_right fun hcount => ?_
  simp (disch := first | omega | decide | exact crc32c_lt _) only [append_eq_drop,
    length_ofNat, show magic.length = 8 from rfl, Nat.reduceAdd, slice_eq_ofNat, headerSize]

/-- A file decodes to specs exactly when it is the encoding of them. -/
theorem decode_iff : decode bytes = .ok specs ↔ encode specs = .ok bytes := by
  simp only [decode, ok_iff, not_or, not_lt, ne_eq, not_not]
  constructor
  · rintro ⟨⟨hsize, hmagic⟩, -, ⟨hversion, hrecord⟩, ⟨hcount, hlength⟩, hchecksum, hrecords⟩
    have hbody : (bytes.drop headerSize).length = getInt 4 bytes 12 * recordSize := by
      rw [length_drop, hlength, Nat.add_sub_cancel_left]
    obtain ⟨hspecs, hencoded⟩ := (decodeRecords_iff hbody).mp hrecords
    exact (file_iff hsize).mpr ⟨hspecs ▸ hcount, hmagic, hversion, hrecord, hspecs.symm,
      hencoded ▸ hchecksum, hencoded⟩
  · intro h
    have hlength := length_of_encode h
    have hsize : 20 ≤ bytes.length := hlength.ge.trans' (Nat.le_add_right _ _)
    obtain ⟨hcount, hmagic, hversion, hrecord, hnumber, hchecksum, hrecords⟩ :=
      (file_iff hsize).mp h
    rw [hversion, hnumber, hchecksum, ← hrecords, decodeRecords_iff (length_encodeRecords specs)]
    exact ⟨⟨hsize, hmagic⟩, by decide, ⟨rfl, hrecord⟩, ⟨hcount, hlength⟩, rfl, rfl, rfl⟩

/-! ## Restarts -/

section

variable (h : encode specs = .ok bytes)
include h

theorem length_lt_iff : bytes.length < maxStateBytes ↔ specs.length < maxEndpointCount := by
  rw [length_of_encode h]
  simp only [maxStateBytes, headerSize, recordSize, maxEndpointCount]
  omega

/-- The read of a file of the full number of endpoints reaches the limit. -/
theorem load_of_encode : load (some bytes) =
      if specs.length < maxEndpointCount then .ok specs else .error .streamTooLong := by
  simp only [load, readFileAlloc, rejectIf, ge_iff_le, ← not_lt, length_lt_iff h]
  split
  · rfl
  · rw [if_pos (not_not.mp ‹_›)]
    exact decode_iff.mpr h

theorem replace_of_encode : desiredStore.replace file none specs = (some bytes, .ok ()) := by
  show replace file none specs = _
  simp only [replace, h]

end

theorem replace_eq_ok (h : replace file fault specs = (after, .ok ())) :
    ∃ bytes, encode specs = .ok bytes ∧ after = some bytes := by
  unfold replace at h
  split at h
  · simp at h
  · rename_i bytes hencode
    exact ⟨bytes, hencode, (Prod.mk.inj h).1.symm⟩
  · simp at h

omit [Codec] in
/-- The specs of consistent entries pass the checks of a start. -/
theorem validateSpecs_desired {entries : List Entry} (h : Consistent entries) :
    Registry.validateSpecs [] (desiredSpecs entries) = .ok () := by
  refine Registry.validateSpecs_eq_ok.mpr ⟨fun spec hspec => ?_, ?_, by simp⟩
  · obtain ⟨entry, hentry, rfl⟩ := List.mem_map.mp hspec
    exact (h.kept entry (List.mem_of_mem_filter hentry)).valid
  · have hendpoints : entries.Pairwise fun a b => a.spec.endpointId ≠ b.spec.endpointId :=
      List.pairwise_map.mp h.endpoints
    have hpools : entries.Pairwise fun a b => a.spec.poolId ≠ b.spec.poolId :=
      List.pairwise_map.mp h.pools
    have hapart : entries.Pairwise fun a b => Registry.Apart a.spec b.spec := hendpoints.and hpools
    exact List.pairwise_map.mpr (hapart.filter _)

/-- A registry finds its endpoints again after a restart if and only if there are fewer than the
allowed number of them; and no file is accepted but the encoding of the specs that are read. -/
theorem restart_iff (file : Option (List UInt8)) (ops : List (Op (Option FileStep))) :
    let registry := ((Process.start file).run desiredStore ops).registry
    (∀ other fault after,
      desiredStore.replace other fault (desiredSpecs registry.entries) = (after, .ok ()) →
      (Registry.init desiredStore after =
          .ok ((desiredSpecs registry.entries).map pendingEntry) ↔
        desiredCount registry.entries < maxEndpointCount)) ∧
    ∀ bytes specs, decode bytes = .ok specs → encode specs = .ok bytes := by
  intro registry
  refine ⟨fun other fault after hreplace => ?_, fun bytes specs => decode_iff.mp⟩
  obtain ⟨lost, -, hsound⟩ : ∃ lost, _ ∧ Sound registry lost :=
    ((lives_start file).run ops).sound
  obtain ⟨bytes, hencode, rfl⟩ := replace_eq_ok hreplace
  have hload := load_of_encode hencode
  constructor
  · intro hinit
    by_contra hfull
    rw [desiredCount] at hfull
    rw [if_neg hfull] at hload
    simp only [init, ok_iff] at hinit
    obtain ⟨specs, hspecs, -⟩ := hinit
    rw [show desiredStore.load (some bytes) = load (some bytes) from rfl, hload] at hspecs
    cases hspecs
  · intro hless
    rw [desiredCount] at hless
    rw [if_pos hless] at hload
    simp only [init, ok_iff]
    exact ⟨_, hload, by omega, validateSpecs_desired hsound.consistent, rfl⟩

/-! ## A full registry -/

section

omit [Codec]

def numbered (n : Nat) : FixedBytes 16 := ⟨ofNat 16 n, length_ofNat _ _⟩

def numberedSpec (n : Nat) : Spec := ⟨numbered (n + 1), numbered (n + 1), numbered (n + 1), .nvmeOfTcp⟩

/-- No start succeeds, and nothing else fails. -/
def unstarted : Outcomes (Option FileStep) where
  outOfMemory := false
  replace := none
  start _ := .failed
  rollsBack _ := true
  stops _ := true

def numberedEntries (count : Nat) : List Entry :=
  (range count).map fun n => { pendingEntry (numberedSpec n) with phase := .failed }

theorem numbered_inj {m : Nat} (hn : n < 256 ^ 16) (hm : m < 256 ^ 16)
    (h : numbered n = numbered m) : n = m := by
  have hbytes : ofNat 16 n = ofNat 16 m := congrArg val h
  rw [← toNat_ofNat hn, ← toNat_ofNat hm, hbytes]

theorem validateSpec_numberedSpec (h : n < maxEndpointCount) :
    validateSpec (numberedSpec n) = .ok () := by
  have hlarge : maxEndpointCount + 1 < 256 ^ 16 := by decide
  have hnonzero : isZero (ofNat 16 (n + 1)) = false := by
    rw [← Bool.not_eq_true, isZero_iff, length_ofNat]
    intro hzero
    have hsame : numbered (n + 1) = numbered 0 := Subtype.ext hzero
    exact absurd (numbered_inj (by omega) (by omega) hsame) (by omega)
  simp [validateSpec, numberedSpec, numbered, hnonzero]

theorem desiredSpecs_numberedEntries (count : Nat) :
    desiredSpecs (numberedEntries count) = (range count).map numberedSpec := by
  unfold desiredSpecs desiredEntries numberedEntries
  rw [filter_eq_self.mpr (by simp [pendingEntry]), map_map]
  rfl

theorem numberedEntries_fresh (h : count < maxEndpointCount) {entry : Entry}
    (hentry : entry ∈ numberedEntries count) : ¬ Meets (numberedSpec count) entry := by
  have hlarge : maxEndpointCount + 1 < 256 ^ 16 := by decide
  obtain ⟨n, hn, rfl⟩ := mem_map.mp hentry
  rw [mem_range] at hn
  have hdiffers : numbered (n + 1) ≠ numbered (count + 1) := fun hsame =>
    absurd (numbered_inj (by omega) (by omega) hsame) (by omega)
  rintro (hendpoint | ⟨-, hpool⟩)
  · exact hdiffers hendpoint
  · exact hdiffers hpool

end

theorem ensure_numbered (store : Option (List UInt8)) (h : count < maxEndpointCount) :
    ∃ after, Registry.ensure desiredStore ⟨store, ⟨0, []⟩, numberedEntries count⟩
        (numberedSpec count) unstarted =
      (⟨after, ⟨0, []⟩, numberedEntries (count + 1)⟩, .error .startFailed) := by
  have hdrop : (numberedEntries count).dropWhile (fun entry =>
      decide ¬ Registry.Meets (numberedSpec count) entry) = [] :=
    dropWhile_eq_nil_iff.mpr fun entry hentry => by
      simpa using numberedEntries_fresh h hentry
  have hcount : desiredCount (numberedEntries count) = count := by
    rw [desiredCount, desiredSpecs_numberedEntries]
    simp
  obtain ⟨bytes, hencode⟩ : ∃ bytes,
      encode (desiredSpecs (numberedEntries count) ++ [numberedSpec count]) = .ok bytes := by
    refine ⟨_, encode_eq_ok.mpr ⟨?_, rfl⟩⟩
    rw [length_append, ← desiredCount, hcount]
    exact h
  refine ⟨some bytes, ?_⟩
  unfold ensure
  simp only [validateSpec_numberedSpec h, hdrop, hcount, if_neg h.ne, unstarted,
    replace_of_encode hencode, Registry.startBetween, startEntry]
  simp [numberedEntries, List.range_succ, Except.map]

def ensureNumbered (n : Nat) : Op (Option FileStep) := .handle (.ensure (numberedSpec n) unstarted)

theorem run_numbered (h : count ≤ maxEndpointCount) : ∃ store, (start none).run desiredStore
        (.init :: (range count).map ensureNumbered) =
      ⟨⟨store, ⟨0, []⟩, numberedEntries count⟩, true, false⟩ := by
  induction count with
  | zero => exact ⟨none, rfl⟩
  | succ count ih =>
    obtain ⟨store, hrun⟩ := ih (by omega)
    obtain ⟨after, hensure⟩ := ensure_numbered store h
    refine ⟨after, ?_⟩
    rw [range_succ, map_append, ← cons_append, run_append, hrun]
    simp only [map_singleton, run, foldl_cons, foldl_nil, perform, ensureNumbered, handle, hensure]
    rfl

@[reducible] def plainCodec : Codec := ⟨fun _ => 0, fun _ => 0, fun _ => by decide, fun _ => by decide⟩

omit [Codec] in
/-- A registry of the allowed number of endpoints writes a file that it cannot read again. -/
theorem full_registry_unreadable :
    let _ : Codec := plainCodec
    ∃ ops after,
    let registry := ((Process.start none).run desiredStore ops).registry
    desiredCount registry.entries = maxEndpointCount ∧
      desiredStore.replace registry.store none (desiredSpecs registry.entries) = (after, .ok ()) ∧
      Registry.init desiredStore after = .error (.store .streamTooLong) := by
  intro _
  obtain ⟨store, hrun⟩ := run_numbered (le_refl maxEndpointCount)
  have hcount : desiredCount (numberedEntries maxEndpointCount) = maxEndpointCount := by
    rw [desiredCount, desiredSpecs_numberedEntries, List.length_map, List.length_range]
  obtain ⟨bytes, hencode⟩ : ∃ bytes,
      encode (desiredSpecs (numberedEntries maxEndpointCount)) = .ok bytes :=
    ⟨_, encode_eq_ok.mpr ⟨by rw [← desiredCount, hcount], rfl⟩⟩
  refine ⟨.init :: (List.range maxEndpointCount).map ensureNumbered, some bytes, ?_⟩
  rw [hrun]
  dsimp only
  refine ⟨hcount, ?_, ?_⟩
  · exact replace_of_encode hencode
  · have hload := load_of_encode hencode
    rw [← desiredCount, hcount, if_neg (lt_irrefl _)] at hload
    rw [Registry.init, show desiredStore.load (some bytes) = load (some bytes) from rfl, hload]
    rfl

/-! ## Failed replacements -/

/-- The error that a request is answered with, if there is a registry to answer. -/
def answer (process : Process (Option (List UInt8))) (request : Request (Option FileStep)) :
    Option RegistryError :=
  if process.panicked ∨ process.opened = false then none
  else
    match (process.registry.handle desiredStore request).2 with
    | .error e => some e
    | .ok _ => none

omit [Codec] in
/-- The replacement failed after its rename. -/
def LateFailure (error : Option RegistryError) : Prop :=
  ∃ step, late step = true ∧ error = some (.store (.failed step))

/-- The process after the first requests. -/
def called (file : Option (List UInt8)) (requests : List (Request (Option FileStep))) (n : Nat) :
    Process (Option (List UInt8)) :=
  (start file).run desiredStore (.init :: (requests.take n).map .handle)

/-- A file that can be read has fewer than the allowed number of endpoints. -/
theorem length_of_load (h : load file = .ok specs) : specs.length < maxEndpointCount := by
  cases file with
  | none =>
    simp only [load, readFileAlloc, ok_iff] at h
    obtain ⟨read, rfl, h⟩ := h
    cases h
    decide
  | some bytes =>
    simp only [load, readFileAlloc, ok_iff, not_le] at h
    obtain ⟨read, ⟨hshort, rfl⟩, hdecode⟩ := h
    exact (length_lt_iff (decode_iff.mp hdecode)).mp hshort

theorem answer_eq (hpanicked : process.panicked = false) (hopened : process.opened = true) :
    answer process request = some (.store (.failed step)) ↔
      storeError (process.registry.handle desiredStore request).2 = some (.failed step) := by
  unfold answer
  rw [if_neg (by simp [hpanicked, hopened])]
  cases (process.registry.handle desiredStore request).2 with
  | ok view => simp [storeError]
  | error e => cases e <;> simp [storeError]

theorem encode_ne_failed : encode specs ≠ .error (.failed step) := by
  unfold encode rejectIf
  split
  · intro h
    exact absurd (Except.error.inj h) (by simp)
  · intro h
    exact absurd h (by simp [bind, Except.bind])

/-- A failed replacement: nothing was changed, or the new file is in its place. -/
theorem replace_eq_error {e : StoreError} (h : replace file fault specs = (after, .error e)) :
    after = file ∧ (∀ step, e = .failed step → late step = false) ∨
      ∃ bytes step, encode specs = .ok bytes ∧ after = some bytes ∧ late step = true ∧
        e = .failed step := by
  unfold replace at h
  split at h
  · rename_i error fault hencode
    cases h
    refine .inl ⟨rfl, fun step hfailed => ?_⟩
    rw [hfailed] at hencode
    exact absurd hencode encode_ne_failed
  · simp at h
  · rename_i bytes step hencode
    obtain ⟨hafter, hsame⟩ := Prod.mk.inj h
    cases hsame
    cases hlate : late step with
    | true =>
      rw [hlate, if_pos rfl] at hafter
      exact .inr ⟨bytes, step, hencode, hafter.symm, hlate, rfl⟩
    | false =>
      rw [hlate, if_neg (by simp)] at hafter
      refine .inl ⟨hafter.symm, fun other hother => ?_⟩
      obtain rfl := StoreError.failed.inj hother
      exact hlate

/-- A call leaves file and registry the same if and only if its replacement did not fail after
the rename, and the file can be read. -/
theorem load_of_effect {registry after : Registry (Option (List UInt8))}
    {e : Option StoreError} (heffect : Effect desiredStore fault registry after e)
    (h : load registry.store = .ok (desiredSpecs registry.entries)) :
    load after.store = .ok (desiredSpecs after.entries) ↔
      desiredCount after.entries < maxEndpointCount ∧
        ¬ ∃ step, late step = true ∧ e = some (.failed step) := by
  have hcount : desiredCount registry.entries < maxEndpointCount := length_of_load h
  cases heffect with
  | unchanged hsame hspecs =>
    rw [desiredCount, hsame, hspecs]
    exact ⟨fun _ => ⟨hcount, by simp⟩, fun _ => h⟩
  | replaced specs hreplace _ hspecs =>
    obtain ⟨bytes, hencode, hafter⟩ := replace_eq_ok hreplace
    rw [desiredCount, hafter, hspecs, load_of_encode hencode]
    split <;> simp_all
  | refused specs error hreplace hlength _ hentries =>
    rw [desiredCount, hentries]
    obtain ⟨hsame, hearly⟩ | ⟨bytes, step, hencode, hafter, hlate, rfl⟩ := replace_eq_error hreplace
    · rw [hsame]
      refine ⟨fun _ => ⟨hcount, ?_⟩, fun _ => h⟩
      rintro ⟨step, hlate, herror⟩
      rw [hearly step (Option.some.inj herror)] at hlate
      cases hlate
    · -- the new file has another number of specs than the registry
      refine ⟨fun hload => ?_, fun hnot => absurd ⟨step, hlate, rfl⟩ hnot.2⟩
      rw [hafter, load_of_encode hencode] at hload
      split at hload
      · exact absurd (congrArg length (ok.inj hload)) hlength
      · cases hload

/-- Registries that agree with a file have fewer than the allowed number of endpoints. -/
theorem count_of_stored (hlives : process.Lives) (hstored : Stored desiredStore process) :
    desiredCount process.registry.entries < maxEndpointCount := by
  cases hopened : process.opened with
  | false =>
    rw [hlives.closed hopened]
    decide
  | true => exact length_of_load (hstored hopened)

theorem stored_handle (hlives : process.Lives)
    (hstored : Stored desiredStore process) (request : Request (Option FileStep)) :
    Stored desiredStore (process.perform desiredStore (.handle request)) ↔
      desiredCount (process.perform desiredStore (.handle request)).registry.entries <
        maxEndpointCount ∧ ¬ LateFailure (answer process request) := by
  by_cases hended : process.panicked = true ∨ process.opened = false
  · have hsame : process.perform desiredStore (.handle request) = process := by
      unfold perform
      rcases hended with hpanicked | hclosed
      · rw [if_pos hpanicked]
      · rw [hclosed]
        simp
    rw [hsame]
    refine ⟨fun _ => ⟨count_of_stored hlives hstored, ?_⟩, fun _ => hstored⟩
    simp [LateFailure, answer, hended]
  · obtain ⟨hpanicked, hopened⟩ : process.panicked = false ∧ process.opened = true := by
      simpa using hended
    have hperform : process.perform desiredStore (.handle request) =
        process.after (process.registry.handle desiredStore request) := by
      simp [perform, hpanicked, hopened]
    have hlate : LateFailure (answer process request) ↔ ∃ step, late step = true ∧
        storeError (process.registry.handle desiredStore request).2 = some (.failed step) := by
      simp only [LateFailure, answer_eq hpanicked hopened]
    rw [hperform, hlate, Stored, after_opened, after_registry]
    have hhandled : Handled desiredStore request.fault process.registry
        (process.registry.handle desiredStore request).1
        (process.registry.handle desiredStore request).2 :=
      handle_handled (hlives.registry hpanicked) rfl
    rw [← load_of_effect hhandled.effect (hstored hopened)]
    exact ⟨fun h => h hopened, fun h _ => h⟩

theorem called_lives (file : Option (List UInt8)) (requests : List (Request (Option FileStep)))
    (n : Nat) : (called file requests n).Lives :=
  (lives_start file).run _

theorem called_succ (h : requests[n]? = some request) : called file requests (n + 1) =
      (called file requests n).perform desiredStore (.handle request) := by
  unfold called
  rw [take_add_one, h, map_append, ← cons_append, run_append]
  rfl

theorem called_beyond (h : requests[n]? = none) :
    called file requests (n + 1) = called file requests n := by
  have hlength := getElem?_eq_none_iff.mp h
  unfold called
  rw [take_of_length_le hlength, take_of_length_le (by omega)]

/-- A registry that was opened, or could not be, agrees with its file. -/
theorem called_zero (file : Option (List UInt8)) (requests : List (Request (Option FileStep))) :
    Stored desiredStore (called file requests 0) := by
  show Stored desiredStore ((start file).perform desiredStore .init)
  unfold perform
  rw [if_neg (by simp [start])]
  dsimp only [start]
  split
  · exact fun hopened => absurd hopened (by simp)
  · rename_i entries hinit
    exact fun _ => (init_consistent hinit).2.2.1

/-- The directory of the file cannot be synchronized. -/
def unsynced : Outcomes (Option FileStep) := { unstarted with replace := some .parentSync }

end Zettide.EndpointRegistry.FileStore
