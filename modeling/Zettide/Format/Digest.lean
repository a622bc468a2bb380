import Zettide.Format.Types
import Mathlib.Logic.Encodable.Basic
import Mathlib.Data.List.Basic
import Mathlib.Data.Nat.Pairing
import Mathlib.Logic.Relation

/-! # Digests

Every digest of the control plane is a BLAKE3 digest of the bytes of a value. Those byte strings
start with different magics, so a hashed byte string is a `Message`: the value together with the
format it was encoded in. BLAKE3 itself is not part of the repository; it is the parameter
`Blake3`, and what the repository relies on is the assumption `CollisionFree`.

`tableBlake3` shows that the assumption can be met by a function that computes: it numbers the
messages of a given list and sends every other message to a number beyond the list. -/

namespace Zettide

/-- A byte string that the control plane hashes. -/
inductive Message where
  | history (preimage : HistoryPreimage)
  | record (record : Record)
  | topology (topology : Topology)
  | layout (layout : Layout)
  deriving DecidableEq, Repr, Countable

/-- The hash function. -/
class Blake3 where
  blake3 : Message → Digest

export Blake3 (blake3)

section

variable [Blake3]

/-- `Precedes d d'` : some shared record with history digest `d'` names `d` as the history digest
of its predecessor. -/
def Precedes (d d' : Digest) : Prop :=
  ∃ p : HistoryPreimage, p.previousHistoryDigest = d ∧ blake3 (.history p) = d'

/-- What is assumed of the hash function: different messages have different digests, no message
has the all-zero digest, and a digest cannot be reached from itself through references to
predecessors (a record can only name a digest that was computed before its own). -/
class CollisionFree : Prop where
  injective : Function.Injective (blake3 : Message → Digest)
  ne_zero : ∀ m : Message, blake3 m ≠ 0
  acyclic : ∀ d : Digest, ¬ Relation.TransGen Precedes d d

variable [CollisionFree]

theorem history_inj {p q : HistoryPreimage}
    (h : blake3 (.history p) = blake3 (.history q)) : p = q := by
  simpa using CollisionFree.injective h

theorem record_inj {r s : Record} (h : blake3 (.record r) = blake3 (.record s)) : r = s := by
  simpa using CollisionFree.injective h

end

/-! ## A hash function given by a table -/

section

/-- The history digest a message names as its predecessor. -/
def Message.reference (m : Message) : Nat :=
  match m with
  | .history p => p.previousHistoryDigest
  | _ => 0

/-- An arbitrary numbering of all messages. -/
noncomputable def Message.number : Message → Nat := Classical.choose (exists_injective_nat Message)

theorem Message.number_injective : Function.Injective Message.number :=
  Classical.choose_spec (exists_injective_nat Message)

/-- A message of the table gets its position (counted from one); any other message a number beyond
the table and beyond the digest it refers to. -/
noncomputable def tableDigest (table : List Message) (m : Message) : Nat :=
  if m ∈ table then table.idxOf m + 1
  else table.length + 1 + Nat.pair m.number m.reference

/-- Every message of the table refers only to messages before it. -/
def OrderedTable (table : List Message) : Prop := ∀ m ∈ table, m.reference < table.idxOf m + 1

instance (table : List Message) : Decidable (OrderedTable table) :=
  inferInstanceAs (Decidable (∀ m ∈ table, m.reference < table.idxOf m + 1))

variable (table : List Message)

theorem tableDigest_injective : Function.Injective (tableDigest table) := by
  intro m n h
  unfold tableDigest at h
  split at h <;> split at h
  case isTrue.isTrue hm hn =>
    exact (List.idxOf_inj hm).mp (by omega)
  case isTrue.isFalse hm hn =>
    have := List.idxOf_lt_length_of_mem hm
    omega
  case isFalse.isTrue hm hn =>
    have := List.idxOf_lt_length_of_mem hn
    omega
  case isFalse.isFalse hm hn =>
    have hpair : Nat.pair m.number m.reference = Nat.pair n.number n.reference := by omega
    exact Message.number_injective (Nat.pair_eq_pair.mp hpair).1

theorem reference_lt_tableDigest (ordered : OrderedTable table) (m : Message) :
    m.reference < tableDigest table m := by
  unfold tableDigest
  split
  case isTrue hm => exact ordered m hm
  case isFalse hm =>
    have := Nat.right_le_pair m.number m.reference
    omega

/-- The table as hash function. -/
@[reducible] noncomputable def tableBlake3 : Blake3 := ⟨tableDigest table⟩

theorem tableBlake3_collisionFree (ordered : OrderedTable table) :
    @CollisionFree (tableBlake3 table) := by
  let _ := tableBlake3 table
  have hlt : ∀ d d' : Digest, Relation.TransGen Precedes d d' → d < d' := by
    intro d d' h
    induction h with
    | single h =>
      obtain ⟨p, rfl, rfl⟩ := h
      exact reference_lt_tableDigest table ordered (.history p)
    | tail _ h ih =>
      obtain ⟨p, rfl, rfl⟩ := h
      exact ih.trans (reference_lt_tableDigest table ordered (.history p))
  refine ⟨tableDigest_injective table, ?_, fun d h => absurd (hlt d d h) (Nat.lt_irrefl d)⟩
  intro m
  show tableDigest table m ≠ 0
  unfold tableDigest
  split <;> omega

end

end Zettide
