import Zettide.Format.Types

/-! # Errors

The errors that the formats, the journal and the evidence checks return, under the names the source
gives them. Errors that only authority selection or the coordinator return have types of their own,
next to the functions that return them. -/

namespace Zettide

inductive Error where
  -- framing
  | framing (fault : FramingFault)
  | checksumMismatch | invalidMagic | historyDigestMismatch
  -- policy, topology, layout
  | invalidPoolMemberCount | invalidErasureCodeProfile | invalidSetId | invalidEpoch
  | invalidParentDigest | invalidMemberCount | invalidTopologyFlags | invalidActiveMemberCount
  | invalidQuorum | invalidMemberId | duplicateMemberId | duplicateMemberSlot | invalidControlRole
  | joiningMemberIsVoter | voterHasNoMetadataRole | invalidRoleFlags | invalidVoterCount
  | nonCanonicalMemberOrder | invalidLayoutEpoch | invalidTopologyEpoch | invalidChunkSize
  | invalidLayoutFlags | invalidScheduledBlobProfile | invalidScheduledBlobMemberCount
  | invalidScheduledBlobCapacity | invalidPlacementDigest | invalidUnprotectedProfile
  | invalidReplicaProfile | futureTopologyEpoch
  -- control records
  | unsupportedRecordKind | payloadTooLarge | invalidLocalSequence | invalidMembershipEpoch
  | invalidIdentity | invalidTopologyDigest | invalidLayoutDigest | invalidPreviousRecordDigest
  | invalidGenesisRecord | invalidPreviousHistoryDigest | invalidGenerationRecord
  | invalidCertificatePayloadLength | invalidMemberBootstrapRecord
  -- certificates
  | invalidAttestationCount | invalidCertificateMemberId | invalidPrepareRecordDigest
  | invalidPrepareHistoryDigest | duplicateCertificateMember | prepareHistoryDigestMismatch
  | nonCanonicalAttestationOrder | certificateDoesNotMeetQuorum | certificateMemberNotInTopology
  | certificateMemberIsNotVoter
  -- membership changes
  | foreignSet | parentTopologyDigestMismatch | memberMustDrainBeforeRemoval | memberSlotChanged
  | invalidMemberStateTransition | newMemberMustJoinAsNonVoter | emptyMembershipTransition
  | invalidMembershipPreparePayloadLength | invalidMembershipCommitPayloadLength
  | notMembershipRecord | invalidMembershipRecord | membershipEpochMismatch | topologyDigestMismatch
  | invalidAttestation | attestationMemberNotFound | attestationMemberIsNotVoter
  | duplicateAttestationMember | conflictingJointAttestation
  -- genesis, bootstrap and checkpoint payloads
  | invalidGenesisPayloadLength | invalidGenesisTopology | invalidGenesisLayout
  | invalidGenesisMemberState | scheduledMemberCountMismatch | genesisMemberNotFound
  | notGenesisRecord | genesisSetIdMismatch | genesisTopologyDigestMismatch
  | genesisLayoutDigestMismatch | invalidBootstrapPayloadLength | bootstrapTargetNotFound
  | bootstrapTargetMismatch | invalidBootstrapTargetState | notMemberBootstrapRecord
  | layoutDigestMismatch | invalidBootstrapFirstRecord | birthTopologyDigestMismatch
  | invalidPreviousAuthorityDigest | unsettledCheckpointTopology | notCheckpointRecord
  | invalidCheckpointTransaction | invalidCheckpointPayloadLength | previousAuthorityDigestMismatch
  | checkpointSetMismatch | checkpointAuthorityMismatch | checkpointPublisherNotInTopology
  | checkpointPublisherIsNotVoter
  -- member headers
  | invalidSequence | conflictingPoolDataMode | blobFilesystemRequiresDynamicPool
  | scheduledBlobDataRequiresDynamicPool | scheduledBlobDataRequiresBlobFilesystem
  | invalidMemberPlacement | catalogDataRequiresDynamicPool | invalidGeometry | invalidAlignment
  | unalignedRegion | regionOverflow | overlappingRegions | invalidCheckpoint | noValidMemberHeader
  | conflictingMemberHeaders | ambiguousMemberHeader | dynamicPoolFeatureRequired
  | scheduledBlobFeatureMismatch | memberHeaderMismatch | chunkSizeMismatch
  | unsupportedLayoutFormat | logicalCapacityMismatch | invalidDynamicPoolFirstRecord
  -- journal scan
  | foreignMember | secondGenesisRecord | duplicateRecordSequence | recordSequenceRegression
  | recordSequenceGap | previousRecordDigestMismatch | previousHistoryDigestMismatch
  | missingAuthorityAnchor | invalidAuthorityAnchor | authorityAnchorHeaderMismatch
  -- evidence
  | authorityTopologyMismatch | authorityLayoutMismatch | duplicateMemberHistory
  | missingCommitMember | missingCommitRecord | missingPrepareMember | missingPrepareRecord
  | evidenceRecordDigestMismatch | evidenceRecordMismatch | witnessMemberMismatch
  | notGenerationCommit | notMembershipCommit | commitMemberMismatch | commitMemberIsNotVoter
  | unexpectedGeneration | writerTermRegression | commitDoesNotExtendPrepare
  | attestedRecordIsNotPrepare | attestedRecordIsNotMembershipPrepare | prepareMemberMismatch
  | prepareDoesNotExtendAuthority | prepareCommitMismatch | membershipProposalMismatch
  | membershipChangedAuthorityData | bootstrapMemberMismatch | conflictingBootstrapEvidence
  | bootstrapIsNotTargetFirstRecord | missingBootstrapEvidence | missingBootstrapTargetCopy
  | noBootstrapQuorum | bootstrapDoesNotExtendAuthority | bootstrapChangedAuthority
  -- replay of one member's journal
  | journalNeedsRecovery | missingGenesis | trustedMemberIsNotVoter | trustedMemberIsNotCurrentVoter
  | recoveryTailIsNotCommitted | missingLocalPrepare | detachedLocalCommit
  | generationChangedConfiguration
  deriving DecidableEq, Repr

end Zettide
