import Zettide.Format.Error

/-! # Errors of the catalog

The errors that the catalog formats, the catalog graph and the catalog store return, under the
names the source gives them. `control` is an error raised by a format of the control plane;
`unfinished` stands for a loop that did not end within the steps the model grants it. -/

namespace Zettide

inductive CatalogError where
  | control (error : Error)
  | unfinished | overflow
  -- framing
  | checksumMismatch | invalidMagic | unsupportedFormatVersion | nonZeroReserved | invalidRootHeader
  | invalidVolumeHeader | invalidPageHeader | invalidPageKind | unexpectedPageKind
  | invalidPageOwner | pageOwnerMismatch | pageCapacityExceeded | nonZeroPagePadding
  | outputTooSmall | invalidNameEntry | invalidPageGeneration | tooManyPageEntries
  -- page references
  | invalidNullPageReference | invalidPageReference | pageReferenceOverflow
  -- root
  | invalidSetId | invalidRootSequence | invalidPreviousRootDigest | invalidExtentSize
  | unsupportedExtentFormat | aliasedRootPageReference | missingAllocatorRoot | invalidVolumeRoots
  | volumePageCapacityExceeded | invalidRootFlags
  -- volumes
  | invalidVolumeName | invalidVolumeState | invalidProvisioning | invalidVolumeId
  | invalidVolumeSize | extentCountOverflow | invalidExtentCount | incompleteThickReservation
  | missingVolumeHeader | missingExtentMap | unexpectedExtentMap | invalidVolumeFlags
  -- extent runs
  | emptyExtentRun | extentRunOverflow | invalidExtentMemberCount | invalidExtentState
  | nonCanonicalMemberSlots | invalidExtentFlags | extentOutsideVolume | overlappingLogicalExtents
  | nonCanonicalExtentRuns | overlappingPhysicalExtents | thinReservedZeroExtent
  | incompleteThickExtentMap | allocatedExtentCountMismatch | reservedExtentCountMismatch
  | catalogSetMismatch | extentSizeMismatch | erasureCodingNotImplemented
  | invalidMemberDataGeometry | duplicateMemberGeometry | extentPlacementMismatch
  | physicalExtentOverflow | missingMemberGeometry | extentOutsideMemberData
  -- indexes and intervals
  | nonCanonicalVolumeOrder | nonCanonicalNameOrder | catalogIndexCountMismatch
  | catalogNameMismatch | emptyPhysicalInterval | physicalIntervalOverflow
  | invalidRetiredGeneration | nonCanonicalPhysicalIntervalOrder | overlappingPhysicalIntervals
  | nonCanonicalPhysicalIntervals | invalidMetadataInterval | invalidMetadataIntervalState
  | metadataIntervalOverflow | overlappingMetadataIntervals | nonCanonicalMetadataIntervals
  | invalidMemberMetadataGeometry | divergentRecoverablePage | metadataPageOutsideMember
  | metadataIntervalOutsideMember | metadataPageStillReferenced | duplicateVolumeExtentMap
  | overlappingPhysicalOwnership
  -- graph
  | invalidCatalogAuthority | unexpectedMemberGeometry | memberGeometryIdentityMismatch
  | inconsistentMemberMetadataGeometry | duplicatePageImage | volumeHeaderMismatch
  | volumeHeaderStateMismatch | missingPageReference | aliasedCatalogPageReference
  | tooManyCatalogPages | pageDigestMismatch | missingPageImage | futureCatalogPage
  | incompleteMetadataAllocator | catalogGenerationMismatch | catalogAuthorityDigestMismatch
  -- transitions
  | topologyChangedDuringCatalogGeneration | layoutChangedDuringCatalogGeneration
  | memberGeometryChangedDuringCatalogGeneration | unexpectedCatalogGeneration
  | nonMonotonicRootSequence | metadataGeometryChanged | inventedPhysicalFreeSpace
  | invalidPhysicalAllocationTransition | physicalExtentReassignedWithoutRetirement
  | invalidNewRetirementGeneration | physicalExtentReusedBeforeRetirement
  | changedRetirementGeneration | physicalExtentReclaimRequiresAuthorityBarrier
  | incompletePreviousMetadataAllocator | invalidMetadataAllocationTransition
  | metadataPageModifiedInPlace | metadataPageReusedBeforeRetirement
  | metadataPageReclaimRequiresAuthorityBarrier
  -- initial data
  | mappedDataRewriteRequiresGenerationLease | dataMappingRequiresDurabilityWitness
  | dataInitializationMismatch | dataInitializationOverflow | dataInitializationLengthMismatch
  | unexpectedDataInitialization
  -- store
  | regionOutOfBounds | genesisHasNoCatalogRoot | authorityRootUnavailable | missingVolumeIndexPage
  | conflictingPageReference | catalogAuthorityRootMismatch | metadataPageConflict
  | catalogInstallIncomplete | notGenesisAuthority | metadataRootSlotConflict
  | metadataRootSlotUnreadable | memberAuthorityRootMismatch | stagedRootMismatch
  | sharedPageDigestMismatch
  deriving DecidableEq, Repr

/-- A result of the control plane, inside the catalog. -/
def ofControl {α : Type} (x : Except Error α) : Except CatalogError α :=
  match x with
  | .ok a => .ok a
  | .error e => .error (.control e)

@[simp] theorem ofControl_eq_ok {α : Type} (x : Except Error α) (a : α) :
    ofControl x = .ok a ↔ x = .ok a := by
  cases x <;> simp [ofControl]

end Zettide
