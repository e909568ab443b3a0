import UtxoChain.Proofs.Chain.HeaderRun

/-!
# Accepted headers and proposed ones

A header after another is accepted exactly if it stands where the successor of that one is proposed, at
a time that is not before, and is worked for (`BlockHeader.verify_some_iff_proposed`). What stands at a
place is the index, the predecessor and the target. These are the same for all headers that are
accepted there; version, Merkle root and nonce are free, and the time within its bound, as long as the
digest stays below the target.
-/

namespace UtxoChain

namespace BlockHeader

/-- Two headers stand at one place: they have one index, name one predecessor and carry one target. -/
structure SamePlace (one other : BlockHeader) : Prop where
  /-- The headers have one index. -/
  index_eq : one.index = other.index
  /-- The headers name one predecessor. -/
  prevBlockId_eq : one.prevBlockId = other.prevBlockId
  /-- The headers carry one target. -/
  target_eq : one.target = other.target

section Place

variable {params : Params} {adjustment : Option BlockHeader} {prev header other : BlockHeader}

/-- A header that is proposed after another follows it, if the time does. -/
theorem follows_of_successor {timestamp : UInt64}
    (h : prev.successor adjustment timestamp params = .ok header)
    (hTime : prev.timestamp ≤ timestamp) : Follows params adjustment prev header := by
  obtain ⟨hValid, hIndex, hTarget, hHeader⟩ := successor_eq_ok_iff.1 h
  refine ⟨?_, hIndex, ?_, hValid, hTarget⟩
  · rw [hHeader]
  · rw [hHeader]
    exact hTime

/-- All that is fixed about a header after another is its place, and that its time is not before. -/
theorem Follows.follows_iff (h : Follows params adjustment prev header) :
    Follows params adjustment prev other ↔
      SamePlace header other ∧ prev.timestamp ≤ other.timestamp := by
  constructor
  · intro hOther
    have hIndex : header.index = other.index := by
      apply UInt64.toNat_inj.1
      rw [h.index_eq, hOther.index_eq]
    have hTarget := h.nextTarget_eq
    rw [hIndex, hOther.nextTarget_eq] at hTarget
    refine ⟨⟨hIndex, ?_, (Except.ok.inj hTarget).symm⟩, hOther.timestamp_le⟩
    rw [h.prevBlockId_eq, hOther.prevBlockId_eq]
  · rintro ⟨hPlace, hTime⟩
    refine ⟨?_, ?_, hTime, h.params_valid, ?_⟩
    · rw [← hPlace.prevBlockId_eq, h.prevBlockId_eq]
    · rw [← hPlace.index_eq, h.index_eq]
    · rw [← hPlace.index_eq, ← hPlace.target_eq, h.nextTarget_eq]

/-- A header has its place after another exactly if it is the place of the header that is proposed for
its time, and this is not before. -/
theorem follows_iff_exists_successor :
    Follows params adjustment prev header ↔
      (∃ proposed, prev.successor adjustment header.timestamp params = .ok proposed ∧
        SamePlace proposed header) ∧ prev.timestamp ≤ header.timestamp := by
  constructor
  · intro h
    have hProposed : prev.successor adjustment header.timestamp params = .ok ⟨proposedVersion, prev.id,
        FixedBytes.zero, header.timestamp, header.target, FixedBytes.zero, header.index⟩ :=
      successor_eq_ok_iff.2 ⟨h.params_valid, h.index_eq, h.nextTarget_eq, rfl⟩
    exact ⟨⟨_, hProposed, rfl, h.prevBlockId_eq.symm, rfl⟩, h.timestamp_le⟩
  · rintro ⟨⟨proposed, hProposed, hPlace⟩, hTime⟩
    exact (follows_of_successor hProposed hTime).follows_iff.2 ⟨hPlace, hTime⟩

end Place

/-- A header after another is accepted exactly if a successor can be proposed for its time, it has the
index, the predecessor and the target of that one, its time is not before, and its digest is below its
target. Then it does not start a chain, and whatever else has that place is accepted as well, if its
time is not before and its digest below the target. -/
theorem verify_some_iff_proposed (params : Params) (prev : BlockHeader)
    (adjustment : Option BlockHeader) (header : BlockHeader) :
    (header.verify params (some prev) adjustment = .ok () ↔
      (∃ proposed, prev.successor adjustment header.timestamp params = .ok proposed ∧
        SamePlace proposed header) ∧ prev.timestamp ≤ header.timestamp ∧
        header.hash.toNat < header.target.toNat) ∧
      (header.verify params (some prev) adjustment = .ok () →
        header.isGenesis = false ∧
          ∀ other : BlockHeader, other.verify params (some prev) adjustment = .ok () ↔
            SamePlace header other ∧ prev.timestamp ≤ other.timestamp ∧
              other.hash.toNat < other.target.toNat) := by
  simp only [verify_some_eq_ok_iff, meetsTarget_iff]
  constructor
  · rw [follows_iff_exists_successor, and_comm, and_assoc]
  · rintro ⟨-, hFollows⟩
    refine ⟨hFollows.isGenesis_eq_false, fun other => ?_⟩
    rw [hFollows.follows_iff, and_comm, and_assoc]

end BlockHeader

namespace Sample

/-- The header at the end of the first period is accepted with every nonce that makes its digest lower
than its target. -/
theorem verify_withNonce_thirdHeader :
    thirdHeader.verify shortPeriods (some secondHeader) (some firstHeader) = .ok () ∧
      ∀ nonce, (thirdHeader.withNonce nonce).verify shortPeriods (some secondHeader)
          (some firstHeader) = .ok () ↔
        (thirdHeader.withNonce nonce).hash.toNat < thirdHeader.target.toNat := by
  have hVerify : thirdHeader.verify shortPeriods (some secondHeader) (some firstHeader) = .ok () := by
    decide +kernel
  obtain ⟨-, hOthers⟩ :=
    BlockHeader.verify_some_iff_proposed shortPeriods secondHeader (some firstHeader) thirdHeader
  obtain ⟨-, hAccepted⟩ := hOthers hVerify
  refine ⟨hVerify, fun nonce => ?_⟩
  rw [hAccepted]
  constructor
  · rintro ⟨-, -, hWork⟩
    exact hWork
  · intro hWork
    exact ⟨⟨rfl, rfl, rfl⟩, (by decide : secondHeader.timestamp ≤ thirdHeader.timestamp), hWork⟩

end Sample

end UtxoChain
