import UtxoChain.Proofs.Rules.Header

/-!
# Runs of headers

A run is a row of headers in which the first is accepted without a predecessor and each other one
after the header before it. What one acceptance says of a header and its predecessor
(`BlockHeader.Linked`) adds up over a run of any length: the first header starts a chain, each stands
at its own index, and the times never decrease (`HeaderRun.inOrder`).

At the end of a period a header is checked with the header that opened it, which is given from
outside. It is known by its index only.
-/

namespace UtxoChain

namespace BlockHeader

/-- A header is tied to its predecessor by id, work and target. `opening` is the header that is given
as the one that opened the period. -/
structure Linked (params : Params) (opening : Option BlockHeader) (prev header : BlockHeader) :
    Prop where
  /-- The header names its predecessor. -/
  prevBlockId_eq : header.prevBlockId = prev.id
  /-- The digest is below the target. -/
  hash_lt : header.hash.toNat < header.target.toNat
  /-- Within a period the target is kept. -/
  target_eq : ¬ params.blocksPerAdjustment.toNat ∣ header.index.toNat → header.target = prev.target
  /-- At the end of a period the header that stands one period back must be given, and the target is at
  most four times the old one and not below what half a period makes of it. -/
  adjusted : params.blocksPerAdjustment.toNat ∣ header.index.toNat →
    (∃ opened, opening = some opened ∧
      opened.index.toNat + params.blocksPerAdjustment.toNat = header.index.toNat) ∧
    prev.target.toNat * (params.exactInterval / 2) / params.exactInterval ≤ header.target.toNat ∧
    header.target.toNat ≤ 4 * prev.target.toNat

/-- A header that is accepted after another is tied to it. -/
theorem linked_of_verify {params : Params} {opening : Option BlockHeader} {prev header : BlockHeader}
    (h : header.verify params (some prev) opening = .ok ()) :
    Linked params opening prev header := by
  obtain ⟨hWork, hFollows⟩ := verify_some_eq_ok_iff.1 h
  have hNext := hFollows.nextTarget_eq
  have hPos : 0 < header.index.toNat := by
    rw [hFollows.index_eq]
    exact Nat.succ_pos _
  have hAdjust := hFollows.params_valid.isAdjustmentIndex_iff hPos
  refine ⟨hFollows.prevBlockId_eq, meetsTarget_iff.1 hWork, ?_, ?_⟩
  · intro hWithin
    rw [← hAdjust, Bool.not_eq_true] at hWithin
    rw [nextTarget_of_kept hWithin] at hNext
    exact (Except.ok.inj hNext).symm
  · intro hEnd
    rw [← hAdjust] at hEnd
    obtain ⟨opened, hOpening, hIndex, hTarget⟩ := (nextTarget_eq_ok_iff_of_adjusted hEnd).1 hNext
    exact ⟨⟨opened, hOpening, hIndex.symm⟩, newTarget_between hTarget⟩

end BlockHeader

/-- The headers from place 0 to the last are accepted, each after the one before it, and each with the
header that is given at its place as the one that opened its period. -/
structure HeaderRun (params : Params) (headers : Nat → BlockHeader)
    (openings : Nat → Option BlockHeader) (last : Nat) : Prop where
  /-- The first header is accepted without a predecessor. -/
  start : (headers 0).verify params none (openings 0) = .ok ()
  /-- Every other header is accepted after the one before it. -/
  next : ∀ place < last,
    (headers (place + 1)).verify params (some (headers place)) (openings (place + 1)) = .ok ()

/-- Headers are in order from place 0 to the last. -/
structure InOrder (params : Params) (headers : Nat → BlockHeader)
    (openings : Nat → Option BlockHeader) (last : Nat) : Prop where
  /-- The first header starts a chain. -/
  isGenesis : (headers 0).isGenesis = true
  /-- Each header stands at its own index. -/
  index_eq : ∀ place ≤ last, (headers place).index.toNat = place
  /-- The times never decrease. -/
  timestamp_le : ∀ early late, early ≤ late → late ≤ last →
    (headers early).timestamp ≤ (headers late).timestamp
  /-- Each header but the first is tied to the one before it. -/
  linked : ∀ place < last,
    BlockHeader.Linked params (openings (place + 1)) (headers place) (headers (place + 1))

namespace HeaderRun

variable {params : Params} {headers : Nat → BlockHeader} {openings : Nat → Option BlockHeader}
  {last : Nat}

/-- The first header of a run starts a chain. -/
theorem isGenesis_first (h : HeaderRun params headers openings last) :
    (headers 0).isGenesis = true :=
  BlockHeader.verify_none_eq_ok_iff.1 h.start

/-- Each header of a run has its place after the one before it. -/
theorem follows (h : HeaderRun params headers openings last) {place : Nat} (hPlace : place < last) :
    BlockHeader.Follows params (openings (place + 1)) (headers place) (headers (place + 1)) :=
  (BlockHeader.verify_some_eq_ok_iff.1 (h.next place hPlace)).2

/-- Each header of a run stands at its own index. -/
theorem toNat_index (h : HeaderRun params headers openings last) {place : Nat}
    (hPlace : place ≤ last) : (headers place).index.toNat = place := by
  induction place with
  | zero =>
    have hGenesis := h.isGenesis_first
    unfold BlockHeader.isGenesis at hGenesis
    rw [Bool.and_eq_true, beq_iff_eq] at hGenesis
    rw [hGenesis.1]
    rfl
  | succ place ih =>
    rw [(h.follows hPlace).index_eq, ih (Nat.le_of_succ_le hPlace)]

/-- The times of a run never decrease. -/
theorem timestamp_mono (h : HeaderRun params headers openings last) {early late : Nat}
    (hOrder : early ≤ late) (hLate : late ≤ last) :
    (headers early).timestamp ≤ (headers late).timestamp := by
  induction late, hOrder using Nat.le_induction with
  | base => exact UInt64.le_refl _
  | succ late hOrder ih =>
    have hStep := (h.follows hLate).timestamp_le
    exact UInt64.le_trans (ih (Nat.le_of_succ_le hLate)) hStep

/-- The headers of a run are in order: the first starts a chain, each stands at its own index, the times
never decrease, and each is tied to the one before it by id, work and target. -/
theorem inOrder (params : Params) (headers : Nat → BlockHeader)
    (openings : Nat → Option BlockHeader) (last : Nat)
    (h : HeaderRun params headers openings last) : InOrder params headers openings last := by
  refine ⟨h.isGenesis_first, ?_, ?_, ?_⟩
  · intro place hPlace
    exact h.toNat_index hPlace
  · intro early late hOrder hLate
    exact h.timestamp_mono hOrder hLate
  · intro place hPlace
    exact BlockHeader.linked_of_verify (h.next place hPlace)

end HeaderRun

namespace Sample

/-- Periods of two blocks, which should take twenty seconds. -/
def shortPeriods : Params := ⟨2, 10, 100⟩

/-- The first header of a run, with the largest target. -/
def firstHeader : BlockHeader :=
  ⟨0, FixedBytes.zero, FixedBytes.zero, 100, FixedBytes.ofNat (256 ^ 32 - 1), FixedBytes.zero, 0⟩

/-- The header in the middle of the first period, which keeps the target. -/
def secondHeader : BlockHeader :=
  ⟨0, firstHeader.id, FixedBytes.zero, 112, firstHeader.target, FixedBytes.zero, 1⟩

/-- The header at the end of the first period. It took twelve seconds, so the target falls to three
fifths. -/
def thirdHeader : BlockHeader :=
  ⟨0, secondHeader.id, FixedBytes.zero, 112, FixedBytes.ofNat ((256 ^ 32 - 1) * 12 / 20),
    FixedBytes.ofNat 1, 2⟩

/-- The three headers at their places. -/
def threeHeaders (place : Nat) : BlockHeader :=
  match place with
  | 0 => firstHeader
  | 1 => secondHeader
  | _ => thirdHeader

/-- The three headers are a run, and so in order. -/
theorem inOrder_threeHeaders :
    HeaderRun shortPeriods threeHeaders (fun _ => some firstHeader) 2 ∧
      InOrder shortPeriods threeHeaders (fun _ => some firstHeader) 2 := by
  have hRun : HeaderRun shortPeriods threeHeaders (fun _ => some firstHeader) 2 :=
    ⟨by decide +kernel, by decide +kernel⟩
  exact ⟨hRun, HeaderRun.inOrder _ _ _ _ hRun⟩

end Sample

end UtxoChain
