import UtxoChain.Proofs.Wire.Counted

/-!
# Cursors only move forward

A decoder leaves the cursor behind the bytes that it has taken, also where it fails after some of its
parts have succeeded (`Advances`). Decoders in a row do so if each of them does (`Advances.bind`), so
this is proved part by part, and a cursor that is within a byte string stays within it.

A single read of a fixed number of bytes takes all of them or none (`FailsInPlace`).
-/

namespace UtxoChain

namespace Cursor

/-- A cursor is within a byte string if it has not passed the end, and what is left to read is what
stands behind it. -/
structure Within (cursor : Cursor) (data : Bytes) : Prop where
  /-- The position is not past the end. -/
  pos_le : cursor.pos ≤ data.length
  /-- The bytes before the position have been read. -/
  rest_eq : cursor.rest = data.drop cursor.pos

variable {start stop cursor : Cursor} {data taken : Bytes}

/-- The start of a byte string is within it. -/
theorem within_ofBytes (data : Bytes) : (ofBytes data).Within data :=
  ⟨Nat.zero_le _, rfl⟩

/-- What remains is the distance to the end. -/
theorem Within.remaining_eq (h : cursor.Within data) :
    cursor.remaining = data.length - cursor.pos := by
  rw [remaining, h.rest_eq, List.length_drop]

/-- The position has moved on by what was taken. -/
theorem Took.pos_le (h : start.Took taken stop) : start.pos ≤ stop.pos := by
  rw [h.pos_eq]
  exact Nat.le_add_right _ _

/-- Taking bytes does not leave the byte string. -/
theorem Took.within (h : start.Took taken stop) (hWithin : start.Within data) :
    stop.Within data := by
  have hRest : taken ++ stop.rest = data.drop start.pos := h.rest_eq.symm.trans hWithin.rest_eq
  have hLength : taken.length + stop.rest.length = data.length - start.pos := by
    rw [← List.length_append, hRest, List.length_drop]
  have hStart := hWithin.pos_le
  have hStop := h.pos_eq
  refine ⟨by omega, ?_⟩
  calc stop.rest = (taken ++ stop.rest).drop taken.length := List.drop_left.symm
    _ = (data.drop start.pos).drop taken.length := by rw [hRest]
    _ = data.drop stop.pos := by rw [List.drop_drop, hStop]

end Cursor

namespace Decoder

open Stateful

variable {α β : Type} {start stop : Cursor}

/-- A decoder succeeds where its result is a value. -/
theorem runAt_eq_ok_iff {decoder : Decoder α} {value : α} :
    decoder.runAt start = (.ok value, stop) ↔ decoder start = .ok value stop := by
  unfold runAt EStateM.run
  cases decoder start with
  | ok found left => simp
  | error fault left => simp

/-- A decoder fails where its result is an error. -/
theorem runAt_eq_error_iff {decoder : Decoder α} {fault : Error} :
    decoder.runAt start = (.error fault, stop) ↔ decoder start = .error fault stop := by
  unfold runAt EStateM.run
  cases decoder start with
  | ok found left => simp
  | error fault left => simp

/-- Where a decoder leaves the cursor, whether it succeeds or fails. -/
def leaves (decoder : Decoder α) (start : Cursor) : Cursor :=
  (decoder.runAt start).2

/-- Where the decoder succeeds, the cursor is left where it stopped. -/
theorem leaves_of_ok {decoder : Decoder α} {value : α} (h : decoder start = .ok value stop) :
    decoder.leaves start = stop := by
  rw [leaves, runAt_eq_ok_iff.2 h]

/-- Where the decoder fails, the cursor is left where it failed. -/
theorem leaves_of_error {decoder : Decoder α} {fault : Error}
    (h : decoder start = .error fault stop) : decoder.leaves start = stop := by
  rw [leaves, runAt_eq_error_iff.2 h]

/-- The decoder leaves the cursor behind some bytes that it has taken, whether it succeeds or fails. -/
def Advances (decoder : Decoder α) : Prop :=
  ∀ start : Cursor, ∃ taken, start.Took taken (decoder.leaves start)

/-- A failure of the decoder takes nothing. -/
def FailsInPlace (decoder : Decoder α) : Prop :=
  ∀ start fault stop, decoder start = .error fault stop → stop = start

/-- A failure of the decoder has one of the given reasons. -/
def FailsOnly (decoder : Decoder α) (reason : Error → Prop) : Prop :=
  ∀ start fault stop, decoder start = .error fault stop → reason fault

/-! ## Decoders in a row -/

/-- A decoder that keeps the cursor advances by nothing. -/
theorem advances_of_leaves_eq {decoder : Decoder α} (h : ∀ start, decoder.leaves start = start) :
    decoder.Advances := by
  intro start
  rw [h start]
  exact ⟨[], (Cursor.took_nil_iff start start).2 rfl⟩

/-- A value that is given takes nothing. -/
theorem advances_pure (value : α) : (pure value : Decoder α).Advances :=
  advances_of_leaves_eq fun _ => rfl

/-- A failure takes nothing. -/
theorem advances_throw (fault : Error) : (throw fault : Decoder α).Advances :=
  advances_of_leaves_eq fun _ => rfl

/-- A value that is computed takes nothing. -/
theorem advances_ofExcept (result : Except Error α) : (ofExcept result).Advances := by
  cases result with
  | ok value => exact advances_pure value
  | error fault => exact advances_throw fault

/-- What two decoders in a row take is what the first takes, and then, if it succeeds, the second. -/
theorem Advances.bind {first : Decoder α} {next : α → Decoder β} (h : first.Advances)
    (hNext : ∀ value, (next value).Advances) : (first >>= next).Advances := by
  intro start
  obtain ⟨one, hOne⟩ := h start
  cases hFirst : first start with
  | ok value middle =>
    obtain ⟨other, hOther⟩ := hNext value middle
    have hLeaves : (first >>= next).leaves start = (next value).leaves middle := by
      rw [leaves, leaves, runAt, runAt, EStateM.run, EStateM.run, bind_of_ok hFirst]
    rw [leaves_of_ok hFirst] at hOne
    rw [hLeaves]
    exact ⟨one ++ other, (Cursor.took_append_iff _ _ _ _).2 ⟨middle, hOne, hOther⟩⟩
  | error fault middle =>
    rw [leaves_of_error hFirst] at hOne
    rw [leaves_of_error (bind_of_error hFirst)]
    exact ⟨one, hOne⟩

/-- A decoder whose value is changed takes what it took. -/
theorem Advances.map {decoder : Decoder α} (h : decoder.Advances) (f : α → β) :
    (f <$> decoder).Advances := by
  rw [← bind_pure_comp]
  exact h.bind fun value => advances_pure (f value)

/-- A read that fails in place still does so when its value is changed. -/
theorem FailsInPlace.map {decoder : Decoder α} (h : decoder.FailsInPlace) (f : α → β) :
    (do return f (← decoder) : Decoder β).FailsInPlace := by
  intro start fault stop hFails
  rcases bind_error_iff.1 hFails with hFirst | ⟨value, middle, -, hDone⟩
  · exact h start fault stop hFirst
  · exact absurd hDone nofun

section

variable {reason : Error → Prop}

/-- A value that is given does not fail. -/
theorem failsOnly_pure (value : α) : (pure value : Decoder α).FailsOnly reason :=
  fun _ _ _ => nofun

/-- A failure has its own reason. -/
theorem failsOnly_throw {fault : Error} (h : reason fault) :
    (throw fault : Decoder α).FailsOnly reason := by
  intro start found stop hFails
  rw [← (throw_error_iff.1 hFails).1]
  exact h

/-- Two decoders in a row fail for the reasons for which one of them does. -/
theorem FailsOnly.bind {first : Decoder α} {next : α → Decoder β} (h : first.FailsOnly reason)
    (hNext : ∀ value, (next value).FailsOnly reason) : (first >>= next).FailsOnly reason := by
  intro start fault stop hFails
  rcases bind_error_iff.1 hFails with hFirst | ⟨value, middle, -, hDone⟩
  · exact h start fault stop hFirst
  · exact hNext value middle fault stop hDone

end

/-! ## Bytes and numbers -/

/-- A read of some bytes within a byte string takes the slice between the position and the position
behind it, which is within the string too, and fails where that slice would reach past the end. -/
theorem bytesOr_within {data : Bytes} (h : start.Within data) (fault : Nat → Error) (count : Nat) :
    bytesOr fault count start =
      if start.pos + count ≤ data.length then
        .ok ((data.drop start.pos).take count)
          ⟨start.pos + count, data.drop (start.pos + count)⟩
      else .error (fault (data.length - start.pos)) start := by
  have hStart := h.pos_le
  have hEnough : count ≤ data.length - start.pos ↔ start.pos + count ≤ data.length := by omega
  rw [bytesOr_eq, h.remaining_eq, h.rest_eq, List.drop_drop]
  exact if_congr hEnough rfl rfl

/-- A read of some bytes advances. -/
theorem advances_bytesOr (fault : Nat → Error) (count : Nat) : (bytesOr fault count).Advances := by
  intro start
  have hResult := bytesOr_eq fault count start
  split_ifs at hResult with hEnough
  · rw [leaves_of_ok hResult]
    exact ⟨_, (bytesOr_ok_iff.1 hResult).2⟩
  · rw [leaves_of_error hResult]
    exact ⟨[], (Cursor.took_nil_iff start start).2 rfl⟩

/-- A read of some bytes fails in place. -/
theorem failsInPlace_bytesOr (fault : Nat → Error) (count : Nat) :
    (bytesOr fault count).FailsInPlace := by
  intro start found stop hFails
  rw [bytesOr_eq] at hFails
  split_ifs at hFails
  exact (EStateM.Result.error.inj hFails).2.symm

/-- A read of some bytes advances. -/
theorem advances_bytes (count : Nat) : (bytes count).Advances :=
  advances_bytesOr _ count

/-- A read of some bytes fails in place. -/
theorem failsInPlace_bytes (count : Nat) : (bytes count).FailsInPlace :=
  failsInPlace_bytesOr _ count

/-- A number of some bytes advances. -/
theorem advances_natBE (width : Nat) : (natBE width).Advances :=
  (advances_bytes width).bind fun _ => advances_pure _

/-- A number of some bytes fails in place. -/
theorem failsInPlace_natBE (width : Nat) : (natBE width).FailsInPlace :=
  (failsInPlace_bytes width).map _

/-- A number of some bytes, the lowest first, advances. -/
theorem advances_natLE (width : Nat) : (natLE width).Advances :=
  (advances_bytes width).bind fun _ => advances_pure _

/-- A number of some bytes, the lowest first, fails in place. -/
theorem failsInPlace_natLE (width : Nat) : (natLE width).FailsInPlace :=
  (failsInPlace_bytes width).map _

/-- A byte advances. -/
theorem advances_byte : byte.Advances :=
  (advances_natBE 1).bind fun _ => advances_pure _

/-- A word of 32 bits advances. -/
theorem advances_word32 : word32.Advances :=
  (advances_natBE 4).bind fun _ => advances_pure _

/-- A word of 64 bits advances. -/
theorem advances_word64 : word64.Advances :=
  (advances_natBE 8).bind fun _ => advances_pure _

/-- A string of fixed width advances. -/
theorem advances_fixed (width : Nat) : (fixed width).Advances :=
  (advances_bytes width).bind fun _ => advances_ofExcept _

/-- A string of fixed width fails in place: once its bytes are read, they have that width. -/
theorem failsInPlace_fixed (width : Nat) : (fixed width).FailsInPlace := by
  intro start fault stop hFails
  rcases bind_error_iff.1 hFails with hFirst | ⟨value, middle, hRead, hDone⟩
  · exact failsInPlace_bytes width start fault stop hFirst
  · obtain ⟨hLength, -⟩ := bytes_ok_iff.1 hRead
    have hFixed : FixedBytes.ofBytes value = .ok (⟨value, hLength⟩ : FixedBytes width) := by
      simp [FixedBytes.ofBytes, FixedBytes.ofBytes?, hLength]
    rw [hFixed] at hDone
    cases hDone

/-! ## Counts and what they count -/

/-- A number behind its marker advances. -/
theorem advances_decodeAfter (marker : UInt8) (width least : Nat) :
    (VarInt.decodeAfter marker width least).Advances := by
  refine (advances_natBE width).bind fun n => ?_
  split_ifs
  · exact advances_throw _
  · exact advances_pure _

/-- A variable-length integer advances. -/
theorem advances_varInt : VarInt.decoder.Advances := by
  refine advances_byte.bind fun first => ?_
  split_ifs
  · exact advances_pure _
  · exact advances_decodeAfter _ _ _
  · exact advances_decodeAfter _ _ _
  · exact advances_decodeAfter _ _ _

/-- A count advances. -/
theorem advances_count : count.Advances :=
  advances_varInt.bind fun _ => advances_pure _

/-- A byte string after its length advances. -/
theorem advances_countedBytes : countedBytes.Advances :=
  advances_count.bind fun _ => advances_bytesOr _ _

/-- Several values in a row advance if each of them does. -/
theorem advances_replicate {decoder : Decoder α} (h : decoder.Advances) (count : Nat) :
    (replicate decoder count).Advances := by
  induction count with
  | zero => exact advances_pure []
  | succ count ih => exact h.bind fun _ => ih.bind fun _ => advances_pure _

/-- A list after its length advances if each item does. -/
theorem advances_counted {decoder : Decoder α} (h : decoder.Advances) :
    (counted decoder).Advances :=
  advances_count.bind fun count => advances_replicate h count

/-- A read of some bytes fails for want of bytes only. -/
theorem failsOnly_bytes {count : Nat} {reason : Error → Prop}
    (h : ∀ needed left, reason (.notEnoughData needed left)) : (bytes count).FailsOnly reason := by
  intro start fault stop hFails
  rw [bytes, bytesOr_eq] at hFails
  split_ifs at hFails
  rw [← (EStateM.Result.error.inj hFails).1]
  exact h _ _

/-- A variable-length integer is refused because it is cut off or not the shortest form, and not for its
size. -/
theorem failsOnly_varInt :
    VarInt.decoder.FailsOnly fun fault => ∀ size, fault ≠ .invalidSize size := by
  have hNumber : ∀ width, (natBE width).FailsOnly fun fault => ∀ size, fault ≠ .invalidSize size :=
    fun width => (failsOnly_bytes fun _ _ _ => nofun).bind fun _ => failsOnly_pure _
  have hAfter : ∀ marker width least, (VarInt.decodeAfter marker width least).FailsOnly
      fun fault => ∀ size, fault ≠ .invalidSize size := by
    intro marker width least
    refine (hNumber width).bind fun n => ?_
    split_ifs
    · exact failsOnly_throw fun _ => nofun
    · exact failsOnly_pure _
  refine ((hNumber 1).bind fun _ => failsOnly_pure _).bind fun first => ?_
  split_ifs
  · exact failsOnly_pure _
  · exact hAfter _ _ _
  · exact hAfter _ _ _
  · exact hAfter _ _ _

/-- A byte string is refused for its length exactly where the length has been read, and nothing behind
it, and more bytes are declared than remain. -/
theorem countedBytes_invalidSize_iff {fault : SizeFault} :
    countedBytes start = .error (.invalidSize fault) stop ↔
      ∃ length : UInt64, start.Took (VarInt.encode length) stop ∧ stop.remaining < length.toNat ∧
        fault = .declaredLength length.toNat stop.remaining := by
  unfold countedBytes
  rw [bind_error_iff]
  constructor
  · rintro (hCount | ⟨length, middle, hCount, hBytes⟩)
    · -- The length itself is never refused for its size.
      rcases bind_error_iff.1 hCount with hInt | ⟨_, _, -, hDone⟩
      · exact absurd rfl (failsOnly_varInt _ _ _ hInt fault)
      · exact absurd hDone nofun
    · obtain ⟨hWord, hTook⟩ := count_ok_iff.1 hCount
      have hLength : (UInt64.ofNat length).toNat = length := UInt64.toNat_ofNat_of_lt' hWord
      rw [bytesOr_eq] at hBytes
      split_ifs at hBytes with hEnough
      obtain ⟨hFault, rfl⟩ := EStateM.Result.error.inj hBytes
      refine ⟨UInt64.ofNat length, hTook, ?_, ?_⟩
      · rw [hLength]
        exact Nat.lt_of_not_le hEnough
      · rw [hLength]
        exact (Error.invalidSize.inj hFault).symm
  · rintro ⟨length, hTook, hShort, rfl⟩
    have hCount : count start = .ok length.toNat stop := by
      rw [count_ok_iff, UInt64.ofNat_toNat]
      exact ⟨length.toNat_lt, hTook⟩
    refine .inr ⟨length.toNat, stop, hCount, ?_⟩
    rw [bytesOr_eq, if_neg (Nat.not_le.2 hShort)]

end Decoder

end UtxoChain
