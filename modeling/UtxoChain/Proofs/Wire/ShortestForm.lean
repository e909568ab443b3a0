import UtxoChain.Proofs.Wire.Counted

/-!
# Shortest forms of variable-length integers

A marker tells how many bytes follow it, and these may be more than the number needs: a small number
can be written in four ways (`Writes`). Among the forms of a number the one that is encoded is shorter
than all others (`Writes.eq_or_length_lt`), and it is the only one that is read (`reads_iff_shortest`).
-/

namespace UtxoChain

namespace VarInt

open Decoder

/-- The number of bytes that follow a marker. -/
def width? (marker : UInt8) : Option Nat :=
  if marker < 0xfd then none
  else if marker = 0xfd then some 2
  else if marker = 0xfe then some 4
  else some 8

/-- The forms of a number, whether or not a shorter one would do. -/
inductive Writes : Bytes → UInt64 → Prop
  /-- A byte that is no marker. -/
  | byte {first : UInt8} (h : width? first = none) : Writes [first] first.toUInt64
  /-- A marker, and behind it as many bytes as it says. -/
  | wide {marker : UInt8} {digits : Bytes} {value : UInt64}
      (hWidth : width? marker = some digits.length) (hValue : Bytes.toNatBE digits = value.toNat) :
      Writes (marker :: digits) value

/-- A byte string is the shortest form of a number. -/
structure IsShortest (bytes : Bytes) (value : UInt64) : Prop where
  /-- It is a form of the number. -/
  writes : Writes bytes value
  /-- No form of the number is shorter. -/
  le_length : ∀ other, Writes other value → bytes.length ≤ other.length

/-- The digits of a number behind a marker are one of its forms, if there is room for all of them. -/
theorem writes_ofNatBE {marker : UInt8} {width : Nat} {value : UInt64}
    (hMarker : width? marker = some width) (hFits : value.toNat < 256 ^ width) :
    Writes (marker :: Bytes.ofNatBE width value.toNat) value := by
  refine .wide ?_ (Bytes.toNatBE_ofNatBE_of_lt hFits)
  rw [Bytes.length_ofNatBE, hMarker]

/-- A number below the markers is a form of itself. -/
theorem writes_singleton {value : UInt64} (hByte : value.toNat < 0xfd) :
    Writes [UInt8.ofNat value.toNat] value := by
  have hRead : (UInt8.ofNat value.toNat).toNat = value.toNat :=
    UInt8.toNat_ofNat_of_lt' (Nat.lt_trans hByte (by decide))
  have hFirst : UInt8.ofNat value.toNat < 0xfd := by
    rw [UInt8.lt_iff_toNat_lt, hRead]
    exact hByte
  have hSame : (UInt8.ofNat value.toNat).toUInt64 = value := by
    rw [← UInt64.toNat_inj, UInt8.toNat_toUInt64, hRead]
  have hForm : Writes [UInt8.ofNat value.toNat] (UInt8.ofNat value.toNat).toUInt64 :=
    .byte (if_pos hFirst)
  rwa [hSame] at hForm

/-- What is encoded is a form of the number. -/
theorem writes_encode (value : UInt64) : Writes (encode value) value := by
  have hValue : value.toNat < 256 ^ 8 := value.toNat_lt
  unfold encode
  dsimp only
  split_ifs with hByte hTwo hFour
  · exact writes_singleton hByte
  · exact writes_ofNatBE rfl hTwo
  · exact writes_ofNatBE rfl hFour
  · exact writes_ofNatBE rfl hValue

/-- The markers and the number of bytes that follow each of them. -/
theorem width?_eq_some_iff {marker : UInt8} {width : Nat} :
    width? marker = some width ↔
      marker = 0xfd ∧ width = 2 ∨ marker = 0xfe ∧ width = 4 ∨ marker = 0xff ∧ width = 8 := by
  constructor
  · intro h
    unfold width? at h
    split_ifs at h with hByte hTwo hFour
    · exact .inl ⟨hTwo, (Option.some.inj h).symm⟩
    · exact .inr (.inl ⟨hFour, (Option.some.inj h).symm⟩)
    · exact .inr (.inr ⟨eq_widest_of_ne hByte hTwo hFour, (Option.some.inj h).symm⟩)
  · rintro (⟨rfl, rfl⟩ | ⟨rfl, rfl⟩ | ⟨rfl, rfl⟩) <;> rfl

/-- A number is encoded behind a marker that leaves room for it, or in fewer bytes. -/
theorem encode_eq_or_length_le {marker : UInt8} {width : Nat} {value : UInt64}
    (hMarker : width? marker = some width) (hFits : value.toNat < 256 ^ width) :
    encode value = marker :: Bytes.ofNatBE width value.toNat ∨ (encode value).length ≤ width := by
  have hWord16 : UInt16.size = 256 ^ 2 := rfl
  have hWord32 : UInt32.size = 256 ^ 4 := rfl
  unfold encode
  dsimp only
  rcases width?_eq_some_iff.1 hMarker with ⟨rfl, rfl⟩ | ⟨rfl, rfl⟩ | ⟨rfl, rfl⟩
  · split_ifs with hByte hTwo hFour
    · exact .inr (by simp)
    · exact .inl rfl
    · omega
    · omega
  · split_ifs with hByte hTwo hFour
    · exact .inr (by simp)
    · exact .inr (by simp)
    · exact .inl rfl
    · omega
  · split_ifs with hByte hTwo hFour
    · exact .inr (by simp)
    · exact .inr (by simp)
    · exact .inr (by simp)
    · exact .inl rfl

/-- A form of a number is the encoded one, or it is longer than that. -/
theorem Writes.eq_or_length_lt {bytes : Bytes} {value : UInt64} (h : Writes bytes value) :
    bytes = encode value ∨ (encode value).length < bytes.length := by
  cases h with
  | @byte first h =>
    have hFirst : first < 0xfd := by
      by_contra hMarker
      rw [width?, if_neg hMarker] at h
      split_ifs at h
    have hLess : first.toNat < 0xfd := hFirst
    left
    rw [encode, UInt8.toNat_toUInt64, if_pos hLess, UInt8.ofNat_toNat]
  | @wide marker digits _ hWidth hValue =>
    have hFits := Bytes.toNatBE_lt digits
    have hDigits := Bytes.ofNatBE_toNatBE digits
    rw [hValue] at hFits hDigits
    rcases encode_eq_or_length_le hWidth hFits with hSame | hShorter
    · left
      rw [hSame, hDigits]
    · right
      rw [List.length_cons]
      omega

/-- The shortest form of a number is the one that is encoded. -/
theorem isShortest_iff {bytes : Bytes} {value : UInt64} :
    IsShortest bytes value ↔ bytes = encode value := by
  constructor
  · intro h
    have hLeast := h.le_length (encode value) (writes_encode value)
    exact h.writes.eq_or_length_lt.resolve_right (Nat.not_lt.2 hLeast)
  · rintro rfl
    refine ⟨writes_encode value, fun other hOther => ?_⟩
    rcases hOther.eq_or_length_lt with rfl | hLonger
    · exact Nat.le_refl _
    · exact Nat.le_of_lt hLonger

/-- Every number is read from its encoded form. -/
theorem inverts_decoder : Inverts decoder encode fun _ => True := by
  intro start value stop
  rw [true_and]
  exact decoder_ok_iff

/-- Every number is read from every place where its encoded form stands, which leaves what follows. What
is read took exactly that form, whatever follows. So a whole byte string is a number exactly if it is
the encoded form of it, and that is the shortest of all forms of the number. -/
theorem reads_iff_shortest :
    (∀ (value : UInt64) (pos : Nat) (rest : Bytes),
      decoder ⟨pos, encode value ++ rest⟩ = .ok value ⟨pos + (encode value).length, rest⟩) ∧
    (∀ (pos : Nat) (bytes : Bytes) (value : UInt64) (stop : Cursor),
      decoder ⟨pos, bytes⟩ = .ok value stop →
        bytes = encode value ++ stop.rest ∧ stop.pos = pos + (encode value).length) ∧
    (∀ (bytes : Bytes) (value : UInt64), decode bytes = .ok value ↔ bytes = encode value) ∧
    ∀ (bytes : Bytes) (value : UInt64), decode bytes = .ok value ↔ IsShortest bytes value := by
  have hWhole : ∀ (bytes : Bytes) (value : UInt64),
      decode bytes = .ok value ↔ bytes = encode value := by
    intro bytes value
    unfold decode
    rw [decodeAll_eq_ok_iff inverts_decoder, true_and]
  refine ⟨fun value pos rest => inverts_decoder.decoder_append trivial pos rest, ?_, hWhole, ?_⟩
  · intro pos bytes value stop hRead
    obtain ⟨hRest, hPos⟩ := decoder_ok_iff.1 hRead
    exact ⟨hRest, hPos⟩
  · intro bytes value
    rw [hWhole, isShortest_iff]

end VarInt

namespace Sample

/-- Below the markers a number is its own byte, and behind a marker it is refused; the first number that
needs a marker is read behind it, and the bytes that follow are left. -/
theorem decode_aroundMarker :
    VarInt.decode [0xfc] = .ok 0xfc ∧ VarInt.decode [0xfd, 0x00, 0xfc] ≠ .ok 0xfc ∧
      VarInt.decoder ⟨5, [0xfd, 0x00, 0xfd, 7]⟩ = .ok 0xfd ⟨8, [7]⟩ ∧
      [0xfd, 0x00, 0xfd, 7] = VarInt.encode 0xfd ++ [7] := by
  obtain ⟨hReads, hTaken, hWhole, -⟩ := VarInt.reads_iff_shortest
  have hRead : VarInt.decoder ⟨5, [0xfd, 0x00, 0xfd, 7]⟩ = .ok 0xfd ⟨8, [7]⟩ := hReads 0xfd 5 [7]
  refine ⟨(hWhole _ _).2 (by decide), ?_, hRead, (hTaken _ _ _ _ hRead).1⟩
  intro h
  exact absurd ((hWhole _ _).1 h) (by decide)

end Sample

end UtxoChain
