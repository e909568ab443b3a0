import Mathlib.Data.List.Forall2
import UtxoChain.Json.Parser
import UtxoChain.Proofs.Json.Reading

/-!
# The size of what is read

A reader takes a character for everything that the size of a value counts: one for each character of
a text, whether it is escaped or not, and one for the comma or the bracket after each item. So the
value of a text is no larger than the text (`size_le_of_parse?`), and what is read from a text that
fits into memory has lengths that are written by numbers of 64 bits.
-/

namespace UtxoChain.Json

/-! ## Texts and numbers -/

/-- Blanks are left out. -/
theorem length_skipBlanks_le (input : List Char) : (skipBlanks input).length ≤ input.length :=
  (List.dropWhile_sublist _).length_le

/-- Each piece, and the closing quote, takes a character. -/
theorem length_of_pieces? {input rest : List Char} {pieces : List Piece}
    (h : pieces? input = some (pieces, rest)) : pieces.length + rest.length < input.length := by
  fun_induction pieces? input generalizing pieces rest with
  | case1 => exact absurd h nofun
  | case2 input =>
    obtain ⟨rfl, rfl⟩ := Prod.mk.inj (Option.some.inj h)
    exact Nat.lt_succ_of_le (Nat.le_of_eq (Nat.zero_add _))
  | case3 a b c d input ih =>
    obtain ⟨code, -, h⟩ := Option.bind_eq_some_iff.1 h
    obtain ⟨⟨others, left⟩, hOthers, h⟩ := Option.bind_eq_some_iff.1 h
    obtain ⟨rfl, rfl⟩ := Prod.mk.inj (Option.some.inj h)
    have := ih hOthers
    simp only [List.length_cons]
    omega
  | case4 letter input _ ih =>
    obtain ⟨c, -, h⟩ := Option.bind_eq_some_iff.1 h
    obtain ⟨⟨others, left⟩, hOthers, h⟩ := Option.bind_eq_some_iff.1 h
    obtain ⟨rfl, rfl⟩ := Prod.mk.inj (Option.some.inj h)
    have := ih hOthers
    simp only [List.length_cons]
    omega
  | case5 => exact absurd h nofun
  | case6 c input _ _ _ _ ih =>
    obtain ⟨⟨others, left⟩, hOthers, h⟩ := Option.bind_eq_some_iff.1 h
    obtain ⟨rfl, rfl⟩ := Prod.mk.inj (Option.some.inj h)
    have := ih hOthers
    simp only [List.length_cons]
    omega

/-- Some pieces have no more characters than there are pieces. -/
theorem length_of_charsOf? {pieces : List Piece} {chars : List Char}
    (h : charsOf? pieces = some chars) : chars.length ≤ pieces.length := by
  fun_induction charsOf? pieces generalizing chars with
  | case1 =>
    obtain rfl := Option.some.inj h
    exact Nat.le_refl _
  | case2 c pieces ih =>
    obtain ⟨others, hOthers, rfl⟩ := Option.map_eq_some_iff.1 h
    exact Nat.succ_le_succ (ih hOthers)
  | case3 high low pieces _ ih =>
    obtain ⟨others, hOthers, rfl⟩ := Option.map_eq_some_iff.1 h
    exact Nat.succ_le_succ (Nat.le_succ_of_le (ih hOthers))
  | case4 => exact absurd h nofun
  | case5 high low pieces _ _ ih =>
    obtain ⟨others, hOthers, rfl⟩ := Option.map_eq_some_iff.1 h
    exact Nat.succ_le_succ (ih hOthers)
  | case6 => exact absurd h nofun
  | case7 code pieces _ _ ih =>
    obtain ⟨others, hOthers, rfl⟩ := Option.map_eq_some_iff.1 h
    exact Nat.succ_le_succ (ih hOthers)

/-- A text takes a character for each of its own. -/
theorem length_of_content? {input rest : List Char} {content : Option String}
    (h : content? input = some (content, rest)) :
    ((content.map Json.text).getD .unreadable).size + rest.length < input.length := by
  obtain ⟨⟨pieces, left⟩, hPieces, h⟩ := Option.bind_eq_some_iff.1 h
  obtain ⟨rfl, rfl⟩ := Prod.mk.inj (Option.some.inj h)
  have hTaken := length_of_pieces? hPieces
  cases hChars : charsOf? pieces with
  | none =>
    change 0 + left.length < input.length
    omega
  | some chars =>
    have := length_of_charsOf? hChars
    change (String.ofList chars).length + left.length < input.length
    rw [String.length_ofList]
    omega

/-- A run of digits takes a character. -/
theorem length_of_digits? {input run rest : List Char} (h : digits? input = some (run, rest)) :
    rest.length < input.length := by
  dsimp only [digits?] at h
  split_ifs at h with hEmpty
  obtain ⟨rfl, rfl⟩ := Prod.mk.inj (Option.some.inj h)
  have hSplit := congrArg List.length (List.takeWhile_append_dropWhile (p := isDigit) (l := input))
  have hRun := List.length_pos_of_ne_nil (mt List.isEmpty_iff.2 hEmpty)
  rw [List.length_append] at hSplit
  omega

/-- The digits of a whole number take a character. -/
theorem length_of_whole? {input run rest : List Char} (h : whole? input = some (run, rest)) :
    rest.length < input.length := by
  obtain ⟨⟨digits, left⟩, hDigits, h⟩ := Option.bind_eq_some_iff.1 h
  dsimp only at h
  split_ifs at h
  obtain ⟨rfl, rfl⟩ := Prod.mk.inj (Option.some.inj h)
  exact length_of_digits? hDigits

/-- A point and its digits, if any, are taken. -/
theorem length_of_fraction? {input run rest : List Char} (h : fraction? input = some (run, rest)) :
    rest.length ≤ input.length := by
  unfold fraction? at h
  split at h
  · obtain ⟨⟨digits, left⟩, hDigits, h⟩ := Option.bind_eq_some_iff.1 h
    obtain ⟨rfl, rfl⟩ := Prod.mk.inj (Option.some.inj h)
    exact Nat.le_succ_of_le (Nat.le_of_lt (length_of_digits? hDigits))
  · obtain ⟨rfl, rfl⟩ := Prod.mk.inj (Option.some.inj h)
    exact Nat.le_refl _

/-- An exponent, if any, is taken. -/
theorem length_of_exponent? {input run rest : List Char} (h : exponent? input = some (run, rest)) :
    rest.length ≤ input.length := by
  unfold exponent? at h
  split at h
  · split_ifs at h
    · split at h
      all_goals
        obtain ⟨⟨digits, left⟩, hDigits, h⟩ := Option.map_eq_some_iff.1 h
        obtain ⟨rfl, rfl⟩ := Prod.mk.inj h
        have := length_of_digits? hDigits
        simp only [List.length_cons]
        omega
    · obtain ⟨rfl, rfl⟩ := Prod.mk.inj (Option.some.inj h)
      exact Nat.le_refl _
  · obtain ⟨rfl, rfl⟩ := Prod.mk.inj (Option.some.inj h)
    exact Nat.le_refl _

/-- A number has no size and takes a character. -/
theorem length_of_unsigned? {sign input rest : List Char} {json : Json}
    (h : unsigned? sign input = some (json, rest)) : json.size + rest.length < input.length := by
  obtain ⟨⟨run, afterWhole⟩, hWhole, h⟩ := Option.bind_eq_some_iff.1 h
  obtain ⟨⟨point, afterPoint⟩, hPoint, h⟩ := Option.bind_eq_some_iff.1 h
  obtain ⟨⟨power, afterPower⟩, hPower, h⟩ := Option.bind_eq_some_iff.1 h
  have hWholeLength := length_of_whole? hWhole
  have hPointLength := length_of_fraction? hPoint
  have hPowerLength := length_of_exponent? hPower
  have hRead : json.size = 0 ∧ rest = afterPower := by
    dsimp only at h
    split_ifs at h
    all_goals
      obtain ⟨rfl, rfl⟩ := Prod.mk.inj (Option.some.inj h)
      exact ⟨rfl, rfl⟩
  rw [hRead.1, hRead.2]
  omega

/-! ## Values, items and members -/

/-- A record is no larger than the list of its values. -/
theorem size_ofMembers_le (members : List (Option String × Json)) :
    (ofMembers members).size ≤ sizeItems (members.map Prod.snd) := by
  unfold ofMembers
  split
  · rename_i named hNamed
    have hValues : members.map Prod.snd = named.map Prod.snd := by
      rw [← List.forall₂_eq_eq_eq, List.forall₂_map_left_iff, List.forall₂_map_right_iff]
      refine (forall₂_of_mapM hNamed).imp fun member value hValue => ?_
      obtain ⟨_, -, rfl⟩ := Option.map_eq_some_iff.1 hValue
      rfl
    exact Nat.le_of_eq (by rw [size, sizeMembers_eq, hValues])
  · exact Nat.zero_le _

/-- At a depth, a value that is read is smaller than what it takes. -/
def SizedValues (depth : Nat) : Prop :=
  ∀ (input rest : List Char) (json : Json), value? depth input = some (json, rest) →
    json.size + rest.length < input.length

/-- At a depth, the items that are read are smaller than what they take. -/
def SizedItems (depth : Nat) : Prop :=
  ∀ (input rest : List Char) (items : List Json), items? depth input = some (items, rest) →
    sizeItems items + rest.length < input.length

/-- At a depth, the members that are read are smaller than what they take. -/
def SizedMembers (depth : Nat) : Prop :=
  ∀ (input rest : List Char) (members : List (Option String × Json)),
    members? depth input = some (members, rest) →
      sizeItems (members.map Prod.snd) + rest.length < input.length

/-- A value takes a character for each one of its own and for each of its items. -/
theorem SizedValues.succ {depth : Nat} (hItems : SizedItems depth) (hMembers : SizedMembers depth) :
    SizedValues (depth + 1) := by
  intro input rest json h
  have hBlanks := length_skipBlanks_le input
  rw [value?] at h
  split at h
  -- The three words have no size.
  case h_1 | h_2 | h_3 =>
    rename_i hInput
    obtain ⟨rfl, rfl⟩ := Prod.mk.inj (Option.some.inj h)
    rw [hInput] at hBlanks
    simp only [List.length_cons, size] at hBlanks ⊢
    omega
  case h_4 left hInput =>
    obtain ⟨⟨content, after⟩, hContent, h⟩ := Option.bind_eq_some_iff.1 h
    obtain ⟨rfl, rfl⟩ := Prod.mk.inj (Option.some.inj h)
    rw [hInput, List.length_cons] at hBlanks
    have := length_of_content? hContent
    omega
  -- A list takes its bracket, and a character more than the size of its items.
  case h_5 left hInput =>
    rw [hInput, List.length_cons] at hBlanks
    have hLeft := length_skipBlanks_le left
    split at h
    · rename_i hClosed
      obtain ⟨rfl, rfl⟩ := Prod.mk.inj (Option.some.inj h)
      rw [hClosed, List.length_cons] at hLeft
      simp only [size, sizeItems]
      omega
    · obtain ⟨⟨items, after⟩, hRead, h⟩ := Option.bind_eq_some_iff.1 h
      obtain ⟨rfl, rfl⟩ := Prod.mk.inj (Option.some.inj h)
      have := hItems _ _ _ hRead
      rw [size]
      omega
  -- A record is the same, but it has no size if a name cannot be read.
  case h_6 left hInput =>
    rw [hInput, List.length_cons] at hBlanks
    have hLeft := length_skipBlanks_le left
    split at h
    · rename_i hClosed
      obtain ⟨rfl, rfl⟩ := Prod.mk.inj (Option.some.inj h)
      rw [hClosed, List.length_cons] at hLeft
      simp only [size, sizeMembers]
      omega
    · obtain ⟨⟨members, after⟩, hRead, h⟩ := Option.bind_eq_some_iff.1 h
      obtain ⟨rfl, rfl⟩ := Prod.mk.inj (Option.some.inj h)
      have := hMembers _ _ _ hRead
      have := size_ofMembers_le members
      omega
  case h_7 left hInput =>
    rw [hInput, List.length_cons] at hBlanks
    have := length_of_unsigned? h
    omega
  case h_8 =>
    have := length_of_unsigned? h
    omega

/-- Items take a character for each one of their own, and one for each of them. -/
theorem SizedItems.succ {depth : Nat} (hValues : SizedValues depth) (h : SizedItems depth) :
    SizedItems (depth + 1) := by
  intro input rest items hRead
  rw [items?] at hRead
  obtain ⟨⟨item, left⟩, hItem, hRead⟩ := Option.bind_eq_some_iff.1 hRead
  have hTaken := hValues _ _ _ hItem
  have hLeft := length_skipBlanks_le left
  dsimp only at hRead
  split at hRead
  · rename_i hClosed
    obtain ⟨rfl, rfl⟩ := Prod.mk.inj (Option.some.inj hRead)
    rw [hClosed, List.length_cons] at hLeft
    rw [sizeItems, sizeItems]
    omega
  · rename_i hComma
    obtain ⟨⟨others, after⟩, hOthers, hRead⟩ := Option.bind_eq_some_iff.1 hRead
    obtain ⟨rfl, rfl⟩ := Prod.mk.inj (Option.some.inj hRead)
    rw [hComma, List.length_cons] at hLeft
    have := h _ _ _ hOthers
    rw [sizeItems]
    dsimp only
    omega
  · cases hRead

/-- Members take a character for each one of their own, and one for each of them. -/
theorem SizedMembers.succ {depth : Nat} (hValues : SizedValues depth) (h : SizedMembers depth) :
    SizedMembers (depth + 1) := by
  intro input rest members hRead
  have hBlanks := length_skipBlanks_le input
  rw [members?] at hRead
  split at hRead
  case h_2 => cases hRead
  rename_i afterQuote hQuote
  obtain ⟨⟨name, afterName⟩, hName, hRead⟩ := Option.bind_eq_some_iff.1 hRead
  have hNameTaken := length_of_content? hName
  have hNameLeft := length_skipBlanks_le afterName
  dsimp only at hRead
  split at hRead
  case h_2 => cases hRead
  rename_i afterColon hColon
  obtain ⟨⟨value, left⟩, hValue, hRead⟩ := Option.bind_eq_some_iff.1 hRead
  have hTaken := hValues _ _ _ hValue
  have hLeft := length_skipBlanks_le left
  rw [hQuote, List.length_cons] at hBlanks
  rw [hColon, List.length_cons] at hNameLeft
  dsimp only at hRead
  split at hRead
  · rename_i hClosed
    obtain ⟨rfl, rfl⟩ := Prod.mk.inj (Option.some.inj hRead)
    rw [hClosed, List.length_cons] at hLeft
    rw [List.map_cons, List.map_nil, sizeItems, sizeItems]
    dsimp only
    omega
  · rename_i hComma
    obtain ⟨⟨others, after⟩, hOthers, hRead⟩ := Option.bind_eq_some_iff.1 hRead
    obtain ⟨rfl, rfl⟩ := Prod.mk.inj (Option.some.inj hRead)
    rw [hComma, List.length_cons] at hLeft
    have := h _ _ _ hOthers
    rw [List.map_cons, sizeItems]
    dsimp only
    omega
  · cases hRead

/-- At every depth, what is read is smaller than what it takes. -/
theorem sized_of_depth (depth : Nat) :
    SizedValues depth ∧ SizedItems depth ∧ SizedMembers depth := by
  induction depth with
  | zero => exact ⟨fun _ _ _ h => absurd h nofun, fun _ _ _ h => absurd h nofun,
      fun _ _ _ h => absurd h nofun⟩
  | succ depth ih =>
    obtain ⟨hValues, hItems, hMembers⟩ := ih
    exact ⟨.succ hItems hMembers, .succ hValues hItems, .succ hValues hMembers⟩

/-- The value of a text is no larger than the text. -/
theorem size_le_of_parse? {input : String} {json : Json} (h : parse? input = some json) :
    json.size ≤ input.length := by
  obtain ⟨⟨value, rest⟩, hValue, h⟩ := Option.bind_eq_some_iff.1 h
  dsimp only at h
  split_ifs at h
  obtain rfl := Option.some.inj h
  have hTaken := (sized_of_depth _).1 _ _ _ hValue
  rw [String.length_toList] at hTaken
  omega

end UtxoChain.Json
