import Mathlib.Data.List.Basic
import Mathlib.Tactic.IntervalCases
import UtxoChain.Json.Parser
import UtxoChain.Json.Printer
import UtxoChain.Proofs.Json.Reading

/-!
# Reading back what is written

The compact form of a value is read back as the value. A reader is run in front of a rest, and only
a number needs to know of it: it ends where no further digit, point or exponent can follow
(`Follows`). The depth that `parse?` supplies is twice the length of the text, and each call that
goes down leaves a character behind, so the length of the form carries the induction.
-/

namespace UtxoChain.Json

/-! ## Texts -/

/-- A character that is written in a text is read as one piece, and the piece as the character. -/
theorem pieces?_escapeChar (c : Char) :
    ∃ piece, (∀ rest, pieces? (escapeChar c ++ rest) =
        (pieces? rest).map fun read => (piece :: read.1, read.2)) ∧
      ∀ others, charsOf? (piece :: others) = (charsOf? others).map (c :: ·) := by
  unfold escapeChar
  split
  case h_8 _ hQuote hBackslash _ _ _ _ _ =>
    split
    · -- A control without a letter is written by number.
      rename_i hControl
      have hDigits : ∀ n < 0x20,
          unitOf? '0' '0' (escapeDigit (n / 16)) (escapeDigit (n % 16)) = some n := by decide
      have hHigh : isHighSurrogate c.toNat = false := by
        simp [isHighSurrogate]
        omega
      have hLow : isLowSurrogate c.toNat = false := by
        simp [isLowSurrogate]
        omega
      refine ⟨.unit c.toNat, fun rest => ?_, fun others => ?_⟩
      · rw [List.cons_append, List.cons_append, List.cons_append, List.cons_append,
          List.cons_append, List.cons_append, List.nil_append, pieces?, hDigits _ hControl]
        cases pieces? rest with
        | none => rfl
        | some read => rfl
      · cases others with
        | nil => simp [charsOf?, hHigh, hLow]
        | cons other others => cases other <;> simp [charsOf?, hHigh, hLow]
    · rename_i hControl
      refine ⟨.char c, fun rest => ?_, fun _ => rfl⟩
      rw [List.singleton_append, pieces?]
      · rw [if_neg (not_or.2 ⟨hControl, hBackslash⟩)]
        cases pieces? rest with
        | none => rfl
        | some read => rfl
      all_goals simp_all
  all_goals
    exact ⟨.char _, fun rest => by cases h : pieces? rest <;> simp [pieces?, letterEscape?, h],
      fun _ => rfl⟩

/-- What is written between quotes is read back, up to the closing quote. -/
theorem pieces?_escaped (chars rest : List Char) :
    ∃ pieces, pieces? (chars.flatMap escapeChar ++ '"' :: rest) = some (pieces, rest) ∧
      charsOf? pieces = some chars := by
  induction chars with
  | nil => exact ⟨[], by rw [List.flatMap_nil, List.nil_append, pieces?], rfl⟩
  | cons c chars ih =>
    obtain ⟨others, hOthers, hChars⟩ := ih
    obtain ⟨piece, hPiece, hChar⟩ := pieces?_escapeChar c
    refine ⟨piece :: others, ?_, ?_⟩
    · rw [List.flatMap_cons, List.append_assoc, hPiece, hOthers]
      rfl
    · rw [hChar, hChars]
      rfl

/-- The characters of a quoted text. -/
theorem toList_quoted (content : String) :
    (quoted content).toList = '"' :: content.toList.flatMap escapeChar ++ ['"'] := by
  rw [quoted, String.toList_ofList]

/-- A quoted text is read back after its opening quote. -/
theorem content?_quoted (content : String) (rest : List Char) :
    content? (content.toList.flatMap escapeChar ++ '"' :: rest) = some (some content, rest) := by
  obtain ⟨pieces, hPieces, hChars⟩ := pieces?_escaped content.toList rest
  rw [content?, hPieces]
  change some ((charsOf? pieces).map String.ofList, rest) = _
  rw [hChars, Option.map_some, String.ofList_toList]

/-! ## Numbers -/

/-- A text that can stand after a value: it ends, or goes on with a comma or a closing mark. -/
def Follows : List Char → Prop
  | [] => True
  | c :: _ => c = ',' ∨ c = ']' ∨ c = '\x7d'

/-- The digits of a positive number do not begin with a zero. -/
theorem head?_toDigits {n : Nat} (h : 0 < n) : (Nat.toDigits 10 n).head? ≠ some '0' := by
  induction n using Nat.strongRecOn with
  | ind n ih =>
    rcases Nat.lt_or_ge n 10 with hSmall | hLarge
    · interval_cases n <;> decide
    · rw [Nat.toDigits_of_base_le (by decide) hLarge, List.head?_append_of_ne_nil _
        Nat.toDigits_ne_nil]
      exact ih (n / 10) (by omega) (by omega)

/-- The digits of a number write the number. -/
theorem natOfDigits_toDigits (n : Nat) : natOfDigits (Nat.toDigits 10 n) = n := by
  have h : natOfDigits (Nat.toDigits 10 n) = Nat.ofDigitChars 10 (Nat.toDigits 10 n) 0 := by
    rw [natOfDigits, Nat.ofDigitChars]
    simp only [Nat.mul_comm]
    rfl
  rw [h, Nat.ofDigitChars_toDigits (by decide) (by decide)]

/-- A number is read back in front of a text that can follow it. -/
theorem unsigned?_toDigits (n : Nat) {rest : List Char} (hRest : Follows rest) :
    unsigned? [] (Nat.toDigits 10 n ++ rest) = some (.natural n, rest) := by
  have hDigit : ∀ c ∈ Nat.toDigits 10 n, isDigit c = true := fun _ hMem =>
    Nat.isDigit_of_mem_toDigits (by decide) (by decide) hMem
  have hEnd : rest.takeWhile isDigit = [] ∧ rest.dropWhile isDigit = rest := by
    cases rest with
    | nil => exact ⟨rfl, rfl⟩
    | cons c rest => rcases hRest with rfl | rfl | rfl <;> exact ⟨rfl, rfl⟩
  have hDigits : digits? (Nat.toDigits 10 n ++ rest) = some (Nat.toDigits 10 n, rest) := by
    rw [digits?, List.takeWhile_append_of_pos hDigit, List.dropWhile_append_of_pos hDigit, hEnd.1,
      hEnd.2, List.append_nil]
    simp [Nat.toDigits_ne_nil]
  have hWhole : whole? (Nat.toDigits 10 n ++ rest) = some (Nat.toDigits 10 n, rest) := by
    rw [whole?, hDigits]
    refine if_neg fun hZero => ?_
    rcases Nat.eq_zero_or_pos n with rfl | hPos
    · exact hZero.2 rfl
    · exact head?_toDigits hPos hZero.1
  have hFraction : fraction? rest = some ([], rest) := by
    cases rest with
    | nil => rfl
    | cons c rest => rcases hRest with rfl | rfl | rfl <;> rfl
  have hExponent : exponent? rest = some ([], rest) := by
    cases rest with
    | nil => rfl
    | cons c rest => rcases hRest with rfl | rfl | rfl <;> rfl
  rw [unsigned?, hWhole]
  change (fraction? rest >>= _) = _
  rw [hFraction]
  change (exponent? rest >>= _) = _
  rw [hExponent]
  change some (Json.natural (natOfDigits (Nat.toDigits 10 n)), rest) = _
  rw [natOfDigits_toDigits]

/-! ## Values -/

mutual

/-- Every part of a value has a content, and its numbers are natural. -/
def Plain : Json → Prop
  | .number _ => False
  | .unreadable => False
  | .array items => PlainItems items
  | .object members => PlainMembers members
  | _ => True

/-- The items of a list are plain. -/
def PlainItems : List Json → Prop
  | [] => True
  | item :: rest => Plain item ∧ PlainItems rest

/-- The values of the members of a record are plain. -/
def PlainMembers : List (String × Json) → Prop
  | [] => True
  | (_, value) :: rest => Plain value ∧ PlainMembers rest

end

/-- A character with which the form of a value begins. -/
def Starts (c : Char) : Prop :=
  c.isDigit = true ∨ c ∈ ['n', 't', 'f', '"', '[', '\x7b']

/-- A value does not begin with a blank. -/
theorem skipBlanks_of_starts {c : Char} (h : Starts c) (rest : List Char) :
    skipBlanks (c :: rest) = c :: rest := by
  rw [skipBlanks, List.dropWhile_cons_of_neg]
  rcases h with h | h
  · intro hBlank
    simp only [Bool.or_eq_true, beq_iff_eq] at hBlank
    obtain ((rfl | rfl) | rfl) | rfl := hBlank <;> exact absurd h (by decide)
  · simp only [List.mem_cons, List.not_mem_nil, or_false] at h
    obtain rfl | rfl | rfl | rfl | rfl | rfl := h <;> decide

/-- The form of a list, as characters. -/
theorem toList_compact_array (items : List Json) :
    (compact (.array items)).toList =
      '[' :: (String.intercalate "," (compactItems items)).toList ++ [']'] := by
  rw [compact, String.toList_append, String.toList_append]
  rfl

/-- The form of a record, as characters. -/
theorem toList_compact_object (members : List (String × Json)) :
    (compact (.object members)).toList =
      '\x7b' :: (String.intercalate "," (compactMembers members)).toList ++ ['\x7d'] := by
  rw [compact, String.toList_append, String.toList_append]
  rfl

/-- The form of a plain value begins as one. -/
theorem exists_starts {json : Json} (h : json.Plain) :
    ∃ c tail, (compact json).toList = c :: tail ∧ Starts c := by
  cases json with
  | null => exact ⟨'n', _, rfl, .inr (by decide)⟩
  | bool b => cases b <;> exact ⟨_, _, rfl, .inr (by decide)⟩
  | natural n =>
    obtain ⟨c, tail, hDigits⟩ := List.exists_cons_of_ne_nil (Nat.toDigits_ne_nil (n := n) (b := 10))
    refine ⟨c, tail, ?_, .inl ?_⟩
    · rw [compact, ← hDigits]
      exact Nat.toList_repr
    · exact Nat.isDigit_of_mem_toDigits (by decide) (by decide) (hDigits ▸ List.mem_cons_self)
  | text content => exact ⟨'"', _, toList_quoted content, .inr (by decide)⟩
  | array items => exact ⟨'[', _, toList_compact_array items, .inr (by decide)⟩
  | object members => exact ⟨'\x7b', _, toList_compact_object members, .inr (by decide)⟩
  | number _ => exact absurd h id
  | unreadable => exact absurd h id

/-- A number is read back as a value. -/
theorem value?_natural (n depth : Nat) {rest : List Char} (hRest : Follows rest) :
    value? (depth + 1) ((compact (.natural n)).toList ++ rest) = some (.natural n, rest) := by
  have hChars : (compact (.natural n)).toList = Nat.toDigits 10 n := Nat.toList_repr
  obtain ⟨c, tail, hForm⟩ := List.exists_cons_of_ne_nil (Nat.toDigits_ne_nil (n := n) (b := 10))
  have hDigit : c.isDigit = true :=
    Nat.isDigit_of_mem_toDigits (by decide) (by decide) (hForm ▸ List.mem_cons_self)
  have hSkip := skipBlanks_of_starts (.inl hDigit) (tail ++ rest)
  rw [← List.cons_append, ← hForm] at hSkip
  rw [hChars, value?, hSkip]
  -- A digit is none of the characters with which the other forms begin.
  split
  case h_8 => exact unsigned?_toDigits n hRest
  all_goals
    rename_i hInput
    rw [hForm, List.cons_append, List.cons.injEq] at hInput
    rw [hInput.1] at hDigit
    exact absurd hDigit (by decide)

/-- A quoted text is read back as a value. -/
theorem value?_quoted (content : String) (depth : Nat) (rest : List Char) :
    value? (depth + 1) ((quoted content).toList ++ rest) = some (.text content, rest) := by
  rw [toList_quoted, List.append_assoc, value?, List.cons_append,
    skipBlanks_of_starts (.inr (by decide))]
  change (content? _ >>= _) = _
  rw [List.singleton_append, content?_quoted]
  rfl

/-! ### Lists -/

/-- Joined forms, as characters. -/
theorem toList_intercalate_cons (form next : String) (forms : List String) :
    (String.intercalate "," (form :: next :: forms)).toList =
      form.toList ++ ',' :: (String.intercalate "," (next :: forms)).toList := by
  rw [String.intercalate_cons_cons, String.toList_append, String.toList_append, List.append_assoc]
  rfl

/-- After its bracket a list is closed, or has items. -/
theorem value?_bracket (depth : Nat) (input : List Char) :
    value? (depth + 1) ('[' :: input) =
      match skipBlanks input with
      | ']' :: rest => some (.array [], rest)
      | rest => items? depth rest >>= fun read => some (.array read.1, read.2) := by
  rw [value?, skipBlanks_of_starts (.inr (by decide))]
  rfl

/-- A list is read where its items are, after its bracket. -/
theorem value?_array {depth : Nat} {c : Char} {tail rest : List Char} {items : List Json}
    (hStarts : Starts c) (h : items? depth (c :: tail) = some (items, rest)) :
    value? (depth + 1) ('[' :: c :: tail) = some (.array items, rest) := by
  rw [value?_bracket, skipBlanks_of_starts hStarts]
  split
  · rename_i hClosed
    rw [(List.cons.inj hClosed).1] at hStarts
    exact absurd hStarts (by unfold Starts; decide)
  · rw [h]
    rfl

/-- The last item of a list is read up to the closing bracket. -/
theorem items?_last {depth : Nat} {input rest : List Char} {item : Json}
    (h : value? depth input = some (item, ']' :: rest)) :
    items? (depth + 1) input = some ([item], rest) := by
  rw [items?, h]
  rfl

/-- An item that is not the last is read up to the comma. -/
theorem items?_more {depth : Nat} {input others rest : List Char} {item : Json} {items : List Json}
    (h : value? depth input = some (item, ',' :: others))
    (hOthers : items? depth others = some (items, rest)) :
    items? (depth + 1) input = some (item :: items, rest) := by
  rw [items?, h]
  change (items? depth others >>= _) = _
  rw [hOthers]
  rfl

/-- The forms of some items begin as the first of them. -/
theorem exists_starts_items {item : Json} (h : item.Plain) (items : List Json) :
    ∃ c tail, (String.intercalate "," (compactItems (item :: items))).toList = c :: tail ∧
      Starts c := by
  obtain ⟨c, tail, hForm, hStarts⟩ := exists_starts h
  rw [compactItems]
  cases items with
  | nil =>
    rw [compactItems, String.intercalate_singleton]
    exact ⟨c, tail, hForm, hStarts⟩
  | cons next items =>
    rw [compactItems, toList_intercalate_cons, hForm]
    exact ⟨c, _, rfl, hStarts⟩

/-! ### Records -/

/-- The form of a member, as characters. -/
theorem toList_member (name : String) (value : Json) :
    (quoted name ++ ":" ++ compact value).toList =
      (quoted name).toList ++ ':' :: (compact value).toList := by
  rw [String.toList_append, String.toList_append, List.append_assoc]
  rfl

/-- The forms of some members begin with a quote. -/
theorem exists_quote_members (member : String × Json) (members : List (String × Json)) :
    ∃ tail, (String.intercalate "," (compactMembers (member :: members))).toList = '"' :: tail := by
  rw [compactMembers]
  cases members with
  | nil =>
    rw [compactMembers, String.intercalate_singleton, toList_member, toList_quoted]
    exact ⟨_, rfl⟩
  | cons next members =>
    rw [compactMembers, toList_intercalate_cons, toList_member, toList_quoted]
    exact ⟨_, rfl⟩

/-- Names that have a content make a record. -/
theorem ofMembers_map (members : List (String × Json)) :
    ofMembers (members.map fun member => (some member.1, member.2)) = .object members := by
  have h : (members.map fun member => (some member.1, member.2)).mapM
      (fun member => member.1.map fun name => (name, member.2)) = some members := by
    rw [mapM_map_eq_some fun member _ => Option.map_some member.1 _, List.map_id']
  rw [ofMembers, h]

/-- After its brace a record is closed, or has members. -/
theorem value?_brace (depth : Nat) (input : List Char) :
    value? (depth + 1) ('\x7b' :: input) =
      match skipBlanks input with
      | '\x7d' :: rest => some (.object [], rest)
      | rest => members? depth rest >>= fun read => some (ofMembers read.1, read.2) := by
  rw [value?, skipBlanks_of_starts (.inr (by decide))]
  rfl

/-- A record is read where its members are, after its brace. -/
theorem value?_object {depth : Nat} {tail rest : List Char} {members : List (String × Json)}
    (h : members? depth ('"' :: tail) =
      some (members.map fun member => (some member.1, member.2), rest)) :
    value? (depth + 1) ('\x7b' :: '"' :: tail) = some (.object members, rest) := by
  rw [value?_brace, skipBlanks_of_starts (.inr (by decide))]
  change (members? depth ('"' :: tail) >>= _) = _
  rw [h]
  change some (ofMembers _, rest) = _
  rw [ofMembers_map]

/-- Members are read from the value of the first one on, after its name. -/
theorem members?_quoted (depth : Nat) (name : String) (input : List Char) :
    members? (depth + 1) ((quoted name).toList ++ ':' :: input) =
      value? depth input >>= fun read =>
        match skipBlanks read.2 with
        | '\x7d' :: rest => some ([(some name, read.1)], rest)
        | ',' :: rest => members? depth rest >>= fun others =>
            some ((some name, read.1) :: others.1, others.2)
        | _ => none := by
  rw [members?, toList_quoted, List.append_assoc, List.cons_append,
    skipBlanks_of_starts (.inr (by decide))]
  change (content? _ >>= _) = _
  rw [List.singleton_append, content?_quoted]
  rfl

/-- The last member of a record is read up to the closing brace. -/
theorem members?_last {depth : Nat} {name : String} {input rest : List Char} {value : Json}
    (h : value? depth input = some (value, '\x7d' :: rest)) :
    members? (depth + 1) ((quoted name).toList ++ ':' :: input) =
      some ([(some name, value)], rest) := by
  rw [members?_quoted, h]
  rfl

/-- A member that is not the last is read up to the comma. -/
theorem members?_more {depth : Nat} {name : String} {input others rest : List Char} {value : Json}
    {members : List (Option String × Json)} (h : value? depth input = some (value, ',' :: others))
    (hOthers : members? depth others = some (members, rest)) :
    members? (depth + 1) ((quoted name).toList ++ ':' :: input) =
      some ((some name, value) :: members, rest) := by
  rw [members?_quoted, h]
  change (members? depth others >>= _) = _
  rw [hOthers]
  rfl

/-! ### Any plain value -/

/-- At a depth, the plain values of short enough form are read back. -/
def ReadsValues (depth : Nat) : Prop :=
  ∀ (json : Json) (rest : List Char), json.Plain → 2 * (compact json).toList.length ≤ depth →
    Follows rest → value? depth ((compact json).toList ++ rest) = some (json, rest)

/-- At a depth, the plain items of short enough form are read back. -/
def ReadsItems (depth : Nat) : Prop :=
  ∀ (item : Json) (items : List Json) (rest : List Char), PlainItems (item :: items) →
    2 * (String.intercalate "," (compactItems (item :: items))).toList.length < depth →
    items? depth ((String.intercalate "," (compactItems (item :: items))).toList ++ ']' :: rest) =
      some (item :: items, rest)

/-- At a depth, the plain members of short enough form are read back. -/
def ReadsMembers (depth : Nat) : Prop :=
  ∀ (member : String × Json) (members : List (String × Json)) (rest : List Char),
    PlainMembers (member :: members) →
    2 * (String.intercalate "," (compactMembers (member :: members))).toList.length < depth →
    members? depth ((String.intercalate "," (compactMembers (member :: members))).toList ++
        '\x7d' :: rest) =
      some ((member :: members).map fun member => (some member.1, member.2), rest)

/-- A value is read through its items or members. -/
theorem ReadsValues.succ {depth : Nat} (hItems : ReadsItems depth) (hMembers : ReadsMembers depth) :
    ReadsValues (depth + 1) := by
  intro json rest hPlain hDepth hRest
  cases json with
  | null => rw [value?]; rfl
  | bool b => cases b <;> (rw [value?]; rfl)
  | natural n => exact value?_natural n depth hRest
  | text content => exact value?_quoted content depth rest
  -- The depth for the items is smaller by one, and their form by the two brackets.
  | array items =>
    rw [toList_compact_array, List.length_append, List.length_cons] at hDepth
    rw [toList_compact_array, List.append_assoc, List.cons_append]
    cases items with
    | nil => rw [value?]; rfl
    | cons item items =>
      have hRead := hItems item items rest hPlain (by omega)
      obtain ⟨c, tail, hFirst, hStarts⟩ := exists_starts_items hPlain.1 items
      rw [hFirst] at hRead ⊢
      exact value?_array hStarts hRead
  | object members =>
    rw [toList_compact_object, List.length_append, List.length_cons] at hDepth
    rw [toList_compact_object, List.append_assoc, List.cons_append]
    cases members with
    | nil => rw [value?]; rfl
    | cons member members =>
      have hRead := hMembers member members rest hPlain (by omega)
      obtain ⟨tail, hFirst⟩ := exists_quote_members member members
      rw [hFirst] at hRead ⊢
      exact value?_object hRead
  | number _ => exact absurd hPlain id
  | unreadable => exact absurd hPlain id

/-- Items are read one after the other. -/
theorem ReadsItems.succ {depth : Nat} (hValues : ReadsValues depth) (h : ReadsItems depth) :
    ReadsItems (depth + 1) := by
  intro item items rest hPlain hDepth
  rw [compactItems] at hDepth ⊢
  cases items with
  | nil =>
    rw [compactItems, String.intercalate_singleton] at hDepth ⊢
    exact items?_last (hValues item (']' :: rest) hPlain.1 (by omega) (.inr (.inl rfl)))
  | cons next items =>
    rw [compactItems, toList_intercalate_cons, List.length_append, List.length_cons] at hDepth
    rw [compactItems, toList_intercalate_cons, List.append_assoc, List.cons_append]
    exact items?_more (hValues item _ hPlain.1 (by omega) (.inl rfl))
      (h next items rest hPlain.2 (by rw [compactItems]; omega))

/-- Members are read one after the other. -/
theorem ReadsMembers.succ {depth : Nat} (hValues : ReadsValues depth) (h : ReadsMembers depth) :
    ReadsMembers (depth + 1) := by
  intro ⟨name, value⟩ members rest hPlain hDepth
  rw [compactMembers] at hDepth ⊢
  cases members with
  | nil =>
    rw [compactMembers, String.intercalate_singleton, toList_member] at hDepth ⊢
    rw [List.length_append, List.length_cons] at hDepth
    rw [List.append_assoc, List.cons_append]
    exact members?_last (hValues value ('\x7d' :: rest) hPlain.1 (by omega) (.inr (.inr rfl)))
  | cons next members =>
    rw [compactMembers, toList_intercalate_cons, toList_member] at hDepth ⊢
    rw [List.length_append, List.length_append, List.length_cons, List.length_cons] at hDepth
    rw [List.append_assoc, List.append_assoc, List.cons_append, List.cons_append]
    exact members?_more (hValues value _ hPlain.1 (by omega) (.inl rfl))
      (h next members rest hPlain.2 (by rw [compactMembers]; omega))

/-- At every depth, all plain parts of short enough form are read back. -/
theorem reads_of_depth (depth : Nat) :
    ReadsValues depth ∧ ReadsItems depth ∧ ReadsMembers depth := by
  induction depth with
  | zero =>
    refine ⟨fun json rest hPlain hDepth => ?_, fun _ _ _ _ hDepth => ?_, fun _ _ _ _ hDepth => ?_⟩
    · obtain ⟨c, tail, hForm, -⟩ := exists_starts hPlain
      rw [hForm, List.length_cons] at hDepth
      omega
    · exact absurd hDepth (Nat.not_lt_zero _)
    · exact absurd hDepth (Nat.not_lt_zero _)
  | succ depth ih =>
    obtain ⟨hValues, hItems, hMembers⟩ := ih
    exact ⟨.succ hItems hMembers, .succ hValues hItems, .succ hValues hMembers⟩

/-- The compact form of a plain value is read back as the value. -/
theorem parse?_compact {json : Json} (h : json.Plain) : parse? (compact json) = some json := by
  have hValue := (reads_of_depth (2 * (compact json).toList.length + 2)).1 json [] h (by omega)
    trivial
  rw [List.append_nil] at hValue
  rw [parse?, hValue]
  rfl

end UtxoChain.Json
