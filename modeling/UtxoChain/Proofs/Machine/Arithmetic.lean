import Mathlib.Data.Int.Order.Lemmas
import Mathlib.Tactic.Ring
import UtxoChain.Proofs.Machine.Run

/-!
# Arithmetic on script numbers

The arithmetic opcodes compute with integers of any size. `Computes` says what the number is that an
opcode makes of its operands, by what characterizes it and not by how it is found; `Legal` says which
operands have one.

An opcode takes its operands off from the top and then pushes the result. `Takes` states that once, with
what happens if one of the items is no number, and `Takes.bind` puts the operands of several takings
together. So each opcode is one line of `takes_step`, and its own arithmetic is all that is left.
-/

namespace UtxoChain.Machine

open Stateful

/-! ## Results -/

/-- A quotient toward zero, with what remains of the dividend. -/
structure Truncates (a b quotient remainder : Int) : Prop where
  /-- The parts make up the dividend. -/
  sum : quotient * b + remainder = a
  /-- Less than the divisor remains. -/
  small : |remainder| < |b|
  /-- What remains, if anything, has the sign of the dividend. -/
  sign : remainder = 0 ∨ remainder.sign = a.sign

/-- There is one quotient toward zero, and one remainder. -/
theorem truncates_iff {a b quotient remainder : Int} (hDivisor : b ≠ 0) :
    Truncates a b quotient remainder ↔ quotient = a.tdiv b ∧ remainder = a.tmod b := by
  constructor
  · intro h
    obtain ⟨hSum, hSmall, hSign⟩ := h
    have hParts : remainder + b * quotient = a := by
      rw [← hSum]
      ring
    rw [Int.abs_eq_natAbs b, abs_lt] at hSmall
    -- The remainder lies on the side of the dividend, so its bound there is all that is left of it.
    rcases Int.le_total 0 a with hNonneg | hNonpos
    · have hRemainder : 0 ≤ remainder := by
        rcases hSign with hZero | hSame
        · exact hZero.ge
        · exact Int.sign_nonneg_iff.1 (hSame ▸ Int.sign_nonneg_iff.2 hNonneg)
      have hUnique := (Int.tdiv_tmod_unique hNonneg hDivisor).2 ⟨hParts, hRemainder, hSmall.2⟩
      exact ⟨hUnique.1.symm, hUnique.2.symm⟩
    · have hRemainder : remainder ≤ 0 := by
        rcases hSign with hZero | hSame
        · exact hZero.le
        · exact Int.sign_nonpos_iff.1 (hSame ▸ Int.sign_nonpos_iff.2 hNonpos)
      have hUnique := (Int.tdiv_tmod_unique' hNonpos hDivisor).2 ⟨hParts, hSmall.1, hRemainder⟩
      exact ⟨hUnique.1.symm, hUnique.2.symm⟩
  · rintro ⟨rfl, rfl⟩
    refine ⟨Int.tdiv_mul_add_tmod a b, ?_, ?_⟩
    · rw [Int.abs_eq_natAbs, Int.abs_eq_natAbs, Int.natAbs_tmod, Int.ofNat_lt]
      exact Nat.mod_lt _ (Int.natAbs_pos.2 hDivisor)
    · rw [Int.sign_tmod]
      split_ifs with hDivides
      · exact .inl (Int.tmod_eq_zero_of_dvd hDivides)
      · exact .inr rfl

/-- There is one quotient downward by a power of two. -/
theorem floor_iff {a quotient : Int} {count : Nat} :
    quotient * 2 ^ count ≤ a ∧ a < (quotient + 1) * 2 ^ count ↔ quotient = a / 2 ^ count := by
  have hPositive : (0 : Int) < 2 ^ count := Int.pow_pos (by decide)
  rw [← Int.le_ediv_iff_mul_le hPositive, ← Int.ediv_lt_iff_lt_mul hPositive]
  omega

/-- The number that an opcode makes of its operands, the first of which was pushed first. -/
inductive Computes : Opcode → List Int → Int → Prop
  | add1 (a : Int) : Computes .add1 [a] (a + 1)
  | sub1 (a : Int) : Computes .sub1 [a] (a - 1)
  | mul2 (a : Int) : Computes .mul2 [a] (a * 2)
  | div2 {a quotient remainder : Int} (h : Truncates a 2 quotient remainder) :
      Computes .div2 [a] quotient
  | negate (a : Int) : Computes .negate [a] (-a)
  | abs (a : Int) : Computes .abs [a] |a|
  | notOp (a : Int) : Computes .notOp [a] (if a = 0 then 1 else 0)
  | notEqual0 (a : Int) : Computes .notEqual0 [a] (if a ≠ 0 then 1 else 0)
  | add (a b : Int) : Computes .add [a, b] (a + b)
  | sub (a b : Int) : Computes .sub [a, b] (a - b)
  | mul (a b : Int) : Computes .mul [a, b] (a * b)
  | div {a b quotient remainder : Int} (h : Truncates a b quotient remainder) :
      Computes .div [a, b] quotient
  | mod {a b quotient remainder : Int} (h : Truncates a b quotient remainder) :
      Computes .mod [a, b] remainder
  | shiftLeft (a : Int) (count : Nat) : Computes .shiftLeft [a, count] (a * 2 ^ count)
  | shiftRight {a quotient : Int} {count : Nat}
      (h : quotient * 2 ^ count ≤ a ∧ a < (quotient + 1) * 2 ^ count) :
      Computes .shiftRight [a, count] quotient
  | boolAnd (a b : Int) : Computes .boolAnd [a, b] (if a ≠ 0 ∧ b ≠ 0 then 1 else 0)
  | boolOr (a b : Int) : Computes .boolOr [a, b] (if a ≠ 0 ∨ b ≠ 0 then 1 else 0)
  | numEqual (a b : Int) : Computes .numEqual [a, b] (if a = b then 1 else 0)
  | numNotEqual (a b : Int) : Computes .numNotEqual [a, b] (if a ≠ b then 1 else 0)
  | lessThan (a b : Int) : Computes .lessThan [a, b] (if a < b then 1 else 0)
  | greaterThan (a b : Int) : Computes .greaterThan [a, b] (if b < a then 1 else 0)
  | lessThanOrEqual (a b : Int) : Computes .lessThanOrEqual [a, b] (if a ≤ b then 1 else 0)
  | greaterThanOrEqual (a b : Int) : Computes .greaterThanOrEqual [a, b] (if b ≤ a then 1 else 0)
  | min (a b : Int) : Computes .min [a, b] (Min.min a b)
  | max (a b : Int) : Computes .max [a, b] (Max.max a b)
  | within (a lower upper : Int) :
      Computes .within [a, lower, upper] (if lower ≤ a ∧ a < upper then 1 else 0)

/-- How many numbers an opcode replaces by one number. -/
def arity? : Opcode → Option Nat
  | .add1 | .sub1 | .mul2 | .div2 | .negate | .abs | .notOp | .notEqual0 => some 1
  | .add | .sub | .mul | .div | .mod | .shiftLeft | .shiftRight | .boolAnd | .boolOr | .numEqual
  | .numNotEqual | .lessThan | .greaterThan | .lessThanOrEqual | .greaterThanOrEqual | .min
  | .max => some 2
  | .within => some 3
  | _ => none

/-- The operands of which an opcode makes a number. -/
structure Legal (op : Opcode) (operands : List Int) : Prop where
  /-- There are as many as the opcode takes. -/
  arity : arity? op = some operands.length
  /-- Nothing is divided by zero. -/
  divisor : op = .div ∨ op = .mod → ∀ a b, operands = [a, b] → b ≠ 0
  /-- A shift is by at most 4096 bits, and in the direction of the opcode. -/
  count : op = .shiftLeft ∨ op = .shiftRight → ∀ a count, operands = [a, count] →
    0 ≤ count ∧ count ≤ 4096

/-- The items of operands, the first of which was pushed first. -/
def itemsOf (operands : List Int) : Stack :=
  (operands.map ScriptNumber.encode).reverse

/-- The items of operands are as many as the operands. -/
theorem length_itemsOf (operands : List Int) : (itemsOf operands).length = operands.length := by
  rw [itemsOf, List.length_reverse, List.length_map]

/-- The operands that are taken off first are on top. -/
theorem itemsOf_append (lower upper : List Int) :
    itemsOf (lower ++ upper) = itemsOf upper ++ itemsOf lower := by
  rw [itemsOf, List.map_append, List.reverse_append]
  rfl

/-- The items of operands, of which the one at a place is another item. -/
def itemsWith (operands : List Int) (place : Nat) (item : Bytes) : Stack :=
  ((operands.map ScriptNumber.encode).set place item).reverse

/-- Below the topmost operands, another item stands under their items. -/
theorem itemsWith_append_left {lower upper : List Int} {place : Nat} (hPlace : place < lower.length)
    (item : Bytes) :
    itemsWith (lower ++ upper) place item = itemsOf upper ++ itemsWith lower place item := by
  rw [← List.length_map (f := ScriptNumber.encode)] at hPlace
  rw [itemsWith, List.map_append, List.set_append_left _ _ hPlace, List.reverse_append]
  rfl

/-- Among the topmost operands, another item stands above the items of those below. -/
theorem itemsWith_append_right {lower upper : List Int} {place : Nat}
    (hPlace : lower.length ≤ place) (item : Bytes) :
    itemsWith (lower ++ upper) place item =
      itemsWith upper (place - lower.length) item ++ itemsOf lower := by
  rw [← List.length_map (f := ScriptNumber.encode)] at hPlace
  rw [itemsWith, List.map_append, List.set_append_right _ _ hPlace, List.reverse_append,
    List.length_map]
  rfl

/-! ## Taking operands off -/

section

variable {α β : Type}

/-- A step takes operands off and goes on in some way. If one of them is no number, the step fails
there, and the operands below it are still on the stack. -/
structure Takes (step : Step α) (operands : List Int) (onward : Step α) : Prop where
  /-- Numbers are taken off. -/
  taken : ∀ (state : State) (rest : Stack),
    step { state with stack := itemsOf operands ++ rest } = onward { state with stack := rest }
  /-- An item that is the shortest form of no number is refused. -/
  refused : ∀ place < operands.length, ∀ item : Bytes,
    (∀ number, ScriptNumber.encode number ≠ item) → ∀ (state : State) (rest : Stack),
      step { state with stack := itemsWith operands place item ++ rest } =
        .error (.invalidNumber (.notMinimal item))
          { state with stack := itemsOf (operands.take place) ++ rest }

/-- Where there are no operands, a step goes on as it is. -/
theorem Takes.none (step : Step α) : Takes step [] step where
  taken _ _ := rfl
  refused place hPlace := absurd hPlace (Nat.not_lt_zero place)

/-- The operands of a step that follows another are below those of the other. -/
theorem Takes.bind {first : Step α} {next : α → Step β} {value : α} {lower upper : List Int}
    {onward : Step β} (hFirst : Takes first upper (pure value))
    (hNext : Takes (next value) lower onward) : Takes (first >>= next) (lower ++ upper) onward where
  taken state rest := by
    rw [itemsOf_append, List.append_assoc, bind_of_ok (hFirst.taken state _)]
    exact hNext.taken state rest
  refused place hPlace item hItem state rest := by
    rw [List.length_append] at hPlace
    rcases Nat.lt_or_ge place lower.length with hLower | hUpper
    · rw [itemsWith_append_left hLower, List.append_assoc, bind_of_ok (hFirst.taken state _),
        hNext.refused place hLower item hItem state rest, List.take_append_of_le_length hLower.le]
    · have hFails := hFirst.refused (place - lower.length) (by omega) item hItem state
        (itemsOf lower ++ rest)
      rw [itemsWith_append_right hUpper, List.append_assoc, bind_of_error hFails,
        ← List.append_assoc, ← itemsOf_append, List.take_append, List.take_of_length_le hUpper]

/-- A step that takes operands off may be known to go on in another way. -/
theorem Takes.congr {step onward other : Step α} {operands : List Int}
    (h : Takes step operands onward) (hSame : onward = other) : Takes step operands other :=
  hSame ▸ h

end

/-- A number is taken off. -/
theorem takes_popNumber (number : Int) : Takes popNumber [number] (pure number) where
  taken _ rest := popNumber_encode number rest
  refused place hPlace item hItem _ rest := by
    obtain rfl : place = 0 := Nat.lt_one_iff.1 hPlace
    exact popNumber_of_forall_encode_ne hItem rest

/-- Two numbers are taken off. -/
theorem takes_popNumbers (a b : Int) : Takes popNumbers [a, b] (pure (a, b)) := by
  change Takes _ ([a] ++ [b]) _
  exact (takes_popNumber b).bind ((takes_popNumber a).bind (.none _))

/-- A position is taken off. -/
theorem takes_popIndex {count : Nat} (hBound : count < WordSize.count.bound) :
    Takes popIndex [count] (pure count) := by
  refine (takes_popNumber count).bind ((Takes.none _).congr ?_)
  rw [if_neg (Int.not_lt.2 (Int.natCast_nonneg count)),
    ScriptNumber.toWord_eq_ok_iff.2 ⟨rfl, hBound⟩]
  rfl

/-! ## The families of opcodes -/

/-- A number is replaced by what a function makes of it. -/
theorem takes_onNumber (f : Int → Int) (a : Int) : Takes (onNumber f) [a] (pushNumber (f a)) :=
  (takes_popNumber a).bind (.none _)

/-- Two numbers are replaced by what a function makes of them. -/
theorem takes_onNumbers (f : Int → Int → Int) (a b : Int) :
    Takes (onNumbers f) [a, b] (pushNumber (f a b)) :=
  (takes_popNumbers a b).bind (.none _)

/-- Two numbers are replaced by the truth of a relation between them. -/
theorem takes_onNumbersBool (f : Int → Int → Bool) (a b : Int) :
    Takes (onNumbersBool f) [a, b] (pushNumber (ScriptNumber.ofBool (f a b))) :=
  takes_onNumbers _ a b

/-- Two numbers are replaced by a part of their quotient. -/
theorem takes_onDivision {f : Int → Int → Option Int} {a b part : Int} (hDivisor : b ≠ 0)
    (hPart : f a b = some part) : Takes (onDivision f) [a, b] (pushNumber part) := by
  refine (takes_popNumbers a b).bind ((Takes.none _).congr ?_)
  change (if b = 0 then throw .divisionByZero else located (f a b) >>= pushNumber) = _
  rw [if_neg hDivisor, hPart]
  rfl

/-- Nothing is divided by zero. -/
theorem takes_onDivision_zero (f : Int → Int → Option Int) (a : Int) :
    Takes (onDivision f) [a, 0] (throw .divisionByZero) :=
  (takes_popNumbers a 0).bind (.none _)

/-- A number under a shift is replaced by what a function makes of them. -/
theorem takes_onShift (f : Int → Nat → Int) (a : Int) {count : Nat} (hCount : count ≤ maxShift) :
    Takes (onShift f) [a, count] (pushNumber (f a count)) := by
  have hBound : count < WordSize.count.bound := Nat.lt_of_le_of_lt hCount (by decide)
  change Takes _ ([a] ++ [(count : Int)]) _
  refine (takes_popIndex hBound).bind ?_
  rw [if_neg (Nat.not_lt.2 hCount)]
  exact (takes_popNumber a).bind (.none _)

/-- A number under two others is replaced by the truth of a relation between them. -/
theorem takes_within (env : Env) (a lower upper : Int) :
    Takes (step env .within) [a, lower, upper]
      (pushNumber (ScriptNumber.ofBool (lower ≤ a && a < upper))) := by
  change Takes _ (([a] ++ [lower]) ++ [upper]) _
  exact (takes_popNumber upper).bind
    ((takes_popNumber lower).bind ((takes_popNumber a).bind (.none _)))

/-! ## The opcodes -/

/-- The number of a truth value tells whether what it stands for holds. -/
theorem ofBool_of_iff {b : Bool} {p : Prop} [Decidable p] (h : b = true ↔ p) :
    ScriptNumber.ofBool b = if p then 1 else 0 :=
  if_congr h rfl rfl

/-- One shifted to the left is a power of two. -/
theorem cast_one_shiftLeft (count : Nat) : ((1 <<< count : Nat) : Int) = 2 ^ count := by
  rw [Nat.one_shiftLeft]
  exact Nat.cast_pow 2 count

/-- An opcode takes off operands of which a number can be made, and pushes that number. -/
theorem takes_step (env : Env) {op : Opcode} {operands : List Int} {number : Int}
    (hLegal : Legal op operands) (h : Computes op operands number) :
    Takes (step env op) operands (pushNumber number) := by
  cases h with
  | add1 a => exact takes_onNumber (· + 1) a
  | sub1 a => exact takes_onNumber (· - 1) a
  | mul2 a => exact takes_onNumber (· * 2) a
  | @div2 a _ _ hParts =>
    obtain ⟨rfl, -⟩ := (truncates_iff two_ne_zero).1 hParts
    exact takes_onNumber (·.tdiv 2) a
  | negate a => exact takes_onNumber (- ·) a
  | abs a =>
    rw [Int.abs_eq_natAbs]
    exact takes_onNumber (fun a => a.natAbs) a
  | notOp a =>
    rw [← ofBool_of_iff beq_iff_eq]
    exact takes_onNumber _ a
  | notEqual0 a =>
    rw [← ofBool_of_iff bne_iff_ne]
    exact takes_onNumber _ a
  | add a b => exact takes_onNumbers (· + ·) a b
  | sub a b => exact takes_onNumbers (· - ·) a b
  | mul a b => exact takes_onNumbers (· * ·) a b
  | @div a b _ _ hParts =>
    have hDivisor : b ≠ 0 := hLegal.divisor (.inl rfl) a b rfl
    obtain ⟨rfl, -⟩ := (truncates_iff hDivisor).1 hParts
    exact takes_onDivision hDivisor (if_neg hDivisor)
  | @mod a b _ _ hParts =>
    have hDivisor : b ≠ 0 := hLegal.divisor (.inr rfl) a b rfl
    obtain ⟨-, rfl⟩ := (truncates_iff hDivisor).1 hParts
    exact takes_onDivision hDivisor (if_neg hDivisor)
  | shiftLeft a count =>
    have hCount := (hLegal.count (.inl rfl) a count rfl).2
    rw [← cast_one_shiftLeft]
    exact takes_onShift _ a (Int.ofNat_le.1 hCount)
  | @shiftRight a _ count hFloor =>
    have hCount := (hLegal.count (.inr rfl) a count rfl).2
    -- The divisor is positive, and so the quotient downward is the Euclidean one.
    have hQuotient : a.fdiv ((1 <<< count : Nat) : Int) = number := by
      rw [cast_one_shiftLeft, Int.fdiv_eq_ediv_of_nonneg a (Int.pow_nonneg (by decide)),
        floor_iff.1 hFloor]
    rw [← hQuotient]
    exact takes_onShift _ a (Int.ofNat_le.1 hCount)
  | boolAnd a b =>
    rw [← ofBool_of_iff (b := a != 0 && b != 0) (by simp)]
    exact takes_onNumbersBool _ a b
  | boolOr a b =>
    rw [← ofBool_of_iff (b := a != 0 || b != 0) (by simp)]
    exact takes_onNumbersBool _ a b
  | numEqual a b =>
    rw [← ofBool_of_iff beq_iff_eq]
    exact takes_onNumbersBool _ a b
  | numNotEqual a b =>
    rw [← ofBool_of_iff bne_iff_ne]
    exact takes_onNumbersBool _ a b
  | lessThan a b =>
    rw [← ofBool_of_iff decide_eq_true_iff]
    exact takes_onNumbersBool _ a b
  | greaterThan a b =>
    rw [← ofBool_of_iff decide_eq_true_iff]
    exact takes_onNumbersBool _ a b
  | lessThanOrEqual a b =>
    rw [← ofBool_of_iff decide_eq_true_iff]
    exact takes_onNumbersBool _ a b
  | greaterThanOrEqual a b =>
    rw [← ofBool_of_iff decide_eq_true_iff]
    exact takes_onNumbersBool _ a b
  | min a b =>
    rw [min_def]
    exact takes_onNumbers (fun a b => if a ≤ b then a else b) a b
  | max a b =>
    rw [max_def]
    exact takes_onNumbers (fun a b => if a ≤ b then b else a) a b
  | within a lower upper =>
    rw [← ofBool_of_iff (b := lower ≤ a && a < upper) (by simp)]
    exact takes_within env a lower upper

/-- Of operands that are legal a number can be made. -/
theorem Legal.exists_computes {op : Opcode} {operands : List Int} (h : Legal op operands) :
    ∃ number, Computes op operands number := by
  obtain ⟨hArity, hDivisor, hCount⟩ := h
  match operands, hArity with
  | [a], hArity =>
    cases op with
    | add1 => exact ⟨_, .add1 a⟩
    | sub1 => exact ⟨_, .sub1 a⟩
    | mul2 => exact ⟨_, .mul2 a⟩
    | div2 => exact ⟨_, .div2 ((truncates_iff two_ne_zero).2 ⟨rfl, rfl⟩)⟩
    | negate => exact ⟨_, .negate a⟩
    | abs => exact ⟨_, .abs a⟩
    | notOp => exact ⟨_, .notOp a⟩
    | notEqual0 => exact ⟨_, .notEqual0 a⟩
    | _ => cases hArity
  | [a, b], hArity =>
    cases op with
    | add => exact ⟨_, .add a b⟩
    | sub => exact ⟨_, .sub a b⟩
    | mul => exact ⟨_, .mul a b⟩
    | div =>
      have hNonzero : b ≠ 0 := hDivisor (.inl rfl) a b rfl
      exact ⟨_, .div ((truncates_iff hNonzero).2 ⟨rfl, rfl⟩)⟩
    | mod =>
      have hNonzero : b ≠ 0 := hDivisor (.inr rfl) a b rfl
      exact ⟨_, .mod ((truncates_iff hNonzero).2 ⟨rfl, rfl⟩)⟩
    | shiftLeft =>
      obtain ⟨count, rfl⟩ := Int.eq_ofNat_of_zero_le (hCount (.inl rfl) a b rfl).1
      exact ⟨_, .shiftLeft a count⟩
    | shiftRight =>
      obtain ⟨count, rfl⟩ := Int.eq_ofNat_of_zero_le (hCount (.inr rfl) a b rfl).1
      exact ⟨_, .shiftRight (floor_iff.2 rfl)⟩
    | boolAnd => exact ⟨_, .boolAnd a b⟩
    | boolOr => exact ⟨_, .boolOr a b⟩
    | numEqual => exact ⟨_, .numEqual a b⟩
    | numNotEqual => exact ⟨_, .numNotEqual a b⟩
    | lessThan => exact ⟨_, .lessThan a b⟩
    | greaterThan => exact ⟨_, .greaterThan a b⟩
    | lessThanOrEqual => exact ⟨_, .lessThanOrEqual a b⟩
    | greaterThanOrEqual => exact ⟨_, .greaterThanOrEqual a b⟩
    | min => exact ⟨_, .min a b⟩
    | max => exact ⟨_, .max a b⟩
    | _ => cases hArity
  | [a, lower, upper], hArity =>
    cases op with
    | within => exact ⟨_, .within a lower upper⟩
    | _ => cases hArity
  | [], hArity => cases op <;> cases hArity
  | _ :: _ :: _ :: _ :: _, hArity => cases op <;> cases hArity

/-- Of operands that are legal one number can be made. -/
theorem Computes.eq {op : Opcode} {operands : List Int} {number other : Int}
    (hLegal : Legal op operands) (h : Computes op operands number)
    (hOther : Computes op operands other) : other = number := by
  cases h with
  | div2 h =>
    cases hOther with
    | div2 hOther =>
      rw [((truncates_iff two_ne_zero).1 h).1, ((truncates_iff two_ne_zero).1 hOther).1]
  | @div a b _ _ h =>
    cases hOther with
    | div hOther =>
      have hDivisor : b ≠ 0 := hLegal.divisor (.inl rfl) a b rfl
      rw [((truncates_iff hDivisor).1 h).1, ((truncates_iff hDivisor).1 hOther).1]
  | @mod a b _ _ h =>
    cases hOther with
    | mod hOther =>
      have hDivisor : b ≠ 0 := hLegal.divisor (.inr rfl) a b rfl
      rw [((truncates_iff hDivisor).1 h).2, ((truncates_iff hDivisor).1 hOther).2]
  | @shiftRight a _ count h =>
    obtain ⟨otherCount, hCount, hFloor⟩ : ∃ otherCount : Nat, (otherCount : Int) = count ∧
        other = a / 2 ^ otherCount := by
      -- The counts stand among the operands as integers, which hides that they are the same.
      generalize hOperands : [a, (count : Int)] = operands at hOther
      cases hOther with
      | shiftRight hOther =>
        obtain ⟨rfl, hRest⟩ := List.cons.inj hOperands
        exact ⟨_, (List.cons.inj hRest).1.symm, floor_iff.1 hOther⟩
    rw [hFloor, floor_iff.1 h, Int.ofNat_inj.1 hCount]
  | _ => cases hOther; rfl

/-- An opcode that makes numbers of numbers neither steers nor ends a script. -/
theorem plain_of_arity? {op : Opcode} {count : Nat} (h : arity? op = some count) :
    op.isConditional = false ∧ op ≠ .returnOp := by
  constructor
  · cases op <;> first | rfl | cases h
  · rintro rfl
    cases h

/-- A number is put on a stack, or its form is too large. -/
theorem pushNumber_eq (number : Int) (state : State) :
    pushNumber number state =
      if (ScriptNumber.encode number).length ≤ maxElementSize then
        .ok () { state with stack := ScriptNumber.encode number :: state.stack }
      else .error (.elementTooLarge (ScriptNumber.encode number).length) state := by
  unfold pushNumber push
  split_ifs with hLarge hFits hFits
  · exact absurd hFits (Nat.not_le.2 hLarge)
  · rfl
  · rfl
  · exact absurd (Nat.le_of_not_lt hLarge) hFits

/-- The chunk of an opcode that makes a number of legal operands replaces them by it, if its form is
not too large. The stack does not grow by that. -/
theorem stepChunk_of_computes {env : Env} {op : Opcode} {operands : List Int} {number : Int}
    (hLegal : Legal op operands) (h : Computes op operands number) {state : State} {rest : Stack}
    (hStack : state.stack = itemsOf operands ++ rest) (hExecuting : state.executing = true)
    (hCount : state.opCount < env.maxOps)
    (hDepth : state.stack.length + state.alt.length ≤ maxStackDepth) :
    stepChunk env (.ofOpcode op) state =
      if (ScriptNumber.encode number).length ≤ maxElementSize then
        .ok .next { state with
          stack := ScriptNumber.encode number :: rest, opCount := state.opCount + 1 }
      else .error (.elementTooLarge (ScriptNumber.encode number).length)
        { state with stack := rest, opCount := state.opCount + 1 } := by
  obtain ⟨hPlain, hReturn⟩ := plain_of_arity? hLegal.arity
  have hStep : step env op { state with opCount := state.opCount + 1 } =
      pushNumber number { state with stack := rest, opCount := state.opCount + 1 } := by
    have hTaken := (takes_step env hLegal h).taken { state with opCount := state.opCount + 1 } rest
    rwa [← hStack] at hTaken
  rw [stepChunk_ofOpcode_eq hPlain hReturn hExecuting hCount]
  rw [pushNumber_eq] at hStep
  split_ifs at hStep ⊢ with hFits
  · have hSome : 0 < operands.length := by
      have hArity := hLegal.arity
      rcases operands with _ | ⟨_, _⟩
      · cases op <;> cases hArity
      · exact Nat.succ_pos _
    have hRoom : (ScriptNumber.encode number :: rest).length + state.alt.length ≤ maxStackDepth := by
      rw [hStack, List.length_append, length_itemsOf] at hDepth
      rw [List.length_cons]
      omega
    rw [bind_of_ok hStep]
    exact bind_of_ok (a := ()) (checkDepth_ok_iff.2 ⟨hRoom, rfl⟩)
  · exact bind_of_error hStep

/-- Arithmetic is exact, and its results are numbers again. Legal operands are replaced by the shortest
form of the one number that the opcode makes of them, and everything else is kept, unless that form has
more than 4096 bytes. The quotient and the remainder of a division belong together. A zero divisor, and
an item that is the shortest form of no number among legal operands, are refused as what they are. In
a script that may count one more opcode the same happens, and the opcode is counted. -/
theorem step_arithmetic_exact (env : Env) :
    (∀ op operands, Legal op operands → ∃ number,
      (∀ other, Computes op operands other ↔ other = number) ∧
      ScriptNumber.decode (ScriptNumber.encode number) = .ok number ∧
      ∀ (state : State) (rest : Stack), state.stack = itemsOf operands ++ rest →
        (step env op state =
          if (ScriptNumber.encode number).length ≤ 4096 then
            .ok () { state with stack := ScriptNumber.encode number :: rest }
          else .error (.elementTooLarge (ScriptNumber.encode number).length)
            { state with stack := rest }) ∧
        (state.executing = true → state.opCount < env.maxOps →
          state.stack.length + state.alt.length ≤ 1000 →
          stepChunk env (.ofOpcode op) state =
            if (ScriptNumber.encode number).length ≤ 4096 then
              .ok .next { state with
                stack := ScriptNumber.encode number :: rest, opCount := state.opCount + 1 }
            else .error (.elementTooLarge (ScriptNumber.encode number).length)
              { state with stack := rest, opCount := state.opCount + 1 })) ∧
    (∀ a b : Int, b ≠ 0 → ∃ quotient remainder,
      Computes .div [a, b] quotient ∧ Computes .mod [a, b] remainder ∧
        quotient * b + remainder = a ∧ |remainder| < |b| ∧
        (remainder = 0 ∨ remainder.sign = a.sign)) ∧
    (∀ op, op = .div ∨ op = .mod → ∀ (a : Int) (state : State) (rest : Stack),
      state.stack = itemsOf [a, 0] ++ rest →
        step env op state = .error .divisionByZero { state with stack := rest }) ∧
    (∀ op operands, Legal op operands → ∀ place < operands.length, ∀ item : Bytes,
      (∀ number, ScriptNumber.encode number ≠ item) → ∀ (state : State) (rest : Stack),
        state.stack = itemsWith operands place item ++ rest →
          step env op state = .error (.invalidNumber (.notMinimal item))
            { state with stack := itemsOf (operands.take place) ++ rest }) ∧
    (∀ op count, arity? op = some count → ∀ (state after : State) (failure : ScriptFailure),
      state.executing = true → state.opCount < env.maxOps →
        step env op { state with opCount := state.opCount + 1 } = .error failure after →
          stepChunk env (.ofOpcode op) state = .error failure after) := by
  refine ⟨fun op operands hLegal => ?_, fun a b hDivisor => ?_, fun op hOp a state rest hStack => ?_,
    fun op operands hLegal place hPlace item hItem state rest hStack => ?_,
    fun op count hArity state after failure hExecuting hCount hFails => ?_⟩
  · obtain ⟨number, hNumber⟩ := hLegal.exists_computes
    refine ⟨number, fun other => ⟨hNumber.eq hLegal, fun h => h ▸ hNumber⟩,
      ScriptNumber.decode_encode number, fun state rest hStack =>
        ⟨?_, stepChunk_of_computes hLegal hNumber hStack⟩⟩
    have hTaken := (takes_step env hLegal hNumber).taken state rest
    rw [← hStack, pushNumber_eq] at hTaken
    exact hTaken
  · have hParts : Truncates a b (a.tdiv b) (a.tmod b) := (truncates_iff hDivisor).2 ⟨rfl, rfl⟩
    exact ⟨_, _, .div hParts, .mod hParts, hParts.sum, hParts.small, hParts.sign⟩
  · have hTakes : Takes (step env op) [a, 0] (throw .divisionByZero) := by
      rcases hOp with rfl | rfl
      · exact takes_onDivision_zero quotient? a
      · exact takes_onDivision_zero remainder? a
    have hTaken := hTakes.taken state rest
    rw [← hStack] at hTaken
    exact hTaken
  · obtain ⟨number, hNumber⟩ := hLegal.exists_computes
    have hRefused := (takes_step env hLegal hNumber).refused place hPlace item hItem state rest
    rw [← hStack] at hRefused
    exact hRefused
  · obtain ⟨hPlain, hReturn⟩ := plain_of_arity? hArity
    rw [stepChunk_ofOpcode_eq hPlain hReturn hExecuting hCount]
    exact bind_of_error hFails

/-- Division of -7 by 2 goes toward zero, its shift by one bit downward; a zero divisor and a divisor
with a byte to spare are refused. -/
theorem step_div_negSeven :
    stepChunk ⟨[], none, 1⟩ (.ofOpcode .div) (.start [[0x02], [0xf9]]) =
      .ok .next { State.start [[0xfd]] with opCount := 1 } ∧
    stepChunk ⟨[], none, 1⟩ (.ofOpcode .shiftRight) (.start [[0x01], [0xf9]]) =
      .ok .next { State.start [[0xfc]] with opCount := 1 } ∧
    step ⟨[], none, 1⟩ .div (.start [[0x00], [0xf9]]) = .error .divisionByZero (.start []) ∧
    step ⟨[], none, 1⟩ .div (.start [[0x00, 0x02], [0xf9]]) =
      .error (.invalidNumber (.notMinimal [0x00, 0x02])) (.start [[0xf9]]) := by
  obtain ⟨hExact, -, hZero, hRefused, -⟩ := step_arithmetic_exact ⟨[], none, 1⟩
  have hDiv : Legal .div [-7, 2] := by
    refine ⟨rfl, fun _ a b hOperands => ?_, fun hOp => by simp at hOp⟩
    obtain ⟨-, rfl⟩ : -7 = a ∧ 2 = b := by simpa using hOperands
    exact two_ne_zero
  have hShift : Legal .shiftRight [-7, 1] := by
    refine ⟨rfl, fun hOp => by simp at hOp, fun _ a count hOperands => ?_⟩
    obtain ⟨-, rfl⟩ : -7 = a ∧ 1 = count := by simpa using hOperands
    decide
  have hSpare : ∀ number, ScriptNumber.encode number ≠ [0x00, 0x02] := by
    intro number hForm
    have hRead := ScriptNumber.decode_encode number
    rw [hForm] at hRead
    exact absurd hRead nofun
  refine ⟨?_, ?_, hZero .div (.inl rfl) (-7) (.start [[0x00], [0xf9]]) [] rfl,
    hRefused .div [-7, 2] hDiv 1 (by decide) [0x00, 0x02] hSpare
      (.start [[0x00, 0x02], [0xf9]]) [] rfl⟩
  · obtain ⟨number, hNumber, -, hRuns⟩ := hExact .div [-7, 2] hDiv
    have hParts : Truncates (-7) 2 (-3) (-1) := ⟨rfl, by decide, .inr rfl⟩
    obtain rfl := (hNumber (-3)).1 (.div hParts)
    exact (hRuns (.start [[0x02], [0xf9]]) [] rfl).2 rfl (by decide) (by decide)
  · obtain ⟨number, hNumber, -, hRuns⟩ := hExact .shiftRight [-7, 1] hShift
    obtain rfl := (hNumber (-4)).1 (@Computes.shiftRight (-7) (-4) 1 ⟨by decide, by decide⟩)
    exact (hRuns (.start [[0x01], [0xf9]]) [] rfl).2 rfl (by decide) (by decide)

end UtxoChain.Machine
