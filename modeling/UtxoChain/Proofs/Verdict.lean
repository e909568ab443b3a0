import Mathlib.Algebra.Order.Ring.Nat

/-!
# Verdicts

A check is an `Except` that succeeds or names a fault, and a stateful one also leads from one state
to another. These lemmas take a check that succeeded apart into the checks it is made of.
-/

namespace UtxoChain

variable {ε ε' α β : Type}

/-- A check that goes on with what another gives succeeds exactly when both do. -/
theorem bind_eq_ok_iff {check : Except ε α} {next : α → Except ε β} {b : β} :
    (check >>= next) = .ok b ↔ ∃ a, check = .ok a ∧ next a = .ok b := by
  cases check with
  | error fault => simp [bind, Except.bind]
  | ok a => simp [bind, Except.bind]

/-- Two checks in a row succeed exactly when both do. -/
theorem andThen_eq_ok_iff {check : Except ε Unit} {next : Unit → Except ε β} {b : β} :
    (check >>= next) = .ok b ↔ check = .ok () ∧ next () = .ok b := by
  rw [bind_eq_ok_iff]
  constructor
  · rintro ⟨⟨⟩, hCheck, hNext⟩
    exact ⟨hCheck, hNext⟩
  · intro h
    exact ⟨(), h⟩

/-- A check whose fault is renamed succeeds exactly when the check does. -/
@[simp]
theorem mapError_eq_ok_iff {check : Except ε α} {rename : ε → ε'} {a : α} :
    check.mapError rename = .ok a ↔ check = .ok a := by
  cases check with
  | error fault => simp [Except.mapError]
  | ok a => simp [Except.mapError]

/-- A check that fails gives nothing. -/
theorem throw_ne_ok {fault : ε} {a : α} : (throw fault : Except ε α) ≠ .ok a :=
  nofun

/-- A check that goes on with what another gives fails where the other fails, or where it gives
something with which the check fails. -/
theorem bind_eq_error_iff {check : Except ε α} {next : α → Except ε β} {fault : ε} :
    (check >>= next) = .error fault ↔
      check = .error fault ∨ ∃ a, check = .ok a ∧ next a = .error fault := by
  cases check with
  | error found => simp [bind, Except.bind]
  | ok a => simp [bind, Except.bind]

/-- Two checks in a row fail where the first fails, or where it succeeds and the second fails. -/
theorem andThen_eq_error_iff {check : Except ε Unit} {next : Unit → Except ε β} {fault : ε} :
    (check >>= next) = .error fault ↔
      check = .error fault ∨ check = .ok () ∧ next () = .error fault :=
  bind_eq_error_iff.trans (or_congr_right Unique.exists_iff)

/-- A check fails exactly when it gives nothing. -/
theorem exists_error_iff {check : Except ε α} :
    (∃ fault, check = .error fault) ↔ ¬ ∃ a, check = .ok a := by
  cases check with
  | error fault => simp
  | ok a => simp

/-- A check whose fault is renamed fails exactly when the check does. -/
theorem mapError_eq_error_iff {check : Except ε α} {rename : ε → ε'} {fault : ε'} :
    check.mapError rename = .error fault ↔
      ∃ found, check = .error found ∧ rename found = fault := by
  rcases check with found | a <;> simp [Except.mapError]

/-- The result of a check is there exactly when the check succeeds. -/
theorem toOption_eq_some_iff {check : Except ε α} {a : α} :
    check.toOption = some a ↔ check = .ok a := by
  cases check with
  | error fault => simp [Except.toOption]
  | ok b => simp [Except.toOption]

/-- A check of every item of a list succeeds exactly when it does on each. -/
theorem forM_eq_ok_iff {check : α → Except ε Unit} {items : List α} :
    items.forM check = .ok () ↔ ∀ item ∈ items, check item = .ok () := by
  rw [List.forM_eq_forM]
  induction items with
  | nil => simp [pure, Except.pure]
  | cons item items ih =>
    rw [List.forM_cons, andThen_eq_ok_iff, ih, List.forall_mem_cons]

/-- The items of a list are read if the first one is and the others are. -/
theorem mapM_cons_eq_ok_iff {read : α → Except ε β} {item : α} {items : List α} {results : List β} :
    (item :: items).mapM read = .ok results ↔
      ∃ first others, read item = .ok first ∧ items.mapM read = .ok others ∧
        first :: others = results := by
  rw [List.mapM_cons]
  constructor
  · intro h
    obtain ⟨first, hFirst, hRest⟩ := bind_eq_ok_iff.1 h
    obtain ⟨others, hOthers, hResults⟩ := bind_eq_ok_iff.1 hRest
    exact ⟨first, others, hFirst, hOthers, Except.ok.inj hResults⟩
  · rintro ⟨first, others, hFirst, hOthers, rfl⟩
    rw [hFirst, hOthers]
    rfl

/-- Where every item of a list is read, each result is read from an item. -/
theorem exists_of_mem_mapM {read : α → Except ε β} {items : List α} {results : List β}
    (h : items.mapM read = .ok results) {result : β} (hMem : result ∈ results) :
    ∃ item ∈ items, read item = .ok result := by
  induction items generalizing results with
  | nil =>
    obtain rfl := Except.ok.inj h
    exact absurd hMem List.not_mem_nil
  | cons item items ih =>
    obtain ⟨first, others, hFirst, hOthers, rfl⟩ := mapM_cons_eq_ok_iff.1 h
    rcases List.mem_cons.1 hMem with rfl | hMem
    · exact ⟨item, List.mem_cons_self, hFirst⟩
    · obtain ⟨source, hSource, hRead⟩ := ih hOthers hMem
      exact ⟨source, List.mem_cons_of_mem _ hSource, hRead⟩

/-- Where every item of a list is read, each of them is. -/
theorem exists_of_mapM_eq_ok {read : α → Except ε β} {items : List α} {results : List β}
    (h : items.mapM read = .ok results) {item : α} (hMem : item ∈ items) :
    ∃ result, read item = .ok result := by
  induction items generalizing results with
  | nil => exact absurd hMem List.not_mem_nil
  | cons other items ih =>
    obtain ⟨first, others, hFirst, hOthers, -⟩ := mapM_cons_eq_ok_iff.1 h
    rcases List.mem_cons.1 hMem with rfl | hMem
    · exact ⟨first, hFirst⟩
    · exact ih hOthers hMem

/-- Where the items of a list are not all read, the fault is that of one of them. -/
theorem exists_of_mapM_eq_error {read : α → Except ε β} {items : List α} {fault : ε}
    (h : items.mapM read = .error fault) : ∃ item ∈ items, read item = .error fault := by
  induction items with
  | nil => exact absurd h nofun
  | cons first items ih =>
    rw [List.mapM_cons] at h
    rcases bind_eq_error_iff.1 h with hFirst | ⟨result, -, hRest⟩
    · exact ⟨first, List.mem_cons_self, hFirst⟩
    · rcases bind_eq_error_iff.1 hRest with hOthers | ⟨others, -, hDone⟩
      · obtain ⟨item, hItem, hFault⟩ := ih hOthers
        exact ⟨item, List.mem_cons_of_mem _ hItem, hFault⟩
      · exact absurd hDone nofun

/-- Written items that are each read are read as a list. -/
theorem mapM_map_eq_ok {γ : Type} {write : α → γ} {read : γ → Except ε β} {value : α → β}
    {items : List α} (h : ∀ item ∈ items, read (write item) = .ok (value item)) :
    (items.map write).mapM read = .ok (items.map value) := by
  induction items with
  | nil => rfl
  | cons item items ih =>
    obtain ⟨hFirst, hOthers⟩ := List.forall_mem_cons.1 h
    exact mapM_cons_eq_ok_iff.2 ⟨value item, items.map value, hFirst, ih hOthers, rfl⟩

namespace Stateful

variable {σ : Type} {start stop : σ}

/-- A stateful check that goes on with what another gives succeeds exactly when both do. -/
theorem bind_ok_iff {first : EStateM ε σ α} {next : α → EStateM ε σ β} {b : β} :
    (first >>= next) start = .ok b stop ↔
      ∃ a middle, first start = .ok a middle ∧ next a middle = .ok b stop := by
  change EStateM.bind first next start = _ ↔ _
  unfold EStateM.bind
  cases first start with
  | ok a middle => simp
  | error fault middle => simp

/-- Where the first of two stateful checks succeeds, the second decides. -/
theorem bind_of_ok {first : EStateM ε σ α} {next : α → EStateM ε σ β} {a : α}
    (h : first start = .ok a stop) : (first >>= next) start = next a stop := by
  change EStateM.bind first next start = _
  unfold EStateM.bind
  rw [h]

/-- Where the first of two stateful checks fails, so do both. -/
theorem bind_of_error {first : EStateM ε σ α} {next : α → EStateM ε σ β} {fault : ε}
    (h : first start = .error fault stop) : (first >>= next) start = .error fault stop := by
  change EStateM.bind first next start = _
  unfold EStateM.bind
  rw [h]

/-- A stateful check that goes on with what another gives fails where the other fails, or where it gives
something with which the check fails. -/
theorem bind_error_iff {first : EStateM ε σ α} {next : α → EStateM ε σ β} {fault : ε} :
    (first >>= next) start = .error fault stop ↔
      first start = .error fault stop ∨
        ∃ a middle, first start = .ok a middle ∧ next a middle = .error fault stop := by
  change EStateM.bind first next start = _ ↔ _
  unfold EStateM.bind
  cases first start with
  | ok a middle => simp
  | error found middle => simp

/-- A stateful check that only gives a value keeps the state. -/
theorem pure_ok_iff {a b : α} :
    (pure a : EStateM ε σ α) start = .ok b stop ↔ a = b ∧ start = stop := by
  simp [pure, EStateM.pure]

/-- A stateful check whose value is changed succeeds exactly when it does. -/
theorem map_ok_iff {f : α → β} {check : EStateM ε σ α} {b : β} :
    (f <$> check) start = .ok b stop ↔ ∃ a, check start = .ok a stop ∧ f a = b := by
  change EStateM.map f check start = _ ↔ _
  unfold EStateM.map
  cases check start with
  | ok a stop => simp [and_comm]
  | error fault stop => simp

/-- A stateful check that fails gives nothing. -/
theorem throw_ok_iff {fault : ε} {b : α} :
    (throw fault : EStateM ε σ α) start = .ok b stop ↔ False := by
  show EStateM.Result.error fault start = .ok b stop ↔ False
  simp

/-- A stateful check that fails keeps the state. -/
theorem throw_error_iff {fault found : ε} :
    (throw fault : EStateM ε σ α) start = .error found stop ↔ fault = found ∧ start = stop := by
  show EStateM.Result.error fault start = .error found stop ↔ fault = found ∧ start = stop
  simp

/-- The state is given and kept. -/
theorem get_ok_iff {state : σ} :
    (get : EStateM ε σ σ) start = .ok state stop ↔ start = state ∧ start = stop := by
  show EStateM.Result.ok start start = .ok state stop ↔ start = state ∧ start = stop
  simp

/-- The state is changed. -/
theorem modify_ok_iff {update : σ → σ} {done : PUnit} :
    (modify update : EStateM ε σ PUnit) start = .ok done stop ↔ stop = update start := by
  show EStateM.Result.ok PUnit.unit (update start) = .ok done stop ↔ stop = update start
  simp [eq_comm]

/-- Changing the state does not fail. -/
theorem modify_ne_error {update : σ → σ} {fault : ε} :
    (modify update : EStateM ε σ PUnit) start ≠ .error fault stop := by
  show EStateM.Result.ok PUnit.unit (update start) ≠ .error fault stop
  simp

end Stateful

end UtxoChain
