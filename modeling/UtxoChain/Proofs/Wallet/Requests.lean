import UtxoChain.Proofs.Wallet.Payment

/-!
# Requests to a payment

A payment is put together by requests that are served one after the other, whatever becomes of each.
An input is refused if the output that it would spend is unknown, is not locked to the hash of a key,
or would take the amount past a word. A request that is refused changes nothing, so what a payment
holds can be read off the requests that were granted (`Holds`). Serving one request keeps this
(`Holds.serve`), and therefore so does serving all of them (`holds_serveAll`).

The main statement is `serveAll_conserves`: the amount is the value of the outputs that the inputs
spend, each counted as often as it was added, and a transaction that is built creates exactly that
value.
-/

namespace UtxoChain.Payment

open Stateful

/-- What may be requested of a payment. -/
inductive Request
  /-- To spend the output under an outpoint. -/
  | input (point : OutPoint)
  /-- To create an output. -/
  | output (output : TxOut)
  /-- To set the absolute lock. -/
  | lock (lockAbs : UInt32)
deriving DecidableEq

namespace Request

/-- The outpoint of an output that is to be spent. -/
def point? : Request → Option OutPoint
  | .input point => some point
  | .output _ | .lock _ => none

/-- The output that is to be created. -/
def output? : Request → Option TxOut
  | .output created => some created
  | .input _ | .lock _ => none

/-- The absolute lock that is to be set. -/
def lock? : Request → Option UInt32
  | .lock lockAbs => some lockAbs
  | .input _ | .output _ => none

end Request

/-- The outpoints that requests ask to be spent, in their order and with repetitions. -/
def points (requests : List Request) : List OutPoint :=
  requests.filterMap Request.point?

/-- The outputs that requests ask to be created, in their order. -/
def requested (requests : List Request) : List TxOut :=
  requests.filterMap Request.output?

/-- The absolute lock after some requests: the last that was asked for, and zero before any. -/
def lastLock (requests : List Request) : UInt32 :=
  (requests.filterMap Request.lock?).getLast?.getD 0

/-- Serves a request. Only an input can be refused. -/
def serve (lookup : OutputLookup) (request : Request) : EStateM BuildFault Payment Unit :=
  match request with
  | .input point => addInput lookup point
  | .output output => modify fun payment => payment.addOutput output
  | .lock lockAbs => modify fun payment => payment.withLockAbs lockAbs

/-- Serves requests one after the other, whatever becomes of each. The requests that were granted
are given, and the payment that they lead to. -/
def serveAll (lookup : OutputLookup) : List Request → Payment → List Request × Payment
  | [], payment => ([], payment)
  | request :: rest, payment =>
    match serve lookup request payment with
    | .ok () next =>
      let (granted, final) := serveAll lookup rest next
      (request :: granted, final)
    | .error _ next => serveAll lookup rest next

variable {lookup : OutputLookup} {changeScript : Script} {payment : Payment}

/-! ## One request -/

/-- A request that is refused asks for an input, and leaves the payment as it was. -/
theorem eq_of_serve_error {request : Request} {fault : BuildFault} {next : Payment}
    (h : serve lookup request payment = .error fault next) :
    next = payment ∧ ∃ point, request = .input point := by
  cases request with
  | input point => exact ⟨eq_of_addInput_error h, point, rfl⟩
  | output output => exact absurd h modify_ne_error
  | lock lockAbs => exact absurd h modify_ne_error

/-- An input is refused exactly if no output is known that it may spend without taking the amount
past a word. -/
theorem addInput_refused_iff {point : OutPoint} :
    (∃ fault, addInput lookup point payment = .error fault payment) ↔
      ¬ ∃ spent, lookup point = some spent ∧ spent.script.signingHash?.isSome = true ∧
        payment.inputAmount.toNat + spent.value.toNat < 2 ^ 64 := by
  have hGranted : (∃ next, addInput lookup point payment = .ok () next) ↔
      ∃ spent, lookup point = some spent ∧ spent.script.signingHash?.isSome = true ∧
        payment.inputAmount.toNat + spent.value.toNat < 2 ^ 64 := by
    simp only [addInput_ok_iff]
    constructor
    · rintro ⟨_, spent, amount, hSpent, hHash, hAmount, rfl⟩
      rw [checkedAdd_eq_some_iff] at hAmount
      exact ⟨spent, hSpent, hHash, hAmount ▸ amount.toNat_lt⟩
    · rintro ⟨spent, hSpent, hHash, hWord⟩
      have hSum : checkedAdd payment.inputAmount spent.value =
          some (payment.inputAmount + spent.value) := if_pos hWord
      exact ⟨_, spent, _, hSpent, hHash, hSum, rfl⟩
  rw [← hGranted]
  cases hResult : addInput lookup point payment with
  | ok done next => simp
  | error fault next =>
    obtain rfl := eq_of_addInput_error hResult
    simp

/-- A payment holds what was granted: it is funded by known outputs, its inputs spend what was asked for
in the order of the requests, and its own outputs and its lock are those that were asked for. -/
structure Holds (lookup : OutputLookup) (changeScript : Script) (granted : List Request)
    (payment : Payment) : Prop where
  /-- The change is paid to the script that the payment started with. -/
  changeScript_eq : payment.changeScript = changeScript
  /-- The inputs spend what was asked for. -/
  inputs_eq : payment.inputs = (points granted).map fun point => ⟨point, .empty, 0⟩
  /-- The outputs are those that were asked for. -/
  outputs_eq : payment.outputs = requested granted
  /-- The lock is the last that was asked for. -/
  lockAbs_eq : payment.lockAbs = lastLock granted
  /-- The inputs are funded. -/
  funded : ∃ spent, Funded lookup payment spent

/-- A payment to which nothing was granted holds nothing. -/
theorem holds_start (lookup : OutputLookup) (changeScript : Script) :
    Holds lookup changeScript [] (start changeScript) :=
  ⟨rfl, rfl, rfl, rfl, (Made.start changeScript).exists_funded⟩

/-- The amount of a payment is the value of the outputs that were granted as inputs, each counted as
often as it was granted. -/
theorem Holds.exists_spent {granted : List Request} (h : Holds lookup changeScript granted payment) :
    ∃ spent, List.Forall₂ (fun point output => lookup point = some output) (points granted) spent ∧
      payment.inputAmount.toNat = TxOut.sum spent := by
  obtain ⟨spent, hFunded⟩ := h.funded
  have hKnown := hFunded.known
  rw [h.inputs_eq, List.forall₂_map_left_iff] at hKnown
  exact ⟨spent, hKnown, hFunded.amount_eq⟩

/-- A request more may ask for an outpoint more. -/
theorem points_concat (done : List Request) (request : Request) :
    points (done ++ [request]) = points done ++ request.point?.toList := by
  rw [points, List.filterMap_append]
  cases request <;> rfl

/-- A request more may ask for an output more. -/
theorem requested_concat (done : List Request) (request : Request) :
    requested (done ++ [request]) = requested done ++ request.output?.toList := by
  rw [requested, List.filterMap_append]
  cases request <;> rfl

/-- A request more may ask for another lock. -/
theorem lastLock_concat (done : List Request) (request : Request) :
    lastLock (done ++ [request]) = request.lock?.getD (lastLock done) := by
  rw [lastLock, List.filterMap_append]
  cases request <;> simp [Request.lock?, lastLock]

/-- A request that is granted is held. -/
theorem Holds.serve {done : List Request} (h : Holds lookup changeScript done payment)
    {request : Request} {next : Payment}
    (hServed : Payment.serve lookup request payment = .ok () next) :
    Holds lookup changeScript (done ++ [request]) next := by
  obtain ⟨hChange, hInputs, hOutputs, hLock, spent, hFunded⟩ := h
  cases request with
  | input point =>
    obtain ⟨output, hNext⟩ := hFunded.added hServed
    obtain ⟨_, amount, -, -, -, rfl⟩ := addInput_ok_iff.1 hServed
    refine ⟨hChange, ?_, ?_, ?_, spent ++ [output], hNext⟩
    · simp [points_concat, Request.point?, hInputs]
    · simpa [requested_concat, Request.output?] using hOutputs
    · simpa [lastLock_concat, Request.lock?] using hLock
  -- An output and a lock are granted without a look at the outputs that are known.
  | output output =>
    obtain rfl := modify_ok_iff.1 hServed
    refine ⟨hChange, ?_, ?_, ?_, spent, hFunded.congr rfl rfl⟩
    · simpa [points_concat, Request.point?, addOutput] using hInputs
    · simp [requested_concat, Request.output?, addOutput, hOutputs]
    · simpa [lastLock_concat, Request.lock?, addOutput] using hLock
  | lock lockAbs =>
    obtain rfl := modify_ok_iff.1 hServed
    refine ⟨hChange, ?_, ?_, ?_, spent, hFunded.congr rfl rfl⟩
    · simpa [points_concat, Request.point?, withLockAbs] using hInputs
    · simpa [requested_concat, Request.output?, withLockAbs] using hOutputs
    · simp [lastLock_concat, Request.lock?, withLockAbs]

/-! ## All requests -/

/-- What is granted beyond what was granted before is held too. -/
theorem Holds.serveAll {done : List Request} (h : Holds lookup changeScript done payment)
    (requests : List Request) :
    Holds lookup changeScript (done ++ (Payment.serveAll lookup requests payment).1)
      (Payment.serveAll lookup requests payment).2 := by
  induction requests generalizing done payment with
  | nil =>
    rw [Payment.serveAll, List.append_nil]
    exact h
  | cons request rest ih =>
    rw [Payment.serveAll]
    cases hResult : Payment.serve lookup request payment with
    | ok _ next =>
      have hRest := ih (h.serve hResult)
      rw [List.append_assoc, List.singleton_append] at hRest
      exact hRest
    | error fault next =>
      rw [(eq_of_serve_error hResult).1]
      exact ih h

/-- After any requests a payment holds those that were granted. -/
theorem holds_serveAll (lookup : OutputLookup) (changeScript : Script) (requests : List Request) :
    Holds lookup changeScript (serveAll lookup requests (start changeScript)).1
      (serveAll lookup requests (start changeScript)).2 := by
  have hHolds := (holds_start lookup changeScript).serveAll requests
  rw [List.nil_append] at hHolds
  exact hHolds

/-- Whatever is asked for besides inputs is granted. -/
theorem filterMap_granted {β : Type} {part : Request → Option β}
    (hInput : ∀ point, part (.input point) = none) (requests : List Request) (payment : Payment) :
    (serveAll lookup requests payment).1.filterMap part = requests.filterMap part := by
  induction requests generalizing payment with
  | nil => rfl
  | cons request rest ih =>
    rw [serveAll]
    cases hResult : serve lookup request payment with
    | ok _ next =>
      change (request :: (serveAll lookup rest next).1).filterMap part = _
      rw [List.filterMap_cons, List.filterMap_cons, ih]
    | error fault next =>
      obtain ⟨-, point, rfl⟩ := eq_of_serve_error hResult
      rw [List.filterMap_cons_none (hInput point)]
      exact ih next

/-- Every output that is asked for is granted. -/
theorem requested_granted (requests : List Request) (payment : Payment) :
    requested (serveAll lookup requests payment).1 = requested requests :=
  filterMap_granted (fun _ => rfl) requests payment

/-- Every lock that is asked for is granted. -/
theorem lastLock_granted (requests : List Request) (payment : Payment) :
    lastLock (serveAll lookup requests payment).1 = lastLock requests := by
  unfold lastLock
  rw [filterMap_granted (fun _ => rfl)]

/-! ## The transaction that is built -/

/-- No transaction is built exactly if there is no input, or the outputs are worth more than a word
or than the amount. -/
theorem build_error_iff :
    (∃ fault, payment.build = .error fault) ↔
      payment.inputs = [] ∨ 2 ^ 64 ≤ TxOut.sum payment.outputs ∨
        payment.inputAmount.toNat < TxOut.sum payment.outputs := by
  have hBuilt : (∃ tx, payment.build = .ok tx) ↔
      payment.inputs ≠ [] ∧ TxOut.sum payment.outputs < 2 ^ 64 ∧
        TxOut.sum payment.outputs ≤ payment.inputAmount.toNat := by
    simp only [build_eq_ok_iff]
    constructor
    · rintro ⟨_, hInputs, taken, hTaken, hLe, rfl⟩
      exact ⟨hInputs, hTaken ▸ taken.toNat_lt, hTaken ▸ hLe⟩
    · rintro ⟨hInputs, hWord, hLe⟩
      have hTaken : (UInt64.ofNat (TxOut.sum payment.outputs)).toNat = TxOut.sum payment.outputs :=
        UInt64.toNat_ofNat_of_lt' hWord
      refine ⟨_, hInputs, _, hTaken, ?_, rfl⟩
      rw [UInt64.le_iff_toNat_le, hTaken]
      exact hLe
  rw [exists_error_iff, hBuilt]
  by_cases hInputs : payment.inputs = []
  · simp [hInputs]
  · simp only [hInputs, ne_eq, not_false_eq_true, true_and, false_or]
    omega

/-- The outputs with the change are those asked for, and at most one more, which is worth something
and pays the change. -/
theorem exists_change (payment : Payment) (taken : UInt64) :
    ∃ change, payment.outputsWithChange taken = payment.outputs ++ change ∧ change.length ≤ 1 ∧
      ∀ output ∈ change, 0 < output.value ∧ output.script = payment.changeScript := by
  unfold outputsWithChange
  dsimp only
  split_ifs with hZero
  · exact ⟨[], (List.append_nil _).symm, Nat.zero_le 1, by simp⟩
  · refine ⟨_, rfl, Nat.le_refl 1, ?_⟩
    intro output hOutput
    rw [List.mem_singleton.1 hOutput]
    exact ⟨UInt64.pos_iff_ne_zero.2 hZero, rfl⟩

/-- A transaction that is built after some requests spends what was granted, creates what was asked for
and at most one output more, which is worth something and pays the change, and creates exactly the
amount. -/
theorem built_serveAll {requests : List Request} {tx : Tx}
    (hBuild : (serveAll lookup requests (start changeScript)).2.build = .ok tx) :
    tx.inputs = (points (serveAll lookup requests (start changeScript)).1).map
        (fun point => ⟨point, .empty, 0⟩) ∧
      tx.lockAbs = lastLock requests ∧
      (∃ change, tx.outputs = requested requests ++ change ∧ change.length ≤ 1 ∧
        ∀ output ∈ change, 0 < output.value ∧ output.script = changeScript) ∧
      TxOut.sum tx.outputs = (serveAll lookup requests (start changeScript)).2.inputAmount.toNat := by
  have hHolds := holds_serveAll lookup changeScript requests
  have hOutputs := hHolds.outputs_eq
  have hLock := hHolds.lockAbs_eq
  rw [requested_granted] at hOutputs
  rw [lastLock_granted] at hLock
  obtain ⟨-, taken, hTaken, hLe, rfl⟩ := build_eq_ok_iff.1 hBuild
  obtain ⟨change, hChange, hLength, hPays⟩ := exists_change
    (serveAll lookup requests (start changeScript)).2 taken
  rw [hOutputs] at hChange
  rw [hHolds.changeScript_eq] at hPays
  exact ⟨hHolds.inputs_eq, hLock, ⟨change, hChange, hLength, hPays⟩,
    sum_outputsWithChange hTaken hLe⟩

/-- A payment conserves value, after the given requests of which some were granted. -/
structure Conserves (lookup : OutputLookup) (changeScript : Script) (requests granted : List Request)
    (payment : Payment) : Prop where
  /-- The inputs are those that were granted, in their order. -/
  inputs_eq : payment.inputs = (points granted).map fun point => ⟨point, .empty, 0⟩
  /-- The amount is the value of the outputs that the inputs spend, each counted as often as it was
  added. -/
  amount_eq : ∃ spent, List.Forall₂ (fun point output => lookup point = some output)
    (points granted) spent ∧ payment.inputAmount.toNat = TxOut.sum spent
  /-- An input is refused exactly if no output is known that it may spend without taking the amount
  past a word. -/
  refused_iff : ∀ point, (∃ fault, addInput lookup point payment = .error fault payment) ↔
    ¬ ∃ spent, lookup point = some spent ∧ spent.script.signingHash?.isSome = true ∧
      payment.inputAmount.toNat + spent.value.toNat < 2 ^ 64
  /-- An input that is refused leaves the payment as it was. -/
  refused : ∀ point fault next, addInput lookup point payment = .error fault next → next = payment
  /-- No transaction is built exactly if no input was granted, or the outputs that were asked for are
  worth more than a word or than the amount. -/
  unbuilt_iff : (∃ fault, payment.build = .error fault) ↔
    points granted = [] ∨ 2 ^ 64 ≤ TxOut.sum (requested requests) ∨
      payment.inputAmount.toNat < TxOut.sum (requested requests)
  /-- A transaction that is built spends what was granted, creates what was asked for and at most one
  output more, which is worth something and pays the change, and creates exactly the amount. -/
  built : ∀ tx, payment.build = .ok tx →
    tx.inputs = (points granted).map (fun point => ⟨point, .empty, 0⟩) ∧
    tx.lockAbs = lastLock requests ∧
    (∃ change, tx.outputs = requested requests ++ change ∧ change.length ≤ 1 ∧
      ∀ output ∈ change, 0 < output.value ∧ output.script = changeScript) ∧
    TxOut.sum tx.outputs = payment.inputAmount.toNat

/-- After any requests, refused ones among them, a payment conserves value. -/
theorem serveAll_conserves (lookup : OutputLookup) (changeScript : Script)
    (requests : List Request) :
    Conserves lookup changeScript requests (serveAll lookup requests (start changeScript)).1
      (serveAll lookup requests (start changeScript)).2 := by
  have hHolds := holds_serveAll lookup changeScript requests
  have hOutputs := hHolds.outputs_eq
  rw [requested_granted] at hOutputs
  refine ⟨hHolds.inputs_eq, hHolds.exists_spent, fun _ => addInput_refused_iff,
    fun _ _ _ => eq_of_addInput_error, ?_, fun _ => built_serveAll⟩
  rw [build_error_iff, hHolds.inputs_eq, hOutputs, List.map_eq_nil_iff]

end UtxoChain.Payment

namespace UtxoChain.Sample

/-! ## Requests that are granted and refused

The purse holds an output of every kind that an input may meet: two whose values together pass a word,
one without value, and one that no key can sign for. -/

/-- The script of the outputs in the purse, and of the change. -/
def purseScript : Script := .pubKeyHashOutput FixedBytes.zero

/-- The outpoint of an output that is worth ten. -/
def tenPoint : OutPoint := ⟨FixedBytes.ofNat 1, 0⟩

/-- The outpoint of an output that is worth nothing. -/
def nothingPoint : OutPoint := ⟨FixedBytes.ofNat 1, 1⟩

/-- The outpoint of an output that is worth all that a word can hold. -/
def fullPoint : OutPoint := ⟨FixedBytes.ofNat 1, 2⟩

/-- The outpoint of an output that anyone unlocks. -/
def anyonesPoint : OutPoint := ⟨FixedBytes.ofNat 1, 3⟩

/-- The outputs of the purse. -/
def purse : OutputLookup := fun point =>
  if point = tenPoint then some ⟨10, purseScript⟩
  else if point = nothingPoint then some ⟨0, purseScript⟩
  else if point = fullPoint then some ⟨0xFFFFFFFFFFFFFFFF, purseScript⟩
  else if point = anyonesPoint then some ⟨5, ⟨[.ofOpcode .op1]⟩⟩
  else none

/-- Requests of which the second, the third and the sixth are refused: the output is unknown, is not
locked to a key, and would take the amount past a word. -/
def mixedRequests : List Payment.Request :=
  [.input tenPoint, .input ⟨FixedBytes.zero, 9⟩, .input anyonesPoint, .output ⟨4, purseScript⟩,
    .lock 8, .input fullPoint, .input nothingPoint]

/-- The transaction of these requests has both inputs that were granted, the output and its change. -/
example : (Payment.serveAll purse mixedRequests (.start purseScript)).2.build.toOption =
    some ⟨0, [⟨tenPoint, .empty, 0⟩, ⟨nothingPoint, .empty, 0⟩],
      [⟨4, purseScript⟩, ⟨6, purseScript⟩], 8⟩ := by
  decide +kernel

end UtxoChain.Sample
