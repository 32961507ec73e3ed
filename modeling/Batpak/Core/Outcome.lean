/-
Module: Batpak.Core.Outcome
Purpose: The result type with nested batches, its `map` and `and_then`, and the two joins that
  read a list of outcomes from left to right.
Trusted boundary: none
Main exports: Outcome, Outcome.map
-/

namespace Batpak.Core

/-! ### Outcomes -/

inductive WaitCondition where
  | timeout (resumeAtMs : UInt64)
  | event (eventId : BitVec 128)
  | all (conditions : List WaitCondition)
  | any (conditions : List WaitCondition)
  | custom (tag : UInt16) (data : List UInt8)
  deriving Repr

inductive CompensationAction where
  | rollback (eventIds : List (BitVec 128))
  | notify (targetId : BitVec 128) (message : String)
  | release (resourceIds : List (BitVec 128))
  | custom (actionType : String) (data : List UInt8)
  deriving Repr, DecidableEq

inductive ErrorKind where
  | notFound
  | conflict
  | validation
  | policyRejection
  | cancelled
  | storageError
  | timeout
  | pending
  | serialization
  | internal
  | batchCollapse
  | custom (code : UInt16)
  deriving Repr, DecidableEq

structure OutcomeError where
  kind : ErrorKind
  message : String
  compensation : Option CompensationAction
  deriving Repr, DecidableEq

def OutcomeError.new (kind : ErrorKind) (message : String) : OutcomeError :=
  ⟨kind, message, none⟩

inductive Outcome (α : Type) where
  | ok (v : α)
  | err (e : OutcomeError)
  | retry (afterMs : UInt64) (attempt maxAttempts : UInt32) (reason : String)
  | pending (condition : WaitCondition) (resumeToken : BitVec 128)
  | cancelled (reason : String)
  | batch (items : List (Outcome α))
  deriving Repr

variable {α β γ : Type}

namespace Outcome

mutual
/-- Distributes over a batch. -/
def map (f : α → β) : Outcome α → Outcome β
  | .ok v => .ok (f v)
  | .err e => .err e
  | .retry afterMs attempt maxAttempts reason => .retry afterMs attempt maxAttempts reason
  | .pending condition resumeToken => .pending condition resumeToken
  | .cancelled reason => .cancelled reason
  | .batch items => .batch (mapItems f items)

def mapItems (f : α → β) : List (Outcome α) → List (Outcome β)
  | [] => []
  | o :: items => map f o :: mapItems f items
end

mutual
/-- The bind. A batch that `f` returns stays where the value was. -/
def andThen (f : α → Outcome β) : Outcome α → Outcome β
  | .ok v => f v
  | .err e => .err e
  | .retry afterMs attempt maxAttempts reason => .retry afterMs attempt maxAttempts reason
  | .pending condition resumeToken => .pending condition resumeToken
  | .cancelled reason => .cancelled reason
  | .batch items => .batch (andThenItems f items)

def andThenItems (f : α → Outcome β) : List (Outcome α) → List (Outcome β)
  | [] => []
  | o :: items => andThen f o :: andThenItems f items
end

def flatten (o : Outcome (Outcome α)) : Outcome α :=
  o.andThen fun inner => inner

def isOk : Outcome α → Bool
  | .ok _ => true
  | _ => false

def isErr : Outcome α → Bool
  | .err _ => true
  | _ => false

end Outcome

/-! ### Joins -/

def nestedBatchError : OutcomeError :=
  .new .internal ("join_all: recursive join produced a nested Batch — " ++
    "batch outcomes must not appear inside join_all input")

/-- The loop of `join_all` with the values collected so far. -/
def joinAllFrom (results : List α) : List (Outcome α) → Outcome (List α)
  | [] => .ok results
  | .ok v :: rest => joinAllFrom (results ++ [v]) rest
  | .err e :: _ => .err e
  | .cancelled reason :: _ => .cancelled reason
  | .retry afterMs attempt maxAttempts reason :: _ => .retry afterMs attempt maxAttempts reason
  | .pending condition resumeToken :: _ => .pending condition resumeToken
  | .batch inner :: rest =>
      match joinAllFrom [] inner with
      | .ok vs => joinAllFrom (results ++ vs) rest
      | .err e => .err e
      | .cancelled reason => .cancelled reason
      | .retry afterMs attempt maxAttempts reason => .retry afterMs attempt maxAttempts reason
      | .pending condition resumeToken => .pending condition resumeToken
      | .batch _ => .err nestedBatchError

def joinAll (outcomes : List (Outcome α)) : Outcome (List α) :=
  joinAllFrom [] outcomes

def emptyVecError : OutcomeError :=
  .new .internal "join_any called with empty vec"

/-- The loop of `join_any` with the last error it met. -/
def joinAnyFrom (lastErr : Option OutcomeError) : List (Outcome α) → Outcome α
  | [] =>
      match lastErr with
      | some e => .err e
      | none => .err emptyVecError
  | .ok v :: _ => .ok v
  | .err e :: rest => joinAnyFrom (some e) rest
  | .batch inner :: rest =>
      match joinAnyFrom none inner with
      | .ok v => .ok v
      | .err e => joinAnyFrom (some e) rest
      | other => other
  | ret :: _ => ret

def joinAny (outcomes : List (Outcome α)) : Outcome α :=
  joinAnyFrom none outcomes

end Batpak.Core
