/-
Module: Batpak.Syncbat.Operation
Purpose: Operation descriptors and effect rows, and the first observed target that was not
  declared.
Trusted boundary: the Debug rendering of a text is a function
Main exports: OperationEffectRow, insertSorted
-/
import Batpak.Netbat.Line
import Batpak.Store.Types

namespace Batpak.Syncbat

open Batpak.Util
open Batpak.Store (EventKind)
open Batpak.Netbat (dot hasDoubleDot isOperationByte validateName OperationNameError)

/-! ### Descriptor errors -/

structure DescriptorValidationError where
  field : String
  value : String
  message : String
  deriving Repr, DecidableEq

def DescriptorValidationError.display (error : DescriptorValidationError) : String :=
  error.field ++ " `" ++ error.value ++ "` is invalid: " ++ error.message

/-- The bytes of a text. -/
def utf8 (text : String) : Bytes :=
  text.toUTF8.data.toList

/-- The grammar of references and of effect targets. -/
def validateToken (field value : String) (max : Nat) : Except DescriptorValidationError Unit :=
  if (utf8 value).isEmpty then .error ⟨field, value, "empty"⟩
  else if max < (utf8 value).length then .error ⟨field, value, "too long"⟩
  else if (utf8 value).any fun b => !isOperationByte b then
    .error ⟨field, value, "expected ASCII letters, digits, '.', '_' or '-'"⟩
  else if (utf8 value).head? = some dot ∨ (utf8 value).getLast? = some dot ∨
      hasDoubleDot (utf8 value) = true then
    .error ⟨field, value, "dot-separated tokens must be non-empty"⟩
  else .ok ()

def maxDescriptorRefBytes : Nat := 256

def validateStableRefToken (field value : String) (max : Nat) :
    Except DescriptorValidationError Unit :=
  validateToken field value max

def validateEffectTarget (field value : String) : Except DescriptorValidationError Unit :=
  validateToken field value maxDescriptorRefBytes

/-- The operation is named in front of the value. -/
def validateStableRef (operationName field value : String) (max : Nat) :
    Except DescriptorValidationError Unit :=
  (validateStableRefToken field value max).mapError fun error =>
    { error with value := operationName ++ ":" ++ error.value }

def DescriptorValidationError.fromOperationNameError (field value : String) :
    OperationNameError → DescriptorValidationError
  | .empty => ⟨field, value, "empty"⟩
  | .tooLong _ _ => ⟨field, value, "too long"⟩
  | .leadingOrTrailingDot => ⟨field, value, "dot-separated tokens must be non-empty"⟩
  | .consecutiveDots => ⟨field, value, "dot-separated tokens must be non-empty"⟩
  | .illegalCharacter _ => ⟨field, value, "expected ASCII letters, digits, '.', '_' or '-'"⟩

/-! ### Effect classes -/

inductive EffectClass where
  | inspect
  | compute
  | persist
  | emit
  | control
  deriving Repr, DecidableEq

namespace EffectClass

def asStr : EffectClass → String
  | .inspect => "inspect"
  | .compute => "compute"
  | .persist => "persist"
  | .emit => "emit"
  | .control => "control"

def fromCatalogStr (value : String) : Option EffectClass :=
  if value = "inspect" then some .inspect
  else if value = "compute" then some .compute
  else if value = "persist" then some .persist
  else if value = "emit" then some .emit
  else if value = "control" then some .control
  else none

@[simp] theorem fromCatalogStr_asStr (effect : EffectClass) :
    fromCatalogStr effect.asStr = some effect := by
  cases effect with
  | inspect => rfl
  | compute => rfl
  | persist => rfl
  | emit => rfl
  | control => rfl

end EffectClass

/-! ### Effect rows -/

def eventAppendCapability : String := "event.append"
def eventReadCapability : String := "event.read"
def hostControlCapability : String := "host.control"
def projectionQueryCapability : String := "projection.query"
def receiptEmitCapability : String := "receipt.emit"

/-- A lowercase hexadecimal digit. -/
def hexChar (n : Nat) : Char :=
  if n < 10 then Char.ofNat (48 + n) else Char.ofNat (87 + n)

/-- The target that stands for the appends of a kind. -/
def appendTarget (kind : EventKind) : String :=
  "evt." ++ String.ofList
    [hexChar (kind.raw / 4096 % 16), hexChar (kind.raw / 256 % 16), hexChar (kind.raw / 16 % 16),
      hexChar (kind.raw % 16)]

/-- A target that is there stays where it is; a new one goes in front of the first larger. -/
def insertSorted (targets : List String) (target : String) : List String :=
  if target ∈ targets then targets
  else targets.takeWhile (· < target) ++ target :: targets.dropWhile (· < target)

structure OperationEffectRow where
  readsEvents : List String := []
  appendsEvents : List String := []
  queriesProjections : List String := []
  emitsReceipts : List String := []
  usesHostControls : Bool := false
  requiresCapabilities : List String := []
  deriving Repr, DecidableEq

/-- One observed effect outside the declared authority. -/
structure ObservedEffectViolation where
  code : String
  message : String
  deriving Repr, DecidableEq

namespace OperationEffectRow

def empty : OperationEffectRow := {}

def isEmpty (row : OperationEffectRow) : Bool :=
  row.readsEvents.isEmpty && row.appendsEvents.isEmpty && row.queriesProjections.isEmpty &&
    row.emitsReceipts.isEmpty && !row.usesHostControls && row.requiresCapabilities.isEmpty

def requiresCapability (row : OperationEffectRow) (capability : String) : OperationEffectRow :=
  { row with requiresCapabilities := insertSorted row.requiresCapabilities capability }

/-- The declarations of a descriptor are made in the same way as the records of the handles. -/
def recordAppendsEvent (row : OperationEffectRow) (target : String) : OperationEffectRow :=
  { row with appendsEvents := insertSorted row.appendsEvents target }.requiresCapability
    eventAppendCapability

def recordReadsEvent (row : OperationEffectRow) (category : String) : OperationEffectRow :=
  { row with readsEvents := insertSorted row.readsEvents category }.requiresCapability
    eventReadCapability

def recordQueriesProjection (row : OperationEffectRow) (projectionId : String) :
    OperationEffectRow :=
  { row with
    queriesProjections :=
      insertSorted row.queriesProjections projectionId }.requiresCapability
    projectionQueryCapability

def recordEmitsReceipt (row : OperationEffectRow) (receiptKind : String) : OperationEffectRow :=
  { row with emitsReceipts := insertSorted row.emitsReceipts receiptKind }.requiresCapability
    receiptEmitCapability

def recordUsesHostControl (row : OperationEffectRow) : OperationEffectRow :=
  { row with usesHostControls := true }.requiresCapability hostControlCapability

/-! ### Violations -/

section Violations

variable (debug : String → String)

def undeclared (field target : String) : ObservedEffectViolation :=
  ⟨"effect.violation", "observed undeclared " ++ field ++ " target " ++ debug target⟩

def firstMissing (field : String) (observed declared : List String) :
    Option ObservedEffectViolation :=
  (observed.find? fun target => !declared.contains target).map (undeclared debug field)

/-- The axes are compared in a fixed order. -/
def firstViolationAgainst (observed declared : OperationEffectRow) :
    Option ObservedEffectViolation :=
  (firstMissing debug "reads_events" observed.readsEvents declared.readsEvents).or <|
    (firstMissing debug "appends_events" observed.appendsEvents declared.appendsEvents).or <|
      (firstMissing debug "queries_projections" observed.queriesProjections
        declared.queriesProjections).or <|
        (firstMissing debug "emits_receipts" observed.emitsReceipts declared.emitsReceipts).or <|
          (if observed.usesHostControls && !declared.usesHostControls then
            some (undeclared debug "uses_host_controls" "host")
          else none).or <|
            firstMissing debug "requires_capabilities" observed.requiresCapabilities
              declared.requiresCapabilities

end Violations

/-! ### Checks -/

def validateTargetList (field : String) (targets : List String) :
    Except DescriptorValidationError Unit :=
  targets.forM (validateEffectTarget field)

def validateTargets (row : OperationEffectRow) : Except DescriptorValidationError Unit := do
  validateTargetList "reads_events" row.readsEvents
  validateTargetList "appends_events" row.appendsEvents
  validateTargetList "queries_projections" row.queriesProjections
  validateTargetList "emits_receipts" row.emitsReceipts
  validateTargetList "requires_capabilities" row.requiresCapabilities

/-- What a row may declare depends on the class. -/
def classConflict (row : OperationEffectRow) (effect : EffectClass) (receiptKind : String) :
    Option String :=
  match effect with
  | .inspect =>
      if !row.appendsEvents.isEmpty || !row.emitsReceipts.isEmpty || row.usesHostControls then
        some "inspect operations cannot declare append, receipt emit, or host control effects"
      else none
  | .compute =>
      if !row.isEmpty then some "compute operations cannot declare runtime effects" else none
  | .persist =>
      if row.appendsEvents.isEmpty then some "persist operations must declare event appends"
      else if !row.emitsReceipts.isEmpty || row.usesHostControls then
        some "persist operations cannot declare receipt emit or host control effects"
      else none
  | .emit =>
      if !row.emitsReceipts.contains receiptKind then
        some "emit operations must declare their receipt kind"
      else if !row.appendsEvents.isEmpty || row.usesHostControls then
        some "emit operations cannot declare event append or host control effects"
      else none
  | .control =>
      if !row.usesHostControls then some "control operations must declare host control use"
      else none

def validateForDescriptor (row : OperationEffectRow) (effect : EffectClass)
    (receiptKind : String) : Except DescriptorValidationError Unit := do
  row.validateTargets
  match row.classConflict effect receiptKind with
  | some message => .error ⟨"effect_row", effect.asStr, message⟩
  | none => .ok ()

end OperationEffectRow

/-! ### Descriptors -/

/-- An empty row stands for a row that was not given. -/
structure OperationDescriptor where
  name : String
  title : Option String
  effect : EffectClass
  inputSchemaRef : String
  outputSchemaRef : String
  receiptKind : String
  effectRow : OperationEffectRow
  deriving Repr, DecidableEq

def OperationDescriptor.validate (d : OperationDescriptor) :
    Except DescriptorValidationError Unit := do
  (validateName (utf8 d.name)).mapError
    (DescriptorValidationError.fromOperationNameError "name" d.name)
  validateStableRef d.name "input_schema_ref" d.inputSchemaRef maxDescriptorRefBytes
  validateStableRef d.name "output_schema_ref" d.outputSchemaRef maxDescriptorRefBytes
  validateStableRef d.name "receipt_kind" d.receiptKind maxDescriptorRefBytes
  d.effectRow.validateForDescriptor d.effect d.receiptKind

end Batpak.Syncbat
