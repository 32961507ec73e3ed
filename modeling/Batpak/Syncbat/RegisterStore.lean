/-
Module: Batpak.Syncbat.RegisterStore
Purpose: The register of operations and its durable catalog, its rebuild, the four calls, and the
  machine of writers whose checks and appends are separate steps.
Trusted boundary: a row that was appended is read back as it was written, in commit order
Main exports: Register, RegisterOperationRowV1
-/
import Batpak.Syncbat.Operation
import Std.Data.ExtTreeMap.Lemmas

namespace Batpak.Syncbat

/-! ### Registers -/

inductive RegisterValidationError where
  | duplicateOperationName (name : String)
  | invalidDescriptor (name : String) (source : DescriptorValidationError)
  deriving Repr, DecidableEq

abbrev OperationMap := Std.ExtTreeMap String OperationDescriptor compare

/-- The descriptors under their names, every one of them valid. -/
structure Register where
  operations : OperationMap
  sound : ∀ (name : String) (d : OperationDescriptor), operations[name]? = some d →
    d.name = name ∧ d.validate = .ok ()

namespace Register

def new : Register :=
  ⟨∅, by simp⟩

def insertOperation (register : Register) (descriptor : OperationDescriptor) :
    Except RegisterValidationError Register :=
  match h : descriptor.validate with
  | .error source => .error (.invalidDescriptor descriptor.name source)
  | .ok () =>
      if descriptor.name ∈ register.operations then
        .error (.duplicateOperationName descriptor.name)
      else
        .ok {
          operations := register.operations.insert descriptor.name descriptor
          sound := by
            intro name d hd
            rw [Std.ExtTreeMap.getElem?_insert] at hd
            split at hd
            next heq =>
              cases hd
              exact ⟨Std.LawfulEqCmp.compare_eq_iff_eq.mp heq, h⟩
            next => exact register.sound name d hd }

def fromOperations (descriptors : List OperationDescriptor) :
    Except RegisterValidationError Register :=
  descriptors.foldlM insertOperation new

/-- In the order of the names. -/
def descriptors (register : Register) : List OperationDescriptor :=
  register.operations.toList.map Prod.snd

end Register

/-! ### Rows -/

inductive RegisterOperationActionV1 where
  | put
  | update
  | delete
  | supersede
  deriving Repr, DecidableEq

namespace RegisterOperationActionV1

def asStr : RegisterOperationActionV1 → String
  | .put => "put"
  | .update => "update"
  | .delete => "delete"
  | .supersede => "supersede"

def fromCatalogStr (value : String) : Option RegisterOperationActionV1 :=
  if value = "put" then some .put
  else if value = "update" then some .update
  else if value = "delete" then some .delete
  else if value = "supersede" then some .supersede
  else none

end RegisterOperationActionV1

def registerSchemaVersion : Nat := 1

structure RegisterOperationRowV1 where
  schemaVersion : Nat
  action : String
  name : String
  supersedes : Option String
  title : Option String
  effect : String
  inputSchemaRef : String
  outputSchemaRef : String
  receiptKind : String
  effectRow : OperationEffectRow
  deriving Repr, DecidableEq

inductive StoreRegisterCatalogError where
  | invalidSchemaVersion (version : Nat)
  | invalidAction (action : String)
  | invalidEffect (effect : String)
  | invalidDescriptor (source : DescriptorValidationError)
  | invalidLifecycleRow (name action reason : String)
  | catalogConflict (name action reason : String)
  | register (source : RegisterValidationError)
  deriving Repr, DecidableEq

/-- A name is checked as that of a descriptor whose other fields are in order. -/
def validateCatalogName (name : String) : Except StoreRegisterCatalogError Unit :=
  (OperationDescriptor.validate ⟨name, none, .inspect, "syncbat.lifecycle.input.v1",
    "syncbat.lifecycle.output.v1", "syncbat.lifecycle.receipt.v1", .empty⟩).mapError
    .invalidDescriptor

namespace RegisterOperationRowV1

def fromDescriptor (d : OperationDescriptor) : RegisterOperationRowV1 where
  schemaVersion := registerSchemaVersion
  action := RegisterOperationActionV1.put.asStr
  name := d.name
  supersedes := none
  title := d.title
  effect := d.effect.asStr
  inputSchemaRef := d.inputSchemaRef
  outputSchemaRef := d.outputSchemaRef
  receiptKind := d.receiptKind
  effectRow := d.effectRow

def update (d : OperationDescriptor) : RegisterOperationRowV1 :=
  { fromDescriptor d with action := RegisterOperationActionV1.update.asStr }

def delete (name : String) : RegisterOperationRowV1 where
  schemaVersion := registerSchemaVersion
  action := RegisterOperationActionV1.delete.asStr
  name := name
  supersedes := none
  title := none
  effect := ""
  inputSchemaRef := ""
  outputSchemaRef := ""
  receiptKind := ""
  effectRow := .empty

def supersede (supersededName : String) (d : OperationDescriptor) : RegisterOperationRowV1 :=
  { fromDescriptor d with
    action := RegisterOperationActionV1.supersede.asStr
    supersedes := some supersededName }

def actionKind (row : RegisterOperationRowV1) :
    Except StoreRegisterCatalogError RegisterOperationActionV1 :=
  if row.schemaVersion ≠ registerSchemaVersion then
    .error (.invalidSchemaVersion row.schemaVersion)
  else
    match RegisterOperationActionV1.fromCatalogStr row.action with
    | some action => .ok action
    | none => .error (.invalidAction row.action)

def descriptor (row : RegisterOperationRowV1) :
    Except StoreRegisterCatalogError OperationDescriptor :=
  match EffectClass.fromCatalogStr row.effect with
  | none => .error (.invalidEffect row.effect)
  | some effect => do
      let d : OperationDescriptor :=
        ⟨row.name, row.title, effect, row.inputSchemaRef, row.outputSchemaRef, row.receiptKind,
          row.effectRow⟩
      d.validate.mapError .invalidDescriptor
      return d

def descriptorPayloadIsEmpty (row : RegisterOperationRowV1) : Bool :=
  row.title.isNone && row.effect.isEmpty && row.inputSchemaRef.isEmpty &&
    row.outputSchemaRef.isEmpty && row.receiptKind.isEmpty && row.effectRow.isEmpty

end RegisterOperationRowV1

/-! ### The fold -/

inductive TombstoneState where
  | deleted
  | superseded (replacement : OperationDescriptor)
  deriving Repr, DecidableEq

inductive CatalogEntryState where
  | active (descriptor : OperationDescriptor)
  | tombstoned (state : TombstoneState)
  deriving Repr, DecidableEq

abbrev CatalogEntries := Std.ExtTreeMap String CatalogEntryState compare

section Fold

variable (entries : CatalogEntries)

def conflict {α : Type} (name : String) (action : RegisterOperationActionV1) (reason : String) :
    Except StoreRegisterCatalogError α :=
  .error (.catalogConflict name action.asStr reason)

def invalidRow {α : Type} (name : String) (action : RegisterOperationActionV1)
    (reason : String) : Except StoreRegisterCatalogError α :=
  .error (.invalidLifecycleRow name action.asStr reason)

/-- A put of what is there already changes nothing. -/
def foldPut (row : RegisterOperationRowV1) : Except StoreRegisterCatalogError CatalogEntries :=
  if row.supersedes.isSome then
    invalidRow row.name .put "put rows cannot carry a supersedes name"
  else do
    let d ← row.descriptor
    match entries[d.name]? with
    | some (.tombstoned _) =>
        conflict d.name .put "cannot put a name after it has been tombstoned"
    | some (.active existing) =>
        if existing = d then return entries
        else conflict d.name .put "put cannot replace an active descriptor; use update"
    | none => return entries.insert d.name (.active d)

def foldUpdate (row : RegisterOperationRowV1) :
    Except StoreRegisterCatalogError CatalogEntries :=
  if row.supersedes.isSome then
    invalidRow row.name .update "update rows cannot carry a supersedes name"
  else do
    let d ← row.descriptor
    match entries[d.name]? with
    | some (.active _) => return entries.insert d.name (.active d)
    | some (.tombstoned _) => conflict d.name .update "cannot update a tombstoned operation"
    | none => conflict d.name .update "cannot update an operation before it has been put"

def foldDelete (row : RegisterOperationRowV1) :
    Except StoreRegisterCatalogError CatalogEntries :=
  if row.supersedes.isSome || !row.descriptorPayloadIsEmpty then
    invalidRow row.name .delete "delete rows must carry only the operation name"
  else do
    validateCatalogName row.name
    match entries[row.name]? with
    | some (.active _) => return entries.insert row.name (.tombstoned .deleted)
    | some (.tombstoned .deleted) => return entries
    | some (.tombstoned (.superseded _)) =>
        conflict row.name .delete "cannot delete an operation after it has been superseded"
    | none => conflict row.name .delete "cannot delete an operation before it has been put"

/-- The source is tombstoned and the replacement becomes active. -/
def foldReplacement (supersededName : String) (d : OperationDescriptor) :
    Except StoreRegisterCatalogError CatalogEntries :=
  let replaced := (entries.insert supersededName (.tombstoned (.superseded d))).insert d.name
    (.active d)
  match entries[d.name]? with
  | some (.tombstoned _) =>
      conflict d.name .supersede "cannot supersede into a tombstoned replacement name"
  | some (.active existing) =>
      if existing ≠ d then
        conflict d.name .supersede "replacement name is already active with different fields"
      else .ok replaced
  | none => .ok replaced

def foldSupersede (row : RegisterOperationRowV1) :
    Except StoreRegisterCatalogError CatalogEntries :=
  match row.supersedes with
  | none => invalidRow row.name .supersede "supersede rows must carry a supersedes name"
  | some supersededName => do
      validateCatalogName supersededName
      let d ← row.descriptor
      if supersededName = d.name then
        invalidRow d.name .supersede "supersession target must differ from replacement name"
      else
        match entries[supersededName]? with
        | some (.active _) => foldReplacement entries supersededName d
        | some (.tombstoned (.superseded replacement)) =>
            -- the same row once more, while its replacement stands
            if entries[d.name]? = some (.active d) ∧ replacement = d then return entries
            else conflict supersededName .supersede "supersession source was already tombstoned"
        | some (.tombstoned .deleted) =>
            conflict supersededName .supersede
              "cannot supersede an operation after it has been deleted"
        | none =>
            conflict supersededName .supersede
              "cannot supersede an operation before it has been put"

def foldRow (row : RegisterOperationRowV1) : Except StoreRegisterCatalogError CatalogEntries := do
  let action ← row.actionKind
  match action with
  | .put => foldPut entries row
  | .update => foldUpdate entries row
  | .delete => foldDelete entries row
  | .supersede => foldSupersede entries row

end Fold

/-- The rows of the coordinate in commit order. -/
def foldCatalogEntries (rows : List RegisterOperationRowV1) :
    Except StoreRegisterCatalogError CatalogEntries :=
  rows.foldlM foldRow ∅

def CatalogEntryState.active? : CatalogEntryState → Option OperationDescriptor
  | .active d => some d
  | .tombstoned _ => none

def rebuildRegisterFromStore (rows : List RegisterOperationRowV1) :
    Except StoreRegisterCatalogError Register := do
  let entries ← foldCatalogEntries rows
  (Register.fromOperations
    (entries.toList.filterMap fun entry => entry.2.active?)).mapError .register

/-! ### Calls -/

inductive CatalogCall where
  | persist (descriptor : OperationDescriptor)
  | update (descriptor : OperationDescriptor)
  | delete (name : String)
  | supersede (supersededName : String) (descriptor : OperationDescriptor)
  deriving Repr, DecidableEq

namespace CatalogCall

/-- The row that the call appends. -/
def row : CatalogCall → RegisterOperationRowV1
  | .persist d => .fromDescriptor d
  | .update d => .update d
  | .delete name => .delete name
  | .supersede supersededName d => .supersede supersededName d

/-- The checks of a call that do not look at the catalog. -/
def validate : CatalogCall → Except StoreRegisterCatalogError Unit
  | .persist d => d.validate.mapError .invalidDescriptor
  | .update d => d.validate.mapError .invalidDescriptor
  | .delete name => validateCatalogName name
  | .supersede supersededName d => do
      validateCatalogName supersededName
      d.validate.mapError .invalidDescriptor
      if supersededName = d.name then
        invalidRow d.name .supersede "supersession target must differ from replacement name"
      else .ok ()

/-- The operation that is superseded must be active. -/
def checkSource (entries : CatalogEntries) (supersededName : String) (d : OperationDescriptor) :
    Except StoreRegisterCatalogError Unit :=
  match entries[supersededName]? with
  | some (.active _) => .ok ()
  | some (.tombstoned (.superseded replacement)) =>
      if replacement = d then
        conflict supersededName .supersede
          "operation has already been superseded by that descriptor"
      else conflict supersededName .supersede "supersession source was already tombstoned"
  | some (.tombstoned .deleted) =>
      conflict supersededName .supersede
        "cannot supersede an operation after it has been deleted"
  | none =>
      conflict supersededName .supersede "cannot supersede an operation before it has been put"

/-- The replacement must be new, or active as it is. -/
def checkReplacement (entries : CatalogEntries) (d : OperationDescriptor) :
    Except StoreRegisterCatalogError Unit :=
  match entries[d.name]? with
  | some (.tombstoned _) =>
      conflict d.name .supersede "cannot supersede into a tombstoned replacement name"
  | some (.active existing) =>
      if existing ≠ d then
        conflict d.name .supersede "replacement name is already active with different fields"
      else .ok ()
  | none => .ok ()

/-- The checks of a call on a fold. -/
def check (entries : CatalogEntries) : CatalogCall → Except StoreRegisterCatalogError Unit
  | .persist d =>
      match entries[d.name]? with
      | some (.active existing) =>
          if existing = d then .ok ()
          else conflict d.name .put "put cannot replace an active descriptor; use update_operation"
      | some (.tombstoned _) =>
          conflict d.name .put "cannot put a name after it has been tombstoned"
      | none => .ok ()
  | .update d =>
      match entries[d.name]? with
      | some (.active _) => .ok ()
      | some (.tombstoned _) => conflict d.name .update "cannot update a tombstoned operation"
      | none => conflict d.name .update "cannot update an operation before it has been put"
  | .delete name =>
      match entries[name]? with
      | some (.active _) => .ok ()
      | some (.tombstoned .deleted) => conflict name .delete "operation is already deleted"
      | some (.tombstoned (.superseded _)) =>
          conflict name .delete "cannot delete an operation after it has been superseded"
      | none => conflict name .delete "cannot delete an operation before it has been put"
  | .supersede supersededName d => do
      checkSource entries supersededName d
      checkReplacement entries d

end CatalogCall

/-- All that a call does before its append. -/
def preflight (rows : List RegisterOperationRowV1) (call : CatalogCall) :
    Except StoreRegisterCatalogError Unit := do
  call.validate
  let entries ← foldCatalogEntries rows
  call.check entries

/-- A call by itself. -/
def commitCall (rows : List RegisterOperationRowV1) (call : CatalogCall) :
    Except StoreRegisterCatalogError (List RegisterOperationRowV1) := do
  preflight rows call
  return rows ++ [call.row]

def persistRegister (rows : List RegisterOperationRowV1) (register : Register) :
    Except StoreRegisterCatalogError (List RegisterOperationRowV1) :=
  register.descriptors.foldlM (fun rows d => commitCall rows (.persist d)) rows

/-! ### Writers -/

/-- The rows of the catalog, the calls that have passed their checks, one for each writer, and
the calls whose rows were appended. -/
structure CatalogMachine where
  rows : List RegisterOperationRowV1
  pending : Nat → Option CatalogCall
  accepted : List CatalogCall

inductive CatalogStep where
  | check (writer : Nat) (call : CatalogCall)
  | append (writer : Nat)
  | refuse (writer : Nat)

/-- An empty catalog. -/
def CatalogMachine.start : CatalogMachine :=
  ⟨[], fun _ => none, []⟩

/-- A call that fails its checks is over. The store appends the row of a pending call or
refuses it. -/
def catalogStep (m : CatalogMachine) : CatalogStep → CatalogMachine
  | .check writer call =>
      match m.pending writer, preflight m.rows call with
      | none, .ok () => { m with pending := Function.update m.pending writer (some call) }
      | _, _ => m
  | .append writer =>
      match m.pending writer with
      | some call =>
          { rows := m.rows ++ [call.row]
            pending := Function.update m.pending writer none
            accepted := m.accepted ++ [call] }
      | none => m
  | .refuse writer => { m with pending := Function.update m.pending writer none }

end Batpak.Syncbat
