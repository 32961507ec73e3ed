/-
Module: Batpak.Store.Coordinate
Purpose: What a coordinate component may contain, and the public constructors of a region
  with the values their argument types can carry.
Trusted boundary: none
Main exports: CoordinateError, validateComponentBytes
-/
import Batpak.Store.Cursor

namespace Batpak.Store

/-! ### Components -/

def maxCoordinateComponentLen : Nat := 1024

inductive CoordinateError where
  | emptyEntity
  | emptyScope
  | entityTooLong (len max : Nat)
  | scopeTooLong (len max : Nat)
  | nulByte
  | controlChar
  | pathTraversal
  | forbiddenSeparator
  deriving Repr, DecidableEq

namespace CoordinateError

def display : CoordinateError → String
  | .emptyEntity => "entity cannot be empty"
  | .emptyScope => "scope cannot be empty"
  | .entityTooLong len max => "entity length " ++ toString len ++ " exceeds maximum " ++ toString max
  | .scopeTooLong len max => "scope length " ++ toString len ++ " exceeds maximum " ++ toString max
  | .nulByte => "coordinate component contains a NUL byte"
  | .controlChar => "coordinate component contains a forbidden ASCII control character"
  | .pathTraversal =>
      "coordinate component contains a forbidden path-traversal substring (`..` or `/`)"
  | .forbiddenSeparator =>
      "coordinate component contains a forbidden identity-separator character (`|` or `=`)"

end CoordinateError

/-- The byte loop of the check: NUL first, then any other control byte. -/
def validateBytes : List UInt8 → Except CoordinateError Unit
  | [] => .ok ()
  | byte :: rest =>
      if byte = 0 then .error .nulByte
      else if byte < 0x20 ∨ byte = 0x7F then .error .controlChar
      else validateBytes rest

def validateComponentBytes (value : String) : Except CoordinateError Unit := do
  validateBytes value.toUTF8.data.toList
  if '/' ∈ value.toList ∨ ['.', '.'] <:+: value.toList then .error .pathTraversal
  else if '|' ∈ value.toList ∨ '=' ∈ value.toList then .error .forbiddenSeparator
  else .ok ()

namespace Coordinate

def validateParts (entity scope : String) : Except CoordinateError Unit :=
  if entity = "" then .error .emptyEntity
  else if scope = "" then .error .emptyScope
  else if maxCoordinateComponentLen < entity.utf8ByteSize then
    .error (.entityTooLong entity.utf8ByteSize maxCoordinateComponentLen)
  else if maxCoordinateComponentLen < scope.utf8ByteSize then
    .error (.scopeTooLong scope.utf8ByteSize maxCoordinateComponentLen)
  else do
    validateComponentBytes entity
    validateComponentBytes scope

def validate (coord : Coordinate) : Except CoordinateError Unit :=
  validateParts coord.entity coord.scope

end Coordinate

/-! ### Regions of callers -/

/-- The filter is a value of its type: a `u16` kind or a `u8` category. -/
def KindFilter.Typed : KindFilter → Prop
  | .exact kind => kind.raw < 2 ^ 16
  | .category c => c < 2 ^ 8
  | .any => True

namespace Region

def entity (namespaceName : String) : Region :=
  { all with entityPrefix := some namespaceName }

def scopeOnly (scope : String) : Region :=
  { all with scope := some scope }

def withScope (r : Region) (scope : String) : Region :=
  { r with scope := some scope }

def withFact (r : Region) (filter : KindFilter) : Region :=
  { r with fact := some filter }

/-- The argument has passed `EventCategory::new`, so it fits four bits. -/
def withFactCategory (r : Region) (category : Fin 16) : Region :=
  { r with fact := some (.category category) }

def withClockRange (r : Region) (range : ClockRange) : Region :=
  { r with clockRange := some range }

def withLane (r : Region) (lane : Nat) : Region :=
  { r with lane := some lane }

/-- Regions that calls of the public constructors build; component strings are arbitrary. -/
inductive Public : Region → Prop where
  | all : Public all
  | entity (namespaceName : String) : Public (entity namespaceName)
  | scopeOnly (scope : String) : Public (scopeOnly scope)
  | withScope {r : Region} (h : Public r) (scope : String) : Public (r.withScope scope)
  | withFact {r : Region} (h : Public r) (filter : KindFilter) (hfilter : filter.Typed) :
      Public (r.withFact filter)
  | withFactCategory {r : Region} (h : Public r) (category : Fin 16) :
      Public (r.withFactCategory category)
  | withClockRange {r : Region} (h : Public r) (range : ClockRange) (hrange : range.stop < 2 ^ 32) :
      Public (r.withClockRange range)
  | withLane {r : Region} (h : Public r) (lane : Nat) (hlane : lane < 2 ^ 32) :
      Public (r.withLane lane)

/-- What an index query asks of an event, visibility apart. -/
def selects (r : Region) (e : IndexEntry) : Bool :=
  r.matchesEventOnLane e.coord.entity e.coord.scope e.kind (some e.dagLane) &&
    r.inClockRange e.clock

/-- Some storable event passes the entity, scope and kind filters. -/
def reachable (r : Region) : Bool :=
  (r.entityPrefix.all fun p => p == "" || (Coordinate.validateParts p p).isOk) &&
    (r.scope.all fun s => (Coordinate.validateParts s s).isOk) &&
    (match r.fact with
      | some (.category c) => c < 16
      | _ => true)

end Region

/-- Events the store can hold: the coordinate has passed its check and the numbers fit
their types. -/
structure Storable (e : IndexEntry) : Prop where
  coord : e.coord.validate = .ok ()
  kind : e.kind.raw < 2 ^ 16
  clock : e.clock < 2 ^ 32
  dagLane : e.dagLane < 2 ^ 32

end Batpak.Store
