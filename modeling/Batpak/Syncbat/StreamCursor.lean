/-
Module: Batpak.Syncbat.StreamCursor
Purpose: The cursors of the streams that read the store in commit order: their fixed layouts,
  the decoders and the binding to a route.
Trusted boundary: the hashes of a route are data
Main exports: StreamCursor, CursorFormat
-/
import Batpak.Syncbat.Session

namespace Batpak.Syncbat

open Batpak.Util

abbrev U64 := Fin (2 ^ 64)

inductive PositionKind where
  | beginning
  | afterGlobalSequence (sequence : U64)
  deriving Repr, DecidableEq

/-! ### Layouts -/

def cursorMagic : Bytes := ascii "BPSC"

def cursorVersion : UInt8 := 0x01

/-- What the three cursor types do not share. The tag byte is the event category of an event
cursor and reserved in the other two. -/
structure CursorFormat where
  sourceKind : UInt8
  reserved : Bool
  hashBytes : Nat
  lengthReason : String
  deriving Repr, DecidableEq

def eventStreamCursorV1 : CursorFormat :=
  ⟨0x01, false, 16, "cursor length is not 40 bytes"⟩

def receiptStreamCursorV1 : CursorFormat :=
  ⟨0x04, true, 32, "cursor length is not 56 bytes"⟩

def entityStreamCursorV1 : CursorFormat :=
  ⟨0x05, true, 32, "cursor length is not 56 bytes"⟩

/-- A cursor with its tag byte and the hashes of its route one after the other. -/
structure StreamCursor where
  tag : UInt8
  hashes : Bytes
  hlcWallMs : U64
  position : PositionKind
  deriving Repr, DecidableEq

/-- What binds a cursor to a route, with the reasons given when it does not: that of the tag,
that of the first hash and that of the rest. -/
structure CursorRoute where
  format : CursorFormat
  tag : UInt8
  hashes : Bytes
  tagReason : String
  hashReason : String
  restReason : String
  sized : hashes.length = format.hashBytes
  unreserved : format.reserved = true → tag = 0

namespace StreamCursor

def beginning (route : CursorRoute) : StreamCursor :=
  ⟨route.tag, route.hashes, 0, .beginning⟩

def afterGlobalSequence (route : CursorRoute) (sequence wallMs : U64) : StreamCursor :=
  ⟨route.tag, route.hashes, wallMs, .afterGlobalSequence sequence⟩

/-- Exclusive lower bound of the query that resumes here. -/
def resumeAfterGlobalSequence (cursor : StreamCursor) : Option U64 :=
  match cursor.position with
  | .beginning => none
  | .afterGlobalSequence sequence => some sequence

def positionByte : PositionKind → UInt8
  | .beginning => 0x00
  | .afterGlobalSequence _ => 0x01

def positionSequence : PositionKind → Nat
  | .beginning => 0
  | .afterGlobalSequence sequence => sequence.val

def encode (format : CursorFormat) (cursor : StreamCursor) : Bytes :=
  cursorMagic ++
    ([cursorVersion, format.sourceKind, positionByte cursor.position, cursor.tag] ++
      (cursor.hashes ++
        (toBeBytes 8 cursor.hlcWallMs.val ++ toBeBytes 8 (positionSequence cursor.position))))

/-- The eight bytes at an offset. -/
def readU64Be (bytes : Bytes) (offset : Nat) : U64 :=
  Fin.ofNat (2 ^ 64) (ofBeBytes ((bytes.drop offset).take 8))

def decodePosition (kind : UInt8) (wallMs sequence : U64) : Except String PositionKind :=
  if kind = 0x00 then
    if wallMs ≠ 0 ∨ sequence ≠ 0 then .error "beginning cursor has nonzero numeric fields"
    else .ok .beginning
  else if kind = 0x01 then .ok (.afterGlobalSequence sequence)
  else .error "cursor position kind is invalid"

def decode (format : CursorFormat) (bytes : Bytes) : Except String StreamCursor :=
  if bytes.length ≠ 24 + format.hashBytes then .error format.lengthReason
  else if bytes.take 4 ≠ cursorMagic then .error "cursor magic mismatch"
  else if bytes[4]? ≠ some cursorVersion then .error "cursor version mismatch"
  else if bytes[5]? ≠ some format.sourceKind then .error "cursor source kind mismatch"
  else if format.reserved && bytes[7]? ≠ some 0 then .error "cursor reserved byte is nonzero"
  else do
    let wallMs := readU64Be bytes (8 + format.hashBytes)
    let sequence := readU64Be bytes (16 + format.hashBytes)
    let position ← decodePosition (bytes[6]?.getD 0) wallMs sequence
    return ⟨bytes[7]?.getD 0, (bytes.drop 8).take format.hashBytes, wallMs, position⟩

/-- The tag is compared first, then the hash of the subscription, then the rest. -/
def validateRoute (route : CursorRoute) (cursor : StreamCursor) : Except String Unit :=
  if cursor.tag ≠ route.tag then .error route.tagReason
  else if cursor.hashes.take 16 ≠ route.hashes.take 16 then .error route.hashReason
  else if cursor.hashes ≠ route.hashes then .error route.restReason
  else .ok ()

/-! ### Cursors of a route -/

/-- The cursors that the constructors of a route build. -/
structure OfRoute (route : CursorRoute) (cursor : StreamCursor) : Prop where
  tag : cursor.tag = route.tag
  hashes : cursor.hashes = route.hashes
  origin : cursor.position = .beginning → cursor.hlcWallMs = 0

theorem ofRoute_afterGlobalSequence (route : CursorRoute) (sequence wallMs : U64) :
    OfRoute route (afterGlobalSequence route sequence wallMs) :=
  ⟨rfl, rfl, fun h => by cases h⟩

theorem ofRoute_validateRoute {route : CursorRoute} {cursor : StreamCursor}
    (h : OfRoute route cursor) : validateRoute route cursor = .ok () := by
  simp [validateRoute, h.tag, h.hashes]

theorem ofNat_ofBeBytes (n : U64) : Fin.ofNat (2 ^ 64) (ofBeBytes (toBeBytes 8 n.val)) = n := by
  have hbound : n.val < 256 ^ 8 := by
    have hlt := n.isLt
    norm_num at hlt ⊢
    exact hlt
  rw [ofBeBytes_toBeBytes hbound]
  exact Fin.ofNat_val_eq_self n

theorem encode_eq (format : CursorFormat) (cursor : StreamCursor) :
    encode format cursor =
      66 :: 80 :: 83 :: 67 :: cursorVersion :: format.sourceKind ::
        positionByte cursor.position :: cursor.tag :: (cursor.hashes ++
          (toBeBytes 8 cursor.hlcWallMs.val ++
            toBeBytes 8 (positionSequence cursor.position))) :=
  rfl

theorem positionSequence_lt (position : PositionKind) : positionSequence position < 2 ^ 64 := by
  cases position with
  | beginning => exact Nat.two_pow_pos 64
  | afterGlobalSequence sequence => exact sequence.isLt

theorem decodePosition_encoded {cursor : StreamCursor}
    (h : cursor.position = .beginning → cursor.hlcWallMs = 0) :
    decodePosition (positionByte cursor.position) cursor.hlcWallMs
      ⟨positionSequence cursor.position, positionSequence_lt _⟩ = .ok cursor.position := by
  obtain ⟨tag, hashes, wallMs, position⟩ := cursor
  cases position with
  | beginning =>
      have hwall : wallMs = 0 := h rfl
      subst hwall
      rfl
  | afterGlobalSequence sequence => rfl

theorem decode_encode {route : CursorRoute} {cursor : StreamCursor} (h : OfRoute route cursor) :
    decode route.format (encode route.format cursor) = .ok cursor := by
  have hsized : cursor.hashes.length = route.format.hashBytes := by
    rw [h.hashes, route.sized]
  have hlength : (encode route.format cursor).length = 24 + route.format.hashBytes := by
    simp only [encode_eq, List.length_cons, List.length_append, length_toBeBytes, hsized]
    omega
  have hreserved : (route.format.reserved && decide (some cursor.tag ≠ some 0)) = false := by
    cases hformat : route.format.reserved with
    | false => rfl
    | true =>
        rw [h.tag, route.unreserved hformat]
        rfl
  have hhashes : ((encode route.format cursor).drop 8).take route.format.hashBytes =
      cursor.hashes := by
    rw [encode_eq]
    exact List.take_left' hsized
  have hwall : readU64Be (encode route.format cursor) (8 + route.format.hashBytes) =
      cursor.hlcWallMs := by
    unfold readU64Be
    rw [encode_eq, ← List.drop_drop]
    change Fin.ofNat _ (ofBeBytes ((List.drop _ (cursor.hashes ++ _)).take 8)) = _
    rw [List.drop_left' hsized, List.take_left' (length_toBeBytes _ _)]
    exact ofNat_ofBeBytes cursor.hlcWallMs
  have hsequence : readU64Be (encode route.format cursor) (16 + route.format.hashBytes) =
      ⟨positionSequence cursor.position, positionSequence_lt _⟩ := by
    unfold readU64Be
    have hoffset : 16 + route.format.hashBytes = 8 + route.format.hashBytes + 8 := by omega
    rw [encode_eq, hoffset, ← List.drop_drop, ← List.drop_drop]
    change Fin.ofNat _ (ofBeBytes ((List.drop 8 (List.drop _ (cursor.hashes ++ _))).take 8)) = _
    rw [List.drop_left' hsized, List.drop_left' (length_toBeBytes _ _),
      List.take_of_length_le (le_of_eq (length_toBeBytes _ _))]
    exact ofNat_ofBeBytes ⟨positionSequence cursor.position, positionSequence_lt _⟩
  have hmagic : (encode route.format cursor).take 4 = cursorMagic := rfl
  have hversion : (encode route.format cursor)[4]? = some cursorVersion := rfl
  have hsource : (encode route.format cursor)[5]? = some route.format.sourceKind := rfl
  have hposition : (encode route.format cursor)[6]? = some (positionByte cursor.position) := rfl
  have htag : (encode route.format cursor)[7]? = some cursor.tag := rfl
  unfold decode
  simp only [hlength, hmagic, hversion, hsource, hposition, htag, hhashes, hwall, hsequence,
    hreserved, ne_eq, not_true_eq_false, if_false, Option.getD_some,
    decodePosition_encoded h.origin, Bool.false_eq_true]
  rfl

end StreamCursor

end Batpak.Syncbat
