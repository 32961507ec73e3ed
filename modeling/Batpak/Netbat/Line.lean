/-
Module: Batpak.Netbat.Line
Purpose: The line transport: limits and errors, the blocking reader of one line with its
  timeouts, hexadecimal fields, and the request frames of the first protocol version.
Trusted boundary: the results of single reads are data
Main exports: Limits, NetbatError
-/
import Batpak.Util.Wire

namespace Batpak.Netbat

open Batpak.Util

/-! ### Limits and errors -/

structure Limits where
  maxLineBytes : Nat
  maxOperationNameBytes : Nat
  maxInputBytes : Nat
  maxOutputBytes : Nat
  maxSubscriptionIdBytes : Nat
  maxCursorBytes : Nat
  maxStreamPayloadBytes : Nat
  maxStreamErrorMessageBytes : Nat
  deriving Repr, Inhabited, DecidableEq

def operationNameMaxBytes : Nat := 128

def Limits.default : Limits where
  maxLineBytes := 64 * 1024
  maxOperationNameBytes := operationNameMaxBytes
  maxInputBytes := 32 * 1024
  maxOutputBytes := 32 * 1024
  maxSubscriptionIdBytes := 128
  maxCursorBytes := 4 * 1024
  maxStreamPayloadBytes := 32 * 1024
  maxStreamErrorMessageBytes := 4 * 1024

inductive ErrorKind where
  | interrupted
  | wouldBlock
  | timedOut
  | other (name : String)
  deriving Repr, Inhabited, DecidableEq

/-- The errors of the transport. Those of the runtime behind it are not raised here. -/
inductive NetbatError where
  | io (kind : ErrorKind)
  | emptyStream
  | lineTooLong (max : Nat)
  | malformedRequest (reason : String)
  | unsupportedProtocolVersion (version : Bytes)
  | operationNameTooLong (max : Nat)
  | inputTooLarge (max : Nat)
  | malformedStreamFrame (reason : String)
  | subscriptionIdTooLong (max : Nat)
  | cursorTooLarge (max : Nat)
  | streamPayloadTooLarge (max : Nat)
  | streamMessageTooLarge (max : Nat)
  deriving Repr, Inhabited, DecidableEq

/-! ### Reading a line -/

/-- What one read of one byte returns. At the end of the stream it returns nothing, again and
again. -/
inductive ReadEvent where
  | byte (value : UInt8)
  | endOfStream
  | failed (kind : ErrorKind)
  deriving Repr, Inhabited, DecidableEq

/-- A call of the line reader over the reads to come: it returns and leaves the others, or it
still waits for the next one. -/
inductive LineRead where
  | returned (result : Except NetbatError Bytes) (rest : List ReadEvent)
  | waiting

def newline : UInt8 := 10

/-- The loop of the reader with the line read so far, which nothing else holds. -/
def readLineFrom (maxLineBytes : Nat) : Bytes → List ReadEvent → LineRead
  | _, [] => .waiting
  | line, .endOfStream :: rest =>
      if line.isEmpty then .returned (.error .emptyStream) (.endOfStream :: rest)
      else .returned (.ok line) (.endOfStream :: rest)
  | line, .byte value :: rest =>
      if maxLineBytes < (line ++ [value]).length then
        .returned (.error (.lineTooLong maxLineBytes)) rest
      else if value = newline then .returned (.ok (line ++ [value])) rest
      else readLineFrom maxLineBytes (line ++ [value]) rest
  | line, .failed .interrupted :: rest => readLineFrom maxLineBytes line rest
  | _, .failed kind :: rest => .returned (.error (.io kind)) rest

def readLine (maxLineBytes : Nat) (events : List ReadEvent) : LineRead :=
  readLineFrom maxLineBytes [] events

/-! ### Fields -/

def decodeHex (input : Bytes) (maxInputBytes : Nat) : Except NetbatError Bytes :=
  if input.length % 2 ≠ 0 then .error (.malformedRequest "hex input has odd length")
  else if maxInputBytes < input.length / 2 then .error (.inputTooLarge maxInputBytes)
  else
    match decodePairs input with
    | some bytes => .ok bytes
    | none => .error (.malformedRequest "input is not hex")

def carriageReturn : UInt8 := 13

/-- Without the line feed, and without a carriage return before it. -/
def stripLineEnding (line : Bytes) : Bytes :=
  let line := if line.getLast? = some newline then line.dropLast else line
  if line.getLast? = some carriageReturn then line.dropLast else line

def isLower (b : UInt8) : Bool :=
  97 ≤ b && b ≤ 122

def isUpper (b : UInt8) : Bool :=
  65 ≤ b && b ≤ 90

def isDigit (b : UInt8) : Bool :=
  48 ≤ b && b ≤ 57

def dot : UInt8 := 46

/-- One of `.`, `_` and `-`. -/
def isPunctuation (b : UInt8) : Bool :=
  b = dot || b = 95 || b = 45

def hasDoubleDot : Bytes → Bool
  | a :: b :: rest => (a = dot && b = dot) || hasDoubleDot (b :: rest)
  | _ => false

/-! ### Operation names -/

inductive OperationNameError where
  | empty
  | tooLong (len max : Nat)
  | leadingOrTrailingDot
  | consecutiveDots
  | illegalCharacter (byte : UInt8)
  deriving Repr, Inhabited, DecidableEq

def isOperationByte (b : UInt8) : Bool :=
  isLower b || isUpper b || isDigit b || isPunctuation b

def validateName (value : Bytes) : Except OperationNameError Unit :=
  if value.isEmpty then .error .empty
  else if operationNameMaxBytes < value.length then
    .error (.tooLong value.length operationNameMaxBytes)
  else
    match value.find? fun b => !isOperationByte b with
    | some byte => .error (.illegalCharacter byte)
    | none =>
        if value.head? = some dot ∨ value.getLast? = some dot then .error .leadingOrTrailingDot
        else if hasDoubleDot value then .error .consecutiveDots
        else .ok ()

def validateOperationName (operation : Bytes) (limits : Limits) : Except NetbatError Unit :=
  if limits.maxOperationNameBytes < operation.length then
    .error (.operationNameTooLong limits.maxOperationNameBytes)
  else if !validUtf8 operation then .error (.malformedRequest "operation has invalid bytes")
  else
    match validateName operation with
    | .ok () => .ok ()
    | .error .empty => .error (.malformedRequest "empty operation")
    | .error (.tooLong _ _) => .error (.operationNameTooLong operationNameMaxBytes)
    | .error (.illegalCharacter _) => .error (.malformedRequest "operation has invalid bytes")
    | .error .leadingOrTrailingDot =>
        .error (.malformedRequest "operation dot segments must be non-empty")
    | .error .consecutiveDots =>
        .error (.malformedRequest "operation dot segments must be non-empty")

/-! ### Request frames -/

structure RequestFrame where
  operation : Bytes
  input : Bytes
  deriving Repr, Inhabited, DecidableEq

def protocolStart : Bytes := ascii "NETBAT/"

def lineProtocolVersion : Bytes := ascii "NETBAT/1"

def callVerb : Bytes := ascii "CALL"

def validateProtocolVersion (version : Bytes) : Except NetbatError Unit :=
  if version = lineProtocolVersion then .ok ()
  else .error (.unsupportedProtocolVersion (utf8Lossy version))

/-- The fields of a line still to be taken. -/
abbrev Parts := StateT (List Bytes) (Except NetbatError)

/-- The next field, or the error if there is none. -/
def nextPart (missing : NetbatError) : Parts Bytes := fun parts =>
  match parts with
  | token :: rest => .ok (token, rest)
  | [] => .error missing

def noMoreParts (tooMany : NetbatError) : Parts Unit := fun parts =>
  match parts with
  | [] => .ok ((), [])
  | _ :: _ => .error tooMany

/-- Verb, operation and input. A line without a version token is of the first rung. -/
def requestParts : Parts (Bytes × Bytes × Bytes) := do
  let first ← nextPart (.malformedRequest "missing verb")
  let verb ←
    if protocolStart.isPrefixOf first then do
      validateProtocolVersion first
      nextPart (.malformedRequest "missing verb")
    else pure first
  let operation ← nextPart (.malformedRequest "missing operation")
  let input ← nextPart (.malformedRequest "missing input")
  noMoreParts (.malformedRequest "too many fields")
  return (verb, operation, input)

def decodeLine (line : Bytes) (limits : Limits) : Except NetbatError RequestFrame :=
  if limits.maxLineBytes < line.length then .error (.lineTooLong limits.maxLineBytes)
  else
    let line := stripLineEnding line
    if line.isEmpty then .error (.malformedRequest "empty line")
    else do
      let ((verb, operation, input), _) ← requestParts (line.splitOn 32)
      if verb ≠ callVerb then .error (.malformedRequest "unsupported verb")
      else do
        validateOperationName operation limits
        let input ← decodeHex input limits.maxInputBytes
        return ⟨operation, input⟩

def encodeRequest (operation input : Bytes) : Bytes :=
  joinTokens [lineProtocolVersion, callVerb, operation, encodeHex input] ++ [newline]

end Batpak.Netbat
