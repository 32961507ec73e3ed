/-
Module: Batpak.Store.FrameFile
Purpose: The active segment file byte by byte: how a frame is encoded and decoded, and what
  write_frame leaves in the file and in its own byte counter.
Trusted boundary: the checksum and the reader of the frame metadata are parameters
Main exports: FrameCodec, frameBytes
-/
import Batpak.Store.Recovery
import Batpak.Util.Wire

namespace Batpak.Store

open Batpak.Util (toBeBytes ofBeBytes)

/-! ### Frames -/

/-- The checksum of a payload, and whether its metadata can be read back. -/
structure FrameCodec where
  crc : Bytes → UInt32
  readable : Bytes → Bool

/-- `[len: u32 BE][crc: u32 BE][msgpack]` -/
def frameBytes (codec : FrameCodec) (msgpack : Bytes) : Bytes :=
  toBeBytes 4 msgpack.length ++ toBeBytes 4 (codec.crc msgpack).toNat ++ msgpack

def FrameCodec.frameEncode (codec : FrameCodec) (msgpack : Bytes) : Except StoreError Bytes :=
  if msgpack.length < 2 ^ 32 then .ok (frameBytes codec msgpack)
  else .error (.serialization "frame exceeds 4GB")

inductive FrameDecodeError where
  | tooShort
  | truncated (expectedLen available : Nat)
  | crcMismatch (expected actual : Nat)
  deriving Repr, DecidableEq

def FrameCodec.frameDecode (codec : FrameCodec) (buf : Bytes) : Except FrameDecodeError (Bytes × Nat) :=
  if buf.length < frameHeaderBytes then .error .tooShort
  else
    let expectedLen := frameHeaderBytes + ofBeBytes (buf.take 4)
    let expectedCrc := ofBeBytes ((buf.drop 4).take 4)
    if buf.length < expectedLen then .error (.truncated expectedLen buf.length)
    else
      let msgpack := (buf.take expectedLen).drop frameHeaderBytes
      if (codec.crc msgpack).toNat = expectedCrc then .ok (msgpack, expectedLen)
      else .error (.crcMismatch expectedCrc (codec.crc msgpack).toNat)

/-! ### The active file -/

/-- The bytes behind the file header, and the segment's own count of what it has written,
the header included. -/
structure ActiveFile where
  header : Bytes
  body : Bytes
  writtenBytes : Nat
  deriving Repr, DecidableEq

namespace ActiveFile

def create (header : Bytes) : ActiveFile :=
  ⟨header, [], header.length⟩

def bytes (file : ActiveFile) : Bytes :=
  file.header ++ file.body

/-- A failing write leaves the first `n` bytes of the frame at the end of the file and
returns before the counter is advanced. -/
def writeFrame (file : ActiveFile) (frame : Bytes) (fails : Option Nat) :
    Except StoreError Nat × ActiveFile :=
  match fails with
  | some n => (.error (.io "write_all"), { file with body := file.body ++ frame.take n })
  | none =>
      (.ok file.writtenBytes,
        { file with
          body := file.body ++ frame
          writtenBytes := file.writtenBytes + frame.length })

end ActiveFile

end Batpak.Store
