/-
Module: Batpak.Proofs.UntrustedFooter
Purpose: The frame region behind an untrusted footer: where the walk ends and when it refuses,
  whatever offset the trailer holds.
Trusted boundary: none
Main exports: UntrustedFile, ReadersStopAt
-/
import Batpak.Store.SegmentFile

namespace Batpak.Store

open Batpak.Util

variable {framesStart : Nat} {flag : Bool} {e : StoreError}

namespace SegmentReader

variable {r : SegmentReader} {file : Bytes}

/-! ### Frames at a byte -/

theorem frameDecode_ok {codec : FrameCodec} {buf msgpack : Bytes} {size : Nat}
    (h : codec.frameDecode buf = .ok (msgpack, size)) :
    size = 8 + ofBeBytes (buf.take 4) ∧ size ≤ buf.length ∧ msgpack.length = size - 8 := by
  unfold FrameCodec.frameDecode at h
  by_cases hshort : buf.length < frameHeaderBytes
  · rw [if_pos hshort] at h
    cases h
  rw [if_neg hshort] at h
  dsimp only at h
  by_cases hlong : buf.length < frameHeaderBytes + ofBeBytes (buf.take 4)
  · rw [if_pos hlong] at h
    cases h
  rw [if_neg hlong] at h
  by_cases hcrc : (codec.crc ((buf.take (frameHeaderBytes + ofBeBytes (buf.take 4))).drop
      frameHeaderBytes)).toNat = ofBeBytes ((buf.drop 4).take 4)
  · rw [if_pos hcrc] at h
    cases h
    have hheader : frameHeaderBytes = 8 := rfl
    refine ⟨by rw [hheader], Nat.not_lt.mp hlong, ?_⟩
    rw [List.length_drop, List.length_take]
    omega
  · rw [if_neg hcrc] at h
    cases h

/-- What it takes for a frame to begin at a byte. -/
theorem tryDecodeFrameAt_iff {pos size : Nat} :
    r.tryDecodeFrameAt file pos = some size ↔
      size = 8 + ofBeBytes ((file.drop pos).take 4) ∧ 8 < size ∧ size ≤ 8 + maxFramePayload ∧
        pos + size ≤ file.length ∧
        ∃ msgpack, r.frameCodec.frameDecode ((file.drop pos).take size) = .ok (msgpack, size) := by
  unfold tryDecodeFrameAt
  constructor
  · intro h
    by_cases hshort : file.length - pos < 8
    · rw [if_pos hshort] at h
      cases h
    rw [if_neg hshort] at h
    dsimp only at h
    by_cases hclaimed : ofBeBytes ((file.drop pos).take 4) = 0 ∨
        maxFramePayload < ofBeBytes ((file.drop pos).take 4)
    · rw [if_pos hclaimed] at h
      cases h
    rw [if_neg hclaimed] at h
    by_cases htail : file.length < pos + 8 + ofBeBytes ((file.drop pos).take 4)
    · rw [if_pos htail] at h
      cases h
    rw [if_neg htail] at h
    cases hdecode : r.frameCodec.frameDecode
        ((file.drop pos).take (8 + ofBeBytes ((file.drop pos).take 4))) with
    | error e =>
        rw [hdecode] at h
        cases h
    | ok p =>
        obtain ⟨msgpack, found⟩ := p
        rw [hdecode] at h
        cases h
        obtain ⟨hsize, -, -⟩ := frameDecode_ok hdecode
        rw [List.take_take, Nat.min_eq_left (by omega)] at hsize
        rw [hsize]
        refine ⟨rfl, by omega, by omega, by omega, msgpack, ?_⟩
        rw [hdecode, hsize]
  · rintro ⟨hsize, hpos, hmax, hend, msgpack, hdecode⟩
    rw [if_neg (by omega)]
    dsimp only
    rw [if_neg (by omega), if_neg (by omega), ← hsize, hdecode]

theorem tryDecodeFrameAt_none {pos : Nat} (h : file.length < pos + 9) :
    r.tryDecodeFrameAt file pos = none := by
  cases hdecode : r.tryDecodeFrameAt file pos with
  | none => rfl
  | some size =>
      obtain ⟨-, hpos, -, hend, -⟩ := tryDecodeFrameAt_iff.mp hdecode
      omega

/-- A frame that lies in the common beginning of two files decodes in both. -/
theorem tryDecodeFrameAt_append {before behind other : Bytes} {pos size : Nat}
    (h : r.tryDecodeFrameAt (before ++ behind) pos = some size) (hinside : pos + size ≤ before.length) :
    r.tryDecodeFrameAt (before ++ other) pos = some size := by
  obtain ⟨hsize, hpos, hmax, -, msgpack, hdecode⟩ := tryDecodeFrameAt_iff.mp h
  have htake : ∀ rest n, n ≤ size → ((before ++ rest).drop pos).take n = (before.drop pos).take n := by
    intro rest n hn
    rw [List.drop_append_of_le_length (by omega), List.take_append_of_le_length]
    rw [List.length_drop]
    omega
  rw [htake _ _ (by omega)] at hsize
  rw [htake _ _ (Nat.le_refl _)] at hdecode
  apply tryDecodeFrameAt_iff.mpr
  rw [htake _ _ (by omega), htake _ _ (Nat.le_refl _), List.length_append]
  exact ⟨hsize, hpos, hmax, by omega, msgpack, hdecode⟩

/-! ### The walk -/

theorem probeRounds_iff {rounds start : Nat} (hrounds : file.length ≤ start + rounds) :
    r.probeRounds file rounds start = true ↔
      ∃ pos, start ≤ pos ∧ (r.tryDecodeFrameAt file pos).isSome = true := by
  induction rounds generalizing start with
  | zero =>
      simp only [probeRounds, Bool.false_eq_true, false_iff, not_exists, not_and]
      intro pos hpos
      rw [tryDecodeFrameAt_none (by omega)]
      simp
  | succ rounds ih =>
      rw [probeRounds]
      by_cases hend : file.length - start < 8
      · rw [if_pos hend]
        simp only [Bool.false_eq_true, false_iff, not_exists, not_and]
        intro pos hpos
        rw [tryDecodeFrameAt_none (by omega)]
        simp
      · rw [if_neg hend]
        by_cases hhere : (r.tryDecodeFrameAt file start).isSome = true
        · rw [if_pos hhere]
          exact ⟨fun _ => ⟨start, Nat.le_refl _, hhere⟩, fun _ => rfl⟩
        · rw [if_neg hhere, ih (by omega)]
          constructor
          · rintro ⟨pos, hpos, hframe⟩
            exact ⟨pos, by omega, hframe⟩
          · rintro ⟨pos, hpos, hframe⟩
            have hne : pos ≠ start := by
              rintro rfl
              exact hhere hframe
            exact ⟨pos, by omega, hframe⟩

theorem crcValidFrameExistsAfter_iff {start : Nat} :
    r.crcValidFrameExistsAfter file start = true ↔
      ∃ pos, start ≤ pos ∧ (r.tryDecodeFrameAt file pos).isSome = true :=
  probeRounds_iff (by omega)

/-- Frames one behind the other lead from one byte to another. -/
inductive FramesTo (r : SegmentReader) (file : Bytes) : Nat → Nat → Prop where
  | refl (pos : Nat) : FramesTo r file pos pos
  | step {pos size stop : Nat} (frame : r.tryDecodeFrameAt file pos = some size)
      (rest : FramesTo r file (pos + size) stop) : FramesTo r file pos stop

theorem FramesTo.le {start stop : Nat} (h : FramesTo r file start stop) : start ≤ stop := by
  induction h with
  | refl => exact Nat.le_refl _
  | step _ _ ih => omega

theorem FramesTo.inside {start stop : Nat} (h : FramesTo r file start stop)
    (hstart : start ≤ file.length) : stop ≤ file.length := by
  induction h with
  | refl => exact hstart
  | step frame _ ih =>
      obtain ⟨-, -, -, hend, -⟩ := tryDecodeFrameAt_iff.mp frame
      exact ih hend

/-- The longest chain of frames ends in one place. -/
theorem FramesTo.unique {start stop other : Nat} (h : FramesTo r file start stop)
    (hstop : r.tryDecodeFrameAt file stop = none) (h' : FramesTo r file start other)
    (hother : r.tryDecodeFrameAt file other = none) : stop = other := by
  induction h with
  | refl =>
      cases h' with
      | refl => rfl
      | step frame _ =>
          rw [hstop] at frame
          cases frame
  | step frame _ ih =>
      cases h' with
      | refl =>
          rw [hother] at frame
          cases frame
      | step frame' rest' =>
          rw [frame] at frame'
          cases frame'
          exact ih hstop rest'

/-- The longest chain of frames from a byte on. -/
structure LongestFrames (r : SegmentReader) (file : Bytes) (start stop : Nat) : Prop where
  chain : FramesTo r file start stop
  ends : r.tryDecodeFrameAt file stop = none

/-- A walk that returns stops at the end of the longest chain, and no frame begins behind it. -/
theorem framesEndRounds_ok {segmentId rounds cursor stop : Nat}
    {recovered found : List (Nat × RecoveredFrame)} (hrounds : file.length < cursor + rounds)
    (hcursor : cursor ≤ file.length)
    (h : r.framesEndRounds segmentId file rounds cursor recovered = .ok (stop, found)) :
    FramesTo r file cursor stop ∧ ∀ pos, stop ≤ pos → r.tryDecodeFrameAt file pos = none := by
  induction rounds generalizing cursor recovered with
  | zero => omega
  | succ rounds ih =>
      rw [framesEndRounds] at h
      by_cases hend : file.length ≤ cursor
      · rw [if_pos hend] at h
        cases h
        have hsame : cursor = file.length := by omega
        rw [hsame]
        exact ⟨.refl _, fun pos hpos => tryDecodeFrameAt_none (by omega)⟩
      rw [if_neg hend] at h
      cases hframe : r.tryDecodeFrameAt file cursor with
      | some size =>
          rw [hframe] at h
          obtain ⟨-, hpos, -, hinside, -⟩ := tryDecodeFrameAt_iff.mp hframe
          obtain ⟨hchain, hnone⟩ := ih (by omega) hinside h
          exact ⟨.step hframe hchain, hnone⟩
      | none =>
          rw [hframe] at h
          dsimp only at h
          by_cases hlater : r.crcValidFrameExistsAfter file (cursor + 1) = true
          · rw [if_pos hlater] at h
            cases h
          · rw [if_neg hlater] at h
            cases h
            refine ⟨.refl _, fun pos hpos => ?_⟩
            rcases Nat.eq_or_lt_of_le hpos with rfl | hbehind
            · exact hframe
            · cases hat : r.tryDecodeFrameAt file pos with
              | none => rfl
              | some size =>
                  exact absurd (crcValidFrameExistsAfter_iff.mpr ⟨pos, hbehind, by simp [hat]⟩) hlater

/-- Two files of one length whose frames are the same are walked alike. -/
theorem framesEndRounds_congr {other : Bytes} {segmentId : Nat}
    (hlength : file.length = other.length)
    (hframes : ∀ pos, r.tryDecodeFrameAt file pos = r.tryDecodeFrameAt other pos)
    (hhash : ∀ pos size, r.tryDecodeFrameAt file pos = some size →
      r.readFrameEventHash file pos size = r.readFrameEventHash other pos size)
    (rounds cursor : Nat) (recovered : List (Nat × RecoveredFrame)) :
    r.framesEndRounds segmentId file rounds cursor recovered =
      r.framesEndRounds segmentId other rounds cursor recovered := by
  have hprobe : ∀ rounds start, r.probeRounds file rounds start = r.probeRounds other rounds start := by
    intro rounds
    induction rounds with
    | zero => exact fun start => rfl
    | succ rounds ih =>
        intro start
        rw [probeRounds, probeRounds, hlength, hframes, ih]
  induction rounds generalizing cursor recovered with
  | zero => rfl
  | succ rounds ih =>
      rw [framesEndRounds, framesEndRounds, crcValidFrameExistsAfter, crcValidFrameExistsAfter,
        hprobe, hlength, ← hframes]
      cases hframe : r.tryDecodeFrameAt file cursor with
      | none => rfl
      | some size =>
          dsimp only
          rw [hhash cursor size hframe, ih]

/-- The segment id only shows in the error. -/
theorem framesEndRounds_segment {segmentId : Nat} (other : Nat) {rounds cursor : Nat}
    {recovered : List (Nat × RecoveredFrame)} {out : Nat × List (Nat × RecoveredFrame)}
    (h : r.framesEndRounds segmentId file rounds cursor recovered = .ok out) :
    r.framesEndRounds other file rounds cursor recovered = .ok out := by
  induction rounds generalizing cursor recovered with
  | zero => exact h
  | succ rounds ih =>
      rw [framesEndRounds] at h ⊢
      by_cases hend : file.length ≤ cursor
      · rw [if_pos hend] at h ⊢
        exact h
      rw [if_neg hend] at h ⊢
      cases hframe : r.tryDecodeFrameAt file cursor with
      | some size =>
          rw [hframe] at h
          exact ih h
      | none =>
          rw [hframe] at h
          dsimp only at h ⊢
          by_cases hlater : r.crcValidFrameExistsAfter file (cursor + 1) = true
          · rw [if_pos hlater] at h
            cases h
          · rw [if_neg hlater] at h ⊢
            exact h

/-! ### The rows of the trailer -/

theorem length_of_readExactAt {pos len : Nat} {buf : Bytes}
    (h : readExactAt file pos len = .ok buf) : buf.length = len := by
  unfold readExactAt at h
  by_cases hin : pos + len ≤ file.length
  · rw [if_pos hin] at h
    cases h
    rw [List.length_take, List.length_drop]
    omega
  · rw [if_neg hin] at h
    cases h

/-- A read that lies in the common beginning of two files of one length. -/
theorem readExactAt_append {before behind other : Bytes} {pos len : Nat}
    (hinside : pos + len ≤ before.length) :
    readExactAt (before ++ behind) pos len = readExactAt (before ++ other) pos len := by
  have htake : ∀ rest, readExactAt (before ++ rest) pos len = .ok ((before.drop pos).take len) := by
    intro rest
    rw [readExactAt, if_pos (by rw [List.length_append]; omega),
      List.drop_append_of_le_length (by omega), List.take_append_of_le_length]
    rw [List.length_drop]
    omega
  rw [htake, htake]

theorem readEntriesUnauthenticated_segment (segmentId other : Nat) (file : Bytes) :
    Sidx.readEntriesUnauthenticated segmentId file =
      Sidx.readEntriesUnauthenticated other file := by
  have hrow : ∀ pos, (do
      let buf ← readExactAt file pos Sidx.entrySize
      Sidx.SidxEntry.decodeFrom segmentId buf) = (do
      let buf ← readExactAt file pos Sidx.entrySize
      Sidx.SidxEntry.decodeFrom other buf) := by
    intro pos
    cases hread : readExactAt file pos Sidx.entrySize with
    | error e => rfl
    | ok buf =>
        have hlen := length_of_readExactAt hread
        change Sidx.SidxEntry.decodeFrom segmentId buf = Sidx.SidxEntry.decodeFrom other buf
        rw [Sidx.SidxEntry.decodeFrom, Sidx.SidxEntry.decodeFrom, if_neg (not_not_intro hlen),
          if_neg (not_not_intro hlen)]
  unfold Sidx.readEntriesUnauthenticated
  simp only [hrow]

/-- A file with the trailer of a footer, of either magic, behind its other bytes. -/
def withTrailer (body : Bytes) (offset : UInt64) (count : UInt32) (magic : Bytes) : Bytes :=
  body ++ (putLe offset ++ (putLe count ++ magic))

/-- The offset leaves room for the checksum and the rows it announces. -/
def OffsetFits (body : Bytes) (offset : UInt64) (count : UInt32) : Prop :=
  offset.toNat ≤ body.length - Sidx.sidxCrcLen - count.toNat * Sidx.entrySize

section Trailer

variable {body magic : Bytes} {count : UInt32}

theorem length_withTrailer (offset : UInt64) :
    (withTrailer body offset count magic).length = body.length + 12 + magic.length := by
  simp [withTrailer, FixedWidth.width]
  omega

theorem drop_withTrailer (offset : UInt64) :
    (withTrailer body offset count magic).drop body.length =
      putLe offset ++ (putLe count ++ magic) := by
  rw [withTrailer, List.drop_left]

/-- Of the offset only the room it leaves is looked at. -/
theorem readEntriesUnauthenticated_offset {a b : UInt64} (segmentId : Nat)
    (hmagic : magic.length = 4) (hsame : OffsetFits body a count ↔ OffsetFits body b count) :
    Sidx.readEntriesUnauthenticated segmentId (withTrailer body a count magic) =
      Sidx.readEntriesUnauthenticated segmentId (withTrailer body b count magic) := by
  have hlength : ∀ offset, (withTrailer body offset count magic).length = body.length + 16 := by
    intro offset
    rw [length_withTrailer, hmagic]
  have htrailer : ∀ offset : UInt64, ((withTrailer body offset count magic).drop
      ((withTrailer body offset count magic).length - Sidx.trailerSize)).take Sidx.trailerSize =
        putLe offset ++ (putLe count ++ magic) := by
    intro offset
    rw [hlength, Sidx.trailerSize, Nat.add_sub_cancel, drop_withTrailer, List.take_of_length_le]
    simp [FixedWidth.width, hmagic]
  have hmagicOf : ∀ offset : UInt64, (putLe offset ++ (putLe count ++ magic)).drop 12 = magic := by
    intro offset
    rw [← List.append_assoc]
    apply List.drop_left'
    simp [FixedWidth.width]
  have hcount : ∀ offset : UInt64, (putLe offset ++ (putLe count ++ magic)).drop 8 =
      putLe count ++ magic := by
    intro offset
    apply List.drop_left'
    simp [FixedWidth.width]
  unfold Sidx.readEntriesUnauthenticated
  simp only [htrailer]
  simp only [hmagicOf, hcount, hlength, getLe_putLe]
  by_cases hroom : body.length + 16 <
      Sidx.trailerSize + Sidx.sidxCrcLen + count.toNat * Sidx.entrySize
  · simp only [if_pos hroom]
  have hstart : body.length + 16 - Sidx.trailerSize - Sidx.sidxCrcLen -
      count.toNat * Sidx.entrySize = body.length - Sidx.sidxCrcLen - count.toNat * Sidx.entrySize := by
    rw [Sidx.trailerSize, Nat.add_sub_cancel]
  simp only [if_neg hroom, hstart]
  -- the rows lie in front of the trailer
  have hrows : (List.range count.toNat).mapM (fun i => (do
        let buf ← readExactAt (withTrailer body a count magic)
          (body.length - Sidx.sidxCrcLen - count.toNat * Sidx.entrySize + i * Sidx.entrySize)
          Sidx.entrySize
        Sidx.SidxEntry.decodeFrom segmentId buf : Except StoreError Sidx.SidxEntry)) =
      (List.range count.toNat).mapM (fun i => (do
        let buf ← readExactAt (withTrailer body b count magic)
          (body.length - Sidx.sidxCrcLen - count.toNat * Sidx.entrySize + i * Sidx.entrySize)
          Sidx.entrySize
        Sidx.SidxEntry.decodeFrom segmentId buf)) := by
    apply mapM_congr_mem
    intro i hi
    have hi : i < count.toNat := List.mem_range.mp hi
    rw [withTrailer, withTrailer, readExactAt_append]
    have hblock : i * Sidx.entrySize + Sidx.entrySize ≤ count.toNat * Sidx.entrySize := by
      rw [← Nat.succ_mul]
      exact Nat.mul_le_mul_right _ hi
    rw [Sidx.trailerSize] at hroom
    omega
  rw [hrows]
  by_cases hfits : OffsetFits body a count
  · have hb := hsame.mp hfits
    simp only [if_neg (Nat.not_lt.mpr hfits), if_neg (Nat.not_lt.mpr hb)]
  · have hb := fun h => hfits (hsame.mpr h)
    simp only [if_pos (Nat.not_le.mp hfits), if_pos (Nat.not_le.mp hb)]

end Trailer

/-! ### The resolution -/

theorem corroborate_cases (entries : List Sidx.SidxEntry) (recovered : List (Nat × RecoveredFrame))
    (stop : Nat) (flag : Bool) :
    corroborateUntrustedEntries entries recovered stop flag = .recoverPrefix stop ∨
      corroborateUntrustedEntries entries recovered stop flag = .failClosed := by
  unfold corroborateUntrustedEntries
  split
  case isTrue => exact .inl rfl
  case isFalse =>
    split
    case isTrue => exact .inr rfl
    case isFalse => exact .inl rfl

/-- The region ends where the walk stops, unless the rows prove that a frame is missing. -/
theorem resolveUntrustedFramesEnd_ok_iff {segmentId stop : Nat} :
    r.resolveUntrustedFramesEnd file framesStart segmentId flag = .ok stop ↔
      ∃ recovered, r.crcValidFramesEndWithMap file framesStart segmentId = .ok (stop, recovered) ∧
        corroborateUntrustedEntries (Sidx.readEntriesUnauthenticated segmentId file) recovered stop
          flag = .recoverPrefix stop := by
  unfold resolveUntrustedFramesEnd
  cases hwalk : r.crcValidFramesEndWithMap file framesStart segmentId with
  | error e => simp
  | ok out =>
      obtain ⟨found, recovered⟩ := out
      dsimp only
      rcases corroborate_cases (Sidx.readEntriesUnauthenticated segmentId file) recovered found flag
        with hrows | hrows
      · rw [hrows]
        constructor
        · intro h
          cases h
          exact ⟨recovered, rfl, hrows⟩
        · rintro ⟨_, h, -⟩
          cases h
          rfl
      · rw [hrows]
        constructor
        · intro h
          cases h
        · rintro ⟨_, h, hkept⟩
          cases h
          rw [hrows] at hkept
          cases hkept

theorem resolveUntrustedFramesEnd_longest {segmentId stop : Nat}
    (hstart : framesStart ≤ file.length)
    (h : r.resolveUntrustedFramesEnd file framesStart segmentId flag = .ok stop) :
    LongestFrames r file framesStart stop ∧
      ∀ pos, stop ≤ pos → r.tryDecodeFrameAt file pos = none := by
  obtain ⟨recovered, hwalk, -⟩ := resolveUntrustedFramesEnd_ok_iff.mp h
  obtain ⟨hchain, hnone⟩ := framesEndRounds_ok (by omega) hstart hwalk
  exact ⟨⟨hchain, hnone stop (Nat.le_refl _)⟩, hnone⟩

theorem resolveUntrustedFramesEnd_refuses {stop pos : Nat} (segmentId : Nat) (flag : Bool)
    (hstart : framesStart ≤ file.length) (hlongest : LongestFrames r file framesStart stop)
    (hpos : stop < pos) (hframe : (r.tryDecodeFrameAt file pos).isSome = true) :
    ∃ e, r.resolveUntrustedFramesEnd file framesStart segmentId flag = .error e := by
  cases hresolve : r.resolveUntrustedFramesEnd file framesStart segmentId flag with
  | error e => exact ⟨e, rfl⟩
  | ok found =>
      obtain ⟨hfound, hnone⟩ := resolveUntrustedFramesEnd_longest hstart hresolve
      have hsame := hfound.chain.unique hfound.ends hlongest.chain hlongest.ends
      rw [hnone pos (by omega)] at hframe
      cases hframe

/-- Neither the segment id nor the tail policy of the caller changes the answer. -/
theorem resolveUntrustedFramesEnd_caller {segmentId stop : Nat} (other : Nat) (flag' : Bool)
    (h : r.resolveUntrustedFramesEnd file framesStart segmentId flag = .ok stop) :
    r.resolveUntrustedFramesEnd file framesStart other flag' = .ok stop := by
  obtain ⟨recovered, hwalk, hrows⟩ := resolveUntrustedFramesEnd_ok_iff.mp h
  apply resolveUntrustedFramesEnd_ok_iff.mpr
  refine ⟨recovered, framesEndRounds_segment other hwalk, ?_⟩
  rw [readEntriesUnauthenticated_segment other segmentId file]
  exact hrows

theorem resolveUntrustedFramesEnd_caller_error {segmentId : Nat} (other : Nat) (flag' : Bool)
    (h : r.resolveUntrustedFramesEnd file framesStart segmentId flag = .error e) :
    ∃ e, r.resolveUntrustedFramesEnd file framesStart other flag' = .error e := by
  cases hother : r.resolveUntrustedFramesEnd file framesStart other flag' with
  | error e => exact ⟨e, rfl⟩
  | ok stop =>
      rw [resolveUntrustedFramesEnd_caller segmentId flag hother] at h
      cases h

/-- No frame of the file reaches into what stands behind `body`. -/
def FramesInside (r : SegmentReader) (file body : Bytes) : Prop :=
  ∀ pos size, r.tryDecodeFrameAt file pos = some size → pos + size ≤ body.length

theorem resolveUntrustedFramesEnd_offset {body magic : Bytes} {count : UInt32} {a b : UInt64}
    (framesStart segmentId : Nat) (flag : Bool) (hmagic : magic.length = 4)
    (hsame : OffsetFits body a count ↔ OffsetFits body b count)
    (ha : FramesInside r (withTrailer body a count magic) body)
    (hb : FramesInside r (withTrailer body b count magic) body) :
    r.resolveUntrustedFramesEnd (withTrailer body a count magic) framesStart segmentId flag =
      r.resolveUntrustedFramesEnd (withTrailer body b count magic) framesStart segmentId flag := by
  have hlength : (withTrailer body a count magic).length =
      (withTrailer body b count magic).length := by
    rw [length_withTrailer, length_withTrailer]
  have hframes : ∀ pos, r.tryDecodeFrameAt (withTrailer body a count magic) pos =
      r.tryDecodeFrameAt (withTrailer body b count magic) pos := by
    intro pos
    cases hat : r.tryDecodeFrameAt (withTrailer body a count magic) pos with
    | some size => exact (tryDecodeFrameAt_append hat (ha pos size hat)).symm
    | none =>
        cases hbt : r.tryDecodeFrameAt (withTrailer body b count magic) pos with
        | none => rfl
        | some size =>
            have hboth : r.tryDecodeFrameAt (withTrailer body a count magic) pos = some size :=
              tryDecodeFrameAt_append hbt (hb pos size hbt)
            rw [hat] at hboth
            cases hboth
  have hhash : ∀ pos size, r.tryDecodeFrameAt (withTrailer body a count magic) pos = some size →
      r.readFrameEventHash (withTrailer body a count magic) pos size =
        r.readFrameEventHash (withTrailer body b count magic) pos size := by
    intro pos size hat
    unfold readFrameEventHash
    rw [withTrailer, withTrailer, readExactAt_append (ha pos size hat)]
  have hwalk : ∀ rounds, r.framesEndRounds segmentId (withTrailer body a count magic) rounds
      framesStart [] = r.framesEndRounds segmentId (withTrailer body b count magic) rounds
        framesStart [] := fun rounds =>
    framesEndRounds_congr hlength hframes hhash rounds framesStart []
  unfold resolveUntrustedFramesEnd crcValidFramesEndWithMap
  rw [readEntriesUnauthenticated_offset segmentId hmagic hsame, hwalk, hlength]

/-! ### The three readers -/

theorem authenticatedStringTableOffset_segment (crc : Crc32) (segmentId other : Nat) (file : Bytes) :
    Sidx.authenticatedStringTableOffset crc segmentId file =
      Sidx.authenticatedStringTableOffset crc other file := by
  unfold Sidx.authenticatedStringTableOffset Sidx.readLayout
  split_ifs
  case pos => rfl
  case neg =>
    cases readExactAt file (file.length - Sidx.trailerSize) Sidx.trailerSize with
    | error e => cases e <;> rfl
    | ok trailer =>
        dsimp only [bind, Except.bind]
        split_ifs
        case pos => rfl
        case pos => rfl
        case pos => rfl
        case pos => rfl
        case neg => rfl

theorem readLayout_offset {crc : Crc32} {segmentId : Nat} {layout : Sidx.FooterLayout}
    (h : Sidx.readLayout crc segmentId file = .ok (some layout)) :
    layout.stringTableOffset = (getLe UInt64
      ((file.drop (file.length - Sidx.trailerSize)).take Sidx.trailerSize)).1.toNat := by
  unfold Sidx.readLayout at h
  by_cases hshort : file.length < Sidx.trailerSize
  · rw [if_pos hshort] at h
    cases h
  rw [if_neg hshort] at h
  obtain ⟨trailer, htrailer, h⟩ := bindOk_iff.mp h
  rw [readExactAt, if_pos (by omega)] at htrailer
  cases htrailer
  by_cases hmagic : ((file.drop (file.length - Sidx.trailerSize)).take Sidx.trailerSize).drop 12 ≠
      Sidx.sidxMagic
  · rw [if_pos hmagic] at h
    cases h
  rw [if_neg hmagic] at h
  obtain ⟨-, h⟩ := ifError_ok_iff.mp h
  obtain ⟨-, h⟩ := ifError_ok_iff.mp h
  obtain ⟨-, h⟩ := ifError_ok_iff.mp h
  obtain ⟨hasher, -, h⟩ := bindOk_iff.mp h
  obtain ⟨storedCrc, -, h⟩ := bindOk_iff.mp h
  by_cases hcrc : crc.finalize hasher ≠ (getLe UInt32 storedCrc).1
  · rw [if_pos hcrc] at h
    cases h
  rw [if_neg hcrc] at h
  cases h
  rfl

/-- What an untrusted boundary says of the footer, whoever asks. -/
theorem detectSidxBoundary_untrusted {segmentId offset : Nat}
    (h : r.detectSidxBoundary file segmentId = .ok (some ⟨offset, false⟩)) (other : Nat) :
    r.detectSidxBoundary file other = .ok (some ⟨offset, false⟩) ∧
      ∀ layout, Sidx.readLayout r.crc other file ≠ .ok (some layout) := by
  unfold detectSidxBoundary at h ⊢
  by_cases hshort : file.length < Sidx.trailerSize
  · rw [if_pos hshort] at h
    cases h
  rw [if_neg hshort] at h ⊢
  dsimp only at h ⊢
  by_cases hmagic : ((file.drop (file.length - Sidx.trailerSize)).take Sidx.trailerSize).drop 12 ≠
      Sidx.sidxMagic ∧
    ((file.drop (file.length - Sidx.trailerSize)).take Sidx.trailerSize).drop 12 ≠
      Sidx.sidxMagicLegacy
  · rw [if_pos hmagic] at h
    cases h
  rw [if_neg hmagic] at h ⊢
  rw [authenticatedStringTableOffset_segment r.crc other segmentId]
  cases hfound : Sidx.authenticatedStringTableOffset r.crc segmentId file with
  | error e =>
      rw [hfound] at h
      cases h
  | ok found =>
      rw [hfound] at h
      dsimp only at h ⊢
      by_cases htrusted : found =
          some (getLe UInt64 ((file.drop (file.length - Sidx.trailerSize)).take
            Sidx.trailerSize)).1.toNat
      · obtain ⟨-, h⟩ := ifError_ok_iff.mp h
        simp [htrusted] at h
      · simp only [htrusted, false_and, if_false, decide_false] at h ⊢
        refine ⟨h, fun layout hlayout => htrusted ?_⟩
        rw [authenticatedStringTableOffset_segment r.crc segmentId other,
          Sidx.authenticatedStringTableOffset, hlayout] at hfound
        cases hfound
        rw [readLayout_offset hlayout]

/-- A frame of the chain is taken by the loop of every reader. -/
theorem nextFrame_frame {recoverTornTail : Bool} {refuse : Nat → String → StoreError}
    {segmentId stop pos size : Nat} (hframe : r.tryDecodeFrameAt file pos = some size)
    (hstop : pos + size ≤ stop) (hinside : stop ≤ file.length) :
    ∃ msgpack, r.nextFrame recoverTornTail refuse segmentId stop file pos =
      .ok (.frame msgpack size) := by
  obtain ⟨hsize, hpos, hmax, -, msgpack, hdecode⟩ := tryDecodeFrameAt_iff.mp hframe
  refine ⟨msgpack, ?_⟩
  unfold nextFrame
  rw [if_neg (by omega), if_neg (by omega)]
  dsimp only
  rw [if_neg (by omega), if_neg (by omega), if_neg (by omega), ← hsize, hdecode]

theorem nextFrame_stop {recoverTornTail : Bool} {refuse : Nat → String → StoreError}
    (segmentId stop : Nat) (file : Bytes) :
    r.nextFrame recoverTornTail refuse segmentId stop file stop = .ok .stop := by
  unfold nextFrame
  rw [if_pos (Nat.le_refl _)]

/-- A loop that goes along the chain and comes through stops at its end. -/
theorem frameRounds_stop {σ β : Type} {next : Nat → Except StoreError NextFrame}
    {handle : Nat → Nat → Bytes → σ → Except StoreError (σ × List β)} {start stop : Nat}
    (hchain : FramesTo r file start stop) (hend : next stop = .ok .stop)
    (hnext : ∀ pos size, r.tryDecodeFrameAt file pos = some size → pos + size ≤ stop →
      ∃ msgpack, next pos = .ok (.frame msgpack size))
    {rounds : Nat} (hrounds : stop ≤ start + rounds) {s : σ} {out : Nat × σ × List β}
    (h : frameRounds next handle rounds start s = .ok out) : out.1 = stop := by
  induction hchain generalizing rounds s out with
  | refl =>
      cases rounds with
      | zero =>
          cases h
          rfl
      | succ rounds =>
          rw [frameRounds, hend] at h
          cases h
          rfl
  | step frame rest ih =>
      have hinside := rest.le
      obtain ⟨-, hpos, -, -, -⟩ := tryDecodeFrameAt_iff.mp frame
      obtain ⟨msgpack, hmsgpack⟩ := hnext _ _ frame hinside
      cases rounds with
      | zero => omega
      | succ rounds =>
          rw [frameRounds, hmsgpack] at h
          obtain ⟨_, hframe, h⟩ := bindOk_iff.mp h
          cases hframe
          obtain ⟨⟨s', found⟩, -, h⟩ := bindOk_iff.mp h
          obtain ⟨⟨stop', s'', more⟩, hrest, h⟩ := bindOk_iff.mp h
          cases h
          apply ih hend hnext _ hrest
          omega

/-- A loop that goes along the chain and fails, fails over what is in one of its frames. -/
theorem frameRounds_error {σ β : Type} {next : Nat → Except StoreError NextFrame}
    {handle : Nat → Nat → Bytes → σ → Except StoreError (σ × List β)} {start stop : Nat}
    (hchain : FramesTo r file start stop) (hend : next stop = .ok .stop)
    (hnext : ∀ pos size, r.tryDecodeFrameAt file pos = some size → pos + size ≤ stop →
      ∃ msgpack, next pos = .ok (.frame msgpack size)) {rounds : Nat} {s : σ}
    (h : frameRounds next handle rounds start s = .error e) :
    ∃ pos size msgpack s, pos + size ≤ stop ∧ r.tryDecodeFrameAt file pos = some size ∧
      handle pos size msgpack s = .error e := by
  induction hchain generalizing rounds s with
  | refl =>
      cases rounds with
      | zero => cases h
      | succ rounds =>
          rw [frameRounds, hend] at h
          cases h
  | @step pos size stop frame rest ih =>
      obtain ⟨msgpack, hmsgpack⟩ := hnext _ _ frame rest.le
      cases rounds with
      | zero => cases h
      | succ rounds =>
          rw [frameRounds, hmsgpack] at h
          rcases bindError_iff.mp h with hnone | ⟨_, hframe, h⟩
          · cases hnone
          cases hframe
          rcases bindError_iff.mp h with hhandle | ⟨⟨s', found⟩, -, h⟩
          · exact ⟨pos, size, msgpack, s, rest.le, frame, hhandle⟩
          rcases bindError_iff.mp h with hrest | ⟨⟨stop', s'', more⟩, -, h⟩
          · exact ih hend hnext hrest
          · cases h

theorem readSegmentHeader_ok {segmentId : Nat}
    (h : r.readSegmentHeader segmentId file = .ok framesStart) :
    readExactAt file 0 4 = .ok segmentMagic ∧ framesStart ≤ file.length ∧
      ∃ headerLen, readExactAt file 4 4 = .ok headerLen ∧ framesStart = 8 + ofBeBytes headerLen := by
  unfold readSegmentHeader at h
  obtain ⟨magic, hmagic, h⟩ := bindOk_iff.mp h
  obtain ⟨hfbat, h⟩ := ifError_ok_iff.mp h
  obtain ⟨headerLen, hlen, h⟩ := bindOk_iff.mp h
  obtain ⟨-, h⟩ := ifError_ok_iff.mp h
  obtain ⟨headerBuf, hbuf, h⟩ := bindOk_iff.mp h
  have hin : 8 + ofBeBytes headerLen ≤ file.length := by
    by_contra hlong
    rw [readExactAt, if_neg hlong] at hbuf
    cases hbuf
  cases hread : r.fromBytes segmentHeaderSerde headerBuf with
  | error e =>
      rw [hread] at h
      cases h
  | ok header =>
      rw [hread] at h
      obtain ⟨-, h⟩ := ifError_ok_iff.mp h
      cases h
      rw [not_not.mp hfbat] at hmagic
      exact ⟨hmagic, hin, headerLen, hlen, rfl⟩

end SegmentReader

/-- A file whose header reads and whose footer, of either magic, does not authenticate. -/
structure UntrustedFile (r : SegmentReader) (segmentId framesStart offset : Nat) (file : Bytes) :
    Prop where
  header : r.readSegmentHeader segmentId file = .ok framesStart
  boundary : r.detectSidxBoundary file segmentId = .ok (some ⟨offset, false⟩)

namespace UntrustedFile

open SegmentReader

variable {r : SegmentReader} {segmentId framesStart offset : Nat} {file : Bytes}
  (h : UntrustedFile r segmentId framesStart offset file)

include h

/-- The rows of such a footer are not taken for the answer of an index scan. -/
theorem fastPath (activeId : Nat) (batchInProgress : Bool) :
    r.sidxFastPath activeId segmentId batchInProgress file = .ok none := by
  unfold sidxFastPath
  split_ifs
  case pos => rfl
  case neg =>
    obtain ⟨-, hlayout⟩ := detectSidxBoundary_untrusted h.boundary segmentId
    unfold Sidx.readFooter
    cases hread : Sidx.readLayout r.crc segmentId file with
    | error e => rfl
    | ok found =>
        cases found with
        | none => rfl
        | some layout => exact absurd hread (hlayout layout)

theorem frameScan_eq (policy : FrameScanTailPolicy) (st : BatchRecoveryState) :
    r.frameScan policy segmentId st file = (do
      let stop ← r.resolveUntrustedFramesEnd file framesStart segmentId (!policy.canRecoverTornTail)
      frameRounds
        (r.nextFrame policy.canRecoverTornTail (.corruptFrame segmentId) segmentId stop file)
        (r.indexHandle segmentId) file.length framesStart st) := by
  unfold frameScan
  rw [h.boundary, h.header]
  rfl

theorem scanSegmentFull_eq :
    r.scanSegmentFull segmentId file = (do
      let stop ← r.resolveUntrustedFramesEnd file framesStart segmentId true
      let (stop, (), entries) ← frameRounds
        (r.nextFrame false (fun _ => .corruptSegment segmentId) segmentId stop file)
        (r.fullHandle segmentId) file.length framesStart ()
      return (stop, entries)) := by
  unfold scanSegmentFull
  rw [h.boundary, h.header]
  rfl

theorem appendFramesFromSegment_eq :
    r.appendFramesFromSegment file = (do
      let copyEnd ← r.resolveUntrustedFramesEnd file framesStart 0 true
      return (copyEnd, (file.drop framesStart).take (copyEnd - framesStart))) := by
  obtain ⟨hmagic, -, headerLen, hlen, hstart⟩ := readSegmentHeader_ok h.header
  obtain ⟨hboundary, -⟩ := detectSidxBoundary_untrusted h.boundary 0
  unfold appendFramesFromSegment
  rw [hmagic, hlen, hboundary, hstart]
  rfl

theorem inside : framesStart ≤ file.length :=
  (readSegmentHeader_ok h.header).2.1

end UntrustedFile

namespace SegmentReader

/-- Every reader of the file that comes through has stopped at this byte, and one that fails
refuses a frame in front of it, for some payload and some batch state; which ones is open. -/
structure ReadersStopAt (r : SegmentReader) (segmentId framesStart : Nat) (file : Bytes)
    (stop : Nat) : Prop where
  index : ∀ policy activeId st st' entries,
    r.scanSegmentIndex policy activeId segmentId st file = .ok (st', entries) →
      r.frameScan policy segmentId st file = .ok (stop, st', entries)
  indexFails : ∀ policy activeId st e,
    r.scanSegmentIndex policy activeId segmentId st file = .error e →
      ∃ pos size msgpack st, pos + size ≤ stop ∧ r.tryDecodeFrameAt file pos = some size ∧
        r.indexHandle segmentId pos size msgpack st = .error e
  full : ∀ stop' events, r.scanSegmentFull segmentId file = .ok (stop', events) → stop' = stop
  fullFails : ∀ e, r.scanSegmentFull segmentId file = .error e →
    ∃ pos size msgpack, pos + size ≤ stop ∧ r.tryDecodeFrameAt file pos = some size ∧
      r.fullHandle segmentId pos size msgpack () = .error e
  copy : r.appendFramesFromSegment file =
    .ok (stop, (file.drop framesStart).take (stop - framesStart))

/-- No reader gets anything from the file. -/
structure ReadersRefuse (r : SegmentReader) (segmentId : Nat) (file : Bytes) : Prop where
  index : ∀ policy activeId st,
    ∃ e, r.scanSegmentIndex policy activeId segmentId st file = .error e
  full : ∃ e, r.scanSegmentFull segmentId file = .error e
  copy : ∃ e, r.appendFramesFromSegment file = .error e

end SegmentReader

namespace UntrustedFile

open SegmentReader

variable {r : SegmentReader} {segmentId framesStart offset : Nat} {file : Bytes}
  (h : UntrustedFile r segmentId framesStart offset file)

include h

theorem readersStopAt {seg stop : Nat}
    (hstop : r.resolveUntrustedFramesEnd file framesStart seg flag = .ok stop) :
    ReadersStopAt r segmentId framesStart file stop := by
  obtain ⟨hlongest, -⟩ := resolveUntrustedFramesEnd_longest h.inside hstop
  have hinside := hlongest.chain.inside h.inside
  constructor
  case index =>
    intro policy activeId st st' entries hscan
    unfold scanSegmentIndex at hscan
    rw [h.fastPath] at hscan
    obtain ⟨_, hnone, hscan⟩ := bindOk_iff.mp hscan
    cases hnone
    obtain ⟨⟨found, st'', entries'⟩, hframes, hsame⟩ := bindOk_iff.mp hscan
    cases hsame
    rw [hframes]
    rw [h.frameScan_eq, resolveUntrustedFramesEnd_caller segmentId _ hstop] at hframes
    have hfound := frameRounds_stop hlongest.chain (nextFrame_stop _ _ _)
      (fun pos size hframe hbound => nextFrame_frame hframe hbound hinside) (by omega) hframes
    rw [← hfound]
  case indexFails =>
    intro policy activeId st e hscan
    unfold scanSegmentIndex at hscan
    rw [h.fastPath] at hscan
    rcases bindError_iff.mp hscan with hnone | ⟨_, hnone, hscan⟩
    · cases hnone
    cases hnone
    rcases bindError_iff.mp hscan with hframes | ⟨_, -, hsame⟩
    · rw [h.frameScan_eq, resolveUntrustedFramesEnd_caller segmentId _ hstop] at hframes
      exact frameRounds_error hlongest.chain (nextFrame_stop _ _ _)
        (fun pos size hframe hbound => nextFrame_frame hframe hbound hinside) hframes
    · cases hsame
  case full =>
    intro stop' events hscan
    rw [h.scanSegmentFull_eq, resolveUntrustedFramesEnd_caller segmentId true hstop] at hscan
    obtain ⟨_, hend, hscan⟩ := bindOk_iff.mp hscan
    cases hend
    obtain ⟨⟨found, ⟨⟩, entries⟩, hframes, hsame⟩ := bindOk_iff.mp hscan
    cases hsame
    exact frameRounds_stop hlongest.chain (nextFrame_stop _ _ _)
      (fun pos size hframe hbound => nextFrame_frame hframe hbound hinside) (by omega) hframes
  case fullFails =>
    intro e hscan
    rw [h.scanSegmentFull_eq, resolveUntrustedFramesEnd_caller segmentId true hstop] at hscan
    rcases bindError_iff.mp hscan with hnone | ⟨_, hend, hscan⟩
    · cases hnone
    cases hend
    rcases bindError_iff.mp hscan with hframes | ⟨⟨found, ⟨⟩, entries⟩, -, hsame⟩
    · obtain ⟨pos, size, msgpack, ⟨⟩, hfails⟩ := frameRounds_error hlongest.chain
        (nextFrame_stop _ _ _)
        (fun pos size hframe hbound => nextFrame_frame hframe hbound hinside) hframes
      exact ⟨pos, size, msgpack, hfails⟩
    · cases hsame
  case copy =>
    rw [h.appendFramesFromSegment_eq, resolveUntrustedFramesEnd_caller 0 true hstop]
    rfl

theorem readersRefuse {seg : Nat}
    (hrefuse : r.resolveUntrustedFramesEnd file framesStart seg flag = .error e) :
    ReadersRefuse r segmentId file := by
  constructor
  case index =>
    intro policy activeId st
    obtain ⟨e', he'⟩ := resolveUntrustedFramesEnd_caller_error segmentId
      (!policy.canRecoverTornTail) hrefuse
    unfold scanSegmentIndex
    rw [h.fastPath, h.frameScan_eq, he']
    exact ⟨e', rfl⟩
  case full =>
    obtain ⟨e', he'⟩ := resolveUntrustedFramesEnd_caller_error segmentId true hrefuse
    rw [h.scanSegmentFull_eq, he']
    exact ⟨e', rfl⟩
  case copy =>
    obtain ⟨e', he'⟩ := resolveUntrustedFramesEnd_caller_error 0 true hrefuse
    rw [h.appendFramesFromSegment_eq, he']
    exact ⟨e', rfl⟩

end UntrustedFile

namespace SegmentReader

/-- Behind an untrusted footer the frame region ends with the longest chain of frames or is
refused, and the readers of the file agree. -/
theorem untrusted_footer_recovery (r : SegmentReader) (segmentId framesStart offset : Nat)
    (file : Bytes) (h : UntrustedFile r segmentId framesStart offset file) :
    (∀ seg flag stop, r.resolveUntrustedFramesEnd file framesStart seg flag = .ok stop →
      LongestFrames r file framesStart stop) ∧
    (∀ seg flag stop pos, LongestFrames r file framesStart stop → stop < pos →
      (r.tryDecodeFrameAt file pos).isSome = true →
      ∃ e, r.resolveUntrustedFramesEnd file framesStart seg flag = .error e) ∧
    (∀ body magic count a b seg flag, file = withTrailer body a count magic → magic.length = 4 →
      (OffsetFits body a count ↔ OffsetFits body b count) → FramesInside r file body →
      FramesInside r (withTrailer body b count magic) body →
      r.resolveUntrustedFramesEnd file framesStart seg flag =
        r.resolveUntrustedFramesEnd (withTrailer body b count magic) framesStart seg flag) ∧
    (∀ seg flag stop, r.resolveUntrustedFramesEnd file framesStart seg flag = .ok stop →
      ReadersStopAt r segmentId framesStart file stop) ∧
    (∀ seg flag e, r.resolveUntrustedFramesEnd file framesStart seg flag = .error e →
      ReadersRefuse r segmentId file) := by
  refine ⟨?longest, ?refuses, ?free, ?together, ?refused⟩
  case longest =>
    intro seg flag stop hstop
    exact (resolveUntrustedFramesEnd_longest h.inside hstop).1
  case refuses =>
    intro seg flag stop pos hlongest hpos hframe
    exact resolveUntrustedFramesEnd_refuses seg flag h.inside hlongest hpos hframe
  case free =>
    rintro body magic count a b seg flag rfl hmagic hsame ha hb
    exact resolveUntrustedFramesEnd_offset framesStart seg flag hmagic hsame ha hb
  case together =>
    intro seg flag stop hstop
    exact h.readersStopAt hstop
  case refused =>
    intro seg flag e hrefuse
    exact h.readersRefuse hrefuse

/-! ### A segment of one frame -/

def footerReader : SegmentReader :=
  ⟨.ieee, .shortest 8⟩

def oneHeader : Bytes :=
  let header := Msgpack.write (segmentHeaderSerde.ser ⟨1, 0, 0, 1⟩)
  segmentMagic ++ (beBytes 4 header.length ++ header)

def oneFrame : Frame where
  eventId := 5
  correlationId := 5
  causationId := none
  timestampUs := 1000
  wallMs := 1
  clock := 0
  dagLane := 0
  dagDepth := 0
  payloadSize := 3
  kind := ⟨0x1001⟩
  flags := 0
  payloadVersion := 0
  payload := [1, 2, 200]
  hashChain := ⟨0, 77⟩
  coord := ⟨"user:1", "chat"⟩
  receiptExtensions := []
  provenance := none

def oneSegment : Bytes :=
  oneHeader ++ frameBytes footerReader.frameCodec
    (Msgpack.write (frameSerde.ser (storedFrame oneFrame)))

theorem size_digestBytes (hash : Digest) : (beBytes 32 hash).toArray.size = 32 := by
  simp

/-- A row for the frame at this offset. -/
def rowAt (offset length : Nat) (hash : Digest) : Sidx.SidxEntry where
  eventId := 5
  entityIdx := 0
  scopeIdx := 1
  kind := 0x1001
  wallMs := 1
  clock := 0
  dagLane := 0
  dagDepth := 0
  prevHash := .ofFn fun _ => 0
  eventHash := ⟨(beBytes 32 hash).toArray, size_digestBytes hash⟩
  frameOffset := UInt64.ofNat offset
  frameLength := UInt32.ofNat length
  globalSequence := 0
  correlationId := 5
  causationId := 0

/-- The second row speaks of a frame that the file has lost; the checksum is wrong. -/
def lostFrameBody : Bytes :=
  oneSegment ++ [0x90] ++ (rowAt 49 426 77).encodeInto ++ (rowAt 475 426 78).encodeInto ++
    [0, 0, 0, 0]

/-- Frames are looked for from the front of the bytes on. -/
def frameBehind (r : SegmentReader) : Bytes → Bool
  | [] => false
  | b :: rest => (r.tryDecodeFrameAt (b :: rest) 0).isSome || frameBehind r rest

theorem tryDecodeFrameAt_drop (r : SegmentReader) (file : Bytes) (pos : Nat) :
    r.tryDecodeFrameAt file pos = r.tryDecodeFrameAt (file.drop pos) 0 := by
  apply Option.ext
  intro size
  rw [tryDecodeFrameAt_iff, tryDecodeFrameAt_iff, List.drop_zero, List.length_drop]
  constructor
  · rintro ⟨hsize, hpos, hmax, hend, hdecode⟩
    exact ⟨hsize, hpos, hmax, by omega, hdecode⟩
  · rintro ⟨hsize, hpos, hmax, hend, hdecode⟩
    exact ⟨hsize, hpos, hmax, by omega, hdecode⟩

theorem frameBehind_false (h : frameBehind r file = false) (pos : Nat) :
    r.tryDecodeFrameAt file pos = none := by
  induction file generalizing pos with
  | nil => exact tryDecodeFrameAt_none (by simp)
  | cons b rest ih =>
      rw [frameBehind, Bool.or_eq_false_iff] at h
      cases pos with
      | zero => simpa using h.1
      | succ pos =>
          rw [tryDecodeFrameAt_drop, List.drop_succ_cons, ← tryDecodeFrameAt_drop]
          exact ih h.2 pos

/-- The walk over a file with one frame. -/
theorem crcValidFramesEndWithMap_one {start size segmentId : Nat} {hash : Option Bytes}
    (hframe : r.tryDecodeFrameAt file start = some size)
    (hhash : r.readFrameEventHash file start size = hash)
    (hbehind : frameBehind r (file.drop (start + size)) = false)
    (hlonger : start + size < file.length) :
    r.crcValidFramesEndWithMap file start segmentId =
      .ok (start + size, [(start, ⟨size, hash⟩)]) := by
  have hnone : ∀ pos, start + size ≤ pos → r.tryDecodeFrameAt file pos = none := by
    intro pos hpos
    have hat := frameBehind_false hbehind (pos - (start + size))
    rw [tryDecodeFrameAt_drop, List.drop_drop, Nat.add_sub_cancel' hpos] at hat
    rw [tryDecodeFrameAt_drop, hat]
  have hlater : ¬ r.crcValidFrameExistsAfter file (start + size + 1) = true := by
    rw [crcValidFrameExistsAfter_iff]
    rintro ⟨pos, hpos, hsome⟩
    rw [hnone pos (by omega)] at hsome
    cases hsome
  obtain ⟨rounds, hrounds⟩ := Nat.exists_eq_add_of_lt hlonger
  rw [crcValidFramesEndWithMap, framesEndRounds, if_neg (by omega), hframe]
  dsimp only
  rw [hrounds, framesEndRounds, if_neg (by omega), hnone _ (Nat.le_refl _)]
  dsimp only
  rw [if_neg hlater, hhash]
  rfl

theorem untrusted_footer_recovery_one_frame :
    LongestFrames footerReader (withTrailer (oneSegment ++ [0x90, 0, 0, 0, 0]) 475 0 Sidx.sidxMagic)
      49 475 ∧
    ReadersStopAt footerReader 1 49
      (withTrailer (oneSegment ++ [0x90, 0, 0, 0, 0]) 475 0 Sidx.sidxMagic) 475 := by
  have hrecovery := untrusted_footer_recovery footerReader 1 49 475
    (withTrailer (oneSegment ++ [0x90, 0, 0, 0, 0]) 475 0 Sidx.sidxMagic)
    ⟨by decide +kernel, by decide +kernel⟩
  have hstop : footerReader.resolveUntrustedFramesEnd
      (withTrailer (oneSegment ++ [0x90, 0, 0, 0, 0]) 475 0 Sidx.sidxMagic) 49 1 true =
        .ok 475 := by
    decide +kernel
  exact ⟨hrecovery.1 1 true 475 hstop, hrecovery.2.2.2.1 1 true 475 hstop⟩

theorem lostFrameBody_walk (a : UInt64) (h : a = 2 ∨ a = 1000000) :
    footerReader.crcValidFramesEndWithMap (withTrailer lostFrameBody a 2 Sidx.sidxMagic) 49 1 =
      .ok (475, [(49, ⟨426, some (beBytes 32 77)⟩)]) := by
  rcases h with rfl | rfl
  · exact @crcValidFramesEndWithMap_one footerReader _ 49 426 1 _ (by decide +kernel)
      (by decide +kernel) (by decide +kernel) (by decide +kernel)
  · exact @crcValidFramesEndWithMap_one footerReader _ 49 426 1 _ (by decide +kernel)
      (by decide +kernel) (by decide +kernel) (by decide +kernel)

/-- An offset that leaves no room for the rows keeps them from speaking of the lost frame, and a
tail without a magic is no footer: the index scan stops in front of it, the copy behind it. -/
theorem trailer_offset_and_torn_trailer_count :
    (footerReader.detectSidxBoundary (withTrailer lostFrameBody 2 2 Sidx.sidxMagic) 1 =
        .ok (some ⟨2, false⟩) ∧
      footerReader.detectSidxBoundary (withTrailer lostFrameBody 1000000 2 Sidx.sidxMagic) 1 =
        .ok (some ⟨1000000, false⟩) ∧
      (footerReader.resolveUntrustedFramesEnd (withTrailer lostFrameBody 2 2 Sidx.sidxMagic)
        49 1 true).toOption = none ∧
      footerReader.resolveUntrustedFramesEnd (withTrailer lostFrameBody 1000000 2 Sidx.sidxMagic)
        49 1 true = .ok 475) ∧
    ((footerReader.frameScan .recoverTornTail 1 .initial (oneSegment ++ [0x90])).toOption.map
        Prod.fst = some 475 ∧
      (footerReader.appendFramesFromSegment (oneSegment ++ [0x90])).toOption.map Prod.fst =
        some 476) := by
  refine ⟨⟨?_, ?_, ?_, ?_⟩, ?_, ?_⟩
  · decide +kernel
  · decide +kernel
  · rw [resolveUntrustedFramesEnd, lostFrameBody_walk 2 (.inl rfl)]
    decide +kernel
  · rw [resolveUntrustedFramesEnd, lostFrameBody_walk 1000000 (.inr rfl)]
    decide +kernel
  · decide +kernel
  · decide +kernel

end SegmentReader

end Batpak.Store
