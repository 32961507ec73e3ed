/-
Module: Batpak.Proofs.PartialWrites
Purpose: Receipt offsets and partial writes: what a write behind the bytes a failed write_frame
  left in the file does to the offsets and to the frame scan.
Trusted boundary: none (fully proved)
Main exports: NothingAfterTear, acknowledged_frames_found
-/
import Batpak.Proofs.BatchRecovery
import Batpak.Proofs.UntrustedFooter

namespace Batpak.Store

open Batpak.Util

/-! ### Sequences of calls -/

/-- A call of write_frame, which may fail after some bytes of the frame. -/
structure WriteCall where
  frame : Bytes
  fails : Option Nat
  deriving Repr, DecidableEq

/-- What the call puts at the end of the file. -/
def WriteCall.written (c : WriteCall) : Bytes :=
  match c.fails with
  | some n => c.frame.take n
  | none => c.frame

/-- The file with the acknowledged frames and their offsets, oldest first. -/
structure WriteLog where
  file : ActiveFile
  acknowledged : List (Nat × Bytes)
  deriving Repr, DecidableEq

def writeStep (log : WriteLog) (c : WriteCall) : WriteLog :=
  match log.file.writeFrame c.frame c.fails with
  | (.ok offset, file) => ⟨file, log.acknowledged ++ [(offset, c.frame)]⟩
  | (.error _, file) => ⟨file, log.acknowledged⟩

/-- After a call that failed with bytes in the file, no call writes a byte. -/
def NothingAfterTear : List WriteCall → Prop
  | [] => True
  | c :: rest =>
      (c.fails.isSome = true → c.written ≠ [] → ∀ d ∈ rest, d.fails.isSome = true ∧ d.written = []) ∧
        NothingAfterTear rest

instance decidableNothingAfterTear : (calls : List WriteCall) → Decidable (NothingAfterTear calls)
  | [] => inferInstanceAs (Decidable True)
  | _ :: rest =>
      have := decidableNothingAfterTear rest
      inferInstanceAs (Decidable ((_ → _ → _) ∧ NothingAfterTear rest))

/-- The bytes of a frame that the scanner can read back. -/
def Scannable (codec : FrameCodec) (frame : Bytes) : Prop :=
  ∃ msgpack, frame = frameBytes codec msgpack ∧ msgpack.length ≤ maxFramePayload

/-! ### Where the frames lie -/

/-- Frames one after another, with their offsets. -/
def placed : Nat → List Bytes → List (Nat × Bytes)
  | _, [] => []
  | offset, frame :: rest => (offset, frame) :: placed (offset + frame.length) rest

theorem placed_append (offset : Nat) (frames more : List Bytes) :
    placed offset (frames ++ more) =
      placed offset frames ++ placed (offset + frames.flatten.length) more := by
  induction frames generalizing offset with
  | nil => rfl
  | cons first rest ih =>
      simp only [List.cons_append, placed, ih, List.flatten_cons, List.length_append]
      rw [Nat.add_assoc]

theorem map_snd_placed (offset : Nat) (frames : List Bytes) :
    (placed offset frames).map Prod.snd = frames := by
  induction frames generalizing offset with
  | nil => rfl
  | cons first rest ih => rw [placed, List.map_cons, ih]

/-- A placed frame is what the bytes hold at its offset. -/
theorem bytes_at_placed {offset at' : Nat} {frames : List Bytes} {frame : Bytes}
    (h : (at', frame) ∈ placed offset frames) (front tail : Bytes) (hfront : front.length = offset) :
    ((front ++ frames.flatten ++ tail).drop at').take frame.length = frame := by
  induction frames generalizing offset front with
  | nil => cases h
  | cons first rest ih =>
      rcases List.mem_cons.mp h with heq | h
      · cases heq
        have hbytes : front ++ (frame :: rest).flatten ++ tail =
            front ++ (frame ++ (rest.flatten ++ tail)) := by
          simp
        rw [hbytes, ← hfront, List.drop_left, List.take_left]
      · have hbytes : front ++ (first :: rest).flatten ++ tail =
            (front ++ first) ++ rest.flatten ++ tail := by
          simp
        rw [hbytes]
        apply ih h
        rw [List.length_append, hfront]

/-- The file holds the acknowledged frames one after another, and behind them the bytes of a
failed call. -/
structure Holds (header : Bytes) (log : WriteLog) (frames : List Bytes) (tail : Bytes) : Prop where
  front : log.file.header = header
  body : log.file.body = frames.flatten ++ tail
  counter : log.file.writtenBytes = header.length + frames.flatten.length
  acknowledged : log.acknowledged = placed header.length frames

section Holds

variable {header : Bytes}

theorem holds_create (header : Bytes) : Holds header ⟨.create header, []⟩ [] [] :=
  ⟨rfl, rfl, rfl, rfl⟩

/-- Without bytes of a failed call in the file, a successful call is placed where its offset
says. -/
theorem Holds.write {log : WriteLog} {frames : List Bytes} (h : Holds header log frames [])
    (frame : Bytes) : Holds header (writeStep log ⟨frame, none⟩) (frames ++ [frame]) [] := by
  refine ⟨h.front, ?_, ?_, ?_⟩
  · change log.file.body ++ frame = _
    rw [h.body]
    simp
  · change log.file.writtenBytes + frame.length = header.length + _
    rw [h.counter, List.flatten_append, List.length_append, List.flatten_singleton, Nat.add_assoc]
  · change log.acknowledged ++ [(log.file.writtenBytes, frame)] = placed header.length _
    rw [h.acknowledged, h.counter, placed_append]
    rfl

theorem Holds.fail {log : WriteLog} {frames : List Bytes} {tail : Bytes}
    (h : Holds header log frames tail) (frame : Bytes) (n : Nat) :
    Holds header (writeStep log ⟨frame, some n⟩) frames (tail ++ frame.take n) := by
  refine ⟨h.front, ?_, h.counter, h.acknowledged⟩
  · change log.file.body ++ frame.take n = _
    rw [h.body, List.append_assoc]

theorem Holds.quiet {log : WriteLog} {frames : List Bytes} {tail : Bytes}
    (h : Holds header log frames tail) {calls : List WriteCall}
    (hcalls : ∀ d ∈ calls, d.fails.isSome = true ∧ d.written = []) :
    Holds header (run writeStep log calls) frames tail := by
  induction calls generalizing log with
  | nil => exact h
  | cons c rest ih =>
      obtain ⟨hfails, hwritten⟩ := hcalls c List.mem_cons_self
      obtain ⟨frame, fails⟩ := c
      cases fails with
      | none => cases hfails
      | some n =>
          have hstep := h.fail frame n
          have hnone : frame.take n = [] := hwritten
          rw [hnone, List.append_nil] at hstep
          exact ih hstep fun d hd => hcalls d (List.mem_cons_of_mem _ hd)

/-- What a sequence of calls leaves in the file: the frames of the successful calls, and
behind them at most the beginning of one frame. -/
theorem holds_run {log : WriteLog} {frames : List Bytes} (h : Holds header log frames [])
    {calls : List WriteCall} (hcalls : NothingAfterTear calls) :
    ∃ more tail, Holds header (run writeStep log calls) (frames ++ more) tail ∧
      (∀ f ∈ more, ∃ c ∈ calls, f = c.frame) ∧
      (tail = [] ∨ ∃ c ∈ calls, ∃ n, c.fails = some n ∧ tail = c.frame.take n) := by
  induction calls generalizing log frames with
  | nil => exact ⟨[], [], by simpa using h, by simp, .inl rfl⟩
  | cons c rest ih =>
      obtain ⟨hquiet, hrest⟩ := hcalls
      obtain ⟨frame, fails⟩ := c
      cases fails with
      | none =>
          obtain ⟨more, tail, hholds, hmore, htail⟩ := ih (h.write frame) hrest
          refine ⟨frame :: more, tail, ?_, ?_, ?_⟩
          · rw [List.append_assoc, List.singleton_append] at hholds
            exact hholds
          · intro f hf
            rcases List.mem_cons.mp hf with rfl | hf
            · exact ⟨_, List.mem_cons_self, rfl⟩
            · obtain ⟨c, hc, hframe⟩ := hmore f hf
              exact ⟨c, List.mem_cons_of_mem _ hc, hframe⟩
          · rcases htail with htail | ⟨c, hc, n, hn, htail⟩
            · exact .inl htail
            · exact .inr ⟨c, List.mem_cons_of_mem _ hc, n, hn, htail⟩
      | some n =>
          have hstep := h.fail frame n
          rw [List.nil_append] at hstep
          by_cases hnone : frame.take n = []
          · rw [hnone] at hstep
            obtain ⟨more, tail, hholds, hmore, htail⟩ := ih hstep hrest
            refine ⟨more, tail, hholds, ?_, ?_⟩
            · intro f hf
              obtain ⟨c, hc, hframe⟩ := hmore f hf
              exact ⟨c, List.mem_cons_of_mem _ hc, hframe⟩
            · rcases htail with htail | ⟨c, hc, m, hm, htail⟩
              · exact .inl htail
              · exact .inr ⟨c, List.mem_cons_of_mem _ hc, m, hm, htail⟩
          · refine ⟨[], frame.take n, ?_, by simp, .inr ⟨_, List.mem_cons_self, n, rfl, rfl⟩⟩
            rw [List.append_nil]
            exact hstep.quiet (hquiet rfl hnone)

end Holds

/-! ### Encoded frames -/

section Scan

variable {codec : FrameCodec}

theorem length_frameBytes (codec : FrameCodec) (msgpack : Bytes) :
    (frameBytes codec msgpack).length = frameHeaderBytes + msgpack.length := by
  simp [frameBytes, frameHeaderBytes]
  omega

theorem drop_frameBytes (codec : FrameCodec) (msgpack : Bytes) :
    (frameBytes codec msgpack).drop frameHeaderBytes = msgpack := by
  unfold frameBytes
  apply List.drop_left'
  simp [frameHeaderBytes]

theorem frameBytes_take (codec : FrameCodec) (msgpack rest : Bytes) :
    (frameBytes codec msgpack ++ rest).take 4 = toBeBytes 4 msgpack.length := by
  unfold frameBytes
  rw [List.append_assoc, List.append_assoc]
  exact List.take_left' (length_toBeBytes 4 _)

theorem payloadLen_frameBytes (codec : FrameCodec) {msgpack : Bytes}
    (hfits : msgpack.length ≤ maxFramePayload) (rest : Bytes) :
    ofBeBytes ((frameBytes codec msgpack ++ rest).take 4) = msgpack.length := by
  rw [frameBytes_take]
  apply ofBeBytes_toBeBytes
  unfold maxFramePayload at hfits
  omega

/-- An encoded frame decodes to its payload. -/
theorem frameDecode_frameBytes {msgpack : Bytes} (hfits : msgpack.length ≤ maxFramePayload) :
    codec.frameDecode (frameBytes codec msgpack) =
      .ok (msgpack, frameHeaderBytes + msgpack.length) := by
  have hlength := length_frameBytes codec msgpack
  have hlen : ofBeBytes ((frameBytes codec msgpack).take 4) = msgpack.length := by
    have h := payloadLen_frameBytes codec hfits []
    rwa [List.append_nil] at h
  have hcrc : ofBeBytes (((frameBytes codec msgpack).drop 4).take 4) =
      (codec.crc msgpack).toNat := by
    unfold frameBytes
    rw [List.append_assoc, List.drop_left' (length_toBeBytes 4 _),
      List.take_left' (length_toBeBytes 4 _)]
    apply ofBeBytes_toBeBytes
    have hbound := (codec.crc msgpack).toNat_lt
    omega
  have hpayload : ((frameBytes codec msgpack).take (frameHeaderBytes + msgpack.length)).drop
      frameHeaderBytes = msgpack := by
    rw [← hlength, List.take_length, drop_frameBytes]
  unfold FrameCodec.frameDecode
  rw [if_neg (by omega)]
  dsimp only
  rw [hlen, hcrc, hpayload, if_neg (by omega), if_pos rfl]

end Scan

namespace SegmentReader

variable {r : SegmentReader} {segmentId : Nat}

theorem readExactAt_front {front rest buf : Bytes} {pos len : Nat}
    (h : readExactAt front pos len = .ok buf) : readExactAt (front ++ rest) pos len = .ok buf := by
  unfold readExactAt at h
  by_cases hin : pos + len ≤ front.length
  · rw [if_pos hin] at h
    cases h
    rw [readExactAt, if_pos (by rw [List.length_append]; omega),
      List.drop_append_of_le_length (by omega), List.take_append_of_le_length]
    rw [List.length_drop]
    omega
  · rw [if_neg hin] at h
    cases h

/-- The header of a file is read from its front. -/
theorem readSegmentHeader_front {front : Bytes} {framesStart : Nat}
    (h : r.readSegmentHeader segmentId front = .ok framesStart) (rest : Bytes) :
    r.readSegmentHeader segmentId (front ++ rest) = .ok framesStart := by
  unfold readSegmentHeader at h ⊢
  obtain ⟨magic, hmagic, h⟩ := bindOk_iff.mp h
  obtain ⟨hfbat, h⟩ := ifError_ok_iff.mp h
  obtain ⟨headerLen, hlen, h⟩ := bindOk_iff.mp h
  obtain ⟨hshort, h⟩ := ifError_ok_iff.mp h
  obtain ⟨headerBuf, hbuf, h⟩ := bindOk_iff.mp h
  refine bindOk_iff.mpr ⟨magic, readExactAt_front hmagic, ifError_ok_iff.mpr ⟨hfbat, ?_⟩⟩
  refine bindOk_iff.mpr ⟨headerLen, readExactAt_front hlen, ifError_ok_iff.mpr ⟨hshort, ?_⟩⟩
  exact bindOk_iff.mpr ⟨headerBuf, readExactAt_front hbuf, h⟩

/-- The last four bytes are the magic of a footer, of either kind. -/
def EndsInMagic (file : Bytes) : Prop :=
  file.drop (file.length - 4) = Sidx.sidxMagic ∨
    file.drop (file.length - 4) = Sidx.sidxMagicLegacy

instance decidableEndsInMagic (file : Bytes) : Decidable (EndsInMagic file) :=
  inferInstanceAs (Decidable (_ ∨ _))

theorem detectSidxBoundary_none {file : Bytes} (h : ¬EndsInMagic file) :
    r.detectSidxBoundary file segmentId = .ok none := by
  unfold detectSidxBoundary
  by_cases hshort : file.length < Sidx.trailerSize
  · rw [if_pos hshort]
  have hlast : ((file.drop (file.length - Sidx.trailerSize)).take Sidx.trailerSize).drop 12 =
      file.drop (file.length - 4) := by
    have hsize : Sidx.trailerSize = 16 := rfl
    rw [List.take_of_length_le (by rw [List.length_drop]; omega), List.drop_drop]
    congr 1
    omega
  rw [if_neg hshort]
  dsimp only
  rw [hlast, if_pos (not_or.mp h)]

/-! ### What the scan finds -/

/-- The frames one after another in the hands of the index scan. -/
def handleAll (r : SegmentReader) (segmentId : Nat) :
    List (Nat × Bytes) → BatchRecoveryState →
      Except StoreError (BatchRecoveryState × List ScannedIndexEntry)
  | [], st => .ok (st, [])
  | (offset, msgpack) :: rest, st => do
      let (st, found) ← r.indexHandle segmentId offset (frameHeaderBytes + msgpack.length) msgpack st
      let (st, more) ← handleAll r segmentId rest st
      return (st, found ++ more)

/-- The scan reads these frames, each at its offset, and no others: from whatever batch state,
it comes out as their handling does. -/
def ScanReads (r : SegmentReader) (policy : FrameScanTailPolicy) (segmentId : Nat) (file : Bytes)
    (found : List (Nat × Bytes)) : Prop :=
  ∃ stop, ∀ st, r.frameScan policy segmentId st file =
    (r.handleAll segmentId found st).map fun out => (stop, out)

section Loop

variable {recoverTornTail : Bool} {refuse : Nat → String → StoreError} {msgpack : Bytes}

theorem nextFrame_frameBytes (hfits : msgpack.length ≤ maxFramePayload) (front rest : Bytes) :
    r.nextFrame recoverTornTail refuse segmentId
        (front ++ (frameBytes r.frameCodec msgpack ++ rest)).length
        (front ++ (frameBytes r.frameCodec msgpack ++ rest)) front.length =
      .ok (.frame msgpack (frameHeaderBytes + msgpack.length)) := by
  have hlength := length_frameBytes r.frameCodec msgpack
  have hheader : frameHeaderBytes = 8 := rfl
  have hlong : (front ++ (frameBytes r.frameCodec msgpack ++ rest)).length =
      front.length + (8 + msgpack.length + rest.length) := by
    rw [List.length_append, List.length_append, hlength, hheader]
  have htake : (frameBytes r.frameCodec msgpack ++ rest).take (8 + msgpack.length) =
      frameBytes r.frameCodec msgpack := List.take_left' hlength
  unfold nextFrame
  rw [hlong, if_neg (by omega), if_neg (by omega), List.drop_left,
    payloadLen_frameBytes r.frameCodec hfits rest]
  dsimp only
  rw [if_neg (by omega), if_neg (by omega), if_neg (by omega), htake, frameDecode_frameBytes hfits]

/-- The beginning of a frame ends a scan that recovers torn tails. -/
theorem nextFrame_torn (hfits : msgpack.length ≤ maxFramePayload) {n : Nat}
    (hshort : n < (frameBytes r.frameCodec msgpack).length) (front : Bytes) :
    r.nextFrame true refuse segmentId (front ++ (frameBytes r.frameCodec msgpack).take n).length
        (front ++ (frameBytes r.frameCodec msgpack).take n) front.length = .ok .stop := by
  have hlength := length_frameBytes r.frameCodec msgpack
  have hheader : frameHeaderBytes = 8 := rfl
  have hlong : (front ++ (frameBytes r.frameCodec msgpack).take n).length = front.length + n := by
    rw [List.length_append, List.length_take]
    omega
  unfold nextFrame
  rw [hlong]
  by_cases hnone : n = 0
  · rw [if_pos (by omega)]
  rw [if_neg (by omega)]
  by_cases hpart : n < 8
  · rw [if_pos (by omega)]
  have hlen : ofBeBytes (((frameBytes r.frameCodec msgpack).take n).take 4) = msgpack.length := by
    have h := payloadLen_frameBytes r.frameCodec hfits []
    rw [List.append_nil] at h
    rwa [List.take_take, Nat.min_eq_left (by omega)]
  rw [if_neg (by omega), List.drop_left, hlen]
  dsimp only
  rw [if_neg (by omega), if_pos (by omega), if_pos ⟨rfl, rfl⟩]

/-- The loop reads frame after frame and stops where it finds no more. -/
theorem frameRounds_frames {file tail : Bytes} {frames : List Bytes}
    (hframes : ∀ f ∈ frames, Scannable r.frameCodec f) {front : Bytes}
    (hfile : file = front ++ (frames.flatten ++ tail))
    (hend : r.nextFrame recoverTornTail refuse segmentId file.length file
      (front.length + frames.flatten.length) = .ok .stop)
    {rounds : Nat} (hrounds : frames.flatten.length ≤ rounds) :
    ∃ found, found.map (fun a => (a.1, frameBytes r.frameCodec a.2)) = placed front.length frames ∧
      ∀ st, frameRounds (r.nextFrame recoverTornTail refuse segmentId file.length file)
          (r.indexHandle segmentId) rounds front.length st =
        (r.handleAll segmentId found st).map
          fun out => (front.length + frames.flatten.length, out) := by
  induction frames generalizing front rounds with
  | nil =>
      refine ⟨[], rfl, fun st => ?_⟩
      cases rounds with
      | zero => rfl
      | succ rounds =>
          rw [frameRounds, show front.length = front.length + ([] : List Bytes).flatten.length
            from rfl, hend]
          rfl
  | cons frame rest ih =>
      obtain ⟨msgpack, rfl, hfits⟩ := hframes frame List.mem_cons_self
      have hlength := length_frameBytes r.frameCodec msgpack
      have hheader : frameHeaderBytes = 8 := rfl
      rw [List.flatten_cons] at hfile hend hrounds
      rw [List.length_append, hlength] at hend hrounds
      obtain ⟨rounds, rfl⟩ : ∃ left, rounds = left + 1 := ⟨rounds - 1, by omega⟩
      have hfront : (front ++ frameBytes r.frameCodec msgpack).length =
          front.length + (frameHeaderBytes + msgpack.length) := by
        rw [List.length_append, hlength]
      have hnext := @nextFrame_frameBytes r segmentId recoverTornTail refuse msgpack hfits front
        (rest.flatten ++ tail)
      rw [List.append_assoc] at hfile
      rw [← hfile] at hnext
      have hbehind : file = front ++ frameBytes r.frameCodec msgpack ++ (rest.flatten ++ tail) := by
        rw [hfile, List.append_assoc]
      have hlast : r.nextFrame recoverTornTail refuse segmentId file.length file
          ((front ++ frameBytes r.frameCodec msgpack).length + rest.flatten.length) = .ok .stop := by
        rw [hfront, Nat.add_assoc]
        exact hend
      have hleft : rest.flatten.length ≤ rounds := by omega
      obtain ⟨found, hplaced, hrest⟩ :=
        ih (fun f hf => hframes f (List.mem_cons_of_mem _ hf)) hbehind hlast hleft
      rw [hfront] at hplaced hrest
      refine ⟨(front.length, msgpack) :: found, ?_, fun st => ?_⟩
      · rw [List.map_cons, hplaced, placed, hlength]
      · rw [frameRounds, hnext, handleAll, List.flatten_cons, List.length_append, hlength]
        cases hhandle : r.indexHandle segmentId front.length (frameHeaderBytes + msgpack.length)
            msgpack st with
        | error e =>
            simp [bind, Except.bind, hhandle, Except.map]
        | ok out =>
            simp only [bind, Except.bind, hhandle, hrest]
            cases r.handleAll segmentId found out.1 with
            | error e => rfl
            | ok more => simp [Except.map, pure, Except.pure, Nat.add_assoc]

end Loop

/-- A scan of a file without the magic of a footer at its end reads the frames behind its
header. -/
theorem frameScan_frames {policy : FrameScanTailPolicy} {header file tail : Bytes}
    {frames : List Bytes} (hheader : r.readSegmentHeader segmentId header = .ok header.length)
    (hframes : ∀ f ∈ frames, Scannable r.frameCodec f) (hmagic : ¬EndsInMagic file)
    (hfile : file = header ++ (frames.flatten ++ tail))
    (hend : r.nextFrame policy.canRecoverTornTail (.corruptFrame segmentId) segmentId file.length
      file (header.length + frames.flatten.length) = .ok .stop) :
    ∃ found, found.map (fun a => (a.1, frameBytes r.frameCodec a.2)) =
        placed header.length frames ∧ ScanReads r policy segmentId file found := by
  have hlength := congrArg List.length hfile
  rw [List.length_append, List.length_append] at hlength
  obtain ⟨found, hplaced, hrounds⟩ := frameRounds_frames hframes hfile hend
    (show frames.flatten.length ≤ file.length by omega)
  refine ⟨found, hplaced, header.length + frames.flatten.length, fun st => ?_⟩
  have hstart : r.readSegmentHeader segmentId file = .ok header.length := by
    rw [hfile]
    exact readSegmentHeader_front hheader _
  have hstop : r.framesEnd file header.length segmentId none (!policy.canRecoverTornTail) "" =
      .ok file.length := if_neg (by omega)
  unfold frameScan
  rw [detectSidxBoundary_none hmagic, hstart]
  change (r.framesEnd file header.length segmentId none (!policy.canRecoverTornTail) "" >>= _) = _
  rw [hstop]
  exact hrounds st

/-- The metadata of an event: no batch marker, and with its hash chain. -/
def readsEvent (r : SegmentReader) (frame : Bytes) : Bool :=
  match r.fromBytes frameSerde (frame.drop frameHeaderBytes) with
  | .ok f => !f.event.header.kind.isBatchMarker && f.event.hashChain.isSome
  | .error _ => false

/-- Outside a batch every event has its entry. -/
theorem handleAll_events {found : List (Nat × Bytes)} {st : BatchRecoveryState}
    (hevents : ∀ a ∈ found, r.readsEvent (frameBytes r.frameCodec a.2) = true)
    (hst : st.inBatch = false) :
    ∃ entries, r.handleAll segmentId found st = .ok (st, entries) ∧
      entries.map (·.diskPos) =
        found.map fun a => ⟨segmentId, a.1, (frameBytes r.frameCodec a.2).length⟩ := by
  induction found with
  | nil => exact ⟨[], rfl, rfl⟩
  | cons a rest ih =>
      obtain ⟨offset, msgpack⟩ := a
      obtain ⟨entries, hrest, hplaces⟩ := ih fun a ha => hevents a (List.mem_cons_of_mem _ ha)
      have hevent := hevents _ List.mem_cons_self
      have hhandle : ∃ e : ScannedIndexEntry, e.diskPos = ⟨segmentId, offset,
          frameHeaderBytes + msgpack.length⟩ ∧ r.indexHandle segmentId offset
            (frameHeaderBytes + msgpack.length) msgpack st = .ok (st, [e]) := by
        unfold readsEvent at hevent
        rw [drop_frameBytes] at hevent
        unfold indexHandle
        cases hread : r.fromBytes frameSerde msgpack with
        | error e =>
            rw [hread] at hevent
            cases hevent
        | ok f =>
            rw [hread] at hevent
            simp only [Bool.and_eq_true, Bool.not_eq_true'] at hevent
            obtain ⟨hkind, hchain⟩ := hevent
            obtain ⟨chain, hchain⟩ := Option.isSome_iff_exists.mp hchain
            dsimp only
            rw [hkind, hchain]
            exact ⟨_, rfl, @scanFrame_single (indexFrame f chain, _) st hkind hst⟩
      obtain ⟨e, hplace, hhandle⟩ := hhandle
      refine ⟨e :: entries, ?_, ?_⟩
      · rw [handleAll, hhandle]
        simp only [bind, Except.bind, hrest]
        rfl
      · rw [List.map_cons, List.map_cons, hplaces, hplace, length_frameBytes]

/-- The scan reads the acknowledged frames at their offsets. -/
structure ScanFinds (r : SegmentReader) (policy : FrameScanTailPolicy) (segmentId : Nat)
    (file : Bytes) (acknowledged found : List (Nat × Bytes)) : Prop where
  reads : ScanReads r policy segmentId file found
  all : ∀ a ∈ acknowledged, a ∈ found.map fun b => (b.1, frameBytes r.frameCodec b.2)

/-- The scan comes through, with an entry for every acknowledged frame. -/
def EntriesFor (r : SegmentReader) (policy : FrameScanTailPolicy) (segmentId : Nat) (file : Bytes)
    (acknowledged : List (Nat × Bytes)) : Prop :=
  ∀ st, st.inBatch = false → ∃ stop entries,
    r.frameScan policy segmentId st file = .ok (stop, st, entries) ∧
      ∀ a ∈ acknowledged, ∃ e ∈ entries, e.diskPos = ⟨segmentId, a.1, a.2.length⟩

theorem ScanFinds.entriesFor {policy : FrameScanTailPolicy} {file : Bytes}
    {acknowledged found : List (Nat × Bytes)}
    (h : ScanFinds r policy segmentId file acknowledged found)
    (hevents : ∀ a ∈ found, r.readsEvent (frameBytes r.frameCodec a.2) = true) :
    EntriesFor r policy segmentId file acknowledged := by
  intro st hst
  obtain ⟨stop, hscan⟩ := h.reads
  obtain ⟨entries, hall, hplaces⟩ := handleAll_events hevents hst
  refine ⟨stop, entries, by rw [hscan, hall]; rfl, ?_⟩
  intro a ha
  obtain ⟨b, hb, rfl⟩ := List.mem_map.mp (h.all a ha)
  have hplace : (⟨segmentId, b.1, (frameBytes r.frameCodec b.2).length⟩ : DiskPos) ∈
      entries.map (·.diskPos) := by
    rw [hplaces]
    exact List.mem_map_of_mem hb
  obtain ⟨e, he, hpos⟩ := List.mem_map.mp hplace
  exact ⟨e, he, hpos⟩

/-- Behind the last frame the scan takes the bytes of a failed call for a torn tail, or for a
frame if they are a whole one. -/
theorem torn_stops {calls : List WriteCall} {tail : Bytes}
    (hframes : ∀ c ∈ calls, Scannable r.frameCodec c.frame)
    (htail : tail = [] ∨ ∃ c ∈ calls, ∃ n, c.fails = some n ∧ tail = c.frame.take n) :
    ∃ (whole : List Bytes) (torn : Bytes), tail = whole.flatten ++ torn ∧
      (∀ f ∈ whole, ∃ c ∈ calls, f = c.frame) ∧
      ∀ front refuse, r.nextFrame true refuse segmentId (front ++ torn).length (front ++ torn)
        front.length = .ok .stop := by
  have hnothing : ∀ front refuse, r.nextFrame true refuse segmentId (front ++ []).length
      (front ++ []) front.length = .ok .stop := by
    intro front refuse
    rw [List.append_nil]
    exact nextFrame_stop ..
  rcases htail with rfl | ⟨c, hc, n, -, rfl⟩
  · exact ⟨[], [], rfl, by simp, hnothing⟩
  · obtain ⟨msgpack, hframe, hfits⟩ := hframes c hc
    by_cases hshort : n < c.frame.length
    · refine ⟨[], c.frame.take n, rfl, by simp, fun front refuse => ?_⟩
      rw [hframe] at hshort ⊢
      exact nextFrame_torn hfits hshort front
    · refine ⟨[c.frame], [], ?_, ?_, hnothing⟩
      · rw [List.flatten_singleton, List.append_nil, List.take_of_length_le (by omega)]
      · intro f hf
        exact ⟨c, hc, List.mem_singleton.mp hf⟩

end SegmentReader

/-! ### Acknowledged frames -/

open SegmentReader

/-- In every sequence of calls in which nothing is written behind the bytes of a failed call,
the file holds every acknowledged frame at the offset it was acknowledged with. If the file does
not end like a footer, the scan that recovers torn tails finds all of them, and one that does not
recover them finds exactly the acknowledged frames when no failed call left a byte. -/
theorem acknowledged_frames_found (r : SegmentReader) (segmentId : Nat) (header : Bytes)
    (hheader : r.readSegmentHeader segmentId header = .ok header.length) (calls : List WriteCall)
    (hframes : ∀ c ∈ calls, Scannable r.frameCodec c.frame) (hcalls : NothingAfterTear calls) :
    let log := run writeStep ⟨.create header, []⟩ calls
    (∀ a ∈ log.acknowledged, (log.file.bytes.drop a.1).take a.2.length = a.2) ∧
      (¬EndsInMagic log.file.bytes →
        (∃ found, ScanFinds r .recoverTornTail segmentId log.file.bytes log.acknowledged found) ∧
        ((∀ c ∈ calls, r.readsEvent c.frame = true) →
          EntriesFor r .recoverTornTail segmentId log.file.bytes log.acknowledged) ∧
        ((∀ c ∈ calls, c.fails.isSome = true → c.written = []) →
          ∃ found, ScanReads r .failClosed segmentId log.file.bytes found ∧
            found.map (fun a => (a.1, frameBytes r.frameCodec a.2)) = log.acknowledged)) := by
  intro log
  obtain ⟨frames, tail, hholds, hmore, htail⟩ := holds_run (holds_create header) hcalls
  rw [List.nil_append] at hholds
  change Holds header log frames tail at hholds
  have hfile : log.file.bytes = header ++ (frames.flatten ++ tail) := by
    rw [ActiveFile.bytes, hholds.front, hholds.body]
  have hacknowledged := hholds.acknowledged
  have hscannable : ∀ f, (∃ c ∈ calls, f = c.frame) → Scannable r.frameCodec f := by
    rintro f ⟨c, hc, rfl⟩
    exact hframes c hc
  refine ⟨?_, fun hmagic => ?_⟩
  · intro a ha
    obtain ⟨offset, frame⟩ := a
    rw [hacknowledged] at ha
    have hat := bytes_at_placed ha header tail rfl
    rwa [List.append_assoc, ← hfile] at hat
  obtain ⟨whole, torn, rfl, hwhole, hstops⟩ := @torn_stops r segmentId calls tail hframes htail
  have hread : ∀ f ∈ frames ++ whole, ∃ c ∈ calls, f = c.frame := by
    intro f hf
    rcases List.mem_append.mp hf with hf | hf
    · exact hmore f hf
    · exact hwhole f hf
  have hsplit : log.file.bytes = header ++ ((frames ++ whole).flatten ++ torn) := by
    rw [hfile, List.flatten_append, List.append_assoc]
  have hend : r.nextFrame true (.corruptFrame segmentId) segmentId log.file.bytes.length
      log.file.bytes (header.length + (frames ++ whole).flatten.length) = .ok .stop := by
    have h := hstops (header ++ (frames ++ whole).flatten) (.corruptFrame segmentId)
    rwa [List.append_assoc, ← hsplit, List.length_append] at h
  obtain ⟨found, hplaced, hreads⟩ := @frameScan_frames r segmentId .recoverTornTail _ _ _ _
    hheader (fun f hf => hscannable f (hread f hf)) hmagic hsplit hend
  have hfinds : ScanFinds r .recoverTornTail segmentId log.file.bytes log.acknowledged found := by
    refine ⟨hreads, fun a ha => ?_⟩
    rw [hplaced, placed_append, ← hacknowledged]
    exact List.mem_append_left _ ha
  refine ⟨⟨found, hfinds⟩, fun hevents => hfinds.entriesFor fun a ha => ?_, fun hnone => ?_⟩
  · have hmem : frameBytes r.frameCodec a.2 ∈ frames ++ whole := by
      rw [← map_snd_placed header.length (frames ++ whole), ← hplaced, List.map_map]
      exact List.mem_map_of_mem ha
    obtain ⟨c, hc, hframe⟩ := hread _ hmem
    rw [hframe]
    exact hevents c hc
  · have hempty : whole.flatten ++ torn = [] := by
      rcases htail with htail | ⟨c, hc, n, hn, htail⟩
      · exact htail
      · have hwritten := hnone c hc (by rw [hn]; rfl)
        unfold WriteCall.written at hwritten
        rw [hn] at hwritten
        exact htail.trans hwritten
    rw [hempty] at hfile
    have hlast : r.nextFrame false (.corruptFrame segmentId) segmentId log.file.bytes.length
        log.file.bytes (header.length + frames.flatten.length) = .ok .stop := by
      have hlength := congrArg List.length hfile
      rw [List.append_nil, List.length_append] at hlength
      rw [← hlength]
      exact nextFrame_stop ..
    obtain ⟨found', hplaced', hreads'⟩ := @frameScan_frames r segmentId .failClosed _ _ _ _
      hheader (fun f hf => hscannable f (hmore f hf)) hmagic hfile hlast
    exact ⟨found', hreads', hplaced'.trans hacknowledged.symm⟩

/-! ### A write behind a torn one -/

/-- The metadata of an event with the given id. -/
def smallEvent (eventId : Nat) : Bytes :=
  Msgpack.write (frameSerde.ser (storedFrame { oneFrame with eventId := eventId }))

def smallFrame (eventId : Nat) : Bytes :=
  frameBytes footerReader.frameCodec (smallEvent eventId)

/-- A write that succeeds, one that fails without a byte, one that succeeds, one that stops
after nine bytes. -/
def tornLast : List WriteCall :=
  [⟨smallFrame 7, none⟩, ⟨smallFrame 8, some 0⟩, ⟨smallFrame 8, none⟩, ⟨smallFrame 9, some 9⟩]

/-- What the calls leave behind the header of a segment. -/
def writesOf (calls : List WriteCall) : WriteLog :=
  run writeStep ⟨.create oneHeader, []⟩ calls

theorem frames_before_tear_found :
    (writesOf tornLast).acknowledged = [(49, smallFrame 7), (475, smallFrame 8)] ∧
      EntriesFor footerReader .recoverTornTail 1 (writesOf tornLast).file.bytes
        (writesOf tornLast).acknowledged := by
  have hframes : ∀ c ∈ tornLast, Scannable footerReader.frameCodec c.frame := by
    intro c hc
    simp only [tornLast, List.mem_cons, List.not_mem_nil, or_false] at hc
    rcases hc with rfl | rfl | rfl | rfl
    · exact ⟨smallEvent 7, rfl, by decide +kernel⟩
    · exact ⟨smallEvent 8, rfl, by decide +kernel⟩
    · exact ⟨smallEvent 8, rfl, by decide +kernel⟩
    · exact ⟨smallEvent 9, rfl, by decide +kernel⟩
  exact ⟨by decide +kernel, ((acknowledged_frames_found footerReader 1 oneHeader
    (by decide +kernel) tornLast hframes (by decide +kernel)).2 (by decide +kernel)).2.1
      (by decide +kernel)⟩

/-- The same frame written again after a write of it stopped after three bytes. -/
def retriedWrite : List WriteCall :=
  [⟨smallFrame 7, some 3⟩, ⟨smallFrame 7, none⟩]

/-- The retry is acknowledged at the offset of the torn bytes: the file does not hold the frame
there, and no scan comes through. -/
theorem retry_behind_torn_write_misplaced :
    (writesOf retriedWrite).acknowledged = [(49, smallFrame 7)] ∧
      ((writesOf retriedWrite).file.bytes.drop 49).take (smallFrame 7).length ≠ smallFrame 7 ∧
      ((writesOf retriedWrite).file.bytes.drop 52).take (smallFrame 7).length = smallFrame 7 ∧
      ∀ policy ∈ [FrameScanTailPolicy.failClosed, .recoverTornTail],
        (footerReader.frameScan policy 1 .initial
          (writesOf retriedWrite).file.bytes).toOption.isNone = true :=
  ⟨by decide +kernel, by decide +kernel, by decide +kernel, by decide +kernel⟩

end Batpak.Store
