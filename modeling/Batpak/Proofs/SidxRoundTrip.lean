/-
Module: Batpak.Proofs.SidxRoundTrip
Purpose: A footer written for recorded rows behind any bytes is read back as those rows, each
  with the strings it was recorded with, and its authenticated offset is where it starts.
Trusted boundary: none
Main exports: readLayout_footer, readEntries_encoded
-/
import Batpak.Store.SidxFooter
import Batpak.Util.Scan

namespace Batpak.Store

open Batpak.Util

variable {c c' : SidxEntryCollector}

/-! ### Reading from a file -/

theorem readExactAt_append {before bytes behind : Bytes} {pos len : Nat}
    (hpos : pos = before.length) (hlen : len = bytes.length) :
    readExactAt (before ++ (bytes ++ behind)) pos len = .ok bytes := by
  subst hpos hlen
  simp [readExactAt]

/-- Hashing chunk by chunk is hashing the span at once. -/
theorem hashRounds_eq (crc : Crc32) (file : Bytes) {rounds pos remaining : Nat}
    (hasher : crc.State) (hrounds : remaining ≤ rounds) (hend : pos + remaining ≤ file.length) :
    hashRounds crc file rounds pos remaining hasher
      = .ok (crc.update hasher ((file.drop pos).take remaining)) := by
  induction rounds generalizing pos remaining hasher with
  | zero =>
      have hzero : remaining = 0 := Nat.le_zero.mp hrounds
      subst hzero
      rw [hashRounds, List.take_zero, crc.update_nil]
  | succ rounds ih =>
      by_cases hzero : remaining = 0
      · subst hzero
        rw [hashRounds, if_pos rfl, List.take_zero, crc.update_nil]
      · have htake : pos + min remaining 8192 ≤ file.length := by omega
        have hrest := @ih (pos + min remaining 8192) (remaining - min remaining 8192)
          (crc.update hasher ((file.drop pos).take (min remaining 8192))) (by omega) (by omega)
        rw [hashRounds, if_neg hzero, readExactAt, if_pos htake]
        change hashRounds .. = _
        rw [hrest, ← crc.update_append, ← List.drop_drop]
        congr 2
        rw [← List.take_add]
        congr 1
        omega

namespace Sidx

/-! ### What the collector resolves -/

namespace SidxEntryCollector

/-- The map points at the strings. -/
def Interned (c : SidxEntryCollector) : Prop :=
  ∀ s idx, c.stringMap.lookup s = some idx → c.strings[idx.toNat]? = some s

theorem interned_new : new.Interned := by
  intro s idx h
  cases h

theorem intern_ok {s : String} {idx : UInt32} (hc : c.Interned) (h : c.intern s = (.ok idx, c')) :
    c'.Interned ∧ c'.strings[idx.toNat]? = some s ∧ c.strings <+: c'.strings ∧
      c'.entries = c.entries := by
  unfold intern at h
  cases hlookup : c.stringMap.lookup s with
  | some found =>
      rw [hlookup] at h
      cases h
      exact ⟨hc, hc s idx hlookup, List.prefix_refl _, rfl⟩
  | none =>
      rw [hlookup] at h
      by_cases hroom : c.strings.length < 2 ^ 32
      · simp only [hroom, if_true] at h
        cases h
        have hidx : (UInt32.ofNat c.strings.length).toNat = c.strings.length := by
          rw [UInt32.toNat_ofNat']
          omega
        refine ⟨?_, by simp [hidx], List.prefix_append _ _, rfl⟩
        intro t idx ht
        rw [List.lookup_cons] at ht
        by_cases heq : t = s
        · subst heq
          simp only [beq_self_eq_true, Option.some.injEq] at ht
          subst ht
          simp [hidx]
        · have hold : c.stringMap.lookup t = some idx := by
            simpa only [beq_false_of_ne heq] using ht
          have hfound := hc t idx hold
          have hlt := (List.getElem?_eq_some_iff.mp hfound).1
          rw [List.getElem?_append_left hlt]
          exact hfound
      · rw [if_neg hroom] at h
        cases h

end SidxEntryCollector

/-- The row as it was recorded, its two indexes pointing at the strings it was recorded with. -/
def Resolved (strings : List String) (row : SidxEntry × Coordinate) (e : SidxEntry) : Prop :=
  e = { row.1 with entityIdx := e.entityIdx, scopeIdx := e.scopeIdx } ∧
    strings[e.entityIdx.toNat]? = some row.2.entity ∧
    strings[e.scopeIdx.toNat]? = some row.2.scope

theorem getElem?_of_isPrefix {α : Type} {xs ys : List α} {i : Nat} {a : α} (h : xs <+: ys)
    (hget : xs[i]? = some a) : ys[i]? = some a := by
  obtain ⟨more, rfl⟩ := h
  rw [List.getElem?_append_left (List.getElem?_eq_some_iff.mp hget).1]
  exact hget

theorem Resolved.mono {strings more : List String} {row : SidxEntry × Coordinate} {e : SidxEntry}
    (h : Resolved strings row e) (hmore : strings <+: more) : Resolved more row e :=
  ⟨h.1, getElem?_of_isPrefix hmore h.2.1, getElem?_of_isPrefix hmore h.2.2⟩

namespace SidxEntryCollector

theorem record_ok {row : SidxEntry × Coordinate} (hc : c.Interned)
    (h : c.record row.1 row.2.entity row.2.scope = (.ok (), c')) :
    c'.Interned ∧ c.strings <+: c'.strings ∧
      ∃ e, c'.entries = c.entries ++ [e] ∧ Resolved c'.strings row e := by
  unfold record at h
  rcases hentity : c.intern row.2.entity with ⟨entity, c₁⟩
  rw [hentity] at h
  cases entity with
  | error e => cases h
  | ok entityIdx =>
      rcases hscope : c₁.intern row.2.scope with ⟨scope, c₂⟩
      simp only [hscope] at h
      cases scope with
      | error e => cases h
      | ok scopeIdx =>
          cases h
          obtain ⟨hc₁, hget₁, hmore₁, hentries₁⟩ := intern_ok hc hentity
          obtain ⟨hc₂, hget₂, hmore₂, hentries₂⟩ := intern_ok hc₁ hscope
          refine ⟨hc₂, hmore₁.trans hmore₂, _, by rw [hentries₂, hentries₁], rfl, ?_, hget₂⟩
          exact getElem?_of_isPrefix hmore₂ hget₁

/-- Every row of a run resolves in the final table. -/
theorem recordAll_resolves {rows : List (SidxEntry × Coordinate)} (hc : c.Interned)
    (h : c.recordAll rows = .ok c') :
    c.strings <+: c'.strings ∧
      ∃ added, c'.entries = c.entries ++ added ∧ List.Forall₂ (Resolved c'.strings) rows added := by
  induction rows generalizing c with
  | nil =>
      cases h
      exact ⟨List.prefix_refl _, [], by simp, .nil⟩
  | cons row rows ih =>
      obtain ⟨entry, coord⟩ := row
      rw [recordAll] at h
      rcases hrecord : c.record entry coord.entity coord.scope with ⟨result, c₁⟩
      rw [hrecord] at h
      cases result with
      | error e => cases h
      | ok u =>
          obtain ⟨hc₁, hmore₁, e, hentries₁, hresolved⟩ := @record_ok c c₁ (entry, coord) hc hrecord
          obtain ⟨hmore, added, hentries, hall⟩ := ih hc₁ h
          refine ⟨hmore₁.trans hmore, e :: added, ?_, .cons (hresolved.mono hmore) hall⟩
          rw [hentries, hentries₁, List.append_assoc, List.singleton_append]

end SidxEntryCollector

/-! ### The layout of a written footer -/

@[simp] theorem length_footerBody (table : Bytes) (entries : List SidxEntry) :
    (footerBody table entries).length = table.length + entries.length * entrySize := by
  rw [footerBody, List.length_append, length_flatMap_blocks SidxEntry.length_encodeInto]

@[simp] theorem length_footerTrailer (offset : UInt64) (count : UInt32) :
    (footerTrailer offset count).length = trailerSize := by
  simp [footerTrailer, trailerSize, sidxMagic, FixedWidth.width]

/-- A footer behind the bytes of the frames. -/
def footerFile (crc : Crc32) (frames table : Bytes) (entries : List SidxEntry) : Bytes :=
  frames ++ (footerBody table entries ++ (putLe (crc.hash (footerBody table entries)) ++
    footerTrailer (UInt64.ofNat frames.length) (UInt32.ofNat entries.length)))

theorem length_footerFile (crc : Crc32) (frames table : Bytes) (entries : List SidxEntry) :
    (footerFile crc frames table entries).length
      = frames.length + (table.length + entries.length * entrySize) + sidxCrcLen + trailerSize := by
  simp only [footerFile, List.length_append, length_footerBody, length_putLe, length_footerTrailer,
    sidxCrcLen, FixedWidth.width]
  omega

theorem writeFooter_ok_iff {codec : MsgpackCodec} {crc : Crc32} {segmentId : Nat}
    {frames file : Bytes} :
    c.writeFooter codec crc segmentId frames = .ok file ↔
      ∃ table, codec.write (stringTable.ser c.strings) = .ok table ∧ c.entries.length < 2 ^ 32 ∧
        file = footerFile crc frames table c.entries ∧ file.length ≤ maxFileLen := by
  unfold SidxEntryCollector.writeFooter
  rw [bindOk_iff]
  constructor
  · rintro ⟨table, htable, h⟩
    have hcount := (ifError_ok_iff.mp h).1
    have hsize := ifError_ok_iff.mp (ifError_ok_iff.mp h).2
    refine ⟨table, mapError_ok_iff.mp htable, Nat.not_le.mp hcount, ?_, ?_⟩
    · cases hsize.2
      rfl
    · cases hsize.2
      rw [List.length_append]
      exact Nat.not_lt.mp hsize.1
  · rintro ⟨table, htable, hcount, hfile, hlength⟩
    subst hfile
    refine ⟨table, mapError_ok_iff.mpr htable, ?_⟩
    rw [if_neg (Nat.not_le.mpr hcount)]
    rw [footerFile, List.length_append] at hlength
    simp only [Nat.not_lt.mpr hlength, if_false]
    rfl

section Layout

variable {crc : Crc32} {frames table : Bytes} {entries : List SidxEntry}

theorem readLayout_footer (segmentId : Nat) (hcount : entries.length < 2 ^ 32)
    (hfile : (footerFile crc frames table entries).length ≤ maxFileLen) :
    readLayout crc segmentId (footerFile crc frames table entries)
      = .ok (some ⟨frames.length, table.length, entries.length⟩) := by
  have hlength := length_footerFile crc frames table entries
  have hmax : maxFileLen < 2 ^ 64 := by decide
  have hoffset : (UInt64.ofNat frames.length).toNat = frames.length := by
    rw [UInt64.toNat_ofNat']
    omega
  have hentries : (UInt32.ofNat entries.length).toNat = entries.length := by
    rw [UInt32.toNat_ofNat']
    omega
  have hwhole : footerFile crc frames table entries
      = frames ++ (footerBody table entries ++ (putLe (crc.hash (footerBody table entries)) ++
        footerTrailer (UInt64.ofNat frames.length) (UInt32.ofNat entries.length))) := rfl
  have htrailer : readExactAt (footerFile crc frames table entries)
      ((footerFile crc frames table entries).length - trailerSize) trailerSize
      = .ok (footerTrailer (UInt64.ofNat frames.length) (UInt32.ofNat entries.length)) := by
    have hread := @readExactAt_append
      (frames ++ (footerBody table entries ++ putLe (crc.hash (footerBody table entries))))
      (footerTrailer (UInt64.ofNat frames.length) (UInt32.ofNat entries.length)) []
      ((footerFile crc frames table entries).length - trailerSize) trailerSize
    simp only [List.append_assoc, List.append_nil] at hread
    apply hread
    · rw [hlength]
      simp [FixedWidth.width, sidxCrcLen]
      omega
    · simp
  have hmagic : (footerTrailer (UInt64.ofNat frames.length) (UInt32.ofNat entries.length)).drop 12
      = sidxMagic := by
    rw [footerTrailer, ← List.append_assoc]
    exact List.drop_left' (by simp [FixedWidth.width])
  have hgetOffset : (getLe UInt64 (footerTrailer (UInt64.ofNat frames.length)
      (UInt32.ofNat entries.length))).1.toNat = frames.length := by
    simp [footerTrailer, hoffset]
  have hgetCount : (getLe UInt32 ((footerTrailer (UInt64.ofNat frames.length)
      (UInt32.ofNat entries.length)).drop 8)).1.toNat = entries.length := by
    rw [footerTrailer, List.drop_left' (by simp [FixedWidth.width])]
    simp [hentries]
  have hstart : (footerFile crc frames table entries).length - trailerSize - sidxCrcLen
      - entries.length * entrySize = frames.length + table.length := by
    omega
  have hhash : hashRounds crc (footerFile crc frames table entries)
      (table.length + entries.length * entrySize) frames.length
      (table.length + entries.length * entrySize) crc.init
      = .ok (crc.update crc.init (footerBody table entries)) := by
    rw [hashRounds_eq crc _ _ (Nat.le_refl _) (by omega), hwhole, List.drop_left' rfl,
      List.take_left' (length_footerBody _ _)]
  have hcrc : readExactAt (footerFile crc frames table entries)
      (frames.length + table.length + entries.length * entrySize) 4
      = .ok (putLe (crc.hash (footerBody table entries))) := by
    have hread := @readExactAt_append (frames ++ footerBody table entries)
      (putLe (crc.hash (footerBody table entries)))
      (footerTrailer (UInt64.ofNat frames.length) (UInt32.ofNat entries.length))
      (frames.length + table.length + entries.length * entrySize) 4
    rw [List.append_assoc] at hread
    apply hread
    · rw [List.length_append, length_footerBody]
      omega
    · simp [FixedWidth.width]
  have hlong : ¬ (footerFile crc frames table entries).length < trailerSize := by omega
  have hblock : ¬ 2 ^ 64 ≤ entries.length * entrySize := by omega
  have hroom : ¬ (footerFile crc frames table entries).length
      < trailerSize + sidxCrcLen + entries.length * entrySize := by omega
  have hpast : ¬ frames.length + table.length < frames.length := by omega
  have hspan : frames.length + table.length - frames.length = table.length := by omega
  unfold readLayout
  rw [if_neg hlong, htrailer, bindOk_iff]
  refine ⟨_, rfl, ?_⟩
  rw [if_neg (not_not_intro hmagic)]
  simp only [hgetOffset, hgetCount, hstart, hspan]
  rw [if_neg hblock, if_neg hroom, if_neg hpast, hhash, bindOk_iff]
  refine ⟨_, rfl, ?_⟩
  rw [hcrc, bindOk_iff]
  refine ⟨_, rfl, ?_⟩
  rw [if_neg]
  rw [getLe_putLe_end]
  exact not_not_intro rfl

/-- Rows that stay inside the table are read back one after another. -/
theorem readEntries_encoded (segmentId : Nat) {strings : List String} {file before behind : Bytes}
    {i pos : Nat} (hinside : ∀ e ∈ entries, e.entityIdx.toNat < strings.length ∧
      e.scopeIdx.toNat < strings.length)
    (hfile : file = before ++ (entries.flatMap SidxEntry.encodeInto ++ behind))
    (hpos : pos = before.length) :
    readEntries segmentId strings file entries.length i pos = .ok entries := by
  induction entries generalizing before i pos with
  | nil => rfl
  | cons e rest ih =>
      obtain ⟨hentity, hscope⟩ := hinside e List.mem_cons_self
      have hread : readExactAt file pos entrySize = .ok e.encodeInto := by
        rw [hfile, List.flatMap_cons, List.append_assoc]
        exact readExactAt_append hpos (SidxEntry.length_encodeInto e).symm
      have hrest : readEntries segmentId strings file rest.length (i + 1) (pos + entrySize)
          = .ok rest := by
        apply @ih (before ++ e.encodeInto)
        · intro e he
          exact hinside e (List.mem_cons_of_mem _ he)
        · rw [hfile, List.flatMap_cons, List.append_assoc, List.append_assoc]
        · rw [List.length_append, SidxEntry.length_encodeInto, hpos]
      have hcheckEntity : checkIdx segmentId i "entity_idx" e.entityIdx strings = .ok () :=
        if_pos hentity
      have hcheckScope : checkIdx segmentId i "scope_idx" e.scopeIdx strings = .ok () :=
        if_pos hscope
      rw [List.length_cons, readEntries, hread, bindOk_iff]
      refine ⟨_, rfl, ?_⟩
      rw [SidxEntry.decodeFrom_encodeInto, bindOk_iff]
      refine ⟨_, rfl, ?_⟩
      rw [hcheckEntity, hcheckScope, hrest]
      rfl

end Layout

/-- What a footer gives back: the rows in order, each resolving to what it was recorded with,
and the offset where the footer starts. -/
def FooterReturns (codec : MsgpackCodec) (crc : Crc32) (segmentId : Nat)
    (rows : List (SidxEntry × Coordinate)) (frames file : Bytes) : Prop :=
  (∃ entries strings, readFooter codec crc segmentId file = .ok (some (entries, strings)) ∧
      List.Forall₂ (Resolved strings) rows entries) ∧
    authenticatedStringTableOffset crc segmentId file = .ok (some frames.length)

theorem inside_of_resolved {strings : List String} {rows : List (SidxEntry × Coordinate)}
    {entries : List SidxEntry} (h : List.Forall₂ (Resolved strings) rows entries) :
    ∀ e ∈ entries, e.entityIdx.toNat < strings.length ∧ e.scopeIdx.toNat < strings.length := by
  induction h with
  | nil =>
      intro e he
      cases he
  | cons hrow _ ih =>
      intro e he
      rcases List.mem_cons.mp he with rfl | htail
      · exact ⟨(List.getElem?_eq_some_iff.mp hrow.2.1).1, (List.getElem?_eq_some_iff.mp hrow.2.2).1⟩
      · exact ih e htail

theorem sidx_footer_round_trip (codec : MsgpackCodec) (crc : Crc32) (segmentId : Nat)
    (rows : List (SidxEntry × Coordinate)) (c : SidxEntryCollector) (frames file : Bytes)
    (hrows : SidxEntryCollector.new.recordAll rows = .ok c)
    (hwrite : c.writeFooter codec crc segmentId frames = .ok file) :
    FooterReturns codec crc segmentId rows frames file := by
  obtain ⟨-, added, hentries, hresolved⟩ :=
    SidxEntryCollector.recordAll_resolves SidxEntryCollector.interned_new hrows
  rw [SidxEntryCollector.new, List.nil_append] at hentries
  rw [← hentries] at hresolved
  obtain ⟨table, htable, hcount, hfile, hlength⟩ := writeFooter_ok_iff.mp hwrite
  rw [hfile] at hlength
  have hlayout := readLayout_footer segmentId hcount hlength
  rw [← hfile] at hlayout
  constructor
  · refine ⟨c.entries, c.strings, ?_, hresolved⟩
    have hbuf : readExactAt file frames.length table.length = .ok table := by
      rw [hfile, footerFile, footerBody, List.append_assoc]
      exact readExactAt_append rfl rfl
    have hrowsRead : readEntries segmentId c.strings file c.entries.length 0
        (frames.length + table.length) = .ok c.entries := by
      apply readEntries_encoded segmentId (inside_of_resolved hresolved) _ List.length_append.symm
      · exact putLe (crc.hash (footerBody table c.entries)) ++
          footerTrailer (UInt64.ofNat frames.length) (UInt32.ofNat c.entries.length)
      · rw [hfile, footerFile, footerBody]
        simp only [List.append_assoc]
    unfold readFooter
    rw [hlayout, bindOk_iff]
    refine ⟨_, rfl, ?_⟩
    dsimp only
    rw [hbuf, bindOk_iff]
    refine ⟨_, rfl, ?_⟩
    rw [codec.read_write _ _ htable, bindOk_iff]
    refine ⟨_, rfl, ?_⟩
    rw [stringTable.de_ser c.strings fun _ _ => trivial]
    dsimp only
    rw [hrowsRead]
    rfl
  · rw [authenticatedStringTableOffset, hlayout]

def sampleRow (id : BitVec 128) (causation : BitVec 128) : SidxEntry where
  eventId := id
  entityIdx := 9
  scopeIdx := 9
  kind := 0x1001
  wallMs := 1700000000000
  clock := 3
  dagLane := 1
  dagDepth := 2
  prevHash := Vector.replicate 32 0xab
  eventHash := Vector.replicate 32 0xcd
  frameOffset := 40
  frameLength := 120
  globalSequence := 2 ^ 63
  correlationId := id
  causationId := causation

def sampleRows : List (SidxEntry × Coordinate) :=
  [(sampleRow (2 ^ 127) 0, ⟨"user:1", "chat"⟩), (sampleRow 5 7, ⟨"chat", "user:1"⟩)]

def sampleCollector : SidxEntryCollector where
  entries := [{ sampleRow (2 ^ 127) 0 with entityIdx := 0, scopeIdx := 1 },
    { sampleRow 5 7 with entityIdx := 1, scopeIdx := 0 }]
  strings := ["user:1", "chat"]
  stringMap := [("chat", 1), ("user:1", 0)]

def sampleFile : Bytes :=
  footerFile .ieee [1, 2, 3] (Msgpack.write (stringTable.ser sampleCollector.strings))
    sampleCollector.entries

theorem sidx_footer_round_trip_two_rows :
    FooterReturns (.shortest 4) .ieee 4 sampleRows [1, 2, 3] sampleFile :=
  sidx_footer_round_trip (.shortest 4) .ieee 4 sampleRows sampleCollector [1, 2, 3]
    sampleFile (by decide +kernel)
    (writeFooter_ok_iff.mpr ⟨Msgpack.write (stringTable.ser sampleCollector.strings),
      by decide +kernel, by decide, rfl, by decide +kernel⟩)

end Sidx

end Batpak.Store
