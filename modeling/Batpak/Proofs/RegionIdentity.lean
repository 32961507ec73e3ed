/-
Module: Batpak.Proofs.RegionIdentity
Purpose: Which regions share the identity a cursor checkpoint is bound to.
Trusted boundary: none
Main exports: identity_separates_iff, all_shares_star
-/
import Batpak.Store.Coordinate
import Batpak.Util.Labels
import Batpak.Util.Scan

namespace Batpak.Store

open Batpak.Util

variable {c : Char} {r r' : Region}

/-! ### Components that pass the check -/

theorem validateBytes_ok_iff {bytes : List UInt8} :
    validateBytes bytes = .ok () ↔ ∀ b ∈ bytes, b ≠ 0 ∧ 0x20 ≤ b ∧ b ≠ 0x7F := by
  induction bytes with
  | nil => simp [validateBytes]
  | cons byte rest ih =>
      by_cases hzero : byte = 0
      · simp [validateBytes, hzero]
      · by_cases hcontrol : byte < 0x20 ∨ byte = 0x7F
        · rw [validateBytes, if_neg hzero, if_pos hcontrol]
          simp only [reduceCtorEq, false_iff]
          intro hall
          obtain ⟨-, hlow, hdel⟩ := hall byte (by simp)
          rcases hcontrol with hcontrol | hcontrol
          · exact absurd hlow (UInt8.not_le.mpr hcontrol)
          · exact hdel hcontrol
        · rw [validateBytes, if_neg hzero, if_neg hcontrol, ih]
          rw [not_or] at hcontrol
          simp [hzero, UInt8.not_lt.mp hcontrol.1, hcontrol.2]

/-- No control byte, no path shape, no separator. -/
structure CleanComponent (value : String) : Prop where
  bytes : ∀ b ∈ value.toUTF8.data.toList, b ≠ 0 ∧ 0x20 ≤ b ∧ b ≠ 0x7F
  slash : '/' ∉ value.toList
  dots : ¬ ['.', '.'] <:+: value.toList
  pipe : '|' ∉ value.toList
  equals : '=' ∉ value.toList

theorem validateComponentBytes_ok_iff {value : String} :
    validateComponentBytes value = .ok () ↔ CleanComponent value := by
  constructor
  · intro h
    obtain ⟨⟨⟩, hbytes, h⟩ := bindOk_iff.mp h
    obtain ⟨hpath, h⟩ := ifError_ok_iff.mp h
    obtain ⟨hsep, -⟩ := ifError_ok_iff.mp h
    rw [not_or] at hpath hsep
    exact ⟨validateBytes_ok_iff.mp hbytes, hpath.1, hpath.2, hsep.1, hsep.2⟩
  · intro h
    apply bindOk_iff.mpr
    exists ()
    constructor
    · exact validateBytes_ok_iff.mpr h.bytes
    · simp [h.slash, h.dots, h.pipe, h.equals]

/-- What is asked of one component of a coordinate. -/
structure ValidComponent (value : String) : Prop where
  nonempty : value ≠ ""
  length : value.utf8ByteSize ≤ maxCoordinateComponentLen
  clean : CleanComponent value

theorem validateParts_ok_iff {entity scope : String} :
    Coordinate.validateParts entity scope = .ok () ↔
      ValidComponent entity ∧ ValidComponent scope := by
  rw [Coordinate.validateParts, ifError_ok_iff, ifError_ok_iff, ifError_ok_iff, ifError_ok_iff]
  constructor
  · rintro ⟨hentity, hscope, hlong, hlong', h⟩
    obtain ⟨⟨⟩, hbytes, hbytes'⟩ := bindOk_iff.mp h
    exact ⟨⟨hentity, Nat.not_lt.mp hlong, validateComponentBytes_ok_iff.mp hbytes⟩,
      ⟨hscope, Nat.not_lt.mp hlong', validateComponentBytes_ok_iff.mp hbytes'⟩⟩
  · rintro ⟨h, h'⟩
    exact ⟨h.nonempty, h'.nonempty, Nat.not_lt.mpr h.length, Nat.not_lt.mpr h'.length,
      bindOk_iff.mpr ⟨(), validateComponentBytes_ok_iff.mpr h.clean,
        validateComponentBytes_ok_iff.mpr h'.clean⟩⟩

/-- Everything in front of a valid component that is not empty is one. -/
theorem ValidComponent.of_append {front rest : String} (h : ValidComponent (front ++ rest))
    (hfront : front ≠ "") : ValidComponent front := by
  have hmem : ∀ c, c ∈ front.toList → c ∈ (front ++ rest).toList := by
    intro c hc
    simp [String.toList_append, hc]
  constructor
  · exact hfront
  · have hlength := h.length
    rw [String.utf8ByteSize_append] at hlength
    omega
  · constructor
    · intro b hb
      apply h.clean.bytes
      have hbytes : (front ++ rest).toUTF8.data.toList =
          front.toUTF8.data.toList ++ rest.toUTF8.data.toList := by
        simp [String.toByteArray_append]
      rw [hbytes]
      exact List.mem_append_left _ hb
    · exact fun hc => h.clean.slash (hmem _ hc)
    · intro hdots
      apply h.clean.dots
      rw [String.toList_append]
      exact hdots.trans (List.infix_append_left ..)
    · exact fun hc => h.clean.pipe (hmem _ hc)
    · exact fun hc => h.clean.equals (hmem _ hc)

/-! ### The parts of the identity -/

def factText : Option KindFilter → String
  | some (.exact kind) => "exact:" ++ hexDigits kind.category ++ ":" ++ hexDigits (kind.raw % 2 ^ 12)
  | some (.category category) => "category:" ++ hexDigits category
  | some .any => "any"
  | none => "none"

def clockText : Option ClockRange → String
  | some range => toString range.start ++ "-" ++ toString range.stop
  | none => "*"

def laneText : Option Nat → String
  | some lane => "|lane=" ++ toString lane
  | none => ""

theorem checkpointIdentity_eq (r : Region) :
    r.checkpointIdentity =
      "entity=" ++ r.entityPrefix.getD "*" ++ "|scope=" ++ r.scope.getD "*" ++
        "|fact=" ++ factText r.fact ++ "|clock=" ++ clockText r.clockRange ++ laneText r.lane := by
  obtain ⟨namespaceName, scope, fact, clock, lane⟩ := r
  cases lane <;> cases clock <;> rcases fact with - | (kind | category | -) <;>
    simp only [Region.checkpointIdentity, factText, clockText, laneText, String.append_assoc,
      String.append_empty]

theorem toList_checkpointIdentity (r : Region) :
    r.checkpointIdentity.toList =
      ("entity=".toList ++ ((r.entityPrefix.getD "*").toList ++
        '|' :: ("scope=".toList ++ (r.scope.getD "*").toList)) ++
        '|' :: ("fact=".toList ++ (factText r.fact).toList)) ++
        '|' :: ("clock=".toList ++ (clockText r.clockRange).toList) ++ (laneText r.lane).toList := by
  have hscope : "|scope=".toList = '|' :: "scope=".toList := rfl
  have hfact : "|fact=".toList = '|' :: "fact=".toList := rfl
  have hclock : "|clock=".toList = '|' :: "clock=".toList := rfl
  rw [checkpointIdentity_eq]
  simp only [String.toList_append, hscope, hfact, hclock, List.append_assoc, List.cons_append]

@[simp] theorem toList_hexDigits (n : Nat) : (hexDigits n).toList = Nat.toDigits 16 n := by
  simp [hexDigits]

@[simp] theorem toList_decimal (n : Nat) : (toString n).toList = Nat.toDigits 10 n :=
  Nat.toList_repr

theorem notMem_hex {n : Nat} (hc : ∀ d : Fin 16, c ≠ Nat.digitChar d) :
    c ∉ Nat.toDigits 16 n :=
  notMem_toDigits (by omega) (by omega) hc

theorem notMem_decimal {n : Nat} (hc : ∀ d : Fin 16, c ≠ Nat.digitChar d) :
    c ∉ Nat.toDigits 10 n :=
  notMem_toDigits (by omega) (by omega) hc

theorem factText_noBar (fact : Option KindFilter) : '|' ∉ (factText fact).toList := by
  have hhex : ∀ n, '|' ∉ Nat.toDigits 16 n := fun n => notMem_hex (by decide)
  rcases fact with - | (kind | category | -)
  · decide
  · simp [factText, String.toList_append, hhex]
  · simp [factText, String.toList_append, hhex]
  · decide

theorem clockText_noBar (range : Option ClockRange) : '|' ∉ (clockText range).toList := by
  have hdecimal : ∀ n, '|' ∉ Nat.toDigits 10 n := fun n => notMem_decimal (by decide)
  cases range with
  | none => decide
  | some range => simp [clockText, String.toList_append, hdecimal]

theorem EventKind.eq_of_parts {k k' : EventKind} (hcategory : k.category = k'.category)
    (htype : k.raw % 2 ^ 12 = k'.raw % 2 ^ 12) : k = k' := by
  rw [EventKind.category, EventKind.category, Nat.shiftRight_eq_div_pow,
    Nat.shiftRight_eq_div_pow] at hcategory
  have hraw : k.raw = k'.raw := by omega
  cases k
  cases k'
  exact congrArg EventKind.mk hraw

theorem factText_injective {fact fact' : Option KindFilter}
    (h : factText fact = factText fact') : fact = fact' := by
  have hchars := congrArg String.toList h
  have hhex : ∀ n, ':' ∉ Nat.toDigits 16 n := fun n => notMem_hex (by decide)
  rcases fact with - | (kind | category | -) <;> rcases fact' with - | (kind' | category' | -) <;>
    simp only [factText, String.toList_append, toList_hexDigits] at hchars
  case some.exact.some.exact =>
    rw [List.append_assoc, List.append_assoc, List.append_assoc, List.append_assoc] at hchars
    obtain ⟨hcategory, htype⟩ := eq_of_lastSeparator (hhex _) (hhex _)
      (List.append_cancel_left hchars)
    rw [EventKind.eq_of_parts (toDigits_injective (by omega) (by omega) hcategory)
      (toDigits_injective (by omega) (by omega) htype)]
  case some.category.some.category =>
    rw [toDigits_injective (by omega) (by omega) (List.append_cancel_left hchars)]
  all_goals
    first
    | rfl
    | exact absurd (congrArg List.head? hchars) (by simp)

theorem clockText_injective {range range' : Option ClockRange}
    (h : clockText range = clockText range') : range = range' := by
  have hchars := congrArg String.toList h
  have hdash : ∀ n, '-' ∉ Nat.toDigits 10 n := fun n => notMem_decimal (by decide)
  have hstar : ∀ range : ClockRange, clockText none ≠ clockText (some range) := by
    intro range htext
    have hmem : '-' ∈ (clockText none).toList := by
      rw [htext]
      simp [clockText, String.toList_append]
    exact absurd hmem (by decide)
  cases range with
  | none =>
      cases range' with
      | none => rfl
      | some range' => exact absurd h (hstar range')
  | some range =>
      cases range' with
      | none => exact absurd h.symm (hstar range)
      | some range' =>
          simp only [clockText, String.toList_append, toList_decimal, List.append_assoc] at hchars
          obtain ⟨hstart, hstop⟩ := eq_of_lastSeparator (hdash _) (hdash _) hchars
          obtain ⟨start, stop, _⟩ := range
          obtain ⟨start', stop', _⟩ := range'
          obtain rfl := toDigits_injective (by omega) (by omega) hstart
          obtain rfl := toDigits_injective (by omega) (by omega) hstop
          rfl

/-- Everything of the identity in front of the lane. -/
def laneFree (r : Region) : List Char :=
  ("entity=".toList ++ ((r.entityPrefix.getD "*").toList ++
    '|' :: ("scope=".toList ++ (r.scope.getD "*").toList)) ++
    '|' :: ("fact=".toList ++ (factText r.fact).toList))

theorem toList_checkpointIdentity_laneFree (r : Region) :
    r.checkpointIdentity.toList =
      laneFree r ++ '|' :: ("clock=".toList ++ (clockText r.clockRange).toList) ++
        (laneText r.lane).toList :=
  toList_checkpointIdentity r

/-- The lane is read off the end: its digits have no separator, and the clock part, which ends
the identity without a lane, starts differently. -/
theorem lane_of_identity (h : r.checkpointIdentity = r'.checkpointIdentity) :
    r.lane = r'.lane ∧
      laneFree r ++ '|' :: ("clock=".toList ++ (clockText r.clockRange).toList) =
        laneFree r' ++ '|' :: ("clock=".toList ++ (clockText r'.clockRange).toList) := by
  have hchars := congrArg String.toList h
  rw [toList_checkpointIdentity_laneFree, toList_checkpointIdentity_laneFree] at hchars
  have hlane : ∀ lane : Nat, (laneText (some lane)).toList =
      '|' :: ("lane=".toList ++ Nat.toDigits 10 lane) := by
    intro lane
    rw [laneText, String.toList_append, toList_decimal]
    rfl
  have hnone : (laneText none).toList = [] := rfl
  have hdecimal : ∀ lane, '|' ∉ "lane=".toList ++ Nat.toDigits 10 lane := by
    intro lane
    simp [notMem_decimal (c := '|') (by decide)]
  have hclock : ∀ range, '|' ∉ "clock=".toList ++ (clockText range).toList := by
    intro range
    simp [clockText_noBar range]
  cases hr : r.lane with
  | none =>
      cases hr' : r'.lane with
      | none =>
          rw [hr, hr', hnone, List.append_nil, List.append_nil] at hchars
          exact ⟨rfl, hchars⟩
      | some lane' =>
          rw [hr, hr', hlane, hnone, List.append_nil] at hchars
          have htail := (eq_of_lastSeparator (hclock _) (hdecimal lane') hchars).2
          exact absurd (congrArg List.head? htail) (by simp)
  | some lane =>
      cases hr' : r'.lane with
      | none =>
          rw [hr, hr', hlane, hnone, List.append_nil] at hchars
          have htail := (eq_of_lastSeparator (hdecimal lane) (hclock _) hchars).2
          exact absurd (congrArg List.head? htail) (by simp)
      | some lane' =>
          rw [hr, hr', hlane, hlane] at hchars
          obtain ⟨hfront, htail⟩ := eq_of_lastSeparator (hdecimal lane) (hdecimal lane') hchars
          rw [toDigits_injective (by omega) (by omega) (List.append_cancel_left htail)]
          exact ⟨rfl, hfront⟩

/-- What two regions with one identity have in common. -/
structure SameParts (r r' : Region) : Prop where
  fact : r.fact = r'.fact
  clockRange : r.clockRange = r'.clockRange
  lane : r.lane = r'.lane
  components : (r.entityPrefix.getD "*").toList ++
      '|' :: ("scope=".toList ++ (r.scope.getD "*").toList) =
    (r'.entityPrefix.getD "*").toList ++ '|' :: ("scope=".toList ++ (r'.scope.getD "*").toList)

theorem sameParts_of_identity (h : r.checkpointIdentity = r'.checkpointIdentity) :
    SameParts r r' := by
  obtain ⟨hlane, hrest⟩ := lane_of_identity h
  have hclock : ∀ range, '|' ∉ "clock=".toList ++ (clockText range).toList := by
    intro range
    simp [clockText_noBar range]
  have hfact : ∀ fact, '|' ∉ "fact=".toList ++ (factText fact).toList := by
    intro fact
    simp [factText_noBar fact]
  obtain ⟨hrest, hclocks⟩ := eq_of_lastSeparator (hclock _) (hclock _) hrest
  obtain ⟨hrest, hfacts⟩ := eq_of_lastSeparator (hfact _) (hfact _) hrest
  constructor
  · exact factText_injective (String.toList_inj.mp (List.append_cancel_left hfacts))
  · exact clockText_injective (String.toList_inj.mp (List.append_cancel_left hclocks))
  · exact hlane
  · exact List.append_cancel_left hrest

theorem identity_of_sameParts (h : SameParts r r') :
    r.checkpointIdentity = r'.checkpointIdentity := by
  apply String.toList_inj.mp
  rw [toList_checkpointIdentity, toList_checkpointIdentity, h.components, h.fact, h.clockRange,
    h.lane]

/-! ### Which events a region selects -/

def Region.matchesScope (r : Region) (scope : String) : Bool :=
  match r.scope with
  | some expected => scope == expected
  | none => true

def Region.matchesLane (r : Region) (lane : Option Nat) : Bool :=
  match r.lane with
  | some expected => lane == some expected
  | none => true

theorem matchesEventOnLane_eq (r : Region) (entity scope : String) (kind : EventKind)
    (lane : Option Nat) :
    r.matchesEventOnLane entity scope kind lane =
      (r.matchesEntity entity && r.matchesLane lane && r.matchesScope scope &&
        r.acceptsKind kind) := rfl

theorem toList_mem_of_namespacePrefixMatches {namespaceName candidate : String}
    (h : namespacePrefixMatches namespaceName candidate = true) (hc : c ∈ namespaceName.toList) :
    c ∈ candidate.toList := by
  rw [namespacePrefixMatches, Bool.or_eq_true, beq_iff_eq, List.isPrefixOf_iff_prefix] at h
  rcases h with h | h
  · rwa [h]
  · exact h.subset (List.mem_append_left _ hc)

/-- A component with a separator in it selects nothing that can be stored. -/
theorem not_matches_of_bar {e : IndexEntry} (he : Storable e)
    (hbar : '|' ∈ (r.entityPrefix.getD "*").toList ∨ '|' ∈ (r.scope.getD "*").toList)
    (lane : Option Nat) :
    r.matchesEventOnLane e.coord.entity e.coord.scope e.kind lane = false := by
  obtain ⟨hentity, hscope⟩ := validateParts_ok_iff.mp he.coord
  rw [matchesEventOnLane_eq, ← Bool.not_eq_true]
  intro hmatches
  simp only [Bool.and_eq_true] at hmatches
  obtain ⟨⟨⟨hentityPrefix, -⟩, hmatch⟩, -⟩ := hmatches
  rcases hbar with hbar | hbar
  · cases hr : r.entityPrefix with
    | none => simp [hr] at hbar
    | some p =>
        rw [Region.matchesEntity, hr] at hentityPrefix
        rw [hr] at hbar
        exact hentity.clean.pipe (toList_mem_of_namespacePrefixMatches hentityPrefix hbar)
  · cases hr : r.scope with
    | none => simp [hr] at hbar
    | some s =>
        rw [Region.matchesScope, hr, beq_iff_eq] at hmatch
        rw [hr] at hbar
        exact hscope.clean.pipe (by rwa [hmatch])

/-- A namespace that some stored entity falls under is empty or valid itself. -/
theorem valid_of_namespacePrefixMatches {namespaceName candidate : String}
    (h : namespacePrefixMatches namespaceName candidate = true) (hvalid : ValidComponent candidate) :
    namespaceName = "" ∨ ValidComponent namespaceName := by
  by_cases hempty : namespaceName = ""
  · exact .inl hempty
  · rw [namespacePrefixMatches, Bool.or_eq_true, beq_iff_eq, List.isPrefixOf_iff_prefix] at h
    rcases h with rfl | ⟨rest, hrest⟩
    · exact .inr hvalid
    · have hcandidate : candidate = namespaceName ++ String.ofList (':' :: rest) := by
        apply String.toList_inj.mp
        rw [← hrest, String.toList_append, String.toList_ofList, List.append_assoc]
        rfl
      rw [hcandidate] at hvalid
      exact .inr (hvalid.of_append hempty)

theorem validateParts_isOk_iff {value : String} :
    (Coordinate.validateParts value value).isOk = true ↔ ValidComponent value := by
  have hself : Coordinate.validateParts value value = .ok () ↔
      ValidComponent value ∧ ValidComponent value := validateParts_ok_iff
  cases h : Coordinate.validateParts value value with
  | error e =>
      rw [h] at hself
      simpa [Except.isOk, Except.toBool] using hself
  | ok u =>
      rw [h] at hself
      simpa [Except.isOk, Except.toBool] using hself

theorem EventKind.category_lt {k : EventKind} (h : k.raw < 2 ^ 16) : k.category < 16 := by
  rw [EventKind.category, Nat.shiftRight_eq_div_pow]
  omega

/-- A region that matches a stored event is reachable. -/
theorem reachable_of_matches {e : IndexEntry} (he : Storable e) {lane : Option Nat}
    (h : r.matchesEventOnLane e.coord.entity e.coord.scope e.kind lane = true) :
    r.reachable = true := by
  obtain ⟨hentity, hscope⟩ := validateParts_ok_iff.mp he.coord
  rw [matchesEventOnLane_eq] at h
  simp only [Bool.and_eq_true] at h
  obtain ⟨⟨⟨hentityPrefix, -⟩, hmatch⟩, hkind⟩ := h
  rw [Region.reachable, Bool.and_eq_true, Bool.and_eq_true]
  refine ⟨⟨?_, ?_⟩, ?_⟩
  · cases hr : r.entityPrefix with
    | none => rfl
    | some p =>
        rw [Region.matchesEntity, hr] at hentityPrefix
        simpa [validateParts_isOk_iff] using valid_of_namespacePrefixMatches hentityPrefix hentity
  · cases hr : r.scope with
    | none => rfl
    | some s =>
        rw [Region.matchesScope, hr, beq_iff_eq] at hmatch
        simpa [validateParts_isOk_iff, ← hmatch] using hscope
  · rw [Region.acceptsKind] at hkind
    rcases hr : r.fact with - | (kind | category | -)
    · rfl
    · rfl
    · rw [hr] at hkind
      have hcategory : e.kind.category = category := by simpa [KindFilter.accepts] using hkind
      simpa [← hcategory] using EventKind.category_lt he.kind
    · rfl

/-! ### Regions that share an identity -/

/-- No storable event tells the regions apart, live or in a query. -/
def SameEvents (r r' : Region) : Prop :=
  ∀ e, Storable e →
    (∀ lane, r.matchesEventOnLane e.coord.entity e.coord.scope e.kind lane =
      r'.matchesEventOnLane e.coord.entity e.coord.scope e.kind lane) ∧
    r.selects e = r'.selects e

/-- One identity means one set of events, and so a checkpoint saved under the first region is
resumed under the second only if that selects the same. -/
structure Separates (r r' : Region) : Prop where
  identity : r.checkpointIdentity = r'.checkpointIdentity → SameEvents r r'
  resumed : ∀ position started,
    (Cursor.newWithCheckpoint r'
      (some (.fromCheckpoint (position, started) r.checkpointIdentity))).isSome →
    SameEvents r r'

/-- The regions differ in nothing but a component that one leaves out and the other gives as a
star, and events reach them. -/
def SharesStar (r r' : Region) : Prop :=
  r.fact = r'.fact ∧ r.clockRange = r'.clockRange ∧ r.lane = r'.lane ∧
    r.entityPrefix.getD "*" = r'.entityPrefix.getD "*" ∧ r.scope.getD "*" = r'.scope.getD "*" ∧
    (r.entityPrefix ≠ r'.entityPrefix ∨ r.scope ≠ r'.scope) ∧ r.reachable = true

instance (r r' : Region) : Decidable (SharesStar r r') :=
  inferInstanceAs (Decidable (_ ∧ _))

theorem resumed_iff {position : Nat} {started : Bool} :
    (Cursor.newWithCheckpoint r'
      (some (.fromCheckpoint (position, started) r.checkpointIdentity))).isSome = true ↔
      r.checkpointIdentity = r'.checkpointIdentity := by
  by_cases h : r.checkpointIdentity = r'.checkpointIdentity <;>
    simp [Cursor.newWithCheckpoint, CursorCheckpoint.fromCheckpoint, h]

theorem separates_iff_identity :
    Separates r r' ↔ (r.checkpointIdentity = r'.checkpointIdentity → SameEvents r r') :=
  ⟨fun h => h.identity, fun h => ⟨h, fun _ _ hresumed => h (resumed_iff.mp hresumed)⟩⟩

theorem sameEvents_of_matches (hclock : r.clockRange = r'.clockRange)
    (h : ∀ e, Storable e → ∀ lane,
      r.matchesEventOnLane e.coord.entity e.coord.scope e.kind lane =
        r'.matchesEventOnLane e.coord.entity e.coord.scope e.kind lane) : SameEvents r r' := by
  intro e he
  constructor
  · exact h e he
  · rw [Region.selects, Region.selects, h e he, Region.inClockRange, Region.inClockRange, hclock]

/-- Two regions that no event reaches select the same. -/
theorem sameEvents_of_unreachable (hclock : r.clockRange = r'.clockRange) (h : r.reachable = false)
    (h' : r'.reachable = false) : SameEvents r r' := by
  have hnone : ∀ {q : Region}, q.reachable = false → ∀ e, Storable e → ∀ lane,
      q.matchesEventOnLane e.coord.entity e.coord.scope e.kind lane = false := by
    intro q hq e he lane
    rw [← Bool.not_eq_true]
    intro hmatches
    rw [reachable_of_matches he hmatches] at hq
    cases hq
  apply sameEvents_of_matches hclock
  intro e he lane
  rw [hnone h e he, hnone h' e he]

theorem star_cases {o o' : Option String} (h : o.getD "*" = o'.getD "*") (hne : o ≠ o') :
    (o = none ∧ o' = some "*") ∨ (o = some "*" ∧ o' = none) := by
  cases o with
  | none =>
      cases o' with
      | none => exact absurd rfl hne
      | some s' => exact .inl ⟨rfl, congrArg some h.symm⟩
  | some s =>
      cases o' with
      | none => exact .inr ⟨congrArg some h, rfl⟩
      | some s' => exact absurd (congrArg some h) hne

theorem validComponent_star : ValidComponent "*" :=
  validateParts_isOk_iff.mp (by decide +kernel)

theorem validComponent_a : ValidComponent "a" :=
  validateParts_isOk_iff.mp (by decide +kernel)

/-- The two texts of a component allow events alike, as the star is a valid component. -/
theorem reachable_eq_of_sameTokens (hfact : r.fact = r'.fact)
    (hentity : r.entityPrefix.getD "*" = r'.entityPrefix.getD "*")
    (hscope : r.scope.getD "*" = r'.scope.getD "*") : r.reachable = r'.reachable := by
  have hok : (Coordinate.validateParts "*" "*").isOk = true := by decide +kernel
  have hentities : (r.entityPrefix.all fun p => p == "" || (Coordinate.validateParts p p).isOk) =
      r'.entityPrefix.all fun p => p == "" || (Coordinate.validateParts p p).isOk := by
    by_cases heq : r.entityPrefix = r'.entityPrefix
    · rw [heq]
    · rcases star_cases hentity heq with ⟨h, h'⟩ | ⟨h, h'⟩ <;> simp [h, h', hok]
  have hscopes : (r.scope.all fun s => (Coordinate.validateParts s s).isOk) =
      r'.scope.all fun s => (Coordinate.validateParts s s).isOk := by
    by_cases heq : r.scope = r'.scope
    · rw [heq]
    · rcases star_cases hscope heq with ⟨h, h'⟩ | ⟨h, h'⟩ <;> simp [h, h', hok]
  rw [Region.reachable, Region.reachable, hentities, hscopes, hfact]

theorem sameEvents_of_identity (h : r.checkpointIdentity = r'.checkpointIdentity)
    (hstar : ¬ SharesStar r r') :
    SameEvents r r' := by
  have hparts := sameParts_of_identity h
  rcases split_of_marker (by decide) hparts.components with hsame | ⟨hbar', hbar⟩ | ⟨hbar, hbar'⟩
  · obtain ⟨hentity, hscope⟩ := hsame
    have hentity := String.toList_inj.mp hentity
    have hscope := String.toList_inj.mp hscope
    by_cases hdiffer : r.entityPrefix ≠ r'.entityPrefix ∨ r.scope ≠ r'.scope
    · have hunreachable : r.reachable = false := by
        rw [← Bool.not_eq_true]
        intro hreachable
        exact hstar ⟨hparts.fact, hparts.clockRange, hparts.lane, hentity, hscope, hdiffer,
          hreachable⟩
      have hunreachable' := hunreachable
      rw [reachable_eq_of_sameTokens hparts.fact hentity hscope] at hunreachable'
      exact sameEvents_of_unreachable hparts.clockRange hunreachable hunreachable'
    · rw [not_or, not_not, not_not] at hdiffer
      obtain ⟨hfact, hclock, hlane, -⟩ := hparts
      have heq : r = r' := by
        cases r
        cases r'
        simp_all only
      rw [heq]
      exact fun e _ => ⟨fun _ => rfl, rfl⟩
  · apply sameEvents_of_matches hparts.clockRange
    intro e he lane
    rw [not_matches_of_bar he (.inr hbar), not_matches_of_bar he (.inl hbar')]
  · apply sameEvents_of_matches hparts.clockRange
    intro e he lane
    rw [not_matches_of_bar he (.inl hbar), not_matches_of_bar he (.inr hbar')]

/-- A kind the filter accepts. -/
def sampleKind (r : Region) : EventKind :=
  match r.fact with
  | some (.exact kind) => kind
  | some (.category category) => ⟨category <<< 12⟩
  | _ => .data

/-- An event at the given coordinate that passes every other filter of the region. -/
def sampleEvent (r : Region) (entity scope : String) : IndexEntry :=
  { (default : IndexEntry) with
    coord := ⟨entity, scope⟩
    kind := sampleKind r
    clock := (r.clockRange.map ClockRange.start).getD 0
    dagLane := r.lane.getD 0 }

/-- The numbers of a region fit the types they are given in. -/
structure Region.Typed (r : Region) : Prop where
  fact : ∀ filter, r.fact = some filter → filter.Typed
  clockRange : ∀ range, r.clockRange = some range → range.stop < 2 ^ 32
  lane : ∀ lane, r.lane = some lane → lane < 2 ^ 32

theorem Region.Public.typed (h : r.Public) : r.Typed := by
  induction h with
  | all => exact ⟨nofun, nofun, nofun⟩
  | entity p => exact ⟨nofun, nofun, nofun⟩
  | scopeOnly s => exact ⟨nofun, nofun, nofun⟩
  | withScope _ s ih => exact ⟨ih.fact, ih.clockRange, ih.lane⟩
  | withFact _ filter hfilter ih =>
      exact ⟨fun f hf => by rwa [← Option.some.inj hf], ih.clockRange, ih.lane⟩
  | withFactCategory _ category ih =>
      refine ⟨fun f hf => ?_, ih.clockRange, ih.lane⟩
      rw [← Option.some.inj hf]
      exact Nat.lt_trans category.isLt (by decide)
  | withClockRange _ range hrange ih =>
      exact ⟨ih.fact, fun c hc => by rwa [← Option.some.inj hc], ih.lane⟩
  | withLane _ lane hlane ih =>
      exact ⟨ih.fact, ih.clockRange, fun l hl => by rwa [← Option.some.inj hl]⟩

theorem sampleKind_accepted (r : Region) : r.acceptsKind (sampleKind r) = true := by
  rw [Region.acceptsKind, sampleKind]
  rcases r.fact with - | (kind | category | -)
  · rfl
  · simp [KindFilter.accepts]
  · simp [KindFilter.accepts, EventKind.category, Nat.shiftLeft_shiftRight]
  · rfl

theorem sampleKind_lt (h : r.Typed) (hreachable : r.reachable = true) :
    (sampleKind r).raw < 2 ^ 16 := by
  rw [Region.reachable, Bool.and_eq_true] at hreachable
  have hcategory := hreachable.2
  have hfact := h.fact
  rw [sampleKind]
  rcases hr : r.fact with - | (kind | category | -)
  · decide
  · exact hfact _ hr
  · rw [hr] at hcategory
    have hlt : category < 16 := by simpa using hcategory
    change category <<< 12 < 2 ^ 16
    rw [Nat.shiftLeft_eq]
    omega
  · decide

theorem storable_sampleEvent (h : r.Typed) (hreachable : r.reachable = true) {entity scope : String}
    (hentity : ValidComponent entity) (hscope : ValidComponent scope) :
    Storable (sampleEvent r entity scope) := by
  constructor
  · exact validateParts_ok_iff.mpr ⟨hentity, hscope⟩
  · exact sampleKind_lt h hreachable
  · cases hr : r.clockRange with
    | none => simp [sampleEvent, hr]
    | some range =>
        have hstop := h.clockRange range hr
        have hordered := range.ordered
        simp [sampleEvent, hr]
        omega
  · cases hr : r.lane with
    | none => simp [sampleEvent, hr]
    | some lane =>
        have hlane := h.lane lane hr
        simpa [sampleEvent, hr] using hlane

theorem selects_sampleEvent (hfact : r.fact = r'.fact) (hclock : r.clockRange = r'.clockRange)
    (hlane : r.lane = r'.lane) (entity scope : String) :
    r'.selects (sampleEvent r entity scope) =
      (r'.matchesEntity entity && r'.matchesScope scope) := by
  have hkind : r'.acceptsKind (sampleKind r) = true := by
    have h := sampleKind_accepted r
    rwa [Region.acceptsKind, hfact] at h
  have hlanes : r'.matchesLane (some (r.lane.getD 0)) = true := by
    rw [Region.matchesLane, hlane]
    cases r'.lane <;> simp
  have hclocks : r'.inClockRange ((r.clockRange.map ClockRange.start).getD 0) = true := by
    rw [Region.inClockRange, hclock]
    cases hr : r'.clockRange with
    | none => rfl
    | some range => simp [range.ordered]
  rw [Region.selects, matchesEventOnLane_eq]
  change (r'.matchesEntity entity && r'.matchesLane (some (r.lane.getD 0)) &&
    r'.matchesScope scope && r'.acceptsKind (sampleKind r) &&
    r'.inClockRange ((r.clockRange.map ClockRange.start).getD 0)) = _
  rw [hkind, hlanes, hclocks]
  simp

/-- A valid entity under the namespace, the star when there is none. -/
def sampleEntity (entityPrefix : Option String) : String :=
  match entityPrefix with
  | none => "*"
  | some p => if p = "" then ":" else p

theorem sampleEntity_matched : r.matchesEntity (sampleEntity r.entityPrefix) = true := by
  rw [Region.matchesEntity]
  cases r.entityPrefix with
  | none => rfl
  | some p =>
      change namespacePrefixMatches p (if p = "" then ":" else p) = true
      by_cases hp : p = ""
      · subst hp
        decide
      · simp [hp, namespacePrefixMatches]

theorem validComponent_sampleEntity (hreachable : r.reachable = true) :
    ValidComponent (sampleEntity r.entityPrefix) := by
  rw [Region.reachable, Bool.and_eq_true, Bool.and_eq_true] at hreachable
  have hentityPrefix := hreachable.1.1
  cases hr : r.entityPrefix with
  | none => exact validComponent_star
  | some p =>
      change ValidComponent (if p = "" then ":" else p)
      by_cases hp : p = ""
      · rw [if_pos hp]
        exact validateParts_isOk_iff.mp (by decide +kernel)
      · rw [if_neg hp]
        rw [hr] at hentityPrefix
        exact validateParts_isOk_iff.mp (by simpa [hp] using hentityPrefix)

theorem validComponent_scope (hreachable : r.reachable = true) :
    ValidComponent (r.scope.getD "*") := by
  rw [Region.reachable, Bool.and_eq_true, Bool.and_eq_true] at hreachable
  have hscope := hreachable.1.2
  cases hr : r.scope with
  | none => exact validComponent_star
  | some s =>
      rw [hr] at hscope
      exact validateParts_isOk_iff.mp (by simpa using hscope)

theorem sampleEntity_matched_of_sameToken (h : r.entityPrefix.getD "*" = r'.entityPrefix.getD "*") :
    r'.matchesEntity (sampleEntity r.entityPrefix) = true := by
  by_cases heq : r.entityPrefix = r'.entityPrefix
  · rw [heq]
    exact sampleEntity_matched
  · rcases star_cases h heq with ⟨hr, hr'⟩ | ⟨hr, hr'⟩
    · rw [Region.matchesEntity, hr, hr']
      decide
    · rw [Region.matchesEntity, hr, hr']

theorem scope_matched_of_sameToken (h : r.scope.getD "*" = r'.scope.getD "*") :
    r'.matchesScope (r.scope.getD "*") = true := by
  rw [h, Region.matchesScope]
  cases r'.scope <;> simp

/-- Where one side leaves the entity out and the other gives the star, an event of another
entity tells them apart. -/
theorem entity_tells_apart (h : r.entityPrefix.getD "*" = r'.entityPrefix.getD "*")
    (hne : r.entityPrefix ≠ r'.entityPrefix) : r.matchesEntity "a" ≠ r'.matchesEntity "a" := by
  rcases star_cases h hne with ⟨hr, hr'⟩ | ⟨hr, hr'⟩ <;>
    · rw [Region.matchesEntity, Region.matchesEntity, hr, hr']
      decide

theorem scope_tells_apart (h : r.scope.getD "*" = r'.scope.getD "*") (hne : r.scope ≠ r'.scope) :
    r.matchesScope "a" ≠ r'.matchesScope "a" := by
  rcases star_cases h hne with ⟨hr, hr'⟩ | ⟨hr, hr'⟩ <;>
    · rw [Region.matchesScope, Region.matchesScope, hr, hr']
      decide

theorem not_sameEvents_of_sharesStar (htyped : r.Typed) (h : SharesStar r r') :
    ¬ SameEvents r r' := by
  obtain ⟨hfact, hclock, hlane, hentity, hscope, hdiffer, hreachable⟩ := h
  intro hsame
  rcases hdiffer with hdiffer | hdiffer
  · have hevent := (hsame _ (storable_sampleEvent htyped hreachable validComponent_a
      (validComponent_scope hreachable))).2
    rw [selects_sampleEvent rfl rfl rfl, selects_sampleEvent hfact hclock hlane,
      scope_matched_of_sameToken rfl, scope_matched_of_sameToken hscope, Bool.and_true,
      Bool.and_true] at hevent
    exact entity_tells_apart hentity hdiffer hevent
  · have hevent := (hsame _ (storable_sampleEvent htyped hreachable
      (validComponent_sampleEntity hreachable) validComponent_a)).2
    rw [selects_sampleEvent rfl rfl rfl, selects_sampleEvent hfact hclock hlane,
      sampleEntity_matched, sampleEntity_matched_of_sameToken hentity, Bool.true_and,
      Bool.true_and] at hevent
    exact scope_tells_apart hscope hdiffer hevent

theorem identity_of_sharesStar (h : SharesStar r r') :
    r.checkpointIdentity = r'.checkpointIdentity := by
  obtain ⟨hfact, hclock, hlane, hentity, hscope, -⟩ := h
  exact identity_of_sameParts ⟨hfact, hclock, hlane, by rw [hentity, hscope]⟩

/-- Publicly built regions are kept apart by their identities exactly when they are not a
region without a component next to the same region with a star there. -/
theorem identity_separates_iff {r r' : Region} (h : r.Public) :
    Separates r r' ↔ ¬ SharesStar r r' := by
  rw [separates_iff_identity]
  constructor
  · intro hseparates hstar
    exact not_sameEvents_of_sharesStar h.typed hstar
      (hseparates (identity_of_sharesStar hstar))
  · intro hstar hidentity
    exact sameEvents_of_identity hidentity hstar

/-- The same identity split in two ways: both regions hold a separator and select nothing. -/
theorem swallowed_separator_separates :
    Separates ((Region.entity "a|scope=b").withScope "c")
      ((Region.entity "a").withScope "b|scope=c") :=
  (identity_separates_iff (.withScope (.entity _) _)).mpr (by decide +kernel)

/-- The checkpoint of a cursor over every event is resumed under the namespace `*`, which
selects none of the events the first one had still to see. -/
theorem all_shares_star :
    Region.all.Public ∧ (Region.entity "*").Public ∧
    Region.all.checkpointIdentity = (Region.entity "*").checkpointIdentity ∧
    (Cursor.newWithCheckpoint (Region.entity "*")
      (some (.fromCheckpoint (7, true) Region.all.checkpointIdentity))).isSome = true ∧
    Storable (sampleEvent Region.all "a" "b") ∧
    Region.all.selects (sampleEvent Region.all "a" "b") = true ∧
    (Region.entity "*").selects (sampleEvent Region.all "a" "b") = false ∧
    ¬ Separates Region.all (Region.entity "*") := by
  have hstorable : Storable (sampleEvent Region.all "a" "b") :=
    ⟨by decide +kernel, by decide, by decide, by decide⟩
  refine ⟨.all, .entity _, by decide +kernel, by decide +kernel, hstorable, by decide, by decide, ?_⟩
  intro hseparates
  have hselects := (hseparates.identity (by decide +kernel) _ hstorable).2
  exact absurd hselects (by decide)

end Batpak.Store
