/-
Module: Batpak.Proofs.StreamCoverage
Purpose: No subscription cursor passes over an event, over every interleaving of publishes, polls
  and reconnects, as long as no watermark overtakes a page.
Trusted boundary: none
Main exports: StreamCovered, subscription_never_skips
-/
import Batpak.Proofs.StreamRules
import Batpak.Util.Run

namespace Batpak.Syncbat

open Batpak.Util

variable {cursor : RuntimeCursor} {s : StreamSession} {entries visible : List StreamEntry}
  {e : StreamEntry} {d : SessionDelivery} {sent : List SessionDelivery}

/-! ### What was sent -/

/-- The delivery carries the entry. -/
def SessionDelivery.Delivers (route : StreamRoute) (e : StreamEntry) : SessionDelivery → Prop
  | .event sent =>
      sent.cursorAfter = route.runtimeCursor
        (.afterGlobalSequence route.cursors e.globalSequence e.wallMs) ∧
      sent.envelopeBytes = route.reader.envelope e
  | _ => False

instance (route : StreamRoute) (e : StreamEntry) (d : SessionDelivery) :
    Decidable (d.Delivers route e) :=
  match d with
  | .event _ => inferInstanceAs (Decidable (_ ∧ _))
  | .watermark _ => inferInstanceAs (Decidable False)
  | .error _ => inferInstanceAs (Decidable False)
  | .ended _ => inferInstanceAs (Decidable False)

/-- By the time a delivery with a cursor at some sequence was sent, every visible matching event
at or below it and past the start of the chain had been delivered. -/
def NoSkip (route : StreamRoute) (base : Option U64) (m : StreamMachine) : Prop :=
  ∀ n d, m.sent[n]? = some d → ∀ cursor ∈ d.cursorAfter, ∀ p ∈ route.positionOf cursor,
    ∀ e ∈ m.feed.visible, route.wants e = true →
      StoreFeed.isAfter base e.globalSequence = true → e.globalSequence ≤ p →
        ∃ d ∈ m.sent.take (n + 1), d.Delivers route e

/-! ### Covered positions -/

section Covered

variable (route : StreamRoute) (base : Option U64)

/-- Nothing at or below the position is missing, and nothing will become visible there. -/
structure PositionCovered (visible : List StreamEntry) (sent : List SessionDelivery)
    (position : Option U64) : Prop where
  reached : position = base ∨ ∃ p, position = some p ∧ ∃ e ∈ visible, p ≤ e.globalSequence
  delivered : ∀ e ∈ visible, route.wants e = true →
    StoreFeed.isAfter base e.globalSequence = true →
      StoreFeed.isAfter position e.globalSequence = false → ∃ d ∈ sent, d.Delivers route e

/-- A cursor of the route at a covered position. -/
def CursorCovered (visible : List StreamEntry) (sent : List SessionDelivery)
    (cursor : RuntimeCursor) : Prop :=
  ∃ p w, cursor = route.runtimeCursor (.afterGlobalSequence route.cursors p w) ∧
    PositionCovered route base visible sent (some p)

/-- Every cursor that the session holds is covered. -/
structure SessionCovered (visible : List StreamEntry) (sent : List SessionDelivery)
    (s : StreamSession) : Prop where
  sentCursors : ∀ x ∈ s.sentCursors, CursorCovered route base visible sent x.2
  lastDelivered : ∀ cursor ∈ s.lastDeliveredCursor, CursorCovered route base visible sent cursor
  terminal : ∀ d ∈ s.terminal, ∀ cursor ∈ d.cursorAfter,
    CursorCovered route base visible sent cursor

/-- Every cursor was covered when it was sent. -/
def LogCovered (visible : List StreamEntry) (sent : List SessionDelivery) : Prop :=
  ∀ n d, sent[n]? = some d → ∀ cursor ∈ d.cursorAfter,
    CursorCovered route base visible (sent.take (n + 1)) cursor

/-- The cursors of the session are covered too, and so is the scan position of a session that
goes on. -/
structure StreamCovered (m : StreamMachine) : Prop where
  log : LogCovered route base m.feed.visible m.sent
  session : SessionCovered route base m.feed.visible m.sent m.session
  scan : m.stage = .failed ∨ (m.stage = .idle ∧ m.session.phase = .ended) ∨
    PositionCovered route base m.feed.visible m.sent m.session.scanAfter

variable {route base} {visible : List StreamEntry} {sent sent' : List SessionDelivery}
  {position : Option U64}

theorem PositionCovered.mono (h : PositionCovered route base visible sent position)
    (hsub : sent ⊆ sent') : PositionCovered route base visible sent' position := by
  refine ⟨h.reached, ?_⟩
  intro e he hwants hbase hafter
  obtain ⟨d, hd, hdelivers⟩ := h.delivered e he hwants hbase hafter
  exact ⟨d, hsub hd, hdelivers⟩

theorem CursorCovered.mono (h : CursorCovered route base visible sent cursor) (hsub : sent ⊆ sent') :
    CursorCovered route base visible sent' cursor := by
  obtain ⟨p, w, heq, hcovered⟩ := h
  exact ⟨p, w, heq, hcovered.mono hsub⟩

theorem SessionCovered.mono (h : SessionCovered route base visible sent s) (hsub : sent ⊆ sent') :
    SessionCovered route base visible sent' s :=
  ⟨fun x hx => (h.sentCursors x hx).mono hsub,
    fun cursor hcursor => (h.lastDelivered cursor hcursor).mono hsub,
    fun d hd cursor hcursor => (h.terminal d hd cursor hcursor).mono hsub⟩

/-- What becomes visible later lies past every position reached so far. -/
theorem PositionCovered.publish (h : PositionCovered route base visible sent position)
    (hordered : InCommitOrder (visible ++ entries)) :
    PositionCovered route base (visible ++ entries) sent position := by
  constructor
  · rcases h.reached with hbase | ⟨p, hp, e, he, hle⟩
    · exact .inl hbase
    · exact .inr ⟨p, hp, e, List.mem_append_left _ he, hle⟩
  · intro e he hwants hbase hafter
    rcases List.mem_append.mp he with hold | hnew
    · exact h.delivered e hold hwants hbase hafter
    · rcases h.reached with rfl | ⟨p, rfl, last, hlast, hle⟩
      · rw [hbase] at hafter
        cases hafter
      · have hlt := (List.pairwise_append.mp hordered).2.2 last hlast e hnew
        rw [isAfter_some.mpr (lt_of_le_of_lt hle hlt)] at hafter
        cases hafter

theorem CursorCovered.publish (h : CursorCovered route base visible sent cursor)
    (hordered : InCommitOrder (visible ++ entries)) :
    CursorCovered route base (visible ++ entries) sent cursor := by
  obtain ⟨p, w, heq, hcovered⟩ := h
  exact ⟨p, w, heq, hcovered.publish hordered⟩

theorem SessionCovered.publish (h : SessionCovered route base visible sent s)
    (hordered : InCommitOrder (visible ++ entries)) :
    SessionCovered route base (visible ++ entries) sent s :=
  ⟨fun x hx => (h.sentCursors x hx).publish hordered,
    fun cursor hcursor => (h.lastDelivered cursor hcursor).publish hordered,
    fun d hd cursor hcursor => (h.terminal d hd cursor hcursor).publish hordered⟩

/-- A covered position moves over one entry to come, delivered or not wanted. -/
theorem PositionCovered.next {feed : StoreFeed} {skipped rest : List StreamEntry}
    (h : PositionCovered route base feed.visible sent position)
    (hup : route.upcoming feed position = skipped ++ e :: rest)
    (hskipped : ∀ x ∈ skipped, route.wants x = false)
    (he : route.wants e = true → ∃ d ∈ sent, d.Delivers route e) :
    PositionCovered route base feed.visible sent (some e.globalSequence) := by
  have hmem : e ∈ route.upcoming feed position := by simp [hup]
  refine ⟨.inr ⟨_, rfl, e, (StreamRoute.mem_upcoming.mp hmem).1, le_refl _⟩, ?_⟩
  intro x hx hwants hbase hafter
  by_cases hpast : StoreFeed.isAfter position x.globalSequence = true
  · have hregion : route.inRegion x = true := (Bool.and_eq_true _ _ ▸ hwants).1
    have hxup : x ∈ skipped ++ e :: rest :=
      hup ▸ StreamRoute.mem_upcoming.mpr ⟨hx, hregion, hpast⟩
    rcases List.mem_append.mp hxup with hskip | hfrom
    · rw [hskipped x hskip] at hwants
      cases hwants
    · rcases List.mem_cons.mp hfrom with rfl | hrest
      · exact he hwants
      · rw [← StreamRoute.upcoming_next hup] at hrest
        rw [(StreamRoute.mem_upcoming.mp hrest).2.2] at hafter
        cases hafter
  · exact h.delivered x hx hwants hbase (Bool.not_eq_true _ ▸ hpast)

theorem LogCovered.publish (h : LogCovered route base visible sent)
    (hordered : InCommitOrder (visible ++ entries)) :
    LogCovered route base (visible ++ entries) sent :=
  fun n d hd cursor hcursor => (h n d hd cursor hcursor).publish hordered

theorem LogCovered.concat (h : LogCovered route base visible sent)
    (hd : ∀ cursor ∈ d.cursorAfter, CursorCovered route base visible (sent ++ [d]) cursor) :
    LogCovered route base visible (sent ++ [d]) := by
  intro n x hx cursor hcursor
  rcases Nat.lt_trichotomy n sent.length with hlt | rfl | hgt
  · rw [List.getElem?_append_left hlt] at hx
    rw [List.take_append_of_le_length hlt]
    exact h n x hx cursor hcursor
  · rw [List.getElem?_concat_length] at hx
    cases hx
    rw [List.take_of_length_le (by simp)]
    exact hd cursor hcursor
  · rw [List.getElem?_eq_none (by rw [List.length_append]; exact hgt)] at hx
    cases hx

end Covered

/-! ### Control inputs -/

section Control

variable {route : StreamRoute} {base : Option U64} {visible : List StreamEntry}
  {sent : List SessionDelivery} {s : StreamSession}

variable (route base visible sent) in
/-- A session between two polls. -/
structure SessionOk (s : StreamSession) : Prop where
  cursors : SessionCovered route base visible sent s
  scan : s.phase = .ended ∨ PositionCovered route base visible sent s.scanAfter

theorem SessionCovered.endWith (h : SessionCovered route base visible sent s)
    (hd : ∀ cursor ∈ d.cursorAfter, CursorCovered route base visible sent cursor) :
    SessionCovered route base visible sent (s.endWith d) := by
  refine ⟨h.sentCursors, h.lastDelivered, ?_⟩
  intro x hx
  cases hx
  exact hd

theorem SessionOk.endWithError (h : SessionOk route base visible sent s) (code message : String) :
    SessionOk route base visible sent (s.endWith (s.errorDelivery route code message)) := by
  refine ⟨h.cursors.endWith ?_, .inl rfl⟩
  intro cursor hcursor
  cases hcursor

/-- The acknowledged cursor is one that was sent, so its position is covered. -/
theorem SessionOk.applyAck (h : SessionOk route base visible sent s) (index : Nat)
    (cursor : RuntimeCursor) :
    SessionOk route base visible sent (s.applyAck route index cursor) := by
  rcases applyAck_cases route s index cursor with
    ⟨code, message, heq⟩ | ⟨decoded, haccepted, heq⟩
  · rw [heq]
    exact h.endWithError code message
  · rw [heq]
    obtain ⟨p, w, hcursor, hcovered⟩ := h.cursors.sentCursors _ haccepted.mem_sentCursors
    have hdecoded : decoded = .afterGlobalSequence route.cursors p w := by
      have hdecodes := haccepted.decodes
      change cursor = _ at hcursor
      rw [hcursor, StreamRoute.runtimeCursor, StreamCursor.decode_encode
        (StreamCursor.ofRoute_afterGlobalSequence route.cursors p w)] at hdecodes
      cases hdecodes
      rfl
    refine ⟨⟨h.cursors.sentCursors, h.cursors.lastDelivered, h.cursors.terminal⟩, ?_⟩
    unfold StreamSession.acked
    cases hscans : route.source.scans with
    | false => exact h.scan
    | true =>
        subst hdecoded
        exact .inr hcovered

theorem SessionOk.applyControl (h : SessionOk route base visible sent s)
    (input : SessionControl) :
    SessionOk route base visible sent (s.applyControl route input) := by
  cases input with
  | ack index cursor => exact h.applyAck index cursor
  | cancel => exact ⟨h.cursors.endWith h.cursors.lastDelivered, .inl rfl⟩
  | disconnected =>
      refine ⟨⟨h.cursors.sentCursors, h.cursors.lastDelivered, ?_⟩, .inl rfl⟩
      intro d hd
      cases hd
  | malformed => exact h.endWithError _ _

theorem SessionOk.drainControl (h : SessionOk route base visible sent s)
    (inbox : List SessionControl) :
    SessionOk route base visible sent (s.drainControl route inbox) := by
  unfold StreamSession.drainControl
  induction inbox generalizing s with
  | nil => exact h
  | cons input rest ih => exact ih (h.applyControl input)

end Control

/-! ### Steps -/

section Steps

variable {route : StreamRoute} {base : Option U64} {m : StreamMachine}

theorem subset_concat {α : Type} (l : List α) (a : α) : l ⊆ l ++ [a] :=
  List.subset_append_left l [a]

theorem StreamCovered.sessionOk (h : StreamCovered route base m) (hidle : m.stage ≠ .failed) :
    SessionOk route base m.feed.visible m.sent m.session := by
  refine ⟨h.session, ?_⟩
  rcases h.scan with hfailed | ⟨-, hended⟩ | hscan
  · exact absurd hfailed hidle
  · exact .inl hended
  · exact .inr hscan

theorem StreamCovered.scanning (h : StreamCovered route base m) (hfailed : m.stage ≠ .failed)
    (hidle : m.stage ≠ .idle) :
    PositionCovered route base m.feed.visible m.sent m.session.scanAfter := by
  rcases h.scan with hstage | ⟨hstage, -⟩ | hscan
  · exact absurd hstage hfailed
  · exact absurd hstage hidle
  · exact hscan

/-- A delivery without a cursor of its own, or with one that is covered, goes out. -/
theorem streamCovered_emit (hlog : LogCovered route base m.feed.visible m.sent)
    (hsession : SessionOk route base m.feed.visible (m.sent ++ [d]) m.session)
    (hd : ∀ cursor ∈ d.cursorAfter, CursorCovered route base m.feed.visible (m.sent ++ [d]) cursor) :
    StreamCovered route base (m.emit d) := by
  refine ⟨hlog.concat hd, hsession.cursors, ?_⟩
  rcases hsession.scan with hended | hscan
  · exact .inr (.inl ⟨rfl, hended⟩)
  · exact .inr (.inr hscan)

theorem SessionOk.mono {sent' : List SessionDelivery} (h : SessionOk route base visible sent s)
    (hsub : sent ⊆ sent') :
    SessionOk route base visible sent' s :=
  ⟨h.cursors.mono hsub, h.scan.imp_right fun hscan => hscan.mono hsub⟩

theorem streamCovered_orEnded {next : StreamMachine → StreamMachine}
    (hlog : LogCovered route base m.feed.visible m.sent)
    (hsession : SessionOk route base m.feed.visible m.sent m.session)
    (hnext : PositionCovered route base m.feed.visible m.sent m.session.scanAfter →
      StreamCovered route base (next m)) : StreamCovered route base (m.orEnded next) := by
  unfold StreamMachine.orEnded
  cases hterminal : m.session.terminal with
  | some d =>
      have hcursors := hsession.cursors
      apply streamCovered_emit (m := { m with session.terminal := none }) hlog
      · refine ⟨⟨?_, ?_, ?_⟩, ?_⟩
        · exact fun x hx => (hcursors.sentCursors x hx).mono (subset_concat _ _)
        · exact fun c hc => (hcursors.lastDelivered c hc).mono (subset_concat _ _)
        · intro x hx
          cases hx
        · exact (hsession.mono (subset_concat _ _)).scan
      · intro cursor hcursor
        exact (hcursors.terminal d hterminal cursor hcursor).mono (subset_concat _ _)
  | none =>
      dsimp only
      split_ifs with hended
      · exact ⟨hlog, hsession.cursors, .inr (.inl ⟨rfl, hended⟩)⟩
      · rcases hsession.scan with hphase | hscan
        · exact absurd hphase hended
        · exact hnext hscan

theorem streamCovered_takeControl (woken : Bool)
    (hlog : LogCovered route base m.feed.visible m.sent)
    (hsession : SessionOk route base m.feed.visible m.sent m.session) :
    StreamCovered route base (takeControl route woken m) := by
  have hdrained := hsession.drainControl m.inbox
  apply streamCovered_orEnded
    (m := { m with session := m.session.drainControl route m.inbox, inbox := [] }) hlog hdrained
  intro hscan
  exact ⟨hlog, hdrained.cursors, .inr (.inr hscan)⟩

theorem streamCovered_publish (h : StreamCovered route base m) (entries : List StreamEntry)
    (last : StreamEntry) :
    StreamCovered route base { m with feed := m.feed.publish entries last } := by
  obtain ⟨added, hvisible, hordered⟩ := publish_visible m.feed entries last
  refine ⟨?_, ?_, ?_⟩
  · dsimp only
    rw [hvisible]
    exact h.log.publish hordered
  · dsimp only
    rw [hvisible]
    exact h.session.publish hordered
  · dsimp only
    rw [hvisible]
    exact h.scan.imp_right fun hscan => hscan.imp_right fun hscan => hscan.publish hordered

theorem streamCovered_settle (h : StreamCovered route base m) :
    StreamCovered route base { m with feed := m.feed.settle } := by
  have hvisible := settle_visible m.feed
  refine ⟨?_, ?_, ?_⟩
  · dsimp only
    rw [hvisible]
    exact h.log
  · dsimp only
    rw [hvisible]
    exact h.session
  · dsimp only
    rw [hvisible]
    exact h.scan

theorem wants_of_stopsAt {unreadable : StreamEntry → Bool} (h : stopsAt route unreadable e = false) :
    route.wants e = false := by
  have hskip : classify route.reader route.source e = .skip := by
    simp only [stopsAt, Bool.or_eq_false_iff, decide_eq_false_iff_not, not_not] at h
    exact h.2
  simp [StreamRoute.wants, hskip]

/-- The session with the cursor of a delivery that is on its way. -/
theorem SessionCovered.send (h : SessionCovered route base visible sent s) {p w : U64}
    (hcovered : PositionCovered route base visible sent (some p)) :
    SessionCovered route base visible sent
      (s.send route (.afterGlobalSequence route.cursors p w)) := by
  have hcursor : CursorCovered route base visible sent
      (route.runtimeCursor (.afterGlobalSequence route.cursors p w)) :=
    ⟨p, w, rfl, hcovered⟩
  refine ⟨?_, ?_, h.terminal⟩
  · intro x hx
    rcases List.mem_cons.mp hx with rfl | hx
    · exact hcursor
    · exact h.sentCursors x hx
  · intro cursor hlast
    cases hlast
    exact hcursor

theorem streamCovered_delivery (woken : Bool) (hlog : LogCovered route base m.feed.visible m.sent)
    (hsession : SessionOk route base m.feed.visible (m.sent ++ [d]) s)
    (hd : ∀ cursor ∈ d.cursorAfter, CursorCovered route base m.feed.visible (m.sent ++ [d]) cursor) :
    StreamCovered route base (afterPage woken m (s, .delivery d)) :=
  streamCovered_emit (m := { m with session := s }) hlog hsession hd

/-- A session that ends with an error. -/
theorem streamCovered_ended (woken : Bool) (code message : String)
    (hlog : LogCovered route base m.feed.visible m.sent)
    (hsession : SessionCovered route base m.feed.visible m.sent s) :
    StreamCovered route base (afterPage woken m
      (s.endWith (s.errorDelivery route code message),
        .delivery (s.errorDelivery route code message))) := by
  apply streamCovered_delivery woken hlog
  · refine ⟨(hsession.mono (subset_concat _ _)).endWith ?_, .inl rfl⟩
    intro cursor hcursor
    cases hcursor
  · intro cursor hcursor
    cases hcursor

/-- The entry goes out: it was the first wanted one past the position. -/
theorem streamCovered_deliverEntry {position : Option U64} {skipped rest : List StreamEntry}
    (unreadable : StreamEntry → Bool) (woken : Bool)
    (hlog : LogCovered route base m.feed.visible m.sent)
    (hsession : SessionCovered route base m.feed.visible m.sent s)
    (hscan : PositionCovered route base m.feed.visible m.sent position)
    (hup : route.upcoming m.feed position = skipped ++ e :: rest)
    (hskipped : ∀ x ∈ skipped, route.wants x = false) :
    StreamCovered route base (afterPage woken m (deliverEntry route unreadable s e)) := by
  unfold deliverEntry
  split_ifs with hfull hread
  · exact streamCovered_ended woken _ _ hlog hsession
  · exact ⟨hlog, hsession, .inl rfl⟩
  · have hcovered : PositionCovered route base m.feed.visible
        (m.sent ++ [s.eventDelivery route e]) (some e.globalSequence) := by
      apply (hscan.mono (subset_concat _ _)).next hup hskipped
      intro _
      exact ⟨s.eventDelivery route e, by simp, rfl, rfl⟩
    have hsent := (hsession.mono (subset_concat _ (s.eventDelivery route e))).send
      (w := e.wallMs) hcovered
    apply streamCovered_delivery woken hlog
    · exact ⟨⟨hsent.sentCursors, hsent.lastDelivered, hsent.terminal⟩, .inr hcovered⟩
    · intro cursor hcursor
      cases hcursor
      exact ⟨_, _, rfl, hcovered⟩

theorem streamCovered_page {woken : Bool} (h : StreamCovered route base m)
    (hstage : m.stage = .querying woken) (unreadable : StreamEntry → Bool) :
    StreamCovered route base (pageStep route unreadable woken m) := by
  have hscan := h.scanning (by simp [hstage]) (by simp [hstage])
  unfold pageStep
  rcases @tryDeliver_cases route unreadable m.feed m.session with
    ⟨-, heq⟩ | ⟨skipped, last, rest, hup, hskipped, -, heq⟩ | ⟨skipped, e, rest, hup, hskipped, -, heq⟩
  · rw [heq]
    have hsession : SessionCovered route base m.feed.visible m.sent
        { m.session with
          lastQueryReturnedEmpty := route.source.scans || m.session.lastQueryReturnedEmpty } :=
      ⟨h.session.sentCursors, h.session.lastDelivered, h.session.terminal⟩
    unfold afterPage
    dsimp only
    split_ifs
    · exact ⟨h.log, hsession, .inr (.inr hscan)⟩
    · exact ⟨h.log, hsession, .inr (.inr hscan)⟩
  · rw [heq]
    refine ⟨h.log, ⟨h.session.sentCursors, h.session.lastDelivered, h.session.terminal⟩,
      .inr (.inr ?_)⟩
    apply hscan.next hup
    · intro x hx
      exact wants_of_stopsAt (hskipped x (List.mem_append_left _ hx))
    · intro hwants
      rw [wants_of_stopsAt (hskipped last (by simp))] at hwants
      cases hwants
  · rw [heq]
    have hwants : ∀ x ∈ skipped, route.wants x = false :=
      fun x hx => wants_of_stopsAt (hskipped x hx)
    generalize hs : (if route.source.scans then _ else _ : StreamSession) = s
    have hsession : SessionCovered route base m.feed.visible m.sent s := by
      rw [← hs]
      split_ifs
      · exact ⟨h.session.sentCursors, h.session.lastDelivered, h.session.terminal⟩
      · exact h.session
    unfold stopAt
    split_ifs with hread hundecodable
    · exact ⟨h.log, hsession, .inl rfl⟩
    · exact streamCovered_ended woken _ _ h.log hsession
    · exact streamCovered_deliverEntry unreadable woken h.log hsession hscan hup hwants

end Steps

/-! ### Watermarks -/

section Watermarks

variable (route : StreamRoute) (m : StreamMachine)

/-- The watermark that is due stands over a matching event that no page has returned: one that
became visible after the last page and before the frontier was read. -/
def watermarkPasses : Bool :=
  watermarkDue route m && m.feed.visible.any fun e =>
    route.wants e && StoreFeed.isAfter m.session.scanAfter e.globalSequence &&
      decide (e.globalSequence ≤ m.feed.frontier.globalSequence)

variable {route m} {base : Option U64}

theorem covered_frontier (hscan : PositionCovered route base m.feed.visible m.sent
      m.session.scanAfter) (hdue : watermarkDue route m = true)
    (hclear : watermarkPasses route m = false) :
    PositionCovered route base m.feed.visible m.sent
      (some m.feed.frontier.globalSequence) := by
  have hlater : m.session.lastWatermarkedVisibleSeq < m.feed.frontier.globalSequence := by
    simp only [watermarkDue, Bool.and_eq_true, decide_eq_true_eq] at hdue
    exact hdue.1.2
  constructor
  · exact .inr ⟨_, rfl, frontier_visible hlater⟩
  · intro e he hwants hbase hafter
    by_cases hpast : StoreFeed.isAfter m.session.scanAfter e.globalSequence = true
    · have hle : e.globalSequence ≤ m.feed.frontier.globalSequence := by
        apply le_of_not_gt
        intro hlt
        rw [isAfter_some.mpr hlt] at hafter
        cases hafter
      have hpasses : watermarkPasses route m = true := by
        simp only [watermarkPasses, hdue, Bool.true_and, List.any_eq_true, Bool.and_eq_true,
          decide_eq_true_eq]
        exact ⟨e, he, ⟨hwants, hpast⟩, hle⟩
      rw [hpasses] at hclear
      cases hclear
    · exact hscan.delivered e he hwants hbase (Bool.not_eq_true _ ▸ hpast)

theorem sessionOk_afterFirstPass (woken : Bool) (hs : SessionCovered route base visible sent s)
    (hposition : PositionCovered route base visible sent s.scanAfter) :
    SessionOk route base visible sent (afterFirstPass woken s) := by
  cases woken with
  | true => exact ⟨hs, .inr hposition⟩
  | false => exact ⟨⟨hs.sentCursors, hs.lastDelivered, hs.terminal⟩, .inr hposition⟩

theorem streamCovered_read (woken : Bool) (hlog : LogCovered route base m.feed.visible m.sent)
    (hs : SessionCovered route base m.feed.visible (m.sent ++ [d]) s)
    (hposition : PositionCovered route base m.feed.visible (m.sent ++ [d]) s.scanAfter)
    (hd : ∀ cursor ∈ d.cursorAfter, CursorCovered route base m.feed.visible (m.sent ++ [d]) cursor) :
    StreamCovered route base (afterFrontier woken m (s, some d)) :=
  streamCovered_emit (m := { m with session := afterFirstPass woken s }) hlog
    (sessionOk_afterFirstPass woken hs hposition) hd

theorem streamCovered_frontier {woken : Bool} (h : StreamCovered route base m)
    (hstage : m.stage = .readingFrontier woken) (hclear : watermarkPasses route m = false) :
    StreamCovered route base (frontierStep route woken m) := by
  have hscan := h.scanning (by simp [hstage]) (by simp [hstage])
  unfold frontierStep
  rcases @maybeEmitWatermark_cases route m.feed.frontier m.session with
    heq | heq | ⟨hempty, hlater, hwindow, heq⟩
  · rw [heq]
    have hok := sessionOk_afterFirstPass woken h.session hscan
    refine ⟨h.log, hok.cursors, .inr (.inr ?_)⟩
    cases woken with
    | true => exact hscan
    | false => exact hscan
  · rw [heq]
    apply streamCovered_read woken h.log
    · apply (h.session.mono (subset_concat _ _)).endWith
      intro cursor hcursor
      cases hcursor
    · exact hscan.mono (subset_concat _ _)
    · intro cursor hcursor
      cases hcursor
  · rw [heq]
    have hdue := watermarkDue_of hstage hempty hlater hwindow
    have hcovered := (covered_frontier hscan hdue hclear).mono
      (subset_concat _ (m.session.watermarkDelivery route m.feed.frontier))
    have hsent := (h.session.mono (subset_concat _ (m.session.watermarkDelivery route
      m.feed.frontier))).send (w := m.feed.frontier.wallMs) hcovered
    apply streamCovered_read woken h.log
    · exact ⟨hsent.sentCursors, hsent.lastDelivered, hsent.terminal⟩
    · exact hcovered
    · intro cursor hcursor
      cases hcursor
      exact ⟨_, _, rfl, hcovered⟩

end Watermarks

/-! ### Runs -/

section Runs

variable {route : StreamRoute} {base : Option U64} {m : StreamMachine}

/-- A client resumes from where it began or from a cursor it was sent. -/
def ResumesSent (start : Option RuntimeCursor) (m : StreamMachine) : StreamStep → Prop
  | .reconnect resumeCursor =>
      resumeCursor = start ∨
        ∃ cursor ∈ resumeCursor, ∃ d ∈ m.sent, cursor ∈ d.cursorAfter
  | _ => True

/-- No watermark is read over an event that became visible behind the last page. -/
def FrontierClear (route : StreamRoute) (m : StreamMachine) : StreamStep → Prop
  | .frontier => watermarkPasses route m = false
  | _ => True

theorem LogCovered.mem (h : LogCovered route base visible sent) (hd : d ∈ sent)
    (hcursor : cursor ∈ d.cursorAfter) :
    CursorCovered route base visible sent cursor := by
  obtain ⟨n, hn⟩ := List.mem_iff_getElem?.mp hd
  exact (h n d hn cursor hcursor).mono (List.take_subset _ _)

theorem sessionCovered_fresh {session : StreamSession} (hsent : session.sentCursors = [])
    (hlast : session.lastDeliveredCursor = none) (hterminal : session.terminal = none) :
    SessionCovered route base visible sent session := by
  constructor
  · rw [hsent]
    intro x hx
    cases hx
  · rw [hlast]
    intro x hx
    cases hx
  · rw [hterminal]
    intro x hx
    cases hx

theorem positionCovered_base (visible : List StreamEntry) (sent : List SessionDelivery) :
    PositionCovered route base visible sent base := by
  refine ⟨.inl rfl, ?_⟩
  intro e he hwants hbase hafter
  rw [hbase] at hafter
  cases hafter

theorem streamCovered_reconnect {start resumeCursor : Option RuntimeCursor}
    {first : StreamSession} (hopen : route.openSession start = .ok first)
    (h : StreamCovered route first.scanAfter m)
    (hresumes : ResumesSent start m (.reconnect resumeCursor)) :
    StreamCovered route first.scanAfter (reconnectStep route resumeCursor m) := by
  unfold reconnectStep
  cases hsession : route.openSession resumeCursor with
  | error reason => exact ⟨h.log, h.session, .inl rfl⟩
  | ok session =>
      obtain ⟨parsed, hparsed, hscan, hsent, hlast, hterminal, -⟩ :=
        StreamRoute.openSession_ok _ hsession
      refine ⟨h.log, sessionCovered_fresh hsent hlast hterminal, .inr (.inr ?_)⟩
      rcases hresumes with rfl | ⟨cursor, hcursor, d, hd, hafter⟩
      · rw [hopen] at hsession
        cases hsession
        exact positionCovered_base _ _
      · obtain ⟨p, w, rfl, hcovered⟩ := h.log.mem hd hafter
        cases hcursor
        obtain ⟨decoded, hdecoded, hrest⟩ := bindOk_iff.mp hparsed
        rw [StreamRoute.runtimeCursor, StreamCursor.decode_encode
          (StreamCursor.ofRoute_afterGlobalSequence route.cursors p w)] at hdecoded
        cases hdecoded
        obtain ⟨⟨⟩, -, heq⟩ := bindOk_iff.mp hrest
        cases heq
        change PositionCovered _ _ _ _ session.scanAfter
        rw [hscan]
        exact hcovered

theorem streamCovered_step {start : Option RuntimeCursor} {first : StreamSession}
    (hopen : route.openSession start = .ok first) (step : StreamStep)
    (h : StreamCovered route first.scanAfter m) (hresumes : ResumesSent start m step)
    (hclear : FrontierClear route m step) :
    StreamCovered route first.scanAfter (streamStep route m step) := by
  cases step with
  | publish entries last => exact streamCovered_publish h entries last
  | settle => exact streamCovered_settle h
  | control input => exact ⟨h.log, h.session, h.scan⟩
  | poll =>
      cases hstage : m.stage with
      | idle =>
          have hok := h.sessionOk (by simp [hstage])
          simp only [streamStep, hstage]
          apply streamCovered_orEnded h.log hok
          intro hscan
          exact streamCovered_takeControl false h.log hok
      | _ => simpa only [streamStep, hstage] using h
  | page unreadable =>
      cases hstage : m.stage with
      | querying woken =>
          simp only [streamStep, hstage]
          exact streamCovered_page h hstage unreadable
      | _ => simpa only [streamStep, hstage] using h
  | frontier =>
      cases hstage : m.stage with
      | readingFrontier woken =>
          simp only [streamStep, hstage]
          exact streamCovered_frontier h hstage hclear
      | _ => simpa only [streamStep, hstage] using h
  | wake notified =>
      cases hstage : m.stage with
      | waiting =>
          have hok := h.sessionOk (by simp [hstage])
          simp only [streamStep, hstage]
          cases notified with
          | true => exact streamCovered_takeControl true h.log hok
          | false =>
              have hscan := h.scanning (by simp [hstage]) (by simp [hstage])
              exact ⟨h.log, h.session, .inr (.inr hscan)⟩
      | _ => simpa only [streamStep, hstage] using h
  | reconnect resumeCursor => exact streamCovered_reconnect hopen h hresumes

/-- In every run in which no watermark is read over an event that became visible behind the
last page, no cursor passes over a matching event. -/
theorem subscription_never_skips (route : StreamRoute) (feed : StoreFeed)
    (start : Option RuntimeCursor) (first : StreamSession)
    (hopen : route.openSession start = .ok first) (steps : List StreamStep)
    (hsteps : Guarded (streamStep route)
      (fun m step => ResumesSent start m step ∧ FrontierClear route m step)
      (.start feed first) steps) :
    NoSkip route first.scanAfter (run (streamStep route) (.start feed first) steps) := by
  have hcovered : StreamCovered route first.scanAfter
      (run (streamStep route) (.start feed first) steps) := by
    apply run_invariant _ steps _ _ hsteps
    · rintro m step h ⟨hresumes, hclear⟩
      exact streamCovered_step hopen step h hresumes hclear
    · obtain ⟨parsed, -, -, hsent, hlast, hterminal, -⟩ := StreamRoute.openSession_ok _ hopen
      refine ⟨?_, sessionCovered_fresh hsent hlast hterminal, ?_⟩
      · intro n d hd
        cases hd
      · exact .inr (.inr (positionCovered_base _ _))
  intro n d hd cursor hcursor p hp e he hwants hbase hle
  obtain ⟨q, w, rfl, hq⟩ := hcovered.log n d hd cursor hcursor
  rw [StreamRoute.positionOf_runtimeCursor] at hp
  cases hp
  apply hq.delivered e he hwants hbase
  rw [Bool.eq_false_iff]
  intro hafter
  exact absurd hle (not_le_of_gt (isAfter_some.mp hafter))

end Runs

/-! ### A publish between the last page and the frontier -/

section Race

/-- A subscription to the events of category one. -/
def categoryRoute : StreamRoute where
  subscriptionId := ascii "a.v1"
  source := .eventCategory 1
  wirePayloadSchemaRef := ascii "schema"
  queueCap := 4
  pageSize := 2
  cursors :=
    ⟨eventStreamCursorV1, 1, List.replicate 16 0, "cursor event category mismatch",
      "cursor subscription id hash mismatch", "", List.length_replicate, by decide⟩
  reader := ⟨fun _ => none, fun e => e.payload⟩
  capPos := by decide
  pagePos := by decide
  formatEq := rfl

/-- The session of a client that starts at the beginning. -/
def categorySession : StreamSession where
  phase := .replaying
  scanAfter := none
  cursorBeforeNext := .beginning categoryRoute.cursors
  deliveryIndex := 1
  lastSentDeliveryIndex := 0
  lastAckedDeliveryIndex := 0
  lastDeliveredCursor := none
  lastAckedCursor := none
  sentCursors := []
  lastWatermarkedVisibleSeq := 0
  lastQueryReturnedEmpty := false
  terminal := none

/-- An event of category one. -/
def categoryEvent (sequence : U64) : StreamEntry :=
  ⟨sequence.val, sequence, 0, ⟨"entity", "scope"⟩, ⟨0x1000⟩, [UInt8.ofNat sequence.val]⟩

/-- A store with one event. -/
def oneEvent : StoreFeed where
  visible := [categoryEvent 0]
  frontier := ⟨0, 0⟩
  pending := none
  ordered := by decide
  reached := .inl rfl
  pendingReached := by
    intro point hpoint
    cases hpoint

def readable : StreamEntry → Bool := fun _ => false

/-- The second event is published before the page that returns it, and the client resumes from
the watermark behind it. -/
def publishBeforePage : List StreamStep :=
  [.poll, .page readable, .publish [] (categoryEvent 1), .settle, .poll, .page readable, .poll,
    .page readable, .frontier, .reconnect (some (categoryRoute.runtimeCursor
      (.afterGlobalSequence categoryRoute.cursors 1 0))), .publish [] (categoryEvent 2), .poll,
    .page readable]

instance (start : Option RuntimeCursor) (m : StreamMachine) (step : StreamStep) :
    Decidable (ResumesSent start m step) :=
  match step with
  | .reconnect _ => inferInstanceAs (Decidable (_ ∨ _))
  | .publish _ _ | .settle | .control _ | .poll | .page _ | .frontier | .wake _ =>
      inferInstanceAs (Decidable True)

instance (route : StreamRoute) (m : StreamMachine) (step : StreamStep) :
    Decidable (FrontierClear route m step) :=
  match step with
  | .frontier => inferInstanceAs (Decidable (_ = _))
  | .publish _ _ | .settle | .control _ | .poll | .page _ | .reconnect _ | .wake _ =>
      inferInstanceAs (Decidable True)

theorem publishBeforePage_never_skips :
    categoryRoute.openSession none = .ok categorySession ∧
      Guarded (streamStep categoryRoute)
        (fun m step => ResumesSent none m step ∧ FrontierClear categoryRoute m step)
        (.start oneEvent categorySession) publishBeforePage ∧
      (run (streamStep categoryRoute) (.start oneEvent categorySession)
        publishBeforePage).sent.length = 4 ∧
      NoSkip categoryRoute none
        (run (streamStep categoryRoute) (.start oneEvent categorySession) publishBeforePage) := by
  have hsteps : Guarded (streamStep categoryRoute)
      (fun m step => ResumesSent none m step ∧ FrontierClear categoryRoute m step)
      (.start oneEvent categorySession) publishBeforePage := by
    decide +kernel
  exact ⟨rfl, hsteps, by decide +kernel,
    subscription_never_skips categoryRoute oneEvent none categorySession rfl publishBeforePage
      hsteps⟩

/-- The second event is published between the last page and the read of the frontier. -/
def publishBehindPage : List StreamStep :=
  [.poll, .page readable, .poll, .page readable, .publish [] (categoryEvent 1), .settle,
    .frontier]

/-- The watermark stands at an event that was never delivered. -/
theorem publishBehindPage_skips :
    categoryRoute.openSession none = .ok categorySession ∧
      Guarded (streamStep categoryRoute) (ResumesSent none) (.start oneEvent categorySession)
        publishBehindPage ∧
      ¬NoSkip categoryRoute none
        (run (streamStep categoryRoute) (.start oneEvent categorySession)
          publishBehindPage) := by
  refine ⟨rfl, by decide +kernel, ?_⟩
  intro hskip
  have hwatermark : (run (streamStep categoryRoute) (.start oneEvent categorySession)
      publishBehindPage).sent[1]? = some (.watermark ⟨ascii "a.v1", 2,
        categoryRoute.runtimeCursor (.afterGlobalSequence categoryRoute.cursors 1 0)⟩) := by
    decide +kernel
  have hmissing : ¬∃ d ∈ (run (streamStep categoryRoute) (.start oneEvent categorySession)
      publishBehindPage).sent.take 2, d.Delivers categoryRoute (categoryEvent 1) := by
    decide +kernel
  exact hmissing (hskip 1 _ hwatermark _ rfl 1
    (categoryRoute.positionOf_runtimeCursor 1 0) (categoryEvent 1) (by decide +kernel)
    (by decide +kernel) rfl (le_refl _))

end Race

end Batpak.Syncbat
