/-
Module: Batpak.Proofs.FrameRoundTrip
Purpose: Which frames the protocol can read back: those whose fields and line are within the
  limits, which the writing side does not check.
Trusted boundary: none
Main exports: decode_encode_iff, written_frames_readable_iff
-/
import Batpak.Netbat.StreamTcp
import Batpak.Util.Scan

namespace Batpak.Netbat

open Batpak.Util Batpak.Syncbat

variable {token id operation input : Bytes} {limits : Limits} {bound : Nat}
  {delivery : SessionDelivery}

/-! ### Bytes of a token -/

/-- Bytes that are neither blanks nor line endings, and are ASCII. -/
def Plain (token : Bytes) : Prop :=
  ∀ b ∈ token, 45 ≤ b ∧ b ≤ 122

instance (token : Bytes) : Decidable (Plain token) :=
  List.decidableBAll _ token

namespace Plain

theorem blank_free (h : Plain token) : 32 ∉ token := by
  intro hmem
  exact absurd (h 32 hmem).1 (by decide)

theorem validUtf8 (h : Plain token) : validUtf8 token = true := by
  apply validUtf8_of_ascii
  intro b hb
  exact UInt8.lt_of_le_of_lt (h b hb).2 (by decide)

theorem hex (bytes : Bytes) : Plain (encodeHex bytes) := by
  intro b hb
  obtain ⟨hlow, hhigh⟩ := encodeHex_graphic hb
  exact ⟨UInt8.le_trans (by decide) hlow, UInt8.le_trans hhigh (by decide)⟩

theorem decimal (n : Nat) : Plain (toDecimal n) := by
  intro b hb
  obtain ⟨hlow, hhigh⟩ := toDecimal_digit hb
  exact ⟨UInt8.le_trans (by decide) hlow, UInt8.le_trans hhigh (by decide)⟩

theorem cursor (c : MaybeCursor) : Plain c.encodeToken := by
  cases c with
  | absent => exact (by decide : Plain [45])
  | present bytes => exact hex bytes

theorem of_all (h : token.all isTokenByte = true) : Plain token := by
  have hbyte : ∀ b : UInt8, isTokenByte b = true → (45 : UInt8) ≤ b ∧ b ≤ (122 : UInt8) :=
    forall_uint8 (by decide +kernel)
  intro b hb
  exact hbyte b (List.all_eq_true.mp h b hb)

end Plain

/-! ### Validated texts -/

theorem splitVersion_eq {name version : Bytes} (h : splitVersion id = some (name, version)) :
    id = name ++ [dot, 118] ++ version := by
  induction id generalizing name with
  | nil => cases h
  | cons a rest ih =>
      cases rest with
      | nil => cases h
      | cons b rest =>
          rw [splitVersion] at h
          cases hsplit : splitVersion (b :: rest) with
          | some parts =>
              obtain ⟨front, back⟩ := parts
              rw [hsplit] at h
              cases h
              rw [ih hsplit]
              rfl
          | none =>
              rw [hsplit] at h
              simp only at h
              split_ifs at h with hdot
              cases h
              simp only [Bool.and_eq_true, decide_eq_true_eq] at hdot
              rw [hdot.1, hdot.2]
              rfl

theorem validateSubscriptionId_plain (h : validateSubscriptionId id = .ok ()) :
    Plain id := by
  unfold validateSubscriptionId at h
  split_ifs at h
  cases hsplit : splitVersion id with
  | none =>
      rw [hsplit] at h
      cases h
  | some parts =>
      obtain ⟨name, version⟩ := parts
      rw [hsplit] at h
      simp only at h
      split_ifs at h with _ _ hname _ _ hversion
      rw [splitVersion_eq hsplit]
      have hdigit : ∀ b : UInt8, isDigit b = true → isTokenByte b = true := by
        intro b hb
        simp [isTokenByte, hb]
      apply Plain.of_all
      simp only [Bool.not_eq_true', Bool.not_eq_false, List.all_eq_true] at hname hversion
      simp only [List.all_append, Bool.and_eq_true, List.all_eq_true]
      refine ⟨⟨hname, List.all_eq_true.mp rfl⟩, ?_⟩
      intro b hb
      exact hdigit b (hversion b hb)

theorem validateReasonCode_plain {code : Bytes} (h : validateReasonCode code = .ok ()) :
    Plain code := by
  unfold validateReasonCode at h
  split_ifs at h with _ _ hall
  apply Plain.of_all
  simpa using hall

theorem validatePayloadSchemaRef_plain {reference : Bytes}
    (h : validatePayloadSchemaRef reference = .ok ()) : Plain reference := by
  unfold validatePayloadSchemaRef at h
  split_ifs at h with _ _ _ hall
  apply Plain.of_all
  simpa using hall

theorem Token.new_text {validate : Bytes → Except String Unit} (token : Token validate) :
    Token.new validate token.text = .ok token := by
  obtain ⟨text, valid⟩ := token
  unfold Token.new
  split
  · rfl
  next reason hreason =>
      rw [valid] at hreason
      cases hreason

theorem Token.new_ok {validate : Bytes → Except String Unit} {text : Bytes}
    {token : Token validate} (h : Token.new validate text = .ok token) : token.text = text := by
  unfold Token.new at h
  split at h
  · cases h
    rfl
  · cases h

theorem SubscriptionToken.new_ok {token : SubscriptionToken}
    (h : SubscriptionToken.new id limits = .ok token) :
    token.text = id ∧ id.length ≤ limits.maxSubscriptionIdBytes := by
  unfold SubscriptionToken.new at h
  split_ifs at h with hlong
  exact ⟨Token.new_ok h, Nat.not_lt.mp hlong⟩

/-! ### Fields read back -/

section Fields

variable {limits : Limits}

theorem parseUtf8_plain (h : Plain token) : parseUtf8 token = .ok token :=
  if_pos h.validUtf8

theorem subscriptionField_iff (token other : SubscriptionToken) :
    subscriptionField token.text limits = .ok other ↔
      token.text.length ≤ limits.maxSubscriptionIdBytes ∧ other = token := by
  unfold subscriptionField SubscriptionToken.new
  rw [parseUtf8_plain (validateSubscriptionId_plain token.valid)]
  change (if _ then _ else Token.new validateSubscriptionId token.text) = _ ↔ _
  rw [Token.new_text]
  split_ifs with hlong
  · simp [Nat.not_le.mpr hlong]
  · simp [Nat.not_lt.mp hlong, eq_comm]

theorem reasonField_text (code : StreamReasonCode) : reasonField code.text = .ok code := by
  unfold reasonField StreamReasonCode.new
  rw [parseUtf8_plain (validateReasonCode_plain code.valid)]
  exact Token.new_text code

theorem schemaText (reference : PayloadSchemaRef) :
    parseUtf8 reference.text = .ok reference.text :=
  parseUtf8_plain (validatePayloadSchemaRef_plain reference.valid)

theorem schemaField_text (reference : PayloadSchemaRef) :
    PayloadSchemaRef.new reference.text = .ok reference :=
  Token.new_text reference

theorem parseInteger_toDecimal {n : Nat} (h : n < bound) :
    parseInteger bound (toDecimal n) = .ok ⟨n, h⟩ := by
  unfold parseInteger
  rw [parseUtf8_plain (Plain.decimal n)]
  dsimp only [bind, Except.bind]
  rw [parseUnsigned_toDecimal h]
  exact dif_pos h

theorem Counter.new_value (counter : Counter bound) (zero : String) :
    Counter.new ⟨counter.value, counter.lt⟩ zero = .ok counter :=
  dif_pos counter.pos

theorem windowField_value (window : ClientWindow) :
    ClientWindow.new ⟨window.value, window.lt⟩ = .ok window :=
  Counter.new_value window _

theorem deliveryField_value (index : DeliveryIndex) :
    deliveryField (toDecimal index.value) = .ok index := by
  unfold deliveryField parseU64
  rw [parseInteger_toDecimal index.lt]
  exact Counter.new_value index _

theorem decodeHex_encodeHex (bytes : Bytes) (max : Nat) :
    decodeHex (encodeHex bytes) max =
      if bytes.length ≤ max then .ok bytes else .error (.inputTooLarge max) := by
  unfold decodeHex
  rw [length_encodeHex, decodePairs_encodeHex]
  have heven : 2 * bytes.length % 2 = 0 := Nat.mul_mod_right 2 _
  have hhalf : 2 * bytes.length / 2 = bytes.length := Nat.mul_div_cancel_left _ Nat.two_pos
  rw [heven, hhalf]
  by_cases hfits : bytes.length ≤ max
  · simp [hfits, Nat.not_lt.mpr hfits]
  · simp [hfits, Nat.not_le.mp hfits]

theorem decodeStreamHex_iff (bytes other : Bytes) (max : Nat) (tooLarge : Nat → NetbatError) :
    decodeStreamHex (encodeHex bytes) max tooLarge = .ok other ↔
      bytes.length ≤ max ∧ other = bytes := by
  unfold decodeStreamHex
  rw [decodeHex_encodeHex]
  by_cases hfits : bytes.length ≤ max
  · simp [hfits, eq_comm]
  · simp [hfits]

/-- The cursor is within its limit. -/
def MaybeCursor.Fits (limits : Limits) : MaybeCursor → Prop
  | .absent => True
  | .present cursor => cursor.length ≤ limits.maxCursorBytes

theorem decodeMaybeCursor_iff (c other : MaybeCursor) :
    decodeMaybeCursor c.encodeToken limits = .ok other ↔ c.Fits limits ∧ other = c := by
  cases c with
  | absent =>
      change Except.ok MaybeCursor.absent = .ok other ↔ _
      simp [MaybeCursor.Fits, eq_comm]
  | present bytes =>
      have hdash : encodeHex bytes ≠ [45] := by
        intro heq
        have hmem : (45 : UInt8) ∈ encodeHex bytes := by simp [heq]
        exact absurd (encodeHex_graphic hmem).1 (by decide)
      change (if encodeHex bytes = [45] then _ else _) = _ ↔ _
      rw [if_neg hdash, bindOk_iff]
      have hdecode (cursor : Bytes) :
          decodeRequiredCursor (encodeHex bytes) limits = .ok cursor ↔
            bytes.length ≤ limits.maxCursorBytes ∧ cursor = bytes :=
        decodeStreamHex_iff bytes cursor _ _
      constructor
      · rintro ⟨cursor, hcursor, heq⟩
        obtain ⟨hfits, rfl⟩ := (hdecode cursor).mp hcursor
        cases heq
        exact ⟨hfits, rfl⟩
      · rintro ⟨hfits, rfl⟩
        exact ⟨bytes, (hdecode bytes).mpr ⟨hfits, rfl⟩, rfl⟩

end Fields

/-! ### Parts of a line -/

section PartsRules

variable {α β : Type}

theorem next_bind (missing : String) (f : Bytes → Parts β) (token : Bytes) (rest : List Bytes) :
    (nextToken missing >>= f) (token :: rest) = f token rest :=
  rfl

theorem lift_bind (x : Except NetbatError α) (f : α → Parts β) (parts : List Bytes) :
    ((liftM x : Parts α) >>= f) parts = x >>= fun a => f a parts := by
  cases x with
  | ok a => rfl
  | error e => rfl

theorem nextMaybeCursor_bind (limits : Limits) (missing : String) (f : MaybeCursor → Parts β)
    (token : Bytes) (rest : List Bytes) :
    (nextMaybeCursor limits missing >>= f) (token :: rest) =
      decodeMaybeCursor token limits >>= fun c => f c rest := by
  unfold nextMaybeCursor
  rw [bind_assoc, next_bind, lift_bind]

/-- A body read back, under the constructor of its frame. -/
theorem map_back_iff {m : Parts α} {wrap : α → β} {parts rest : List Bytes} {fits : Prop} {a : α}
    (h : ∀ other, m parts = .ok (other, rest) ↔ fits ∧ other = a ∧ rest = []) (b : β) :
    (wrap <$> m) parts = .ok (b, rest) ↔ fits ∧ b = wrap a ∧ rest = [] := by
  change (m parts >>= fun r => pure (wrap r.1, r.2)) = _ ↔ _
  rw [bindOk_iff]
  constructor
  · rintro ⟨⟨other, rest'⟩, hread, heq⟩
    cases heq
    obtain ⟨hfits, rfl, rfl⟩ := (h other).mp hread
    exact ⟨hfits, rfl, rfl⟩
  · rintro ⟨hfits, rfl, rfl⟩
    exact ⟨(a, []), (h a).mpr ⟨hfits, rfl, rfl⟩, rfl⟩

theorem pure_ok_iff {a b : α} {parts rest : List Bytes} :
    (pure a : Parts α) parts = .ok (b, rest) ↔ b = a ∧ rest = parts := by
  change Except.ok (a, parts) = _ ↔ _
  simp only [Except.ok.injEq, Prod.mk.injEq, eq_comm]

end PartsRules

/-! ### Frames read back -/

/-- The fields of a frame are within their limits. -/
def FrameFits (limits : Limits) : StreamFrame → Prop
  | .subscribe f =>
      f.subscriptionId.text.length ≤ limits.maxSubscriptionIdBytes ∧ f.resumeCursor.Fits limits
  | .subEvent f =>
      f.subscriptionId.text.length ≤ limits.maxSubscriptionIdBytes ∧
        f.cursorBefore.Fits limits ∧ f.cursorAfter.Fits limits ∧
          f.payload.length ≤ limits.maxStreamPayloadBytes
  | .subWatermark f =>
      f.subscriptionId.text.length ≤ limits.maxSubscriptionIdBytes ∧
        f.cursorAfter.length ≤ limits.maxCursorBytes
  | .subAck f =>
      f.subscriptionId.text.length ≤ limits.maxSubscriptionIdBytes ∧
        f.cursorAfter.length ≤ limits.maxCursorBytes
  | .subCancel f => f.subscriptionId.text.length ≤ limits.maxSubscriptionIdBytes
  | .subErr f =>
      f.subscriptionId.text.length ≤ limits.maxSubscriptionIdBytes ∧
        f.lastDeliveredCursor.Fits limits ∧ f.lastAckedCursor.Fits limits ∧
          f.message.length ≤ limits.maxStreamErrorMessageBytes
  | .subEnd f =>
      f.subscriptionId.text.length ≤ limits.maxSubscriptionIdBytes ∧ f.cursorAfter.Fits limits

section Frames

variable {limits : Limits} {rest : List Bytes}

theorem decodeSubscribe_iff (f other : SubscribeFrame) :
    decodeSubscribe limits
        [f.subscriptionId.text, f.resumeCursor.encodeToken, toDecimal f.clientWindow.value] =
        .ok (other, rest) ↔
      FrameFits limits (.subscribe f) ∧ other = f ∧ rest = [] := by
  simp only [decodeSubscribe, next_bind, nextMaybeCursor_bind, lift_bind, bindOk_iff,
    decodeMaybeCursor_iff, subscriptionField_iff, parseU32,
    parseInteger_toDecimal f.clientWindow.lt, pure_ok_iff, Except.ok.injEq, exists_eq_left',
    windowField_value]
  constructor
  · rintro ⟨_, ⟨hcursor, rfl⟩, _, ⟨hid, rfl⟩, rfl, rfl⟩
    exact ⟨⟨hid, hcursor⟩, rfl, rfl⟩
  · rintro ⟨⟨hid, hcursor⟩, rfl, rfl⟩
    exact ⟨_, ⟨hcursor, rfl⟩, _, ⟨hid, rfl⟩, rfl, rfl⟩

theorem decodeSubEvent_iff (f other : SubEventFrame) :
    decodeSubEvent limits
        [f.subscriptionId.text, toDecimal f.deliveryIndex.value, f.cursorBefore.encodeToken,
          f.cursorAfter.encodeToken, f.payloadSchemaRef.text, encodeHex f.payload] =
        .ok (other, rest) ↔
      FrameFits limits (.subEvent f) ∧ other = f ∧ rest = [] := by
  simp only [decodeSubEvent, next_bind, nextMaybeCursor_bind, lift_bind, bindOk_iff,
    decodeMaybeCursor_iff, subscriptionField_iff, decodeStreamHex_iff, deliveryField_value,
    schemaText, schemaField_text, pure_ok_iff, Except.ok.injEq, exists_eq_left']
  constructor
  · rintro ⟨_, ⟨hbefore, rfl⟩, _, ⟨hafter, rfl⟩, _, ⟨hid, rfl⟩, _, ⟨hpayload, rfl⟩, rfl, rfl⟩
    exact ⟨⟨hid, hbefore, hafter, hpayload⟩, rfl, rfl⟩
  · rintro ⟨⟨hid, hbefore, hafter, hpayload⟩, rfl, rfl⟩
    exact ⟨_, ⟨hbefore, rfl⟩, _, ⟨hafter, rfl⟩, _, ⟨hid, rfl⟩, _, ⟨hpayload, rfl⟩, rfl, rfl⟩

theorem decodeProgress_iff (id : SubscriptionToken) (index : DeliveryIndex) (cursor : CursorBytes)
    (other : SubscriptionToken × DeliveryIndex × CursorBytes) :
    decodeProgress limits [id.text, toDecimal index.value, encodeHex cursor] =
        .ok (other, rest) ↔
      (id.text.length ≤ limits.maxSubscriptionIdBytes ∧ cursor.length ≤ limits.maxCursorBytes) ∧
        other = (id, index, cursor) ∧ rest = [] := by
  simp only [decodeProgress, next_bind, lift_bind, bindOk_iff, subscriptionField_iff,
    decodeRequiredCursor, decodeStreamHex_iff, deliveryField_value, pure_ok_iff,
    Except.ok.injEq, exists_eq_left']
  constructor
  · rintro ⟨_, ⟨hid, rfl⟩, _, ⟨hcursor, rfl⟩, rfl, rfl⟩
    exact ⟨⟨hid, hcursor⟩, rfl, rfl⟩
  · rintro ⟨⟨hid, hcursor⟩, rfl, rfl⟩
    exact ⟨_, ⟨hid, rfl⟩, _, ⟨hcursor, rfl⟩, rfl, rfl⟩

theorem decodeSubWatermark_iff (f other : SubWatermarkFrame) :
    decodeSubWatermark limits
        [f.subscriptionId.text, toDecimal f.deliveryIndex.value, encodeHex f.cursorAfter] =
        .ok (other, rest) ↔
      FrameFits limits (.subWatermark f) ∧ other = f ∧ rest = [] := by
  change ((fun read => SubWatermarkFrame.mk read.1 read.2.1 read.2.2) <$> decodeProgress limits) _ =
    _ ↔ _
  exact map_back_iff (decodeProgress_iff f.subscriptionId f.deliveryIndex f.cursorAfter) other

theorem decodeSubAck_iff (f other : SubAckFrame) :
    decodeSubAck limits
        [f.subscriptionId.text, toDecimal f.deliveryIndex.value, encodeHex f.cursorAfter] =
        .ok (other, rest) ↔
      FrameFits limits (.subAck f) ∧ other = f ∧ rest = [] := by
  change ((fun read => SubAckFrame.mk read.1 read.2.1 read.2.2) <$> decodeProgress limits) _ =
    _ ↔ _
  exact map_back_iff (decodeProgress_iff f.subscriptionId f.deliveryIndex f.cursorAfter) other

theorem decodeSubCancel_iff (f other : SubCancelFrame) :
    decodeSubCancel limits [f.subscriptionId.text, f.reasonCode.text] = .ok (other, rest) ↔
      FrameFits limits (.subCancel f) ∧ other = f ∧ rest = [] := by
  simp only [decodeSubCancel, next_bind, lift_bind, bindOk_iff, subscriptionField_iff,
    reasonField_text, pure_ok_iff, Except.ok.injEq, exists_eq_left']
  constructor
  · rintro ⟨_, ⟨hid, rfl⟩, rfl, rfl⟩
    exact ⟨hid, rfl, rfl⟩
  · rintro ⟨hid, rfl, rfl⟩
    exact ⟨_, ⟨hid, rfl⟩, rfl, rfl⟩

theorem decodeSubErr_iff (f other : SubErrFrame) :
    decodeSubErr limits
        [f.subscriptionId.text, f.code.text, f.lastDeliveredCursor.encodeToken,
          f.lastAckedCursor.encodeToken, encodeHex f.message] = .ok (other, rest) ↔
      FrameFits limits (.subErr f) ∧ other = f ∧ rest = [] := by
  simp only [decodeSubErr, next_bind, nextMaybeCursor_bind, lift_bind, bindOk_iff,
    decodeMaybeCursor_iff, subscriptionField_iff, decodeStreamHex_iff, reasonField_text,
    pure_ok_iff, Except.ok.injEq, exists_eq_left']
  constructor
  · rintro ⟨_, ⟨hsent, rfl⟩, _, ⟨hacked, rfl⟩, _, ⟨hid, rfl⟩, _, ⟨hmessage, rfl⟩, rfl, rfl⟩
    exact ⟨⟨hid, hsent, hacked, hmessage⟩, rfl, rfl⟩
  · rintro ⟨⟨hid, hsent, hacked, hmessage⟩, rfl, rfl⟩
    exact ⟨_, ⟨hsent, rfl⟩, _, ⟨hacked, rfl⟩, _, ⟨hid, rfl⟩, _, ⟨hmessage, rfl⟩, rfl, rfl⟩

theorem decodeSubEnd_iff (f other : SubEndFrame) :
    decodeSubEnd limits
        [f.subscriptionId.text, f.cursorAfter.encodeToken, f.reasonCode.text] =
        .ok (other, rest) ↔
      FrameFits limits (.subEnd f) ∧ other = f ∧ rest = [] := by
  simp only [decodeSubEnd, next_bind, nextMaybeCursor_bind, lift_bind, bindOk_iff,
    decodeMaybeCursor_iff, subscriptionField_iff, reasonField_text, pure_ok_iff,
    Except.ok.injEq, exists_eq_left']
  constructor
  · rintro ⟨_, ⟨hcursor, rfl⟩, _, ⟨hid, rfl⟩, rfl, rfl⟩
    exact ⟨⟨hid, hcursor⟩, rfl, rfl⟩
  · rintro ⟨⟨hid, hcursor⟩, rfl, rfl⟩
    exact ⟨_, ⟨hcursor, rfl⟩, _, ⟨hid, rfl⟩, rfl, rfl⟩

theorem decodeStreamFrameBody_iff (frame other : StreamFrame) {verb : Bytes}
    {fields : List Bytes} (htokens : frameTokens frame = verb :: fields) :
    decodeStreamFrameBody verb limits fields = .ok (other, rest) ↔
      FrameFits limits frame ∧ other = frame ∧ rest = [] := by
  cases frame with
  | subscribe f =>
      cases htokens
      change (StreamFrame.subscribe <$> decodeSubscribe limits) _ = _ ↔ _
      exact map_back_iff (decodeSubscribe_iff f) other
  | subEvent f =>
      cases htokens
      change (StreamFrame.subEvent <$> decodeSubEvent limits) _ = _ ↔ _
      exact map_back_iff (decodeSubEvent_iff f) other
  | subWatermark f =>
      cases htokens
      change (StreamFrame.subWatermark <$> decodeSubWatermark limits) _ = _ ↔ _
      exact map_back_iff (decodeSubWatermark_iff f) other
  | subAck f =>
      cases htokens
      change (StreamFrame.subAck <$> decodeSubAck limits) _ = _ ↔ _
      exact map_back_iff (decodeSubAck_iff f) other
  | subCancel f =>
      cases htokens
      change (StreamFrame.subCancel <$> decodeSubCancel limits) _ = _ ↔ _
      exact map_back_iff (decodeSubCancel_iff f) other
  | subErr f =>
      cases htokens
      change (StreamFrame.subErr <$> decodeSubErr limits) _ = _ ↔ _
      exact map_back_iff (decodeSubErr_iff f) other
  | subEnd f =>
      cases htokens
      change (StreamFrame.subEnd <$> decodeSubEnd limits) _ = _ ↔ _
      exact map_back_iff (decodeSubEnd_iff f) other

theorem frameTokens_cons (frame : StreamFrame) :
    ∃ verb fields, frameTokens frame = verb :: fields := by
  cases frame <;> exact ⟨_, _, rfl⟩

theorem streamParts_iff (frame other : StreamFrame) :
    streamParts limits (streamProtocolVersion :: frameTokens frame) = .ok (other, rest) ↔
      FrameFits limits frame ∧ other = frame ∧ rest = [] := by
  obtain ⟨verb, fields, htokens⟩ := frameTokens_cons frame
  rw [htokens]
  change (decodeStreamFrameBody verb limits fields >>= fun r =>
    noMoreParts (.malformedStreamFrame "too many fields") r.2 >>= fun s =>
      pure (r.1, s.2)) = _ ↔ _
  rw [bindOk_iff]
  constructor
  · rintro ⟨⟨read, left⟩, hbody, hend⟩
    obtain ⟨hfits, rfl, rfl⟩ := (decodeStreamFrameBody_iff frame read htokens).mp hbody
    cases hend
    exact ⟨hfits, rfl, rfl⟩
  · rintro ⟨hfits, rfl, rfl⟩
    exact ⟨_, (decodeStreamFrameBody_iff _ _ htokens).mpr ⟨hfits, rfl, rfl⟩, rfl⟩

end Frames

/-! ### Lines -/

section Lines

variable {tokens : List Bytes} (hplain : ∀ token ∈ tokens, Plain token)

include hplain

theorem control_notMem_joinTokens {b : UInt8} (hb : b < 32) : b ∉ joinTokens tokens := by
  intro hmem
  rcases mem_joinTokens hmem with rfl | ⟨token, htoken, hbyte⟩
  · exact absurd hb (by decide)
  · have hlow : (45 : UInt8) < 32 := UInt8.lt_of_le_of_lt (hplain token htoken b hbyte).1 hb
    exact absurd hlow (by decide)

theorem stripLineEnding_line :
    stripLineEnding (joinTokens tokens ++ [newline]) = joinTokens tokens := by
  unfold stripLineEnding
  rw [List.getLast?_concat, if_pos rfl, List.dropLast_concat]
  apply if_neg
  intro hlast
  exact control_notMem_joinTokens hplain (by decide) (List.mem_of_getLast? hlast)

theorem splitOn_line (hne : tokens ≠ []) : (joinTokens tokens).splitOn 32 = tokens :=
  splitOn_joinTokens (fun token htoken => (hplain token htoken).blank_free) hne

end Lines

theorem frameTokens_plain (frame : StreamFrame) :
    ∀ token ∈ streamProtocolVersion :: frameTokens frame, Plain token := by
  have hid (id : SubscriptionToken) : Plain id.text := validateSubscriptionId_plain id.valid
  have hcode (code : StreamReasonCode) : Plain code.text := validateReasonCode_plain code.valid
  have hschema (reference : PayloadSchemaRef) : Plain reference.text :=
    validatePayloadSchemaRef_plain reference.valid
  have hversion : Plain streamProtocolVersion := by decide
  cases frame with
  | subscribe f =>
      have hverb : Plain subscribeVerb := by decide
      simp [frameTokens, hversion, hverb, hid, Plain.cursor, Plain.decimal]
  | subEvent f =>
      have hverb : Plain subEventVerb := by decide
      simp [frameTokens, hversion, hverb, hid, hschema, Plain.cursor, Plain.decimal, Plain.hex]
  | subWatermark f =>
      have hverb : Plain subWatermarkVerb := by decide
      simp [frameTokens, hversion, hverb, hid, Plain.decimal, Plain.hex]
  | subAck f =>
      have hverb : Plain subAckVerb := by decide
      simp [frameTokens, hversion, hverb, hid, Plain.decimal, Plain.hex]
  | subCancel f =>
      have hverb : Plain subCancelVerb := by decide
      simp [frameTokens, hversion, hverb, hid, hcode]
  | subErr f =>
      have hverb : Plain subErrVerb := by decide
      simp [frameTokens, hversion, hverb, hid, hcode, Plain.cursor, Plain.hex]
  | subEnd f =>
      have hverb : Plain subEndVerb := by decide
      simp [frameTokens, hversion, hverb, hid, hcode, Plain.cursor]

/-- A frame is read back from its own line if its fields and the line are within the limits. -/
theorem decode_encode_iff (limits : Limits) (frame : StreamFrame) :
    decodeStreamLine (encodeStreamFrame frame) limits = .ok frame ↔
      FrameFits limits frame ∧ (encodeStreamFrame frame).length ≤ limits.maxLineBytes := by
  have hplain := frameTokens_plain frame
  unfold decodeStreamLine
  by_cases hlong : limits.maxLineBytes < (encodeStreamFrame frame).length
  · simp [hlong]
  · rw [if_neg hlong, encodeStreamFrame, stripLineEnding_line hplain]
    have hne : joinTokens (streamProtocolVersion :: frameTokens frame) ≠ [] :=
      joinTokens_ne_nil (by decide)
    simp only [List.isEmpty_iff, hne, if_false, splitOn_line hplain (List.cons_ne_nil _ _)]
    have hfits : (joinTokens (streamProtocolVersion :: frameTokens frame) ++ [newline]).length ≤
        limits.maxLineBytes := Nat.not_lt.mp hlong
    rw [and_iff_left hfits, mapOk_iff]
    constructor
    · rintro ⟨⟨read, rest⟩, hread, hfirst⟩
      exact ((streamParts_iff frame read).mp hread).1
    · intro hfields
      exact ⟨(frame, []), (streamParts_iff frame frame).mpr ⟨hfields, rfl, rfl⟩, rfl⟩

theorem length_encodeStreamFrame (frame : StreamFrame) :
    (encodeStreamFrame frame).length =
      9 + ((frameTokens frame).map fun token => token.length + 1).sum := by
  rw [encodeStreamFrame, List.length_append, List.length_singleton,
    length_joinTokens (List.cons_ne_nil _ _), List.map_cons, List.sum_cons]
  rfl

/-! ### Deliveries -/

section Deliveries

/-- The bytes of an optional cursor on the wire. -/
def cursorTokenBytes : Option RuntimeCursor → Nat
  | some cursor => 2 * cursor.length
  | none => 1

/-- The bytes of the line a delivery is written as. -/
def deliveryLineBytes : SessionDelivery → Nat
  | .event event =>
      25 + event.subscriptionId.length + (toDecimal event.deliveryIndex.val).length +
        2 * event.cursorBefore.length + 2 * event.cursorAfter.length +
          event.wirePayloadSchemaRef.length + 2 * event.envelopeBytes.length
  | .watermark watermark =>
      26 + watermark.subscriptionId.length + (toDecimal watermark.deliveryIndex.val).length +
        2 * watermark.cursorAfter.length
  | .error error =>
      22 + (error.subscriptionId.elim 18 List.length) + error.code.length +
        cursorTokenBytes error.lastDeliveredCursor + cursorTokenBytes error.lastAckedCursor +
          2 * error.message.length
  | .ended ended =>
      20 + ended.subscriptionId.length + cursorTokenBytes ended.cursorAfter +
        ended.reasonCode.length

/-- Every cursor, the payload and the message are within their own limits. -/
def DeliveryFieldsFit (limits : Limits) : SessionDelivery → Prop
  | .event event =>
      event.cursorBefore.length ≤ limits.maxCursorBytes ∧
        event.cursorAfter.length ≤ limits.maxCursorBytes ∧
          event.envelopeBytes.length ≤ limits.maxStreamPayloadBytes
  | .watermark watermark => watermark.cursorAfter.length ≤ limits.maxCursorBytes
  | .error error =>
      (∀ cursor ∈ error.lastDeliveredCursor, cursor.length ≤ limits.maxCursorBytes) ∧
        (∀ cursor ∈ error.lastAckedCursor, cursor.length ≤ limits.maxCursorBytes) ∧
          error.message.length ≤ limits.maxStreamErrorMessageBytes
  | .ended ended => ∀ cursor ∈ ended.cursorAfter, cursor.length ≤ limits.maxCursorBytes

theorem optionalCursor_fits (limits : Limits) (cursor : Option RuntimeCursor) :
    (optionalCursor cursor).Fits limits ↔
      ∀ bytes ∈ cursor, bytes.length ≤ limits.maxCursorBytes := by
  cases cursor with
  | none => simp [optionalCursor, MaybeCursor.Fits]
  | some bytes => simp [optionalCursor, encodeMaybeCursor, MaybeCursor.Fits]

theorem optionalCursor_length (cursor : Option RuntimeCursor) :
    (optionalCursor cursor).encodeToken.length = cursorTokenBytes cursor := by
  cases cursor with
  | none => rfl
  | some bytes => exact length_encodeHex bytes

theorem orMalformed_ok {α : Type} {reason : String} {x : Except NetbatError α} {a : α}
    (h : orMalformed reason x = .ok a) : x = .ok a := by
  cases x with
  | ok b => exact h
  | error e => cases h

theorem Counter.new_ok {value : Fin bound} {zero : String} {counter : Counter bound}
    (h : Counter.new value zero = .ok counter) : counter.value = value.val := by
  unfold Counter.new at h
  split_ifs at h
  cases h
  rfl

variable {limits : Limits} {frame : StreamFrame}

theorem deliveryToFrame_event {event : SessionEventDelivery}
    (h : deliveryToFrame limits (.event event) = .ok frame) :
    (FrameFits limits frame ↔ DeliveryFieldsFit limits (.event event)) ∧
      (encodeStreamFrame frame).length = deliveryLineBytes (.event event) := by
  obtain ⟨id, hid, h⟩ := bindOk_iff.mp h
  obtain ⟨schema, hschema, h⟩ := bindOk_iff.mp h
  obtain ⟨index, hindex, h⟩ := bindOk_iff.mp h
  cases h
  obtain ⟨htext, hshort⟩ := SubscriptionToken.new_ok hid
  have href : schema.text = event.wirePayloadSchemaRef := Token.new_ok (orMalformed_ok hschema)
  have hvalue : index.value = event.deliveryIndex.val := Counter.new_ok hindex
  constructor
  · simp [FrameFits, DeliveryFieldsFit, MaybeCursor.Fits, encodeMaybeCursor, htext, hshort]
  · simp only [length_encodeStreamFrame, frameTokens, deliveryLineBytes, htext, href, hvalue,
      encodeMaybeCursor, MaybeCursor.encodeToken, length_encodeHex, List.map_cons, List.map_nil,
      List.sum_cons, List.sum_nil]
    have hverb : subEventVerb.length = 9 := rfl
    omega

theorem deliveryToFrame_watermark {watermark : SessionWatermarkDelivery}
    (h : deliveryToFrame limits (.watermark watermark) = .ok frame) :
    (FrameFits limits frame ↔ DeliveryFieldsFit limits (.watermark watermark)) ∧
      (encodeStreamFrame frame).length = deliveryLineBytes (.watermark watermark) := by
  obtain ⟨id, hid, h⟩ := bindOk_iff.mp h
  obtain ⟨index, hindex, h⟩ := bindOk_iff.mp h
  cases h
  obtain ⟨htext, hshort⟩ := SubscriptionToken.new_ok hid
  have hvalue : index.value = watermark.deliveryIndex.val := Counter.new_ok hindex
  constructor
  · simp [FrameFits, DeliveryFieldsFit, htext, hshort]
  · simp only [length_encodeStreamFrame, frameTokens, deliveryLineBytes, htext, hvalue,
      length_encodeHex, List.map_cons, List.map_nil, List.sum_cons, List.sum_nil]
    have hverb : subWatermarkVerb.length = 13 := rfl
    omega

theorem errorSubscription_ok {id : Option Bytes} {token : SubscriptionToken}
    (h : errorSubscription limits id = .ok token) :
    token.text.length = id.elim 18 List.length ∧
      token.text.length ≤ limits.maxSubscriptionIdBytes := by
  cases id with
  | some id =>
      obtain ⟨rfl, hshort⟩ := SubscriptionToken.new_ok h
      exact ⟨rfl, hshort⟩
  | none =>
      obtain ⟨htext, hshort⟩ := SubscriptionToken.new_ok (orMalformed_ok h)
      rw [htext]
      exact ⟨rfl, hshort⟩

theorem deliveryToFrame_error {error : SessionError}
    (h : deliveryToFrame limits (.error error) = .ok frame) :
    (FrameFits limits frame ↔ DeliveryFieldsFit limits (.error error)) ∧
      (encodeStreamFrame frame).length = deliveryLineBytes (.error error) := by
  obtain ⟨f, hframe, h⟩ := bindOk_iff.mp h
  cases h
  obtain ⟨id, hid, h⟩ := bindOk_iff.mp hframe
  obtain ⟨code, hcode, h⟩ := bindOk_iff.mp h
  cases h
  obtain ⟨hlength, hshort⟩ := errorSubscription_ok hid
  have htext : code.text = error.code := Token.new_ok (orMalformed_ok hcode)
  constructor
  · simp [FrameFits, DeliveryFieldsFit, optionalCursor_fits, hshort]
  · simp only [length_encodeStreamFrame, frameTokens, deliveryLineBytes, htext, hlength,
      optionalCursor_length, length_encodeHex, List.map_cons, List.map_nil, List.sum_cons,
      List.sum_nil]
    have hverb : subErrVerb.length = 7 := rfl
    omega

theorem deliveryToFrame_ended {ended : SessionEnd}
    (h : deliveryToFrame limits (.ended ended) = .ok frame) :
    (FrameFits limits frame ↔ DeliveryFieldsFit limits (.ended ended)) ∧
      (encodeStreamFrame frame).length = deliveryLineBytes (.ended ended) := by
  obtain ⟨f, hframe, h⟩ := bindOk_iff.mp h
  cases h
  obtain ⟨id, hid, h⟩ := bindOk_iff.mp hframe
  obtain ⟨code, hcode, h⟩ := bindOk_iff.mp h
  cases h
  obtain ⟨htext, hshort⟩ := SubscriptionToken.new_ok hid
  have hreason : code.text = ended.reasonCode := Token.new_ok (orMalformed_ok hcode)
  constructor
  · simp [FrameFits, DeliveryFieldsFit, optionalCursor_fits, htext, hshort]
  · simp only [length_encodeStreamFrame, frameTokens, deliveryLineBytes, htext, hreason,
      optionalCursor_length, List.map_cons, List.map_nil, List.sum_cons, List.sum_nil]
    have hverb : subEndVerb.length = 7 := rfl
    omega

theorem deliveryToFrame_sizes (h : deliveryToFrame limits delivery = .ok frame) :
    (FrameFits limits frame ↔ DeliveryFieldsFit limits delivery) ∧
      (encodeStreamFrame frame).length = deliveryLineBytes delivery := by
  cases delivery with
  | event event => exact deliveryToFrame_event h
  | watermark watermark => exact deliveryToFrame_watermark h
  | error error => exact deliveryToFrame_error h
  | ended ended => exact deliveryToFrame_ended h

end Deliveries

/-! ### Requests -/

section Requests

variable {limits : Limits}

theorem isOperationByte_plain (h : ∀ b ∈ operation, isOperationByte b = true) :
    Plain operation := by
  have hbyte : ∀ b : UInt8, isOperationByte b = true → (45 : UInt8) ≤ b ∧ b ≤ (122 : UInt8) :=
    forall_uint8 (by decide +kernel)
  intro b hb
  exact hbyte b (h b hb)

theorem validateName_plain (h : validateName operation = .ok ()) :
    Plain operation := by
  unfold validateName at h
  cases hfind : operation.find? fun b => !isOperationByte b with
  | some byte =>
      rw [hfind] at h
      split_ifs at h
  | none =>
      apply isOperationByte_plain
      intro b hb
      have hnone := List.find?_eq_none.mp hfind b hb
      simpa using hnone

theorem validateOperationName_iff (h : validateName operation = .ok ()) :
    validateOperationName operation limits = .ok () ↔
      operation.length ≤ limits.maxOperationNameBytes := by
  unfold validateOperationName
  rw [h, (validateName_plain h).validUtf8]
  by_cases hlong : limits.maxOperationNameBytes < operation.length
  · simp [hlong]
  · simp [Nat.not_lt.mp hlong]

/-- A line without a line feed before its end is returned as soon as it is read. -/
theorem readLineFrom_line {max : Nat} {body line : Bytes} (hbody : newline ∉ body)
    (hmax : line.length + body.length + 1 ≤ max) (rest : List ReadEvent) :
    readLineFrom max line ((body ++ [newline]).map .byte ++ rest) =
      .returned (.ok (line ++ body ++ [newline])) rest := by
  induction body generalizing line with
  | nil =>
      change readLineFrom max line (.byte newline :: rest) = _
      have hshort : ¬max < (line ++ [newline]).length := by
        rw [List.length_append, List.length_singleton]
        exact Nat.not_lt.mpr hmax
      rw [readLineFrom, if_neg hshort, if_pos rfl, List.append_nil]
  | cons b body ih =>
      rw [List.mem_cons, not_or] at hbody
      have hlength : (line ++ [b]).length + body.length + 1 ≤ max := by
        rw [List.length_append, List.length_singleton]
        rw [List.length_cons] at hmax
        omega
      have hshort : ¬max < (line ++ [b]).length := by omega
      change readLineFrom max line (.byte b :: ((body ++ [newline]).map .byte ++ rest)) = _
      rw [readLineFrom, if_neg hshort, if_neg (Ne.symm hbody.1), ih hbody.2 hlength,
        List.append_assoc line]
      rfl

/-- The bytes of a request line. -/
def requestLineBytes (operation input : Bytes) : Nat :=
  16 + operation.length + 2 * input.length

theorem length_encodeRequest (operation input : Bytes) :
    (encodeRequest operation input).length = requestLineBytes operation input := by
  rw [encodeRequest, List.length_append, List.length_singleton,
    length_joinTokens (List.cons_ne_nil _ _)]
  simp only [List.map_cons, List.map_nil, List.sum_cons, List.sum_nil, length_encodeHex]
  have hversion : lineProtocolVersion.length = 8 := rfl
  have hverb : callVerb.length = 4 := rfl
  unfold requestLineBytes
  omega

theorem requestTokens_plain (h : Plain operation) (input : Bytes) :
    ∀ token ∈ [lineProtocolVersion, callVerb, operation, encodeHex input], Plain token := by
  have hversion : Plain lineProtocolVersion := by decide
  have hverb : Plain callVerb := by decide
  simp [hversion, hverb, h, Plain.hex]

theorem decodeLine_encodeRequest_iff (hname : validateName operation = .ok ())
    (hinput : input.length ≤ limits.maxInputBytes) :
    decodeLine (encodeRequest operation input) limits = .ok ⟨operation, input⟩ ↔
      operation.length ≤ limits.maxOperationNameBytes ∧
        requestLineBytes operation input ≤ limits.maxLineBytes := by
  have hplain := requestTokens_plain (validateName_plain hname) input
  unfold decodeLine
  rw [length_encodeRequest]
  by_cases hlong : limits.maxLineBytes < requestLineBytes operation input
  · simp [hlong]
  · rw [if_neg hlong, encodeRequest, stripLineEnding_line hplain,
      and_iff_left (Nat.not_lt.mp hlong)]
    have hne : joinTokens [lineProtocolVersion, callVerb, operation, encodeHex input] ≠ [] :=
      joinTokens_ne_nil (by decide)
    simp only [List.isEmpty_iff, hne, if_false, splitOn_line hplain (List.cons_ne_nil _ _)]
    have hparts : requestParts [lineProtocolVersion, callVerb, operation, encodeHex input] =
        .ok ((callVerb, operation, encodeHex input), []) := rfl
    rw [hparts, ← validateOperationName_iff hname]
    change (validateOperationName operation limits >>= fun _ =>
      decodeHex (encodeHex input) limits.maxInputBytes >>= fun input =>
        pure (RequestFrame.mk operation input)) = _ ↔ _
    rw [decodeHex_encodeHex, if_pos hinput, bindOk_iff]
    constructor
    · rintro ⟨⟨⟩, hvalid, -⟩
      exact hvalid
    · intro hvalid
      exact ⟨(), hvalid, rfl⟩

theorem readLine_encodeRequest (hname : validateName operation = .ok ())
    (hshort : requestLineBytes operation input ≤ limits.maxLineBytes) (rest : List ReadEvent) :
    readLine limits.maxLineBytes ((encodeRequest operation input).map .byte ++ rest) =
      .returned (.ok (encodeRequest operation input)) rest := by
  have hplain := requestTokens_plain (validateName_plain hname) input
  rw [← length_encodeRequest] at hshort
  unfold encodeRequest at hshort ⊢
  rw [List.length_append, List.length_singleton] at hshort
  apply readLineFrom_line (control_notMem_joinTokens hplain (by decide))
  rw [List.length_nil, Nat.zero_add]
  exact hshort

end Requests

/-! ### What is written can be read -/

/-- The line of a delivery is within the line limit, ends at its only line feed and is read
back as the same frame. -/
structure LineReadable (limits : Limits) (frame : StreamFrame) (line : Bytes) : Prop where
  short : line.length ≤ limits.maxLineBytes
  oneLine : newline ∉ line.dropLast
  decoded : decodeStreamLine line limits = .ok frame

/-- The reader returns the line of a request and leaves what follows, and the line decodes to
the same operation and input. -/
structure RequestReadable (limits : Limits) (operation input : Bytes) : Prop where
  read : ∀ rest, readLine limits.maxLineBytes
    ((encodeRequest operation input).map .byte ++ rest) =
      .returned (.ok (encodeRequest operation input)) rest
  decoded : decodeLine (encodeRequest operation input) limits = .ok ⟨operation, input⟩

theorem lineReadable_iff {frame : StreamFrame} (h : deliveryToFrame limits delivery = .ok frame) :
    LineReadable limits frame (encodeStreamFrame frame) ↔
      DeliveryFieldsFit limits delivery ∧ deliveryLineBytes delivery ≤ limits.maxLineBytes := by
  obtain ⟨hfits, hlength⟩ := deliveryToFrame_sizes h
  have hdecode := decode_encode_iff limits frame
  rw [hfits, hlength] at hdecode
  constructor
  · intro hreadable
    exact hdecode.mp hreadable.decoded
  · intro hsizes
    refine ⟨hlength ▸ hsizes.2, ?_, hdecode.mpr hsizes⟩
    rw [encodeStreamFrame, List.dropLast_concat]
    exact control_notMem_joinTokens (frameTokens_plain frame) (by decide)

theorem requestReadable_iff (hname : validateName operation = .ok ())
    (hinput : input.length ≤ limits.maxInputBytes) :
    RequestReadable limits operation input ↔
      operation.length ≤ limits.maxOperationNameBytes ∧
        requestLineBytes operation input ≤ limits.maxLineBytes := by
  rw [← decodeLine_encodeRequest_iff hname hinput]
  constructor
  · intro hreadable
    exact hreadable.decoded
  · intro hdecoded
    have hsizes := (decodeLine_encodeRequest_iff hname hinput).mp hdecoded
    exact ⟨readLine_encodeRequest hname hsizes.2, hdecoded⟩

theorem writeDelivery_readable_iff {line : Bytes}
    (hwrite : writeDelivery limits delivery = .ok line) :
    (∃ frame, deliveryToFrame limits delivery = .ok frame ∧ LineReadable limits frame line) ↔
      DeliveryFieldsFit limits delivery ∧ deliveryLineBytes delivery ≤ limits.maxLineBytes := by
  obtain ⟨frame, hframe, hline⟩ := bindOk_iff.mp hwrite
  cases hline
  rw [← lineReadable_iff hframe]
  constructor
  · rintro ⟨other, hother, hreadable⟩
    rw [hframe] at hother
    cases hother
    exact hreadable
  · intro hreadable
    exact ⟨frame, hframe, hreadable⟩

/-- A written line can be read exactly when the sizes that the writing side does not compare
with the limits are within them: the fields of a delivery, the name of an operation, and the
line with its fields in hexadecimal. -/
theorem written_frames_readable_iff (limits : Limits) :
    (∀ delivery line, writeDelivery limits delivery = .ok line →
      ((∃ frame, deliveryToFrame limits delivery = .ok frame ∧ LineReadable limits frame line) ↔
        DeliveryFieldsFit limits delivery ∧
          deliveryLineBytes delivery ≤ limits.maxLineBytes)) ∧
    (∀ operation input, validateName operation = .ok () →
      input.length ≤ limits.maxInputBytes →
        (RequestReadable limits operation input ↔
          operation.length ≤ limits.maxOperationNameBytes ∧
            requestLineBytes operation input ≤ limits.maxLineBytes)) := by
  constructor
  · intro delivery line hwrite
    exact writeDelivery_readable_iff hwrite
  · intro operation input hname hinput
    exact requestReadable_iff hname hinput

/-- An end of a stream under its shortest name. -/
def shortEnd : SessionDelivery :=
  .ended ⟨ascii "a.v1", ascii "done", none⟩

theorem short_lines_readable :
    (∃ line, writeDelivery Limits.default shortEnd = .ok line ∧
      ∃ frame, deliveryToFrame Limits.default shortEnd = .ok frame ∧
        LineReadable Limits.default frame line) ∧
    RequestReadable Limits.default (ascii "sys.ping") [0, 255] := by
  obtain ⟨hdeliveries, hrequests⟩ := written_frames_readable_iff Limits.default
  constructor
  · have hfields : DeliveryFieldsFit Limits.default shortEnd := by
      intro cursor hcursor
      cases hcursor
    exact ⟨_, rfl, (hdeliveries shortEnd _ rfl).mpr ⟨hfields, by decide⟩⟩
  · exact (hrequests _ _ (by decide) (by decide)).mpr ⟨by decide, by decide⟩

/-- A payload of exactly the size that the limits allow. -/
def fullEvent : SessionDelivery :=
  .event ⟨ascii "a.v1", 1, [], [], ascii "schema", List.replicate 32768 0⟩

theorem deliveryLineBytes_payload (n : Nat) : deliveryLineBytes
    (.event ⟨ascii "a.v1", 1, [], [], ascii "schema", List.replicate n 0⟩) = 36 + 2 * n := by
  simp only [deliveryLineBytes, List.length_replicate]
  rfl

/-- With the default limits the payload and the input of the largest allowed size are written
as lines that are too long to be read. -/
theorem fullEvent_unreadable :
    (DeliveryFieldsFit Limits.default fullEvent ∧
      ∃ line, writeDelivery Limits.default fullEvent = .ok line ∧
        ¬∃ frame, deliveryToFrame Limits.default fullEvent = .ok frame ∧
          LineReadable Limits.default frame line) ∧
    (validateName (ascii "sys.ping") = .ok () ∧
      (List.replicate 32768 (0 : UInt8)).length ≤ Limits.default.maxInputBytes ∧
        ¬RequestReadable Limits.default (ascii "sys.ping") (List.replicate 32768 0)) := by
  constructor
  · have hfields : DeliveryFieldsFit Limits.default fullEvent := by
      refine ⟨Nat.zero_le _, Nat.zero_le _, ?_⟩
      rw [List.length_replicate]
      decide
    refine ⟨hfields, _, rfl, ?_⟩
    intro hreadable
    have hline := ((writeDelivery_readable_iff rfl).mp hreadable).2
    rw [fullEvent, deliveryLineBytes_payload] at hline
    exact absurd hline (by decide)
  · have hinput : (List.replicate 32768 (0 : UInt8)).length ≤ Limits.default.maxInputBytes := by
      rw [List.length_replicate]
      decide
    refine ⟨by decide, hinput, ?_⟩
    intro hreadable
    have hline := ((requestReadable_iff (by decide) hinput).mp hreadable).2
    rw [requestLineBytes, List.length_replicate] at hline
    exact absurd hline (by decide)

end Batpak.Netbat
