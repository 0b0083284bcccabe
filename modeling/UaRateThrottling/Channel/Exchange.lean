import UaRateThrottling.Channel.Direct
import UaRateThrottling.Channel.Encoder
import UaRateThrottling.Channel.Outcome

/-!
# Encoding into buffers that are exchanged

`sendEncoded` sends a message with the encoder of its content, which has the buffers exchanged when
they are full, for the throttled sender and for the direct one.  They differ in what an aborted
message leaves behind.  The throttled sender has freed the buffer and keeps the pointer to it, so
that an encoder which goes on writes into freed memory; the direct one has cleared the pointer, and
an encoder which goes on finds no room.

* `sendEncoded_follows` says that the direct sender does what the throttled one does, as far as that
  is defined.
* `cut` is how an encoder cuts a message into payloads, by the sizes of the buffers and the limits
  of the other end alone, and `runEncoder_sends` says that the throttled sender sends what is cut
  off.
-/

namespace UA

/-- A sender while it encodes, with the number of buffers exchanged so far, and whether the last one
has been released. -/
structure Encoding (σ : Type) where
  sender : σ
  exchanged : Nat
  released : Bool

end UA

namespace Zuth

open UA

/-- What is sent: the id of its binary encoding, and the encoder of its content. -/
structure EncodedContent where
  binaryEncodingId : UInt32
  encoder : Encoder

/-- The buffers of a channel have room for the headers. -/
def hasRoom (channel : SecureChannel) : Bool :=
  channel.connection.all (fun connection =>
    secureMessageHeaderLength ≤ connection.localConf.sendBufferSize.toNat)

/-- The buffers of the throttled sender.  When a message has been aborted the last buffer is freed,
and using it is undefined. -/
def buffers (closed : Bool) : Buffers (Encoding Sender) where
  write bytes e :=
    if e.released then .undefined
    else if e.sender.dst.length + bytes.length ≤ e.sender.space then
      .returns .good { e with sender := { e.sender with dst := e.sender.dst ++ bytes } }
    else .returns .badEncodingLimitsExceeded e
  exchange e :=
    if e.released then .undefined
    else
      match sendChunk closed e.sender with
      | (retval, sender) =>
        if retval ≠ .good then .returns retval ⟨sender, e.exchanged + 1, true⟩
        else if hasRoom sender.channel then .returns retval ⟨sender, e.exchanged + 1, false⟩
        else .undefined
  goBack old e :=
    if e.exchanged = old.exchanged ∧ old.sender.dst.length ≤ e.sender.space then
      .returns .good { e with sender := { e.sender with dst := old.sender.dst } }
    else .undefined

/-- `ZUTH_SecureChannel_sendBinaryMessage` after the encoder: the abort chunk is sent, unless it has
been sent, or the final chunk. -/
def sendLast (closed : Bool) (retval : StatusCode) (e : Encoding Sender) :
    Run (SecureChannel × List Task) :=
  if retval ≠ .good ∧ e.sender.ci.final then .returns retval (e.sender.channel, e.sender.tasks)
  else if e.released then .undefined
  else if retval ≠ .good then
    let sender := (sendChunk closed
      { e.sender with ci := { e.sender.ci with errorCode := retval } }).2
    .returns retval (sender.channel, sender.tasks)
  else
    match sendChunk closed { e.sender with ci := { e.sender.ci with final := true } } with
    | (retval, sender) => .returns retval (sender.channel, sender.tasks)

/-- `ZUTH_SecureChannel_sendBinaryMessage` of a message with its encoder. -/
def sendEncoded (closed : Bool) (fuel : Nat) (channel : SecureChannel) (requestId : UInt32)
    (content : EncodedContent) : Run (SecureChannel × List Task) :=
  match channel.connection with
  | none => .returns .badInternalError (channel, [])
  | some connection =>
    match getSendBuffer connection closed connection.localConf.sendBufferSize with
    | .error retval => .returns retval (channel, [])
    | .ok length =>
      if length < secureMessageHeaderLength then .undefined
      else
        let space := length - secureMessageHeaderLength
        let typeId := NodeId.encodeNumeric 0 content.binaryEncodingId
        let ci : ChunkInfo := {
          requestId := requestId
          messageType := messageType content.binaryEncodingId
          chunksSoFar := 0
          messageSizeSoFar := 0
          final := false
          errorCode := .good }
        let dst := if typeId.length ≤ space then typeId else []
        (runEncoder (buffers closed) fuel content.encoder
          ⟨⟨channel, ci, dst, space, []⟩, 0, false⟩).bind (sendLast closed)

end Zuth

namespace UA

open Zuth (ChunkInfo EncodedContent getSendBuffer hasRoom messageType)

/-- The buffers of the direct sender.  When a message has been aborted the last buffer has been
released and its pointer is null: there is no room behind it, and no place for headers in front
of it. -/
def buffers (closed : Bool) : Buffers (Encoding Writer) where
  write bytes e :=
    if e.released then .returns .badEncodingLimitsExceeded e
    else if e.sender.dst.length + bytes.length ≤ e.sender.space then
      .returns .good { e with sender := { e.sender with dst := e.sender.dst ++ bytes } }
    else .returns .badEncodingLimitsExceeded e
  exchange e :=
    if e.released then .undefined
    else
      match SecureChannel.sendChunk closed e.sender with
      | (retval, writer) =>
        if retval ≠ .good then .returns retval ⟨writer, e.exchanged + 1, true⟩
        else if hasRoom writer.channel then .returns retval ⟨writer, e.exchanged + 1, false⟩
        else .undefined
  goBack old e :=
    if e.exchanged = old.exchanged ∧ old.sender.dst.length ≤ e.sender.space then
      .returns .good { e with sender := { e.sender with dst := old.sender.dst } }
    else .undefined

/-- `UA_SecureChannel_sendBinaryMessage` after the encoder: the abort chunk is sent, unless it has
been sent, or the final chunk. -/
def sendLast (closed : Bool) (retval : StatusCode) (e : Encoding Writer) :
    Run (SecureChannel × List (List UInt8)) :=
  if retval ≠ .good ∧ e.sender.ci.final then .returns retval (e.sender.channel, e.sender.written)
  else if e.released then .undefined
  else if retval ≠ .good then
    let writer := (SecureChannel.sendChunk closed
      { e.sender with ci := { e.sender.ci with errorCode := retval } }).2
    .returns retval (writer.channel, writer.written)
  else
    match SecureChannel.sendChunk closed
      { e.sender with ci := { e.sender.ci with final := true } } with
    | (retval, writer) => .returns retval (writer.channel, writer.written)

/-- `UA_SecureChannel_sendBinaryMessage` of a message with its encoder. -/
def SecureChannel.sendEncoded (closed : Bool) (fuel : Nat) (channel : SecureChannel)
    (requestId : UInt32) (content : EncodedContent) : Run (SecureChannel × List (List UInt8)) :=
  match channel.connection with
  | none => .returns .badInternalError (channel, [])
  | some connection =>
    match getSendBuffer connection closed connection.localConf.sendBufferSize with
    | .error retval => .returns retval (channel, [])
    | .ok length =>
      if length < secureMessageHeaderLength then .undefined
      else
        let space := length - secureMessageHeaderLength
        let typeId := NodeId.encodeNumeric 0 content.binaryEncodingId
        let ci : ChunkInfo := {
          requestId := requestId
          messageType := messageType content.binaryEncodingId
          chunksSoFar := 0
          messageSizeSoFar := 0
          final := false
          errorCode := .good }
        let dst := if typeId.length ≤ space then typeId else []
        (runEncoder (buffers closed) fuel content.encoder
          ⟨⟨channel, ci, dst, space, []⟩, 0, false⟩).bind (sendLast closed)

end UA

namespace Zuth

open UA

/-! ### The two senders -/

/-- The direct sender that the throttled one stands for. -/
def direct (e : Encoding Sender) : Encoding Writer := ⟨e.sender.direct, e.exchanged, e.released⟩

/-- The buffers of the direct sender do what those of the throttled one do. -/
theorem buffers_direct (closed : Bool) :
  Buffers.Follow (fun e writer => writer = direct e) (buffers closed) (UA.buffers closed)
  := by
  constructor
  · rintro bytes ⟨sender, exchanged, released⟩ _ rfl
    cases released with
    | true => trivial
    | false =>
        by_cases hfits : sender.dst.length + bytes.length ≤ sender.space
        · simp only [buffers, UA.buffers, direct, Bool.false_eq_true, if_false, if_pos hfits,
            if_pos (show sender.direct.dst.length + bytes.length ≤ sender.direct.space from hfits)]
          exact ⟨_, rfl, rfl⟩
        · simp only [buffers, UA.buffers, direct, Bool.false_eq_true, if_false, if_neg hfits,
            if_neg (show ¬sender.direct.dst.length + bytes.length ≤ sender.direct.space from hfits)]
          exact ⟨_, rfl, rfl⟩
  · rintro ⟨sender, exchanged, released⟩ _ rfl
    cases released with
    | true => trivial
    | false =>
        simp only [buffers, UA.buffers, direct, Bool.false_eq_true, if_false, sendChunk_direct]
        split
        · exact ⟨_, rfl, rfl⟩
        · have hchannel : (sendChunk closed sender).2.direct.channel =
              (sendChunk closed sender).2.channel := rfl
          rw [hchannel]
          split
          · exact ⟨_, rfl, rfl⟩
          · trivial
  · rintro ⟨sender₀, exchanged₀, released₀⟩ _ rfl ⟨sender, exchanged, released⟩ _ rfl
    by_cases hback : exchanged = exchanged₀ ∧ sender₀.dst.length ≤ sender.space
    · simp only [buffers, UA.buffers, direct, if_pos hback, if_pos (show exchanged = exchanged₀ ∧
        sender₀.direct.dst.length ≤ sender.direct.space from hback)]
      exact ⟨_, rfl, rfl⟩
    · simp only [buffers, if_neg hback]
      trivial

/-- The direct sender does what the throttled one does, as far as that is defined. -/
theorem sendEncoded_follows (closed : Bool) (fuel : Nat) (channel : SecureChannel)
    (requestId : UInt32) (content : EncodedContent) :
  (sendEncoded closed fuel channel requestId content).Follows
    (fun sent written => written = (sent.1, sent.2.map Task.dst))
    (SecureChannel.sendEncoded closed fuel channel requestId content)
  := by
  rw [SecureChannel.sendEncoded, sendEncoded]
  cases channel.connection with
  | none => exact ⟨_, rfl, rfl⟩
  | some connection =>
      dsimp only
      cases getSendBuffer connection closed connection.localConf.sendBufferSize with
      | error retval => exact ⟨_, rfl, rfl⟩
      | ok length =>
          dsimp only
          split
          · trivial
          apply (runEncoder_follows (buffers_direct closed) fuel content.encoder _ _ rfl).bind
          rintro retval e _ rfl
          have hsend : ∀ ci, SecureChannel.sendChunk closed { (direct e).sender with ci := ci } =
              ((sendChunk closed { e.sender with ci := ci }).1,
                (sendChunk closed { e.sender with ci := ci }).2.direct) := by
            intro ci
            apply sendChunk_direct closed { e.sender with ci := ci }
          have hci : (direct e).sender.ci = e.sender.ci := rfl
          have hreleased : (direct e).released = e.released := rfl
          simp only [sendLast, UA.sendLast, hsend, hci, hreleased]
          split_ifs
          · exact ⟨_, rfl, rfl⟩
          · trivial
          · exact ⟨_, rfl, rfl⟩
          · exact ⟨_, rfl, rfl⟩

/-! ### The cut of a message -/

/-- The buffer holds again what it held before. -/
def Progress.goBack (progress : Progress) (dst : List UInt8) (h : dst.length ≤ progress.space) :
    Progress where
  payloads := progress.payloads
  dst := dst
  space := progress.space
  fits := h
  space_lt := progress.space_lt
  payloads_lt := progress.payloads_lt

/-- The buffers as a message is cut into payloads: an exchange fails when the chunk for the payload
exceeds a limit of the other end, and nothing may be done with the buffer after that. -/
def cutting (connection : Connection) : Buffers (Encoding Progress) where
  write bytes e :=
    if e.released then .undefined
    else if h : e.sender.dst.length + bytes.length ≤ e.sender.space then
      .returns .good { e with sender := e.sender.write bytes h }
    else .returns .badEncodingLimitsExceeded e
  exchange e :=
    if e.released then .undefined
    else if Exceeds connection.remoteConf e.sender.payloads e.sender.dst then
      .returns .badResponseTooLarge ⟨e.sender, e.exchanged + 1, true⟩
    else if secureMessageHeaderLength ≤ connection.localConf.sendBufferSize.toNat then
      .returns .good ⟨e.sender.exchange connection, e.exchanged + 1, false⟩
    else .undefined
  goBack old e :=
    if h : e.exchanged = old.exchanged ∧ old.sender.dst.length ≤ e.sender.space then
      .returns .good { e with sender := e.sender.goBack old.sender.dst h.2 }
    else .undefined

/-- How the encoder of a message cuts it, for so many steps. -/
def cut (connection : Connection) (fuel : Nat) (content : EncodedContent) :
    Run (Encoding Progress) :=
  runEncoder (cutting connection) fuel content.encoder
    ⟨.start connection.remoteConf.recvBufferSize
      (NodeId.encodeNumeric 0 content.binaryEncodingId), 0, false⟩

section

variable {channel : SecureChannel} {connection : Connection} {requestId type : UInt32}
  {closed : Bool} {length : Nat}

/-- The throttled sender has sent the payloads that have been cut off, and has aborted the message
when the last buffer has been released. -/
structure Sends (channel : SecureChannel) (requestId type : UInt32) (cut : Encoding Progress)
    (e : Encoding Sender) : Prop where
  exchanged : cut.exchanged = e.exchanged
  released : cut.released = e.released
  dst : cut.sender.dst = e.sender.dst
  space : cut.sender.space = e.sender.space
  sent : cut.released = false → e.sender = cut.sender.sender channel requestId type
  aborted : cut.released = true → Aborted channel requestId type e.sender

/-- As long as nothing has been released, the sender is told by the payloads. -/
theorem sends_sender (progress : Progress) (exchanged : Nat) :
  Sends channel requestId type ⟨progress, exchanged, false⟩
    ⟨progress.sender channel requestId type, exchanged, false⟩
  := by
  constructor
  · rfl
  · rfl
  · rfl
  · rfl
  · intro _
    rfl
  · intro h
    cases h

/-- The throttled sender writes where the cut does. -/
theorem write_sends {cut : Encoding Progress} {e : Encoding Sender} (bytes : List UInt8)
    (h : Sends channel requestId type cut e) :
  ((cutting connection).write bytes cut).Agree (Sends channel requestId type)
    ((buffers closed).write bytes e)
  := by
  obtain ⟨progress, exchanged, released⟩ := cut
  obtain ⟨sender, _, _⟩ := e
  obtain ⟨rfl, rfl, hdst, hspace, hsent, haborted⟩ := h
  cases released with
  | true => trivial
  | false =>
      obtain rfl := hsent rfl
      by_cases hfits : progress.dst.length + bytes.length ≤ progress.space
      · simp only [cutting, buffers, Bool.false_eq_true, if_false, dif_pos hfits]
        rw [if_pos (show (progress.sender channel requestId type).dst.length + bytes.length ≤
          (progress.sender channel requestId type).space from hfits)]
        exact ⟨rfl, sends_sender (progress.write bytes hfits) exchanged⟩
      · simp only [cutting, buffers, Bool.false_eq_true, if_false, dif_neg hfits]
        rw [if_neg (show ¬(progress.sender channel requestId type).dst.length + bytes.length ≤
          (progress.sender channel requestId type).space from hfits)]
        exact ⟨rfl, sends_sender progress exchanged⟩

/-- A chunk that exceeds a limit aborts the message. -/
theorem sendChunk_exceeds (hconnection : channel.connection = some connection)
    {progress : Progress} (h : Exceeds connection.remoteConf progress.payloads progress.dst) :
  ∃ sender', sendChunk closed (progress.sender channel requestId type) =
      (.badResponseTooLarge, sender') ∧
    Aborted channel requestId type sender' ∧ sender'.dst = progress.dst ∧
    sender'.space = progress.space
  := by
  have hcode : limitCode connection.remoteConf (progress.ci requestId type)
      (progress.dst.length + secureMessageHeaderLength) = .badResponseTooLarge :=
    (limitCode_eq connection.remoteConf progress false .good).trans (if_pos h)
  have hne : StatusCode.badResponseTooLarge ≠ .good := by decide
  simp only [sendChunk, Progress.sender, hconnection, hcode]
  simp only [hne, ne_eq, not_false_eq_true, decide_true, Bool.or_true, if_true, if_false]
  refine ⟨_, rfl, ?_, rfl, rfl⟩
  constructor
  · rfl
  · use progress, .badResponseTooLarge
    constructor
    · simp only
      rw [hconnection]
    · rfl

/-- The throttled sender exchanges its buffer where the cut does, with the same status code. -/
theorem exchange_sends (hconnection : channel.connection = some connection)
    (hbuffer : getSendBuffer connection closed connection.localConf.sendBufferSize = .ok length)
    {cut : Encoding Progress} {e : Encoding Sender} (h : Sends channel requestId type cut e) :
  ((cutting connection).exchange cut).Agree (Sends channel requestId type)
    ((buffers closed).exchange e)
  := by
  obtain ⟨progress, exchanged, released⟩ := cut
  obtain ⟨sender, _, _⟩ := e
  obtain ⟨rfl, rfl, hdst, hspace, hsent, haborted⟩ := h
  cases released with
  | true => trivial
  | false =>
      obtain rfl := hsent rfl
      by_cases hexceeds : Exceeds connection.remoteConf progress.payloads progress.dst
      · obtain ⟨sender', hsend, haborted', hdst', hspace'⟩ :=
          @sendChunk_exceeds channel connection requestId type closed hconnection progress hexceeds
        have hne : StatusCode.badResponseTooLarge ≠ .good := by decide
        simp only [cutting, buffers, Bool.false_eq_true, if_false, if_pos hexceeds, hsend]
        rw [if_pos hne]
        refine ⟨rfl, rfl, rfl, hdst'.symm, hspace'.symm, ?_, fun _ => haborted'⟩
        intro hreleased
        cases hreleased
      · have hroom :
            hasRoom ((progress.exchange connection).sender channel requestId type).channel =
              decide (secureMessageHeaderLength ≤ connection.localConf.sendBufferSize.toNat) := by
          rw [hasRoom, Progress.sender]
          dsimp only
          rw [hconnection]
          rfl
        simp only [cutting, buffers, Bool.false_eq_true, if_false, if_neg hexceeds,
          sendChunk_exchange hconnection hbuffer hexceeds, ne_eq, not_true_eq_false, hroom,
          decide_eq_true_eq]
        split
        · exact ⟨rfl, sends_sender (progress.exchange connection) (exchanged + 1)⟩
        · trivial

/-- The throttled sender goes back where the cut does. -/
theorem goBack_sends {cut₀ cut : Encoding Progress} {e₀ e : Encoding Sender}
    (h₀ : Sends channel requestId type cut₀ e₀) (h : Sends channel requestId type cut e) :
  ((cutting connection).goBack cut₀ cut).Agree (Sends channel requestId type)
    ((buffers closed).goBack e₀ e)
  := by
  have hiff : (cut.exchanged = cut₀.exchanged ∧ cut₀.sender.dst.length ≤ cut.sender.space) ↔
      (e.exchanged = e₀.exchanged ∧ e₀.sender.dst.length ≤ e.sender.space) := by
    rw [h.exchanged, h₀.exchanged, h₀.dst, h.space]
  by_cases hback : cut.exchanged = cut₀.exchanged ∧ cut₀.sender.dst.length ≤ cut.sender.space
  · simp only [cutting, buffers, dif_pos hback, if_pos (hiff.mp hback)]
    refine ⟨rfl, h.exchanged, h.released, h₀.dst, h.space, ?_, ?_⟩
    · intro hreleased
      dsimp only
      rw [h.sent hreleased, ← h₀.dst]
      rfl
    · intro hreleased
      obtain ⟨hfinal, htasks⟩ := h.aborted hreleased
      exact ⟨hfinal, htasks⟩
  · simp only [cutting, buffers, dif_neg hback, if_neg (fun hback' => hback (hiff.mpr hback'))]
    trivial

/-- The encoder does the same over the buffers of the throttled sender as in cutting the message. -/
theorem runEncoder_sends (hconnection : channel.connection = some connection)
    (hbuffer : getSendBuffer connection closed connection.localConf.sendBufferSize = .ok length)
    (fuel : Nat) (encoder : Encoder) {cut : Encoding Progress} {e : Encoding Sender}
    (h : Sends channel requestId type cut e) :
  (runEncoder (cutting connection) fuel encoder cut).Follows (Sends channel requestId type)
      (runEncoder (buffers closed) fuel encoder e) ∧
    (runEncoder (buffers closed) fuel encoder e).Follows
      (fun e cut => Sends channel requestId type cut e)
      (runEncoder (cutting connection) fuel encoder cut)
  := by
  constructor
  · apply runEncoder_follows _ fuel encoder cut e h
    constructor
    · intro bytes cut e h
      apply (write_sends bytes h).follows
    · intro cut e h
      apply (exchange_sends hconnection hbuffer h).follows
    · intro cut₀ e₀ h₀ cut e h
      apply (goBack_sends h₀ h).follows
  · apply runEncoder_follows _ fuel encoder e cut h
    constructor
    · intro bytes e cut h
      apply (write_sends bytes h).symm.follows
    · intro e cut h
      apply (exchange_sends hconnection hbuffer h).symm.follows
    · intro e₀ cut₀ h₀ e cut h
      apply (goBack_sends h₀ h).symm.follows

end

end Zuth
