import UaRateThrottling.Channel.Cut

/-!
# Messages in pieces

A message in pieces is a structure whose members are the pieces: each is written as a whole, and
when it does not fit the buffer is exchanged for it.

* `sendEncoded_content` says that what is sent of the pieces is what is sent of the structure.
* `sendersAgree_content` says that the throttled sender and the direct one do the same with it.
-/

namespace Zuth

open UA

/-- A structure whose members are the pieces, each of which is written as a whole, and which ends
with the status code. -/
def Content.encoded (content : Content) : EncodedContent where
  binaryEncodingId := content.binaryEncodingId
  encoder := content.pieces.foldr (fun piece encoder => .andThen (.member (.number piece)) encoder)
    (.error content.retval)

theorem Content.encoder_cons (binaryEncodingId : UInt32) (piece : List UInt8)
    (pieces : List (List UInt8)) (retval : StatusCode) :
  (Content.mk binaryEncodingId (piece :: pieces) retval).encoded.encoder =
    .andThen (.member (.number piece)) (Content.mk binaryEncodingId pieces retval).encoded.encoder
  := rfl

section

variable {closed : Bool} {piece : List UInt8} {rest : Encoder} {sender sender' : Sender}
  {exchanged : Nat} {retval : StatusCode} {e : Encoding Sender}

/-- A piece that fits is written. -/
theorem runEncoder_piece_write (hfits : sender.dst.length + piece.length ≤ sender.space)
    (fuel : Nat) :
  runEncoder (buffers closed) (fuel + 3) (.andThen (.member (.number piece)) rest)
      ⟨sender, exchanged, false⟩ =
    runEncoder (buffers closed) (fuel + 2) rest
      ⟨{ sender with dst := sender.dst ++ piece }, exchanged, false⟩
  := by
  have hwrite : (buffers closed).write piece ⟨sender, exchanged, false⟩ =
      .returns .good ⟨{ sender with dst := sender.dst ++ piece }, exchanged, false⟩ := by
    simp only [buffers, Bool.false_eq_true, if_false, if_pos hfits]
  have hne : StatusCode.good ≠ .badEncodingLimitsExceeded := by decide
  simp only [runEncoder, hwrite, Run.bind, if_neg hne, if_true]

/-- For a piece that does not fit the buffer is exchanged. -/
theorem runEncoder_piece_exchange (hdst : sender.dst.length ≤ sender.space)
    (hfits : ¬sender.dst.length + piece.length ≤ sender.space) (fuel : Nat) :
  runEncoder (buffers closed) (fuel + 2) (.member (.number piece)) ⟨sender, exchanged, false⟩ =
    ((buffers closed).exchange ⟨sender, exchanged, false⟩).bind fun retval e =>
      if retval = .good then runEncoder (buffers closed) (fuel + 1) (.member (.number piece)) e
      else .returns retval e
  := by
  have hwrite : (buffers closed).write piece ⟨sender, exchanged, false⟩ =
      .returns .badEncodingLimitsExceeded ⟨sender, exchanged, false⟩ := by
    simp only [buffers, Bool.false_eq_true, if_false, if_neg hfits]
  have hback : (buffers closed).goBack ⟨sender, exchanged, false⟩ ⟨sender, exchanged, false⟩ =
      .returns .good ⟨sender, exchanged, false⟩ := by
    simp only [buffers, true_and, if_pos hdst]
  simp only [runEncoder, hwrite, hback, Run.bind, if_true]

/-- Sending a chunk keeps the connection, and what there is in the buffer fits. -/
theorem sendChunk_keeps (hdst : sender.dst.length ≤ sender.space) :
  (sendChunk closed sender).2.channel.connection = sender.channel.connection ∧
    (sendChunk closed sender).2.dst.length ≤ (sendChunk closed sender).2.space
  := by
  cases hconnection : sender.channel.connection with
  | none =>
      simp only [sendChunk, hconnection]
      exact ⟨trivial, hdst⟩
  | some connection =>
      simp only [sendChunk, hconnection]
      split
      · exact ⟨rfl, hdst⟩
      · split
        · exact ⟨rfl, hdst⟩
        · exact ⟨rfl, Nat.zero_le _⟩

/-- What encoding one part and then another one takes. -/
theorem andThen_returns {first : Encoder} {fuel : Nat} {s s' : Encoding Sender}
    (h : runEncoder (buffers closed) fuel (.andThen first rest) s = .returns retval s') :
  ∃ retval₁ s₁, runEncoder (buffers closed) fuel first s = .returns retval₁ s₁ ∧
    (if retval₁ = .good then runEncoder (buffers closed) fuel rest s₁ else .returns retval₁ s₁) =
      .returns retval s'
  := by
  cases fuel with
  | zero => cases h
  | succ fuel =>
      obtain ⟨retval₁, s₁, hfirst, hrest⟩ := Run.bind_eq_returns h
      use retval₁, s₁, runEncoder_of_le (Nat.le_succ fuel) hfirst
      split at hrest
      · rename_i hretval
        rw [if_pos hretval, runEncoder_of_le (Nat.le_succ fuel) hrest]
      · rename_i hretval
        rw [if_neg hretval, hrest]

/-- The sender of pieces does what the encoder of the pieces does. -/
theorem runEncoder_pieces {binaryEncodingId : UInt32} {encoded : StatusCode} {fuel : Nat}
    {pieces : List (List UInt8)} (hroom : hasRoom sender.channel)
    (hdst : sender.dst.length ≤ sender.space)
    (h : encodePieces closed fuel pieces sender = some (retval, sender')) (exchanged : Nat) :
  ∃ fuel' exchanged', runEncoder (buffers closed) fuel'
      (Content.mk binaryEncodingId pieces encoded).encoded.encoder ⟨sender, exchanged, false⟩ =
    .returns (if retval = .good then encoded else retval)
      ⟨sender', exchanged', decide (retval ≠ .good)⟩
  := by
  induction fuel generalizing pieces sender exchanged with
  | zero => cases h
  | succ fuel ih =>
      cases pieces with
      | nil =>
          cases h
          use 1, exchanged
          rfl
      | cons piece pieces =>
          rw [encodePieces] at h
          by_cases hfits : sender.dst.length + piece.length ≤ sender.space
          · rw [if_pos hfits] at h
            have hdst' : (sender.dst ++ piece).length ≤ sender.space := by
              rw [List.length_append]
              apply hfits
            obtain ⟨fuel', exchanged', hencode⟩ :=
              @ih { sender with dst := sender.dst ++ piece } pieces hroom hdst' h exchanged
            use fuel' + 3, exchanged'
            rw [Content.encoder_cons, runEncoder_piece_write hfits]
            apply runEncoder_of_le (Nat.le_add_right fuel' 2) hencode
          · rw [if_neg hfits] at h
            dsimp only at h
            obtain ⟨hchannel, hdst'⟩ := @sendChunk_keeps closed sender hdst
            by_cases hretval : (sendChunk closed sender).1 = .good
            · rw [if_neg (not_not.mpr hretval)] at h
              have hroom' : hasRoom (sendChunk closed sender).2.channel := by
                rw [hasRoom, hchannel]
                apply hroom
              obtain ⟨fuel', exchanged', hencode⟩ := ih hroom' hdst' h (exchanged + 1)
              obtain ⟨retval₁, s₁, hpiece, hrest⟩ := andThen_returns hencode
              have hexchange : (buffers closed).exchange ⟨sender, exchanged, false⟩ =
                  .returns .good ⟨(sendChunk closed sender).2, exchanged + 1, false⟩ := by
                simp only [buffers, Bool.false_eq_true, if_false, hretval, ne_eq,
                  not_true_eq_false, hroom', if_true]
              use fuel' + 3, exchanged'
              have hagain :=
                @runEncoder_piece_exchange closed piece sender exchanged hdst hfits fuel'
              rw [hexchange, Run.bind, if_pos rfl,
                runEncoder_of_le (Nat.le_succ fuel') hpiece] at hagain
              rw [Content.encoder_cons, runEncoder, hagain, Run.bind]
              split at hrest
              · rename_i hgood
                rw [if_pos hgood]
                apply runEncoder_of_le (Nat.le_add_right fuel' 2) hrest
              · rename_i hne
                rw [if_neg hne, hrest]
            · rw [if_pos hretval] at h
              obtain ⟨rfl, rfl⟩ := Prod.mk.inj (Option.some.inj h)
              have hexchange : (buffers closed).exchange ⟨sender, exchanged, false⟩ =
                  .returns (sendChunk closed sender).1
                    ⟨(sendChunk closed sender).2, exchanged + 1, true⟩ := by
                simp only [buffers, Bool.false_eq_true, if_false, ne_eq, hretval,
                  not_false_eq_true, if_true]
              use 3, exchanged + 1
              have hagain := @runEncoder_piece_exchange closed piece sender exchanged hdst hfits 0
              rw [hexchange, Run.bind, if_neg hretval] at hagain
              rw [Content.encoder_cons, runEncoder, hagain, Run.bind, if_neg hretval,
                if_neg hretval, decide_eq_true hretval]

/-- A buffer that can be had has room for the headers when the own buffers have. -/
theorem room_of_getSendBuffer {connection : Connection} {length : Nat}
    (hbuffer : getSendBuffer connection closed connection.localConf.sendBufferSize = .ok length)
    (hroom : secureMessageHeaderLength ≤ connection.localConf.sendBufferSize.toNat) :
  secureMessageHeaderLength ≤ length
  := by
  obtain rfl := length_of_getSendBuffer hbuffer
  apply Nat.le_trans hroom
  rw [getSendBuffer] at hbuffer
  split at hbuffer
  · cases hbuffer
  · rename_i hle
    exact UInt32.le_iff_toNat_le.mp (UInt32.not_lt.mp hle)

/-- What is sent of a message in pieces is what is sent of the structure with these members. -/
theorem sendEncoded_content {fuel : Nat} {channel channel' : SecureChannel} {requestId : UInt32}
    {content : Content} {tasks : List Task}
    (h : sendBinaryMessage closed fuel channel requestId content =
      some (retval, channel', tasks)) :
  ∃ fuel', sendEncoded closed fuel' channel requestId content.encoded =
    .returns retval (channel', tasks)
  := by
  cases hconnection : channel.connection with
  | none =>
      rw [sendBinaryMessage, hconnection] at h
      cases h
      use 0
      rw [sendEncoded, hconnection]
  | some connection =>
      cases hbuffer : getSendBuffer connection closed connection.localConf.sendBufferSize with
      | error retval =>
          rw [sendBinaryMessage, hconnection] at h
          simp only [hbuffer] at h
          cases h
          use 0
          rw [sendEncoded, hconnection]
          simp only [hbuffer]
      | ok length =>
          have hroom := room_of_sends hconnection hbuffer h
          have hlength := room_of_getSendBuffer hbuffer hroom
          rw [sendBinaryMessage_eq hconnection hbuffer hroom] at h
          obtain ⟨⟨retval₀, sender⟩, hencode, hfinish⟩ := Option.map_eq_some_iff.mp h
          have hroom' : hasRoom ((Progress.ofMessage connection content).sender channel requestId
              (messageType content.binaryEncodingId)).channel := by
            rw [hasRoom, Progress.sender]
            dsimp only
            rw [hconnection]
            apply decide_eq_true hroom
          obtain ⟨fuel', exchanged', hencoded⟩ := @runEncoder_pieces closed _ sender retval₀
            content.binaryEncodingId content.retval fuel content.pieces hroom'
            (Progress.ofMessage connection content).fits hencode 0
          use fuel'
          have hstart : runEncoder (buffers closed) fuel' content.encoded.encoder
              ⟨(Progress.start connection.remoteConf.recvBufferSize
                (NodeId.encodeNumeric 0 content.encoded.binaryEncodingId)).sender channel requestId
                  (messageType content.encoded.binaryEncodingId), 0, false⟩ =
              .returns (if retval₀ = .good then content.retval else retval₀)
                ⟨sender, exchanged', decide (retval₀ ≠ .good)⟩ := hencoded
          rw [sendEncoded_eq hconnection hbuffer hlength, hstart, Run.bind, sendLast]
          rcases encodePieces_cases hconnection hbuffer hencode with
            ⟨progress, heq⟩ | ⟨hretval, haborted⟩
          · obtain ⟨rfl, rfl⟩ := Prod.mk.inj heq
            have hfinal : (progress.sender channel requestId
              (messageType content.binaryEncodingId)).ci.final = false := rfl
            simp only [finish, if_true, hfinal, Bool.false_eq_true, and_false, if_false, ne_eq,
              not_true_eq_false, decide_false] at hfinish ⊢
            split_ifs at hfinish ⊢
            · obtain ⟨rfl, rfl, rfl⟩ := hfinish
              rfl
            · obtain ⟨rfl, rfl, rfl⟩ := hfinish
              rfl
          · rw [finish_aborted hretval haborted] at hfinish
            cases hfinish
            rw [if_neg hretval, if_pos ⟨hretval, haborted.final⟩]

end

/-! ### The senders of pieces agree -/

section

variable {connection : Connection}

/-- A piece does not leave its buffer. -/
theorem cutting_piece_ne_undefined
    (hroom : secureMessageHeaderLength ≤ connection.localConf.sendBufferSize.toNat)
    (piece : List UInt8) (fuel : Nat) (progress : Progress) (exchanged : Nat) :
  runEncoder (cutting connection) fuel (.member (.number piece)) ⟨progress, exchanged, false⟩ ≠
    .undefined
  := by
  induction fuel generalizing progress exchanged with
  | zero => apply Run.running_ne_undefined
  | succ fuel ih =>
      cases fuel with
      | zero => apply Run.running_ne_undefined
      | succ fuel =>
          by_cases hfits : progress.dst.length + piece.length ≤ progress.space
          · have hwrite : (cutting connection).write piece ⟨progress, exchanged, false⟩ =
                .returns .good ⟨progress.write piece hfits, exchanged, false⟩ := by
              simp only [cutting, Bool.false_eq_true, if_false, dif_pos hfits]
            have hne : StatusCode.good ≠ .badEncodingLimitsExceeded := by decide
            rw [runEncoder, runEncoder, hwrite, Run.bind, if_neg hne]
            apply Run.returns_ne_undefined
          · have hwrite : (cutting connection).write piece ⟨progress, exchanged, false⟩ =
                .returns .badEncodingLimitsExceeded ⟨progress, exchanged, false⟩ := by
              simp only [cutting, Bool.false_eq_true, if_false, dif_neg hfits]
            have hback : (cutting connection).goBack ⟨progress, exchanged, false⟩
                ⟨progress, exchanged, false⟩ = .returns .good ⟨progress, exchanged, false⟩ := by
              simp only [cutting, true_and, dif_pos progress.fits]
              rfl
            rw [runEncoder, runEncoder, hwrite, Run.bind, if_pos rfl, hback, Run.bind]
            by_cases hexceeds : Exceeds connection.remoteConf progress.payloads progress.dst
            · simp only [cutting, Bool.false_eq_true, if_false, if_pos hexceeds, Run.bind,
                if_neg (show StatusCode.badResponseTooLarge ≠ .good by decide)]
              apply Run.returns_ne_undefined
            · have hexchange : (cutting connection).exchange ⟨progress, exchanged, false⟩ =
                  .returns .good ⟨progress.exchange connection, exchanged + 1, false⟩ := by
                simp only [cutting, Bool.false_eq_true, if_false, if_neg hexceeds, if_pos hroom]
              rw [hexchange, Run.bind, if_pos rfl]
              apply ih

/-- Pieces do not leave their buffers. -/
theorem cutting_pieces_ne_undefined
    (hroom : secureMessageHeaderLength ≤ connection.localConf.sendBufferSize.toNat)
    (binaryEncodingId : UInt32) (pieces : List (List UInt8)) (encoded : StatusCode) (fuel : Nat)
    (progress : Progress) (exchanged : Nat) :
  runEncoder (cutting connection) fuel (Content.mk binaryEncodingId pieces encoded).encoded.encoder
      ⟨progress, exchanged, false⟩ ≠ .undefined
  := by
  induction pieces generalizing fuel progress exchanged with
  | nil =>
      cases fuel with
      | zero => apply Run.running_ne_undefined
      | succ fuel => apply Run.returns_ne_undefined
  | cons piece pieces ih =>
      cases fuel with
      | zero => apply Run.running_ne_undefined
      | succ fuel =>
          rw [Content.encoder_cons, runEncoder]
          cases hpiece : runEncoder (cutting connection) fuel (.member (.number piece))
              ⟨progress, exchanged, false⟩ with
          | running => apply Run.running_ne_undefined
          | undefined =>
              cases cutting_piece_ne_undefined hroom piece fuel progress exchanged hpiece
          | returns retval e =>
              have hlater := runEncoder_later fuel _ _ retval e hpiece
              rw [Run.bind]
              split
              · rename_i hretval
                obtain ⟨progress', exchanged', released⟩ := e
                have hreleased : released = false := by
                  cases released with
                  | true => cases (hlater.failed rfl).resolve_right (not_not.mpr hretval)
                  | false => rfl
                rw [hreleased]
                apply ih
              · apply Run.returns_ne_undefined

end

/-- The throttled sender does with a message in pieces what the direct one does. -/
theorem sendersAgree_content (closed : Bool) {channel : SecureChannel} (requestId : UInt32)
    (hroom : ∀ connection, channel.connection = some connection →
      secureMessageHeaderLength ≤ connection.localConf.sendBufferSize.toNat)
    (content : Content) :
  SendersAgree closed channel requestId content.encoded
  := by
  rw [sendersAgree_iff]
  intro connection length hconnection hbuffer
  constructor
  · apply room_of_getSendBuffer hbuffer (hroom connection hconnection)
  · intro fuel
    apply cutting_pieces_ne_undefined (hroom connection hconnection)

end Zuth
