import UaRateThrottling.Binary.Encoders
import UaRateThrottling.Channel.Exchange

/-!
# The cut of a message

What becomes of a message is told by its cut: it is sent in its payloads, or it fails and is
aborted, or it leaves its buffers, and then nothing is said of what the throttled sender does.

* `sendEncoded_of_fails` and `sendEncoded_of_cut` say what is sent.
* `sendersAgree_iff` says that the throttled sender does what the direct one does exactly when the
  message stays within its buffers.
-/

namespace Zuth

open UA

/-! ### What a cut keeps -/

/-- The bytes that have been written, in all payloads. -/
def Progress.text (progress : Progress) : List UInt8 := progress.payloads.flatten ++ progress.dst

/-- What an encoder leaves of a cut when it returns: as long as no buffer has been exchanged the
payloads are the same; when an exchange has failed there is an error; and without an error all bytes
have been written. -/
structure Later (e : Encoding Progress) (bytes : List UInt8) (retval : StatusCode)
    (e' : Encoding Progress) : Prop where
  exchanged_le : e.exchanged ≤ e'.exchanged
  same : e'.exchanged = e.exchanged →
    e'.sender.payloads = e.sender.payloads ∧ e'.released = e.released
  released : e.released = true → e'.released = true
  failed : e'.released = true → e.released = true ∨ retval ≠ .good
  text : retval = .good → e'.sender.text = e.sender.text ++ bytes

section

variable {connection : Connection} {e e' e'' : Encoding Progress} {bytes bytes' : List UInt8}
  {retval retval' : StatusCode}

theorem Later.refl (h : retval = .good → bytes = []) :
  Later e bytes retval e
  := by
  constructor
  · apply Nat.le_refl
  · intro _
    exact ⟨rfl, rfl⟩
  · exact id
  · exact .inl
  · intro hretval
    rw [h hretval, List.append_nil]

/-- What is encoded one after the other. -/
theorem Later.trans (h : Later e bytes .good e') (h' : Later e' bytes' retval e'') :
  Later e (bytes ++ bytes') retval e''
  := by
  constructor
  · apply Nat.le_trans h.exchanged_le h'.exchanged_le
  · intro heq
    have hle := h.exchanged_le
    have hle' := h'.exchanged_le
    obtain ⟨hpayloads, hreleased⟩ := h.same (by omega)
    obtain ⟨hpayloads', hreleased'⟩ := h'.same (by omega)
    exact ⟨hpayloads'.trans hpayloads, hreleased'.trans hreleased⟩
  · intro hreleased
    apply h'.released (h.released hreleased)
  · intro hreleased
    rcases h'.failed hreleased with hreleased | hretval
    · left
      apply (h.failed hreleased).resolve_right (not_not.mpr rfl)
    · right
      apply hretval
  · intro hretval
    rw [h'.text hretval, h.text rfl, List.append_assoc]

/-- Writing adds the bytes, unless there is no room for them. -/
theorem write_later (h : (cutting connection).write bytes e = .returns retval e') :
  Later e bytes retval e' ∧ (retval ≠ .good → e' = e)
  := by
  simp only [cutting] at h
  split at h
  · cases h
  · split at h
    · cases h
      constructor
      · constructor
        · apply Nat.le_refl
        · intro _
          exact ⟨rfl, rfl⟩
        · exact id
        · exact .inl
        · intro _
          rw [Progress.text, Progress.text, Progress.write, List.append_assoc]
      · intro hne
        cases hne rfl
    · cases h
      constructor
      · apply Later.refl
        intro heq
        cases heq
      · intro _
        rfl

/-- An exchange keeps the bytes that have been written, unless it fails. -/
theorem exchange_later (h : (cutting connection).exchange e = .returns retval e') :
  Later e [] retval e' ∧ e.exchanged < e'.exchanged
  := by
  simp only [cutting] at h
  split at h
  · cases h
  · rename_i hreleased
    split at h
    · cases h
      refine ⟨⟨Nat.le_succ _, ?_, fun _ => rfl, fun _ => .inr (by decide), ?_⟩, Nat.lt_succ_self _⟩
      · intro heq
        cases Nat.succ_ne_self _ heq
      · intro heq
        cases heq
    · split at h
      · cases h
        refine ⟨⟨Nat.le_succ _, ?_, fun hreleased' => absurd hreleased' hreleased, ?_, ?_⟩,
          Nat.lt_succ_self _⟩
        · intro heq
          cases Nat.succ_ne_self _ heq
        · intro heq
          cases heq
        · intro _
          simp [Progress.text, Progress.exchange]
      · cases h

/-- Going back takes away what has been written since. -/
theorem goBack_later (h : (cutting connection).goBack e e' = .returns retval e'')
    (hlater : Later e bytes .badEncodingLimitsExceeded e') :
  Later e [] .good e''
  := by
  simp only [cutting] at h
  split at h
  · rename_i hback
    cases h
    obtain ⟨hpayloads, hreleased⟩ := hlater.same hback.1
    constructor
    · apply hlater.exchanged_le
    · intro _
      exact ⟨hpayloads, hreleased⟩
    · apply hlater.released
    · intro hreleased'
      left
      rw [← hreleased]
      apply hreleased'
    · intro _
      simp only [Progress.text, Progress.goBack, hpayloads, List.append_nil]
  · cases h

/-- An error says nothing of the bytes. -/
theorem Later.error (h : Later e bytes retval e') (hretval : retval' ≠ .good) :
  Later e bytes' retval' e'
  := ⟨h.exchanged_le, h.same, h.released, fun _ => .inr hretval,
    fun heq => absurd heq hretval⟩

/-- After an error the second part of a value changes nothing about it. -/
theorem Later.or (h : Later e bytes retval e') (hretval : retval ≠ .good)
    (h' : Later e' bytes' retval' e'') :
  Later e (bytes ++ bytes') (retval ||| retval') e''
  := by
  have hne : retval ||| retval' ≠ .good := by
    intro heq
    apply hretval (UInt32.or_eq_zero_iff.mp heq).1
  constructor
  · apply Nat.le_trans h.exchanged_le h'.exchanged_le
  · intro heq
    have hle := h.exchanged_le
    have hle' := h'.exchanged_le
    obtain ⟨hpayloads, hreleased⟩ := h.same (by omega)
    obtain ⟨hpayloads', hreleased'⟩ := h'.same (by omega)
    exact ⟨hpayloads'.trans hpayloads, hreleased'.trans hreleased⟩
  · intro hreleased
    apply h'.released (h.released hreleased)
  · intro _
    right
    apply hne
  · intro heq
    cases hne heq

/-- What follows is only done without an error. -/
theorem Later.next {run : Run (Encoding Progress)} (h : Later e bytes retval e')
    (hrun : (if retval = .good then run else .returns retval e') = .returns retval' e'')
    (hnext : run = .returns retval' e'' → Later e' bytes' retval' e'') :
  Later e (bytes ++ bytes') retval' e''
  := by
  split at hrun
  · rename_i hgood
    subst hgood
    apply h.trans (hnext hrun)
  · rename_i hne
    cases hrun
    apply h.error hne

/-- Whatever an encoder returns, it keeps what a cut keeps. -/
theorem runEncoder_later (fuel : Nat) (encoder : Encoder) (e : Encoding Progress)
    (retval : StatusCode) (e' : Encoding Progress)
    (h : runEncoder (cutting connection) fuel encoder e = .returns retval e') :
  Later e encoder.bytes retval e'
  := by
  induction fuel generalizing encoder e retval e' with
  | zero => cases h
  | succ fuel ih =>
      -- what follows on an exchange
      have hexchange : ∀ encoder e, ((cutting connection).exchange e).bind (fun retval e =>
            if retval = .good then runEncoder (cutting connection) fuel encoder e
            else .returns retval e) = .returns retval e' →
          Later e encoder.bytes retval e' := by
        intro encoder e h
        obtain ⟨retval₁, e₁, hexchange, h⟩ := Run.bind_eq_returns h
        apply (exchange_later hexchange).1.next h
        apply ih
      cases encoder with
      | number bytes => apply (write_later h).1
      | content elements =>
          cases elements with
          | nil =>
              cases h
              apply Later.refl
              intro _
              rfl
          | cons element elements =>
              obtain ⟨retval₁, e₁, hwrite, hnext⟩ := Run.bind_eq_returns h
              obtain ⟨hlater, hsame⟩ := write_later hwrite
              split at hnext
              · rename_i hgood
                subst hgood
                apply hlater.trans (ih (.content elements) e₁ retval e' hnext)
              · rename_i hne
                rw [hsame hne] at hnext
                apply hexchange (.content (element :: elements)) e hnext
      | error retval' =>
          cases h
          apply Later.refl
          intro _
          rfl
      | both first second =>
          obtain ⟨retval₁, e₁, hfirst, h⟩ := Run.bind_eq_returns h
          obtain ⟨retval₂, e₂, hsecond, h⟩ := Run.bind_eq_returns h
          cases h
          have hlater₁ := ih first e retval₁ e₁ hfirst
          have hlater₂ := ih second e₁ retval₂ e' hsecond
          by_cases hgood : retval₁ = .good
          · subst hgood
            rw [show StatusCode.good ||| retval₂ = retval₂ from UInt32.zero_or]
            apply hlater₁.trans hlater₂
          · apply hlater₁.or hgood hlater₂
      | andThen first second =>
          obtain ⟨retval₁, e₁, hfirst, h⟩ := Run.bind_eq_returns h
          apply (ih first e retval₁ e₁ hfirst).next h
          apply ih
      | member encoder =>
          obtain ⟨retval₁, e₁, hencode, h⟩ := Run.bind_eq_returns h
          have hlater := ih encoder e retval₁ e₁ hencode
          split at h
          · rename_i hlimits
            subst hlimits
            obtain ⟨retval₂, e₂, hback, h⟩ := Run.bind_eq_returns h
            apply (goBack_later hback hlater).trans (hexchange (.member encoder) e₂ h)
          · cases h
            apply hlater
      | abandon encoder =>
          obtain ⟨retval₁, e₁, hencode, h⟩ := Run.bind_eq_returns h
          cases h
          apply (ih encoder e retval₁ e' hencode).error (by decide)

end

/-! ### What is sent -/

/-- Sending the message fails: the encoder returns an error, be it one of its own or that of an
exchange, or the last chunk exceeds a limit. -/
def Fails (connection : Connection) (fuel : Nat) (content : EncodedContent) : Prop :=
  ∃ retval e, cut connection fuel content = .returns retval e ∧
    (retval ≠ .good ∨ Exceeds connection.remoteConf e.sender.payloads e.sender.dst)

section

variable {closed : Bool} {fuel length : Nat} {channel : SecureChannel} {connection : Connection}
  {content : EncodedContent} {retval : StatusCode} {e : Encoding Progress}

/-- When a buffer can be had, it is as long as the other end takes. -/
theorem length_of_getSendBuffer
    (h : getSendBuffer connection closed connection.localConf.sendBufferSize = .ok length) :
  length = connection.remoteConf.recvBufferSize.toNat
  := by
  rw [getSendBuffer] at h
  split at h
  · cases h
  · split at h
    · cases h
    · rw [Except.ok.inj h]

/-- The throttled sender once it has a buffer. -/
theorem sendEncoded_eq (hconnection : channel.connection = some connection)
    (hbuffer : getSendBuffer connection closed connection.localConf.sendBufferSize = .ok length)
    (hroom : secureMessageHeaderLength ≤ length) (requestId : UInt32) :
  sendEncoded closed fuel channel requestId content =
    (runEncoder (buffers closed) fuel content.encoder
      ⟨(Progress.start connection.remoteConf.recvBufferSize
        (NodeId.encodeNumeric 0 content.binaryEncodingId)).sender channel requestId
          (messageType content.binaryEncodingId), 0, false⟩).bind (sendLast closed)
  := by
  obtain rfl := length_of_getSendBuffer hbuffer
  rw [sendEncoded, hconnection]
  simp only [hbuffer, if_neg (Nat.not_lt.mpr hroom)]
  rfl

/-- When the cut of a message returns, the throttled sender has sent what has been cut off. -/
theorem runEncoder_of_cut (hconnection : channel.connection = some connection)
    (hbuffer : getSendBuffer connection closed connection.localConf.sendBufferSize = .ok length)
    (requestId : UInt32) (h : cut connection fuel content = .returns retval e) :
  ∃ e', runEncoder (buffers closed) fuel content.encoder
      ⟨(Progress.start connection.remoteConf.recvBufferSize
        (NodeId.encodeNumeric 0 content.binaryEncodingId)).sender channel requestId
          (messageType content.binaryEncodingId), 0, false⟩ = .returns retval e' ∧
    Sends channel requestId (messageType content.binaryEncodingId) e e'
  := by
  obtain ⟨hfollows, -⟩ := @runEncoder_sends channel connection requestId
    (messageType content.binaryEncodingId) closed length hconnection hbuffer fuel content.encoder _
    _ (sends_sender _ 0)
  rw [← cut, h] at hfollows
  apply hfollows

/-- A message that fails is aborted. -/
theorem sendEncoded_of_fails (hconnection : channel.connection = some connection)
    (hbuffer : getSendBuffer connection closed connection.localConf.sendBufferSize = .ok length)
    (hroom : secureMessageHeaderLength ≤ length) (requestId : UInt32)
    (h : Fails connection fuel content) :
  ∃ retval sender, retval ≠ .good ∧
    Aborted channel requestId (messageType content.binaryEncodingId) sender ∧
    sendEncoded closed fuel channel requestId content =
      .returns retval (sender.channel, sender.tasks)
  := by
  obtain ⟨retval, c, hcut, hfails⟩ := h
  have hlater := runEncoder_later fuel content.encoder _ retval c hcut
  obtain ⟨e, hencode, hsends⟩ := runEncoder_of_cut hconnection hbuffer requestId hcut
  rw [sendEncoded_eq hconnection hbuffer hroom, hencode, Run.bind, sendLast]
  cases hreleased : c.released with
  | true =>
      have hretval := (hlater.failed hreleased).resolve_left Bool.false_ne_true
      have haborted := hsends.aborted hreleased
      use retval, e.sender, hretval, haborted
      rw [if_pos ⟨hretval, haborted.final⟩]
  | false =>
      have hreleased' := hsends.released.symm.trans hreleased
      have hsender := hsends.sent hreleased
      have hfinal : e.sender.ci.final = false := by
        rw [hsender]
        rfl
      rw [if_neg (by simp [hfinal]), if_neg (by simp [hreleased']), hsender]
      by_cases hretval : retval = .good
      · obtain ⟨result, hne, haborted, hsend⟩ :=
          @sendChunk_error channel connection requestId (messageType content.binaryEncodingId)
            closed hconnection c.sender true .good
            (.inr (hfails.resolve_left (not_not.mpr hretval)))
        use result.1, result.2, hne, haborted
        rw [if_neg (not_not.mpr hretval), ← hsend]
        rfl
      · obtain ⟨result, hne, haborted, hsend⟩ :=
          @sendChunk_error channel connection requestId (messageType content.binaryEncodingId)
            closed hconnection c.sender false retval (.inl hretval)
        use retval, result.2, hretval, haborted
        rw [if_pos hretval, ← hsend]
        rfl

/-- A message that does not fail is sent in its payloads. -/
theorem sendEncoded_of_cut (hconnection : channel.connection = some connection)
    (hbuffer : getSendBuffer connection closed connection.localConf.sendBufferSize = .ok length)
    (hroom : secureMessageHeaderLength ≤ length) (requestId : UInt32)
    (hcut : cut connection fuel content = .returns .good e)
    (hlast : ¬Exceeds connection.remoteConf e.sender.payloads e.sender.dst) :
  sendEncoded closed fuel channel requestId content = .returns .good
    ({ channel with
      sendSequenceNumber := after channel.sendSequenceNumber e.sender.payloads + 1 },
    messageTasks channel requestId (messageType content.binaryEncodingId)
      channel.sendSequenceNumber e.sender.payloads e.sender.dst)
  := by
  have hlater := runEncoder_later fuel content.encoder _ _ e hcut
  obtain ⟨e', hencode, hsends⟩ := runEncoder_of_cut hconnection hbuffer requestId hcut
  have hreleased : e.released = false := by
    cases hreleased : e.released with
    | true => cases (hlater.failed hreleased).resolve_right (not_not.mpr rfl)
    | false => rfl
  have hreleased' := hsends.released.symm.trans hreleased
  obtain ⟨sender', hsend, hchannel, htasks⟩ := @sendChunk_final channel connection requestId
    (messageType content.binaryEncodingId) closed hconnection e.sender hlast
  rw [sendEncoded_eq hconnection hbuffer hroom, hencode, Run.bind, sendLast, hsends.sent hreleased,
    if_neg (by simp), if_neg (by simp [hreleased']), if_neg (not_not.mpr rfl), ← hchannel, ← htasks]
  have hsend' : sendChunk closed { e.sender.sender channel requestId
      (messageType content.binaryEncodingId) with
      ci := { (e.sender.sender channel requestId
        (messageType content.binaryEncodingId)).ci with final := true } } = (.good, sender') :=
    hsend
  rw [hsend']

/-- What the throttled sender does is undefined exactly when the buffer has no room for the headers,
or the cut of the message leaves its buffers. -/
theorem sendEncoded_undefined_iff (hconnection : channel.connection = some connection)
    (hbuffer : getSendBuffer connection closed connection.localConf.sendBufferSize = .ok length)
    (requestId : UInt32) :
  sendEncoded closed fuel channel requestId content = .undefined ↔
    length < secureMessageHeaderLength ∨ cut connection fuel content = .undefined
  := by
  by_cases hroom : secureMessageHeaderLength ≤ length
  · obtain ⟨hforth, hback⟩ := @runEncoder_sends channel connection requestId
      (messageType content.binaryEncodingId) closed length hconnection hbuffer fuel content.encoder
      _ _ (sends_sender (Progress.start connection.remoteConf.recvBufferSize
        (NodeId.encodeNumeric 0 content.binaryEncodingId)) 0)
    rw [← cut] at hforth hback
    rw [or_iff_right (Nat.not_lt.mpr hroom)]
    cases hcut : cut connection fuel content with
    | undefined =>
        simp only [iff_true]
        rw [sendEncoded_eq hconnection hbuffer hroom]
        by_contra hdefined
        apply hback.ne_undefined _ hcut
        intro hundefined
        apply hdefined
        rw [hundefined]
        rfl
    | running =>
        rw [hcut] at hforth
        rw [sendEncoded_eq hconnection hbuffer hroom,
          show runEncoder _ _ _ _ = .running from hforth]
        constructor
        · intro h
          cases h
        · intro h
          cases h
    | returns retval e =>
        by_cases hfails : Fails connection fuel content
        · obtain ⟨retval', sender, -, -, hsend⟩ :=
            sendEncoded_of_fails hconnection hbuffer hroom requestId hfails
          rw [hsend]
          constructor
          · intro h
            cases h
          · intro h
            cases h
        · have hnot : ¬(retval ≠ .good ∨
              Exceeds connection.remoteConf e.sender.payloads e.sender.dst) :=
            fun h => hfails ⟨retval, e, hcut, h⟩
          obtain ⟨hretval, hlast⟩ := not_or.mp hnot
          rw [not_not.mp hretval] at hcut
          rw [sendEncoded_of_cut hconnection hbuffer hroom requestId hcut hlast]
          constructor
          · intro h
            cases h
          · intro h
            cases h
  · have hlt := Nat.not_le.mp hroom
    rw [sendEncoded, hconnection]
    simp only [hbuffer, hlt, if_true, true_or]

end

/-- What the throttled sender returns is one of the outcomes of sending a message. -/
theorem sendEncoded_outcome {closed : Bool} {fuel : Nat} {channel channel' : SecureChannel}
    {requestId : UInt32} {content : EncodedContent} {retval : StatusCode} {tasks : List Task}
    (h : sendEncoded closed fuel channel requestId content = .returns retval (channel', tasks)) :
  SendOutcome channel requestId (messageType content.binaryEncodingId) (retval, channel', tasks)
  := by
  cases hconnection : channel.connection with
  | none =>
      rw [sendEncoded, hconnection] at h
      cases h
      apply SendOutcome.refused
      decide
  | some connection =>
      cases hbuffer : getSendBuffer connection closed connection.localConf.sendBufferSize with
      | error retval =>
          rw [sendEncoded, hconnection] at h
          simp only [hbuffer] at h
          cases h
          apply SendOutcome.refused
          apply ne_good_of_getSendBuffer hbuffer
      | ok length =>
          by_cases hroom : secureMessageHeaderLength ≤ length
          · cases hcut : cut connection fuel content with
            | running =>
                obtain ⟨hforth, -⟩ := @runEncoder_sends channel connection requestId
                  (messageType content.binaryEncodingId) closed length hconnection hbuffer fuel
                  content.encoder _ _ (sends_sender (Progress.start
                    connection.remoteConf.recvBufferSize
                    (NodeId.encodeNumeric 0 content.binaryEncodingId)) 0)
                rw [← cut, hcut] at hforth
                rw [sendEncoded_eq hconnection hbuffer hroom,
                  show runEncoder _ _ _ _ = .running from hforth] at h
                cases h
            | undefined =>
                rw [(sendEncoded_undefined_iff hconnection hbuffer requestId).mpr (.inr hcut)] at h
                cases h
            | returns retval₁ e =>
                by_cases hfails : retval₁ ≠ .good ∨
                    Exceeds connection.remoteConf e.sender.payloads e.sender.dst
                · obtain ⟨retval₂, sender, hne, haborted, hsend⟩ := sendEncoded_of_fails hconnection
                    hbuffer hroom requestId ⟨retval₁, e, hcut, hfails⟩
                  rw [hsend] at h
                  cases h
                  apply haborted.outcome hne
                · obtain ⟨hgood, hlast⟩ := not_or.mp hfails
                  rw [not_not.mp hgood] at hcut
                  rw [sendEncoded_of_cut hconnection hbuffer hroom requestId hcut hlast] at h
                  cases h
                  apply SendOutcome.sent
          · rw [(sendEncoded_undefined_iff hconnection hbuffer requestId).mpr
              (.inl (Nat.not_le.mp hroom))] at h
            cases h

/-! ### The throttled sender and the direct one -/

/-- The throttled sender does what the direct one does: its behaviour is defined, the chunks of its
tasks are the chunks written to the socket, under the same status code, and the channel is left the
same. -/
def SendersAgree (closed : Bool) (channel : SecureChannel) (requestId : UInt32)
    (content : EncodedContent) : Prop :=
  ∀ fuel, sendEncoded closed fuel channel requestId content ≠ .undefined ∧
    SecureChannel.sendEncoded closed fuel channel requestId content =
      (sendEncoded closed fuel channel requestId content).map
        (fun sent => (sent.1, sent.2.map Task.dst))

/-- The message stays within its buffers: they have room for the headers, and as it is cut by their
sizes and by the limits of the other end, nothing goes back into a buffer that has been exchanged,
and nothing is done with the buffer after an exchange that has exceeded a limit. -/
def StaysInBuffers (closed : Bool) (channel : SecureChannel) (content : EncodedContent) : Prop :=
  ∀ connection length, channel.connection = some connection →
    getSendBuffer connection closed connection.localConf.sendBufferSize = .ok length →
      secureMessageHeaderLength ≤ length ∧ ∀ fuel, cut connection fuel content ≠ .undefined

/-- The throttled sender does what the direct one does exactly when the message stays within its
buffers. -/
theorem sendersAgree_iff (closed : Bool) (channel : SecureChannel) (requestId : UInt32)
    (content : EncodedContent) :
  SendersAgree closed channel requestId content ↔ StaysInBuffers closed channel content
  := by
  constructor
  · intro hagree connection length hconnection hbuffer
    have hdefined : ∀ fuel, ¬(length < secureMessageHeaderLength ∨
        cut connection fuel content = .undefined) := by
      intro fuel
      rw [← sendEncoded_undefined_iff hconnection hbuffer requestId]
      apply (hagree fuel).1
    constructor
    · apply Nat.not_lt.mp (not_or.mp (hdefined 0)).1
    · intro fuel
      apply (not_or.mp (hdefined fuel)).2
  · intro hstays fuel
    have hdefined : sendEncoded closed fuel channel requestId content ≠ .undefined := by
      cases hconnection : channel.connection with
      | none =>
          rw [sendEncoded, hconnection]
          apply Run.returns_ne_undefined
      | some connection =>
          cases hbuffer : getSendBuffer connection closed connection.localConf.sendBufferSize with
          | error retval =>
              rw [sendEncoded, hconnection]
              simp only [hbuffer]
              apply Run.returns_ne_undefined
          | ok length =>
              obtain ⟨hroom, hcut⟩ := hstays connection length hconnection hbuffer
              rw [ne_eq, sendEncoded_undefined_iff hconnection hbuffer requestId, not_or]
              exact ⟨Nat.not_lt.mpr hroom, hcut fuel⟩
    use hdefined
    have hfollows := sendEncoded_follows closed fuel channel requestId content
    cases hsend : sendEncoded closed fuel channel requestId content with
    | running =>
        rw [hsend] at hfollows
        apply hfollows
    | undefined => cases hdefined hsend
    | returns retval sent =>
        rw [hsend] at hfollows
        obtain ⟨written, hwritten, rfl⟩ := hfollows
        apply hwritten

/-- A connection on which a message has at most one chunk. -/
def oneChunk : Connection :=
  acknowledge ⟨5, .standard, .standard⟩ ⟨0, 65535, 32, 0, 1⟩

/-- `UA_TYPES[UA_TYPES_LOCALIZEDTEXT]` -/
def localizedTextType : Binary.DataType :=
  ⟨⟨0, .numeric 21⟩, 32, 20, true, false, 0, [⟨0, false⟩]⟩

/-- A message that holds one localized text, whose locale does not fit into a chunk. -/
def longLocale : EncodedContent where
  binaryEncodingId := 673
  encoder := Binary.encoderMembers [localizedTextType] [⟨0, false⟩]
    [.localizedText (some [1, 2, 3, 4, 5]) (some [6])]

/-- The locale of a localized text needs a second chunk, which is one too many.  The direct sender
aborts the message and returns; the throttled one goes on to write the text into the buffer it has
freed. -/
theorem longLocale_senders :
  (SecureChannel.sendEncoded false 30 { SecureChannel.init with connection := some oneChunk } 2
      longLocale).map (fun sent => sent.2.length) = .returns .badResponseTooLarge 2 ∧
    sendEncoded false 30 { SecureChannel.init with connection := some oneChunk } 2 longLocale =
      .undefined ∧
    ¬SendersAgree false { SecureChannel.init with connection := some oneChunk } 2 longLocale
  := by
  have hundefined : sendEncoded false 30
      { SecureChannel.init with connection := some oneChunk } 2 longLocale = .undefined := rfl
  refine ⟨by decide, hundefined, ?_⟩
  intro hagree
  apply (hagree 30).1 hundefined

end Zuth
