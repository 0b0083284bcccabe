import Mathlib.Tactic.Common
import Mathlib.Algebra.Order.Ring.Nat

/-!
# Secure channels

The state of a secure channel, as both ends keep it: the security token in use and the one
issued next, the connection the channel is attached to, the two sequence numbers and the
messages received in part.  `processSequenceNumber` and `checkSymmetric` are the checks a
chunk that is not an OPN passes before it is processed.
-/

namespace UA

/-- A status code of the protocol. -/
abbrev StatusCode := UInt32

namespace StatusCode

def good : StatusCode := 0
def badInternalError : StatusCode := 0x80020000
def badCommunicationError : StatusCode := 0x80050000
def badEncodingError : StatusCode := 0x80060000
def badDecodingError : StatusCode := 0x80070000
def badEncodingLimitsExceeded : StatusCode := 0x80080000
def badSecurityChecksFailed : StatusCode := 0x80130000
def badSecurityModeRejected : StatusCode := 0x80540000
def badOutOfMemory : StatusCode := 0x80030000
def badTcpMessageTypeInvalid : StatusCode := 0x807e0000
def badConnectionClosed : StatusCode := 0x80ae0000
def badRequestTooLarge : StatusCode := 0x80b80000
def badResponseTooLarge : StatusCode := 0x80b90000
def goodNonCriticalTimeout : StatusCode := 0x00aa0000

end StatusCode

/-- The limits one end of a connection announces. -/
structure ConnectionConfig where
  protocolVersion : UInt32
  sendBufferSize : UInt32
  recvBufferSize : UInt32
  maxMessageSize : UInt32
  maxChunkCount : UInt32
deriving DecidableEq

/-- `UA_ConnectionConfig_standard`: 64k buffers, messages and chunk counts unlimited. -/
def ConnectionConfig.standard : ConnectionConfig where
  protocolVersion := 0
  sendBufferSize := 65535
  recvBufferSize := 65535
  maxMessageSize := 0
  maxChunkCount := 0

/-- A connection, by its socket, with the limits of this end and of the remote one. -/
structure Connection where
  sockfd : Nat
  localConf : ConnectionConfig
  remoteConf : ConnectionConfig
deriving DecidableEq

/-- A security token of a channel.  Token `0` is never issued: it marks the absence of a
token. -/
structure ChannelSecurityToken where
  channelId : UInt32
  tokenId : UInt32
  createdAt : Int
  revisedLifetime : UInt32
deriving DecidableEq

/-- `UA_ChannelSecurityToken_init`: no token. -/
def ChannelSecurityToken.init : ChannelSecurityToken where
  channelId := 0
  tokenId := 0
  createdAt := 0
  revisedLifetime := 0

/-- What the headers of a chunk that is not an OPN say: its channel and token, its place in the
sequence, and the request it belongs to. -/
structure ChunkHeader where
  secureChannelId : UInt32
  tokenId : UInt32
  sequenceNumber : UInt32
  requestId : UInt32
deriving DecidableEq

/-- The part received so far of the message with the given request id. -/
structure ChunkEntry where
  requestId : UInt32
  bytes : List UInt8
deriving DecidableEq

/-- A secure channel.  `openedBy` is the socket of the connection the channel was opened on; the
code does not keep it once the connection is lost, and no function below reads it. -/
structure SecureChannel where
  securityToken : ChannelSecurityToken
  nextSecurityToken : ChannelSecurityToken
  connection : Option Connection
  openedBy : Nat
  receiveSequenceNumber : UInt32
  sendSequenceNumber : UInt32
  sessions : List Nat
  chunks : List ChunkEntry
deriving DecidableEq

namespace SecureChannel

/-- `UA_SecureChannel_init`: a channel without tokens, connection, sessions and chunks. -/
def init : SecureChannel where
  securityToken := .init
  nextSecurityToken := .init
  connection := none
  openedBy := 0
  receiveSequenceNumber := 0
  sendSequenceNumber := 0
  sessions := []
  chunks := []

/-- The token issued next, if any, becomes the token in use. -/
def revolveTokens (channel : SecureChannel) : SecureChannel :=
  if channel.nextSecurityToken.tokenId = 0 then channel
  else { channel with
    securityToken := channel.nextSecurityToken
    nextSecurityToken := .init }

/-- The token a renewal tells the client: the one issued next, or when there is none a new one
under the given number. -/
def renewedToken (channel : SecureChannel) (tokenId revisedLifetime : UInt32) :
    ChannelSecurityToken :=
  if channel.nextSecurityToken.tokenId = 0 then {
    channelId := channel.securityToken.channelId
    tokenId := tokenId
    createdAt := 0
    revisedLifetime := revisedLifetime }
  else channel.nextSecurityToken

/-- The channel is detached from the connection when it is attached to it. -/
def detach (sockfd : Nat) (channel : SecureChannel) : SecureChannel :=
  if channel.connection.map Connection.sockfd = some sockfd then
    { channel with connection := none }
  else channel

/-- The sequence number of a received chunk has to be the next one.  Close to the end of its
range it may also start over, at any number below 1024. -/
def processSequenceNumber (channel : SecureChannel) (sequenceNumber : UInt32) :
    StatusCode × SecureChannel :=
  if sequenceNumber ≠ channel.receiveSequenceNumber + 1 then
    if channel.receiveSequenceNumber + 1 > 4294966271 ∧ sequenceNumber < 1024 then
      (.good, { channel with receiveSequenceNumber := sequenceNumber - 1 + 1 })
    else (.badSecurityChecksFailed, channel)
  else (.good, { channel with receiveSequenceNumber := channel.receiveSequenceNumber + 1 })

/-- The token of a received chunk has to be the token in use or the one issued next, which
then becomes the token in use; the sequence number has to be the next one.  The channel is
changed by the steps made before the one that fails. -/
def checkSymmetric (channel : SecureChannel) (tokenId sequenceNumber : UInt32) :
    StatusCode × SecureChannel :=
  if tokenId ≠ channel.securityToken.tokenId then
    if tokenId ≠ channel.nextSecurityToken.tokenId then (.badCommunicationError, channel)
    else
      match channel.revolveTokens.processSequenceNumber sequenceNumber with
      | (retval, channel') =>
        (if retval ≠ .good then .badCommunicationError else .good, channel')
  else
    match channel.processSequenceNumber sequenceNumber with
    | (retval, channel') =>
      (if retval ≠ .good then .badCommunicationError else .good, channel')

/-- The checks a chunk that is not an OPN passes before it is processed: it has to be
addressed to the channel, under one of its tokens and with the next sequence number. -/
def checkChunk (channel : SecureChannel) (header : ChunkHeader) : StatusCode × SecureChannel :=
  if header.secureChannelId ≠ channel.securityToken.channelId then
    (.badCommunicationError, channel)
  else channel.checkSymmetric header.tokenId header.sequenceNumber

/-- The tokens under which the channel takes chunks. -/
def HasToken (channel : SecureChannel) (tokenId : UInt32) : Prop :=
  tokenId = channel.securityToken.tokenId ∨ tokenId = channel.nextSecurityToken.tokenId

instance (channel : SecureChannel) (tokenId : UInt32) : Decidable (channel.HasToken tokenId) :=
  inferInstanceAs (Decidable (_ ∨ _))

/-- The token issued next belongs to the same channel as the token in use. -/
def TokensAgree (channel : SecureChannel) : Prop :=
  channel.nextSecurityToken.tokenId ≠ 0 →
    channel.nextSecurityToken.channelId = channel.securityToken.channelId

/-! ### What the checks change -/

/-- `channel'` is `channel` with other sequence numbers, and possibly with its next token in
use: what processing a chunk leaves alone. -/
structure SameChannel (channel channel' : SecureChannel) : Prop where
  connection : channel'.connection = channel.connection
  openedBy : channel'.openedBy = channel.openedBy
  channelId : channel'.securityToken.channelId = channel.securityToken.channelId
  agree : channel'.TokensAgree
  hasToken : ∀ tokenId, channel'.HasToken tokenId → channel.HasToken tokenId ∨ tokenId = 0

theorem SameChannel.refl {channel : SecureChannel} (h : channel.TokensAgree) :
  SameChannel channel channel
  := by
  constructor <;> first | rfl | apply h | tauto

/-- Bringing the next token into use leaves the channel the same. -/
theorem sameChannel_revolveTokens {channel : SecureChannel} (h : channel.TokensAgree) :
  SameChannel channel channel.revolveTokens
  := by
  by_cases hnext : channel.nextSecurityToken.tokenId = 0
  · rw [revolveTokens, if_pos hnext]
    apply SameChannel.refl h
  · rw [revolveTokens, if_neg hnext]
    constructor
    · rfl
    · rfl
    · apply h hnext
    · intro hinit
      contradiction
    · rintro tokenId (htoken | htoken)
      · left
        right
        apply htoken
      · right
        apply htoken

/-- Checking a sequence number changes at most the sequence number expected next. -/
theorem processSequenceNumber_eq (channel : SecureChannel) (sequenceNumber : UInt32) :
  ∃ n, (channel.processSequenceNumber sequenceNumber).2
    = { channel with receiveSequenceNumber := n }
  := by
  rw [processSequenceNumber]
  split
  · split
    · exact ⟨_, rfl⟩
    · exact ⟨channel.receiveSequenceNumber, rfl⟩
  · exact ⟨_, rfl⟩

/-- A sequence number is checked without changing the channel otherwise. -/
theorem SameChannel.processSequenceNumber {channel channel' : SecureChannel}
    (h : SameChannel channel channel') (sequenceNumber : UInt32) :
  SameChannel channel (channel'.processSequenceNumber sequenceNumber).2
  := by
  obtain ⟨n, hn⟩ := processSequenceNumber_eq channel' sequenceNumber
  rw [hn]
  obtain ⟨hconnection, hopenedBy, hid, hagree, htoken⟩ := h
  use hconnection, hopenedBy, hid, hagree, htoken

/-- The checks of a chunk leave the channel the same. -/
theorem sameChannel_checkChunk {channel : SecureChannel} (h : channel.TokensAgree)
    (header : ChunkHeader) :
  SameChannel channel (channel.checkChunk header).2
  := by
  rw [checkChunk]
  split
  · apply SameChannel.refl h
  · rw [checkSymmetric]
    split
    · split
      · apply SameChannel.refl h
      · apply (sameChannel_revolveTokens h).processSequenceNumber
    · apply (SameChannel.refl h).processSequenceNumber

/-- The next sequence number is accepted. -/
theorem processSequenceNumber_next (channel : SecureChannel) :
  channel.processSequenceNumber (channel.receiveSequenceNumber + 1)
    = (.good, { channel with receiveSequenceNumber := channel.receiveSequenceNumber + 1 })
  := by
  rw [processSequenceNumber, if_neg]
  simp

/-- A chunk under the token in use and with the next number is accepted. -/
theorem checkChunk_current {channel : SecureChannel} {header : ChunkHeader}
    (hid : header.secureChannelId = channel.securityToken.channelId)
    (htoken : header.tokenId = channel.securityToken.tokenId)
    (hnumber : header.sequenceNumber = channel.receiveSequenceNumber + 1) :
  channel.checkChunk header
    = (.good, { channel with receiveSequenceNumber := channel.receiveSequenceNumber + 1 })
  := by
  rw [checkChunk, if_neg (not_not.mpr hid), checkSymmetric, if_neg (not_not.mpr htoken), hnumber,
    processSequenceNumber_next]
  rfl

/-- A chunk under the token issued next and with the next number is accepted, and brings the
token into use. -/
theorem checkChunk_next {channel : SecureChannel} {header : ChunkHeader}
    (hid : header.secureChannelId = channel.securityToken.channelId)
    (hcurrent : header.tokenId ≠ channel.securityToken.tokenId)
    (htoken : header.tokenId = channel.nextSecurityToken.tokenId)
    (hissued : channel.nextSecurityToken.tokenId ≠ 0)
    (hnumber : header.sequenceNumber = channel.receiveSequenceNumber + 1) :
  channel.checkChunk header
    = (.good, { channel with
        securityToken := channel.nextSecurityToken
        nextSecurityToken := .init
        receiveSequenceNumber := channel.receiveSequenceNumber + 1 })
  := by
  rw [checkChunk, if_neg (not_not.mpr hid), checkSymmetric, if_pos hcurrent,
    if_neg (not_not.mpr htoken), hnumber, revolveTokens, if_neg hissued,
    processSequenceNumber, if_neg (by simp)]
  rfl

/-- A chunk that passes the checks is addressed to the channel, under one of its tokens. -/
theorem of_checkChunk_good {channel : SecureChannel} {header : ChunkHeader}
    (h : (channel.checkChunk header).1 = .good) :
  header.secureChannelId = channel.securityToken.channelId ∧ channel.HasToken header.tokenId
  := by
  have hbad : StatusCode.badCommunicationError ≠ .good := by decide
  rw [checkChunk] at h
  split at h
  · contradiction
  · rename_i hid
    use not_not.mp hid
    rw [checkSymmetric] at h
    split at h
    · split at h
      · contradiction
      · right
        apply not_not.mp ‹_›
    · left
      apply not_not.mp ‹_›

end SecureChannel

end UA
