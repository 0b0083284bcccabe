import UaRateThrottling.Channel.Abort
import UaRateThrottling.Channel.Delivery

/-!
# The handshake of a connection

A client announces in a HEL message how large its buffers are and what it accepts, and the server
answers in an ACK message.  Each end makes its own buffers no larger than what the other end has
announced.  Afterwards the two ends agree, `handshake_agrees`, and whatever the client sends, its
chunks arrive whole, `sent_arrives`.
-/

namespace UA

open Zuth (acknowledge getSendBuffer)

/-! ### The messages -/

/-- The message of a client that opens a connection. -/
structure TcpHelloMessage where
  protocolVersion : UInt32
  receiveBufferSize : UInt32
  sendBufferSize : UInt32
  maxMessageSize : UInt32
  maxChunkCount : UInt32
  endpointUrl : List UInt8
deriving DecidableEq

/-- The answer of the server. -/
structure TcpAcknowledgeMessage where
  protocolVersion : UInt32
  receiveBufferSize : UInt32
  sendBufferSize : UInt32
  maxMessageSize : UInt32
  maxChunkCount : UInt32
deriving DecidableEq

def TcpMessageHeader.encode (header : TcpMessageHeader) : List UInt8 :=
  encodeUInt32 header.messageTypeAndChunkType ++ encodeUInt32 header.messageSize

/-- `String_encodeBinary` of a string that is not the null string. -/
def encodeString (bytes : List UInt8) : List UInt8 :=
  encodeUInt32 (UInt32.ofNat bytes.length) ++ bytes

def TcpHelloMessage.encode (hello : TcpHelloMessage) : List UInt8 :=
  encodeUInt32 hello.protocolVersion ++ encodeUInt32 hello.receiveBufferSize ++
    encodeUInt32 hello.sendBufferSize ++ encodeUInt32 hello.maxMessageSize ++
    encodeUInt32 hello.maxChunkCount ++ encodeString hello.endpointUrl

def TcpHelloMessage.decode (bytes : List UInt8) : Option (TcpHelloMessage × List UInt8) := do
  let (protocolVersion, rest) ← decodeUInt32 bytes
  let (receiveBufferSize, rest) ← decodeUInt32 rest
  let (sendBufferSize, rest) ← decodeUInt32 rest
  let (maxMessageSize, rest) ← decodeUInt32 rest
  let (maxChunkCount, rest) ← decodeUInt32 rest
  let (endpointUrl, rest) ← decodeString rest
  some (⟨protocolVersion, receiveBufferSize, sendBufferSize, maxMessageSize, maxChunkCount,
    endpointUrl⟩, rest)

def TcpAcknowledgeMessage.encode (ack : TcpAcknowledgeMessage) : List UInt8 :=
  encodeUInt32 ack.protocolVersion ++ encodeUInt32 ack.receiveBufferSize ++
    encodeUInt32 ack.sendBufferSize ++ encodeUInt32 ack.maxMessageSize ++
    encodeUInt32 ack.maxChunkCount

def TcpAcknowledgeMessage.decode (bytes : List UInt8) :
    Option (TcpAcknowledgeMessage × List UInt8) := do
  let (protocolVersion, rest) ← decodeUInt32 bytes
  let (receiveBufferSize, rest) ← decodeUInt32 rest
  let (sendBufferSize, rest) ← decodeUInt32 rest
  let (maxMessageSize, rest) ← decodeUInt32 rest
  let (maxChunkCount, rest) ← decodeUInt32 rest
  some (⟨protocolVersion, receiveBufferSize, sendBufferSize, maxMessageSize, maxChunkCount⟩, rest)

theorem TcpMessageHeader.decode_encode_append (header : TcpMessageHeader) (rest : List UInt8) :
  decode (header.encode ++ rest) = some (header, rest)
  := by
  simp only [decode, encode, List.append_assoc, decodeUInt32_encodeUInt32_append,
    Option.bind_eq_bind, Option.bind_some]

/-- A string that is not too long is read back. -/
theorem decodeString_encodeString_append {bytes : List UInt8} (h : bytes.length < 2 ^ 31)
    (rest : List UInt8) :
  decodeString (encodeString bytes ++ rest) = some (bytes, rest)
  := by
  have hlength : (UInt32.ofNat bytes.length).toNat = bytes.length := by
    rw [UInt32.toNat_ofNat', Nat.mod_eq_of_lt (by omega)]
  have hpositive : ¬(0x80000000 ≤ UInt32.ofNat bytes.length) := by
    rw [UInt32.le_iff_toNat_le, hlength]
    exact Nat.not_le.mpr h
  rw [decodeString, encodeString, List.append_assoc, decodeUInt32_encodeUInt32_append]
  simp only [Option.bind_eq_bind, Option.bind_some, hlength, List.length_append]
  by_cases hzero : UInt32.ofNat bytes.length = 0
  · have hempty : bytes.length = 0 := by
      rw [← hlength, hzero]
      rfl
    rw [if_pos (Or.inl hzero), List.eq_nil_of_length_eq_zero hempty]
    rfl
  · rw [if_neg (not_or.mpr ⟨hzero, hpositive⟩), if_neg (by omega), List.take_left, List.drop_left]

theorem TcpHelloMessage.decode_encode {hello : TcpHelloMessage}
    (h : hello.endpointUrl.length < 2 ^ 31) :
  decode hello.encode = some (hello, [])
  := by
  have hurl := decodeString_encodeString_append h []
  rw [List.append_nil] at hurl
  simp only [decode, encode, List.append_assoc, decodeUInt32_encodeUInt32_append, hurl,
    Option.bind_eq_bind, Option.bind_some]

theorem TcpAcknowledgeMessage.decode_encode (ack : TcpAcknowledgeMessage) :
  decode ack.encode = some (ack, [])
  := by
  have hlast := decodeUInt32_encodeUInt32_append ack.maxChunkCount []
  rw [List.append_nil] at hlast
  simp only [decode, encode, List.append_assoc, decodeUInt32_encodeUInt32_append, hlast,
    Option.bind_eq_bind, Option.bind_some]

@[simp]
theorem TcpHelloMessage.length_encode (hello : TcpHelloMessage) :
  hello.encode.length = 24 + hello.endpointUrl.length
  := by
  simp only [encode, encodeString, List.length_append, length_encodeUInt32]
  omega

@[simp]
theorem TcpAcknowledgeMessage.length_encode (ack : TcpAcknowledgeMessage) :
  ack.encode.length = 20
  := by
  simp only [encode, List.length_append, length_encodeUInt32]

/-! ### The server -/

/-- What a server makes of a HEL message: it closes the connection, or the connection is
established.  An ACK that its buffer is too small for is sent from beyond the end of the buffer. -/
inductive Hello where
  | closed
  | unanswered (connection : Connection)
  | overrun (connection : Connection)
  | answered (connection : Connection) (ack : List UInt8)
deriving DecidableEq

/-- `processHEL`, of what comes after the header of the message. -/
def processHEL (connection : Connection) (bytes : List UInt8) : Hello :=
  match TcpHelloMessage.decode bytes with
  | none => .closed
  | some (helloMessage, _) =>
    let connection := { connection with
      remoteConf := {
        protocolVersion := helloMessage.protocolVersion
        sendBufferSize := helloMessage.sendBufferSize
        recvBufferSize := helloMessage.receiveBufferSize
        maxMessageSize := helloMessage.maxMessageSize
        maxChunkCount := helloMessage.maxChunkCount }
      localConf := { connection.localConf with
        sendBufferSize :=
          if connection.localConf.sendBufferSize > helloMessage.receiveBufferSize then
            helloMessage.receiveBufferSize
          else connection.localConf.sendBufferSize
        recvBufferSize :=
          if connection.localConf.recvBufferSize > helloMessage.sendBufferSize then
            helloMessage.sendBufferSize
          else connection.localConf.recvBufferSize } }
    let ackMessage : TcpAcknowledgeMessage := {
      protocolVersion := connection.localConf.protocolVersion
      receiveBufferSize := connection.localConf.recvBufferSize
      sendBufferSize := connection.localConf.sendBufferSize
      maxMessageSize := connection.localConf.maxMessageSize
      maxChunkCount := connection.localConf.maxChunkCount }
    let ackHeader : TcpMessageHeader := ⟨MessageType.ack + ChunkType.final, 28⟩
    if connection.localConf.sendBufferSize > connection.remoteConf.recvBufferSize then
      .unanswered connection
    else if connection.localConf.sendBufferSize < ackHeader.messageSize then .overrun connection
    else .answered connection (ackHeader.encode ++ ackMessage.encode)

/-- What a server makes of a message on a connection without a channel.  A message too short for
its channel id is read beyond its end. -/
inductive Unattached where
  | closed
  | error (errorMessage : TcpErrorMessage)
  | hello (hello : Hello)
  | opn (channelId : UInt32) (message : List UInt8)
  | overrun
deriving DecidableEq

/-- `UA_Server_processBinaryMessage` on a connection without a channel. -/
def processUnattached (connection : Connection) (message : List UInt8) : Unattached :=
  match TcpMessageHeader.decode message with
  | none => .closed
  | some (tcpMessageHeader, bytes) =>
    let messageType := tcpMessageHeader.messageTypeAndChunkType &&& 0x00ffffff
    if messageType = MessageType.err then
      match TcpErrorMessage.decode bytes with
      | none => .closed
      | some (errorMessage, _) => .error errorMessage
    else if messageType = MessageType.hel then .hello (processHEL connection bytes)
    else if messageType = MessageType.opn then
      match decodeUInt32 bytes with
      | none => .overrun
      | some (channelId, _) => .opn channelId (message.drop 12)
    else .closed

/-! ### The client -/

/-- The least buffer size. -/
def minMessageSize : UInt32 := 8192

/-- The HEL message `HelAckHandshake` sends. -/
def sendHEL (closed : Bool) (connection : Connection) (endpointUrl : List UInt8) :
    Except StatusCode (List UInt8) :=
  match getSendBuffer connection closed minMessageSize with
  | .error retval => .error retval
  | .ok length =>
    let hello : TcpHelloMessage := {
      protocolVersion := connection.localConf.protocolVersion
      receiveBufferSize := connection.localConf.recvBufferSize
      sendBufferSize := connection.localConf.sendBufferSize
      maxMessageSize := connection.localConf.maxMessageSize
      maxChunkCount := connection.localConf.maxChunkCount
      endpointUrl := endpointUrl }
    let offset := 8 + hello.encode.length
    if offset > length then .error .badEncodingError
    else
      let messageHeader : TcpMessageHeader :=
        ⟨ChunkType.final + MessageType.hel, UInt32.ofNat offset⟩
      .ok (messageHeader.encode ++ hello.encode)

/-- What `HelAckHandshake` makes of the reply; no one looks at the type of the message. -/
def receiveACK (connection : Connection) (reply : List UInt8) : Option Connection := do
  let (_, bytes) ← TcpMessageHeader.decode reply
  let (ackMessage, _) ← TcpAcknowledgeMessage.decode bytes
  some (acknowledge connection {
    protocolVersion := ackMessage.protocolVersion
    sendBufferSize := ackMessage.sendBufferSize
    recvBufferSize := ackMessage.receiveBufferSize
    maxMessageSize := ackMessage.maxMessageSize
    maxChunkCount := ackMessage.maxChunkCount })

/-! ### Agreement -/

/-- Each end sends in buffers as large as those the other end receives with, and knows the
limits of the other end. -/
structure BuffersAgree (client server : Connection) : Prop where
  up : client.localConf.sendBufferSize = server.localConf.recvBufferSize
  down : server.localConf.sendBufferSize = client.localConf.recvBufferSize
  clientRemote : client.remoteConf = server.localConf
  serverRemote : client.localConf.recvBufferSize ≤ server.remoteConf.recvBufferSize ∧
    server.remoteConf.maxMessageSize = client.localConf.maxMessageSize ∧
    server.remoteConf.maxChunkCount = client.localConf.maxChunkCount

/-- A message of the handshake is a chunk for every receiver whose buffer it fits into. -/
theorem isChunk_encode {recvBufferSize t : UInt32} {body : List UInt8}
    (ht : t = MessageType.hel + ChunkType.final ∨ t = MessageType.ack + ChunkType.final)
    (hmin : 8 ≤ body.length) (hmax : 8 + body.length ≤ recvBufferSize.toNat) :
  IsChunk recvBufferSize
    ((TcpMessageHeader.mk t (UInt32.ofNat (8 + body.length))).encode ++ body)
  := by
  have hlt := recvBufferSize.toNat_lt
  have htype : ∀ rest, IsMessageType (messageTypeAt (encodeUInt32 t ++ rest)) := by
    intro rest
    rw [messageTypeAt, List.getD_append _ _ _ 0 (by simp), List.getD_append _ _ _ 1 (by simp),
      List.getD_append _ _ _ 2 (by simp)]
    rcases ht with rfl | rfl <;> decide
  have hsize : (UInt32.ofNat (8 + body.length)).toNat = 8 + body.length := by
    rw [UInt32.toNat_ofNat', Nat.mod_eq_of_lt (by omega)]
  have hbig : ¬(UInt32.ofNat (8 + body.length) < 16 ∨
      UInt32.ofNat (8 + body.length) > recvBufferSize) := by
    rw [not_or, UInt32.not_lt, gt_iff_lt, UInt32.not_lt, UInt32.le_iff_toNat_le,
      UInt32.le_iff_toNat_le, hsize]
    constructor
    · exact Nat.add_le_add_left hmin 8
    · apply hmax
  rw [isChunk_iff, chunkFront, TcpMessageHeader.encode, List.append_assoc, List.length_append,
    List.length_append, length_encodeUInt32, length_encodeUInt32, if_neg (by omega),
    if_neg (not_not.mpr (htype _)), chunkLengthAt, List.drop_append_of_le_length (by simp),
    List.drop_eq_nil_of_le (by simp), List.nil_append, decodeUInt32_encodeUInt32_append,
    Option.map_some]
  dsimp only
  rw [if_neg hbig, if_neg (by omega), hsize]
  rw [← Nat.add_assoc]

/-- When all that is received is one message, it is handed on once, with nothing around it. -/
theorem filter_of_flatten_eq {message : List UInt8} (hne : message ≠ [])
    {groups : List (List (List UInt8))} (h : groups.flatten = [message]) :
  (groups.map List.flatten).filter (· ≠ []) = [message]
  := by
  induction groups with
  | nil => cases h
  | cons group groups ih =>
      rw [List.flatten_cons] at h
      cases group with
      | nil =>
          rw [List.nil_append] at h
          rw [List.map_cons, List.flatten_nil, List.filter_cons_of_neg (by simp), ih h]
      | cons chunk group =>
          obtain ⟨rfl, hrest⟩ := List.cons.inj h
          obtain ⟨rfl, hgroups⟩ := List.append_eq_nil_iff.mp hrest
          have hnone : (groups.map List.flatten).filter (· ≠ []) = [] := by
            rw [List.filter_eq_nil_iff]
            intro bytes hmem
            obtain ⟨group, hgroup, rfl⟩ := List.mem_map.mp hmem
            rw [List.flatten_eq_nil_iff.mp hgroups group hgroup]
            simp
          rw [List.map_cons, List.flatten_singleton,
            List.filter_cons_of_pos (by simpa using hne), hnone]

/-- A chunk is cut off, and nothing is left. -/
theorem cut_chunk {recvBufferSize : UInt32} {chunk : List UInt8}
    (h : IsChunk recvBufferSize chunk) :
  (chunkReader recvBufferSize).cut chunk = ([chunk], [])
  := by
  have hframe := @Framing.Reader.cut_flatten_append _ (chunkReader recvBufferSize) [chunk]
    (by simpa using h) []
  rw [List.flatten_singleton, List.append_nil, @cut_incomplete recvBufferSize [] rfl] at hframe
  apply hframe

/-- However one chunk is divided into segments, it is what is handed on. -/
theorem receiveSegments_chunk {recvBufferSize : UInt32} {chunk : List UInt8}
    (h : IsChunk recvBufferSize chunk) {segments : List (List UInt8)}
    (hsegments : segments.flatten = chunk) :
  (receiveSegments recvBufferSize [] segments).1.filter (· ≠ []) = [chunk] ∧
    (receiveSegments recvBufferSize [] segments).2 = []
  := by
  obtain ⟨groups, hgroups, -, hreceive⟩ := @receiveSegments_groups recvBufferSize [chunk] []
    (by simpa using h) rfl segments (by simpa using hsegments)
  have hne : chunk ≠ [] := by
    rintro rfl
    cases h
  rw [hreceive, filter_of_flatten_eq hne hgroups]
  exact ⟨rfl, rfl⟩

section

variable {recvBufferSize : UInt32} {recvs remaining : List Recv} {chunk message kept : List UInt8}
  {retval : StatusCode}

/-- When one chunk is received, a call that returns `GOOD` returns it. -/
theorem receiveChunksBlocking_chunk (hchunk : IsChunk recvBufferSize chunk)
    (hrecvs : bytesOf recvs = chunk)
    (h : receiveChunksBlocking recvBufferSize recvs [] false =
      some ((.good, message), kept, remaining)) :
  message = chunk ∧ kept = []
  := by
  have hcut := cut_chunk hchunk
  rw [← hrecvs] at hcut
  have hclean : chunkFront recvBufferSize
      ((chunkReader recvBufferSize).cut ([] ++ bytesOf recvs)).2 ≠ .garbage := by
    rw [List.nil_append, hcut]
    exact Framing.Front.noConfusion
  obtain ⟨received, rfl, rfl, rfl, hgood⟩ :=
    receiveChunksBlocking_clean (@cut_incomplete recvBufferSize [] rfl) hclean h
  rw [List.nil_append] at hgood ⊢
  rw [bytesOf_append, Framing.Reader.cut_append] at hcut
  obtain ⟨hframes, hrest⟩ := Prod.mk.inj hcut
  cases hreceived : ((chunkReader recvBufferSize).cut (bytesOf received)).1 with
  | nil =>
      rw [hreceived] at hgood
      exact absurd rfl (hgood rfl)
  | cons frame frames =>
      rw [hreceived, List.cons_append] at hframes
      obtain ⟨rfl, hnone⟩ := List.cons.inj hframes
      obtain ⟨rfl, hlater⟩ := List.append_eq_nil_iff.mp hnone
      rw [List.flatten_singleton, ← bytesOf_append, hrecvs]
      use rfl
      -- what is kept back is in front of nothing that makes a chunk
      have hall := (chunkReader recvBufferSize).flatten_cut
        (((chunkReader recvBufferSize).cut (bytesOf received)).2 ++ bytesOf remaining)
      rw [hlater, hrest] at hall
      apply (List.append_eq_nil_iff.mp hall.symm).1

/-- When no call of `recv` fails and no deadline passes, the call returns the chunk that is
received. -/
theorem receiveChunksBlocking_good (hgood : ∀ recv ∈ recvs, recv.retval = .good)
    (hlate : ∀ recv ∈ recvs, recv.late = false) {realloced : Bool}
    (hkept : (chunkReader recvBufferSize).cut kept = ([], kept))
    (hcut : (chunkReader recvBufferSize).cut (kept ++ bytesOf recvs) = ([chunk], [])) :
  ∃ message kept' remaining, receiveChunksBlocking recvBufferSize recvs kept realloced =
    some ((.good, message), kept', remaining)
  := by
  induction recvs generalizing kept realloced with
  | nil =>
      rw [bytesOf, List.map_nil, List.flatten_nil, List.append_nil, hkept] at hcut
      cases hcut
  | cons recv recvs ih =>
      have hbytes : kept ++ bytesOf (recv :: recvs) = kept ++ recv.chunks ++ bytesOf recvs := by
        rw [bytesOf, List.map_cons, List.flatten_cons, List.append_assoc]
        rfl
      rw [hbytes] at hcut
      have hclean : chunkFront recvBufferSize
          ((chunkReader recvBufferSize).cut (kept ++ recv.chunks)).2 ≠ .garbage := by
        intro hgarbage
        have hwhole := (chunkReader recvBufferSize).garbage_of_begins (bytesOf recvs) hgarbage
        rw [hcut] at hwhole
        cases hwhole
      obtain ⟨hcompleted, hmessage, hincomplete⟩ :=
        @completeMessages_clean recvBufferSize kept recv.chunks realloced _ _ rfl hclean
      simp only [receiveChunksBlocking, hcompleted, hmessage, hincomplete,
        hgood recv List.mem_cons_self, hlate recv List.mem_cons_self]
      split
      · exact ⟨_, _, _, rfl⟩
      · rename_i hwait
        have hnone : ((chunkReader recvBufferSize).cut (kept ++ recv.chunks)).1.flatten = [] := by
          apply List.eq_nil_of_length_eq_zero
          rw [not_or] at hwait
          omega
        have hall := (chunkReader recvBufferSize).flatten_cut (kept ++ recv.chunks)
        rw [hnone, List.nil_append] at hall
        have hstop := (chunkReader recvBufferSize).cut_stop
          ((chunkReader recvBufferSize).front_cut_ne_frame (kept ++ recv.chunks))
        rw [← hall] at hcut
        apply ih (fun r hr => hgood r (List.mem_cons_of_mem _ hr))
          (fun r hr => hlate r (List.mem_cons_of_mem _ hr)) hstop hcut

end

/-! ### The handshake -/

section

variable {client server : Connection} {conf : ConnectionConfig} {endpointUrl : List UInt8}

/-- The HEL message is sent when the URL is not too long for the buffer. -/
theorem sendHEL_ok (hbuffer : minMessageSize ≤ client.remoteConf.recvBufferSize)
    (hurl : 32 + endpointUrl.length ≤ client.remoteConf.recvBufferSize.toNat) :
  ∃ hello : TcpHelloMessage, hello.endpointUrl = endpointUrl ∧
    ConnectionConfig.mk hello.protocolVersion hello.sendBufferSize hello.receiveBufferSize
      hello.maxMessageSize hello.maxChunkCount = client.localConf ∧
    sendHEL false client endpointUrl =
      .ok ((TcpMessageHeader.mk (MessageType.hel + ChunkType.final)
        (UInt32.ofNat (8 + hello.encode.length))).encode ++ hello.encode)
  := by
  refine ⟨⟨client.localConf.protocolVersion, client.localConf.recvBufferSize,
    client.localConf.sendBufferSize, client.localConf.maxMessageSize,
    client.localConf.maxChunkCount, endpointUrl⟩, rfl, rfl, ?_⟩
  have hoffset : ¬(8 + (24 + endpointUrl.length) > client.remoteConf.recvBufferSize.toNat) := by
    omega
  simp only [sendHEL, getSendBuffer, gt_iff_lt, if_neg (UInt32.not_lt.mpr hbuffer),
    Bool.false_eq_true, if_false, TcpHelloMessage.length_encode]
  rw [if_neg hoffset]
  rfl

/-- The server takes over what the client announces, as the client does with the answer. -/
theorem processHEL_encode {hello : TcpHelloMessage} (hurl : hello.endpointUrl.length < 2 ^ 31)
    (hconf : ConnectionConfig.mk hello.protocolVersion hello.sendBufferSize
      hello.receiveBufferSize hello.maxMessageSize hello.maxChunkCount = conf)
    (hack : 28 ≤ (acknowledge server conf).localConf.sendBufferSize) :
  ∃ ack : TcpAcknowledgeMessage,
    ConnectionConfig.mk ack.protocolVersion ack.sendBufferSize ack.receiveBufferSize
      ack.maxMessageSize ack.maxChunkCount = (acknowledge server conf).localConf ∧
    processHEL server hello.encode = .answered (acknowledge server conf)
      ((TcpMessageHeader.mk (MessageType.ack + ChunkType.final) 28).encode ++ ack.encode)
  := by
  subst hconf
  refine ⟨⟨_, _, _, _, _⟩, rfl, ?_⟩
  simp only [processHEL, TcpHelloMessage.decode_encode hurl]
  have haccepted := Zuth.accepted_acknowledge server ⟨hello.protocolVersion, hello.sendBufferSize,
    hello.receiveBufferSize, hello.maxMessageSize, hello.maxChunkCount⟩
  apply Eq.trans (if_neg (UInt32.not_lt.mpr haccepted))
  apply if_neg (UInt32.not_lt.mpr hack)

/-- The header says that a message is a HEL message. -/
theorem processUnattached_hel (server : Connection) (size : UInt32) (bytes : List UInt8) :
  processUnattached server
      ((TcpMessageHeader.mk (MessageType.hel + ChunkType.final) size).encode ++ bytes) =
    .hello (processHEL server bytes)
  := by
  have hmask : (MessageType.hel + ChunkType.final) &&& 0x00ffffff = MessageType.hel := by decide
  have herr : ¬(MessageType.hel = MessageType.err) := by decide
  simp only [processUnattached, TcpMessageHeader.decode_encode_append, hmask, if_neg herr, if_true]

/-- The answer is read, and the client takes over what it says. -/
theorem receiveACK_encode (client : Connection) (ack : TcpAcknowledgeMessage)
    (header : TcpMessageHeader) :
  receiveACK client (header.encode ++ ack.encode) =
    some (acknowledge client ⟨ack.protocolVersion, ack.sendBufferSize, ack.receiveBufferSize,
      ack.maxMessageSize, ack.maxChunkCount⟩)
  := by
  simp only [receiveACK, TcpMessageHeader.decode_encode_append,
    TcpAcknowledgeMessage.decode_encode, Option.bind_eq_bind, Option.bind_some]

/-- When the server has taken over what the client has announced, and the client what the server has
answered, they agree. -/
theorem buffersAgree_acknowledge (client server : Connection) :
  BuffersAgree (acknowledge client (acknowledge server client.localConf).localConf)
    (acknowledge server client.localConf)
  := by
  have hmin : ∀ a b : UInt32, (if (if a < b then a else b) < a then (if a < b then a else b)
      else a) = if a < b then a else b := by
    intro a b
    grind
  have hmin' : ∀ a b : UInt32, (if (if a < b then a else b) < a then (if a < b then a else b)
      else a) ≤ a := by
    intro a b
    grind
  constructor
  · apply hmin client.localConf.sendBufferSize server.localConf.recvBufferSize
  · exact (hmin client.localConf.recvBufferSize server.localConf.sendBufferSize).symm
  · rfl
  · exact ⟨hmin' client.localConf.recvBufferSize server.localConf.sendBufferSize, rfl, rfl⟩

end

/-- However the HEL message of a client is divided by TCP, the server processes it and nothing else,
and however its answer is divided, a call of the client that does not give up returns it; then the
two ends agree. -/
theorem handshake_agrees {conf conf' : ConnectionConfig} {endpointUrl : List UInt8}
    (hbuffer : minMessageSize ≤ conf.recvBufferSize)
    (hbuffer' : minMessageSize ≤ conf'.recvBufferSize)
    (hack : 28 ≤ conf'.sendBufferSize) (hurl : endpointUrl.length < 4096) (sockfd sockfd' : Nat) :
  ∃ hel server ack, sendHEL false ⟨sockfd, conf, conf⟩ endpointUrl = .ok hel ∧
    (∀ segments, segments.flatten = hel →
      ((receiveSegments conf'.recvBufferSize [] segments).1.filter (· ≠ [])).map
          (processUnattached ⟨sockfd', conf', conf'⟩) = [.hello (.answered server ack)] ∧
        (receiveSegments conf'.recvBufferSize [] segments).2 = []) ∧
    ∀ recvs, bytesOf recvs = ack →
      ((∀ recv ∈ recvs, recv.retval = .good) → (∀ recv ∈ recvs, recv.late = false) →
        ∃ reply kept remaining, receiveChunksBlocking conf.recvBufferSize recvs [] false =
          some ((.good, reply), kept, remaining)) ∧
      ∀ reply kept remaining, receiveChunksBlocking conf.recvBufferSize recvs [] false =
          some ((.good, reply), kept, remaining) →
        kept = [] ∧ ∃ client, receiveACK ⟨sockfd, conf, conf⟩ reply = some client ∧
          BuffersAgree client server
  := by
  have hmin := UInt32.le_iff_toNat_le.mp hbuffer
  have hmin' := UInt32.le_iff_toNat_le.mp hbuffer'
  have hsize : minMessageSize.toNat = 8192 := rfl
  obtain ⟨hello, rfl, hconf, hhel⟩ := @sendHEL_ok ⟨sockfd, conf, conf⟩ endpointUrl hbuffer
    (by dsimp only; omega)
  have hanswer : 28 ≤ (acknowledge ⟨sockfd', conf', conf'⟩ conf).localConf.sendBufferSize := by
    have hconf28 : 28 ≤ conf.recvBufferSize :=
      UInt32.le_trans (show (28 : UInt32) ≤ minMessageSize by decide) hbuffer
    simp only [acknowledge]
    split
    · apply hconf28
    · apply hack
  obtain ⟨ack, hackConf, hprocess⟩ := @processHEL_encode ⟨sockfd', conf', conf'⟩ conf hello
    (by omega) hconf hanswer
  have hackLength : (TcpMessageHeader.mk (MessageType.ack + ChunkType.final) 28).encode ++
      ack.encode = (TcpMessageHeader.mk (MessageType.ack + ChunkType.final)
        (UInt32.ofNat (8 + ack.encode.length))).encode ++ ack.encode := by
    rw [TcpAcknowledgeMessage.length_encode]
    rfl
  rw [hackLength] at hprocess
  have hhelChunk := @isChunk_encode conf'.recvBufferSize _ hello.encode (Or.inl rfl)
    (by rw [TcpHelloMessage.length_encode]; omega) (by rw [TcpHelloMessage.length_encode]; omega)
  have hackChunk := @isChunk_encode conf.recvBufferSize _ ack.encode (Or.inr rfl)
    (by rw [TcpAcknowledgeMessage.length_encode]; omega)
    (by rw [TcpAcknowledgeMessage.length_encode]; omega)
  refine ⟨_, acknowledge ⟨sockfd', conf', conf'⟩ conf,
    (TcpMessageHeader.mk (MessageType.ack + ChunkType.final)
      (UInt32.ofNat (8 + ack.encode.length))).encode ++ ack.encode, hhel, ?_, ?_⟩
  · intro segments hsegments
    obtain ⟨hhanded, hkept⟩ := receiveSegments_chunk hhelChunk hsegments
    rw [hhanded, List.map_singleton, processUnattached_hel, hprocess]
    exact ⟨rfl, hkept⟩
  · rintro recvs hrecvs
    have hcut := cut_chunk hackChunk
    rw [← hrecvs] at hcut
    constructor
    · intro hgood hlate
      apply receiveChunksBlocking_good hgood hlate (@cut_incomplete conf.recvBufferSize [] rfl) hcut
    · intro reply kept remaining hcall
      obtain ⟨rfl, rfl⟩ := receiveChunksBlocking_chunk hackChunk hrecvs hcall
      refine ⟨rfl, _, receiveACK_encode _ ack _, ?_⟩
      rw [hackConf]
      apply buffersAgree_acknowledge ⟨sockfd, conf, conf⟩ ⟨sockfd', conf', conf'⟩

/-- The URL of a server named `a`. -/
def shortUrl : List UInt8 := [0x6f, 0x70, 0x63, 0x2e, 0x74, 0x63, 0x70, 0x3a, 0x2f, 0x2f, 0x61]

theorem handshake_agrees_standard :
  ∃ hel server ack, sendHEL false ⟨5, .standard, .standard⟩ shortUrl = .ok hel ∧
    ((receiveSegments 65535 [] [hel.take 3, hel.drop 3]).1.filter (· ≠ [])).map
        (processUnattached ⟨7, .standard, .standard⟩) = [.hello (.answered server ack)] ∧
    ∃ reply kept remaining client,
      receiveChunksBlocking 65535 [⟨.good, ack.take 9, false⟩, ⟨.good, ack.drop 9, false⟩] []
          false = some ((.good, reply), kept, remaining) ∧
        receiveACK ⟨5, .standard, .standard⟩ reply = some client ∧ BuffersAgree client server
  := by
  obtain ⟨hel, server, ack, hhel, hserver, hclient⟩ :=
    @handshake_agrees .standard .standard shortUrl (by decide) (by decide) (by decide)
      (by decide) 5 7
  have hbytes : bytesOf [⟨.good, ack.take 9, false⟩, ⟨.good, ack.drop 9, false⟩] = ack := by
    simp [bytesOf]
  obtain ⟨hcall, hagree⟩ := hclient _ hbytes
  obtain ⟨reply, kept, remaining, hreturn⟩ := hcall (by simp) (by simp)
  obtain ⟨-, client, hack, hbuffers⟩ := hagree _ _ _ hreturn
  exact ⟨hel, server, ack, hhel, (hserver _ (by simp)).1, reply, kept, remaining, client, hreturn,
    hack, hbuffers⟩

/-! ### Whatever is sent -/

section

variable {connection : Connection} {closed : Bool} {writer : Writer}

/-- An abort chunk fits where the buffer of the message was. -/
theorem length_abortPayload_le (space : Nat) (errorCode : StatusCode) :
  (Zuth.abortPayload space errorCode).length ≤ space
  := by
  rw [Zuth.abortPayload]
  split
  · exact Nat.zero_le _
  · split
    · rw [length_encodeUInt32]
      omega
    · rw [List.length_append, length_encodeUInt32, encodeNullString]
      simp only [List.length_cons, List.length_nil]
      omega

/-- The types a chunk of a message can have. -/
theorem mem_types {type chunkType : UInt32}
    (htype : type ∈ [MessageType.msg, MessageType.opn, MessageType.clo])
    (hchunk : chunkType ∈ [ChunkType.final, ChunkType.intermediate, ChunkType.abort]) :
  type + chunkType ∈ [MessageType.msg + ChunkType.final, MessageType.msg + ChunkType.intermediate,
    MessageType.msg + ChunkType.abort, MessageType.opn + ChunkType.final,
    MessageType.opn + ChunkType.intermediate, MessageType.opn + ChunkType.abort,
    MessageType.clo + ChunkType.final, MessageType.clo + ChunkType.intermediate,
    MessageType.clo + ChunkType.abort]
  := by
  simp only [List.mem_cons, List.not_mem_nil, or_false] at htype hchunk
  rcases htype with rfl | rfl | rfl
  · rcases hchunk with rfl | rfl | rfl <;> simp
  · rcases hchunk with rfl | rfl | rfl <;> simp
  · rcases hchunk with rfl | rfl | rfl <;> simp

/-- What has been written are chunks for the other end, and the buffer is no larger than what the
other end receives. -/
structure Writer.Fits (connection : Connection) (writer : Writer) : Prop where
  connection_eq : writer.channel.connection = some connection
  messageType : writer.ci.messageType ∈ [MessageType.msg, MessageType.opn, MessageType.clo]
  dst_le : writer.dst.length ≤ writer.space
  space_le : writer.space + secureMessageHeaderLength ≤ connection.remoteConf.recvBufferSize.toNat
  written : ∀ chunk ∈ writer.written, DataChunk connection.remoteConf.recvBufferSize chunk

/-- A chunk is written, and the buffer that takes its place fits as well. -/
theorem Writer.Fits.sendChunk (h : writer.Fits connection)
    (hspace : secureMessageHeaderLength ≤ connection.localConf.sendBufferSize.toNat)
    (haccepted : connection.localConf.sendBufferSize ≤ connection.remoteConf.recvBufferSize) :
  (SecureChannel.sendChunk closed writer).2.Fits connection
  := by
  have hle := UInt32.le_iff_toNat_le.mp haccepted
  have hdst := h.dst_le
  have hfits := h.space_le
  have hwritten : ∀ chunkType ∈ [ChunkType.final, ChunkType.intermediate, ChunkType.abort],
      ∀ header payload, payload.length ≤ writer.space →
        ∀ chunk ∈ writer.written ++
            [encodeChunk (writer.ci.messageType + chunkType) header payload],
          DataChunk connection.remoteConf.recvBufferSize chunk := by
    intro chunkType hchunk header payload hpayload chunk hmem
    rcases List.mem_append.mp hmem with hmem | hmem
    · apply h.written chunk hmem
    · rw [List.mem_singleton.mp hmem]
      apply dataChunk_encodeChunk header (mem_types h.messageType hchunk)
      omega
  simp only [SecureChannel.sendChunk, h.connection_eq, Zuth.checkLimits_eq, Writer.send]
  generalize Zuth.limitCode connection.remoteConf writer.ci
    (writer.dst.length + secureMessageHeaderLength) = code
  by_cases hcode : code = .good
  · simp only [if_pos hcode]
    split
    · exact ⟨rfl, h.messageType, hdst, hfits, hwritten _ (by simp) _ _ hdst⟩
    · have hintermediate := hwritten ChunkType.intermediate (by simp)
      split
      · exact ⟨rfl, h.messageType, hdst, hfits, hintermediate _ _ hdst⟩
      · refine ⟨rfl, h.messageType, Nat.zero_le _, ?_, hintermediate _ _ hdst⟩
        dsimp only
        rw [Zuth.payloadSpace]
        omega
  · simp only [if_neg hcode, if_true]
    exact ⟨rfl, h.messageType, hdst, hfits,
      hwritten _ (by simp) _ _ (length_abortPayload_le writer.space code)⟩

/-- The encoder keeps what has been written and the buffer as they have to be. -/
theorem Writer.Fits.encodePieces (h : writer.Fits connection)
    (hspace : secureMessageHeaderLength ≤ connection.localConf.sendBufferSize.toNat)
    (haccepted : connection.localConf.sendBufferSize ≤ connection.remoteConf.recvBufferSize)
    {fuel : Nat} {pieces : List (List UInt8)} {retval : StatusCode} {writer' : Writer}
    (hencode : UA.encodePieces closed fuel pieces writer = some (retval, writer')) :
  writer'.Fits connection
  := by
  induction fuel generalizing pieces writer with
  | zero => cases hencode
  | succ fuel ih =>
      cases pieces with
      | nil =>
          cases hencode
          apply h
      | cons piece pieces =>
          rw [UA.encodePieces] at hencode
          split at hencode
          · rename_i hfits
            apply ih _ hencode
            refine ⟨h.connection_eq, h.messageType, ?_, h.space_le, h.written⟩
            rw [List.length_append]
            apply hfits
          · have hsent := @Writer.Fits.sendChunk connection closed writer h hspace haccepted
            dsimp only at hencode
            split at hencode
            · cases hencode
              apply hsent
            · apply ih hsent hencode

/-- Whatever becomes of a message, what is written of it are chunks for the other end. -/
theorem written_of_sendBinaryMessage {channel channel' : SecureChannel}
    (hconnection : channel.connection = some connection)
    (hspace : secureMessageHeaderLength ≤ connection.localConf.sendBufferSize.toNat)
    (haccepted : connection.localConf.sendBufferSize ≤ connection.remoteConf.recvBufferSize)
    {fuel : Nat} {requestId : UInt32} {content : Zuth.Content} {retval : StatusCode}
    {written : List (List UInt8)}
    (h : SecureChannel.sendBinaryMessage closed fuel channel requestId content =
      some (retval, channel', written)) :
  channel'.connection = some connection ∧
    ∀ chunk ∈ written, DataChunk connection.remoteConf.recvBufferSize chunk
  := by
  have hle := UInt32.le_iff_toNat_le.mp haccepted
  have hbuffer : ¬(connection.localConf.sendBufferSize > connection.remoteConf.recvBufferSize) :=
    UInt32.not_lt.mpr haccepted
  simp only [SecureChannel.sendBinaryMessage, hconnection, getSendBuffer, if_neg hbuffer,
    if_neg (Nat.not_lt.mpr hspace)] at h
  cases closed with
  | true =>
      obtain ⟨rfl, rfl, rfl⟩ := by simpa using h
      exact ⟨hconnection, by simp⟩
  | false =>
      simp only [Bool.false_eq_true, if_false] at h
      generalize hdst : (if (NodeId.encodeNumeric 0 content.binaryEncodingId).length ≤
        connection.remoteConf.recvBufferSize.toNat - secureMessageHeaderLength then
          NodeId.encodeNumeric 0 content.binaryEncodingId else []) = dst at h
      have hstart : Writer.Fits connection ⟨channel, ⟨requestId,
          Zuth.messageType content.binaryEncodingId, 0, 0, false, .good⟩, dst,
          connection.remoteConf.recvBufferSize.toNat - secureMessageHeaderLength, []⟩ := by
        refine ⟨hconnection, Zuth.messageType_cases _, ?_, ?_, by simp⟩
        · rw [← hdst]
          split
          · assumption
          · exact Nat.zero_le _
        · dsimp only
          omega
      split at h
      · cases h
      · rename_i encoded writer hencode
        have hencoded := hstart.encodePieces hspace haccepted hencode
        have hsent : ∀ ci : Zuth.ChunkInfo, ci.messageType = writer.ci.messageType →
            (SecureChannel.sendChunk false { writer with ci := ci }).2.Fits connection := by
          intro ci hci
          apply Writer.Fits.sendChunk _ hspace haccepted
          refine ⟨hencoded.connection_eq, ?_, hencoded.dst_le, hencoded.space_le,
            hencoded.written⟩
          rw [hci]
          apply hencoded.messageType
        generalize (if encoded = .good then content.retval else encoded) = code at h
        split at h
        · split at h
          · cases h
            exact ⟨hencoded.connection_eq, hencoded.written⟩
          · have hlast := hsent { writer.ci with errorCode := code } rfl
            cases h
            exact ⟨hlast.connection_eq, hlast.written⟩
        · cases h
          have hlast := hsent { writer.ci with final := true } rfl
          exact ⟨hlast.connection_eq, hlast.written⟩

/-- Whatever messages a client sends, also those that are aborted and those whose encoder fails, and
however TCP divides them, their chunks arrive whole and in their order. -/
theorem sent_arrives {client server : Connection} (hagree : BuffersAgree client server)
    (hspace : secureMessageHeaderLength ≤ client.localConf.sendBufferSize.toNat)
    {channel channel' : SecureChannel} (hconnection : channel.connection = some client)
    {fuel : Nat} {messages : List (Bool × Zuth.Message)} {retvals : List StatusCode}
    {chunks : List (List UInt8)}
    (hsend : Zuth.sendAll (fun channel message => SecureChannel.sendBinaryMessage message.1 fuel
      channel message.2.1 message.2.2) messages channel = some (retvals, channel', chunks))
    {segments : List (List UInt8)} {rest : List UInt8}
    (hsegments : segments.flatten = chunks.flatten ++ rest)
    (hrest : chunkFront server.localConf.recvBufferSize rest = .incomplete) :
  ∃ groups : List (List (List UInt8)), groups.flatten = chunks ∧
    groups.length = segments.length ∧
    receiveSegments server.localConf.recvBufferSize [] segments = (groups.map List.flatten, rest)
  := by
  have haccepted : client.localConf.sendBufferSize ≤ client.remoteConf.recvBufferSize := by
    rw [hagree.clientRemote, hagree.up]
    apply UInt32.le_refl
  have hchunks : ∀ chunk ∈ chunks, IsChunk server.localConf.recvBufferSize chunk := by
    clear hsegments
    induction messages generalizing channel retvals chunks with
    | nil =>
        cases hsend
        rintro chunk ⟨⟩
    | cons message messages ih =>
        obtain ⟨⟨retval, channel₁, written⟩, hmessage, hrest⟩ := Option.bind_eq_some_iff.mp hsend
        obtain ⟨⟨retvals₁, channel₂, later⟩, hmessages, heq⟩ := Option.bind_eq_some_iff.mp hrest
        cases heq
        obtain ⟨hconnection₁, hwritten⟩ :=
          written_of_sendBinaryMessage hconnection hspace haccepted hmessage
        intro chunk hmem
        rcases List.mem_append.mp hmem with hmem | hmem
        · have hchunk := (hwritten chunk hmem).isChunk
          rw [hagree.clientRemote] at hchunk
          apply hchunk
        · apply ih hconnection₁ hmessages chunk hmem
  obtain ⟨groups, hflatten, hfeed, hreceive⟩ := receiveSegments_groups hchunks hrest hsegments
  use groups, hflatten
  constructor
  · rw [hfeed, Framing.Reader.length_feed]
  · exact hreceive

/-- A connection whose other end takes one chunk a message, of no more than 32 bytes. -/
def oneChunkConnection : Connection :=
  acknowledge ⟨5, .standard, .standard⟩
    (acknowledge ⟨7, ⟨0, 32, 32, 0, 1⟩, .standard⟩ .standard).localConf

theorem sent_arrives_aborted :
  ∃ retvals channel' chunks,
    Zuth.sendAll (fun channel message => SecureChannel.sendBinaryMessage message.1 9 channel
        message.2.1 message.2.2)
        [(false, 2, Zuth.twoPieces 631), (true, 3, Zuth.twoPieces 631),
          (false, 4, ⟨631, [[1]], .badInternalError⟩)]
        { SecureChannel.init with connection := some oneChunkConnection } =
      some (retvals, channel', chunks) ∧
    retvals = [.badResponseTooLarge, .badConnectionClosed, .badInternalError] ∧
    ∃ groups : List (List (List UInt8)), groups.flatten = chunks ∧ groups.length = 2 ∧
      receiveSegments 32 [] [chunks.flatten.take 30, chunks.flatten.drop 30] =
        (groups.map List.flatten, [])
  := by
  have hcomputed : (Zuth.sendAll (fun channel message => SecureChannel.sendBinaryMessage message.1 9
      channel message.2.1 message.2.2)
      [(false, 2, Zuth.twoPieces 631), (true, 3, Zuth.twoPieces 631),
        (false, 4, ⟨631, [[1]], .badInternalError⟩)]
      { SecureChannel.init with connection := some oneChunkConnection }).map Prod.fst =
    some [.badResponseTooLarge, .badConnectionClosed, .badInternalError] := by decide
  obtain ⟨⟨retvals, channel', chunks⟩, hsend, hretvals⟩ := Option.map_eq_some_iff.mp hcomputed
  use retvals, channel', chunks, hsend, hretvals
  apply @sent_arrives _ _ (buffersAgree_acknowledge ⟨5, .standard, .standard⟩
    ⟨7, ⟨0, 32, 32, 0, 1⟩, .standard⟩) (by decide) _ _ rfl _ _ _ _ hsend
    [chunks.flatten.take 30, chunks.flatten.drop 30] [] (by simp) rfl

end

end UA
