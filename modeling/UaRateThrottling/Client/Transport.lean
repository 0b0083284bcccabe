import UaRateThrottling.Transition
import UaRateThrottling.Channel.Manager

/-!
# The two transports of a client

A client numbers all its messages on a channel from one counter, but sends them over two
transports: throttled requests go through the queue, everything else goes over its connection.
Each transport keeps its order; between them there is none.  The server takes a chunk only
under the next number and a valid token, an OPN message sets the number and may bring a next
token, and the clean-up brings the next token into use.

* In each of the runs of `chunk_refused` a chunk the client has sent is not accepted: a direct
  message overtakes a queued one, a renewal overtakes a queued one, the clean-up retires a token
  that the client has from a late reply, a chunk is not stored, a task is not read.
* In the runs in which the chunks are stored and read, the server processes the messages in the
  order they were sent, and the clean-up does not overtake the client, every chunk is accepted.
-/

namespace Transport

open Transition UA

/-- What a client sends over its connection: a MSG or CLO chunk, or the OPN message of a
renewal. -/
inductive Message where
  | msg (header : ChunkHeader)
  | clo (header : ChunkHeader)
  | opn (sequenceNumber : UInt32)
deriving DecidableEq

/-- The transport of a message. -/
inductive Route where
  | queue
  | connection
deriving DecidableEq

/-- The oldest of the messages on a transport that are not skipped, and the messages without it. -/
def oldest (route : Route) :
    Nat → List (Route × Message) → Option (Message × List (Route × Message))
  | _, [] => none
  | skipped, (route', message) :: messages =>
    if route' = route ∧ skipped = 0 then some (message, messages)
    else
      (oldest route (if route' = route then skipped - 1 else skipped) messages).map
        (fun (found, rest) => (found, (route', message) :: rest))

/-- Where the client is: between two calls, in the handshake of a renewal, after it, or past the id
of a request that is sent over the given transport. -/
inductive Phase where
  | idle
  | renewing
  | renewed
  | sending (route : Route)
deriving DecidableEq

/-- The client and the server's channel for it.  `due` says that the time for a renewal has come,
and `closed` that the client has closed its connection.  `unprocessed` are the messages the server
has not processed yet, in the order in which they were sent, of whose tasks it has `skipped` so many
in the batch it goes through, `replies` are the tokens in the OPN replies on their way, and
`refused` are the MSG chunks that were not accepted. -/
structure State where
  securityToken : ChannelSecurityToken
  sendSequenceNumber : UInt32
  requestId : UInt32
  due : Bool
  phase : Phase
  closed : Bool
  unprocessed : List (Route × Message)
  skipped : Nat
  replies : List ChannelSecurityToken
  channel : Option SecureChannel
  refused : List ChunkHeader

inductive Action where
  /-- The time comes to renew the channel. -/
  | expire
  /-- `SecureChannelHandshake` sends the OPN message of a renewal, when it is due. -/
  | renew
  /-- The handshake receives the next OPN reply. -/
  | receiveReply
  /-- The handshake returns without a reply, and with it the call. -/
  | giveUp
  /-- An OPN reply is consumed by another call. -/
  | dropReply
  /-- A call has a valid channel, and takes the id of its request. -/
  | request (route : Route)
  /-- A chunk of a throttled request is put into the queue, if `zoo_create` succeeds. -/
  | queueChunk (created : Bool)
  /-- A MSG chunk is sent over the connection. -/
  | sendDirect
  /-- The call returns, with or without a response. -/
  | finish
  /-- `CloseSecureChannel`. -/
  | sendClose
  /-- The server lists the tasks. -/
  | nextBatch
  /-- The server executes the next task, if its document can be read. -/
  | executeTask (read : Bool)
  /-- The server processes the next message of the connection; a new token has the given number
  and lifetime. -/
  | processMessage (tokenId lifetime : UInt32) (now : Int)
  /-- The server cleans up its channels, and this one stays. -/
  | cleanup
deriving DecidableEq

namespace State

/-- The headers of the client's next chunk, under the given request id. -/
def nextChunk (s : State) (requestId : UInt32) : ChunkHeader where
  secureChannelId := s.securityToken.channelId
  tokenId := s.securityToken.tokenId
  sequenceNumber := s.sendSequenceNumber + 1
  requestId := requestId

/-- The client sends a message, and a number is used. -/
def send (s : State) (route : Route) (message : Message) : State :=
  { s with
    sendSequenceNumber := s.sendSequenceNumber + 1
    unprocessed := s.unprocessed ++ [(route, message)] }

/-- The server's channel takes a MSG chunk, or refuses it. -/
def takeChunk (s : State) (chunk : ChunkHeader) : State :=
  match s.channel with
  | none => { s with refused := s.refused ++ [chunk] }
  | some channel =>
    match channel.checkChunk chunk with
    | (retval, channel') =>
      { s with
        channel := some channel'
        refused := if retval = .good then s.refused else s.refused ++ [chunk] }

/-- `processOPN` for a renewal: the number of the message is the one to continue from, and the
next token is issued, unless one is already. -/
def processOpn (s : State) (sequenceNumber tokenId lifetime : UInt32) (now : Int) : State :=
  match s.channel with
  | none => s
  | some channel =>
    let token := channel.renewedToken tokenId lifetime
    { s with
      channel := some { channel with
        nextSecurityToken := { token with createdAt := now }
        receiveSequenceNumber := sequenceNumber }
      replies := s.replies ++ [token] }

/-- The step an action makes. -/
def step (s : State) : Action → Option State
  | .expire => some { s with due := true }
  | .renew =>
    if s.phase = .idle ∧ s.due ∧ ¬s.closed then
      some { s.send .connection (.opn (s.sendSequenceNumber + 1)) with
        requestId := s.requestId + 1
        phase := .renewing }
    else none
  | .receiveReply =>
    match s.replies with
    | token :: replies =>
      if s.phase = .renewing then
        some { s with securityToken := token, due := false, phase := .renewed, replies := replies }
      else none
    | [] => none
  | .giveUp => if s.phase = .renewing then some { s with phase := .idle } else none
  | .dropReply =>
    match s.replies with
    | _ :: replies => some { s with replies := replies }
    | [] => none
  | .request route =>
    if (s.phase = .renewed ∨ s.phase = .idle ∧ ¬s.due) ∧ ¬s.closed then
      some { s with requestId := s.requestId + 1, phase := .sending route }
    else none
  | .queueChunk created =>
    if s.phase = .sending .queue ∧ ¬s.closed then
      -- a failure of `zoo_create` is only printed
      if created then some (s.send .queue (.msg (s.nextChunk s.requestId)))
      else some { s with
        sendSequenceNumber := s.sendSequenceNumber + 1
        refused := s.refused ++ [s.nextChunk s.requestId] }
    else none
  | .sendDirect =>
    if s.phase = .sending .connection ∧ ¬s.closed then
      some (s.send .connection (.msg (s.nextChunk s.requestId)))
    else none
  | .finish => if s.phase = .renewing then none else some { s with phase := .idle }
  | .sendClose =>
    if s.phase = .idle ∧ ¬s.closed then
      some { s.send .connection (.clo (s.nextChunk (s.requestId + 1))) with
        requestId := s.requestId + 1
        closed := true }
    else none
  | .nextBatch => some { s with skipped := 0 }
  | .executeTask read =>
    match oldest .queue s.skipped s.unprocessed with
    | some (.msg chunk, rest) =>
      if read then some ({ s with unprocessed := rest }.takeChunk chunk)
      else some { s with skipped := s.skipped + 1, refused := s.refused ++ [chunk] }
    | _ => none
  | .processMessage tokenId lifetime now =>
    match oldest .connection 0 s.unprocessed with
    | some (.msg chunk, rest) => some ({ s with unprocessed := rest }.takeChunk chunk)
    | some (.clo chunk, rest) =>
      match s.channel with
      | none => some { s with unprocessed := rest }
      | some channel =>
        match channel.checkChunk chunk with
        | (retval, channel') => some { s with
            unprocessed := rest
            channel := if retval = .good then none else some channel' }
    | some (.opn sequenceNumber, rest) =>
      some ({ s with unprocessed := rest }.processOpn sequenceNumber tokenId lifetime now)
    | none => none
  | .cleanup => s.channel.map (fun channel =>
      { s with channel := some (SecureChannelManager.cleanedUp channel) })

/-- A channel has just been opened: the server's channel and the client agree on its token and
on the numbers, and nothing is on its way. -/
def Opened (s : State) : Prop :=
  ∃ channel, s.channel = some channel ∧ s.securityToken = channel.securityToken ∧
    s.sendSequenceNumber = channel.receiveSequenceNumber ∧
    channel.nextSecurityToken.tokenId = 0 ∧ s.phase = .idle ∧ s.closed = false ∧
    s.unprocessed = [] ∧ s.skipped = 0 ∧ s.replies = [] ∧ s.refused = []

/-- Every MSG chunk that was to be stored, and every one that the server has come to, was
accepted. -/
def AllAccepted (s : State) : Prop := s.refused = []

end State

/-- A client on a channel it has opened. -/
def machine : Machine State Action where
  Init := State.Opened
  step := State.step

/-! ### Sequences of tokens -/

section

variable {α : Type} {a b : α} {s : List α}

/-- A sequence that consists of `a`s, followed by `b`s. -/
def Switches (a b : α) (s : List α) : Prop :=
  ∃ xs ys, s = xs ++ ys ∧ (∀ x ∈ xs, x = a) ∧ ∀ y ∈ ys, y = b

/-- Elements left out leave the rest a sequence of `a`s and `b`s. -/
theorem Switches.sublist (h : Switches a b s) {s' : List α} (hsub : s'.Sublist s) :
  Switches a b s'
  := by
  obtain ⟨xs, ys, rfl, ha, hb⟩ := h
  obtain ⟨xs', ys', rfl, hxs, hys⟩ := List.sublist_append_iff.mp hsub
  use xs', ys', rfl
  constructor
  · intro x hx
    apply ha x (hxs.subset hx)
  · intro y hy
    apply hb y (hys.subset hy)

/-- An element may be repeated where it stands. -/
theorem Switches.repeat {xs ys : List α} {x : α} (h : Switches a b (xs ++ x :: ys)) :
  Switches a b (xs ++ x :: x :: ys)
  := by
  obtain ⟨us, vs, heq, ha, hb⟩ := h
  rcases List.append_eq_append_iff.mp heq with ⟨ws, rfl, hws⟩ | ⟨ws, rfl, hws⟩
  · cases ws with
    | nil =>
        obtain rfl : vs = x :: ys := by simpa using hws.symm
        use xs, x :: x :: ys, rfl
        constructor
        · simpa using ha
        · intro y hy
          apply hb y
          simpa using hy
    | cons w ws =>
        obtain ⟨rfl, rfl⟩ := List.cons.inj hws
        use xs ++ x :: x :: ws, vs
        constructor
        · simp
        · constructor
          · intro y hy
            apply ha y
            simpa using hy
          · apply hb
  · use us, ws ++ x :: x :: ys
    constructor
    · simp
    · constructor
      · apply ha
      · intro y hy
        apply hb y
        rw [hws]
        simpa using hy

/-- One more `b` may follow. -/
theorem Switches.append (h : Switches a b s) :
  Switches a b (s ++ [b])
  := by
  obtain ⟨xs, ys, rfl, ha, hb⟩ := h
  use xs, ys ++ [b], List.append_assoc _ _ _, ha
  intro y hy
  rcases List.mem_append.mp hy with hy | hy
  · apply hb y hy
  · apply List.mem_singleton.mp hy

/-- After an element that is not `a` there are only `b`s. -/
theorem Switches.eq_of_ne {xs ys : List α} {x : α} (h : Switches a b (xs ++ x :: ys))
    (hx : x ≠ a) :
  x = b ∧ ∀ y ∈ ys, y = b
  := by
  obtain ⟨us, vs, heq, ha, hb⟩ := h
  rcases List.append_eq_append_iff.mp heq with ⟨ws, rfl, hws⟩ | ⟨ws, rfl, hws⟩
  · cases ws with
    | nil =>
        obtain rfl : vs = x :: ys := by simpa using hws.symm
        use hb x List.mem_cons_self
        intro y hy
        apply hb y (List.mem_cons_of_mem _ hy)
    | cons w ws =>
        obtain ⟨rfl, rfl⟩ := List.cons.inj hws
        cases hx (ha _ (by simp))
  · subst hws
    use hb x (by simp)
    intro y hy
    apply hb y (by simp [hy])

end

/-! ### The server follows the client -/

namespace Message

/-- The number of a message. -/
def sequenceNumber : Message → UInt32
  | msg header => header.sequenceNumber
  | clo header => header.sequenceNumber
  | opn sequenceNumber => sequenceNumber

/-- The headers of a message that is not an OPN. -/
def header : Message → Option ChunkHeader
  | msg header => some header
  | clo header => some header
  | opn _ => none

end Message

/-- The messages have the numbers after `m`, the last of them `n`. -/
def Continues : UInt32 → List Message → UInt32 → Prop
  | m, [], n => m = n
  | m, message :: messages, n =>
    message.sequenceNumber = m + 1 ∧ Continues (m + 1) messages n

theorem Continues.append {m n : UInt32} {messages : List Message} (h : Continues m messages n)
    {message : Message} (hmessage : message.sequenceNumber = n + 1) :
  Continues m (messages ++ [message]) (n + 1)
  := by
  induction messages generalizing m with
  | nil =>
      obtain rfl := h
      constructor
      · apply hmessage
      · rfl
  | cons head messages ih => use h.1, ih h.2

/-- The tokens of the messages not processed yet, of the client, and of the replies on their
way, in the order in which they come into use. -/
def tokenIds (pending : List Message) (token : ChannelSecurityToken)
    (replies : List ChannelSecurityToken) : List UInt32 :=
  (pending.filterMap Message.header).map ChunkHeader.tokenId ++
    token.tokenId :: replies.map ChannelSecurityToken.tokenId

/-- The server's channel follows the client: the messages not processed yet continue its
number and lead to the client's, they and all tokens are those of the channel, and the tokens
are first its token in use and then its next token. -/
structure Follows (channel : SecureChannel) (pending : List Message) (n : UInt32)
    (token : ChannelSecurityToken) (replies : List ChannelSecurityToken) : Prop where
  numbers : Continues channel.receiveSequenceNumber pending n
  channelIds : ∀ header ∈ pending.filterMap Message.header,
    header.secureChannelId = channel.securityToken.channelId
  clientId : token.channelId = channel.securityToken.channelId
  replyIds : ∀ reply ∈ replies, reply.channelId = channel.securityToken.channelId
  agree : channel.TokensAgree
  tokens : Switches channel.securityToken.tokenId channel.nextSecurityToken.tokenId
    (tokenIds pending token replies)
  unissued : channel.nextSecurityToken.tokenId = 0 →
    ∀ tokenId ∈ tokenIds pending token replies, tokenId = channel.securityToken.tokenId

section

variable {channel : SecureChannel} {pending : List Message} {n : UInt32}
  {token : ChannelSecurityToken} {replies : List ChannelSecurityToken}

/-- The client sends a chunk under its token and its next number. -/
theorem Follows.sendChunk (h : Follows channel pending n token replies) {message : Message}
    {requestId : UInt32}
    (hheader : message.header = some ⟨token.channelId, token.tokenId, n + 1, requestId⟩)
    (hnumber : message.sequenceNumber = n + 1) :
  Follows channel (pending ++ [message]) (n + 1) token replies
  := by
  obtain ⟨hnumbers, hchannelIds, hclient, hreplies, hagree, htokens, hunissued⟩ := h
  have hids : tokenIds (pending ++ [message]) token replies
      = (pending.filterMap Message.header).map ChunkHeader.tokenId ++
        token.tokenId :: token.tokenId :: replies.map ChannelSecurityToken.tokenId := by
    simp [tokenIds, hheader]
  constructor
  · apply hnumbers.append hnumber
  · intro header hmem
    simp only [List.filterMap_append, List.mem_append] at hmem
    rcases hmem with hmem | hmem
    · apply hchannelIds header hmem
    · simp only [List.filterMap_cons, hheader, List.filterMap_nil, List.mem_singleton] at hmem
      rw [hmem]
      apply hclient
  · apply hclient
  · apply hreplies
  · apply hagree
  · rw [hids]
    apply htokens.repeat
  · intro hzero tokenId hmem
    apply hunissued hzero
    rw [hids] at hmem
    simp only [tokenIds, List.mem_append, List.mem_cons] at hmem ⊢
    tauto

/-- The client sends the OPN message of a renewal. -/
theorem Follows.sendOpn (h : Follows channel pending n token replies) :
  Follows channel (pending ++ [.opn (n + 1)]) (n + 1) token replies
  := by
  obtain ⟨hnumbers, hchannelIds, hclient, hreplies, hagree, htokens, hunissued⟩ := h
  have hheaders : (pending ++ [Message.opn (n + 1)]).filterMap Message.header
      = pending.filterMap Message.header := by
    simp [Message.header]
  constructor
  · apply hnumbers.append rfl
  · rw [hheaders]
    apply hchannelIds
  · apply hclient
  · apply hreplies
  · apply hagree
  · rw [tokenIds, hheaders]
    apply htokens
  · rw [tokenIds, hheaders]
    apply hunissued

/-- The client, or another call, takes tokens out of the sequence. -/
theorem Follows.drop (h : Follows channel pending n token replies)
    {token' : ChannelSecurityToken} {replies' : List ChannelSecurityToken}
    (hsub : (token' :: replies').Sublist (token :: replies)) :
  Follows channel pending n token' replies'
  := by
  obtain ⟨hnumbers, hchannelIds, hclient, hreplies, hagree, htokens, hunissued⟩ := h
  have hids : ∀ reply ∈ token' :: replies', reply.channelId = channel.securityToken.channelId := by
    intro reply hreply
    rcases List.mem_cons.mp (hsub.subset hreply) with rfl | hmem
    · apply hclient
    · apply hreplies reply hmem
  have hsub' : (tokenIds pending token' replies').Sublist (tokenIds pending token replies) :=
    (hsub.map ChannelSecurityToken.tokenId).append_left _
  constructor
  · apply hnumbers
  · apply hchannelIds
  · apply hids token' List.mem_cons_self
  · intro reply hreply
    apply hids reply (List.mem_cons_of_mem _ hreply)
  · apply hagree
  · apply htokens.sublist hsub'
  · intro hzero tokenId hmem
    apply hunissued hzero tokenId (hsub'.subset hmem)

/-- When all tokens are the next token of the channel, the server follows with it in use. -/
theorem follows_revolved {number : UInt32} (hnumbers : Continues number pending n)
    (hsame : channel.nextSecurityToken.channelId = channel.securityToken.channelId)
    (hchannelIds : ∀ header ∈ pending.filterMap Message.header,
      header.secureChannelId = channel.securityToken.channelId)
    (hclient : token.channelId = channel.securityToken.channelId)
    (hreplies : ∀ reply ∈ replies, reply.channelId = channel.securityToken.channelId)
    (hall : ∀ tokenId ∈ tokenIds pending token replies,
      tokenId = channel.nextSecurityToken.tokenId) :
  Follows { channel with
    securityToken := channel.nextSecurityToken
    nextSecurityToken := .init
    receiveSequenceNumber := number } pending n token replies
  := by
  constructor
  · apply hnumbers
  · intro header hmem
    rw [hsame]
    apply hchannelIds header hmem
  · rw [hsame]
    apply hclient
  · intro reply hreply
    rw [hsame]
    apply hreplies reply hreply
  · intro hinit
    contradiction
  · use tokenIds pending token replies, [], (List.append_nil _).symm, hall
    simp
  · intro _
    apply hall

/-- The server accepts the chunk processed next, and keeps following. -/
theorem Follows.takeChunk {message : Message} {chunk : ChunkHeader}
    (h : Follows channel (message :: pending) n token replies)
    (hheader : message.header = some chunk)
    (hnumber : message.sequenceNumber = chunk.sequenceNumber) :
  ∃ channel', channel.checkChunk chunk = (.good, channel') ∧
    Follows channel' pending n token replies
  := by
  obtain ⟨⟨hnext, hnumbers⟩, hchannelIds, hclient, hreplies, hagree, htokens, hunissued⟩ := h
  rw [hnumber] at hnext
  simp only [List.filterMap_cons, hheader, List.forall_mem_cons] at hchannelIds
  obtain ⟨hid, hchannelIds⟩ := hchannelIds
  have hids : tokenIds (message :: pending) token replies
      = chunk.tokenId :: tokenIds pending token replies := by
    simp [tokenIds, hheader]
  rw [hids] at htokens hunissued
  by_cases hcurrent : chunk.tokenId = channel.securityToken.tokenId
  · refine ⟨_, SecureChannel.checkChunk_current hid hcurrent hnext, ?_⟩
    constructor
    · apply hnumbers
    · apply hchannelIds
    · apply hclient
    · apply hreplies
    · apply hagree
    · apply htokens.sublist (List.sublist_cons_self _ _)
    · intro hzero tokenId hmem
      apply hunissued hzero tokenId (List.mem_cons_of_mem _ hmem)
  · obtain ⟨hnextToken, hrest⟩ := @Switches.eq_of_ne _ _ _ [] _ _ htokens hcurrent
    have hissued : channel.nextSecurityToken.tokenId ≠ 0 := by
      intro hzero
      apply hcurrent
      apply hunissued hzero _ List.mem_cons_self
    refine ⟨_, SecureChannel.checkChunk_next hid hcurrent hnextToken hissued hnext, ?_⟩
    apply follows_revolved hnumbers (hagree hissued) hchannelIds hclient hreplies hrest

/-- The server takes the OPN message of a renewal, issues the next token, and keeps
following. -/
theorem Follows.processOpn {k tokenId lifetime : UInt32} (now : Int)
    (h : Follows channel (.opn k :: pending) n token replies) (hnew : tokenId ≠ 0) :
  Follows { channel with
      nextSecurityToken := { channel.renewedToken tokenId lifetime with createdAt := now }
      receiveSequenceNumber := k }
    pending n token (replies ++ [channel.renewedToken tokenId lifetime])
  := by
  obtain ⟨⟨hnext, hnumbers⟩, hchannelIds, hclient, hreplies, hagree, htokens, hunissued⟩ := h
  obtain rfl : k = channel.receiveSequenceNumber + 1 := hnext
  have hids : tokenIds pending token (replies ++ [channel.renewedToken tokenId lifetime])
      = tokenIds (.opn (channel.receiveSequenceNumber + 1) :: pending) token replies ++
        [(channel.renewedToken tokenId lifetime).tokenId] := by
    simp [tokenIds, List.filterMap_cons, Message.header]
  have hrenewed : (channel.renewedToken tokenId lifetime).channelId
      = channel.securityToken.channelId := by
    rw [SecureChannel.renewedToken]
    split
    · rfl
    · apply hagree ‹_›
  have hnonzero : (channel.renewedToken tokenId lifetime).tokenId ≠ 0 := by
    rw [SecureChannel.renewedToken]
    split
    · apply hnew
    · assumption
  constructor
  · apply hnumbers
  · apply hchannelIds
  · apply hclient
  · intro reply hreply
    rcases List.mem_append.mp hreply with hreply | hreply
    · apply hreplies reply hreply
    · rw [List.mem_singleton.mp hreply]
      apply hrenewed
  · intro _
    apply hrenewed
  · rw [hids]
    by_cases hzero : channel.nextSecurityToken.tokenId = 0
    · use tokenIds (.opn (channel.receiveSequenceNumber + 1) :: pending) token replies,
        [(channel.renewedToken tokenId lifetime).tokenId], rfl, hunissued hzero
      intro y hy
      apply List.mem_singleton.mp hy
    · have hsame : channel.renewedToken tokenId lifetime = channel.nextSecurityToken := by
        rw [SecureChannel.renewedToken, if_neg hzero]
      rw [hsame]
      apply htokens.append
  · intro hzero
    contradiction

/-- The clean-up brings the next token into use, after the client uses it. -/
theorem Follows.cleanup (h : Follows channel pending n token replies)
    (hused : channel.nextSecurityToken.tokenId ≠ 0 →
      (∀ header ∈ pending.filterMap Message.header,
        header.tokenId = channel.nextSecurityToken.tokenId) ∧
      token.tokenId = channel.nextSecurityToken.tokenId) :
  Follows (SecureChannelManager.cleanedUp channel) pending n token replies
  := by
  rw [SecureChannelManager.cleanedUp, SecureChannel.revolveTokens]
  split
  · split
    · apply h
    · rename_i hissued
      obtain ⟨hnumbers, hchannelIds, hclient, hreplies, hagree, htokens, -⟩ := h
      obtain ⟨hpending, htoken⟩ := hused hissued
      have hall : ∀ tokenId ∈ tokenIds pending token replies,
          tokenId = channel.nextSecurityToken.tokenId := by
        intro tokenId hmem
        rcases List.mem_append.mp hmem with hmem | hmem
        · obtain ⟨header, hheader, rfl⟩ := List.mem_map.mp hmem
          apply hpending header hheader
        · rcases List.mem_cons.mp hmem with rfl | hmem
          · apply htoken
          · by_cases heq : token.tokenId = channel.securityToken.tokenId
            · obtain ⟨us, vs, hsplit, ha, hb⟩ := htokens
              have hmem' : tokenId ∈ us ++ vs := by
                rw [← hsplit, tokenIds]
                simp [hmem]
              rcases List.mem_append.mp hmem' with hu | hv
              · rw [ha _ hu, ← heq, htoken]
              · apply hb _ hv
            · apply (Switches.eq_of_ne htokens heq).2 _ hmem
      apply follows_revolved hnumbers (hagree hissued) hchannelIds hclient hreplies hall
  · apply h

end

/-- The oldest message of all is the oldest on its transport. -/
theorem oldest_cons {route : Route} {message : Message} {messages : List (Route × Message)} :
  oldest route 0 ((route, message) :: messages) = some (message, messages)
  := by
  rw [oldest, if_pos ⟨rfl, rfl⟩]

namespace State

/-- The messages not processed yet, in the order in which they were sent. -/
def pending (s : State) : List Message := s.unprocessed.map Prod.snd

/-- The steps that keep the two transports in step: chunks are stored; the server processes a
message only when it is the oldest one on both transports, reads the task, and draws no token `0`;
the clean-up brings a next token into use only when the client and all messages not processed yet
use it. -/
def InStep (s : State) : Action → Prop
  | .queueChunk created => created = true
  | .executeTask read => read = true ∧ s.unprocessed.head?.map Prod.fst = some .queue
  | .processMessage tokenId _ _ =>
    s.unprocessed.head?.map Prod.fst = some .connection ∧ tokenId ≠ 0
  | .cleanup =>
    ∀ channel ∈ s.channel, channel.nextSecurityToken.tokenId ≠ 0 →
      (∀ header ∈ s.pending.filterMap Message.header,
        header.tokenId = channel.nextSecurityToken.tokenId) ∧
      s.securityToken.tokenId = channel.nextSecurityToken.tokenId
  | _ => True

instance (s : State) : (action : Action) → Decidable (s.InStep action)
  | .queueChunk _ => inferInstanceAs (Decidable (_ = _))
  | .executeTask _ => inferInstanceAs (Decidable (_ ∧ _))
  | .processMessage _ _ _ => inferInstanceAs (Decidable (_ ∧ _))
  | .cleanup => inferInstanceAs (Decidable (∀ _ ∈ _, _ → _ ∧ _))
  | .expire | .renew | .receiveReply | .giveUp | .dropReply | .request _ | .sendDirect | .finish
  | .sendClose | .nextBatch => instDecidableTrue

/-- The message processed next, when the server keeps the order. -/
theorem unprocessed_of_head {s : State} {route : Route}
    (h : s.unprocessed.head?.map Prod.fst = some route) :
  ∃ message rest, s.unprocessed = (route, message) :: rest
  := by
  cases hmessages : s.unprocessed with
  | nil =>
      rw [hmessages] at h
      cases h
  | cons head rest =>
      rw [hmessages] at h
      obtain ⟨route', message⟩ := head
      obtain rfl : route' = route := Option.some.inj h
      use message, rest

/-- The invariant of the transports: nothing was refused or skipped, the server follows the client,
and a CLO is the last thing the client sends. -/
structure Synchronous (s : State) : Prop where
  refused : s.refused = []
  skipped : s.skipped = 0
  follows : ∀ channel, s.channel = some channel →
    Follows channel s.pending s.sendSequenceNumber s.securityToken s.replies
  closing : ∀ before chunk after, s.pending = before ++ .clo chunk :: after →
    s.closed = true ∧ after = []
  gone : s.channel = none → s.closed = true ∧ s.pending = []

/-- A message sent is the last one pending. -/
theorem pending_send (s : State) (route : Route) (message : Message) :
  (s.send route message).pending = s.pending ++ [message]
  := by
  simp [pending, send]

/-- A CLO among the messages is the last one, when it was before another was sent. -/
theorem closing_append {messages : List Message} {message : Message}
    (h : ∀ before chunk after, messages ≠ before ++ .clo chunk :: after)
    {before after : List Message} {chunk : ChunkHeader}
    (heq : messages ++ [message] = before ++ .clo chunk :: after) :
  message = .clo chunk ∧ after = []
  := by
  rcases List.append_eq_append_iff.mp heq with ⟨ws, rfl, hws⟩ | ⟨ws, rfl, hws⟩
  · cases ws with
    | nil =>
        obtain ⟨rfl, rfl⟩ : message = .clo chunk ∧ [] = after := by simpa using hws
        use rfl
    | cons w ws => simp at hws
  · cases ws with
    | nil =>
        obtain ⟨rfl, rfl⟩ : .clo chunk = message ∧ after = [] := by simpa using hws
        use rfl
    | cons w ws =>
        obtain ⟨rfl, rfl⟩ := List.cons.inj hws
        cases h before chunk ws rfl

/-- A channel just opened is followed. -/
theorem synchronous_of_opened {s : State} (h : s.Opened) :
  s.Synchronous
  := by
  obtain ⟨channel, hchannel, htoken, hnumber, hnext, -, -, hunprocessed, hskipped, hreplies,
    hrefused⟩ := h
  have hpending : s.pending = [] := by rw [pending, hunprocessed, List.map_nil]
  constructor
  · apply hrefused
  · apply hskipped
  · intro channel' hchannel'
    obtain rfl : channel = channel' := Option.some.inj (hchannel.symm.trans hchannel')
    rw [hpending, htoken, hnumber, hreplies]
    constructor
    · rfl
    · simp
    · rfl
    · simp
    · intro hissued
      contradiction
    · use [channel.securityToken.tokenId], [], rfl
      simp
    · intro _ tokenId hmem
      apply List.mem_singleton.mp hmem
  · intro before chunk after heq
    rw [hpending] at heq
    simp at heq
  · intro hnone
    rw [hchannel] at hnone
    cases hnone

/-- The client, with its channel open, sends a message the server can follow. -/
theorem Synchronous.send {s : State} (hs : s.Synchronous) (hopen : ¬s.closed = true)
    {route : Route} {message : Message}
    (hfollow : ∀ channel, Follows channel s.pending s.sendSequenceNumber s.securityToken
      s.replies → Follows channel (s.pending ++ [message]) (s.sendSequenceNumber + 1)
      s.securityToken s.replies)
    {requestId : UInt32} {phase : Phase} {closed : Bool}
    (hclosed : ∀ chunk, message = .clo chunk → closed = true) :
  Synchronous { s.send route message with
    requestId := requestId, phase := phase, closed := closed }
  := by
  obtain ⟨hrefused, hskipped, hfollows, hclosing, hgone⟩ := hs
  constructor
  · apply hrefused
  · apply hskipped
  · intro channel hchannel
    have hpending := pending_send s route message
    rw [pending] at hpending ⊢
    dsimp only
    rw [hpending]
    apply hfollow channel (hfollows channel hchannel)
  · intro before chunk after heq
    have hpending := pending_send s route message
    rw [pending] at hpending heq
    dsimp only at heq
    rw [hpending] at heq
    have hlast := closing_append
      (fun before chunk after h => hopen (hclosing before chunk after h).1) heq
    use hclosed chunk hlast.1, hlast.2
  · intro hnone
    cases hopen (hgone hnone).1

/-- As long as a message is not processed yet, there is a channel, and it follows the client. -/
theorem Synchronous.channel_of_pending {s : State} (hs : s.Synchronous) {route : Route}
    {message : Message} {rest : List (Route × Message)}
    (h : s.unprocessed = (route, message) :: rest) :
  ∃ channel, s.channel = some channel ∧
    Follows channel (message :: rest.map Prod.snd) s.sendSequenceNumber s.securityToken s.replies
  := by
  have hpending : s.pending = message :: rest.map Prod.snd := by
    rw [pending, h, List.map_cons]
  rw [← hpending]
  cases hchannel : s.channel with
  | none =>
      have hempty := (hs.gone hchannel).2
      rw [hpending] at hempty
      cases hempty
  | some channel => exact ⟨channel, rfl, hs.follows channel hchannel⟩

/-- The message processed next leaves a channel that follows the client. -/
theorem Synchronous.process {s : State} (hs : s.Synchronous) {route : Route}
    {message : Message} {rest : List (Route × Message)}
    (h : s.unprocessed = (route, message) :: rest) {channel : SecureChannel}
    {replies : List ChannelSecurityToken}
    (hfollows : Follows channel (rest.map Prod.snd) s.sendSequenceNumber s.securityToken replies) :
  Synchronous { s with unprocessed := rest, channel := some channel, replies := replies }
  := by
  constructor
  · apply hs.refused
  · apply hs.skipped
  · intro channel' hchannel'
    obtain rfl := Option.some.inj hchannel'
    apply hfollows
  · intro before later after heq
    apply hs.closing (message :: before) later after
    rw [pending, h, List.map_cons, List.cons_append]
    congr 1
  · intro hnone
    cases hnone

/-- The server takes the chunk processed next, and nothing is refused. -/
theorem Synchronous.takeChunk {s : State} (hs : s.Synchronous) {route : Route}
    {chunk : ChunkHeader} {rest : List (Route × Message)}
    (h : s.unprocessed = (route, .msg chunk) :: rest) :
  Synchronous ({ s with unprocessed := rest }.takeChunk chunk)
  := by
  obtain ⟨channel, hchannel, hnext⟩ := hs.channel_of_pending h
  obtain ⟨channel', hcheck, hfollows⟩ := hnext.takeChunk rfl rfl
  simp only [State.takeChunk, hchannel, hcheck, if_true]
  apply hs.process h hfollows

/-- The server takes the CLO chunk processed next, the last message of the client. -/
theorem Synchronous.takeClose {s t : State} (hs : s.Synchronous) {route : Route}
    {chunk : ChunkHeader} {rest : List (Route × Message)}
    (h : s.unprocessed = (route, .clo chunk) :: rest)
    (ht : (match s.channel with
      | none => some { s with unprocessed := rest }
      | some channel =>
        match channel.checkChunk chunk with
        | (retval, channel') => some { s with
            unprocessed := rest
            channel := if retval = .good then none else some channel' }) = some t) :
  t.Synchronous
  := by
  have hpending : s.pending = .clo chunk :: rest.map Prod.snd := by
    rw [pending, h, List.map_cons]
  obtain ⟨hclosed, hrest⟩ := hs.closing [] chunk _ hpending
  obtain ⟨channel, hchannel, hnext⟩ := hs.channel_of_pending h
  obtain ⟨channel', hcheck, -⟩ := hnext.takeChunk rfl rfl
  simp only [hchannel, hcheck, if_true] at ht
  obtain rfl := Option.some.inj ht
  constructor
  · apply hs.refused
  · apply hs.skipped
  · intro channel'' hchannel''
    cases hchannel''
  · intro before later after heq
    rw [pending] at heq
    dsimp only at heq
    rw [hrest] at heq
    simp at heq
  · intro _
    use hclosed
    apply hrest

/-- The server processes the OPN of a renewal. -/
theorem Synchronous.processOpn {s : State} (hs : s.Synchronous) {route : Route}
    {sequenceNumber : UInt32} {rest : List (Route × Message)}
    (h : s.unprocessed = (route, .opn sequenceNumber) :: rest) {tokenId : UInt32}
    (hnew : tokenId ≠ 0) (lifetime : UInt32) (now : Int) :
  Synchronous ({ s with unprocessed := rest }.processOpn sequenceNumber tokenId lifetime now)
  := by
  obtain ⟨channel, hchannel, hnext⟩ := hs.channel_of_pending h
  simp only [State.processOpn, hchannel]
  apply hs.process h
  apply hnext.processOpn now hnew

/-- The client may be anywhere, and replies that do not arrive leave the others in their order. -/
theorem Synchronous.drop {s : State} (hs : s.Synchronous) {token : ChannelSecurityToken}
    {replies : List ChannelSecurityToken}
    (h : (token :: replies).Sublist (s.securityToken :: s.replies)) {requestId : UInt32}
    {due : Bool} {phase : Phase} :
  Synchronous { s with
    securityToken := token, replies := replies, requestId := requestId, due := due, phase := phase }
  := by
  refine ⟨hs.refused, hs.skipped, ?_, hs.closing, hs.gone⟩
  intro channel hchannel
  apply (hs.follows channel hchannel).drop h

/-- Every step that keeps the transports in step keeps the invariant. -/
theorem Synchronous.step {s t : State} (hs : s.Synchronous) {action : Action}
    (hstep : s.InStep action) (h : s.step action = some t) :
  t.Synchronous
  := by
  cases action with
  | expire =>
      obtain rfl := Option.some.inj h
      apply hs.drop (List.Sublist.refl _)
  | renew =>
      simp only [State.step, Option.ite_none_right_eq_some, Option.some.injEq] at h
      obtain ⟨⟨-, -, hopen⟩, rfl⟩ := h
      apply hs.send hopen
      · intro channel hchannel
        apply hchannel.sendOpn
      · intro chunk hclo
        cases hclo
  | receiveReply =>
      simp only [State.step] at h
      split at h
      · rename_i token replies hreplies
        rw [Option.ite_none_right_eq_some] at h
        obtain ⟨-, h⟩ := h
        obtain rfl := Option.some.inj h
        apply hs.drop
        rw [hreplies]
        apply List.sublist_cons_self
      · cases h
  | giveUp =>
      simp only [State.step, Option.ite_none_right_eq_some, Option.some.injEq] at h
      obtain ⟨-, rfl⟩ := h
      apply hs.drop (List.Sublist.refl _)
  | dropReply =>
      simp only [State.step] at h
      split at h
      · rename_i token replies hreplies
        obtain rfl := Option.some.inj h
        apply hs.drop
        rw [hreplies]
        apply (List.sublist_cons_self _ _).cons_cons
      · cases h
  | request route =>
      simp only [State.step, Option.ite_none_right_eq_some, Option.some.injEq] at h
      obtain ⟨-, rfl⟩ := h
      apply hs.drop (List.Sublist.refl _)
  | queueChunk created =>
      obtain rfl : created = true := hstep
      simp only [State.step, if_true, Option.ite_none_right_eq_some, Option.some.injEq] at h
      obtain ⟨⟨-, hopen⟩, rfl⟩ := h
      apply hs.send hopen
      · intro channel hchannel
        apply hchannel.sendChunk rfl rfl
      · intro chunk hclo
        cases hclo
  | sendDirect =>
      simp only [State.step, Option.ite_none_right_eq_some, Option.some.injEq] at h
      obtain ⟨⟨-, hopen⟩, rfl⟩ := h
      apply hs.send hopen
      · intro channel hchannel
        apply hchannel.sendChunk rfl rfl
      · intro chunk hclo
        cases hclo
  | finish =>
      simp only [State.step, Option.ite_none_left_eq_some, Option.some.injEq] at h
      obtain ⟨-, rfl⟩ := h
      apply hs.drop (List.Sublist.refl _)
  | sendClose =>
      simp only [State.step, Option.ite_none_right_eq_some, Option.some.injEq] at h
      obtain ⟨⟨-, hopen⟩, rfl⟩ := h
      apply hs.send hopen
      · intro channel hchannel
        apply hchannel.sendChunk rfl rfl
      · intro chunk _
        rfl
  | nextBatch =>
      obtain rfl := Option.some.inj h
      use hs.refused, rfl, hs.follows, hs.closing, hs.gone
  | executeTask read =>
      obtain ⟨rfl, hhead⟩ := hstep
      obtain ⟨message, rest, hunprocessed⟩ := unprocessed_of_head hhead
      have holdest : oldest .queue s.skipped s.unprocessed = some (message, rest) := by
        rw [hs.skipped, hunprocessed, oldest_cons]
      simp only [State.step, holdest, if_true] at h
      cases message with
      | msg chunk =>
          obtain rfl := Option.some.inj h
          apply hs.takeChunk hunprocessed
      | clo chunk => cases h
      | opn sequenceNumber => cases h
  | processMessage tokenId lifetime now =>
      obtain ⟨hhead, hnew⟩ := hstep
      obtain ⟨message, rest, hunprocessed⟩ := unprocessed_of_head hhead
      simp only [State.step, hunprocessed, oldest_cons] at h
      cases message with
      | msg chunk =>
          obtain rfl := Option.some.inj h
          apply hs.takeChunk hunprocessed
      | clo chunk => apply hs.takeClose hunprocessed h
      | opn sequenceNumber =>
          obtain rfl := Option.some.inj h
          apply hs.processOpn hunprocessed hnew
  | cleanup =>
      simp only [State.step, Option.map_eq_some_iff] at h
      obtain ⟨channel, hchannel, rfl⟩ := h
      refine ⟨hs.refused, hs.skipped, ?_, hs.closing, ?_⟩
      · intro channel' hchannel'
        obtain rfl := Option.some.inj hchannel'
        apply (hs.follows channel hchannel).cleanup
        apply hstep channel hchannel
      · intro hnone
        cases hnone

end State

/-! ### The runs -/

/-- A client that has just opened channel `1` with token `1`, from the number `1` on. -/
def opened : State where
  securityToken := ⟨1, 1, 0, 3600000⟩
  sendSequenceNumber := 1
  requestId := 1
  due := false
  phase := .idle
  closed := false
  unprocessed := []
  skipped := 0
  replies := []
  channel := some { SecureChannel.init with
    securityToken := ⟨1, 1, 0, 3600000⟩
    receiveSequenceNumber := 1 }
  refused := []

theorem opened_opened : opened.Opened
  := by
  refine ⟨_, rfl, rfl, rfl, rfl, rfl, rfl, rfl, rfl, rfl, rfl⟩

/-- The server processes a direct message before the chunk put into the queue earlier. -/
def overtakenByMessage : List Action :=
  [.request .queue, .queueChunk true, .finish, .request .connection, .sendDirect,
    .processMessage 2 3600000 0]

/-- The client puts a chunk into the queue and renews its channel before the server executes
the task. -/
def overtakenByRenewal : List Action :=
  [.request .queue, .queueChunk true, .finish, .expire, .renew, .processMessage 2 3600000 0,
    .receiveReply, .executeTask true]

/-- The reply to a renewal comes late, after the clean-up has brought its token into use, and is
taken for the reply to the next renewal, whose token the clean-up brings into use then. -/
def renewedLate : List Action :=
  [.expire, .renew, .processMessage 2 3600000 0, .giveUp, .cleanup, .renew,
    .processMessage 3 3600000 0, .receiveReply, .cleanup, .request .queue, .queueChunk true,
    .executeTask true]

/-- The first chunk of a request is not stored, the second one is. -/
def notStored : List Action :=
  [.request .queue, .queueChunk false, .queueChunk true, .executeTask true]

/-- The document of the first chunk is not read, that of the second one is. -/
def notRead : List Action :=
  [.request .queue, .queueChunk true, .queueChunk true, .executeTask false, .executeTask true]

/-- From a channel just opened, each of the runs leads to a state in which chunks the client has
sent have not been accepted: the direct message, the chunk in the queue, a chunk under the token the
client has, a chunk that is not stored or not read with the one after it. -/
theorem chunk_refused :
  opened.Opened ∧
    ∀ run ∈ [overtakenByMessage, overtakenByRenewal, renewedLate, notStored, notRead],
      ∃ s, machine.run opened run = some s ∧ ¬s.AllAccepted
  := by
  have hmessage : ∃ s, machine.run opened overtakenByMessage = some s ∧
      s.refused = [⟨1, 1, 3, 3⟩] := ⟨_, rfl, by decide⟩
  have hrenewal : ∃ s, machine.run opened overtakenByRenewal = some s ∧
      s.refused = [⟨1, 1, 2, 2⟩] := ⟨_, rfl, by decide⟩
  have hlate : ∃ s, machine.run opened renewedLate = some s ∧
      s.refused = [⟨1, 2, 4, 4⟩] := ⟨_, rfl, by decide⟩
  have hstored : ∃ s, machine.run opened notStored = some s ∧
      s.refused = [⟨1, 1, 2, 2⟩, ⟨1, 1, 3, 2⟩] := ⟨_, rfl, by decide⟩
  have hread : ∃ s, machine.run opened notRead = some s ∧
      s.refused = [⟨1, 1, 2, 2⟩, ⟨1, 1, 3, 2⟩] := ⟨_, rfl, by decide⟩
  have hrefused : ∀ {run chunk chunks},
      (∃ s, machine.run opened run = some s ∧ s.refused = chunk :: chunks) →
      ∃ s, machine.run opened run = some s ∧ ¬s.AllAccepted := by
    rintro run chunk chunks ⟨s, hrun, hchunk⟩
    use s, hrun
    rw [State.AllAccepted, hchunk]
    simp
  use opened_opened
  simp only [List.forall_mem_cons]
  use hrefused hmessage, hrefused hrenewal, hrefused hlate, hrefused hstored, hrefused hread
  simp

/-- In every run that keeps the transports in step every chunk is stored, and the server accepts
every chunk it comes to. -/
theorem allAccepted_of_inStep {s : State} (h : (machine.restrict State.InStep).Reachable s) :
  s.AllAccepted
  := by
  have hsynchronous : s.Synchronous := by
    apply Machine.Reachable.invariant_of_restrict _ _ h
    · intro s hs
      apply State.synchronous_of_opened hs
    · intro s action t hs hinstep hstep
      apply hs.step hinstep hstep
  apply hsynchronous.refused

/-- A run that uses both transports and renews the channel, with a renewal whose reply is lost
in between. -/
def bothTransports : List Action :=
  [.request .queue, .queueChunk true, .nextBatch, .executeTask true, .finish,
    .request .connection, .sendDirect, .finish, .request .queue, .queueChunk true,
    .processMessage 2 3600000 0, .executeTask true, .finish, .expire, .renew,
    .processMessage 2 3600000 0, .giveUp, .renew, .processMessage 3 3600000 0, .dropReply,
    .receiveReply, .request .queue, .queueChunk true, .cleanup, .executeTask true, .finish,
    .sendClose, .processMessage 4 3600000 0]

theorem allAccepted_of_inStep_bothTransports :
  ∃ s, (machine.restrict State.InStep).run opened bothTransports = some s ∧
    s.channel = none ∧ s.sendSequenceNumber = 8 ∧ s.AllAccepted
  := by
  have hrun : ∃ s, (machine.restrict State.InStep).run opened bothTransports = some s ∧
      s.channel = none ∧ s.sendSequenceNumber = 8 := by
    refine ⟨_, rfl, rfl, rfl⟩
  obtain ⟨s, hs, hchannel, hnumber⟩ := hrun
  have hinit : (machine.restrict State.InStep).Reachable opened :=
    Machine.Reachable.init opened_opened
  use s, hs, hchannel, hnumber
  apply allAccepted_of_inStep (hinit.run hs)

end Transport
