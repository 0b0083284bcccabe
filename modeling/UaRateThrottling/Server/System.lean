import UaRateThrottling.Queue.Loop
import UaRateThrottling.Channel.Manager

/-!
# The server and its clients

One server with its queue and its clients.  The main thread starts up, handles the messages and
losses of the connections, and cleans up channels; the completion thread goes through the tasks
of the queue (`Zuth.Loop`), looks up the channel a task names and hands the task's chunk to it;
clients open channels and create tasks.  The queue survives a restart of the server.

The steps of the two threads interleave in any order, and a lookup and the hand-over after it
are two steps.
-/

namespace Server

open Transition UA Zuth

/-- A task as a client puts it into the queue: the channel named in the document, and the
headers of the chunk.  `client` is the client that created it; the document does not hold it. -/
structure Task where
  client : Nat
  channelId : UInt32
  chunk : ChunkHeader
deriving DecidableEq

/-- A client of the server, by the socket of its connection, with its channel as it knows it
and the numbers it used last. -/
structure Client where
  sockfd : Nat
  securityToken : ChannelSecurityToken
  sendSequenceNumber : UInt32
  requestId : UInt32
deriving DecidableEq

/-- The task of the client's next request. -/
def Client.nextTask (client : Client) : Task where
  client := client.sockfd
  channelId := client.securityToken.channelId
  chunk := {
    secureChannelId := client.securityToken.channelId
    tokenId := client.securityToken.tokenId
    sequenceNumber := client.sendSequenceNumber + 1
    requestId := client.requestId + 1 }

/-- The client after its next request. -/
def Client.advance (client : Client) : Client :=
  { client with
    sendSequenceNumber := client.sendSequenceNumber + 1
    requestId := client.requestId + 1 }

/-- The state of the server, its queue and its clients.  `server` is the global server object,
`none` before `UA_Server_new`; `found` is the channel the lookup for the task in hand has
found. -/
structure State where
  queue : Queue Task
  loop : Loop Task
  booted : Bool
  server : Option SecureChannelManager
  found : Option (Option UInt32)
  clients : List Client

inductive Action where
  /-- A client connects and opens a channel. -/
  | openChannel (conn : Connection) (request : OpenSecureChannelRequest) (now : Int)
  /-- A client renews its channel, and may miss the reply. -/
  | renew (sockfd : Nat) (request : OpenSecureChannelRequest) (now : Int) (received : Bool)
  /-- A client uses up a sequence number for a message sent over its connection. -/
  | send (sockfd : Nat)
  /-- A chunk, of whatever headers, arrives over a connection. -/
  | receive (sockfd : Nat) (chunk : ChunkHeader)
  /-- A session is attached to the channel of a connection, or detached from it. -/
  | attachSession (sockfd session : Nat)
  | detachSession (sockfd session : Nat)
  /-- A CLO message arrives over a connection. -/
  | closeChannel (sockfd : Nat)
  /-- A connection is lost. -/
  | disconnect (sockfd : Nat)
  /-- The server cleans up its channels. -/
  | cleanup (now : Int)
  /-- A client creates a task. -/
  | createTask (sockfd : Nat)
  /-- The main thread issues the first fetch. -/
  | boot
  /-- The main thread creates the server object. -/
  | serverNew (config : ServerConfig)
  /-- The server process ends, and is started again. -/
  | restart
  /-- The completion thread looks up the channel of the task in hand. -/
  | lookup
  /-- ZooKeeper or the completion thread makes a step. -/
  | loop (action : LoopAction)

namespace State

/-- The state with an empty queue and no clients, before the start-up. -/
def initial : State where
  queue := { counter := 0, children := [] }
  loop := .init
  booted := false
  server := none
  found := none
  clients := []

/-- The client with the given socket. -/
def client (s : State) (sockfd : Nat) : Option Client :=
  s.clients.find? (fun client => client.sockfd = sockfd)

/-- The client with the given socket is changed by `f`. -/
def updateClient (s : State) (sockfd : Nat) (f : Client → Client) : State :=
  { s with clients := s.clients.map (fun client =>
      if client.sockfd = sockfd then f client else client) }

/-- The channel of a connection is changed by `f`. -/
def updateChannelOf (s : State) (sockfd : Nat) (f : SecureChannel → SecureChannel) :
    Option State := do
  let cm ← s.server
  guard (cm.channelOf sockfd).isSome
  return { s with server := some (cm.update (SecureChannelManager.attachedTo sockfd) f) }

/-- The hand-over of the chunk of a task to the channel found.  Without a channel the thread
does not survive it. -/
def handOver (s : State) (task : Task) : State :=
  match s.server, s.found with
  | some cm, some (some channelId) =>
    { s with
      server := some (cm.update (SecureChannelManager.hasId channelId)
        (fun channel => (channel.checkChunk task.chunk).2))
      found := none }
  | _, _ => { s with loop := { s.loop with phase := .crashed }, found := none }

/-- A step of the completion thread or of ZooKeeper.  A task is handed over after its channel
was looked up. -/
def loopStep (s : State) (action : LoopAction) : Option State := do
  let loop ← s.loop.step some s.queue action
  let s' : State := { s with
    queue := (s.loop.deleted action).elim s.queue s.queue.delete
    loop := if (s.loop.deleted action).isSome then loop.notify else loop }
  match action, s.loop.phase with
  | .handOver, .loaded _ task _ => if s.found.isSome then some (s'.handOver task) else none
  | _, _ => some s'

/-- The step an action makes. -/
def step (s : State) : Action → Option State
  | .openChannel conn request now => do
    let cm ← s.server
    guard ((s.client conn.sockfd).isNone)
    match cm.openChannel conn request now with
    | ((_, some token), cm') =>
      some { s with
        -- the OPN request carries the sequence number 1
        server := some (cm'.update (SecureChannelManager.attachedTo conn.sockfd)
          (fun channel => { channel with receiveSequenceNumber := 1, sendSequenceNumber := 1 }))
        clients := s.clients ++ [{
          sockfd := conn.sockfd, securityToken := token,
          sendSequenceNumber := 1, requestId := 1 }] }
    | ((_, none), cm') => some { s with server := some cm' }
  | .renew sockfd request now received => do
    let cm ← s.server
    let client ← s.client sockfd
    let (token, cm') ← cm.renew sockfd request now
    return { s with
      server := some (cm'.update (SecureChannelManager.attachedTo sockfd) (fun channel =>
        { channel with
          receiveSequenceNumber := client.sendSequenceNumber + 1
          sendSequenceNumber := channel.sendSequenceNumber + 1 })) }.updateClient sockfd
        (fun client =>
          if received then { client.advance with securityToken := token } else client.advance)
  | .send sockfd => some (s.updateClient sockfd Client.advance)
  | .receive sockfd chunk =>
    s.updateChannelOf sockfd (fun channel => (channel.checkChunk chunk).2)
  | .attachSession sockfd session =>
    s.updateChannelOf sockfd (fun channel =>
      { channel with sessions := session :: channel.sessions })
  | .detachSession sockfd session =>
    s.updateChannelOf sockfd (fun channel =>
      { channel with sessions := channel.sessions.erase session })
  | .closeChannel sockfd => do
    let cm ← s.server
    let channel ← cm.channelOf sockfd
    return { s with server := some (cm.close channel.securityToken.channelId).2 }
  | .disconnect sockfd => do
    let cm ← s.server
    return { s with server := some (cm.detachConnection sockfd) }
  | .cleanup now => do
    let cm ← s.server
    return { s with server := some (cm.cleanupTimedOut now) }
  | .createTask sockfd => do
    let client ← s.client sockfd
    guard (s.queue.counter < counterLimit)
    return { s with
      queue := s.queue.create client.nextTask
      loop := s.loop.notify }.updateClient sockfd Client.advance
  | .boot => if s.booted then none else some { s with loop := s.loop.fetch, booted := true }
  | .serverNew config =>
    if s.booted ∧ s.server.isNone then
      some { s with server := some (SecureChannelManager.init config) }
    else none
  | .restart => some { s with loop := .init, booted := false, server := none, found := none }
  | .lookup =>
    match s.loop.phase, s.found with
    | .loaded _ task _, none =>
      some { s with
        found := some ((s.server.bind (fun cm => cm.get task.channelId)).map
          (fun channel => channel.securityToken.channelId)) }
    | _, _ => none
  | .loop action => s.loopStep action

/-- The task in hand, once its channel is looked up: what is handed over next. -/
def toHandOver (s : State) : Option Task :=
  match s.loop.phase, s.found with
  | .loaded _ task _, some _ => some task
  | _, _ => none

end State

/-- The server and its clients, which start with an empty queue. -/
def machine : Machine State Action where
  Init s := s = .initial
  step := State.step

/-! ### What a step can do -/

namespace State

open SecureChannelManager (attachedTo hasId)

/-- What an action of a client or of the main thread does to the channels of the server. -/
inductive ChannelsStep (cm : SecureChannelManager) : Action → SecureChannelManager → Prop
  | opened {conn : Connection} {request : OpenSecureChannelRequest} {now : Int}
      {retval : StatusCode} {token : ChannelSecurityToken} {cm' : SecureChannelManager}
      (h : cm.openChannel conn request now = ((retval, some token), cm')) :
    ChannelsStep cm (.openChannel conn request now) (cm'.update (attachedTo conn.sockfd)
      (fun channel => { channel with receiveSequenceNumber := 1, sendSequenceNumber := 1 }))
  | refused {conn : Connection} {request : OpenSecureChannelRequest} {now : Int}
      {retval : StatusCode} {cm' : SecureChannelManager}
      (h : cm.openChannel conn request now = ((retval, none), cm')) :
    ChannelsStep cm (.openChannel conn request now) cm'
  | renewed {sockfd : Nat} {request : OpenSecureChannelRequest} {now : Int}
      {received : Bool} {token : ChannelSecurityToken} {cm' : SecureChannelManager} (n : UInt32)
      (h : cm.renew sockfd request now = some (token, cm')) :
    ChannelsStep cm (.renew sockfd request now received) (cm'.update (attachedTo sockfd)
      (fun channel => { channel with
        receiveSequenceNumber := n
        sendSequenceNumber := channel.sendSequenceNumber + 1 }))
  | received (sockfd : Nat) (chunk : ChunkHeader) :
    ChannelsStep cm (.receive sockfd chunk)
      (cm.update (attachedTo sockfd) (fun channel => (channel.checkChunk chunk).2))
  | attached (sockfd session : Nat) :
    ChannelsStep cm (.attachSession sockfd session)
      (cm.update (attachedTo sockfd) (fun channel =>
        { channel with sessions := session :: channel.sessions }))
  | detached (sockfd session : Nat) :
    ChannelsStep cm (.detachSession sockfd session)
      (cm.update (attachedTo sockfd) (fun channel =>
        { channel with sessions := channel.sessions.erase session }))
  | closed {sockfd : Nat} {channel : SecureChannel} (h : cm.channelOf sockfd = some channel) :
    ChannelsStep cm (.closeChannel sockfd) (cm.close channel.securityToken.channelId).2
  | disconnected (sockfd : Nat) :
    ChannelsStep cm (.disconnect sockfd) (cm.detachConnection sockfd)
  | cleanedUp (now : Int) :
    ChannelsStep cm (.cleanup now) (cm.cleanupTimedOut now)

/-- What an action does to the state. -/
inductive StepCases (s : State) : Action → State → Prop
  | channels {action : Action} {cm cm' : SecureChannelManager} (clients : List Client)
      (hserver : s.server = some cm) (h : ChannelsStep cm action cm') :
    StepCases s action { s with server := some cm', clients := clients }
  | send (sockfd : Nat) : StepCases s (.send sockfd) (s.updateClient sockfd Client.advance)
  | createTask {sockfd : Nat} {client : Client} (h : s.client sockfd = some client) :
    StepCases s (.createTask sockfd) ({ s with
      queue := s.queue.create client.nextTask
      loop := s.loop.notify }.updateClient sockfd Client.advance)
  | boot (h : s.booted = false) : StepCases s .boot { s with loop := s.loop.fetch, booted := true }
  | serverNew (config : ServerConfig) (hbooted : s.booted = true) (hserver : s.server = none) :
    StepCases s (.serverNew config) { s with server := some (SecureChannelManager.init config) }
  | restart :
    StepCases s .restart { s with loop := .init, booted := false, server := none, found := none }
  | lookup {name : Name} {task : Task} {rest : List Name}
      (hphase : s.loop.phase = .loaded name task rest) (hfound : s.found = none) :
    StepCases s .lookup { s with
      found := some ((s.server.bind (fun cm => cm.get task.channelId)).map
        (fun channel => channel.securityToken.channelId)) }
  | handOver {loop : Loop Task} {name : Name} {task : Task} {rest : List Name}
      (hloop : s.loop.step some s.queue .handOver = some loop)
      (htask : s.toHandOver = some task) (hphase : loop.phase = .executed name rest) :
    StepCases s (.loop .handOver) ({ s with loop := loop }.handOver task)
  | session {action : LoopAction} {loop : Loop Task} (haction : action ≠ .handOver)
      (hloop : s.loop.step some s.queue action = some loop) :
    StepCases s (.loop action) { s with
      queue := (s.loop.deleted action).elim s.queue s.queue.delete
      loop := if (s.loop.deleted action).isSome then loop.notify else loop }

/-- A step of the session is one of the two listed. -/
theorem stepCases_of_loopStep {s t : State} {action : LoopAction}
    (h : s.loopStep action = some t) :
  StepCases s (.loop action) t
  := by
  simp only [loopStep, Option.bind_eq_bind, Option.bind_eq_some_iff] at h
  obtain ⟨loop, hloop, h⟩ := h
  split at h
  · rename_i name task rest hphase
    rw [Option.ite_none_right_eq_some] at h
    obtain ⟨hfound, ht⟩ := h
    obtain rfl := Option.some.inj ht
    obtain ⟨channel, hchannel⟩ := Option.isSome_iff_exists.mp hfound
    have hexecuted : loop.phase = .executed name rest := by
      simp only [Loop.step, hphase, Option.some.injEq] at hloop
      obtain rfl := hloop
      rfl
    apply StepCases.handOver hloop _ hexecuted
    rw [toHandOver, hphase, hchannel]
  · rename_i hnot
    obtain rfl := Option.some.inj h
    apply StepCases.session _ hloop
    rintro rfl
    simp only [Loop.step] at hloop
    split at hloop
    · rename_i name task rest hphase
      apply hnot name task rest rfl hphase
    · cases hloop

/-- Every step is one of those listed. -/
theorem stepCases_of_step {s t : State} {action : Action} (h : s.step action = some t) :
  StepCases s action t
  := by
  cases action with
  | openChannel conn request now =>
      simp only [step, Option.bind_eq_bind, Option.bind_eq_some_iff] at h
      obtain ⟨cm, hserver, _, -, h⟩ := h
      split at h
      · rename_i hopen
        obtain rfl := Option.some.inj h
        apply StepCases.channels _ hserver (ChannelsStep.opened hopen)
      · rename_i hopen
        obtain rfl := Option.some.inj h
        apply StepCases.channels _ hserver (ChannelsStep.refused hopen)
  | renew sockfd request now received =>
      simp only [step, Option.bind_eq_bind, Option.bind_eq_some_iff] at h
      obtain ⟨cm, hserver, client, -, ⟨token, cm'⟩, hrenew, h⟩ := h
      obtain rfl := Option.some.inj h
      apply StepCases.channels _ hserver (ChannelsStep.renewed _ hrenew)
  | send sockfd =>
      obtain rfl := Option.some.inj h
      apply StepCases.send
  | receive sockfd chunk =>
      simp only [step, updateChannelOf, Option.bind_eq_bind, Option.bind_eq_some_iff] at h
      obtain ⟨cm, hserver, _, -, h⟩ := h
      obtain rfl := Option.some.inj h
      apply StepCases.channels _ hserver (ChannelsStep.received sockfd chunk)
  | attachSession sockfd session =>
      simp only [step, updateChannelOf, Option.bind_eq_bind, Option.bind_eq_some_iff] at h
      obtain ⟨cm, hserver, _, -, h⟩ := h
      obtain rfl := Option.some.inj h
      apply StepCases.channels _ hserver (ChannelsStep.attached sockfd session)
  | detachSession sockfd session =>
      simp only [step, updateChannelOf, Option.bind_eq_bind, Option.bind_eq_some_iff] at h
      obtain ⟨cm, hserver, _, -, h⟩ := h
      obtain rfl := Option.some.inj h
      apply StepCases.channels _ hserver (ChannelsStep.detached sockfd session)
  | closeChannel sockfd =>
      simp only [step, Option.bind_eq_bind, Option.bind_eq_some_iff] at h
      obtain ⟨cm, hserver, channel, hchannel, h⟩ := h
      obtain rfl := Option.some.inj h
      apply StepCases.channels _ hserver (ChannelsStep.closed hchannel)
  | disconnect sockfd =>
      simp only [step, Option.bind_eq_bind, Option.bind_eq_some_iff] at h
      obtain ⟨cm, hserver, h⟩ := h
      obtain rfl := Option.some.inj h
      apply StepCases.channels _ hserver (ChannelsStep.disconnected sockfd)
  | cleanup now =>
      simp only [step, Option.bind_eq_bind, Option.bind_eq_some_iff] at h
      obtain ⟨cm, hserver, h⟩ := h
      obtain rfl := Option.some.inj h
      apply StepCases.channels _ hserver (ChannelsStep.cleanedUp now)
  | createTask sockfd =>
      simp only [step, Option.bind_eq_bind, Option.bind_eq_some_iff] at h
      obtain ⟨client, hclient, _, -, h⟩ := h
      obtain rfl := Option.some.inj h
      apply StepCases.createTask hclient
  | boot =>
      simp only [step, Option.ite_none_left_eq_some, Option.some.injEq] at h
      obtain ⟨hb, rfl⟩ := h
      apply StepCases.boot (by simpa using hb)
  | serverNew config =>
      simp only [step, Option.ite_none_right_eq_some, Option.some.injEq] at h
      obtain ⟨⟨hbooted, hnone⟩, rfl⟩ := h
      apply StepCases.serverNew config hbooted (by simpa using hnone)
  | restart =>
      obtain rfl := Option.some.inj h
      apply StepCases.restart
  | lookup =>
      simp only [step] at h
      split at h
      · rename_i hphase hnone
        obtain rfl := Option.some.inj h
        apply StepCases.lookup hphase hnone
      · cases h
  | loop action => apply stepCases_of_loopStep h

end State

/-! ### What holds in every run -/

namespace State

/-- What the state keeps in every run: nothing happens before the first fetch, the task in hand
is in the queue, and the next tokens belong to their channels. -/
structure Sound (s : State) : Prop where
  idle : s.booted = false → s.loop = .init
  hand : ∀ name task rest, s.loop.phase = .loaded name task rest →
    ∃ child ∈ s.queue.children, child.2 = task
  agree : ∀ cm, s.server = some cm → cm.TokensAgree

/-- The loop takes its steps after the start only. -/
theorem Sound.booted_of_loopStep {s : State} (hs : s.Sound) {action : LoopAction}
    {loop : Loop Task} (h : s.loop.step some s.queue action = some loop) :
  s.booted = true
  := by
  by_contra hb
  rw [hs.idle (by simpa using hb), Loop.init_step] at h
  cases h

/-- A task is in hand after the start only. -/
theorem Sound.booted_of_loaded {s : State} (hs : s.Sound) {name : Name} {task : Task}
    {rest : List Name} (h : s.loop.phase = .loaded name task rest) :
  s.booted = true
  := by
  by_contra hb
  rw [hs.idle (by simpa using hb)] at h
  cases h

/-- The task to be handed over is in the queue. -/
theorem Sound.of_toHandOver {s : State} (hs : s.Sound) {task : Task}
    (h : s.toHandOver = some task) :
  s.booted = true ∧ ∃ child ∈ s.queue.children, child.2 = task
  := by
  rw [toHandOver] at h
  split at h
  · rename_i hphase _
    obtain rfl := Option.some.inj h
    constructor
    · apply hs.booted_of_loaded hphase
    · apply hs.hand _ _ _ hphase
  · cases h

/-- The children that a step of the session leaves are children of the queue before. -/
theorem children_elim_delete_sublist (queue : Queue Task) (deleted : Option Name) :
  (deleted.elim queue queue.delete).children.Sublist queue.children
  := by
  cases deleted with
  | none => apply List.Sublist.refl
  | some name => apply List.eraseP_sublist

/-- The data read under a name is that of a child. -/
theorem mem_of_get {queue : Queue Task} {name : Name} {task : Task}
    (h : queue.get name = some task) :
  ∃ child ∈ queue.children, child.2 = task
  := by
  obtain ⟨child, hchild, rfl⟩ := Option.map_eq_some_iff.mp h
  use child, List.mem_of_find?_eq_some hchild

/-- What leaves a channel the same keeps its id and connection. -/
theorem keepsChannel_of_sameChannel {channel channel' : SecureChannel}
    (h : SecureChannel.SameChannel channel channel') :
  SecureChannelManager.KeepsChannel channel channel'
  := ⟨h.channelId, h.connection, fun _ => h.agree⟩

/-- The check of a chunk keeps a channel of the manager. -/
theorem keepsChannel_checkChunk {cm : SecureChannelManager} (hagree : cm.TokensAgree)
    {channel : SecureChannel} (h : channel ∈ cm.channels) (chunk : ChunkHeader) :
  SecureChannelManager.KeepsChannel channel (channel.checkChunk chunk).2
  := keepsChannel_of_sameChannel (SecureChannel.sameChannel_checkChunk (hagree channel h) chunk)

/-- After every action on the channels the next tokens belong to their channels. -/
theorem ChannelsStep.agree {cm cm' : SecureChannelManager} {action : Action}
    (h : ChannelsStep cm action cm') (hagree : cm.TokensAgree) :
  cm'.TokensAgree
  := by
  cases h with
  | @opened conn request now retval token cm' hopen =>
      apply SecureChannelManager.tokensAgree_update
      · intro channel _ _
        exact ⟨rfl, rfl, id⟩
      · have hopened := SecureChannelManager.tokensAgree_openChannel conn request now hagree
        rw [hopen] at hopened
        apply hopened
  | @refused conn request now retval cm' hopen =>
      have hopened := SecureChannelManager.tokensAgree_openChannel conn request now hagree
      rw [hopen] at hopened
      apply hopened
  | renewed n hrenew =>
      apply SecureChannelManager.tokensAgree_update
      · intro channel _ _
        exact ⟨rfl, rfl, id⟩
      · apply SecureChannelManager.tokensAgree_renew hrenew hagree
  | received sockfd chunk =>
      apply SecureChannelManager.tokensAgree_update _ hagree
      intro channel hchannel _
      apply keepsChannel_checkChunk hagree hchannel
  | attached sockfd session | detached sockfd session =>
      apply SecureChannelManager.tokensAgree_update _ hagree
      intro channel _ _
      exact ⟨rfl, rfl, id⟩
  | closed hchannel => apply SecureChannelManager.tokensAgree_close hagree
  | disconnected sockfd => apply SecureChannelManager.tokensAgree_detachConnection hagree
  | cleanedUp now => apply SecureChannelManager.tokensAgree_cleanupTimedOut hagree

/-- The hand-over of the task in hand keeps the state sound. -/
theorem Sound.handOver {s : State} (hs : s.Sound) (hbooted : s.booted = true) {loop : Loop Task}
    {name : Name} {rest : List Name} (hphase : loop.phase = .executed name rest) (task : Task) :
  ({ s with loop := loop }.handOver task).Sound
  := by
  simp only [State.handOver]
  split
  · rename_i cm channelId hserver hfound
    constructor
    · intro hb
      simp [hbooted] at hb
    · intro name task rest hloaded
      simp only [hphase] at hloaded
      cases hloaded
    · intro cm' hcm
      obtain rfl := Option.some.inj hcm
      apply SecureChannelManager.tokensAgree_update _ (hs.agree cm hserver)
      intro channel hchannel _
      apply keepsChannel_checkChunk (hs.agree cm hserver) hchannel
  · constructor
    · intro hb
      simp [hbooted] at hb
    · intro name task rest hloaded
      cases hloaded
    · apply hs.agree

/-- No task is deleted by the step that takes one in hand, nor while one is in hand. -/
theorem deleted_eq_none_of_loaded {queue : Queue Task} {l loop : Loop Task} {action : LoopAction}
    (hloop : l.step some queue action = some loop) {name : Name} {task : Task} {rest : List Name}
    (hloaded : loop.phase = .loaded name task rest) :
  l.deleted action = none
  := by
  cases hdeleted : l.deleted action with
  | none => rfl
  | some name =>
      obtain ⟨rfl, rest, hexecuted⟩ := Loop.deleted_eq_some hdeleted
      rcases Loop.loaded_of_step hloop hloaded with ⟨hphase, -⟩ | ⟨-, hget⟩
      · rw [hexecuted] at hphase
        cases hphase
      · cases hget

/-- A step of the session that is no hand-over keeps the state sound. -/
theorem Sound.session {s : State} (hs : s.Sound) {action : LoopAction} {loop : Loop Task}
    (hloop : s.loop.step some s.queue action = some loop) :
  Sound { s with
    queue := (s.loop.deleted action).elim s.queue s.queue.delete
    loop := if (s.loop.deleted action).isSome then loop.notify else loop }
  := by
  have hbooted := hs.booted_of_loopStep hloop
  constructor
  · intro hb
    simp [hbooted] at hb
  · intro name task rest hloaded
    have hloaded' : loop.phase = .loaded name task rest := by
      rw [← hloaded]
      dsimp only
      split
      · rw [Loop.notify_phase]
      · rfl
    rw [deleted_eq_none_of_loaded hloop hloaded']
    rcases Loop.loaded_of_step hloop hloaded' with ⟨hphase, -⟩ | ⟨hget, -⟩
    · apply hs.hand _ _ _ hphase
    · rw [Option.bind_fun_some] at hget
      apply mem_of_get hget
  · apply hs.agree

/-- Every step keeps the state sound. -/
theorem Sound.step {s t : State} (hs : s.Sound) {action : Action} (h : s.step action = some t) :
  t.Sound
  := by
  have ⟨hidle, hhand, hagree⟩ := hs
  cases stepCases_of_step h with
  | channels clients hserver hchannels =>
      use hidle, hhand
      intro cm hcm
      obtain rfl := Option.some.inj hcm
      apply hchannels.agree (hagree _ hserver)
  | send sockfd => use hidle, hhand, hagree
  | createTask hclient =>
      constructor
      · intro hb
        simp only [updateClient, hidle hb]
        rfl
      · intro name task rest hphase
        simp only [updateClient, Loop.notify_phase] at hphase
        obtain ⟨child, hchild, htask⟩ := hhand _ _ _ hphase
        use child, List.mem_append_left _ hchild
      · apply hagree
  | boot hb =>
      constructor
      · intro hb
        cases hb
      · apply hhand
      · apply hagree
  | serverNew config hbooted hserver =>
      use hidle, hhand
      intro cm hcm
      obtain rfl := Option.some.inj hcm
      intro channel hchannel
      cases hchannel
  | restart =>
      constructor
      · intro _
        rfl
      · intro name task rest hphase
        cases hphase
      · intro cm hcm
        cases hcm
  | lookup hphase hfound => use hidle, hhand, hagree
  | handOver hloop htask hphase => apply hs.handOver (hs.booted_of_loopStep hloop) hphase
  | session haction hloop => apply hs.session hloop

/-- Every reachable state is sound. -/
theorem sound_of_reachable {s : State} (h : machine.Reachable s) :
  s.Sound
  := by
  apply Machine.Reachable.invariant _ _ h
  · rintro s rfl
    constructor <;> simp [initial, Loop.init]
  · intro s action t _ hs hstep
    apply hs.step hstep

end State

end Server
