import UaRateThrottling.Server.System

/-!
# Whose task is executed

A task names its channel by a number, and its chunk carries a token and a sequence number.  A
server that starts again draws all three from the start, so that a task left in the queue by a
client of the previous run may be accepted on the channel of another client.

It is not in the runs in which no channel id and token is issued to a client while a task of
another client carries them, and no client creates a task with the channel id and token of
another client's channel.
-/

namespace Server

open Transition UA Zuth
open SecureChannelManager (attachedTo)

/-- The chunk is addressed to the channel, under one of its tokens. -/
def Takes (channel : SecureChannel) (chunk : ChunkHeader) : Prop :=
  chunk.secureChannelId = channel.securityToken.channelId ∧ channel.HasToken chunk.tokenId

instance (channel : SecureChannel) (chunk : ChunkHeader) : Decidable (Takes channel chunk) :=
  inferInstanceAs (Decidable (_ ∧ _))

namespace State

/-- A task accepted on the channel it is handed to was created by the client that opened the
channel. -/
def OwnTask (s : State) : Prop :=
  ∀ task cm channelId channel, s.toHandOver = some task → s.server = some cm →
    s.found = some (some channelId) → cm.get channelId = some channel →
    (channel.checkChunk task.chunk).1 = .good → task.client = channel.openedBy

/-- The steps that keep the tasks of a client apart from the channels of the others: a channel
id and a token are issued to a client only when no task of another client in the queue carries
them; a client creates a task only when its channel id and token, which is not `0`, are not
those of another client's channel. -/
def TokensApart (s : State) : Action → Prop
  | .openChannel conn _ _ =>
    ∀ cm ∈ s.server, ∀ child ∈ s.queue.children,
      child.2.chunk.secureChannelId = cm.lastChannelId →
        child.2.chunk.tokenId = cm.lastTokenId → child.2.client = conn.sockfd
  | .renew sockfd _ _ _ =>
    ∀ cm ∈ s.server, ∀ channel ∈ cm.channelOf sockfd,
      channel.nextSecurityToken.tokenId = 0 → ∀ child ∈ s.queue.children,
        child.2.chunk.secureChannelId = channel.securityToken.channelId →
          child.2.chunk.tokenId = cm.lastTokenId → child.2.client = channel.openedBy
  | .createTask sockfd =>
    ∀ client ∈ s.client sockfd, client.securityToken.tokenId ≠ 0 ∧
      ∀ cm ∈ s.server, ∀ channel ∈ cm.channels, Takes channel client.nextTask.chunk →
        client.sockfd = channel.openedBy
  | _ => True

instance (s : State) : (action : Action) → Decidable (s.TokensApart action)
  | .openChannel _ _ _ => inferInstanceAs (Decidable (∀ _ ∈ _, ∀ _ ∈ _, _ → _ → _))
  | .renew _ _ _ _ => inferInstanceAs (Decidable (∀ _ ∈ _, ∀ _ ∈ _, _ → ∀ _ ∈ _, _ → _ → _))
  | .createTask _ => inferInstanceAs (Decidable (∀ _ ∈ _, _ ∧ ∀ _ ∈ _, ∀ _ ∈ _, _ → _))
  | .send _ | .receive _ _ | .attachSession _ _ | .detachSession _ _ | .closeChannel _
  | .disconnect _ | .cleanup _ | .boot | .serverNew _ | .restart | .lookup | .loop _ =>
    instDecidableTrue

/-- The tasks that a channel takes are those of the client that opened it. -/
def Owned (channels : List SecureChannel) (tasks : List (Name × Task)) : Prop :=
  ∀ channel ∈ channels, ∀ child ∈ tasks, Takes channel child.2.chunk →
    child.2.client = channel.openedBy

/-- The invariant of the ownership: no task carries the token `0`, and the tasks a channel takes
are those of its client. -/
structure TasksOwned (s : State) : Prop where
  nonzero : ∀ child ∈ s.queue.children, child.2.chunk.tokenId ≠ 0
  owned : ∀ cm, s.server = some cm → Owned cm.channels s.queue.children

/-- With the invariant every task accepted is one of the channel's client. -/
theorem TasksOwned.ownTask {s : State} (hs : s.TasksOwned) (hsound : s.Sound) :
  s.OwnTask
  := by
  intro task cm channelId channel htask hserver _ hget hgood
  obtain ⟨-, child, hchild, rfl⟩ := hsound.of_toHandOver htask
  apply hs.owned cm hserver channel (SecureChannelManager.of_get hget).1 child hchild
  apply SecureChannel.of_checkChunk_good hgood

section

variable {channels channels' : List SecureChannel} {tasks : List (Name × Task)}

/-- Fewer channels take fewer tasks. -/
theorem Owned.sublist (h : Owned channels tasks) (hsub : channels'.Sublist channels) :
  Owned channels' tasks
  := by
  intro channel hchannel
  apply h channel (hsub.subset hchannel)

/-- A channel that is left the same takes no task it did not take before. -/
theorem owned_of_sameChannel {channel channel' : SecureChannel}
    (hsame : SecureChannel.SameChannel channel channel') {child : Name × Task}
    (hnonzero : child.2.chunk.tokenId ≠ 0)
    (h : Takes channel child.2.chunk → child.2.client = channel.openedBy)
    (htakes : Takes channel' child.2.chunk) :
  child.2.client = channel'.openedBy
  := by
  obtain ⟨hid, htoken⟩ := htakes
  rw [hsame.openedBy]
  apply h
  rw [hsame.channelId] at hid
  rcases hsame.hasToken _ htoken with htoken | hzero
  · use hid, htoken
  · contradiction

/-- A change of one channel that leaves it the same keeps the ownership. -/
theorem Owned.update {cm : SecureChannelManager} (h : Owned cm.channels tasks)
    (hnonzero : ∀ child ∈ tasks, child.2.chunk.tokenId ≠ 0) {p : SecureChannel → Bool}
    {f : SecureChannel → SecureChannel}
    (hf : ∀ channel ∈ cm.channels, SecureChannel.SameChannel channel (f channel)) :
  Owned (cm.update p f).channels tasks
  := by
  intro channel hchannel child hchild
  rcases SecureChannelManager.mem_update hchannel with hold | ⟨old, hold, -, rfl⟩
  · apply h channel hold child hchild
  · apply owned_of_sameChannel (hf old hold) (hnonzero child hchild) (h old hold child hchild)

/-- A change of all channels that leaves each the same keeps the ownership. -/
theorem Owned.map (h : Owned channels tasks)
    (hnonzero : ∀ child ∈ tasks, child.2.chunk.tokenId ≠ 0)
    {f : SecureChannel → SecureChannel}
    (hf : ∀ channel ∈ channels, SecureChannel.SameChannel channel (f channel)) :
  Owned (channels.map f) tasks
  := by
  intro channel hchannel child hchild
  obtain ⟨old, hold, rfl⟩ := List.mem_map.mp hchannel
  apply owned_of_sameChannel (hf old hold) (hnonzero child hchild) (h old hold child hchild)

end

/-- Other sequence numbers and sessions leave a channel the same. -/
theorem sameChannel_numbers {channel : SecureChannel} (h : channel.TokensAgree) (m n : UInt32)
    (sessions : List Nat) :
  SecureChannel.SameChannel channel { channel with
    receiveSequenceNumber := m, sendSequenceNumber := n, sessions := sessions }
  := ⟨rfl, rfl, rfl, h, fun _ htoken => Or.inl htoken⟩

/-- Opening a channel keeps the ownership, when the tasks under its id and token are those of
the client that opens it. -/
theorem owned_openChannel {cm : SecureChannelManager} {conn : Connection}
    {request : OpenSecureChannelRequest} {now : Int} {tasks : List (Name × Task)}
    (h : Owned cm.channels tasks) (hnonzero : ∀ child ∈ tasks, child.2.chunk.tokenId ≠ 0)
    (hapart : ∀ child ∈ tasks, child.2.chunk.secureChannelId = cm.lastChannelId →
      child.2.chunk.tokenId = cm.lastTokenId → child.2.client = conn.sockfd) :
  Owned (cm.openChannel conn request now).2.channels tasks
  := by
  rcases SecureChannelManager.openChannel_cases cm conn request now
    with ⟨retval, hopen⟩ | ⟨cm', hroom, hopen⟩
  · rw [hopen]
    apply h
  · rw [hopen]
    obtain ⟨hid, htoken, hsub, -⟩ := SecureChannelManager.of_makeRoom hroom
    intro channel hchannel child hchild htakes
    rcases List.mem_cons.mp hchannel with rfl | hchannel
    · obtain ⟨hchunk, hnew | hzero⟩ := htakes
      · apply hapart child hchild
        · rw [hchunk, ← hid]
          rfl
        · rw [hnew, ← htoken]
          rfl
      · cases hnonzero child hchild hzero
    · apply h channel (hsub.subset hchannel) child hchild htakes

/-- Renewing a channel keeps the ownership, when the tasks under its id and a newly drawn token
are those of its client. -/
theorem owned_renew {cm cm' : SecureChannelManager} {sockfd : Nat} {now : Int}
    {request : OpenSecureChannelRequest} {token : ChannelSecurityToken}
    {tasks : List (Name × Task)} (h : Owned cm.channels tasks)
    (hrenew : cm.renew sockfd request now = some (token, cm'))
    (hapart : ∀ channel ∈ cm.channelOf sockfd, channel.nextSecurityToken.tokenId = 0 →
      ∀ child ∈ tasks, child.2.chunk.secureChannelId = channel.securityToken.channelId →
        child.2.chunk.tokenId = cm.lastTokenId → child.2.client = channel.openedBy) :
  Owned cm'.channels tasks
  := by
  obtain ⟨_, -, heq⟩ := Option.map_eq_some_iff.mp hrenew
  obtain ⟨-, rfl⟩ := Prod.mk.inj heq
  intro channel hchannel child hchild htakes
  rcases SecureChannelManager.mem_update hchannel with hold | ⟨old, hold, hfind, rfl⟩
  · apply h channel hold child hchild htakes
  · obtain ⟨hid, hcurrent | hnext⟩ := htakes
    · apply h old hold child hchild ⟨hid, Or.inl hcurrent⟩
    · by_cases hzero : old.nextSecurityToken.tokenId = 0
      · apply hapart old hfind hzero child hchild hid
        simpa [SecureChannelManager.renewedToken, SecureChannel.renewedToken, hzero] using hnext
      · apply h old hold child hchild ⟨hid, Or.inr _⟩
        simpa [SecureChannelManager.renewedToken, SecureChannel.renewedToken, hzero] using hnext

/-- An action on the channels that keeps the tasks apart keeps the ownership. -/
theorem ChannelsStep.owned {s : State} {cm cm' : SecureChannelManager} {action : Action}
    (h : ChannelsStep cm action cm') (hserver : s.server = some cm)
    (hapart : s.TokensApart action) (hagree : cm.TokensAgree) (hs : s.TasksOwned) :
  Owned cm'.channels s.queue.children
  := by
  have howned := hs.owned cm hserver
  have hopened : ∀ conn request now, action = .openChannel conn request now →
      Owned (cm.openChannel conn request now).2.channels s.queue.children := by
    rintro conn request now rfl
    apply owned_openChannel howned hs.nonzero (hapart cm hserver)
  cases h with
  | @opened conn request now retval token cm' hopen =>
      have howned' := hopened _ _ _ rfl
      have hagree' := SecureChannelManager.tokensAgree_openChannel conn request now hagree
      rw [hopen] at howned' hagree'
      apply howned'.update hs.nonzero
      intro channel hchannel
      apply sameChannel_numbers (hagree' channel hchannel)
  | refused hopen =>
      have howned' := hopened _ _ _ rfl
      rw [hopen] at howned'
      apply howned'
  | renewed n hrenew =>
      have howned' := owned_renew howned hrenew (hapart cm hserver)
      apply howned'.update hs.nonzero
      intro channel hchannel
      apply sameChannel_numbers
      apply SecureChannelManager.tokensAgree_renew hrenew hagree channel hchannel
  | received sockfd chunk =>
      apply howned.update hs.nonzero
      intro channel hchannel
      apply SecureChannel.sameChannel_checkChunk (hagree channel hchannel)
  | attached sockfd session | detached sockfd session =>
      apply howned.update hs.nonzero
      intro channel hchannel
      apply sameChannel_numbers (hagree channel hchannel)
  | closed hchannel =>
      rw [SecureChannelManager.close]
      split
      · apply howned
      · apply howned.sublist List.eraseP_sublist
  | disconnected sockfd =>
      intro channel hchannel child hchild htakes
      obtain ⟨old, hold, rfl⟩ := List.mem_map.mp hchannel
      rw [SecureChannel.detach] at htakes ⊢
      split at htakes
      · rw [if_pos ‹_›]
        apply howned old hold child hchild htakes
      · rw [if_neg ‹_›]
        apply howned old hold child hchild htakes
  | cleanedUp now =>
      apply Owned.map (howned.sublist List.filter_sublist) hs.nonzero
      intro channel hchannel
      apply SecureChannelManager.sameChannel_cleanedUp
      apply hagree channel (List.mem_filter.mp hchannel).1

/-- Every step that keeps the tasks apart keeps the ownership. -/
theorem TasksOwned.step {s t : State} (hs : s.TasksOwned) (hsound : s.Sound) {action : Action}
    (hapart : s.TokensApart action) (h : s.step action = some t) :
  t.TasksOwned
  := by
  obtain ⟨hnonzero, howned⟩ := hs
  cases stepCases_of_step h with
  | channels clients hserver hchannels =>
      use hnonzero
      intro cm hcm
      obtain rfl := Option.some.inj hcm
      apply hchannels.owned hserver hapart (hsound.agree _ hserver) ⟨hnonzero, howned⟩
  | send sockfd => use hnonzero, howned
  | createTask hclient =>
      obtain ⟨htoken, hchannels⟩ := hapart _ hclient
      constructor
      · intro child hchild
        rcases List.mem_append.mp hchild with hchild | hchild
        · apply hnonzero child hchild
        · obtain rfl := List.mem_singleton.mp hchild
          apply htoken
      · intro cm hserver channel hchannel child hchild htakes
        rcases List.mem_append.mp hchild with hchild | hchild
        · apply howned cm hserver channel hchannel child hchild htakes
        · obtain rfl := List.mem_singleton.mp hchild
          apply hchannels cm hserver channel hchannel htakes
  | boot hb => use hnonzero, howned
  | serverNew config hbooted hserver =>
      use hnonzero
      intro cm hcm
      obtain rfl := Option.some.inj hcm
      intro channel hchannel
      cases hchannel
  | restart =>
      use hnonzero
      intro cm hcm
      cases hcm
  | lookup hphase hnone => use hnonzero, howned
  | @handOver loop name task rest hloop htask hphase =>
      simp only [handOver]
      split
      · rename_i cm channelId hserver hfound
        use hnonzero
        intro cm' hcm
        obtain rfl := Option.some.inj hcm
        apply (howned cm hserver).update hnonzero
        intro channel hchannel
        apply SecureChannel.sameChannel_checkChunk (hsound.agree cm hserver channel hchannel)
      · use hnonzero, howned
  | @session action loop haction hloop =>
      have hsub := children_elim_delete_sublist s.queue (s.loop.deleted action)
      constructor
      · intro child hchild
        apply hnonzero child (hsub.subset hchild)
      · intro cm hserver channel hchannel child hchild
        apply howned cm hserver channel hchannel child (hsub.subset hchild)

end State

/-! ### A task of the previous run -/

/-- The connections of two clients. -/
def connA : Connection := ⟨5, .standard, .standard⟩
def connB : Connection := ⟨6, .standard, .standard⟩

/-- A client opens a channel and creates a task; the server is restarted, and another client
opens a channel before the task is executed. -/
def staleTask : List Action :=
  [.boot, .serverNew .standard, .openChannel connA ⟨.none, 0⟩ 0, .createTask connA.sockfd,
    .restart, .boot, .serverNew .standard, .openChannel connB ⟨.none, 0⟩ 0,
    .loop (.serve [taskName 0]), .loop .deliver, .loop (.get true), .lookup]

/-- The task of the first client is accepted on the channel of the second one, and takes up the
sequence number the second client uses next. -/
theorem staleTask_accepted :
  ∃ s t task cm channel channel' client, machine.run .initial staleTask = some s ∧
    s.toHandOver = some task ∧ s.server = some cm ∧ s.found = some (some 1) ∧
    cm.get 1 = some channel ∧ (channel.checkChunk task.chunk).1 = .good ∧
    task.client = connA.sockfd ∧ channel.openedBy = connB.sockfd ∧
    s.step (.loop .handOver) = some t ∧ (t.server.bind (fun cm => cm.get 1)) = some channel' ∧
    t.client connB.sockfd = some client ∧
    channel'.receiveSequenceNumber = client.sendSequenceNumber + 1 ∧ ¬s.OwnTask
  := by
  refine ⟨_, _, _, _, _, _, _, rfl, rfl, rfl, rfl, rfl, by decide, rfl, rfl, rfl, rfl, rfl, rfl, ?_⟩
  intro hown
  have hclient := hown _ _ _ _ rfl rfl rfl rfl (by decide)
  cases hclient

/-- In every run that keeps the tasks of a client apart from the channels of the others, a task
accepted on a channel was created by the client that opened the channel. -/
theorem ownTask_of_tokensApart {s : State}
    (h : (machine.restrict State.TokensApart).Reachable s) :
  s.OwnTask
  := by
  have hsound := fun t ht =>
    @State.sound_of_reachable t (Machine.Reachable.of_restrict (G := State.TokensApart) ht)
  have howned : s.TasksOwned := by
    apply Machine.Reachable.invariant _ _ h
    · rintro s rfl
      constructor <;> simp [State.initial]
    · intro s action t hreach hs hstep
      obtain ⟨hapart, hstep'⟩ := Machine.restrict_step_iff.mp hstep
      apply hs.step (hsound s hreach) hapart hstep'
  apply howned.ownTask (hsound s h)

/-- A run with two clients in which the second one creates a task. -/
def twoClients : List Action :=
  [.boot, .serverNew .standard, .openChannel connA ⟨.none, 0⟩ 0,
    .openChannel connB ⟨.none, 0⟩ 0, .createTask connB.sockfd, .loop (.serve [taskName 0]),
    .loop .deliver, .loop (.get true), .lookup]

theorem ownTask_of_tokensApart_twoClients :
  ∃ s task, (machine.restrict State.TokensApart).run .initial twoClients = some s ∧
    s.toHandOver = some task ∧ task.client = connB.sockfd ∧ s.OwnTask
  := by
  have hrun : ∃ s task, (machine.restrict State.TokensApart).run .initial twoClients = some s ∧
      s.toHandOver = some task ∧ task.client = connB.sockfd := by
    refine ⟨_, _, rfl, rfl, rfl⟩
  obtain ⟨s, task, hs, htask, hclient⟩ := hrun
  have hinit : (machine.restrict State.TokensApart).Reachable .initial :=
    Machine.Reachable.init rfl
  use s, task, hs, htask, hclient
  apply ownTask_of_tokensApart (hinit.run hs)

end Server
