import UaRateThrottling.Server.System

/-!
# Handing a task over

When a task is handed to `UA_SecureChannel_processChunks`, the server object should exist, the
channel looked up should exist, and it should have a connection.  None of this is checked: three
runs hand over a task without a server, without a channel, and without a connection.

It holds in the runs in which the server starts over an empty queue, tasks are created only for
connected channels, and no channel is given up while a task in the queue names it.
-/

namespace Server

open Transition UA Zuth

namespace State

/-- What the hand-over of a task relies on: the server object exists, the lookup has found the
channel the task names, the channel still exists, and it has a connection. -/
def HandOverSafe (s : State) : Prop :=
  ∀ task, s.toHandOver = some task →
    ∃ cm channel, s.server = some cm ∧ s.found = some (some task.channelId) ∧
      cm.get task.channelId = some channel ∧ channel.connection.isSome

/-- Some task in the queue names the channel. -/
def Named (s : State) (channelId : UInt32) : Prop :=
  ∃ child ∈ s.queue.children, child.2.channelId = channelId

instance (s : State) (channelId : UInt32) : Decidable (s.Named channelId) :=
  inferInstanceAs (Decidable (∃ child ∈ s.queue.children, child.2.channelId = channelId))

/-- The steps that keep the channels named in the queue connected: the first fetch finds the
queue empty; while the server is up, a client creates a task only when the server has its
channel with a connection; a channel is purged, closed, cleaned up or loses its connection only
when no task in the queue names it. -/
def ChannelsKept (s : State) : Action → Prop
  | .boot => s.queue.children = []
  | .createTask sockfd =>
    s.booted = true → ∀ client ∈ s.client sockfd,
      ∃ cm ∈ s.server, cm.Connected client.securityToken.channelId
  | .openChannel _ _ _ =>
    ∀ cm ∈ s.server, ∀ channel ∈ cm.purged, ¬s.Named channel.securityToken.channelId
  | .closeChannel sockfd | .disconnect sockfd =>
    ∀ cm ∈ s.server, ∀ channel ∈ cm.channels,
      SecureChannelManager.attachedTo sockfd channel → ¬s.Named channel.securityToken.channelId
  | .cleanup now =>
    ∀ cm ∈ s.server, ∀ channel ∈ cm.channels,
      SecureChannelManager.isTimedOut now channel → ¬s.Named channel.securityToken.channelId
  | _ => True

instance (s : State) : (action : Action) → Decidable (s.ChannelsKept action)
  | .boot => inferInstanceAs (Decidable (_ = _))
  | .createTask _ => inferInstanceAs (Decidable (_ → ∀ _ ∈ _, ∃ _ ∈ _, _))
  | .openChannel _ _ _ => inferInstanceAs (Decidable (∀ _ ∈ _, ∀ _ ∈ _, _))
  | .closeChannel _ | .disconnect _ | .cleanup _ =>
    inferInstanceAs (Decidable (∀ _ ∈ _, ∀ _ ∈ _, _ → _))
  | .renew _ _ _ _ | .send _ | .receive _ _ | .attachSession _ _ | .detachSession _ _
  | .serverNew _ | .restart | .lookup | .loop _ => instDecidableTrue

/-- The invariant of the safe hand-overs: the tasks in the queue name connected channels, and
the lookup has found the channel the task in hand names. -/
structure TasksConnected (s : State) : Prop where
  found : ∀ channel, s.found = some channel →
    ∃ name task rest, s.loop.phase = .loaded name task rest ∧ channel = some task.channelId
  tasks : s.booted = true → ∀ child ∈ s.queue.children,
    ∃ cm, s.server = some cm ∧ cm.Connected child.2.channelId

/-- With the invariant every hand-over is safe. -/
theorem TasksConnected.handOverSafe {s : State} (hs : s.TasksConnected) (hsound : s.Sound) :
  s.HandOverSafe
  := by
  intro task htask
  obtain ⟨hbooted, child, hchild, rfl⟩ := hsound.of_toHandOver htask
  obtain ⟨cm, hserver, channel, hget, hconnection⟩ := hs.tasks hbooted child hchild
  rw [toHandOver] at htask
  split at htask
  · rename_i hphase hfound
    obtain ⟨_, task, _, hphase', rfl⟩ := hs.found _ hfound
    rw [hphase] at hphase'
    obtain ⟨-, rfl, -⟩ := Phase.loaded.inj hphase'
    rw [Option.some.inj htask] at hfound
    use cm, channel
  · cases htask

/-- An action that keeps the named channels keeps them connected. -/
theorem ChannelsStep.connected {s : State} {cm cm' : SecureChannelManager} {action : Action}
    (h : ChannelsStep cm action cm') (hserver : s.server = some cm)
    (hkept : s.ChannelsKept action) (hagree : cm.TokensAgree) {channelId : UInt32}
    (hnamed : s.Named channelId) (hconnected : cm.Connected channelId) :
  cm'.Connected channelId
  := by
  have hopened : ∀ conn request now, action = .openChannel conn request now →
      (cm.openChannel conn request now).2.Connected channelId := by
    rintro conn request now rfl
    apply SecureChannelManager.connected_openChannel _ _ _ _ hconnected
    rintro channel hpurged rfl
    apply hkept cm hserver channel hpurged hnamed
  cases h with
  | opened hopen =>
      have hconn := hopened _ _ _ rfl
      rw [hopen] at hconn
      apply SecureChannelManager.connected_update _ hconn
      intro channel _ _
      exact ⟨rfl, rfl, id⟩
  | refused hopen =>
      have hconn := hopened _ _ _ rfl
      rw [hopen] at hconn
      apply hconn
  | renewed n hrenew =>
      apply SecureChannelManager.connected_update _
        (SecureChannelManager.connected_renew hrenew hconnected)
      intro channel _ _
      exact ⟨rfl, rfl, id⟩
  | received sockfd chunk =>
      apply SecureChannelManager.connected_update _ hconnected
      intro channel hchannel _
      apply keepsChannel_checkChunk hagree hchannel
  | attached sockfd session | detached sockfd session =>
      apply SecureChannelManager.connected_update _ hconnected
      intro channel _ _
      exact ⟨rfl, rfl, id⟩
  | closed hchannel =>
      obtain ⟨hmem, hattached⟩ := SecureChannelManager.of_channelOf hchannel
      apply SecureChannelManager.connected_close _ hconnected
      rintro rfl
      apply hkept cm hserver _ hmem hattached hnamed
  | disconnected sockfd =>
      apply SecureChannelManager.connected_detachConnection _ hconnected
      rintro channel hmem hattached rfl
      apply hkept cm hserver channel hmem hattached hnamed
  | cleanedUp now =>
      apply SecureChannelManager.connected_cleanupTimedOut hagree _ hconnected
      rintro channel hmem htimedOut rfl
      apply hkept cm hserver channel hmem htimedOut hnamed

/-- Every step that keeps the named channels keeps the invariant. -/
theorem TasksConnected.step {s t : State} (hs : s.TasksConnected) (hsound : s.Sound)
    {action : Action} (hkept : s.ChannelsKept action) (h : s.step action = some t) :
  t.TasksConnected
  := by
  have hsafe := hs.handOverSafe hsound
  obtain ⟨hfound, htasks⟩ := hs
  cases stepCases_of_step h with
  | channels clients hserver hchannels =>
      use hfound
      intro hb child hchild
      obtain ⟨cm, hserver', hconnected⟩ := htasks hb child hchild
      rw [hserver] at hserver'
      obtain rfl := Option.some.inj hserver'
      exact ⟨_, rfl, hchannels.connected hserver hkept (hsound.agree _ hserver)
        ⟨child, hchild, rfl⟩ hconnected⟩
  | send sockfd => use hfound, htasks
  | createTask hclient =>
      constructor
      · intro channel hchannel
        simp only [updateClient, Loop.notify_phase]
        apply hfound channel hchannel
      · intro hb child hchild
        rcases List.mem_append.mp hchild with hchild | hchild
        · apply htasks hb child hchild
        · obtain rfl := List.mem_singleton.mp hchild
          apply hkept hb _ hclient
  | boot hb =>
      use hfound
      intro _ child hchild
      simp only at hchild
      rw [hkept] at hchild
      cases hchild
  | serverNew config hbooted hserver =>
      use hfound
      intro hb child hchild
      obtain ⟨cm, hserver', -⟩ := htasks hb child hchild
      rw [hserver] at hserver'
      cases hserver'
  | restart =>
      constructor
      · intro channel hchannel
        cases hchannel
      · intro hb
        cases hb
  | @lookup name task rest hphase hnone =>
      constructor
      · intro channel hchannel
        use name, task, rest, hphase
        have hbooted := hsound.booted_of_loaded hphase
        obtain ⟨child, hchild, rfl⟩ := hsound.hand _ _ _ hphase
        obtain ⟨cm, hserver, found, hget, -⟩ := htasks hbooted child hchild
        simp only [hserver, Option.bind_some, hget, Option.map_some, Option.some.injEq] at hchannel
        rw [← hchannel, (SecureChannelManager.of_get hget).2]
      · apply htasks
  | @handOver loop name task rest hloop htask hphase =>
      obtain ⟨cm, channel, hserver, hlooked, -⟩ := hsafe task htask
      simp only [handOver, hserver, hlooked]
      constructor
      · intro channel hchannel
        cases hchannel
      · intro hb child hchild
        obtain ⟨cm', hserver', hconnected⟩ := htasks hb child hchild
        rw [hserver] at hserver'
        obtain rfl := Option.some.inj hserver'
        refine ⟨_, rfl, SecureChannelManager.connected_update ?_ hconnected⟩
        intro other hother _
        apply keepsChannel_checkChunk (hsound.agree _ hserver) hother
  | @session action loop haction hloop =>
      constructor
      · intro channel hchannel
        obtain ⟨name, task, rest, hloaded, hlooked⟩ := hfound channel hchannel
        use name, task, rest
        have hphase := Loop.loaded_step hloop hloaded haction
        dsimp only
        split
        · rw [Loop.notify_phase]
          use hphase
        · use hphase
      · intro hb child hchild
        apply htasks hb child
        apply (children_elim_delete_sublist _ _).subset hchild

end State

/-! ### Hand-overs that are not safe -/

/-- The connection of the client in the runs below. -/
def conn : Connection := ⟨5, .standard, .standard⟩

/-- A request without security for a channel of the longest lifetime. -/
def request : OpenSecureChannelRequest := ⟨.none, 0⟩

/-- The server starts up, and a client opens a channel and creates a task. -/
def created : List Action :=
  [.boot, .serverNew .standard, .openChannel conn request 0, .createTask conn.sockfd]

/-- The completion thread reaches the hand-over of the only task in the queue. -/
def executed : List Action :=
  [.loop (.serve [taskName 0]), .loop .deliver, .loop (.get true), .lookup]

/-- The channel is closed while the task waits: the lookup finds no channel. -/
def closedMeanwhile : List Action := created ++ [.closeChannel conn.sockfd] ++ executed

/-- The connection is lost while the task waits: the channel has no connection. -/
def lostMeanwhile : List Action := created ++ [.disconnect conn.sockfd] ++ executed

/-- The server is restarted while the task waits: the task is executed before the new server
object is created. -/
def restartedMeanwhile : List Action := created ++ [.restart, .boot] ++ executed

/-- None of the three parts of a safe hand-over holds in all runs. -/
theorem handOver_not_safe :
  (∃ s, machine.run .initial closedMeanwhile = some s ∧ s.toHandOver.isSome ∧
      s.found = some none ∧ ¬s.HandOverSafe) ∧
    (∃ s, machine.run .initial lostMeanwhile = some s ∧ s.toHandOver.isSome ∧
      (s.server.bind (fun cm => cm.get 1)).map SecureChannel.connection = some none ∧
        ¬s.HandOverSafe) ∧
    (∃ s, machine.run .initial restartedMeanwhile = some s ∧ s.toHandOver.isSome ∧
      s.server = none ∧ ¬s.HandOverSafe)
  := by
  refine ⟨⟨_, rfl, rfl, rfl, ?_⟩, ⟨_, rfl, rfl, rfl, ?_⟩, ⟨_, rfl, rfl, rfl, ?_⟩⟩
  · intro hsafe
    obtain ⟨cm, channel, -, hfound, -⟩ := hsafe _ rfl
    cases hfound
  · intro hsafe
    obtain ⟨cm, channel, hserver, -, hget, hconnection⟩ := hsafe _ rfl
    obtain rfl := Option.some.inj hserver
    obtain rfl := Option.some.inj hget
    cases hconnection
  · intro hsafe
    obtain ⟨cm, channel, hserver, -⟩ := hsafe _ rfl
    cases hserver

/-- In every run that keeps the channels named in the queue connected, every task is handed over
to a channel the server has, with a connection. -/
theorem handOverSafe_of_channelsKept {s : State}
    (h : (machine.restrict State.ChannelsKept).Reachable s) :
  s.HandOverSafe
  := by
  have hsound := fun t ht =>
    @State.sound_of_reachable t (Machine.Reachable.of_restrict (G := State.ChannelsKept) ht)
  have hconnected : s.TasksConnected := by
    apply Machine.Reachable.invariant _ _ h
    · rintro s rfl
      constructor <;> simp [State.initial]
    · intro s action t hreach hs hstep
      obtain ⟨hkept, hstep'⟩ := Machine.restrict_step_iff.mp hstep
      apply hs.step (hsound s hreach) hkept hstep'
  apply hconnected.handOverSafe (hsound s h)

theorem handOverSafe_of_channelsKept_created :
  ∃ s task, (machine.restrict State.ChannelsKept).run .initial (created ++ executed) = some s ∧
    s.toHandOver = some task ∧ s.HandOverSafe
  := by
  have hrun : ∃ s task,
      (machine.restrict State.ChannelsKept).run .initial (created ++ executed) = some s ∧
        s.toHandOver = some task := by
    refine ⟨_, _, rfl, rfl⟩
  obtain ⟨s, task, hs, htask⟩ := hrun
  have hinit : (machine.restrict State.ChannelsKept).Reachable .initial :=
    Machine.Reachable.init rfl
  use s, task, hs, htask
  apply handOverSafe_of_channelsKept (hinit.run hs)

end Server
