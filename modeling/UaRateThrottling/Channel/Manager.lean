import Mathlib.Data.List.Find
import UaRateThrottling.Channel.Basic

/-!
# The secure channel manager

The server's list of open channels: channels are opened and renewed by OPN requests, looked
up by their id, and closed, purged, or cleaned up when they are timed out or have lost their
connection.  The lemmas at the end say, for each operation, which channels there are after it
and what a lookup finds.
-/

namespace UA

/-- The limits of the server for secure channels. -/
structure ServerConfig where
  maxSecureChannels : UInt16
  maxSecurityTokenLifetime : UInt32
deriving DecidableEq

/-- `UA_ServerConfig_standard`. -/
def ServerConfig.standard : ServerConfig where
  maxSecureChannels := 40
  maxSecurityTokenLifetime := 10 * 60 * 1000

inductive MessageSecurityMode where
  | invalid
  | none
  | sign
  | signAndEncrypt
deriving DecidableEq

/-- What a request to open or renew a channel asks for. -/
structure OpenSecureChannelRequest where
  securityMode : MessageSecurityMode
  requestedLifetime : UInt32
deriving DecidableEq

/-- The channels of a server, newest first, and the counters their ids and tokens are drawn
from. -/
structure SecureChannelManager where
  channels : List SecureChannel
  lastChannelId : UInt32
  lastTokenId : UInt32
  currentChannelCount : UInt32
  config : ServerConfig
deriving DecidableEq

namespace SecureChannelManager

/-- The first channel id and the first token id a server issues. -/
def startChannelId : UInt32 := 1
def startTokenId : UInt32 := 1

/-- `UA_SecureChannelManager_init`. -/
def init (config : ServerConfig) : SecureChannelManager where
  channels := []
  lastChannelId := startChannelId
  lastTokenId := startTokenId
  currentChannelCount := 0
  config := config

/-- Whether a channel has the given id. -/
def hasId (channelId : UInt32) (channel : SecureChannel) : Bool :=
  channel.securityToken.channelId = channelId

/-- The channel with the given id. -/
def get (cm : SecureChannelManager) (channelId : UInt32) : Option SecureChannel :=
  cm.channels.find? (hasId channelId)

/-- The lifetime granted for a requested one: at most the configured maximum, which is also
granted for the request of `0`. -/
def revisedLifetime (cm : SecureChannelManager) (requestedLifetime : UInt32) : UInt32 :=
  let lifetime :=
    if requestedLifetime > cm.config.maxSecurityTokenLifetime then
      cm.config.maxSecurityTokenLifetime
    else requestedLifetime
  if lifetime = 0 then cm.config.maxSecurityTokenLifetime else lifetime

/-- The channels meeting `p` are taken off the list; each removal counts down. -/
def removeWhere (p : SecureChannel → Bool) (cm : SecureChannelManager) : SecureChannelManager :=
  { cm with
    channels := cm.channels.filter (fun channel => !p channel)
    currentChannelCount :=
      cm.currentChannelCount - UInt32.ofNat (cm.channels.countP p) }

/-- The first channel meeting `p` is taken off the list. -/
def removeFirst (p : SecureChannel → Bool) (cm : SecureChannelManager) : SecureChannelManager :=
  { cm with
    channels := cm.channels.eraseP p
    currentChannelCount := cm.currentChannelCount - 1 }

/-- The time from which on a channel counts as timed out. -/
def timeout (channel : SecureChannel) : Int :=
  channel.securityToken.createdAt + channel.securityToken.revisedLifetime.toNat * 10000

/-- A channel is cleaned up when it was not renewed in time or has no connection attached. -/
def isTimedOut (nowMonotonic : Int) (channel : SecureChannel) : Bool :=
  timeout channel < nowMonotonic || channel.connection.isNone

/-- What the clean-up does to a channel that stays: the token issued next comes into use. -/
def cleanedUp (channel : SecureChannel) : SecureChannel :=
  if channel.nextSecurityToken.tokenId > 0 then channel.revolveTokens else channel

/-- Timed-out channels and channels without a connection are removed. -/
def cleanupTimedOut (nowMonotonic : Int) (cm : SecureChannelManager) : SecureChannelManager :=
  let cm' := cm.removeWhere (isTimedOut nowMonotonic)
  { cm' with channels := cm'.channels.map cleanedUp }

/-- The first channel without a session is removed, if there is one. -/
def purgeFirstChannelWithoutSession (cm : SecureChannelManager) :
    Option SecureChannelManager :=
  if cm.channels.any (fun channel => channel.sessions.isEmpty) then
    some (cm.removeFirst (fun channel => channel.sessions.isEmpty))
  else none

/-- The manager with room for one more channel, when there is room or a channel can be
purged. -/
def makeRoom (cm : SecureChannelManager) : Option SecureChannelManager :=
  if cm.currentChannelCount.toNat ≥ cm.config.maxSecureChannels.toNat then
    cm.purgeFirstChannelWithoutSession
  else some cm

/-- The channel opened at the given time for a connection. -/
def newChannel (cm : SecureChannelManager) (conn : Connection)
    (request : OpenSecureChannelRequest) (nowMonotonic : Int) : SecureChannel :=
  { SecureChannel.init with
    securityToken := {
      channelId := cm.lastChannelId
      tokenId := cm.lastTokenId
      createdAt := nowMonotonic
      revisedLifetime := cm.revisedLifetime request.requestedLifetime }
    connection := some conn
    openedBy := conn.sockfd }

/-- A channel is opened for a connection.  The result is the status of the service and the
token the client is told. -/
def openChannel (cm : SecureChannelManager) (conn : Connection)
    (request : OpenSecureChannelRequest) (nowMonotonic : Int) :
    (StatusCode × Option ChannelSecurityToken) × SecureChannelManager :=
  if request.securityMode ≠ .none then ((.badSecurityModeRejected, none), cm)
  else
    match cm.makeRoom with
    | none => ((.badOutOfMemory, none), cm)
    | some cm =>
      let channel := cm.newChannel conn request nowMonotonic
      ((.good, some channel.securityToken),
        { cm with
          channels := channel :: cm.channels
          lastChannelId := cm.lastChannelId + 1
          lastTokenId := cm.lastTokenId + 1
          currentChannelCount := cm.currentChannelCount + 1 })

/-- The first channel meeting `p` is replaced by its image under `f`. -/
def updateFirst (p : SecureChannel → Bool) (f : SecureChannel → SecureChannel) :
    List SecureChannel → List SecureChannel
  | [] => []
  | channel :: channels =>
    if p channel then f channel :: channels else channel :: updateFirst p f channels

/-- The first channel meeting `p` is changed by `f`. -/
def update (p : SecureChannel → Bool) (f : SecureChannel → SecureChannel)
    (cm : SecureChannelManager) : SecureChannelManager :=
  { cm with channels := updateFirst p f cm.channels }

/-- Whether a channel is attached to the connection with the given socket. -/
def attachedTo (sockfd : Nat) (channel : SecureChannel) : Bool :=
  channel.connection.map Connection.sockfd = some sockfd

/-- The channel a connection is attached to. -/
def channelOf (cm : SecureChannelManager) (sockfd : Nat) : Option SecureChannel :=
  cm.channels.find? (attachedTo sockfd)

/-- The token a renewal of the channel tells the client, which is newly drawn when none is
issued. -/
def renewedToken (cm : SecureChannelManager) (channel : SecureChannel)
    (request : OpenSecureChannelRequest) : ChannelSecurityToken :=
  channel.renewedToken cm.lastTokenId (cm.revisedLifetime request.requestedLifetime)

/-- The channel of a connection is renewed: its next token is issued, unless one is already.
The result is the token the client is told. -/
def renew (cm : SecureChannelManager) (sockfd : Nat) (request : OpenSecureChannelRequest)
    (nowMonotonic : Int) : Option (ChannelSecurityToken × SecureChannelManager) :=
  (cm.channelOf sockfd).map (fun channel =>
    (cm.renewedToken channel request,
      { cm with
        channels := updateFirst (attachedTo sockfd) (fun channel =>
          { channel with nextSecurityToken :=
              { cm.renewedToken channel request with createdAt := nowMonotonic } }) cm.channels
        lastTokenId :=
          if channel.nextSecurityToken.tokenId = 0 then cm.lastTokenId + 1
          else cm.lastTokenId }))

/-- The channel with the given id is closed. -/
def close (cm : SecureChannelManager) (channelId : UInt32) :
    StatusCode × SecureChannelManager :=
  if (cm.get channelId).isNone then (.badInternalError, cm)
  else (.good, cm.removeFirst (hasId channelId))

/-- A lost connection is detached from its channel. -/
def detachConnection (cm : SecureChannelManager) (sockfd : Nat) : SecureChannelManager :=
  { cm with channels := cm.channels.map (SecureChannel.detach sockfd) }

/-! ### Lookup after an operation -/

variable {cm : SecureChannelManager} {channelId : UInt32} {channel : SecureChannel}

/-- What a lookup finds is on the list, with the id looked up. -/
theorem of_get (h : cm.get channelId = some channel) :
  channel ∈ cm.channels ∧ channel.securityToken.channelId = channelId
  := by
  use List.mem_of_find?_eq_some h
  simpa [hasId] using List.find?_some h

/-- A lookup does not see the removal of channels with other ids. -/
theorem get_removeWhere {p : SecureChannel → Bool}
    (h : ∀ channel ∈ cm.channels, p channel → channel.securityToken.channelId ≠ channelId) :
  (cm.removeWhere p).get channelId = cm.get channelId
  := by
  rw [get, removeWhere, List.find?_filter]
  apply List.find?_congr
  intro channel hmem
  by_cases hp : p channel
  · simp [hp, hasId, h channel hmem hp]
  · simp [hp]

/-- A lookup does not see the removal of a channel with another id. -/
theorem get_removeFirst {p : SecureChannel → Bool}
    (h : ∀ channel, cm.channels.find? p = some channel →
      channel.securityToken.channelId ≠ channelId) :
  (cm.removeFirst p).get channelId = cm.get channelId
  := by
  obtain ⟨channels, _, _, _, _⟩ := cm
  simp only [get, removeFirst] at h ⊢
  induction channels with
  | nil => rfl
  | cons channel channels ih =>
      by_cases hp : p channel
      · have hid := h channel (List.find?_cons_of_pos hp)
        rw [List.eraseP_cons_of_pos hp, List.find?_cons_of_neg (by simpa [hasId] using hid)]
      · rw [List.find?_cons_of_neg hp] at h
        rw [List.eraseP_cons_of_neg hp, List.find?_cons, List.find?_cons, ih h]

/-- A lookup after a change of all channels that keeps their ids finds the changed channel. -/
theorem find?_map_hasId {channels : List SecureChannel} {f : SecureChannel → SecureChannel}
    (h : ∀ channel ∈ channels,
      (f channel).securityToken.channelId = channel.securityToken.channelId) :
  (channels.map f).find? (hasId channelId) = (channels.find? (hasId channelId)).map f
  := by
  rw [List.find?_map]
  congr 1
  apply List.find?_congr
  intro channel hmem
  simp [hasId, h channel hmem]

/-- After a change of one channel that keeps its id, a lookup finds the channel it found before
or the changed one. -/
theorem get_update {p : SecureChannel → Bool} {f : SecureChannel → SecureChannel}
    (hf : ∀ channel ∈ cm.channels, p channel →
      (f channel).securityToken.channelId = channel.securityToken.channelId)
    (h : cm.get channelId = some channel) :
  (cm.update p f).get channelId = some channel ∨
    p channel ∧ (cm.update p f).get channelId = some (f channel)
  := by
  obtain ⟨channels, _, _, _, _⟩ := cm
  simp only [get, update] at hf h ⊢
  induction channels with
  | nil => cases h
  | cons head channels ih =>
      have hhead := hf head List.mem_cons_self
      have ih' := ih (fun channel hmem => hf channel (List.mem_cons_of_mem _ hmem))
      rw [updateFirst]
      by_cases hid : hasId channelId head
      · rw [List.find?_cons_of_pos hid] at h
        obtain rfl := Option.some.inj h
        by_cases hp : p head
        · right
          have hid' : hasId channelId (f head) = true := by
            simpa [hasId, hhead hp] using hid
          rw [if_pos hp, List.find?_cons_of_pos hid']
          use hp
        · left
          rw [if_neg hp, List.find?_cons_of_pos hid]
      · rw [List.find?_cons_of_neg hid] at h
        by_cases hp : p head
        · left
          have hid' : ¬hasId channelId (f head) = true := by
            simpa [hasId, hhead hp] using hid
          rw [if_pos hp, List.find?_cons_of_neg hid', h]
        · rw [if_neg hp, List.find?_cons_of_neg hid]
          apply ih' h

/-- After a change of one channel the list holds the channels as before, but for the changed
one. -/
theorem mem_update {p : SecureChannel → Bool} {f : SecureChannel → SecureChannel}
    (h : channel ∈ (cm.update p f).channels) :
  channel ∈ cm.channels ∨ ∃ old ∈ cm.channels, cm.channels.find? p = some old ∧ channel = f old
  := by
  obtain ⟨channels, _, _, _, _⟩ := cm
  simp only [update] at h ⊢
  induction channels with
  | nil => cases h
  | cons head channels ih =>
      rw [updateFirst] at h
      split at h
      · rename_i hp
        rcases List.mem_cons.mp h with rfl | hmem
        · right
          use head, List.mem_cons_self, List.find?_cons_of_pos hp
        · left
          apply List.mem_cons_of_mem _ hmem
      · rename_i hp
        rcases List.mem_cons.mp h with rfl | hmem
        · left
          apply List.mem_cons_self
        · rcases ih hmem with hold | ⟨old, hold, hfind, rfl⟩
          · left
            apply List.mem_cons_of_mem _ hold
          · right
            use old, List.mem_cons_of_mem _ hold, (List.find?_cons_of_neg hp).trans hfind

/-! ### Channels with a connection -/

/-- The server has a channel with the given id, and the channel has a connection. -/
def Connected (cm : SecureChannelManager) (channelId : UInt32) : Prop :=
  ∃ channel, cm.get channelId = some channel ∧ channel.connection.isSome

/-- `Connected` as a check of the looked-up channel. -/
theorem connected_iff :
  cm.Connected channelId
    ↔ (cm.get channelId).any (fun channel => channel.connection.isSome) = true
  := by
  simp [Connected, Option.any_eq_true]

instance (cm : SecureChannelManager) (channelId : UInt32) :
    Decidable (cm.Connected channelId) :=
  decidable_of_iff _ connected_iff.symm

/-- The next tokens of all channels belong to their channels. -/
def TokensAgree (cm : SecureChannelManager) : Prop :=
  ∀ channel ∈ cm.channels, channel.TokensAgree

/-- A change of a channel that keeps its id, its connection and the channel of its next
token. -/
structure KeepsChannel (channel channel' : SecureChannel) : Prop where
  channelId : channel'.securityToken.channelId = channel.securityToken.channelId
  connection : channel'.connection = channel.connection
  agree : channel.TokensAgree → channel'.TokensAgree

/-- The channel the server removes to make room for another one. -/
def purged (cm : SecureChannelManager) : Option SecureChannel :=
  if cm.currentChannelCount.toNat ≥ cm.config.maxSecureChannels.toNat then
    cm.channels.find? (fun channel => channel.sessions.isEmpty)
  else none

/-- A change of one channel that keeps its id and connection keeps the connected channels. -/
theorem connected_update {p : SecureChannel → Bool} {f : SecureChannel → SecureChannel}
    (hf : ∀ channel ∈ cm.channels, p channel → KeepsChannel channel (f channel))
    (h : cm.Connected channelId) :
  (cm.update p f).Connected channelId
  := by
  obtain ⟨channel, hget, hconnection⟩ := h
  rcases get_update (fun other hother hp => (hf other hother hp).channelId) hget
    with hsame | ⟨hp, hchanged⟩
  · use channel, hsame, hconnection
  · use f channel, hchanged
    rw [(hf channel (of_get hget).1 hp).connection]
    apply hconnection

theorem tokensAgree_update {p : SecureChannel → Bool} {f : SecureChannel → SecureChannel}
    (hf : ∀ channel ∈ cm.channels, p channel → KeepsChannel channel (f channel))
    (h : cm.TokensAgree) :
  (cm.update p f).TokensAgree
  := by
  intro channel hmem
  rcases mem_update hmem with hold | ⟨old, hold, hfind, rfl⟩
  · apply h channel hold
  · apply (hf old hold (List.find?_some hfind)).agree (h old hold)

/-- Making room removes at most the purged channel. -/
theorem of_makeRoom {cm' : SecureChannelManager} (h : cm.makeRoom = some cm') :
  cm'.lastChannelId = cm.lastChannelId ∧ cm'.lastTokenId = cm.lastTokenId ∧
    cm'.channels.Sublist cm.channels ∧
    ∀ channelId, (∀ channel, cm.purged = some channel →
      channel.securityToken.channelId ≠ channelId) → cm'.get channelId = cm.get channelId
  := by
  rw [makeRoom] at h
  split at h
  · rename_i hfull
    rw [purgeFirstChannelWithoutSession, Option.ite_none_right_eq_some] at h
    obtain rfl := Option.some.inj h.2
    use rfl, rfl, List.eraseP_sublist
    intro channelId hpurged
    apply get_removeFirst
    intro channel hfind
    apply hpurged channel
    rw [purged, if_pos hfull]
    apply hfind
  · obtain rfl := Option.some.inj h
    use rfl, rfl, List.Sublist.refl _
    intro _ _
    rfl

/-- What the opening of a channel does: without a token it changes nothing; with one the new
channel is added after room was made. -/
theorem openChannel_cases (cm : SecureChannelManager) (conn : Connection)
    (request : OpenSecureChannelRequest) (now : Int) :
  (∃ retval, cm.openChannel conn request now = ((retval, none), cm)) ∨
    ∃ cm', cm.makeRoom = some cm' ∧
      cm.openChannel conn request now =
        ((.good, some (cm'.newChannel conn request now).securityToken),
          { cm' with
            channels := cm'.newChannel conn request now :: cm'.channels
            lastChannelId := cm'.lastChannelId + 1
            lastTokenId := cm'.lastTokenId + 1
            currentChannelCount := cm'.currentChannelCount + 1 })
  := by
  rw [openChannel]
  split
  · left
    exact ⟨_, rfl⟩
  · cases hroom : cm.makeRoom with
    | none =>
        left
        exact ⟨_, rfl⟩
    | some cm' =>
        right
        use cm', rfl

/-- A new channel has no next token. -/
theorem newChannel_tokensAgree (conn : Connection) (request : OpenSecureChannelRequest)
    (now : Int) :
  (cm.newChannel conn request now).TokensAgree
  := by
  intro hnext
  contradiction

/-- A channel that is not purged stays connected when another one is opened. -/
theorem connected_openChannel (conn : Connection) (request : OpenSecureChannelRequest)
    (now : Int) (hpurged : ∀ channel, cm.purged = some channel →
      channel.securityToken.channelId ≠ channelId)
    (h : cm.Connected channelId) :
  (cm.openChannel conn request now).2.Connected channelId
  := by
  rcases openChannel_cases cm conn request now with ⟨retval, hopen⟩ | ⟨cm', hroom, hopen⟩
  · rw [hopen]
    apply h
  · rw [hopen]
    obtain ⟨-, -, -, hget⟩ := of_makeRoom hroom
    obtain ⟨channel, hchannel, hconnection⟩ := h
    simp only [Connected, get, List.find?_cons]
    split
    · use cm'.newChannel conn request now, rfl
      rfl
    · use channel
      use (hget channelId hpurged).trans hchannel

theorem tokensAgree_openChannel (conn : Connection) (request : OpenSecureChannelRequest)
    (now : Int) (h : cm.TokensAgree) :
  (cm.openChannel conn request now).2.TokensAgree
  := by
  rcases openChannel_cases cm conn request now with ⟨retval, hopen⟩ | ⟨cm', hroom, hopen⟩
  · rw [hopen]
    apply h
  · rw [hopen]
    obtain ⟨-, -, hsub, -⟩ := of_makeRoom hroom
    intro channel hmem
    rcases List.mem_cons.mp hmem with rfl | hmem
    · apply newChannel_tokensAgree
    · apply h channel (hsub.subset hmem)

/-- Closing a channel keeps the others connected. -/
theorem connected_close {closedId : UInt32} (hid : closedId ≠ channelId)
    (h : cm.Connected channelId) :
  (cm.close closedId).2.Connected channelId
  := by
  rw [close]
  split
  · apply h
  · rw [Connected, get_removeFirst]
    · apply h
    · intro channel hfind
      have hclosed := List.find?_some hfind
      simp only [hasId, decide_eq_true_eq] at hclosed
      rw [hclosed]
      apply hid

theorem tokensAgree_close {closedId : UInt32} (h : cm.TokensAgree) :
  (cm.close closedId).2.TokensAgree
  := by
  rw [close]
  split
  · apply h
  · intro channel hmem
    apply h channel (List.mem_of_mem_eraseP hmem)

/-- Losing a connection keeps the channels attached to other connections connected. -/
theorem connected_detachConnection {sockfd : Nat}
    (hid : ∀ channel ∈ cm.channels, attachedTo sockfd channel →
      channel.securityToken.channelId ≠ channelId)
    (h : cm.Connected channelId) :
  (cm.detachConnection sockfd).Connected channelId
  := by
  obtain ⟨channel, hget, hconnection⟩ := h
  obtain ⟨hmem, hchannelId⟩ := of_get hget
  have hkeep : SecureChannel.detach sockfd channel = channel := by
    rw [SecureChannel.detach, if_neg]
    intro hattached
    apply hid channel hmem (decide_eq_true hattached) hchannelId
  use channel
  rw [get] at hget ⊢
  rw [detachConnection, find?_map_hasId, hget, Option.map_some, hkeep]
  · use rfl, hconnection
  · intro other _
    rw [SecureChannel.detach]
    split <;> rfl

theorem tokensAgree_detachConnection {sockfd : Nat} (h : cm.TokensAgree) :
  (cm.detachConnection sockfd).TokensAgree
  := by
  intro channel hmem
  obtain ⟨old, hold, rfl⟩ := List.mem_map.mp hmem
  rw [SecureChannel.detach]
  split
  · apply h old hold
  · apply h old hold

theorem sameChannel_cleanedUp (h : channel.TokensAgree) :
  SecureChannel.SameChannel channel (cleanedUp channel)
  := by
  rw [cleanedUp]
  split
  · apply SecureChannel.sameChannel_revolveTokens h
  · apply SecureChannel.SameChannel.refl h

/-- The clean-up keeps the channels connected that are not timed out. -/
theorem connected_cleanupTimedOut {now : Int} (hagree : cm.TokensAgree)
    (hid : ∀ channel ∈ cm.channels, isTimedOut now channel →
      channel.securityToken.channelId ≠ channelId)
    (h : cm.Connected channelId) :
  (cm.cleanupTimedOut now).Connected channelId
  := by
  obtain ⟨channel, hget, hconnection⟩ := h
  have hsame := sameChannel_cleanedUp (hagree channel (of_get hget).1)
  use cleanedUp channel
  constructor
  · rw [← get_removeWhere hid] at hget
    rw [get] at hget ⊢
    rw [cleanupTimedOut, find?_map_hasId, hget]
    · rfl
    · intro other hother
      have hmem := (List.mem_filter.mp hother).1
      apply (sameChannel_cleanedUp (hagree other hmem)).channelId
  · rw [hsame.connection]
    apply hconnection

theorem tokensAgree_cleanupTimedOut {now : Int} (h : cm.TokensAgree) :
  (cm.cleanupTimedOut now).TokensAgree
  := by
  intro channel hmem
  obtain ⟨old, hold, rfl⟩ := List.mem_map.mp hmem
  apply (sameChannel_cleanedUp (h old (List.mem_filter.mp hold).1)).agree

/-- A renewal changes only the next token of the channel. -/
theorem keepsChannel_renew (cm : SecureChannelManager) (request : OpenSecureChannelRequest)
    (now : Int) (channel : SecureChannel) :
  KeepsChannel channel { channel with
    nextSecurityToken := { cm.renewedToken channel request with createdAt := now } }
  := by
  constructor
  · rfl
  · rfl
  · intro h hnext
    rw [renewedToken, SecureChannel.renewedToken] at *
    split at hnext
    · rw [if_pos ‹_›]
    · rw [if_neg ‹_›]
      apply h ‹_›

/-- A renewal keeps all channels connected. -/
theorem connected_renew {cm' : SecureChannelManager} {sockfd : Nat} {now : Int}
    {request : OpenSecureChannelRequest} {token : ChannelSecurityToken}
    (hrenew : cm.renew sockfd request now = some (token, cm')) (h : cm.Connected channelId) :
  cm'.Connected channelId
  := by
  obtain ⟨channel, -, heq⟩ := Option.map_eq_some_iff.mp hrenew
  obtain ⟨-, rfl⟩ := Prod.mk.inj heq
  apply connected_update _ h
  intro other _ _
  apply keepsChannel_renew

theorem tokensAgree_renew {cm' : SecureChannelManager} {sockfd : Nat} {now : Int}
    {request : OpenSecureChannelRequest} {token : ChannelSecurityToken}
    (hrenew : cm.renew sockfd request now = some (token, cm')) (h : cm.TokensAgree) :
  cm'.TokensAgree
  := by
  obtain ⟨channel, -, heq⟩ := Option.map_eq_some_iff.mp hrenew
  obtain ⟨-, rfl⟩ := Prod.mk.inj heq
  apply tokensAgree_update _ h
  intro other _ _
  apply keepsChannel_renew

/-- The channel attached to a connection is on the list. -/
theorem of_channelOf {sockfd : Nat} (h : cm.channelOf sockfd = some channel) :
  channel ∈ cm.channels ∧ attachedTo sockfd channel
  := ⟨List.mem_of_find?_eq_some h, List.find?_some h⟩

end SecureChannelManager

end UA
