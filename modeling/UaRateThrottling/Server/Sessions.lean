import Mathlib.Data.Rat.Defs
import UaRateThrottling.Binary.DataType
import UaRateThrottling.CString
import UaRateThrottling.Channel.Manager
import UaRateThrottling.Records
import UaRateThrottling.Transition

/-!
# Sessions

A client creates a session, and activates it on a secure channel with its credentials.  The session
points to the channel and the channel lists the session, until the session is activated on another
channel, is removed, or the channel is.  A service that needs a session is called for the session
that the request names by its authentication token.

The channels and sessions of the server are records at their addresses.  What happens to them is
told by the events of a step, newest first.
-/

namespace Sessions

open Transition UA

/-! ### The state of the server -/

/-- The parts of the configuration that concern channels and sessions.  Timeouts are in
milliseconds. -/
structure Config extends ServerConfig where
  maxSessions : UInt16
  maxSessionTimeout : ℚ
  enableAnonymousLogin : Bool
  enableUsernamePasswordLogin : Bool
  usernamePasswordLogins : List (Option (List UInt8) × Option (List UInt8))

/-- `UA_Session` in its `session_list_entry`.  The channel is the address of one. -/
structure Session where
  address : Nat
  authenticationToken : Binary.NodeId
  activated : Bool
  timeout : ℚ
  validTill : Int
  channel : Option Nat
deriving DecidableEq

/-- `channel_list_entry`.  The sessions of the channel are addresses. -/
structure ChannelEntry where
  address : Nat
  channel : SecureChannel
deriving DecidableEq

/-- The channels and the sessions of the server, newest first. -/
structure State where
  entries : List ChannelEntry
  lastChannelId : UInt32
  lastTokenId : UInt32
  currentChannelCount : UInt32
  sessions : List Session
  currentSessionCount : UInt32
deriving DecidableEq

/-- The credentials of a client, in a type the server knows, or of another type or undecoded. -/
inductive IdentityToken where
  | unknown
  | anonymous (policyId : Option (List UInt8))
  | userName (policyId userName password encryptionAlgorithm : Option (List UInt8))
deriving DecidableEq

/-- What happens to the sessions, with the addresses of the session and of the channel. -/
inductive Event where
  | created (session : Nat) (authenticationToken : Binary.NodeId)
  | activated (session channel : Nat) (identity : IdentityToken)
  | detached (session : Nat)
  | removed (session : Nat)
  | closed (channel : Nat)
  | called (session channel : Nat) (requestTypeId : UInt32)
deriving DecidableEq

/-- The `serviceResult` of a response. -/
inductive ServiceResult where
  | good | badOutOfMemory | badTooManySessions | badSecureChannelIdInvalid | badSessionIdInvalid
  | badSessionNotActivated | badIdentityTokenInvalid | badUserAccessDenied | badServiceUnsupported
deriving DecidableEq

/-- The lifetime of a session, in steps of the clock.  `(UA_DateTime)` cuts off the fraction. -/
def Session.lifetime (session : Session) : Int :=
  let ticks := session.timeout * 10000
  ticks.num.tdiv ticks.den

/-- `UA_Session_updateLifetime` -/
def Session.updateLifetime (now : Int) (session : Session) : Session :=
  { session with validTill := now + session.lifetime }

/-- `UA_String_equal`, for which `NULL` is the empty string. -/
def stringEqual (s s' : Option (List UInt8)) : Bool := s.getD [] = s'.getD []

def anonymousPolicy : Option (List UInt8) := some (Zuth.ascii "open62541-anonymous-policy")
def usernamePolicy : Option (List UInt8) := some (Zuth.ascii "open62541-username-policy")

/-- The checks that `Service_ActivateSession` makes of the credentials. -/
def checkIdentity (config : Config) : IdentityToken → ServiceResult
  | .unknown => .badIdentityTokenInvalid
  | .anonymous policyId =>
    if !config.enableAnonymousLogin then .badIdentityTokenInvalid
    else if policyId.isSome && !stringEqual policyId anonymousPolicy then .badIdentityTokenInvalid
    else .good
  | .userName policyId userName password encryptionAlgorithm =>
    if !config.enableUsernamePasswordLogin then .badIdentityTokenInvalid
    else if !stringEqual policyId usernamePolicy then .badIdentityTokenInvalid
    else if (encryptionAlgorithm.getD []).length > 0 then .badIdentityTokenInvalid
    else if (userName.getD []).length = 0 && (password.getD []).length = 0 then
      .badIdentityTokenInvalid
    else if config.usernamePasswordLogins.any (fun login =>
        stringEqual userName login.1 && stringEqual password login.2) then .good
    else .badUserAccessDenied

namespace State

/-- The state without channels and sessions. -/
def init : State where
  entries := []
  lastChannelId := SecureChannelManager.startChannelId
  lastTokenId := SecureChannelManager.startTokenId
  currentChannelCount := 0
  sessions := []
  currentSessionCount := 0

/-- The channel manager of the server. -/
def secureChannelManager (config : Config) (s : State) : SecureChannelManager where
  channels := s.entries.map ChannelEntry.channel
  lastChannelId := s.lastChannelId
  lastTokenId := s.lastTokenId
  currentChannelCount := s.currentChannelCount
  config := config.toServerConfig

/-- The session at the address. -/
def session (s : State) (address : Nat) : Option Session :=
  Records.get Session.address s.sessions address

/-- The channel at the address. -/
def entry (s : State) (address : Nat) : Option ChannelEntry :=
  Records.get ChannelEntry.address s.entries address

/-- The session at the address is changed by `f`. -/
def updateSession (address : Nat) (f : Session → Session) (s : State) : State :=
  { s with sessions := Records.modify Session.address address f s.sessions }

/-- The sessions of the channel at the address are changed by `f`. -/
def updateSessions (address : Nat) (f : List Nat → List Nat) (s : State) : State :=
  { s with entries := Records.modify ChannelEntry.address address (fun entry =>
      { entry with channel :=
          { entry.channel with sessions := f entry.channel.sessions } }) s.entries }

/-! ### Channels and sessions are attached and removed -/

/-- `UA_SecureChannel_attachSession`.  The pointer to the channel is set if there is none. -/
def attachSession (channel session : Nat) (s : State) : State :=
  if ((s.session session).bind Session.channel).isSome then s
  else
    let s' := s.updateSession session (fun session => { session with channel := some channel })
    s'.updateSessions channel (fun sessions => session :: sessions)

/-- `UA_SecureChannel_detachSession` -/
def detachSession (channel session : Nat) (s : State) : State :=
  let s' := s.updateSession session (fun session => { session with channel := none })
  s'.updateSessions channel (fun sessions => sessions.erase session)

/-- `removeSessionEntry`, with `UA_Session_deleteMembersCleanup` -/
def removeSessionEntry (session : Nat) (s : State) : State × List Event :=
  (s.session session).elim (s, []) (fun entry =>
    let s' := entry.channel.elim s (fun channel => s.detachSession channel session)
    ({ s' with
      sessions := Records.remove Session.address session s'.sessions
      currentSessionCount := s'.currentSessionCount - 1 }, [.removed session]))

/-- `UA_SessionManager_removeSession`, without its result -/
def removeSession (authenticationToken : Binary.NodeId) (s : State) : State × List Event :=
  (s.sessions.find? (fun session => session.authenticationToken = authenticationToken)).elim (s, [])
    (fun session => s.removeSessionEntry session.address)

/-- The sessions lose their pointers to a channel. -/
def releaseSessions (sessions : List Nat) (s : State) : State :=
  { s with sessions := s.sessions.map (fun session =>
      if session.address ∈ sessions then { session with channel := none } else session) }

/-- `removeSecureChannel`, with `UA_SecureChannel_deleteMembersCleanup` -/
def removeSecureChannel (channel : Nat) (s : State) : State × List Event :=
  (s.entry channel).elim (s, []) (fun entry =>
    ({ s.releaseSessions entry.channel.sessions with
      entries := Records.remove ChannelEntry.address channel s.entries
      currentChannelCount := s.currentChannelCount - 1 }, [.closed channel]))

/-- The removals of a loop, one after the other. -/
def removeEach (remove : Nat → State → State × List Event) :
    List Nat → State → State × List Event
  | [], s => (s, [])
  | address :: addresses, s =>
    let removed := remove address s
    let rest := removeEach remove addresses removed.1
    (rest.1, rest.2 ++ removed.2)

/-- `UA_SessionManager_cleanupTimedOut` -/
def cleanupSessions (now : Int) (s : State) : State × List Event :=
  removeEach removeSessionEntry
    ((s.sessions.filter (fun session => session.validTill < now)).map Session.address) s

/-- `UA_SecureChannelManager_cleanupTimedOut`.  The next tokens of the channels that stay come into
use. -/
def cleanupChannels (now : Int) (s : State) : State × List Event :=
  let removed := removeEach removeSecureChannel
    ((s.entries.filter (fun entry => SecureChannelManager.isTimedOut now entry.channel)).map
      ChannelEntry.address) s
  ({ removed.1 with entries := removed.1.entries.map (fun entry =>
      { entry with channel := SecureChannelManager.cleanedUp entry.channel }) }, removed.2)

/-- `UA_Server_cleanup` -/
def cleanup (now : Int) (s : State) : State × List Event :=
  let cleaned := s.cleanupSessions now
  let cleaned' := cleaned.1.cleanupChannels now
  (cleaned'.1, cleaned'.2 ++ cleaned.2)

/-- `purgeFirstChannelWithoutSession`, if the channels are too many.  There is room for a new
channel afterwards, or none. -/
def makeRoom (config : Config) (s : State) : Option (State × List Event) :=
  if s.currentChannelCount.toNat ≥ config.maxSecureChannels.toNat then
    (s.entries.find? (fun entry => entry.channel.sessions.isEmpty)).map
      (fun entry => s.removeSecureChannel entry.address)
  else some (s, [])

/-- `UA_SecureChannelManager_open`, for an entry at the address, if there is memory for one -/
def openChannel (config : Config) (memory : Option Nat) (conn : Connection)
    (request : OpenSecureChannelRequest) (now : Int) (s : State) : State × List Event :=
  if request.securityMode ≠ .none then (s, [])
  else (s.makeRoom config).elim (s, []) (fun (s', events) =>
    memory.elim (s', events) (fun address =>
      ({ s' with
        entries :=
          ⟨address, (s'.secureChannelManager config).newChannel conn request now⟩ :: s'.entries
        lastChannelId := s'.lastChannelId + 1
        lastTokenId := s'.lastTokenId + 1
        currentChannelCount := s'.currentChannelCount + 1 }, events)))

/-- `UA_SecureChannelManager_close` -/
def closeChannel (channelId : UInt32) (s : State) : State × List Event :=
  (s.entries.find? (fun entry => SecureChannelManager.hasId channelId entry.channel)).elim (s, [])
    (fun entry => s.removeSecureChannel entry.address)

/-- A connection is detached from its channel. -/
def disconnect (sockfd : Nat) (s : State) : State :=
  { s with entries := s.entries.map (fun entry =>
      { entry with channel := entry.channel.detach sockfd }) }

/-! ### Services -/

/-- The first session of the channel with the token, `UA_SecureChannel_getSession`. -/
def channelSession (channel : SecureChannel) (authenticationToken : Binary.NodeId) (s : State) :
    Option Session :=
  (channel.sessions.filterMap s.session).find?
    (fun session => session.authenticationToken = authenticationToken)

/-- The first session with the token, unless it has timed out, `UA_SessionManager_getSession`. -/
def managerSession (authenticationToken : Binary.NodeId) (now : Int) (s : State) : Option Session :=
  (s.sessions.find? (fun session => session.authenticationToken = authenticationToken)).filter
    (fun session => ¬now > session.validTill)

/-- The session that a request names: one of its channel, or another one. -/
def findSession (channel : SecureChannel) (authenticationToken : Binary.NodeId) (now : Int)
    (s : State) : Option Session :=
  (s.channelSession channel authenticationToken).or (s.managerSession authenticationToken now)

/-- `Service_CreateSession`, with `UA_SessionManager_createSession`.  The memory is the address of
the new entry, if there is one, and the token is a random one. -/
def createSession (config : Config) (channel : SecureChannel) (requestedSessionTimeout : ℚ)
    (memory : Option Nat) (authenticationToken : Zuth.Guid) (copied : Bool) (now : Int)
    (s : State) : ServiceResult × State × List Event :=
  if channel.securityToken.channelId = 0 then (.badSecureChannelIdInvalid, s, [])
  else if s.currentSessionCount.toNat ≥ config.maxSessions.toNat then (.badTooManySessions, s, [])
  else memory.elim (.badOutOfMemory, s, []) (fun address =>
    let session : Session := {
      address := address
      authenticationToken := ⟨1, .guid authenticationToken⟩
      activated := false
      timeout :=
        if requestedSessionTimeout ≤ config.maxSessionTimeout ∧ requestedSessionTimeout > 0 then
          requestedSessionTimeout
        else config.maxSessionTimeout
      validTill := 0
      channel := none }
    let s' := { s with
      sessions := session.updateLifetime now :: s.sessions
      currentSessionCount := s.currentSessionCount + 1 }
    let event := Event.created address session.authenticationToken
    if copied then (.good, s', [event])
    else
      let removed := s'.removeSession session.authenticationToken
      (.badOutOfMemory, removed.1, removed.2 ++ [event]))

/-- `Service_ActivateSession`.  A session that cannot be attached for want of memory is activated
nevertheless. -/
def activateSession (config : Config) (channel : Nat) (session : Session) (identity : IdentityToken)
    (memory : Bool) (now : Int) (s : State) : ServiceResult × State × List Event :=
  if session.validTill < now then (.badSessionIdInvalid, s, [])
  else if checkIdentity config identity ≠ .good then (checkIdentity config identity, s, [])
  else
    let old := session.channel.filter (fun old => old ≠ channel)
    let s' := old.elim s (fun old => s.detachSession old session.address)
    let s'' := if memory then s'.attachSession channel session.address else s'
    (.good, s''.updateSession session.address (fun session =>
        { session with activated := true }.updateLifetime now),
      (if memory ∨ session.channel = some channel then
        [.activated session.address channel identity] else []) ++
      old.elim [] (fun _ => [.detached session.address]))

end State

/-- A request: the two that create and activate a session, or another one by its type id.  What
the environment adds to it are the memory and the random numbers that it gets. -/
inductive Request where
  | createSession (requestedSessionTimeout : ℚ) (memory : Option Nat)
      (authenticationToken : Zuth.Guid) (copied : Bool)
  | activateSession (identity : IdentityToken) (memory : Bool)
  | service (requestTypeId : UInt32)

/-- `UA_NS0ID_CLOSESESSIONREQUEST_ENCODING_DEFAULTBINARY` -/
def closeSessionRequest : UInt32 := 473

/-- Whether the service for a request requires a session, from `getServicePointers`, if there is
one.  `CreateSession`, which requires none, and `ActivateSession` are requests of their own. -/
def getServicePointers (requestTypeId : UInt32) : Option Bool :=
  if requestTypeId ∈ [428, 422] then some false
  else if requestTypeId ∈ [473, 631, 673, 527, 533, 560, 566, 554, 787, 826, 832, 793, 799, 847,
    751, 781, 763, 769, 712, 488, 494, 500, 506] then some true
  else none

/-- There is a service for the request, and it requires a session. -/
def requiresSession (requestTypeId : UInt32) : Bool := getServicePointers requestTypeId = some true

/-- What `processMSG` makes of a request: the service is called for a session or for the anonymous
one, or the request is answered without. -/
inductive Outcome where
  | called (session : Option Nat)
  | answered (result : ServiceResult)
deriving DecidableEq

namespace State

/-- The service is called for a session, `Service_CloseSession` if it is this one. -/
def callService (channel : Nat) (session : Session) (requestTypeId : UInt32) (now : Int)
    (s : State) : State × List Event :=
  let s' := s.updateSession session.address (Session.updateLifetime now)
  let event := Event.called session.address channel requestTypeId
  if requestTypeId = closeSessionRequest then
    let removed := s'.removeSession session.authenticationToken
    (removed.1, removed.2 ++ [event])
  else (s', [event])

/-- What `processMSG` does for the services but those that create and activate a session. -/
def processService (channel : Nat) (found : Option Session) (requestTypeId : UInt32) (now : Int)
    (s : State) : Outcome × State × List Event :=
  found.elim
    (if requiresSession requestTypeId then (.answered .badSessionIdInvalid, s, [])
      else (.called none, s, [])) (fun session =>
    if requiresSession requestTypeId && !session.activated then
      (.answered .badSessionNotActivated, s.removeSession session.authenticationToken)
    else if session.channel ≠ some channel then (.answered .badSecureChannelIdInvalid, s, [])
    else (.called (some session.address), s.callService channel session requestTypeId now))

/-- `processMSG` from where the request is decoded, at the time `now`; the service is called at the
time `now'`. -/
def processMSG (config : Config) (entry : ChannelEntry) (authenticationToken : Binary.NodeId)
    (request : Request) (now now' : Int) (s : State) : Outcome × State × List Event :=
  match request with
  | .createSession requestedSessionTimeout memory token copied =>
    let created :=
      s.createSession config entry.channel requestedSessionTimeout memory token copied now'
    (.answered created.1, created.2)
  | .activateSession identity memory =>
    (s.findSession entry.channel authenticationToken now).elim
      (.answered .badSessionIdInvalid, s, []) (fun session =>
        let activated := s.activateSession config entry.address session identity memory now'
        (.answered activated.1, activated.2))
  | .service requestTypeId =>
    if (getServicePointers requestTypeId).isNone then (.answered .badServiceUnsupported, s, [])
    else
      s.processService entry.address (s.findSession entry.channel authenticationToken now)
        requestTypeId now'

end State

/-! ### Runs -/

inductive Action where
  /-- A connection opens a channel. -/
  | openChannel (memory : Option Nat) (conn : Connection) (request : OpenSecureChannelRequest)
    (now : Int)
  /-- The channel with the id is closed. -/
  | closeChannel (channelId : UInt32)
  /-- A connection is lost. -/
  | disconnect (sockfd : Nat)
  /-- The server cleans up. -/
  | cleanup (now : Int)
  /-- A request arrives on the channel at the address. -/
  | request (channel : Nat) (authenticationToken : Binary.NodeId) (request : Request)
      (now now' : Int)

/-- The memory for a new session is not that of a session there is. -/
def Request.isFresh (s : State) : Request → Bool
  | .createSession _ memory _ _ => memory.all (fun address => (s.session address).isNone)
  | _ => true

/-- A step of the server, with its events.  The memory for a new channel may be that of a channel
that has been purged for it. -/
def State.step (config : Config) (s : State) : Action → Option (State × List Event)
  | .openChannel memory conn request now =>
    let room := ((s.makeRoom config).map Prod.fst).getD s
    if memory.all (fun address => (room.entry address).isNone) then
      some (s.openChannel config memory conn request now)
    else none
  | .closeChannel channelId => some (s.closeChannel channelId)
  | .disconnect sockfd => some (s.disconnect sockfd, [])
  | .cleanup now => some (s.cleanup now)
  | .request channel authenticationToken request now now' =>
    if request.isFresh s then
      (s.entry channel).map (fun entry =>
        (s.processMSG config entry authenticationToken request now now').2)
    else none

/-- The server with the history of its events. -/
def machine (config : Config) : Machine (State × List Event) Action where
  Init := fun s => s = (.init, [])
  step := fun s action => (s.1.step config action).map (fun r => (r.1, r.2 ++ s.2))

end Sessions
