import UaRateThrottling.Server.Sessions

/-!
# Pointers between sessions and channels

The events of a step say which sessions there are after it, and which channel each one is bound to.
The pointers between the sessions and the channels say the same, from both sides (`Sound.step`).
-/

namespace Sessions

open Transition UA

/-! ### What the events say -/

/-- The sessions there are, with their tokens, and the channels they are bound to. -/
structure View where
  token : Nat → Option Binary.NodeId
  bound : Nat → Option Nat

/-- No session. -/
def View.init : View := ⟨fun _ => none, fun _ => none⟩

/-- The view after an event. -/
def View.apply : Event → View → View
  | .created session token, v =>
    ⟨Function.update v.token session (some token), Function.update v.bound session none⟩
  | .activated session channel _, v =>
    ⟨v.token, Function.update v.bound session (some channel)⟩
  | .detached session, v => ⟨v.token, Function.update v.bound session none⟩
  | .removed session, v =>
    ⟨Function.update v.token session none, Function.update v.bound session none⟩
  | .closed channel, v =>
    ⟨v.token, fun session => if v.bound session = some channel then none else v.bound session⟩
  | .called _ _ _, v => v

/-- The view after more events, newest first. -/
def View.after (events : List Event) (v : View) : View := events.foldr View.apply v

theorem View.after_append (events events' : List Event) (v : View) :
  View.after (events ++ events') v = View.after events (View.after events' v)
  := List.foldr_append

/-- The credentials of all activations have been accepted. -/
def Accepted (config : Config) (history : List Event) : Prop :=
  ∀ session channel identity, .activated session channel identity ∈ history →
    checkIdentity config identity = .good

/-! ### What the pointers say -/

namespace State

/-- The channel that a session points to. -/
def owner (s : State) (session : Nat) : Option Nat := (s.session session).bind Session.channel

/-- The sessions that a channel lists. -/
def members (s : State) (channel : Nat) : List Nat :=
  (s.entry channel).elim [] (fun entry => entry.channel.sessions)

/-- The token of a session. -/
def token (s : State) (session : Nat) : Option Binary.NodeId :=
  (s.session session).map Session.authenticationToken

/-- What the pointers say of the sessions. -/
def view (s : State) : View := ⟨s.token, s.owner⟩

/-- The pointers between sessions and channels agree, and the sessions are counted. -/
structure Sound (config : Config) (s : State) : Prop where
  sessions_distinct : Records.Distinct Session.address s.sessions
  entries_distinct : Records.Distinct ChannelEntry.address s.entries
  linked : Linked s.owner s.members
  count_eq : s.currentSessionCount.toNat = s.sessions.length
  length_le : s.sessions.length ≤ config.maxSessions.toNat

/-- A session with a channel has been activated. -/
def Activated (s : State) : Prop :=
  ∀ session ∈ s.sessions, session.channel.isSome → session.activated

theorem owner_eq {s s' : State} {session : Nat} {x : Option Session}
    (h : s'.session = Function.update s.session session x) :
  s'.owner = Function.update s.owner session (x.bind Session.channel)
  := by
  have hcomp := Function.comp_update (fun x : Option Session => x.bind Session.channel)
    s.session session x
  rw [← h] at hcomp
  apply hcomp

theorem token_eq {s s' : State} {session : Nat} {x : Option Session}
    (h : s'.session = Function.update s.session session x) :
  s'.token = Function.update s.token session (x.map Session.authenticationToken)
  := by
  have hcomp := Function.comp_update (fun x : Option Session => x.map Session.authenticationToken)
    s.session session x
  rw [← h] at hcomp
  apply hcomp

theorem members_eq {s s' : State} {channel : Nat} {x : Option ChannelEntry}
    (h : s'.entry = Function.update s.entry channel x) :
  s'.members =
    Function.update s.members channel (x.elim [] (fun entry => entry.channel.sessions))
  := by
  have hcomp := Function.comp_update
    (fun x : Option ChannelEntry => x.elim [] (fun entry => entry.channel.sessions))
    s.entry channel x
  rw [← h] at hcomp
  apply hcomp

theorem session_updateSession (s : State) (session : Nat) {f : Session → Session}
    (hf : ∀ session, (f session).address = session.address) :
  (s.updateSession session f).session =
    Function.update s.session session ((s.session session).map f)
  := Records.get_modify hf session s.sessions

theorem entry_updateSessions (s : State) (channel : Nat) (f : List Nat → List Nat) :
  (s.updateSessions channel f).entry =
    Function.update s.entry channel ((s.entry channel).map (fun entry =>
      { entry with channel :=
          { entry.channel with sessions := f entry.channel.sessions } }))
  := Records.get_modify (by intro entry; rfl) channel s.entries

theorem members_updateSessions (s : State) (channel : Nat) {f : List Nat → List Nat}
    (hf : s.entry channel = none → f [] = []) :
  (s.updateSessions channel f).members =
    Function.update s.members channel (f (s.members channel))
  := by
  rw [members_eq (entry_updateSessions s channel f)]
  congr 1
  rw [members]
  cases h : s.entry channel with
  | none => exact (hf h).symm
  | some entry => rfl

theorem entry_isSome_of_mem {s : State} {channel session : Nat} (h : session ∈ s.members channel) :
  (s.entry channel).isSome
  := by
  rw [members] at h
  cases hentry : s.entry channel with
  | none =>
      rw [hentry] at h
      cases h
  | some entry => rfl

/-! ### What a step does -/

/-- The state after a step is sound, its pointers say what the events of the step do, and the events
activate sessions for good credentials only. -/
structure Leads (config : Config) (s : State) (r : State × List Event) : Prop where
  sound : r.1.Sound config
  view_eq : r.1.view = View.after r.2 s.view
  accepted : Accepted config r.2

variable {config : Config} {s : State}

theorem accepted_nil (config : Config) :
  Accepted config []
  := by
  intro session channel identity h
  cases h

theorem Sound.leads (hs : s.Sound config) :
  Leads config s (s, [])
  := ⟨hs, rfl, accepted_nil config⟩

/-- One step after the other. -/
theorem Leads.trans {r r' : State × List Event} (h : Leads config s r) (h' : Leads config r.1 r') :
  Leads config s (r'.1, r'.2 ++ r.2)
  := by
  constructor
  · apply h'.sound
  · rw [h'.view_eq, h.view_eq, View.after_append]
  · intro session channel identity hmem
    rcases List.mem_append.mp hmem with hmem | hmem
    · apply h'.accepted session channel identity hmem
    · apply h.accepted session channel identity hmem

/-- A session is changed, but neither its token nor its channel. -/
theorem Sound.updateSession (hs : s.Sound config) (session : Nat) {f : Session → Session}
    (haddress : ∀ session, (f session).address = session.address)
    (htoken : ∀ session, (f session).authenticationToken = session.authenticationToken)
    (hchannel : ∀ session, (f session).channel = session.channel) :
  Leads config s (s.updateSession session f, [])
  := by
  have hsession := session_updateSession s session haddress
  have howner : (s.updateSession session f).owner = s.owner := by
    rw [owner_eq hsession, Function.update_eq_self_iff, owner]
    cases s.session session with
    | none => rfl
    | some session => exact hchannel session
  have htoken' : (s.updateSession session f).token = s.token := by
    rw [token_eq hsession, Function.update_eq_self_iff, token]
    cases s.session session with
    | none => rfl
    | some session => exact congrArg some (htoken session)
  constructor
  · constructor
    · apply hs.sessions_distinct.modify haddress
    · apply hs.entries_distinct
    · rw [howner]
      apply hs.linked
    · exact hs.count_eq.trans (Records.length_modify _ _ _).symm
    · exact (Records.length_modify _ _ _).trans_le hs.length_le
  · rw [view, howner, htoken']
    rfl
  · apply accepted_nil

/-- `attachSession` links a session with a channel. -/
theorem Sound.attachSession (hs : s.Sound config) {channel session : Nat}
    (hchannel : (s.entry channel).isSome) (hsession : (s.session session).isSome)
    (howner : s.owner session = none ∨ s.owner session = some channel) {identity : IdentityToken}
    (hidentity : checkIdentity config identity = .good) :
  Leads config s (s.attachSession channel session, [.activated session channel identity])
  := by
  have haccepted : Accepted config [.activated session channel identity] := by
    intro session' channel' identity' h
    obtain ⟨-, -, rfl⟩ := Event.activated.inj (List.mem_singleton.mp h)
    apply hidentity
  rcases howner with hnone | hsome
  · have hsession' := session_updateSession s session
      (f := fun session => { session with channel := some channel }) (fun _ => rfl)
    have hattach : s.attachSession channel session =
        (s.updateSession session (fun session =>
          { session with channel := some channel })).updateSessions channel
            (fun sessions => session :: sessions) := by
      rw [State.attachSession, if_neg]
      rw [← owner, hnone]
      apply Bool.false_ne_true
    obtain ⟨entry, hentry⟩ := Option.isSome_iff_exists.mp hsession
    have howner' : (s.attachSession channel session).owner =
        Function.update s.owner session (some channel) := by
      rw [hattach]
      apply (owner_eq hsession').trans
      rw [hentry]
      rfl
    have htoken : (s.attachSession channel session).token = s.token := by
      rw [hattach]
      apply (token_eq hsession').trans
      rw [Function.update_eq_self_iff, token, hentry]
      rfl
    have hmembers : (s.attachSession channel session).members =
        Function.update s.members channel (session :: s.members channel) := by
      rw [hattach]
      apply members_updateSessions
      intro h
      rw [← Option.not_isSome_iff_eq_none] at h
      exact absurd hchannel h
    constructor
    · rw [hattach] at howner' hmembers ⊢
      constructor
      · apply hs.sessions_distinct.modify
        intro _
        rfl
      · apply hs.entries_distinct.modify
        intro _
        rfl
      · rw [howner', hmembers]
        apply hs.linked.link hnone
      · exact hs.count_eq.trans (Records.length_modify _ _ _).symm
      · exact (Records.length_modify _ _ _).trans_le hs.length_le
    · rw [view, howner', htoken]
      rfl
    · apply haccepted
  · have hattach : s.attachSession channel session = s := by
      rw [State.attachSession, if_pos]
      rw [← owner, hsome]
      rfl
    rw [hattach]
    refine ⟨hs, ?_, haccepted⟩
    rw [view, View.after, List.foldr_cons, List.foldr_nil, View.apply,
      Function.update_eq_self_iff.mpr hsome.symm]

theorem session_detachSession (s : State) (channel session : Nat) :
  (s.detachSession channel session).session =
    Function.update s.session session
      ((s.session session).map (fun session => { session with channel := none }))
  := session_updateSession s session (by intro session; rfl)

theorem owner_detachSession (s : State) (channel session : Nat) :
  (s.detachSession channel session).owner = Function.update s.owner session none
  := by
  rw [owner_eq (session_detachSession s channel session)]
  cases s.session session <;> rfl

/-- `detachSession` unlinks a session from its channel. -/
theorem Sound.detachSession (hs : s.Sound config) {channel session : Nat}
    (howner : s.owner session = some channel) :
  Leads config s (s.detachSession channel session, [.detached session])
  := by
  have howner' := owner_detachSession s channel session
  have htoken : (s.detachSession channel session).token = s.token := by
    rw [token_eq (session_detachSession s channel session), Function.update_eq_self_iff, token]
    cases s.session session <;> rfl
  have hmembers : (s.detachSession channel session).members =
      Function.update s.members channel ((s.members channel).erase session) := by
    apply members_updateSessions
    intro _
    rfl
  constructor
  · constructor
    · apply hs.sessions_distinct.modify
      intro _
      rfl
    · apply hs.entries_distinct.modify
      intro _
      rfl
    · rw [howner', hmembers]
      apply hs.linked.unlink howner
    · exact hs.count_eq.trans (Records.length_modify _ _ _).symm
    · exact (Records.length_modify _ _ _).trans_le hs.length_le
  · rw [view, howner', htoken]
    rfl
  · intro session channel identity h
    cases List.mem_singleton.mp h

/-- A single event that activates nothing. -/
theorem accepted_singleton {event : Event} (h : ∀ session channel identity,
    event ≠ .activated session channel identity) :
  Accepted config [event]
  := by
  intro session channel identity hmem
  exact absurd (List.mem_singleton.mp hmem).symm (h session channel identity)

/-- A session that has no channel is taken off the list. -/
theorem Sound.removeRecord (hs : s.Sound config) (session : Nat)
    (hsession : (s.session session).isSome) (howner : s.owner session = none) :
  Leads config s ({ s with
    sessions := Records.remove Session.address session s.sessions
    currentSessionCount := s.currentSessionCount - 1 }, [.removed session])
  := by
  obtain ⟨entry, hentry⟩ := Option.isSome_iff_exists.mp hsession
  have hlength := hs.sessions_distinct.length_remove hentry
  have hremove : State.session { s with
      sessions := Records.remove Session.address session s.sessions
      currentSessionCount := s.currentSessionCount - 1 } =
      Function.update s.session session none := Records.get_remove session s.sessions
  have howner' := owner_eq hremove
  constructor
  · constructor
    · apply hs.sessions_distinct.remove
    · apply hs.entries_distinct
    · rw [howner', Option.bind_none, ← howner, Function.update_eq_self]
      apply hs.linked
    · dsimp only
      have hcount := hs.count_eq
      have hone : (1 : UInt32) ≤ s.currentSessionCount := by
        rw [UInt32.le_iff_toNat_le, hcount, ← hlength]
        apply Nat.le_add_left
      rw [UInt32.toNat_sub_of_le _ _ hone, hcount, ← hlength]
      rfl
    · apply Nat.le_of_succ_le (hlength.trans_le hs.length_le)
  · rw [view, howner', token_eq hremove]
    rfl
  · apply accepted_singleton
    intro _ _ _ h
    cases h

theorem Sound.removeSessionEntry (hs : s.Sound config) (session : Nat) :
  Leads config s (s.removeSessionEntry session)
  := by
  rw [State.removeSessionEntry]
  cases hsession : s.session session with
  | none => exact hs.leads
  | some entry =>
      rw [Option.elim_some]
      have howner : s.owner session = entry.channel := by
        rw [owner, hsession]
        rfl
      cases hchannel : entry.channel with
      | none =>
          apply hs.removeRecord
          · rw [hsession]
            rfl
          · rw [howner, hchannel]
      | some channel =>
          have hdetach := hs.detachSession (howner.trans hchannel)
          have hremove := hdetach.sound.removeRecord session (by
              rw [session_detachSession, Function.update_self, hsession]
              rfl) (by rw [owner_detachSession, Function.update_self])
          refine ⟨hremove.sound, ?_, hremove.accepted⟩
          have hview := (hdetach.trans hremove).view_eq
          rw [Option.elim_some, hview]
          -- the session is detached on the way, but then it is removed
          simp only [View.after, List.foldr_append, List.foldr_cons, List.foldr_nil, View.apply,
            Function.update_idem]

/-- `UA_SessionManager_removeSession` -/
theorem Sound.removeSession (hs : s.Sound config) (token : Binary.NodeId) :
  Leads config s (s.removeSession token)
  := by
  rw [State.removeSession]
  cases s.sessions.find? (fun session => session.authenticationToken = token) with
  | none => exact hs.leads
  | some session => exact hs.removeSessionEntry session.address

theorem session_releaseSessions (s : State) (sessions : List Nat) (session : Nat) :
  (s.releaseSessions sessions).session session =
    (s.session session).map (fun session =>
      if session.address ∈ sessions then { session with channel := none } else session)
  := by
  apply Records.get_map
  intro session
  split <;> rfl

theorem owner_releaseSessions (s : State) (sessions : List Nat) :
  (s.releaseSessions sessions).owner =
    fun session => if session ∈ sessions then none else s.owner session
  := by
  funext session
  rw [owner, session_releaseSessions, owner]
  cases h : s.session session with
  | none => simp
  | some entry =>
      rw [← (Records.of_get h).2]
      by_cases hmem : entry.address ∈ sessions
      · simp [hmem]
      · simp [hmem]

theorem token_releaseSessions (s : State) (sessions : List Nat) :
  (s.releaseSessions sessions).token = s.token
  := by
  funext session
  rw [token, session_releaseSessions, token, Option.map_map]
  congr 1
  funext session
  rw [Function.comp_apply]
  split <;> rfl

/-- A channel is taken off the list, and its sessions lose their pointers. -/
theorem Sound.removeSecureChannel (hs : s.Sound config) (channel : Nat) :
  Leads config s (s.removeSecureChannel channel)
  := by
  rw [State.removeSecureChannel]
  cases hentry : s.entry channel with
  | none => exact hs.leads
  | some entry =>
      have hmember : entry.channel.sessions = s.members channel := by
        rw [members, hentry]
        rfl
      have howner := owner_releaseSessions s entry.channel.sessions
      have hentries : State.entry { s.releaseSessions entry.channel.sessions with
          entries := Records.remove ChannelEntry.address channel s.entries
          currentChannelCount := s.currentChannelCount - 1 } =
          Function.update s.entry channel none := Records.get_remove channel s.entries
      constructor
      · constructor
        · apply hs.sessions_distinct.map
          intro session
          split <;> rfl
        · apply hs.entries_distinct.remove
        · rw [Option.elim_some, members_eq hentries]
          have hrelease := hs.linked.release channel
          rw [← hmember, ← howner] at hrelease
          apply hrelease
        · exact hs.count_eq.trans (List.length_map _).symm
        · exact (List.length_map _).trans_le hs.length_le
      · have hbound : State.owner { s.releaseSessions entry.channel.sessions with
            entries := Records.remove ChannelEntry.address channel s.entries
            currentChannelCount := s.currentChannelCount - 1 } =
            fun session => if s.owner session = some channel then none else s.owner session := by
          apply howner.trans
          funext session
          simp only [hmember, hs.linked.mem_iff]
        rw [Option.elim_some, view, hbound]
        congr 1
        apply token_releaseSessions
      · apply accepted_singleton
        intro _ _ _ h
        cases h

/-- The removals of a loop. -/
theorem Sound.removeEach {remove : Nat → State → State × List Event}
    (hremove : ∀ {s : State}, s.Sound config → ∀ address, Leads config s (remove address s))
    (addresses : List Nat) (hs : s.Sound config) :
  Leads config s (removeEach remove addresses s)
  := by
  induction addresses generalizing s with
  | nil => exact hs.leads
  | cons address addresses ih =>
      have hfirst := hremove hs address
      exact hfirst.trans (ih hfirst.sound)

/-- The channels are changed, but not their sessions. -/
theorem Sound.mapChannels (hs : s.Sound config) {f : SecureChannel → SecureChannel}
    (hf : ∀ channel, (f channel).sessions = channel.sessions) :
  Leads config s ({ s with entries := s.entries.map (fun entry =>
      { entry with channel := f entry.channel }) }, [])
  := by
  have hmembers : State.members { s with entries := s.entries.map (fun entry =>
      { entry with channel := f entry.channel }) } = s.members := by
    funext channel
    rw [members, entry, Records.get_map (by intro entry; rfl), members, entry]
    cases Records.get ChannelEntry.address s.entries channel with
    | none => rfl
    | some entry => exact hf entry.channel
  refine ⟨?_, rfl, accepted_nil config⟩
  constructor
  · apply hs.sessions_distinct
  · apply hs.entries_distinct.map
    intro entry
    rfl
  · rw [hmembers]
    apply hs.linked
  · apply hs.count_eq
  · apply hs.length_le

theorem Sound.cleanupSessions (hs : s.Sound config) (now : Int) :
  Leads config s (s.cleanupSessions now)
  := by
  apply Sound.removeEach _ _ hs
  intro s hs
  apply hs.removeSessionEntry

theorem Sound.cleanup (hs : s.Sound config) (now : Int) :
  Leads config s (s.cleanup now)
  := by
  have hsessions := hs.cleanupSessions now
  have hremoved := Sound.removeEach (fun {s} hs channel => Sound.removeSecureChannel hs channel)
    (((s.cleanupSessions now).1.entries.filter (fun entry =>
      SecureChannelManager.isTimedOut now entry.channel)).map ChannelEntry.address)
    hsessions.sound
  have hcleaned := hremoved.trans (hremoved.sound.mapChannels (f := SecureChannelManager.cleanedUp)
    (by
      intro channel
      rw [SecureChannelManager.cleanedUp, SecureChannel.revolveTokens]
      split
      · split <;> rfl
      · rfl))
  exact hsessions.trans hcleaned

theorem Sound.closeChannel (hs : s.Sound config) (channelId : UInt32) :
  Leads config s (s.closeChannel channelId)
  := by
  rw [State.closeChannel]
  cases s.entries.find? (fun entry => SecureChannelManager.hasId channelId entry.channel) with
  | none => exact hs.leads
  | some entry => exact hs.removeSecureChannel entry.address

theorem Sound.disconnect (hs : s.Sound config) (sockfd : Nat) :
  Leads config s (s.disconnect sockfd, [])
  := by
  apply hs.mapChannels
  intro channel
  rw [SecureChannel.detach]
  split <;> rfl

theorem Sound.makeRoom (hs : s.Sound config) {r : State × List Event}
    (h : s.makeRoom config = some r) :
  Leads config s r
  := by
  rw [State.makeRoom] at h
  split at h
  · obtain ⟨entry, -, rfl⟩ := Option.map_eq_some_iff.mp h
    apply hs.removeSecureChannel
  · obtain rfl := Option.some.inj h
    apply hs.leads

/-- A channel without sessions is put on the list. -/
theorem Sound.addEntry (hs : s.Sound config) (entry : ChannelEntry)
    (hfresh : s.entry entry.address = none) (hnew : entry.channel.sessions = [])
    (channelId tokenId count : UInt32) :
  Leads config s ({ s with
    entries := entry :: s.entries
    lastChannelId := channelId
    lastTokenId := tokenId
    currentChannelCount := count }, [])
  := by
  have hentries : State.entry { s with
      entries := entry :: s.entries
      lastChannelId := channelId
      lastTokenId := tokenId
      currentChannelCount := count } = Function.update s.entry entry.address (some entry) :=
    Records.get_cons entry s.entries
  have hmembers := members_eq hentries
  have hempty : s.members entry.address = [] := by
    rw [members, hfresh]
    rfl
  rw [Option.elim_some, hnew, ← hempty, Function.update_eq_self] at hmembers
  refine ⟨?_, rfl, accepted_nil config⟩
  constructor
  · apply hs.sessions_distinct
  · apply hs.entries_distinct.cons hfresh
  · rw [hmembers]
    apply hs.linked
  · apply hs.count_eq
  · apply hs.length_le

theorem Sound.openChannel (hs : s.Sound config) {memory : Option Nat} (conn : Connection)
    (request : OpenSecureChannelRequest) (now : Int)
    (hmemory : ∀ address ∈ memory,
      (((s.makeRoom config).map Prod.fst).getD s).entry address = none) :
  Leads config s (s.openChannel config memory conn request now)
  := by
  rw [State.openChannel]
  split
  · apply hs.leads
  · cases hroom : s.makeRoom config with
    | none => exact hs.leads
    | some r =>
        have hleads := hs.makeRoom hroom
        rw [hroom, Option.map_some, Option.getD_some] at hmemory
        cases memory with
        | none => exact hleads
        | some address =>
            exact hleads.trans (hleads.sound.addEntry
              ⟨address, (r.1.secureChannelManager config).newChannel conn request now⟩
              (hmemory address rfl) rfl _ _ _)

/-- A session is put on the list. -/
theorem Sound.addRecord (hs : s.Sound config) (session : Session)
    (hfresh : s.session session.address = none) (hchannel : session.channel = none)
    (hroom : s.currentSessionCount.toNat < config.maxSessions.toNat) :
  Leads config s ({ s with
    sessions := session :: s.sessions
    currentSessionCount := s.currentSessionCount + 1 },
    [.created session.address session.authenticationToken])
  := by
  have hsession : State.session { s with
      sessions := session :: s.sessions
      currentSessionCount := s.currentSessionCount + 1 } =
      Function.update s.session session.address (some session) :=
    Records.get_cons session s.sessions
  have howner := owner_eq hsession
  have hnone : s.owner session.address = none := by
    rw [owner, hfresh]
    rfl
  rw [Option.bind_some, hchannel] at howner
  constructor
  · constructor
    · apply hs.sessions_distinct.cons hfresh
    · apply hs.entries_distinct
    · rw [howner, ← hnone, Function.update_eq_self]
      apply hs.linked
    · dsimp only
      have hbound := config.maxSessions.toNat_lt
      rw [UInt32.toNat_add, UInt32.toNat_one, Nat.mod_eq_of_lt (by omega), hs.count_eq,
        List.length_cons]
    · have hcount := hs.count_eq
      rw [List.length_cons]
      omega
  · rw [view, howner, token_eq hsession]
    rfl
  · apply accepted_singleton
    intro _ _ _ h
    cases h

theorem Sound.createSession (hs : s.Sound config) (channel : SecureChannel) (timeout : ℚ)
    {memory : Option Nat} (token : Zuth.Guid) (copied : Bool) (now : Int)
    (hmemory : ∀ address ∈ memory, s.session address = none) :
  Leads config s (s.createSession config channel timeout memory token copied now).2
  := by
  rw [State.createSession]
  split
  · apply hs.leads
  split
  · apply hs.leads
  next hroom =>
  cases memory with
  | none => exact hs.leads
  | some address =>
      rw [Option.elim_some]
      have hadd := hs.addRecord (Session.updateLifetime now {
        address := address
        authenticationToken := ⟨1, .guid token⟩
        activated := false
        timeout := if timeout ≤ config.maxSessionTimeout ∧ timeout > 0 then timeout
          else config.maxSessionTimeout
        validTill := 0
        channel := none }) (hmemory address rfl) rfl (Nat.lt_of_not_ge hroom)
      cases copied with
      | true => exact hadd
      | false => exact hadd.trans (hadd.sound.removeSession ⟨1, .guid token⟩)

theorem entry_isSome_detachSession {channel : Nat} (h : (s.entry channel).isSome)
    (channel' session : Nat) :
  ((s.detachSession channel' session).entry channel).isSome
  := by
  have hentry : (s.detachSession channel' session).entry =
    Function.update s.entry channel' _ := entry_updateSessions _ channel' _
  rw [hentry]
  by_cases hc : channel = channel'
  · subst hc
    rw [Function.update_self, Option.isSome_map]
    apply h
  · rw [Function.update_of_ne hc]
    apply h

/-- The session is attached, if it is not yet and there is memory for it, and activated. -/
theorem Sound.attachAndActivate (hs : s.Sound config) {channel : Nat} (session : Nat)
    (hchannel : (s.entry channel).isSome) (hsession : (s.session session).isSome)
    {identity : IdentityToken} (hidentity : checkIdentity config identity = .good)
    (howner : s.owner session = none ∨ s.owner session = some channel) (attached : Prop)
    [Decidable attached] (hattached : attached ↔ s.owner session = some channel) (memory : Bool)
    (now : Int) :
  Leads config s
    ((if memory then s.attachSession channel session else s).updateSession session (fun session =>
      { session with activated := true }.updateLifetime now),
      if memory ∨ attached then [.activated session channel identity] else [])
  := by
  have hactivate {s : State} (hs : s.Sound config) : Leads config s
      (s.updateSession session (fun session =>
        { session with activated := true }.updateLifetime now), []) :=
    hs.updateSession session (fun _ => rfl) (fun _ => rfl) (fun _ => rfl)
  have hattach := hs.attachSession hchannel hsession howner hidentity
  cases memory with
  | true =>
      rw [if_pos rfl, if_pos (Or.inl rfl)]
      exact hattach.trans (hactivate hattach.sound)
  | false =>
      rw [if_neg Bool.false_ne_true]
      by_cases hp : attached
      · rw [if_pos (Or.inr hp)]
        have hsame : s.attachSession channel session = s := by
          rw [State.attachSession, if_pos]
          rw [← owner, hattached.mp hp]
          rfl
        rw [hsame] at hattach
        exact hattach.trans (hactivate hs)
      · rw [if_neg (by simpa using hp)]
        apply hactivate hs

theorem Sound.activateSession (hs : s.Sound config) {channel : Nat} {session : Session}
    (hchannel : (s.entry channel).isSome) (hsession : s.session session.address = some session)
    (identity : IdentityToken) (memory : Bool) (now : Int) :
  Leads config s (s.activateSession config channel session identity memory now).2
  := by
  rw [State.activateSession]
  split
  · apply hs.leads
  split
  · apply hs.leads
  next hidentity =>
  rw [not_not] at hidentity
  have howner : s.owner session.address = session.channel := by
    rw [owner, hsession]
    rfl
  have hsome : (s.session session.address).isSome := by
    rw [hsession]
    rfl
  cases hold : session.channel with
  | none =>
      rw [hold] at howner
      have hactivate := hs.attachAndActivate session.address hchannel hsome hidentity
        (Or.inl howner) (none = some channel) (by rw [howner]) memory now
      exact hs.leads.trans hactivate
  | some old =>
      rw [hold] at howner
      by_cases hother : old = channel
      · subst hother
        have hactivate := hs.attachAndActivate session.address hchannel hsome hidentity
          (Or.inr howner) (some old = some old) (by rw [howner]) memory now
        have hfilter : (some old).filter (fun old' => decide (old' ≠ old)) = none := by simp
        dsimp only
        rw [hfilter]
        exact hs.leads.trans hactivate
      · -- the session leaves the other channel first
        have hdetach := hs.detachSession howner
        have hnone : (s.detachSession old session.address).owner session.address = none := by
          rw [owner_detachSession, Function.update_self]
        have hactivate := hdetach.sound.attachAndActivate session.address
          (entry_isSome_detachSession hchannel old session.address) (by
            rw [session_detachSession, Function.update_self, hsession]
            rfl) hidentity (Or.inl hnone) (some old = some channel) (by
            rw [hnone]
            simp [hother]) memory now
        have hfilter : (some old).filter (fun old' => decide (old' ≠ channel)) = some old := by
          simp [hother]
        dsimp only
        rw [hfilter]
        exact hdetach.trans hactivate

/-- A call of a service changes nothing of the sessions. -/
theorem Leads.called {r : State × List Event} (h : Leads config s r)
    (session channel : Nat) (requestTypeId : UInt32) :
  Leads config s (r.1, r.2 ++ [.called session channel requestTypeId])
  := by
  constructor
  · apply h.sound
  · rw [h.view_eq, View.after_append]
    rfl
  · intro session' channel' identity hmem
    rcases List.mem_append.mp hmem with hmem | hmem
    · apply h.accepted session' channel' identity hmem
    · cases List.mem_singleton.mp hmem

theorem Sound.callService (hs : s.Sound config) (channel : Nat) (session : Session)
    (requestTypeId : UInt32) (now : Int) :
  Leads config s (s.callService channel session requestTypeId now)
  := by
  have hupdate : Leads config s
      (s.updateSession session.address (Session.updateLifetime now), []) :=
    hs.updateSession session.address (fun _ => rfl) (fun _ => rfl) (fun _ => rfl)
  rw [State.callService]
  dsimp only
  split
  · have hremove := hupdate.trans (hupdate.sound.removeSession session.authenticationToken)
    rw [List.append_nil] at hremove
    exact hremove.called session.address channel requestTypeId
  · exact hupdate.called session.address channel requestTypeId

theorem Sound.processService (hs : s.Sound config) (channel : Nat) (found : Option Session)
    (requestTypeId : UInt32) (now : Int) :
  Leads config s (s.processService channel found requestTypeId now).2
  := by
  rw [State.processService]
  cases found with
  | none =>
      rw [Option.elim_none]
      split <;> exact hs.leads
  | some session =>
      rw [Option.elim_some]
      split
      · apply hs.removeSession
      split
      · apply hs.leads
      · apply hs.callService

/-- A session that a request names is one of the server. -/
theorem of_findSession {channel : SecureChannel} {token : Binary.NodeId} {now : Int}
    {session : Session} (hs : s.Sound config) (h : s.findSession channel token now = some session) :
  s.session session.address = some session ∧ session.authenticationToken = token
  := by
  rw [findSession, Option.or_eq_some_iff] at h
  rcases h with h | ⟨-, h⟩
  · rw [channelSession] at h
    obtain ⟨address, -, hsession⟩ := List.mem_filterMap.mp (List.mem_of_find?_eq_some h)
    rw [(Records.of_get hsession).2]
    use hsession
    simpa using List.find?_some h
  · rw [managerSession, Option.filter_eq_some_iff] at h
    use hs.sessions_distinct.get_eq (List.mem_of_find?_eq_some h.1)
    simpa using List.find?_some h.1

theorem Sound.processMSG (hs : s.Sound config) {entry : ChannelEntry}
    (hentry : s.entry entry.address = some entry) (token : Binary.NodeId) {request : Request}
    (hrequest : request.isFresh s) (now now' : Int) :
  Leads config s (s.processMSG config entry token request now now').2
  := by
  cases request with
  | createSession timeout memory token' copied =>
      apply hs.createSession
      intro address hmem
      rw [Option.mem_def.mp hmem] at hrequest
      simpa [Request.isFresh] using hrequest
  | activateSession identity memory =>
      rw [State.processMSG]
      cases hfound : s.findSession entry.channel token now with
      | none => exact hs.leads
      | some session =>
          apply hs.activateSession _ (of_findSession hs hfound).1
          rw [hentry]
          rfl
  | service requestTypeId =>
      rw [State.processMSG]
      split
      · exact hs.leads
      · apply hs.processService

/-- Every step of the server. -/
theorem Sound.step (hs : s.Sound config) {action : Action} {r : State × List Event}
    (h : s.step config action = some r) :
  Leads config s r
  := by
  cases action with
  | openChannel memory conn request now =>
      rw [State.step] at h
      split at h
      · next hfresh =>
          obtain rfl := Option.some.inj h
          apply hs.openChannel
          intro address hmem
          rw [Option.mem_def.mp hmem] at hfresh
          simpa using hfresh
      · cases h
  | closeChannel channelId =>
      obtain rfl := Option.some.inj h
      apply hs.closeChannel
  | disconnect sockfd =>
      obtain rfl := Option.some.inj h
      apply hs.disconnect
  | cleanup now =>
      obtain rfl := Option.some.inj h
      apply hs.cleanup
  | request channel token request now now' =>
      rw [State.step] at h
      split at h
      · next hfresh =>
          obtain ⟨entry, hentry, rfl⟩ := Option.map_eq_some_iff.mp h
          have haddress := (Records.of_get hentry).2
          apply hs.processMSG _ token hfresh
          rw [haddress]
          apply hentry
      · cases h

end State

end Sessions
