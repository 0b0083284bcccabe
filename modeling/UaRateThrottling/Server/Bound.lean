import UaRateThrottling.Server.Pointers

/-!
# Calls of services

The history of a server says which channel a session is bound to: the one it was activated on last,
unless it has been detached or removed since, or the channel has been closed.  A service is called
for a session if and only if the history binds the session to the channel that the request came on
(`called_iff`).
-/

namespace Sessions

open Transition UA

/-! ### What the history says -/

/-- The last event of the one kind is followed by none of the other kind. -/
def LastOf (P Q : Event → Prop) (history : List Event) : Prop :=
  ∃ later event earlier, history = later ++ event :: earlier ∧ P event ∧ ∀ e ∈ later, ¬Q e

theorem lastOf_cons_iff {P Q : Event → Prop} {event : Event} {history : List Event} :
  LastOf P Q (event :: history) ↔ P event ∨ ¬Q event ∧ LastOf P Q history
  := by
  constructor
  · rintro ⟨later, e, earlier, h, hP, hQ⟩
    cases later with
    | nil =>
        left
        rw [(List.cons.inj h).1]
        apply hP
    | cons first later =>
        obtain ⟨rfl, rfl⟩ := List.cons.inj h
        right
        use hQ _ List.mem_cons_self, later, e, earlier, rfl, hP
        intro e he
        apply hQ e (List.mem_cons_of_mem _ he)
  · rintro (hP | ⟨hQ, later, e, earlier, rfl, hP, hlater⟩)
    · use [], event, history, rfl, hP
      intro e he
      cases he
    · use event :: later, e, earlier, rfl, hP
      intro e he
      rcases List.mem_cons.mp he with rfl | he
      · apply hQ
      · apply hlater e he

/-- The session has been created with the token, and has not been removed since. -/
def Alive (history : List Event) (session : Nat) (token : Binary.NodeId) : Prop :=
  LastOf (· = .created session token)
    (fun e => e = .removed session ∨ ∃ token, e = .created session token) history

/-- The session has been activated on the channel with credentials that the server accepts, and
since then it has not been activated again, detached or removed, and the channel has not been
closed. -/
def Bound (config : Config) (history : List Event) (session channel : Nat) : Prop :=
  LastOf (fun e => ∃ identity, e = .activated session channel identity ∧
      checkIdentity config identity = .good)
    (fun e => (∃ channel identity, e = .activated session channel identity) ∨
      e = .detached session ∨ e = .removed session ∨ (∃ token, e = .created session token) ∨
      e = .closed channel) history

theorem token_after_iff {history : List Event} {session : Nat} {token : Binary.NodeId} :
  (View.after history View.init).token session = some token ↔ Alive history session token
  := by
  induction history with
  | nil =>
      constructor
      · intro h
        cases h
      · rintro ⟨later, event, earlier, h, -⟩
        simp at h
  | cons event history ih =>
      rw [Alive, lastOf_cons_iff, ← Alive, ← ih, View.after, List.foldr_cons, ← View.after]
      cases event with
      | created session' token' =>
          by_cases h : session' = session
          · subst h
            simp [View.apply]
          · simp [View.apply, h, Function.update_of_ne (Ne.symm h)]
      | removed session' =>
          by_cases h : session' = session
          · subst h
            simp [View.apply]
          · simp [View.apply, h, Function.update_of_ne (Ne.symm h)]
      | _ => simp [View.apply]

theorem bound_after_iff {config : Config} {history : List Event} (h : Accepted config history)
    {session channel : Nat} :
  (View.after history View.init).bound session = some channel ↔
    Bound config history session channel
  := by
  induction history with
  | nil =>
      constructor
      · intro h
        cases h
      · rintro ⟨later, event, earlier, h, -⟩
        simp at h
  | cons event history ih =>
      have hrest : Accepted config history := by
        intro session channel identity hmem
        apply h session channel identity (List.mem_cons_of_mem _ hmem)
      rw [Bound, lastOf_cons_iff, ← Bound, ← ih hrest, View.after, List.foldr_cons, ← View.after]
      cases event with
      | created session' token =>
          by_cases hs : session' = session
          · subst hs
            simp [View.apply]
          · simp [View.apply, hs, Function.update_of_ne (Ne.symm hs)]
      | activated session' channel' identity =>
          have hgood := h session' channel' identity List.mem_cons_self
          by_cases hs : session' = session
          · subst hs
            simp [View.apply, hgood]
          · simp [View.apply, hs, Function.update_of_ne (Ne.symm hs)]
      | detached session' =>
          by_cases hs : session' = session
          · subst hs
            simp [View.apply]
          · simp [View.apply, hs, Function.update_of_ne (Ne.symm hs)]
      | removed session' =>
          by_cases hs : session' = session
          · subst hs
            simp [View.apply]
          · simp [View.apply, hs, Function.update_of_ne (Ne.symm hs)]
      | closed channel' =>
          by_cases hc : (View.after history View.init).bound session = some channel'
          · simp [View.apply, hc]
          · have hne : (View.after history View.init).bound session = some channel →
                channel' ≠ channel := by
              rintro hbound rfl
              apply hc hbound
            simp only [View.apply, if_neg hc]
            constructor
            · intro hbound
              right
              simpa using ⟨hne hbound, hbound⟩
            · rintro (⟨_, h, -⟩ | ⟨-, hbound⟩)
              · cases h
              · apply hbound
      | called _ _ _ => simp [View.apply]

namespace State

variable {config : Config} {s : State}

/-! ### Sessions with channels are activated -/

theorem Activated.updateSession (hs : s.Activated) (session : Nat) {f : Session → Session}
    (hf : ∀ session : Session, (session.channel.isSome → session.activated) →
      (f session).channel.isSome → (f session).activated) :
  (s.updateSession session f).Activated
  := by
  intro changed hmem
  obtain ⟨old, hold, rfl⟩ := List.mem_map.mp hmem
  split
  · apply hf old (hs old hold)
  · apply hs old hold

theorem Activated.detachSession (hs : s.Activated) (channel session : Nat) :
  (s.detachSession channel session).Activated
  := by
  apply Activated.updateSession hs
  intro session _ h
  cases h

theorem Activated.removeSessionEntry (hs : s.Activated) (session : Nat) :
  (s.removeSessionEntry session).1.Activated
  := by
  rw [State.removeSessionEntry]
  cases s.session session with
  | none => exact hs
  | some entry =>
      have hdetached : (entry.channel.elim s (fun channel =>
          s.detachSession channel session)).Activated := by
        cases entry.channel with
        | none => exact hs
        | some channel => exact hs.detachSession channel session
      intro other hmem
      apply hdetached other (List.mem_of_mem_filter hmem)

theorem Activated.removeSession (hs : s.Activated) (token : Binary.NodeId) :
  (s.removeSession token).1.Activated
  := by
  rw [State.removeSession]
  cases s.sessions.find? (fun session => session.authenticationToken = token) with
  | none => exact hs
  | some session => exact hs.removeSessionEntry session.address

theorem Activated.removeSecureChannel (hs : s.Activated) (channel : Nat) :
  (s.removeSecureChannel channel).1.Activated
  := by
  rw [State.removeSecureChannel]
  cases s.entry channel with
  | none => exact hs
  | some entry =>
      intro changed hmem
      obtain ⟨old, hold, rfl⟩ := List.mem_map.mp hmem
      split
      · intro h
        cases h
      · apply hs old hold

theorem Activated.removeEach {remove : Nat → State → State × List Event}
    (hremove : ∀ {s : State}, s.Activated → ∀ address, (remove address s).1.Activated)
    (addresses : List Nat) (hs : s.Activated) :
  (removeEach remove addresses s).1.Activated
  := by
  induction addresses generalizing s with
  | nil => exact hs
  | cons address addresses ih => exact ih (hremove hs address)

theorem Activated.cleanup (hs : s.Activated) (now : Int) :
  (s.cleanup now).1.Activated
  := by
  have hsessions : (s.cleanupSessions now).1.Activated :=
    Activated.removeEach Activated.removeSessionEntry _ hs
  exact Activated.removeEach Activated.removeSecureChannel _ hsessions

theorem Activated.makeRoom (hs : s.Activated) {r : State × List Event}
    (h : s.makeRoom config = some r) :
  r.1.Activated
  := by
  rw [State.makeRoom] at h
  split at h
  · obtain ⟨entry, -, rfl⟩ := Option.map_eq_some_iff.mp h
    apply hs.removeSecureChannel
  · obtain rfl := Option.some.inj h
    apply hs

theorem Activated.openChannel (hs : s.Activated) (memory : Option Nat) (conn : Connection)
    (request : OpenSecureChannelRequest) (now : Int) :
  (s.openChannel config memory conn request now).1.Activated
  := by
  rw [State.openChannel]
  split
  · apply hs
  · cases hroom : s.makeRoom config with
    | none => exact hs
    | some r =>
        have hactivated := hs.makeRoom hroom
        cases memory <;> exact hactivated

theorem Activated.createSession (hs : s.Activated) (channel : SecureChannel) (timeout : ℚ)
    (memory : Option Nat) (token : Zuth.Guid) (copied : Bool) (now : Int) :
  (s.createSession config channel timeout memory token copied now).2.1.Activated
  := by
  rw [State.createSession]
  split
  · apply hs
  split
  · apply hs
  cases memory with
  | none => exact hs
  | some address =>
      rw [Option.elim_some]
      dsimp only
      generalize hnew : Session.updateLifetime now _ = new
      have hadded : State.Activated { s with
          sessions := new :: s.sessions
          currentSessionCount := s.currentSessionCount + 1 } := by
        intro session hmem
        rcases List.mem_cons.mp hmem with rfl | hmem
        · intro h
          rw [← hnew] at h
          cases h
        · apply hs session hmem
      cases copied with
      | true => exact hadded
      | false => exact hadded.removeSession _

theorem Activated.activateSession (hs : s.Activated) (channel : Nat) (session : Session)
    (identity : IdentityToken) (memory : Bool) (now : Int) :
  (s.activateSession config channel session identity memory now).2.1.Activated
  := by
  rw [State.activateSession]
  split
  · apply hs
  split
  · apply hs
  dsimp only
  generalize session.channel.filter (fun old => old ≠ channel) = old
  have hdetached : (old.elim s (fun old => s.detachSession old session.address)).Activated := by
    cases old with
    | none => exact hs
    | some old => exact hs.detachSession old session.address
  generalize old.elim s (fun old => s.detachSession old session.address) = s' at hdetached
  -- attaching changes only the session that is activated next
  have hothers : ∀ other ∈ (if memory then s'.attachSession channel session.address
      else s').sessions, other.address ≠ session.address →
      other.channel.isSome → other.activated := by
    intro other hmem hne
    split at hmem
    · rw [State.attachSession] at hmem
      split at hmem
      · apply hdetached other hmem
      · obtain ⟨old, hold, rfl⟩ := List.mem_map.mp hmem
        by_cases haddress : old.address = session.address
        · rw [if_pos haddress] at hne
          exact absurd haddress hne
        · rw [if_neg haddress]
          apply hdetached old hold
    · apply hdetached other hmem
  intro changed hmem
  obtain ⟨other, hother, rfl⟩ := List.mem_map.mp hmem
  dsimp only
  split
  · intro _
    rfl
  · next hne => apply hothers other hother hne

theorem Activated.processService (hs : s.Activated) (channel : Nat) (found : Option Session)
    (requestTypeId : UInt32) (now : Int) :
  (s.processService channel found requestTypeId now).2.1.Activated
  := by
  rw [State.processService]
  cases found with
  | none =>
      rw [Option.elim_none]
      split <;> exact hs
  | some session =>
      rw [Option.elim_some]
      split
      · apply hs.removeSession
      split
      · apply hs
      · have hupdate := hs.updateSession session.address (f := Session.updateLifetime now)
          (fun _ h => h)
        dsimp only
        rw [State.callService]
        dsimp only
        split
        · apply hupdate.removeSession
        · apply hupdate

theorem Activated.processMSG (hs : s.Activated) (entry : ChannelEntry) (token : Binary.NodeId)
    (request : Request) (now now' : Int) :
  (s.processMSG config entry token request now now').2.1.Activated
  := by
  cases request with
  | createSession timeout memory token' copied => apply hs.createSession
  | activateSession identity memory =>
      rw [State.processMSG]
      cases s.findSession entry.channel token now with
      | none => exact hs
      | some session => exact hs.activateSession _ _ _ _ _
  | service requestTypeId =>
      rw [State.processMSG]
      split
      · exact hs
      · apply hs.processService

theorem Activated.step (hs : s.Activated) {action : Action} {r : State × List Event}
    (h : s.step config action = some r) :
  r.1.Activated
  := by
  cases action with
  | openChannel memory conn request now =>
      rw [State.step] at h
      split at h
      · obtain rfl := Option.some.inj h
        apply hs.openChannel
      · cases h
  | closeChannel channelId =>
      obtain rfl := Option.some.inj h
      rw [State.closeChannel]
      cases s.entries.find? (fun entry => SecureChannelManager.hasId channelId entry.channel) with
      | none => exact hs
      | some entry => exact hs.removeSecureChannel entry.address
  | disconnect sockfd =>
      obtain rfl := Option.some.inj h
      apply hs
  | cleanup now =>
      obtain rfl := Option.some.inj h
      apply hs.cleanup
  | request channel token request now now' =>
      rw [State.step] at h
      split at h
      · obtain ⟨entry, -, rfl⟩ := Option.map_eq_some_iff.mp h
        apply hs.processMSG
      · cases h

end State

/-! ### Runs -/

variable {config : Config}

theorem sound_init (config : Config) :
  State.init.Sound config
  := by
  constructor
  · apply List.nodup_nil
  · apply List.nodup_nil
  · constructor
    · intro channel
      apply List.nodup_nil
    · intro session channel
      constructor
      · intro h
        cases h
      · intro h
        cases h
  · rfl
  · apply Nat.zero_le

/-- The pointers of a server say what its history says. -/
theorem tracks_of_reachable {s : State} {history : List Event}
    (h : (machine config).Reachable (s, history)) :
  s.Sound config ∧ s.Activated ∧ s.view = View.after history View.init ∧ Accepted config history
  := by
  apply h.invariant (P := fun r => r.1.Sound config ∧ r.1.Activated ∧
    r.1.view = View.after r.2 View.init ∧ Accepted config r.2)
  · rintro r rfl
    use sound_init config
    constructor
    · intro session hmem
      cases hmem
    use rfl
    apply State.accepted_nil
  · rintro ⟨s, history⟩ action r' _ ⟨hs, hactivated, hview, haccepted⟩ hstep
    have hsome : (s.step config action).map (fun r => (r.1, r.2 ++ history)) = some r' := hstep
    obtain ⟨r, hr, rfl⟩ := Option.map_eq_some_iff.mp hsome
    have hleads := hs.step hr
    have hactivated' := hactivated.step hr
    use hleads.sound, hactivated'
    constructor
    · rw [hleads.view_eq, hview, View.after_append]
    · intro session channel identity hmem
      rcases List.mem_append.mp hmem with hmem | hmem
      · apply hleads.accepted session channel identity hmem
      · apply haccepted session channel identity hmem

/-- The configuration of a server that lets anybody in. -/
def Config.standard : Config where
  toServerConfig := ServerConfig.standard
  maxSessions := 100
  maxSessionTimeout := 60 * 60 * 1000
  enableAnonymousLogin := true
  enableUsernamePasswordLogin := true
  usernamePasswordLogins := []

/-- A client opens a channel, and creates and activates a session, of the given token. -/
def oneSession (token : Zuth.Guid) : List Action :=
  [.openChannel (some 1) ⟨4, .standard, .standard⟩ ⟨.none, 0⟩ 0,
    .request 1 ⟨0, .numeric 0⟩ (.createSession 1000 (some 2) token true) 0 0,
    .request 1 ⟨1, .guid token⟩ (.activateSession (.anonymous none) true) 0 0]

theorem run_oneSession (token : Zuth.Guid) :
  ∃ r, (machine Config.standard).run (.init, []) (oneSession token) = some r
  := ⟨_, rfl⟩

/-- No pointer dangles: a session that a channel lists is one of the server and points back, once,
and the channel that a session points to is one of the server and lists it.  There are never more
sessions than the configuration allows, and they are counted right. -/
theorem pointers_agree {s : State} {history : List Event}
    (h : (machine config).Reachable (s, history)) :
  (∀ entry ∈ s.entries, entry.channel.sessions.Nodup ∧ ∀ address ∈ entry.channel.sessions,
    ∃ session ∈ s.sessions, session.address = address ∧ session.channel = some entry.address) ∧
  (∀ session ∈ s.sessions, ∀ channel, session.channel = some channel →
    ∃ entry ∈ s.entries, entry.address = channel ∧ session.address ∈ entry.channel.sessions) ∧
  s.currentSessionCount.toNat = s.sessions.length ∧
  s.sessions.length ≤ config.maxSessions.toNat
  := by
  obtain ⟨hs, -⟩ := tracks_of_reachable h
  refine ⟨?_, ?_, hs.count_eq, hs.length_le⟩
  · intro entry hentry
    have hmembers : s.members entry.address = entry.channel.sessions := by
      rw [State.members, State.entry, hs.entries_distinct.get_eq hentry]
      rfl
    rw [← hmembers]
    use hs.linked.nodup entry.address
    intro address hmem
    obtain ⟨session, hsession, hchannel⟩ :=
      Option.bind_eq_some_iff.mp (hs.linked.mem_iff.mp hmem)
    obtain ⟨hin, haddress⟩ := Records.of_get hsession
    exact ⟨session, hin, haddress, hchannel⟩
  · intro session hsession channel hchannel
    have howner : s.owner session.address = some channel := by
      rw [State.owner, State.session, hs.sessions_distinct.get_eq hsession]
      apply hchannel
    have hmem := hs.linked.mem_iff.mpr howner
    obtain ⟨entry, hentry⟩ := Option.isSome_iff_exists.mp (State.entry_isSome_of_mem hmem)
    obtain ⟨hin, haddress⟩ := Records.of_get hentry
    refine ⟨entry, hin, haddress, ?_⟩
    rw [State.members, hentry] at hmem
    apply hmem

theorem pointers_agree_oneSession :
  ∃ s history, (machine Config.standard).run (.init, []) (oneSession ⟨1, 2, 3, .replicate 8 4⟩) =
      some (s, history) ∧
    s.currentSessionCount.toNat = s.sessions.length ∧
    s.sessions.length ≤ Config.standard.maxSessions.toNat
  := by
  obtain ⟨⟨s, history⟩, hrun⟩ := run_oneSession ⟨1, 2, 3, .replicate 8 4⟩
  exact ⟨s, history, hrun, (pointers_agree ((Machine.Reachable.init rfl).run hrun)).2.2⟩

/-- A service that requires a session is called for a request if and only if a session with its
token has been created and not removed since, and has been activated on the channel of the request
with accepted credentials, and nothing has ended that since. -/
theorem called_iff {s : State} {history : List Event}
    (h : (machine config).Reachable (s, history)) {entry : ChannelEntry}
    (hentry : entry ∈ s.entries) {requestTypeId : UInt32}
    (hrequires : requiresSession requestTypeId) (token : Binary.NodeId) (now now' : Int) :
  (∃ session, (s.processMSG config entry token (.service requestTypeId) now now').1 =
    .called (some session)) ↔
  ∃ session, Alive history session token ∧ Bound config history session entry.address
  := by
  obtain ⟨hs, hactivated, hview, haccepted⟩ := tracks_of_reachable h
  have hmembers : s.members entry.address = entry.channel.sessions := by
    rw [State.members, State.entry, hs.entries_distinct.get_eq hentry]
    rfl
  have halive (session : Nat) : Alive history session token ↔ s.token session = some token := by
    rw [← token_after_iff, ← hview]
    rfl
  have hbound (session : Nat) :
      Bound config history session entry.address ↔ s.owner session = some entry.address := by
    rw [← bound_after_iff haccepted, ← hview]
    rfl
  have hknown : ¬ (getServicePointers requestTypeId).isNone := by
    rw [of_decide_eq_true hrequires]
    decide
  simp only [halive, hbound]
  rw [State.processMSG, if_neg hknown, State.processService]
  constructor
  · rintro ⟨address, hcalled⟩
    cases hfound : s.findSession entry.channel token now with
    | none => simp [hfound, hrequires] at hcalled
    | some session =>
        obtain ⟨hsession, rfl⟩ := State.of_findSession hs hfound
        rw [hfound, Option.elim_some] at hcalled
        split at hcalled
        · cases hcalled
        split at hcalled
        · cases hcalled
        next hchannel =>
        refine ⟨session.address, ?_, ?_⟩
        · rw [State.token, hsession]
          rfl
        · rw [State.owner, hsession]
          exact not_not.mp hchannel
  · rintro ⟨address, htoken, howner⟩
    -- the channel lists the session, so it finds one with the token
    have hlisted : (s.channelSession entry.channel token).isSome := by
      obtain ⟨session, hsession, rfl⟩ := Option.map_eq_some_iff.mp htoken
      rw [State.channelSession, List.find?_isSome]
      refine ⟨session, List.mem_filterMap.mpr ⟨address, ?_, hsession⟩, by simp⟩
      rw [← hmembers, hs.linked.mem_iff]
      apply howner
    obtain ⟨session, hfirst⟩ := Option.isSome_iff_exists.mp hlisted
    have hfound : s.findSession entry.channel token now = some session := by
      rw [State.findSession, hfirst]
      rfl
    obtain ⟨hsession, -⟩ := State.of_findSession hs hfound
    have hchannel : session.channel = some entry.address := by
      obtain ⟨address', hmem, hget⟩ := List.mem_filterMap.mp (List.mem_of_find?_eq_some hfirst)
      rw [← hmembers, hs.linked.mem_iff, State.owner, hget] at hmem
      apply hmem
    have hactive : session.activated := by
      apply hactivated session (Records.of_get hsession).1
      rw [hchannel]
      rfl
    use session.address
    rw [hfound, Option.elim_some, hactive, Bool.not_true, Bool.and_false, if_neg Bool.false_ne_true,
      if_neg (not_not.mpr hchannel)]

theorem called_iff_oneSession :
  ∃ s history, (machine Config.standard).run (.init, []) (oneSession ⟨1, 2, 3, .replicate 8 4⟩) =
      some (s, history) ∧
    ∀ entry ∈ s.entries,
      ((∃ session, (s.processMSG Config.standard entry ⟨1, .guid ⟨1, 2, 3, .replicate 8 4⟩⟩
          (.service 631) 0 0).1 = .called (some session)) ↔
        ∃ session, Alive history session ⟨1, .guid ⟨1, 2, 3, .replicate 8 4⟩⟩ ∧
          Bound Config.standard history session entry.address)
  := by
  obtain ⟨⟨s, history⟩, hrun⟩ := run_oneSession ⟨1, 2, 3, .replicate 8 4⟩
  exact ⟨s, history, hrun, fun entry hentry =>
    called_iff ((Machine.Reachable.init rfl).run hrun) hentry rfl _ 0 0⟩

end Sessions
