import UaRateThrottling.Server.Bound

/-!
# The channels of a server with sessions

Each operation on the channels of a server with sessions is the operation of the channel manager:
the manager takes a channel off its list by a condition, the server by its address.
-/

namespace Sessions

open Transition UA

namespace State

variable {config : Config} {s : State}

/-- What is found on the list is removed from the manager. -/
theorem manager_removeSecureChannel (hs : s.Sound config) {p : SecureChannel → Bool}
    {entry : ChannelEntry} (h : s.entries.find? (fun entry => p entry.channel) = some entry) :
  (s.removeSecureChannel entry.address).1.secureChannelManager config =
    (s.secureChannelManager config).removeFirst p
  := by
  have hentry : s.entry entry.address = some entry :=
    hs.entries_distinct.get_eq (List.mem_of_find?_eq_some h)
  rw [State.removeSecureChannel, hentry, Option.elim_some, secureChannelManager,
    SecureChannelManager.removeFirst]
  dsimp only
  rw [hs.entries_distinct.remove_eq_eraseP h, secureChannelManager, List.eraseP_map]
  rfl

theorem get_eq_map_find (channelId : UInt32) :
  (s.secureChannelManager config).get channelId =
    (s.entries.find? (fun entry => SecureChannelManager.hasId channelId entry.channel)).map
      ChannelEntry.channel
  := List.find?_map

theorem manager_closeChannel (hs : s.Sound config) (channelId : UInt32) :
  (s.closeChannel channelId).1.secureChannelManager config =
    ((s.secureChannelManager config).close channelId).2
  := by
  rw [State.closeChannel, SecureChannelManager.close, get_eq_map_find]
  cases h : s.entries.find? (fun entry => SecureChannelManager.hasId channelId entry.channel) with
  | none => rfl
  | some entry => exact manager_removeSecureChannel hs h

theorem manager_disconnect (config : Config) (s : State) (sockfd : Nat) :
  (s.disconnect sockfd).secureChannelManager config =
    (s.secureChannelManager config).detachConnection sockfd
  := by
  simp [disconnect, secureChannelManager, SecureChannelManager.detachConnection]

theorem manager_makeRoom (hs : s.Sound config) :
  (s.makeRoom config).map (fun r => r.1.secureChannelManager config) =
    (s.secureChannelManager config).makeRoom
  := by
  rw [State.makeRoom, SecureChannelManager.makeRoom]
  change _ = if s.currentChannelCount.toNat ≥ config.maxSecureChannels.toNat then _ else _
  split
  · rw [Option.map_map, SecureChannelManager.purgeFirstChannelWithoutSession]
    cases h : s.entries.find? (fun entry => entry.channel.sessions.isEmpty) with
    | none =>
        rw [if_neg]
        · rfl
        · simpa [secureChannelManager] using h
    | some entry =>
        rw [if_pos, Option.map_some, Function.comp_apply]
        · congr 1
          apply manager_removeSecureChannel hs h
        · rw [List.any_eq_true]
          use entry.channel, List.mem_map_of_mem (List.mem_of_find?_eq_some h)
          exact List.find?_some (p := fun entry : ChannelEntry => entry.channel.sessions.isEmpty) h
  · rfl

theorem manager_openChannel (hs : s.Sound config) (address : Nat) (conn : Connection)
    (request : OpenSecureChannelRequest) (now : Int) :
  (s.openChannel config (some address) conn request now).1.secureChannelManager config =
    ((s.secureChannelManager config).openChannel conn request now).2
  := by
  have hroom := manager_makeRoom hs
  rw [State.openChannel, SecureChannelManager.openChannel]
  split
  · rfl
  · rw [← hroom]
    cases s.makeRoom config with
    | none => rfl
    | some r => rfl

/-! ### Channels that are timed out -/

theorem entries_removeSecureChannel (s : State) (channel : Nat) :
  (s.removeSecureChannel channel).1.entries =
    Records.remove ChannelEntry.address channel s.entries
  := by
  rw [State.removeSecureChannel]
  cases h : s.entry channel with
  | none => exact (Records.remove_eq_self h).symm
  | some entry => rfl

theorem manager_removeEach (config : Config) (channels : List Nat) (hdistinct : channels.Nodup)
    (h : ∀ channel ∈ channels, (s.entry channel).isSome) :
  (removeEach removeSecureChannel channels s).1.secureChannelManager config =
    { s.secureChannelManager config with
      channels := (s.entries.filter (fun entry => entry.address ∉ channels)).map
        ChannelEntry.channel
      currentChannelCount := s.currentChannelCount - UInt32.ofNat channels.length }
  := by
  induction channels generalizing s with
  | nil => simp [removeEach, secureChannelManager]
  | cons channel channels ih =>
      obtain ⟨hnot, hdistinct⟩ := List.nodup_cons.mp hdistinct
      obtain ⟨removed, hremoved⟩ := Option.isSome_iff_exists.mp (h channel List.mem_cons_self)
      have hentries := entries_removeSecureChannel s channel
      have hrest : ∀ channel' ∈ channels,
          ((s.removeSecureChannel channel).1.entry channel').isSome := by
        intro channel' hmem
        rw [State.entry, hentries, Records.get_remove, Function.update_of_ne]
        · apply h channel' (List.mem_cons_of_mem _ hmem)
        · rintro rfl
          apply hnot hmem
      have hfilter : (Records.remove ChannelEntry.address channel s.entries).filter
            (fun entry => entry.address ∉ channels) =
          s.entries.filter (fun entry => entry.address ∉ channel :: channels) := by
        rw [Records.remove, List.filter_filter]
        apply List.filter_congr
        intro entry _
        simp [Bool.and_comm]
      have hcount : s.currentChannelCount - 1 - UInt32.ofNat channels.length =
          s.currentChannelCount - UInt32.ofNat (channels.length + 1) := by
        rw [UInt32.ofNat_add, show UInt32.ofNat 1 = 1 from rfl]
        grind
      rw [removeEach]
      dsimp only
      rw [ih hdistinct hrest, hentries, hfilter, List.length_cons, ← hcount,
        State.removeSecureChannel, hremoved]
      rfl

theorem manager_cleanupChannels (hs : s.Sound config) (now : Int) :
  (s.cleanupChannels now).1.secureChannelManager config =
    (s.secureChannelManager config).cleanupTimedOut now
  := by
  let timedOut := s.entries.filter (fun entry => SecureChannelManager.isTimedOut now entry.channel)
  have hsublist : timedOut.Sublist s.entries := List.filter_sublist
  have hremoved := manager_removeEach (s := s) config
    (timedOut.map ChannelEntry.address) (hs.entries_distinct.sublist (hsublist.map _)) (by
      intro channel hmem
      obtain ⟨entry, hentry, rfl⟩ := List.mem_map.mp hmem
      rw [State.entry, hs.entries_distinct.get_eq (hsublist.subset hentry)]
      rfl)
  have hstay : s.entries.filter (fun entry => entry.address ∉ timedOut.map ChannelEntry.address) =
      s.entries.filter (fun entry => !SecureChannelManager.isTimedOut now entry.channel) := by
    apply List.filter_congr
    intro entry hentry
    have hiff : entry.address ∈ timedOut.map ChannelEntry.address ↔
        SecureChannelManager.isTimedOut now entry.channel := by
      constructor
      · intro hmem
        obtain ⟨other, hother, heq⟩ := List.mem_map.mp hmem
        have hsame :=
          List.inj_on_of_nodup_map hs.entries_distinct (hsublist.subset hother) hentry heq
        rw [← hsame]
        apply (List.mem_filter.mp hother).2
      · intro htimedOut
        apply List.mem_map_of_mem (List.mem_filter.mpr ⟨hentry, htimedOut⟩)
    rw [Bool.eq_iff_iff, decide_eq_true_iff, hiff]
    simp
  have hcount : (s.entries.map ChannelEntry.channel).countP (SecureChannelManager.isTimedOut now) =
      timedOut.length := by
    rw [List.countP_map, List.countP_eq_length_filter]
    rfl
  have hcleaned : (s.cleanupChannels now).1.secureChannelManager config =
      let cm := (removeEach removeSecureChannel (timedOut.map ChannelEntry.address) s).1
        |>.secureChannelManager config
      { cm with channels := cm.channels.map SecureChannelManager.cleanedUp } := by
    simp only [cleanupChannels, secureChannelManager, List.map_map]
    rfl
  rw [hcleaned, hremoved, hstay, List.length_map, ← hcount, SecureChannelManager.cleanupTimedOut,
    SecureChannelManager.removeWhere, secureChannelManager]
  dsimp only
  rw [List.filter_map]
  rfl

end State

/-- Opening a channel, closing one, losing a connection and cleaning up do to the channels of a
server with sessions, in every state it reaches, what they do to those of the channel manager. -/
theorem channels_managed {config : Config} {s : State} {history : List Event}
    (h : (machine config).Reachable (s, history)) :
  (∀ address conn request now,
    (s.openChannel config (some address) conn request now).1.secureChannelManager config =
      ((s.secureChannelManager config).openChannel conn request now).2) ∧
  (∀ channelId, (s.closeChannel channelId).1.secureChannelManager config =
    ((s.secureChannelManager config).close channelId).2) ∧
  (∀ sockfd, (s.disconnect sockfd).secureChannelManager config =
    (s.secureChannelManager config).detachConnection sockfd) ∧
  (∀ now, (s.cleanup now).1.secureChannelManager config =
    ((s.cleanupSessions now).1.secureChannelManager config).cleanupTimedOut now)
  := by
  obtain ⟨hs, -⟩ := tracks_of_reachable h
  refine ⟨?_, ?_, ?_, ?_⟩
  · apply State.manager_openChannel hs
  · apply State.manager_closeChannel hs
  · apply State.manager_disconnect config s
  · intro now
    apply State.manager_cleanupChannels (hs.cleanupSessions now).sound

theorem channels_managed_oneSession :
  ∃ s history, (machine Config.standard).run (.init, []) (oneSession ⟨1, 2, 3, .replicate 8 4⟩) =
      some (s, history) ∧
    ∀ channelId, (s.closeChannel channelId).1.secureChannelManager Config.standard =
      ((s.secureChannelManager Config.standard).close channelId).2
  := by
  obtain ⟨⟨s, history⟩, hrun⟩ := run_oneSession ⟨1, 2, 3, .replicate 8 4⟩
  have hreachable := (Transition.Machine.Reachable.init rfl).run hrun
  exact ⟨s, history, hrun, (channels_managed hreachable).2.1⟩

end Sessions
