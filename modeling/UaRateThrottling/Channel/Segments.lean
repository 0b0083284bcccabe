import Mathlib.Data.List.GetD
import UaRateThrottling.Channel.Encoding
import UaRateThrottling.Framing

/-!
# Chunks out of TCP segments

What a socket receives begins and ends anywhere in the stream of chunks the other end has written.
`completeMessages` hands on the whole chunks and keeps the rest back, to put it in front of what is
received next.
-/

namespace LittleEndian

/-- What follows the number does not matter to it. -/
theorem decode_append {w n : Nat} {bytes rest : List UInt8} (h : decode w bytes = some (n, rest))
    (more : List UInt8) :
  decode w (bytes ++ more) = some (n, rest ++ more)
  := by
  induction w generalizing n bytes with
  | zero =>
      obtain ⟨rfl, rfl⟩ := Prod.mk.inj (Option.some.inj h)
      rfl
  | succ w ih =>
      cases bytes with
      | nil => cases h
      | cons byte bytes =>
          obtain ⟨⟨m, rest'⟩, hdecode, heq⟩ := Option.map_eq_some_iff.mp h
          obtain ⟨rfl, rfl⟩ := Prod.mk.inj heq
          rw [List.cons_append, decode, ih hdecode]
          rfl

/-- Enough bytes spell a number. -/
theorem exists_decode {w : Nat} {bytes : List UInt8} (h : w ≤ bytes.length) :
  ∃ n rest, decode w bytes = some (n, rest)
  := by
  induction w generalizing bytes with
  | zero => exact ⟨0, bytes, rfl⟩
  | succ w ih =>
      cases bytes with
      | nil => cases h
      | cons byte bytes =>
          obtain ⟨n, rest, hdecode⟩ := ih (Nat.le_of_succ_le_succ h)
          use byte.toNat + 256 * n, rest
          rw [decode, hdecode]
          rfl

end LittleEndian

namespace UA

open Framing

/-! ### The front of what is received -/

/-- The message types a chunk can have. -/
def IsMessageType (messageType : UInt32) : Prop :=
  messageType = MessageType.msg ∨ messageType = MessageType.err ∨ messageType = MessageType.opn ∨
    messageType = MessageType.hel ∨ messageType = MessageType.ack ∨ messageType = MessageType.clo

instance (messageType : UInt32) : Decidable (IsMessageType messageType) :=
  inferInstanceAs (Decidable (_ ∨ _))

/-- The type the first three bytes spell. -/
def messageTypeAt (bytes : List UInt8) : UInt32 :=
  (bytes.getD 0 0).toUInt32 + ((bytes.getD 1 0).toUInt32 <<< 8) +
    ((bytes.getD 2 0).toUInt32 <<< 16)

/-- The length the second four bytes spell. -/
def chunkLengthAt (bytes : List UInt8) : Option UInt32 :=
  (decodeUInt32 (bytes.drop 4)).map Prod.fst

/-- One iteration of the loop over the received bytes. -/
def chunkFront (recvBufferSize : UInt32) (bytes : List UInt8) : Front :=
  if bytes.length < 8 then .incomplete
  else if ¬IsMessageType (messageTypeAt bytes) then .garbage
  else
    match chunkLengthAt bytes with
    | none => .garbage
    | some chunkLength =>
      if chunkLength < 16 ∨ chunkLength > recvBufferSize then .garbage
      else if chunkLength.toNat > bytes.length then .incomplete
      else .frame chunkLength.toNat

/-- The loop over the received bytes: how far the whole chunks reach, and whether what comes then
is garbage. -/
def completeUntil (recvBufferSize : UInt32) (message : List UInt8) : Nat → Nat → Nat × Bool
  | 0, completeUntil => (completeUntil, false)
  | fuel + 1, position =>
    match chunkFront recvBufferSize (message.drop position) with
    | .frame chunkLength => completeUntil recvBufferSize message fuel (position + chunkLength)
    | .garbage => (position, true)
    | .incomplete => (position, false)

/-- What `UA_Connection_completeMessages` leaves: its status code, the bytes handed on, whether they
are in a buffer of their own, and the bytes kept back. -/
structure Completed where
  retval : StatusCode
  message : List UInt8
  realloced : Bool
  incompleteMessage : List UInt8
deriving DecidableEq

/-- `UA_Connection_completeMessages`.  Garbage at the very front is released with the buffer of the
network layer, and is not released when it is in a buffer of its own. -/
def completeMessages (recvBufferSize : UInt32) (incompleteMessage message : List UInt8)
    (realloced : Bool) : Completed :=
  let realloced := decide (incompleteMessage.length > 0) || realloced
  let message :=
    if incompleteMessage.length > 0 then incompleteMessage ++ message else message
  match completeUntil recvBufferSize message (message.length + 1) 0 with
  | (complete, garbageEnd) =>
    if complete ≠ message.length then
      if garbageEnd then
        if complete = 0 then ⟨.good, if realloced then message else [], realloced, []⟩
        else ⟨.good, message.take complete, realloced, []⟩
      else if complete = 0 then ⟨.good, [], true, message⟩
      else ⟨.good, message.take complete, realloced, message.drop complete⟩
    else ⟨.good, message, realloced, []⟩

theorem messageTypeAt_append {bytes : List UInt8} (h : 8 ≤ bytes.length) (more : List UInt8) :
  messageTypeAt (bytes ++ more) = messageTypeAt bytes
  := by
  rw [messageTypeAt, messageTypeAt, List.getD_append _ _ _ 0 (by omega),
    List.getD_append _ _ _ 1 (by omega), List.getD_append _ _ _ 2 (by omega)]

/-- Eight bytes spell a length. -/
theorem exists_chunkLengthAt {bytes : List UInt8} (h : 8 ≤ bytes.length) (more : List UInt8) :
  ∃ chunkLength, chunkLengthAt bytes = some chunkLength ∧
    chunkLengthAt (bytes ++ more) = some chunkLength
  := by
  obtain ⟨n, rest, hdecode⟩ := @LittleEndian.exists_decode 4 (bytes.drop 4) (by
    rw [List.length_drop]
    omega)
  use UInt32.ofNat n
  constructor
  · rw [chunkLengthAt, decodeUInt32, hdecode]
    rfl
  · rw [chunkLengthAt, decodeUInt32, List.drop_append_of_le_length (by omega),
      LittleEndian.decode_append hdecode]
    rfl

/-- What more bytes change is only whether a chunk is complete. -/
theorem chunkFront_append {recvBufferSize : UInt32} {bytes : List UInt8} (h : 8 ≤ bytes.length)
    (more : List UInt8) :
  (chunkFront recvBufferSize bytes = .garbage ∧
      chunkFront recvBufferSize (bytes ++ more) = .garbage) ∨
    ∃ chunkLength : UInt32, 16 ≤ chunkLength.toNat ∧
      chunkLength.toNat ≤ recvBufferSize.toNat ∧
      (chunkFront recvBufferSize bytes =
        if chunkLength.toNat > bytes.length then .incomplete else .frame chunkLength.toNat) ∧
      chunkFront recvBufferSize (bytes ++ more) =
        if chunkLength.toNat > bytes.length + more.length then .incomplete
        else .frame chunkLength.toNat
  := by
  have hlength : 8 ≤ (bytes ++ more).length := by
    rw [List.length_append]
    omega
  obtain ⟨chunkLength, hbytes, hmore⟩ := exists_chunkLengthAt h more
  rw [chunkFront, chunkFront, if_neg (Nat.not_lt.mpr h), if_neg (Nat.not_lt.mpr hlength),
    messageTypeAt_append h, hbytes, hmore, List.length_append]
  by_cases htype : IsMessageType (messageTypeAt bytes)
  · rw [if_neg (not_not.mpr htype), if_neg (not_not.mpr htype)]
    by_cases hsize : chunkLength < 16 ∨ chunkLength > recvBufferSize
    · left
      simp only [if_pos hsize, and_self]
    · right
      simp only [if_neg hsize]
      rw [not_or, UInt32.not_lt, gt_iff_lt, UInt32.not_lt, UInt32.le_iff_toNat_le,
        UInt32.le_iff_toNat_le] at hsize
      use chunkLength, hsize.1, hsize.2
  · left
    rw [if_pos htype, if_pos htype]
    exact ⟨rfl, rfl⟩

/-- A front that is not incomplete has a header. -/
theorem le_length_of_chunkFront {recvBufferSize : UInt32} {bytes : List UInt8}
    (h : chunkFront recvBufferSize bytes ≠ .incomplete) :
  8 ≤ bytes.length
  := by
  by_contra hlt
  apply h
  rw [chunkFront, if_pos (by omega)]

/-- A chunk is as long as its header says, and no longer than the receive buffer. -/
theorem chunkFront_frame {recvBufferSize : UInt32} {bytes : List UInt8} {n : Nat}
    (h : chunkFront recvBufferSize bytes = .frame n) :
  16 ≤ n ∧ n ≤ recvBufferSize.toNat ∧ n ≤ bytes.length
  := by
  have hlength : 8 ≤ bytes.length := by
    apply @le_length_of_chunkFront recvBufferSize
    rw [h]
    exact Front.noConfusion
  obtain ⟨hgarbage, -⟩ | ⟨chunkLength, hmin, hmax, hfront, -⟩ :=
    @chunkFront_append recvBufferSize bytes hlength []
  · rw [hgarbage] at h
    cases h
  · rw [hfront] at h
    split at h
    · cases h
    · obtain rfl := Front.frame.inj h
      use hmin, hmax
      omega

/-- Bytes held back are fewer than a chunk may have. -/
theorem length_lt_of_incomplete {recvBufferSize : UInt32} {bytes : List UInt8}
    (h : chunkFront recvBufferSize bytes = .incomplete) :
  bytes.length < max 8 recvBufferSize.toNat
  := by
  by_cases hlength : 8 ≤ bytes.length
  · obtain ⟨hgarbage, -⟩ | ⟨chunkLength, hmin, hmax, hfront, -⟩ :=
      @chunkFront_append recvBufferSize bytes hlength []
    · rw [hgarbage] at h
      cases h
    · rw [hfront] at h
      split at h
      · omega
      · cases h
  · omega

/-- The chunks of a stream, read with a receive buffer of the given size. -/
def chunkReader (recvBufferSize : UInt32) : Reader UInt8 where
  front := chunkFront recvBufferSize
  pos := by
    intro s n h
    have hframe := chunkFront_frame h
    omega
  le_length := by
    intro s n h
    apply (chunkFront_frame h).2.2
  frame_take := by
    intro s n h
    obtain ⟨hmin, hmax, hle⟩ := chunkFront_frame h
    have htake : (s.take n).length = n := by
      rw [List.length_take, Nat.min_eq_left hle]
    have happend := @chunkFront_append recvBufferSize (s.take n) (by omega) (s.drop n)
    rw [List.take_append_drop, h, htake] at happend
    obtain ⟨-, hgarbage⟩ | ⟨chunkLength, -, -, hfront, hfront'⟩ := happend
    · cases hgarbage
    · split at hfront'
      · cases hfront'
      · obtain rfl := Front.frame.inj hfront'
        rw [hfront, if_neg (Nat.lt_irrefl _)]
  frame_append := by
    intro s n t h
    obtain ⟨hmin, hmax, hle⟩ := chunkFront_frame h
    obtain ⟨hgarbage, -⟩ | ⟨chunkLength, -, -, hfront, hfront'⟩ :=
      @chunkFront_append recvBufferSize s (by omega) t
    · rw [h] at hgarbage
      cases hgarbage
    · rw [h] at hfront
      split at hfront
      · cases hfront
      · obtain rfl := Front.frame.inj hfront
        rw [hfront', if_neg (by omega)]
  garbage_append := by
    intro s t h
    have hlength : 8 ≤ s.length := by
      apply @le_length_of_chunkFront recvBufferSize
      rw [h]
      exact Front.noConfusion
    obtain ⟨-, hgarbage⟩ | ⟨chunkLength, -, -, hfront, -⟩ :=
      @chunkFront_append recvBufferSize s hlength t
    · apply hgarbage
    · rw [h] at hfront
      split at hfront
      · cases hfront
      · cases hfront

/-- A whole chunk, and nothing else. -/
abbrev IsChunk (recvBufferSize : UInt32) (chunk : List UInt8) : Prop :=
  (chunkReader recvBufferSize).IsFrame chunk

theorem isChunk_iff {recvBufferSize : UInt32} {chunk : List UInt8} :
  IsChunk recvBufferSize chunk ↔ chunkFront recvBufferSize chunk = .frame chunk.length
  := Iff.rfl

/-! ### One segment -/

section

variable {recvBufferSize : UInt32}

/-- The loop finds the chunks of what is received. -/
theorem completeUntil_eq {message : List UInt8} {fuel position : Nat}
    (hposition : position ≤ message.length) (hfuel : message.length - position < fuel) :
  completeUntil recvBufferSize message fuel position =
    (position + ((chunkReader recvBufferSize).cut (message.drop position)).1.flatten.length,
      decide (chunkFront recvBufferSize
        ((chunkReader recvBufferSize).cut (message.drop position)).2 = .garbage))
  := by
  induction fuel generalizing position with
  | zero => cases hfuel
  | succ fuel ih =>
      rw [completeUntil]
      cases hfront : chunkFront recvBufferSize (message.drop position) with
      | frame n =>
          obtain ⟨hmin, -, hle⟩ := chunkFront_frame hfront
          rw [List.length_drop] at hle
          have hcut := (chunkReader recvBufferSize).cut_frame hfront
          dsimp only
          rw [ih (by omega) (by omega), hcut, List.drop_drop, List.flatten_cons,
            List.length_append, List.length_take, List.length_drop, Nat.min_eq_left hle,
            Nat.add_assoc]
      | garbage =>
          have hcut : (chunkReader recvBufferSize).cut (message.drop position) =
              ([], message.drop position) := by
            apply Reader.cut_stop
            intro n hn
            cases hfront.symm.trans hn
          rw [hcut, hfront]
          rfl
      | incomplete =>
          have hcut : (chunkReader recvBufferSize).cut (message.drop position) =
              ([], message.drop position) := by
            apply Reader.cut_stop
            intro n hn
            cases hfront.symm.trans hn
          rw [hcut, hfront]
          rfl

/-- The loop from the beginning. -/
theorem completeUntil_start (message : List UInt8) :
  completeUntil recvBufferSize message (message.length + 1) 0 =
    (((chunkReader recvBufferSize).cut message).1.flatten.length,
      decide (chunkFront recvBufferSize ((chunkReader recvBufferSize).cut message).2 = .garbage))
  := by
  rw [completeUntil_eq (Nat.zero_le _) (by omega), List.drop_zero, Nat.zero_add]

/-- What is kept back is put in front of what is received. -/
theorem merged_eq (incompleteMessage message : List UInt8) :
  (if incompleteMessage.length > 0 then incompleteMessage ++ message else message) =
    incompleteMessage ++ message
  := by
  cases incompleteMessage with
  | nil => rfl
  | cons byte bytes => rw [if_pos (by simp)]

/-- Without garbage the whole chunks are handed on, and the rest is kept back. -/
theorem completeMessages_clean {incompleteMessage message : List UInt8} {realloced : Bool}
    {chunks : List (List UInt8)} {rest : List UInt8}
    (hcut : (chunkReader recvBufferSize).cut (incompleteMessage ++ message) = (chunks, rest))
    (hrest : chunkFront recvBufferSize rest ≠ .garbage) :
  (completeMessages recvBufferSize incompleteMessage message realloced).retval = .good ∧
    (completeMessages recvBufferSize incompleteMessage message realloced).message =
      chunks.flatten ∧
    (completeMessages recvBufferSize incompleteMessage message realloced).incompleteMessage = rest
  := by
  have hflatten := (chunkReader recvBufferSize).flatten_cut (incompleteMessage ++ message)
  simp only [completeMessages, merged_eq, completeUntil_start, hcut, hrest, decide_false,
    Bool.false_eq_true, if_false] at hflatten ⊢
  rw [← hflatten]
  by_cases hall : chunks.flatten.length = (chunks.flatten ++ rest).length
  · rw [if_neg (not_not.mpr hall)]
    rw [List.length_append] at hall
    obtain rfl := List.eq_nil_of_length_eq_zero (show rest.length = 0 by omega)
    rw [List.append_nil]
    exact ⟨rfl, rfl, rfl⟩
  · rw [if_pos hall]
    split
    · rename_i hzero
      rw [List.eq_nil_of_length_eq_zero hzero]
      exact ⟨rfl, rfl, rfl⟩
    · rw [List.take_left, List.drop_left]
      exact ⟨rfl, rfl, rfl⟩

/-- Nothing that begins with garbage is kept back.  The chunks in front of the garbage are handed
on, or when there are none the garbage itself if it was partly kept back before. -/
theorem completeMessages_garbage {incompleteMessage message : List UInt8} {realloced : Bool}
    {chunks : List (List UInt8)} {rest : List UInt8}
    (hcut : (chunkReader recvBufferSize).cut (incompleteMessage ++ message) = (chunks, rest))
    (hrest : chunkFront recvBufferSize rest = .garbage) :
  (completeMessages recvBufferSize incompleteMessage message realloced).incompleteMessage = [] ∧
    (completeMessages recvBufferSize incompleteMessage message realloced).message =
      if chunks.flatten = [] ∧ (incompleteMessage ≠ [] ∨ realloced) then
        incompleteMessage ++ message
      else chunks.flatten
  := by
  have hflatten := (chunkReader recvBufferSize).flatten_cut (incompleteMessage ++ message)
  have hlength := le_length_of_chunkFront (hrest.trans_ne Front.noConfusion)
  simp only [completeMessages, merged_eq, completeUntil_start, hcut, hrest, decide_true,
    if_true] at hflatten ⊢
  rw [← hflatten, if_pos (by rw [List.length_append]; omega), List.take_left]
  by_cases hchunks : chunks.flatten = []
  · rw [hchunks, if_pos List.length_nil]
    use rfl
    cases incompleteMessage with
    | nil => simp
    | cons byte bytes => simp
  · rw [if_neg (fun hzero => hchunks (List.eq_nil_of_length_eq_zero hzero)), if_neg (by tauto)]
    exact ⟨rfl, rfl⟩

/-! ### The segments of a connection -/

/-- The segments a server receives on a connection, one after the other: what is handed on of each,
and what is kept back in the end. -/
def receiveSegments (recvBufferSize : UInt32) : List UInt8 → List (List UInt8) →
    List (List UInt8) × List UInt8
  | kept, [] => ([], kept)
  | kept, segment :: segments =>
    match completeMessages recvBufferSize kept segment false with
    | ⟨_, message, _, kept⟩ =>
      (message :: (receiveSegments recvBufferSize kept segments).1,
        (receiveSegments recvBufferSize kept segments).2)

theorem receiveSegments_cons (kept segment : List UInt8) (segments : List (List UInt8)) :
  receiveSegments recvBufferSize kept (segment :: segments) =
    ((completeMessages recvBufferSize kept segment false).message ::
        (receiveSegments recvBufferSize
          (completeMessages recvBufferSize kept segment false).incompleteMessage segments).1,
      (receiveSegments recvBufferSize
        (completeMessages recvBufferSize kept segment false).incompleteMessage segments).2)
  := rfl

/-- Without garbage the chunks are cut off as they come. -/
theorem receiveSegments_eq_feed {kept : List UInt8} {segments : List (List UInt8)}
    (h : chunkFront recvBufferSize
      ((chunkReader recvBufferSize).cut (kept ++ segments.flatten)).2 ≠ .garbage) :
  receiveSegments recvBufferSize kept segments =
    (((chunkReader recvBufferSize).feed kept segments).1.map List.flatten,
      ((chunkReader recvBufferSize).feed kept segments).2)
  := by
  induction segments generalizing kept with
  | nil => rfl
  | cons segment segments ih =>
      rw [List.flatten_cons, ← List.append_assoc] at h
      have hrest : chunkFront recvBufferSize
          ((chunkReader recvBufferSize).cut (kept ++ segment)).2 ≠ .garbage :=
        fun hgarbage => h ((chunkReader recvBufferSize).garbage_of_begins _ hgarbage)
      obtain ⟨-, hmessage, hkept⟩ :=
        @completeMessages_clean recvBufferSize kept segment false _ _ rfl hrest
      rw [Reader.cut_append (kept ++ segment)] at h
      rw [receiveSegments_cons, hmessage, hkept, ih h]
      rfl

/-- A part of a chunk stays as it is. -/
theorem cut_incomplete {bytes : List UInt8}
    (h : chunkFront recvBufferSize bytes = .incomplete) :
  (chunkReader recvBufferSize).cut bytes = ([], bytes)
  := by
  apply Reader.cut_stop
  intro n hn
  cases h.symm.trans hn

/-- A stream of chunks is cut into its chunks and the part of the next one. -/
theorem cut_chunks {chunks : List (List UInt8)} {rest : List UInt8}
    (hchunks : ∀ chunk ∈ chunks, IsChunk recvBufferSize chunk)
    (hrest : chunkFront recvBufferSize rest = .incomplete) :
  (chunkReader recvBufferSize).cut (chunks.flatten ++ rest) = (chunks, rest)
  := by
  rw [Reader.cut_flatten_append hchunks, cut_incomplete hrest, List.append_nil]

/-- What is handed on are groups of the chunks, one group for each segment. -/
theorem receiveSegments_groups {chunks : List (List UInt8)} {rest : List UInt8}
    (hchunks : ∀ chunk ∈ chunks, IsChunk recvBufferSize chunk)
    (hrest : chunkFront recvBufferSize rest = .incomplete) {segments : List (List UInt8)}
    (hsegments : segments.flatten = chunks.flatten ++ rest) :
  ∃ groups : List (List (List UInt8)), groups.flatten = chunks ∧
    groups = ((chunkReader recvBufferSize).feed [] segments).1 ∧
    receiveSegments recvBufferSize [] segments = (groups.map List.flatten, rest)
  := by
  have hcut := cut_chunks hchunks hrest
  rw [← hsegments] at hcut
  have hclean : chunkFront recvBufferSize
      ((chunkReader recvBufferSize).cut ([] ++ segments.flatten)).2 ≠ .garbage := by
    rw [List.nil_append, hcut, hrest]
    exact Front.noConfusion
  have hfeed := Reader.feed_eq (@cut_incomplete recvBufferSize [] rfl) segments
  rw [List.nil_append, hcut] at hfeed
  obtain ⟨hflatten, hleft⟩ := Prod.mk.inj hfeed
  use ((chunkReader recvBufferSize).feed [] segments).1, hflatten, rfl
  rw [receiveSegments_eq_feed hclean, hleft]

/-- However a stream of chunks is divided into segments, the chunks are handed on whole and in
their order, and what is kept back in the end is the part of the next chunk. -/
theorem segments_complete {chunks : List (List UInt8)} {rest : List UInt8}
    (hchunks : ∀ chunk ∈ chunks, IsChunk recvBufferSize chunk)
    (hrest : chunkFront recvBufferSize rest = .incomplete) {segments : List (List UInt8)}
    (hsegments : segments.flatten = chunks.flatten ++ rest) :
  ∃ groups : List (List (List UInt8)), groups.flatten = chunks ∧
    groups.length = segments.length ∧
    receiveSegments recvBufferSize [] segments = (groups.map List.flatten, rest)
  := by
  obtain ⟨groups, hflatten, hfeed, hreceive⟩ := receiveSegments_groups hchunks hrest hsegments
  use groups, hflatten
  constructor
  · rw [hfeed, Reader.length_feed]
  · exact hreceive

/-- A CLO chunk of sixteen bytes. -/
def shortChunk : List UInt8 := [0x43, 0x4c, 0x4f, 0x46, 16, 0, 0, 0, 1, 0, 0, 0, 2, 0, 0, 0]

/-- Two chunks and the beginning of a third, in three segments. -/
def splitSegments : List (List UInt8) :=
  [shortChunk.take 5, shortChunk.drop 5 ++ shortChunk.take 9, shortChunk.drop 9 ++ [0x4d]]

theorem segments_complete_split :
  ∃ groups : List (List (List UInt8)), groups.flatten = [shortChunk, shortChunk] ∧
    groups.length = splitSegments.length ∧
    receiveSegments 16 [] splitSegments = (groups.map List.flatten, [0x4d])
  := segments_complete (by decide) rfl rfl

/-- What is handed on of a segment when garbage may come: whole chunks, or garbage of which a few
bytes have been kept back before. -/
theorem completeMessages_any {kept : List UInt8}
    (hkept : chunkFront recvBufferSize kept = .incomplete) (segment : List UInt8) :
  chunkFront recvBufferSize
      (completeMessages recvBufferSize kept segment false).incompleteMessage = .incomplete ∧
    ((∃ chunks : List (List UInt8), (∀ chunk ∈ chunks, IsChunk recvBufferSize chunk) ∧
        (completeMessages recvBufferSize kept segment false).message = chunks.flatten) ∨
      kept ≠ [] ∧ kept.length < 8 ∧ chunkFront recvBufferSize (kept ++ segment) = .garbage ∧
        (completeMessages recvBufferSize kept segment false).message = kept ++ segment)
  := by
  have hmem : ∀ chunk ∈ ((chunkReader recvBufferSize).cut (kept ++ segment)).1,
      IsChunk recvBufferSize chunk := fun _ => Reader.isFrame_of_mem_cut
  by_cases hrest : chunkFront recvBufferSize
      ((chunkReader recvBufferSize).cut (kept ++ segment)).2 = .garbage
  · obtain ⟨hincomplete, hmessage⟩ :=
      @completeMessages_garbage recvBufferSize kept segment false _ _ rfl hrest
    rw [hincomplete, hmessage]
    use rfl
    by_cases hall : ((chunkReader recvBufferSize).cut (kept ++ segment)).1.flatten = [] ∧
        (kept ≠ [] ∨ false = true)
    · right
      rw [if_pos hall]
      have hflatten := (chunkReader recvBufferSize).flatten_cut (kept ++ segment)
      rw [hall.1, List.nil_append] at hflatten
      rw [hflatten] at hrest
      have hne : kept ≠ [] := by simpa using hall.2
      use hne
      constructor
      · -- with a header, what is kept back would not turn out to be garbage
        by_contra hlength
        obtain ⟨hgarbage, -⟩ | ⟨chunkLength, -, -, -, hfront⟩ :=
          @chunkFront_append recvBufferSize kept (by omega) segment
        · cases hkept.symm.trans hgarbage
        · rw [hrest] at hfront
          split at hfront
          · cases hfront
          · cases hfront
      · use hrest
    · left
      rw [if_neg hall]
      exact ⟨_, hmem, rfl⟩
  · obtain ⟨-, hmessage, hincomplete⟩ :=
      @completeMessages_clean recvBufferSize kept segment false _ _ rfl hrest
    rw [hmessage, hincomplete]
    constructor
    · cases hfront : chunkFront recvBufferSize
          ((chunkReader recvBufferSize).cut (kept ++ segment)).2 with
      | frame n => exact absurd hfront ((chunkReader recvBufferSize).front_cut_ne_frame _ n)
      | garbage => exact absurd hfront hrest
      | incomplete => rfl
    · left
      exact ⟨_, hmem, rfl⟩

/-- Whatever a connection receives, what is kept back is less than a chunk may have; and what is
handed on are whole chunks, or garbage of which less than a header has been kept back before. -/
theorem receiveSegments_any (segments : List (List UInt8)) :
  (receiveSegments recvBufferSize [] segments).2.length < max 8 recvBufferSize.toNat ∧
    ∀ message ∈ (receiveSegments recvBufferSize [] segments).1,
      (∃ chunks : List (List UInt8), (∀ chunk ∈ chunks, IsChunk recvBufferSize chunk) ∧
        message = chunks.flatten) ∨
      ∃ kept, ∃ segment ∈ segments, kept ≠ [] ∧ kept.length < 8 ∧
        message = kept ++ segment ∧ chunkFront recvBufferSize message = .garbage
  := by
  have hrun : ∀ kept, chunkFront recvBufferSize kept = .incomplete →
      chunkFront recvBufferSize (receiveSegments recvBufferSize kept segments).2 = .incomplete ∧
      ∀ message ∈ (receiveSegments recvBufferSize kept segments).1,
        (∃ chunks : List (List UInt8), (∀ chunk ∈ chunks, IsChunk recvBufferSize chunk) ∧
          message = chunks.flatten) ∨
        ∃ kept, ∃ segment ∈ segments, kept ≠ [] ∧ kept.length < 8 ∧
          message = kept ++ segment ∧ chunkFront recvBufferSize message = .garbage := by
    induction segments with
    | nil =>
        intro kept hkept
        use hkept
        rintro message ⟨⟩
    | cons segment segments ih =>
        intro kept hkept
        obtain ⟨hincomplete, hmessage⟩ := completeMessages_any hkept segment
        obtain ⟨hlast, hmessages⟩ := ih _ hincomplete
        rw [receiveSegments_cons]
        use hlast
        intro message hmem
        rcases List.mem_cons.mp hmem with rfl | hmem
        · rcases hmessage with hchunks | ⟨hne, hlength, hgarbage, heq⟩
          · left
            apply hchunks
          · right
            use kept, segment, List.mem_cons_self, hne, hlength, heq
            rw [heq]
            apply hgarbage
        · rcases hmessages message hmem with hchunks | ⟨kept, segment, hsegment, hgarbage⟩
          · left
            apply hchunks
          · right
            use kept, segment, List.mem_cons_of_mem _ hsegment
  obtain ⟨hlast, hmessages⟩ := hrun [] rfl
  use length_lt_of_incomplete hlast

/-! ### The calls of a client -/

/-- What a call of the `recv` of a connection leaves, and whether the deadline has passed after
it. -/
structure Recv where
  retval : StatusCode
  chunks : List UInt8
  late : Bool

/-- `UA_Connection_receiveChunksBlocking`: the status code and the chunks it returns, what is kept
back for the next call, and the calls of `recv` still to come.  It waits when there is none. -/
def receiveChunksBlocking (recvBufferSize : UInt32) : List Recv → List UInt8 → Bool →
    Option ((StatusCode × List UInt8) × List UInt8 × List Recv)
  | [], _, _ => none
  | recv :: recvs, kept, realloced =>
    match completeMessages recvBufferSize kept recv.chunks realloced with
    | ⟨completed, message, realloced, kept⟩ =>
      let retval := recv.retval ||| completed
      if retval ≠ .good ∨ message.length > 0 then some ((retval, message), kept, recvs)
      else if recv.late then some ((.goodNonCriticalTimeout, message), kept, recvs)
      else receiveChunksBlocking recvBufferSize recvs kept realloced

/-- As many calls, one after the other. -/
def receiveCalls (recvBufferSize : UInt32) : Nat → List Recv → List UInt8 →
    Option (List (StatusCode × List UInt8) × List UInt8 × List Recv)
  | 0, recvs, kept => some ([], kept, recvs)
  | calls + 1, recvs, kept => do
    let (result, kept, recvs) ← receiveChunksBlocking recvBufferSize recvs kept false
    let (results, kept, recvs) ← receiveCalls recvBufferSize calls recvs kept
    some (result :: results, kept, recvs)

/-- The bytes of some calls of `recv`. -/
def bytesOf (recvs : List Recv) : List UInt8 := (recvs.map Recv.chunks).flatten

/-- A call returns the chunks completed by what it has received, and with `GOOD` only when there
are some. -/
theorem receiveChunksBlocking_clean {recvs remaining : List Recv} {kept message kept' : List UInt8}
    {realloced : Bool} {retval : StatusCode}
    (hkept : (chunkReader recvBufferSize).cut kept = ([], kept))
    (hclean : chunkFront recvBufferSize
      ((chunkReader recvBufferSize).cut (kept ++ bytesOf recvs)).2 ≠ .garbage)
    (h : receiveChunksBlocking recvBufferSize recvs kept realloced =
      some ((retval, message), kept', remaining)) :
  ∃ received, recvs = received ++ remaining ∧
    message = ((chunkReader recvBufferSize).cut (kept ++ bytesOf received)).1.flatten ∧
    kept' = ((chunkReader recvBufferSize).cut (kept ++ bytesOf received)).2 ∧
    (retval = .good → message ≠ [])
  := by
  induction recvs generalizing kept realloced with
  | nil => cases h
  | cons recv recvs ih =>
      have hbytes : kept ++ bytesOf (recv :: recvs) = kept ++ recv.chunks ++ bytesOf recvs := by
        rw [bytesOf, List.map_cons, List.flatten_cons, List.append_assoc]
        rfl
      rw [hbytes] at hclean
      obtain ⟨-, hmessage, hincomplete⟩ :=
        @completeMessages_clean recvBufferSize kept recv.chunks realloced _ _ rfl
          (fun hgarbage => hclean ((chunkReader recvBufferSize).garbage_of_begins _ hgarbage))
      have hone : bytesOf [recv] = recv.chunks := by simp [bytesOf]
      simp only [receiveChunksBlocking, hmessage, hincomplete] at h
      split at h
      · rename_i hreturn
        simp only [Option.some.injEq, Prod.mk.injEq] at h
        obtain ⟨⟨rfl, rfl⟩, rfl, rfl⟩ := h
        use [recv], rfl
        rw [hone]
        refine ⟨rfl, rfl, ?_⟩
        intro hgood
        apply List.length_pos_iff.mp
        apply hreturn.resolve_left (not_not.mpr hgood)
      · rename_i hwait
        split at h
        · simp only [Option.some.injEq, Prod.mk.injEq] at h
          obtain ⟨⟨rfl, rfl⟩, rfl, rfl⟩ := h
          use [recv], rfl
          rw [hone]
          refine ⟨rfl, rfl, ?_⟩
          intro hgood
          cases hgood
        · -- no chunk is complete, and all that was received is kept back
          have hnone : ((chunkReader recvBufferSize).cut (kept ++ recv.chunks)).1.flatten = [] := by
            apply List.eq_nil_of_length_eq_zero
            rw [not_or] at hwait
            omega
          have hall := (chunkReader recvBufferSize).flatten_cut (kept ++ recv.chunks)
          rw [hnone, List.nil_append] at hall
          rw [hall] at h
          have hcut := (chunkReader recvBufferSize).cut_stop
            ((chunkReader recvBufferSize).front_cut_ne_frame (kept ++ recv.chunks))
          rw [hall] at hcut
          obtain ⟨received, rfl, hmessage', hkept', hgood⟩ := ih hcut hclean h
          have hreceived : kept ++ bytesOf (recv :: received) =
              kept ++ recv.chunks ++ bytesOf received := by
            rw [bytesOf, List.map_cons, List.flatten_cons, List.append_assoc]
            rfl
          use recv :: received, rfl
          rw [hreceived]
          exact ⟨hmessage', hkept', hgood⟩

theorem bytesOf_append (recvs recvs' : List Recv) :
  bytesOf (recvs ++ recvs') = bytesOf recvs ++ bytesOf recvs'
  := by
  rw [bytesOf, List.map_append, List.flatten_append]
  rfl

/-- Calls return the chunks completed by what they have received. -/
theorem receiveCalls_clean {calls : Nat} {recvs remaining : List Recv} {kept kept' : List UInt8}
    {results : List (StatusCode × List UInt8)}
    (hkept : (chunkReader recvBufferSize).cut kept = ([], kept))
    (hclean : chunkFront recvBufferSize
      ((chunkReader recvBufferSize).cut (kept ++ bytesOf recvs)).2 ≠ .garbage)
    (h : receiveCalls recvBufferSize calls recvs kept = some (results, kept', remaining)) :
  ∃ received, recvs = received ++ remaining ∧ ∃ groups : List (List (List UInt8)),
    (chunkReader recvBufferSize).cut (kept ++ bytesOf received) = (groups.flatten, kept') ∧
    results.map Prod.snd = groups.map List.flatten ∧
    ∀ result ∈ results, result.1 = .good → result.2 ≠ []
  := by
  induction calls generalizing recvs kept results with
  | zero =>
      simp only [receiveCalls, Option.some.injEq, Prod.mk.injEq] at h
      obtain ⟨rfl, rfl, rfl⟩ := h
      use [], rfl, []
      refine ⟨?_, rfl, ?_⟩
      · simpa [bytesOf] using hkept
      · rintro result ⟨⟩
  | succ calls ih =>
      obtain ⟨⟨⟨retval, message⟩, kept₁, recvs₁⟩, hcall, hrest⟩ := Option.bind_eq_some_iff.mp h
      obtain ⟨⟨results₁, kept₂, recvs₂⟩, hcalls, heq⟩ := Option.bind_eq_some_iff.mp hrest
      simp only [Option.some.injEq, Prod.mk.injEq] at heq
      obtain ⟨rfl, rfl, rfl⟩ := heq
      obtain ⟨received, rfl, rfl, rfl, hgood⟩ :=
        receiveChunksBlocking_clean hkept hclean hcall
      rw [bytesOf_append, ← List.append_assoc,
        Reader.cut_append (kept ++ bytesOf received)] at hclean
      obtain ⟨received', rfl, groups, hcut, hresults, hgoods⟩ :=
        ih (Reader.cut_stop (Reader.front_cut_ne_frame _)) hclean hcalls
      use received ++ received'
      constructor
      · rw [List.append_assoc]
      · use ((chunkReader recvBufferSize).cut (kept ++ bytesOf received)).1 :: groups
        refine ⟨?_, ?_, ?_⟩
        · rw [bytesOf_append, ← List.append_assoc, Reader.cut_append (kept ++ bytesOf received),
            hcut, List.flatten_cons]
        · rw [List.map_cons, List.map_cons, hresults]
        · intro result hmem
          rcases List.mem_cons.mp hmem with rfl | hmem
          · apply hgood
          · apply hgoods result hmem

/-- However the chunks of a stream are received, and whenever calls give up waiting, the calls
return them whole, in their order and each once, and a call that returns `GOOD` returns some.  What
has been received of the next chunk is kept back. -/
theorem receiveCalls_complete {recvs : List Recv} {chunks : List (List UInt8)} {rest : List UInt8}
    (hchunks : ∀ chunk ∈ chunks, IsChunk recvBufferSize chunk)
    (hrest : chunkFront recvBufferSize rest = .incomplete)
    (hrecvs : bytesOf recvs = chunks.flatten ++ rest) {calls : Nat}
    {results : List (StatusCode × List UInt8)} {kept : List UInt8} {remaining : List Recv}
    (h : receiveCalls recvBufferSize calls recvs [] = some (results, kept, remaining)) :
  ∃ received, recvs = received ++ remaining ∧
    ∃ (groups : List (List (List UInt8))) (later : List (List UInt8)),
      groups.flatten ++ later = chunks ∧ results.map Prod.snd = groups.map List.flatten ∧
      groups.flatten.flatten ++ kept = bytesOf received ∧
      ∀ result ∈ results, result.1 = .good → result.2 ≠ []
  := by
  have hcut := cut_chunks hchunks hrest
  rw [← hrecvs] at hcut
  have hclean : chunkFront recvBufferSize
      ((chunkReader recvBufferSize).cut ([] ++ bytesOf recvs)).2 ≠ .garbage := by
    rw [List.nil_append, hcut, hrest]
    exact Front.noConfusion
  obtain ⟨received, rfl, groups, hgroups, hresults, hgood⟩ :=
    receiveCalls_clean (@cut_incomplete recvBufferSize [] rfl) hclean h
  rw [List.nil_append] at hgroups
  rw [bytesOf_append, Reader.cut_append, hgroups] at hcut
  obtain ⟨hlater, -⟩ := Prod.mk.inj hcut
  have hbytes := (chunkReader recvBufferSize).flatten_cut (bytesOf received)
  rw [hgroups] at hbytes
  use received, rfl, groups, ((chunkReader recvBufferSize).cut (kept ++ bytesOf remaining)).1,
    hlater, hresults, hbytes

/-- A deadline passes before the first of two chunks is complete, and the third has only begun. -/
def lateRecvs : List Recv :=
  [⟨.good, shortChunk.take 5, true⟩, ⟨.good, shortChunk.drop 5 ++ shortChunk, false⟩,
    ⟨.good, [0x4d], false⟩]

theorem receiveCalls_complete_late :
  ∃ results kept remaining,
    receiveCalls 16 2 lateRecvs [] = some (results, kept, remaining) ∧
    results = [(.goodNonCriticalTimeout, []), (.good, shortChunk ++ shortChunk)] ∧
    ∃ received, lateRecvs = received ++ remaining ∧
      ∃ (groups : List (List (List UInt8))) (later : List (List UInt8)),
        groups.flatten ++ later = [shortChunk, shortChunk] ∧
        results.map Prod.snd = groups.map List.flatten ∧
        groups.flatten.flatten ++ kept = bytesOf received ∧
        ∀ result ∈ results, result.1 = .good → result.2 ≠ []
  := by
  refine ⟨_, _, _, rfl, rfl, ?_⟩
  apply @receiveCalls_complete 16 lateRecvs [shortChunk, shortChunk] [0x4d] (by decide) rfl rfl 2
  rfl

end

end UA
