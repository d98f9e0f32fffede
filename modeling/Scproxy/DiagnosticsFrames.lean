import Scproxy.Diagnostics

namespace Scproxy

namespace Diagnostics

/-- A message of a dump, or the fault that ends its reading. -/
inductive Frame
  | message (kind flags : Nat) (payload : List UInt8)
  | fault (error : SnapshotError)

def frameLength (bytes : List UInt8) : Nat := fromNe (bytes.take 4)

/-- The first message of the rest of a datagram. -/
def headFrame (bytes : List UInt8) : Frame :=
  if frameLength bytes < 16 ∨ bytes.length < frameLength bytes then
    .fault (.new .other "invalid socket diagnostic message")
  else .message (fromNe ((bytes.drop 4).take 2)) (fromNe ((bytes.drop 6).take 2))
    ((bytes.drop 16).take (frameLength bytes - 16))

/-- The messages of a datagram, up to the first malformed one. -/
def frames (bytes : List UInt8) : List Frame :=
  if bytes.length < 16 then []
  else if frameLength bytes < 16 then [headFrame bytes]
  else headFrame bytes :: frames (bytes.drop (align (frameLength bytes)))
termination_by bytes.length
decreasing_by
  have := align_ge (frameLength bytes)
  rw [List.length_drop]
  omega

def Recv.frames : Recv → List Frame
  | .failed errno => if errno = Errno.eintr then [] else [.fault (.raw errno)]
  | .datagram bytes =>
    if bytes = [] ∨ 65536 < bytes.length then
      [.fault (.new .other "truncated socket diagnostic response")]
    else Diagnostics.frames bytes

namespace Frame

/-- The error that reading a message ends with. -/
def error? : Frame → Option SnapshotError
  | .fault error => some error
  | .message kind flags payload =>
    if flags &&& 0x10 ≠ 0 then some (.new .interrupted "socket diagnostic dump interrupted")
    else if kind = 2 then
      if payload.length < 4 then some (.new .other "invalid netlink error")
      else if BitVec.ofNat 32 (fromNe (payload.take 4)) ≠ 0 then
        some (.raw (-BitVec.ofNat 32 (fromNe (payload.take 4))).toInt)
      else none
    else none

/-- `NLMSG_DONE`. -/
def isDone : Frame → Bool
  | .message kind _ _ => kind = 3
  | .fault _ => false

/-- The cookie of a socket, its low word at offset 44 of the payload and its high word at 48. -/
def cookie? : Frame → Option UInt64
  | .message kind _ payload =>
    if kind = 20 ∧ 72 ≤ payload.length then
      some (.ofNat (fromNe ((payload.drop 44).take 4) + 2 ^ 32 * fromNe ((payload.drop 48).take 4)))
    else none
  | .fault _ => none

def addCookie (frame : Frame) (sockets : Finset UInt64) : Finset UInt64 :=
  match frame.cookie? with
  | some cookie => insert cookie sockets
  | none => sockets

/-- The code goes on behind the message. -/
def Harmless (frame : Frame) : Prop := frame.error? = none ∧ frame.isDone = false

/-- What the code does on a message; `next` is where the next one starts. -/
def progress (frame : Frame) (next : Nat) (sockets : Finset UInt64) : Progress :=
  match frame.error? with
  | some error => .failed error
  | none => if frame.isDone then .finished else .next next (frame.addCookie sockets)

end Frame

/-- What a sequence of messages amounts to, after `sockets` were seen. -/
def verdict (sockets : Finset UInt64) : List Frame → Option (Except SnapshotError (Finset UInt64))
  | [] => none
  | frame :: frames =>
    match frame.error? with
    | some error => some (.error error)
    | none =>
      if frame.isDone then some (.ok sockets)
      else verdict (frame.addCookie sockets) frames

theorem fromNe_lt (bytes : List UInt8) : fromNe bytes < 256 ^ bytes.length := by
  have h := Nat.ofDigits_lt_base_pow_length (b := 256) (l := bytes.map UInt8.toNat) (by decide) (by
    intro x hx
    obtain ⟨b, _, rfl⟩ := List.mem_map.mp hx
    exact b.toNat_lt)
  rwa [List.length_map] at h

theorem or_shiftLeft_eq {low high : Nat} (hlow : low < 2 ^ 32) (hhigh : high < 2 ^ 32) :
    UInt64.ofNat low ||| (UInt64.ofNat high <<< 32) = UInt64.ofNat (low + 2 ^ 32 * high) := by
  apply UInt64.toNat_inj.mp
  have hshift : (UInt64.ofNat high <<< 32).toNat = high <<< 32 := by
    rw [UInt64.toNat_shiftLeft, UInt64.toNat_ofNat', Nat.shiftLeft_eq, Nat.shiftLeft_eq]
    show high % 2 ^ 64 * 2 ^ 32 % 2 ^ 64 = high * 2 ^ 32
    omega
  rw [UInt64.toNat_or, hshift, UInt64.toNat_ofNat', UInt64.toNat_ofNat', Nat.or_comm,
    Nat.mod_eq_of_lt (by omega), ← Nat.shiftLeft_add_eq_or_of_lt hlow, Nat.shiftLeft_eq,
    Nat.mod_eq_of_lt (by omega)]
  omega

theorem cookie_eq {payload : List UInt8} (h : 72 ≤ payload.length) :
    cookie payload = .ok (.ofNat (fromNe ((payload.drop 44).take 4) +
      2 ^ 32 * fromNe ((payload.drop 48).take 4))) := by
  have hword : ∀ {start}, start + 4 ≤ payload.length →
      fromNe ((payload.drop start).take 4) < 2 ^ 32 := by
    intro start hstart
    have hlt := fromNe_lt ((payload.drop start).take 4)
    rwa [List.length_take, List.length_drop, Nat.min_eq_left (by omega)] at hlt
  rw [cookie, slice_eq (by omega) (by omega), slice_eq (by omega) (by omega)]
  exact congrArg Except.ok (or_shiftLeft_eq (hword (by omega)) (hword (by omega)))

theorem handle_eq (kind : Nat) {flags : Nat} (hflags : flags &&& 0x10 = 0) (payload : List UInt8)
    (next : Nat) (sockets : Finset UInt64) :
    handle kind payload next sockets =
      .ok ((Frame.message kind flags payload).progress next sockets) := by
  simp only [handle, Frame.progress, Frame.error?, Frame.isDone, Frame.addCookie, Frame.cookie?,
    hflags, ne_eq, not_true_eq_false, ↓reduceIte]
  by_cases hdone : kind = 3
  · simp [hdone]
  · by_cases herror : kind = 2
    · simp only [herror, Nat.reduceEqDiff, ↓reduceIte, decide_false, Bool.false_eq_true, false_and]
      split
      next => rfl
      next =>
        split
        next => rfl
        next => rfl
    · simp only [hdone, herror, ↓reduceIte, decide_false, Bool.false_eq_true]
      split
      next hsocket =>
        rw [cookie_eq hsocket.2]
        rfl
      next => rfl

/-- What lies behind the datagram in the buffer is not read. -/
theorem slice_append {α : Type} {bytes stale : List α} {start stop : Nat} (h : start ≤ stop)
    (hstop : stop ≤ bytes.length) :
    slice (bytes ++ stale) start stop = .ok ((bytes.drop start).take (stop - start)) := by
  rw [slice_eq h (by rw [List.length_append]; omega), List.drop_append_of_le_length (by omega),
    List.take_append_of_le_length (by rw [List.length_drop]; omega)]

theorem header_eq {bytes : List UInt8} (stale : List UInt8) {offset : Nat}
    (h : offset + 16 ≤ bytes.length) :
    header (bytes ++ stale) offset = .ok ⟨frameLength (bytes.drop offset),
      fromNe (((bytes.drop offset).drop 4).take 2), fromNe (((bytes.drop offset).drop 6).take 2)⟩ := by
  have hlength : ((bytes.drop offset).take 16).length = 16 := by
    rw [List.length_take, List.length_drop]
    omega
  have hslice : ∀ {start stop : Nat}, start ≤ stop → stop ≤ 16 →
      slice ((bytes.drop offset).take 16) start stop =
        .ok (((bytes.drop offset).drop start).take (stop - start)) := by
    intro start stop hle hstop
    rw [slice_eq hle (by omega), List.drop_take, List.take_take]
    congr 2
    omega
  rw [header, slice_append (by omega) h, Nat.add_sub_cancel_left]
  refine bind_eq_ok.mpr ⟨_, rfl, bind_eq_ok.mpr ⟨_, hslice (by omega) (by omega), ?_⟩⟩
  refine bind_eq_ok.mpr ⟨_, hslice (by omega) (by omega), ?_⟩
  exact bind_eq_ok.mpr ⟨_, hslice (by omega) (by omega), rfl⟩

theorem headFrame_of_wellFormed {bytes : List UInt8}
    (h : ¬(frameLength bytes < 16 ∨ bytes.length < frameLength bytes)) :
    headFrame bytes = .message (fromNe ((bytes.drop 4).take 2)) (fromNe ((bytes.drop 6).take 2))
      ((bytes.drop 16).take (frameLength bytes - 16)) :=
  if_neg h

theorem message_eq {bytes : List UInt8} (stale : List UInt8) {offset : Nat}
    (h : offset + 16 ≤ bytes.length) (sockets : Finset UInt64) :
    message (bytes ++ stale) bytes.length offset sockets =
      .ok ((headFrame (bytes.drop offset)).progress
        (offset + align (frameLength (bytes.drop offset))) sockets) := by
  rw [message, header_eq stale h]
  refine bind_eq_ok.mpr ⟨_, rfl, ?_⟩
  dsimp only
  have hlength : (bytes.drop offset).length = bytes.length - offset := List.length_drop
  by_cases hbad : frameLength (bytes.drop offset) < 16 ∨
      bytes.length < offset + frameLength (bytes.drop offset)
  · rw [if_pos hbad, headFrame, if_pos (by omega)]
    rfl
  · rw [if_neg hbad, headFrame_of_wellFormed (by omega)]
    split
    next hflags => simp only [Frame.progress, Frame.error?, if_pos hflags]
    next hflags =>
      have hpayload : slice (bytes ++ stale) (offset + 16)
          (offset + frameLength (bytes.drop offset)) =
          .ok (((bytes.drop offset).drop 16).take (frameLength (bytes.drop offset) - 16)) := by
        rw [slice_append (by omega) (by omega), List.drop_drop, Nat.add_sub_add_left]
      rw [hpayload]
      exact handle_eq _ (not_not.mp hflags) _ _ _

section Progress

variable {frame : Frame} {next : Nat} {sockets : Finset UInt64}

theorem error_of_progress {error : SnapshotError}
    (h : frame.progress next sockets = .failed error) : frame.error? = some error := by
  unfold Frame.progress at h
  split at h
  next e herror =>
    cases h
    exact herror
  next =>
    split at h
    next => cases h
    next => cases h

theorem done_of_progress (h : frame.progress next sockets = .finished) :
    frame.error? = none ∧ frame.isDone = true := by
  unfold Frame.progress at h
  split at h
  next => cases h
  next hnone =>
    split at h
    next hdone => exact ⟨hnone, hdone⟩
    next => cases h

theorem harmless_of_progress {next' : Nat} {sockets' : Finset UInt64}
    (h : frame.progress next sockets = .next next' sockets') :
    frame.Harmless ∧ next' = next ∧ sockets' = frame.addCookie sockets := by
  unfold Frame.progress at h
  split at h
  next => cases h
  next hnone =>
    split at h
    next => cases h
    next hdone =>
      cases h
      exact ⟨⟨hnone, Bool.eq_false_iff.mpr hdone⟩, rfl, rfl⟩

end Progress

theorem verdict_of_error {frame : Frame} {error : SnapshotError} (h : frame.error? = some error)
    (sockets : Finset UInt64) (later : List Frame) :
    verdict sockets (frame :: later) = some (.error error) := by
  simp only [verdict, h]

theorem verdict_of_done {frame : Frame} (h : frame.error? = none) (hdone : frame.isDone = true)
    (sockets : Finset UInt64) (later : List Frame) :
    verdict sockets (frame :: later) = some (.ok sockets) := by
  simp only [verdict, h, if_pos hdone]

theorem verdict_of_harmless {frame : Frame} (h : frame.Harmless) (sockets : Finset UInt64)
    (later : List Frame) :
    verdict sockets (frame :: later) = verdict (frame.addCookie sockets) later := by
  simp only [verdict, h.1, h.2, Bool.false_eq_true, ↓reduceIte]

theorem frames_eq_cons {bytes : List UInt8} (h : 16 ≤ bytes.length) :
    ∃ tail, frames bytes = headFrame bytes :: tail ∧
      ((headFrame bytes).error? = none → tail = frames (bytes.drop (align (frameLength bytes)))) := by
  rw [frames, if_neg (by omega)]
  split
  next hshort =>
    refine ⟨[], rfl, fun hnone => ?_⟩
    rw [headFrame, if_pos (Or.inl hshort)] at hnone
    cases hnone
  next => exact ⟨_, rfl, fun _ => rfl⟩

/-- The outcome of a scan, when the frames of later datagrams follow. -/
def Scan.verdict (scan : Scan) (later : List Frame) :
    Option (Except SnapshotError (Finset UInt64)) :=
  match scan with
  | .finished sockets => some (.ok sockets)
  | .failed error => some (.error error)
  | .more sockets => Diagnostics.verdict sockets later

theorem messages_eq (bytes stale : List UInt8) (offset : Nat) (sockets : Finset UInt64) :
    ∃ scan, messages (bytes ++ stale) bytes.length offset sockets = .ok scan ∧
      ∀ later, scan.verdict later = verdict sockets (frames (bytes.drop offset) ++ later) := by
  have hcons : ∀ {offset}, offset + 16 ≤ bytes.length → 16 ≤ (bytes.drop offset).length := by
    intro offset h
    rw [List.length_drop]
    omega
  fun_induction messages (bytes ++ stale) bytes.length offset sockets with
  | case1 offset sockets h reason hmessage =>
    rw [message_eq stale h] at hmessage
    cases hmessage
  | case2 offset sockets h hmessage =>
    rw [message_eq stale h, Except.ok.injEq] at hmessage
    obtain ⟨tail, hframes, _⟩ := frames_eq_cons (hcons h)
    obtain ⟨hnone, hdone⟩ := done_of_progress hmessage
    refine ⟨_, rfl, fun later => ?_⟩
    rw [hframes, List.cons_append, verdict_of_done hnone hdone]
    rfl
  | case3 offset sockets h error hmessage =>
    rw [message_eq stale h, Except.ok.injEq] at hmessage
    obtain ⟨tail, hframes, _⟩ := frames_eq_cons (hcons h)
    refine ⟨_, rfl, fun later => ?_⟩
    rw [hframes, List.cons_append, verdict_of_error (error_of_progress hmessage)]
    rfl
  | case4 offset sockets h next sockets' hmessage ih =>
    rw [message_eq stale h, Except.ok.injEq] at hmessage
    obtain ⟨tail, hframes, htail⟩ := frames_eq_cons (hcons h)
    obtain ⟨hharmless, rfl, rfl⟩ := harmless_of_progress hmessage
    obtain ⟨scan, hscan, hverdict⟩ := ih
    refine ⟨scan, hscan, fun later => ?_⟩
    rw [hverdict, hframes, List.cons_append, verdict_of_harmless hharmless, htail hharmless.1,
      List.drop_drop]
  | case5 offset sockets h =>
    refine ⟨_, rfl, fun later => ?_⟩
    rw [frames, if_pos (by rw [List.length_drop]; omega)]
    rfl

theorem receive_eq {buffer : List UInt8} (hbuffer : buffer.length = 65536)
    (sockets : Finset UInt64) (received : List Recv) :
    receive buffer sockets received = .ok (verdict sockets (received.flatMap Recv.frames)) := by
  induction received generalizing buffer sockets with
  | nil => rfl
  | cons recv received ih =>
    rw [List.flatMap_cons]
    cases recv with
    | failed errno =>
      rw [receive, Recv.frames]
      split
      next => exact ih hbuffer sockets
      next => rfl
    | datagram bytes =>
      simp only [receive, Recv.frames, hbuffer, List.length_eq_zero_iff]
      split
      next => rfl
      next hcount =>
        obtain ⟨scan, hscan, hverdict⟩ := messages_eq bytes (buffer.drop bytes.length) 0 sockets
        refine bind_eq_ok.mpr ⟨scan, hscan, ?_⟩
        have hlength : (bytes ++ buffer.drop bytes.length).length = 65536 := by
          rw [List.length_append, List.length_drop]
          omega
        have hlater := hverdict (received.flatMap Recv.frames)
        rw [List.drop_zero] at hlater
        rw [← hlater]
        cases scan with
        | finished sockets => rfl
        | failed error => rfl
        | more sockets => exact ih hlength sockets

/-- A complete dump: harmless messages, then `NLMSG_DONE`. -/
theorem verdict_eq_ok {sockets set : Finset UInt64} {frames : List Frame} :
    verdict sockets frames = some (.ok set) ↔
      ∃ before done after, frames = before ++ done :: after ∧ (∀ frame ∈ before, frame.Harmless) ∧
        done.error? = none ∧ done.isDone = true ∧
        set = before.foldl (fun sockets frame => frame.addCookie sockets) sockets := by
  induction frames generalizing sockets with
  | nil =>
    constructor
    · intro h
      cases h
    · rintro ⟨before, done, after, h, _⟩
      simp at h
  | cons frame frames ih =>
    constructor
    · intro h
      rcases herror : frame.error? with _ | error
      · by_cases hdone : frame.isDone = true
        · rw [verdict_of_done herror hdone, Option.some.injEq, Except.ok.injEq] at h
          exact ⟨[], frame, frames, rfl, by simp, herror, hdone, h.symm⟩
        · have hharmless : frame.Harmless := ⟨herror, Bool.eq_false_iff.mpr hdone⟩
          rw [verdict_of_harmless hharmless, ih] at h
          obtain ⟨before, done, after, rfl, hbefore, hnone, hisDone, hset⟩ := h
          exact ⟨frame :: before, done, after, rfl,
            List.forall_mem_cons.mpr ⟨hharmless, hbefore⟩, hnone, hisDone, hset⟩
      · rw [verdict_of_error herror] at h
        cases h
    · rintro ⟨before, done, after, h, hbefore, hnone, hisDone, hset⟩
      cases before with
      | nil =>
        obtain ⟨rfl, rfl⟩ := List.cons.inj h
        rw [verdict_of_done hnone hisDone, hset]
        rfl
      | cons first before =>
        obtain ⟨rfl, rfl⟩ := List.cons.inj h
        obtain ⟨hfirst, hrest⟩ := List.forall_mem_cons.mp hbefore
        rw [verdict_of_harmless hfirst, ih]
        exact ⟨before, done, after, rfl, hrest, hnone, hisDone, hset⟩

theorem mem_addCookie {cookie : UInt64} {frame : Frame} {sockets : Finset UInt64} :
    cookie ∈ frame.addCookie sockets ↔ cookie ∈ sockets ∨ frame.cookie? = some cookie := by
  unfold Frame.addCookie
  split
  next c hc => rw [hc, Finset.mem_insert, Option.some.injEq, or_comm, eq_comm]
  next hnone => simp [hnone]

theorem mem_cookies {cookie : UInt64} {before : List Frame} {sockets : Finset UInt64} :
    cookie ∈ before.foldl (fun sockets frame => frame.addCookie sockets) sockets ↔
      cookie ∈ sockets ∨ ∃ frame ∈ before, frame.cookie? = some cookie := by
  induction before generalizing sockets with
  | nil => simp
  | cons frame before ih =>
    rw [List.foldl_cons, ih, mem_addCookie, List.exists_mem_cons_iff, or_assoc]

/-- A message that is neither malformed, nor flagged as interrupted, nor an error. -/
def Frame.Sound : Frame → Prop
  | .message kind flags payload =>
    flags &&& 0x10 = 0 ∧
      (kind = 2 → 4 ≤ payload.length ∧ BitVec.ofNat 32 (fromNe (payload.take 4)) = 0)
  | .fault _ => False

theorem error?_eq_none {frame : Frame} : frame.error? = none ↔ frame.Sound := by
  cases frame with
  | fault error => simp [Frame.error?, Frame.Sound]
  | message kind flags payload =>
    simp only [Frame.error?, Frame.Sound]
    split
    next hflags => simp [hflags]
    next hflags =>
      split
      next hkind =>
        split
        next hshort => simp [hkind, Nat.not_le.mpr hshort]
        next hlong =>
          split
          next herrno => simpa [hkind] using fun _ _ => herrno
          next herrno => simp [hkind, not_not.mp hflags, not_not.mp herrno, Nat.not_lt.mp hlong]
      next hkind => simp [hkind, not_not.mp hflags]

theorem done_iff {frame : Frame} : frame.Sound ∧ frame.isDone = true ↔
    ∃ flags payload, frame = .message 3 flags payload ∧ flags &&& 0x10 = 0 := by
  cases frame with
  | fault error => simp [Frame.Sound]
  | message kind flags payload =>
    simp only [Frame.Sound, Frame.isDone, decide_eq_true_eq, Frame.message.injEq]
    constructor
    · rintro ⟨⟨hflags, _⟩, hkind⟩
      exact ⟨flags, payload, ⟨hkind, rfl, rfl⟩, hflags⟩
    · rintro ⟨_, _, ⟨rfl, rfl, rfl⟩, hflags⟩
      exact ⟨⟨hflags, fun h => absurd h (by decide)⟩, rfl⟩

/-- The set of a complete dump. -/
theorem verdict_empty_eq_ok {set : Finset UInt64} {frames : List Frame} :
    verdict ∅ frames = some (.ok set) ↔ ∃ before flags payload after,
      frames = before ++ .message 3 flags payload :: after ∧ flags &&& 0x10 = 0 ∧
      (∀ frame ∈ before, frame.Sound ∧ frame.isDone = false) ∧
      ∀ cookie, cookie ∈ set ↔ ∃ frame ∈ before, frame.cookie? = some cookie := by
  rw [verdict_eq_ok]
  have hharmless : ∀ {frame : Frame}, frame.Harmless ↔ frame.Sound ∧ frame.isDone = false :=
    and_congr_left' error?_eq_none
  have hcookies : ∀ before : List Frame,
      set = before.foldl (fun sockets frame => frame.addCookie sockets) ∅ ↔
        ∀ cookie, cookie ∈ set ↔ ∃ frame ∈ before, frame.cookie? = some cookie := by
    intro before
    rw [Finset.ext_iff]
    simp only [mem_cookies, Finset.notMem_empty, false_or]
  constructor
  · rintro ⟨before, done, after, rfl, hbefore, hnone, hdone, hset⟩
    obtain ⟨flags, payload, rfl, hflags⟩ := done_iff.mp ⟨error?_eq_none.mp hnone, hdone⟩
    exact ⟨before, flags, payload, after, rfl, hflags,
      fun frame hframe => hharmless.mp (hbefore frame hframe), (hcookies before).mp hset⟩
  · rintro ⟨before, flags, payload, after, rfl, hflags, hbefore, hset⟩
    obtain ⟨hsound, hdone⟩ := done_iff.mpr ⟨flags, payload, rfl, hflags⟩
    exact ⟨before, _, after, rfl, fun frame hframe => hharmless.mpr (hbefore frame hframe),
      error?_eq_none.mpr hsound, hdone, (hcookies before).mpr hset⟩

theorem snapshot_complete_dump (os : DiagnosticsOs) :
    (∃ result, snapshot os = .ok result) ∧
      (∀ buffer count offset sockets next sockets',
        message buffer count offset sockets = .ok (.next next sockets') → offset + 16 ≤ next) ∧
      ∀ set, snapshot os = .ok (some (.ok set)) ↔
        os.socket = .ok () ∧ os.send request = .ok () ∧
          ∃ before flags payload after,
            os.received.flatMap Recv.frames = before ++ .message 3 flags payload :: after ∧
            flags &&& 0x10 = 0 ∧ (∀ frame ∈ before, frame.Sound ∧ frame.isDone = false) ∧
            ∀ cookie, cookie ∈ set ↔ ∃ frame ∈ before, frame.cookie? = some cookie := by
  have hreceive := receive_eq (List.length_replicate (n := 65536) (a := (0 : UInt8))) ∅ os.received
  refine ⟨?_, fun _ _ _ _ _ _ => message_advances, fun set => ?_⟩
  · unfold snapshot
    split
    next => exact ⟨_, rfl⟩
    next =>
      split
      next => exact ⟨_, rfl⟩
      next => exact ⟨_, hreceive⟩
  · unfold snapshot
    split
    next hsocket => simp [hsocket]
    next hsocket =>
      split
      next hsend => simp [hsend]
      next hsend =>
        rw [hreceive, Except.ok.injEq, verdict_empty_eq_ok]
        simp [hsocket, hsend]

end Diagnostics

end Scproxy
