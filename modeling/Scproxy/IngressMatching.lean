import Scproxy.IngressSystem

namespace Scproxy

open Ingress

/-- How far `deliver` has come with a stream. Between the two reads the
socket's connection to the relay, if there is one, is the stream's. -/
inductive ScanOk (relay : SocketAddrV4) (sockets : Nat → Phase) (candidates : List Pending)
    (stream : IngressStream) : Interaction AddressOp AddressOp.Ret (Option Nat) → Prop
  | scanning (rest : List Pending) (index : Nat) : candidates.drop index = rest →
      ScanOk relay sockets candidates stream (findCandidate relay stream.source rest index)
  | reading (pending : Pending) (rest : List Pending) (index : Nat) :
      candidates.drop index = pending :: rest → pending.sender = true →
      (∀ call source, sockets pending.socket = .connected call source relay →
        source = stream.source) →
      ScanOk relay sockets candidates stream
        (.perform (.peerAddress pending.socket) fun peerAddress =>
          if peerAddress = some relay then .done (some index)
          else findCandidate relay stream.source rest (index + 1))
  | matched (pending : Pending) (index : Nat) : candidates[index]? = some pending →
      stream.call = some pending.call → ScanOk relay sockets candidates stream (.done (some index))

structure IngressOk (relay : SocketAddrV4) (s : IngressSystem) : Prop where
  distinct : ∀ socket other pair, (s.sockets socket).endpoints = some pair →
    (s.sockets other).endpoints = some pair → socket = other
  waiting : ∀ socket call source, s.sockets socket = .connected call source relay →
    ∀ pending, Waits s.waiting pending → pending.socket = socket → call = some pending.call
  streams : ∀ socket call source, s.sockets socket = .connected call source relay →
    ∀ stream ∈ s.streams, stream.source = source → stream.call = call
  hand : ∀ delivery, s.hand = some delivery → ScanOk relay s.sockets
    (s.candidates delivery.stream.source.port) delivery.stream delivery.program
  delivered : ∀ entry ∈ s.delivered, entry.2.call = some entry.1

section

variable {relay : SocketAddrV4} {s t : IngressSystem} {sockets sockets' : Nat → Phase}
  {candidates : List Pending} {stream : IngressStream}
  {program : Interaction AddressOp AddressOp.Ret (Option Nat)}

theorem ScanOk.mono (hsockets : ∀ pending ∈ candidates, ∀ call source,
      sockets' pending.socket = .connected call source relay →
      sockets pending.socket = .connected call source relay)
    (h : ScanOk relay sockets candidates stream program) :
    ScanOk relay sockets' candidates stream program := by
  cases h with
  | scanning rest index hdrop => exact .scanning rest index hdrop
  | reading pending rest index hdrop hsender hsource =>
    refine .reading pending rest index hdrop hsender ?_
    intro call source hconnected
    have hmem : pending ∈ candidates :=
      List.mem_of_mem_drop (hdrop ▸ List.mem_cons_self : pending ∈ candidates.drop index)
    exact hsource call source (hsockets pending hmem call source hconnected)
  | matched pending index hindex hcall => exact .matched pending index hindex hcall

theorem findCandidate_perform {source : SocketAddrV4} {rest : List Pending} {index : Nat} {op : AddressOp}
    {next : Option SocketAddrV4 → Interaction AddressOp AddressOp.Ret (Option Nat)}
    (hdrop : candidates.drop index = rest)
    (h : findCandidate relay source rest index = .perform op next) :
    ∃ pending rest index, candidates.drop index = pending :: rest ∧ pending.sender = true ∧
      op = .localAddress pending.socket ∧ next = fun localAddress =>
        if localAddress = some source then
          .perform (.peerAddress pending.socket) fun peerAddress =>
            if peerAddress = some relay then .done (some index)
            else findCandidate relay source rest (index + 1)
        else findCandidate relay source rest (index + 1) := by
  induction rest generalizing index with
  | nil => cases h
  | cons pending rest ih =>
    unfold findCandidate at h
    split at h
    next hsender =>
      cases h
      exact ⟨pending, rest, index, hdrop, hsender, rfl, rfl⟩
    next =>
      apply ih _ h
      rw [← List.drop_drop, hdrop]
      rfl

theorem findCandidate_done {source : SocketAddrV4} {rest : List Pending} {index : Nat} {result : Option Nat}
    (h : findCandidate relay source rest index = .done result) : result = none := by
  induction rest generalizing index with
  | nil =>
    cases h
    rfl
  | cons pending rest ih =>
    unfold findCandidate at h
    split at h
    next => cases h
    next => exact ih h

theorem drop_succ_of_drop {index : Nat} {pending : Pending} {rest : List Pending}
    (h : candidates.drop index = pending :: rest) :
    candidates.drop (index + 1) = rest ∧ candidates[index]? = some pending := by
  constructor
  · rw [← List.drop_drop, h]
    rfl
  · have hget : (candidates.drop index)[0]? = some pending := by rw [h]; rfl
    rwa [List.getElem?_drop] at hget

theorem connected_of_peerAddress {phase : Phase} {peer : SocketAddrV4}
    (h : phase.peerAddress = some peer) :
    ∃ call, phase = .connected call phase.localAddress peer := by
  cases phase with
  | idle bound => cases h
  | connecting call source other => cases h
  | connected call source other =>
    cases h
    exact ⟨call, rfl⟩

/-- One read of an address by `deliver`. -/
theorem ScanOk.read {op : AddressOp} {answer : Option SocketAddrV4}
    {next : Option SocketAddrV4 → Interaction AddressOp AddressOp.Ret (Option Nat)}
    (h : IngressOk relay s) (hhand : s.hand = some ⟨stream, .perform op next⟩)
    (hanswer : answer = s.answer op ∨ answer = none) :
    ScanOk relay s.sockets (s.candidates stream.source.port) stream (next answer) := by
  have hscan := h.hand _ hhand
  dsimp only at hscan
  generalize hprogram : (.perform op next : Interaction AddressOp AddressOp.Ret (Option Nat)) =
    program at hscan
  cases hscan with
  | scanning rest index hdrop =>
    obtain ⟨pending, rest, index, hdrop, hsender, hop, hnext⟩ :=
      findCandidate_perform hdrop hprogram.symm
    subst hop hnext
    dsimp only
    split
    next hsource =>
      refine .reading pending rest index hdrop hsender ?_
      intro call source hconnected
      rcases hanswer with hanswer | hanswer
      · have hlocal : (s.sockets pending.socket).localAddress = stream.source :=
          Option.some.inj (hanswer.symm.trans hsource)
        rw [hconnected] at hlocal
        exact hlocal
      · rw [hanswer] at hsource
        cases hsource
    next => exact .scanning rest (index + 1) (drop_succ_of_drop hdrop).1
  | reading pending rest index hdrop hsender hsource =>
    cases hprogram
    dsimp only
    split
    next hpeer =>
      rcases hanswer with hanswer | hanswer
      · obtain ⟨call, hconnected⟩ := connected_of_peerAddress (hanswer.symm.trans hpeer)
        have hlocal := hsource call _ hconnected
        have hmem : pending ∈ s.candidates stream.source.port :=
          List.mem_of_mem_drop (hdrop ▸ List.mem_cons_self :
            pending ∈ (s.candidates stream.source.port).drop index)
        have hown := h.waiting _ call _ hconnected pending
          (waits_iff.mpr ⟨hsender, _, hmem⟩) rfl
        have hstream : stream ∈ s.streams := by simp [IngressSystem.streams, hhand]
        have hcall := h.streams _ call _ hconnected stream hstream hlocal.symm
        exact .matched pending index (drop_succ_of_drop hdrop).2 (hcall.trans hown)
      · rw [hanswer] at hpeer
        cases hpeer
    next => exact .scanning rest (index + 1) (drop_succ_of_drop hdrop).1
  | matched pending index hindex hcall => cases hprogram

/-- Steps that connect nothing to the relay and register nothing. -/
theorem IngressOk.change (h : IngressOk relay s)
    (hdistinct : ∀ socket other pair, (t.sockets socket).endpoints = some pair →
      (t.sockets other).endpoints = some pair → socket = other)
    (hconnected : ∀ socket call source, t.sockets socket = .connected call source relay →
      s.sockets socket = .connected call source relay)
    (hwaits : ∀ pending, Waits t.waiting pending → Waits s.waiting pending)
    (hstreams : ∀ stream ∈ t.streams, stream ∈ s.streams)
    (hhand : ∀ delivery, t.hand = some delivery → ScanOk relay t.sockets
      (t.candidates delivery.stream.source.port) delivery.stream delivery.program)
    (hdelivered : ∀ entry ∈ t.delivered, entry.2.call = some entry.1) : IngressOk relay t := by
  refine ⟨hdistinct, ?_, ?_, hhand, hdelivered⟩
  · intro socket call source hsocket pending hpending
    exact h.waiting socket call source (hconnected socket call source hsocket) pending
      (hwaits pending hpending)
  · intro socket call source hsocket stream hstream
    exact h.streams socket call source (hconnected socket call source hsocket) stream
      (hstreams stream hstream)

/-- Steps that leave every socket as it is. -/
theorem IngressOk.sameSockets (h : IngressOk relay s) (hsockets : t.sockets = s.sockets)
    (hwaits : ∀ pending, Waits t.waiting pending → Waits s.waiting pending)
    (hstreams : ∀ stream ∈ t.streams, stream ∈ s.streams)
    (hhand : ∀ delivery, t.hand = some delivery → ScanOk relay t.sockets
      (t.candidates delivery.stream.source.port) delivery.stream delivery.program)
    (hdelivered : ∀ entry ∈ t.delivered, entry.2.call = some entry.1) : IngressOk relay t := by
  refine h.change ?_ ?_ hwaits hstreams hhand hdelivered
  · rw [hsockets]
    exact h.distinct
  · rw [hsockets]
    exact fun _ _ _ hconnected => hconnected

theorem forall_of_hand_none {P : Delivery → Prop} (hhand : s.hand = none) :
    ∀ delivery, s.hand = some delivery → P delivery := by
  intro delivery hdelivery
  rw [hhand] at hdelivery
  cases hdelivery

theorem connected_setSocket {socket other : Nat} {phase : Phase} {call : Option Nat}
    {source peer : SocketAddrV4}
    (h : (s.setSocket socket phase).sockets other = .connected call source peer) :
    other = socket ∧ phase = .connected call source peer ∨
      other ≠ socket ∧ s.sockets other = .connected call source peer := by
  by_cases hother : other = socket
  · subst other
    refine .inl ⟨rfl, ?_⟩
    rwa [s.setSocket_self] at h
  · refine .inr ⟨hother, ?_⟩
    rwa [s.setSocket_of_ne hother] at h

theorem distinct_setSocket {socket : Nat} {phase : Phase} (h : IngressOk relay s)
    (hphase : ∀ pair, phase.endpoints = some pair → ∀ other, other ≠ socket →
      (s.sockets other).endpoints ≠ some pair) :
    ∀ first second pair, ((s.setSocket socket phase).sockets first).endpoints = some pair →
      ((s.setSocket socket phase).sockets second).endpoints = some pair → first = second := by
  intro first second pair hfirst hsecond
  by_cases h1 : first = socket
  · by_cases h2 : second = socket
    · rw [h1, h2]
    · subst first
      rw [s.setSocket_self] at hfirst
      rw [s.setSocket_of_ne h2] at hsecond
      exact absurd hsecond (hphase pair hfirst second h2)
  · rw [s.setSocket_of_ne h1] at hfirst
    by_cases h2 : second = socket
    · subst second
      rw [s.setSocket_self] at hsecond
      exact absurd hfirst (hphase pair hsecond first h1)
    · rw [s.setSocket_of_ne h2] at hsecond
      exact h.distinct first second pair hfirst hsecond

/-- A socket that is not connected to the relay afterwards. -/
theorem IngressOk.setSocket {socket : Nat} {phase : Phase} (h : IngressOk relay s)
    (hphase : ∀ pair, phase.endpoints = some pair → ∀ other, other ≠ socket →
      (s.sockets other).endpoints ≠ some pair)
    (hrelay : ∀ call source, phase ≠ .connected call source relay) :
    IngressOk relay (s.setSocket socket phase) := by
  have hconnected : ∀ other call source,
      (s.setSocket socket phase).sockets other = .connected call source relay →
      s.sockets other = .connected call source relay := by
    intro other call source hother
    rcases connected_setSocket hother with ⟨_, hnew⟩ | ⟨_, hold⟩
    · exact absurd hnew (hrelay call source)
    · exact hold
  refine h.change (distinct_setSocket h hphase) hconnected (fun _ hw => hw) (fun _ hs => hs) ?_
    h.delivered
  intro delivery hhand
  exact (h.hand delivery hhand).mono fun pending _ => hconnected pending.socket

end

end Scproxy
