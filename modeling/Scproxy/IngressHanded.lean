import Scproxy.IngressListed

namespace Scproxy

open Ingress IngressTable

section

variable {relay : SocketAddrV4} {s t : IngressTable}

/-- `deliver` was told that a socket has the stream's addresses. -/
def Asked (relay source : SocketAddrV4) (socket : Nat) (reads : Reads) : Prop :=
  (.localAddress socket, some source) ∈ reads ∧ (.peerAddress socket, some relay) ∈ reads

/-- How far `deliver` has come with a stream. -/
inductive Scanned (relay source : SocketAddrV4) (candidates : List Pending) (reads : Reads) :
    Interaction AddressOp AddressOp.Ret (Option Nat) → Prop
  | scanning (rest : List Pending) (index : Nat) : candidates.drop index = rest →
      Scanned relay source candidates reads (findCandidate relay source rest index)
  | reading (pending : Pending) (rest : List Pending) (index : Nat) :
      candidates.drop index = pending :: rest → pending.sender = true →
      (.localAddress pending.socket, some source) ∈ reads →
      Scanned relay source candidates reads
        (.perform (.peerAddress pending.socket) fun peerAddress =>
          if peerAddress = some relay then .done (some index)
          else findCandidate relay source rest (index + 1))
  | matched (pending : Pending) (index : Nat) : candidates[index]? = some pending →
      pending.sender = true → Asked relay source pending.socket reads →
      Scanned relay source candidates reads (.done (some index))

theorem Scanned.read {source : SocketAddrV4} {list : List Pending} {reads : Reads} {op : AddressOp}
    {next : Option SocketAddrV4 → Interaction AddressOp AddressOp.Ret (Option Nat)}
    (h : Scanned relay source list reads (.perform op next)) (answer : Option SocketAddrV4) :
    Scanned relay source list ((op, answer) :: reads) (next answer) := by
  generalize hprogram : (.perform op next : Interaction AddressOp AddressOp.Ret (Option Nat)) =
    program at h
  cases h with
  | scanning rest index hdrop =>
    obtain ⟨pending, rest, index, hdrop, hsender, rfl, rfl⟩ :=
      findCandidate_perform hdrop hprogram.symm
    dsimp only
    split
    next hsource =>
      subst hsource
      exact .reading pending rest index hdrop hsender List.mem_cons_self
    next => exact .scanning rest (index + 1) (drop_succ_of_drop hdrop).1
  | reading pending rest index hdrop hsender hlocal =>
    cases hprogram
    dsimp only
    obtain ⟨hrest, hindex⟩ := drop_succ_of_drop hdrop
    split
    next hpeer =>
      subst hpeer
      exact .matched pending index hindex hsender
        ⟨List.mem_cons_of_mem _ hlocal, List.mem_cons_self⟩
    next => exact .scanning rest (index + 1) hrest
  | matched pending index hindex hsender hasked => cases hprogram

/-- A candidate that is found has its channel and was asked for both addresses. -/
theorem Scanned.found {source : SocketAddrV4} {list : List Pending} {reads : Reads} {index : Nat}
    (h : Scanned relay source list reads (.done (some index))) :
    ∃ pending, list[index]? = some pending ∧ pending.sender = true ∧
      Asked relay source pending.socket reads := by
  generalize hprogram : (.done (some index) : Interaction AddressOp AddressOp.Ret (Option Nat)) =
    program at h
  cases h with
  | scanning rest index hdrop => cases findCandidate_done hprogram.symm
  | reading pending rest index hdrop hsender hlocal => cases hprogram
  | matched pending index hindex hsender hasked =>
    cases hprogram
    exact ⟨pending, hindex, hsender, hasked⟩

/-- No channel is used twice and no stream is given twice. -/
structure Handed (relay : SocketAddrV4) (s : IngressTable) : Prop where
  calls : (s.given.map (·.call)).Nodup
  streams : (s.given.map (·.stream)).Nodup
  known : ∀ given ∈ s.given, given.call < s.next ∧ given.stream < s.accepted
  unused : ∀ port, ∀ pending ∈ s.candidates port, pending.sender = true →
    pending.call ∉ s.given.map (·.call)
  hand : ∀ search, s.hand = some search → search.stream < s.accepted ∧
    search.stream ∉ s.given.map (·.stream) ∧
    Scanned relay search.source (s.candidates search.source.port) search.reads search.program
  asked : ∀ given ∈ s.given, Asked relay given.source given.socket given.reads
  owner : ∀ given ∈ s.given, ∀ registration, s.registrations given.call = some registration →
    registration.socket = given.socket

theorem Handed.register (h : Handed relay s) (hhand : s.hand = none) (registration : Registration) :
    Handed relay (s.addRegistration registration) := by
  have hnext : s.next ∉ s.given.map (·.call) := by
    intro hmem
    obtain ⟨given, hgiven, heq⟩ := List.mem_map.mp hmem
    have hlt := (h.known given hgiven).1
    omega
  refine ⟨h.calls, h.streams, ?_, ?_, ?_, h.asked, ?_⟩
  · intro given hgiven
    obtain ⟨hcall, hstream⟩ := h.known given hgiven
    exact ⟨Nat.lt_succ_of_lt hcall, hstream⟩
  · intro port pending hmem hsender
    rw [candidates_add] at hmem
    split at hmem
    next =>
      rcases List.mem_append.mp hmem with hmem | hmem
      · exact h.unused port pending hmem hsender
      · cases List.mem_singleton.mp hmem
        exact hnext
    next => exact h.unused port pending hmem hsender
  · intro search hsearch
    change s.hand = some search at hsearch
    rw [hhand] at hsearch
    cases hsearch
  · intro given hgiven other hother
    rcases registrations_add.mp hother with ⟨heq, _⟩ | ⟨_, hold⟩
    · exact absurd heq (Nat.ne_of_lt (h.known given hgiven).1)
    · exact h.owner given hgiven other hold

theorem Handed.drop (h : Handed relay s) (hlisted : Listed s) (hhand : s.hand = none) {call : Nat}
    {registration : Registration} (hcall : s.registrations call = some registration) :
    Handed relay (s.dropRegistration call registration) := by
  refine ⟨h.calls, h.streams, h.known, ?_, ?_, h.asked, ?_⟩
  · intro port pending hmem
    rw [hlisted.candidates_drop hcall] at hmem
    exact h.unused port pending (List.mem_filter.mp hmem).1
  · intro search hsearch
    change s.hand = some search at hsearch
    rw [hhand] at hsearch
    cases hsearch
  · intro given hgiven other hother
    exact h.owner given hgiven other (registrations_drop.mp hother).2

/-- A candidate that still has its channel is not the one that was taken. -/
theorem call_ne_of_settle (hlisted : Listed s) {search : Search} {index : Nat} {taken : Pending}
    (htaken : (s.candidates search.source.port)[index]? = some taken) {port : UInt16}
    {pending : Pending} (hmem : pending ∈ (s.settle search (some index)).candidates port)
    (hsender : pending.sender = true) :
    pending ∈ s.candidates port ∧ pending.call ≠ taken.call := by
  have hentry := hlisted.entries _ taken (List.mem_of_getElem? htaken)
  rw [candidates_settle] at hmem
  split at hmem
  next hport =>
    subst hport
    refine ⟨mem_modify_sender hsender hmem, ?_⟩
    obtain ⟨position, hposition⟩ := List.mem_iff_getElem?.mp hmem
    rw [List.getElem?_modify] at hposition
    obtain ⟨old, hold, heq⟩ := Option.map_eq_some_iff.mp hposition
    split at heq
    next =>
      subst heq
      cases hsender
    next hne =>
      subst heq
      intro hcall
      have hlength : index < ((s.candidates search.source.port).map (·.call)).length := by
        rw [List.length_map]
        exact (List.getElem?_eq_some_iff.mp htaken).1
      refine hne ((List.getElem?_inj hlength (hlisted.nodup _)).mp ?_)
      rw [List.getElem?_map, List.getElem?_map, htaken, hold, Option.map_some, Option.map_some,
        hcall]
  next hport =>
    refine ⟨hmem, ?_⟩
    intro hcall
    have hother := hlisted.entries port pending hmem
    rw [hcall, hentry, Option.some.injEq, Registration.mk.injEq] at hother
    exact hport hother.2.2.symm

theorem Handed.settle (h : Handed relay s) (hlisted : Listed s) {search : Search}
    {result : Option Nat} (hhand : s.hand = some search) (hdone : search.program = .done result) :
    Handed relay (s.settle search result) := by
  cases result with
  | none => exact { h with hand := nofun }
  | some index =>
    obtain ⟨hstream, hfresh, hscanned⟩ := h.hand search hhand
    rw [hdone] at hscanned
    obtain ⟨taken, htaken, hsender, hasked⟩ := hscanned.found
    have hmem := List.mem_of_getElem? htaken
    have hgiven : (s.settle search (some index)).given =
        ⟨taken.call, taken.socket, search.stream, search.source, search.reads,
          s.sockets taken.socket⟩ :: s.given := by
      simp only [IngressTable.settle, htaken]
      rfl
    refine ⟨?_, ?_, ?_, ?_, nofun, ?_, ?_⟩
    · rw [hgiven, List.map_cons, List.nodup_cons]
      exact ⟨h.unused _ taken hmem hsender, h.calls⟩
    · rw [hgiven, List.map_cons, List.nodup_cons]
      exact ⟨hfresh, h.streams⟩
    · rw [hgiven]
      exact List.forall_mem_cons.mpr ⟨⟨hlisted.fresh hmem, hstream⟩, h.known⟩
    · intro port pending hpending hunused
      obtain ⟨hold, hne⟩ := call_ne_of_settle hlisted htaken hpending hunused
      rw [hgiven, List.map_cons, List.mem_cons, not_or]
      exact ⟨hne, h.unused port pending hold hunused⟩
    · rw [hgiven]
      exact List.forall_mem_cons.mpr ⟨hasked, h.asked⟩
    · rw [hgiven]
      refine List.forall_mem_cons.mpr ⟨?_, h.owner⟩
      intro registration hregistration
      have hentry := hlisted.entries _ taken hmem
      cases hregistration.symm.trans hentry
      rfl

theorem handed_step {event : TableEvent} (h : Handed relay s) (hlisted : Listed s)
    (hstep : IngressTable.Step relay event s t) : Handed relay t := by
  cases event with
  | change socket endpoints =>
    cases hstep
    exact { h with }
  | register socket fd port =>
    obtain ⟨hhand, _, rfl⟩ := hstep
    exact h.register hhand _
  | unregister call =>
    obtain ⟨registration, hcall, hhand, rfl⟩ := hstep
    exact h.drop hlisted hhand hcall
  | accept source =>
    obtain ⟨_, rfl⟩ := hstep
    refine { h with known := ?_, hand := ?_ }
    · intro given hgiven
      obtain ⟨hcall, hstream⟩ := h.known given hgiven
      exact ⟨hcall, Nat.lt_succ_of_lt hstream⟩
    · rintro search ⟨⟩
      refine ⟨Nat.lt_succ_self _, ?_, .scanning _ 0 rfl⟩
      intro hmem
      obtain ⟨given, hgiven, heq⟩ := List.mem_map.mp hmem
      have hlt := (h.known given hgiven).2
      exact absurd heq (Nat.ne_of_lt hlt)
  | scan answer =>
    obtain ⟨stream, source, reads, op, next, hhand, _, rfl⟩ := hstep
    obtain ⟨hstream, hfresh, hscanned⟩ := h.hand _ hhand
    refine { h with hand := ?_ }
    rintro search ⟨⟩
    exact ⟨hstream, hfresh, hscanned.read answer⟩
  | finish =>
    obtain ⟨search, result, hhand, hdone, rfl⟩ := hstep
    exact h.settle hlisted hhand hdone

theorem handed_initial (h : s.Initial) : Handed relay s := by
  have hcandidates := candidates_initial h
  obtain ⟨_, _, hhand, hgiven⟩ := h
  refine ⟨?_, ?_, ?_, ?_, ?_, ?_, ?_⟩
  · simp [hgiven]
  · simp [hgiven]
  · simp [hgiven]
  · simp [hcandidates]
  · simp [hhand]
  · simp [hgiven]
  · simp [hgiven]

theorem handed_of_reachable (h : (ingressTable relay).Reachable s) : Listed s ∧ Handed relay s :=
  h.invariant (I := fun s => Listed s ∧ Handed relay s)
    (fun _ hs => ⟨listed_initial hs, handed_initial hs⟩)
    fun _ _ _ hs _ hstep => ⟨listed_step hs.1 hstep, handed_step hs.2 hs.1 hstep⟩

end

end Scproxy
