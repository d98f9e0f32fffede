import Scproxy.IngressRuns
import Scproxy.IngressTable

namespace Scproxy

open Ingress IngressTable

/-- The table has one candidate for each live registration. -/
structure Listed (s : IngressTable) : Prop where
  filled : Filled s.waiting
  entries : ∀ port, ∀ pending ∈ s.candidates port,
    s.registrations pending.call = some ⟨pending.fd, pending.socket, port⟩
  listed : ∀ call registration, s.registrations call = some registration →
    call ∈ (s.candidates registration.port).map (·.call)
  nodup : ∀ port, ((s.candidates port).map (·.call)).Nodup
  fds : ∀ call other registration registration', s.registrations call = some registration →
    s.registrations other = some registration' → registration.fd = registration'.fd → call = other
  known : ∀ call registration, s.registrations call = some registration → call < s.next

section

variable {relay : SocketAddrV4} {s t : IngressTable}

theorem Listed.fresh (h : Listed s) {port : UInt16} {pending : Pending}
    (hmem : pending ∈ s.candidates port) : pending.call < s.next :=
  h.known _ _ (h.entries port pending hmem)

theorem Listed.register (h : Listed s) {registration : Registration}
    (hfd : ∀ call other, s.registrations call = some other → other.fd ≠ registration.fd) :
    Listed (s.addRegistration registration) := by
  have hentry : ∀ port, ∀ pending ∈ s.candidates port,
      (s.addRegistration registration).registrations pending.call =
        some ⟨pending.fd, pending.socket, port⟩ := by
    intro port pending hmem
    exact registrations_add.mpr (.inr ⟨Nat.ne_of_lt (h.fresh hmem), h.entries port pending hmem⟩)
  refine ⟨h.filled.push _ _, ?_, ?_, ?_, ?_, ?_⟩
  · intro port pending hmem
    rw [candidates_add] at hmem
    split at hmem
    next hport =>
      rcases List.mem_append.mp hmem with hmem | hmem
      · exact hentry port pending hmem
      · cases List.mem_singleton.mp hmem
        subst hport
        exact registrations_add.mpr (.inl ⟨rfl, rfl⟩)
    next => exact hentry port pending hmem
  · intro call other hcall
    rw [candidates_add]
    rcases registrations_add.mp hcall with ⟨rfl, rfl⟩ | ⟨_, hold⟩
    · simp
    · have hmem := h.listed call other hold
      split
      next =>
        rw [List.map_append]
        exact List.mem_append_left _ hmem
      next => exact hmem
  · intro port
    rw [candidates_add]
    split
    next =>
      rw [List.map_append, List.nodup_append]
      refine ⟨h.nodup port, by simp, ?_⟩
      intro call hcall other hother
      obtain ⟨pending, hmem, rfl⟩ := List.mem_map.mp hcall
      cases List.mem_singleton.mp hother
      exact Nat.ne_of_lt (h.fresh hmem)
    next => exact h.nodup port
  · intro call other reg reg' hcall hother heq
    rcases registrations_add.mp hcall with ⟨rfl, rfl⟩ | ⟨_, hold⟩
    · rcases registrations_add.mp hother with ⟨rfl, rfl⟩ | ⟨_, hold'⟩
      · rfl
      · exact absurd heq.symm (hfd other reg' hold')
    · rcases registrations_add.mp hother with ⟨rfl, rfl⟩ | ⟨_, hold'⟩
      · exact absurd heq (hfd call reg hold)
      · exact h.fds call other reg reg' hold hold' heq
  · intro call other hcall
    change call < s.next + 1
    rcases registrations_add.mp hcall with ⟨rfl, _⟩ | ⟨_, hold⟩
    · exact Nat.lt_succ_self _
    · exact Nat.lt_succ_of_lt (h.known call other hold)

/-- Dropping a registration removes its own candidate. -/
theorem Listed.candidates_drop (h : Listed s) {call : Nat} {registration : Registration}
    (hcall : s.registrations call = some registration) (port : UInt16) :
    (s.dropRegistration call registration).candidates port =
      (s.candidates port).filter fun pending => pending.call ≠ call := by
  have hdrop : (s.dropRegistration call registration).candidates port =
      if port = registration.port then
        (s.candidates port).filter fun pending => pending.fd ≠ registration.fd
      else s.candidates port := candidates_unregister _ _ _ _
  rw [hdrop]
  split
  next hport =>
    apply List.filter_congr
    intro pending hmem
    have hentry := h.entries port pending hmem
    have hsame : pending.fd = registration.fd ↔ pending.call = call := by
      constructor
      · exact fun hfd => h.fds _ _ _ _ hentry hcall hfd
      · rintro rfl
        rw [hentry] at hcall
        cases hcall
        rfl
    simp only [ne_eq, hsame]
  next hport =>
    refine (List.filter_eq_self.mpr ?_).symm
    intro pending hmem
    have hentry := h.entries port pending hmem
    rw [decide_eq_true_eq]
    rintro rfl
    rw [hentry] at hcall
    cases hcall
    exact hport rfl

theorem Listed.drop (h : Listed s) {call : Nat} {registration : Registration}
    (hcall : s.registrations call = some registration) :
    Listed (s.dropRegistration call registration) := by
  refine ⟨h.filled.unregister _ _, ?_, ?_, ?_, ?_, ?_⟩
  · intro port pending hmem
    rw [h.candidates_drop hcall] at hmem
    obtain ⟨hmem, hne⟩ := List.mem_filter.mp hmem
    exact registrations_drop.mpr ⟨of_decide_eq_true hne, h.entries port pending hmem⟩
  · intro other reg hother
    obtain ⟨hne, hother⟩ := registrations_drop.mp hother
    obtain ⟨pending, hmem, heq⟩ := List.mem_map.mp (h.listed other reg hother)
    rw [h.candidates_drop hcall]
    refine List.mem_map.mpr ⟨pending, List.mem_filter.mpr ⟨hmem, ?_⟩, heq⟩
    rw [decide_eq_true_eq, heq]
    exact hne
  · intro port
    rw [h.candidates_drop hcall]
    exact ((List.filter_sublist).map _).nodup (h.nodup port)
  · intro first second reg reg' hfirst hsecond
    exact h.fds first second reg reg' (registrations_drop.mp hfirst).2
      (registrations_drop.mp hsecond).2
  · intro other reg hother
    exact h.known other reg (registrations_drop.mp hother).2

/-- The candidates after a stream was given, up to the channel. -/
theorem mem_settle {search : Search} {index : Nat} {port : UInt16} {pending : Pending}
    (h : pending ∈ (s.settle search (some index)).candidates port) :
    ∃ old ∈ s.candidates port, old.fd = pending.fd ∧ old.socket = pending.socket ∧
      old.call = pending.call := by
  rw [candidates_settle] at h
  split at h
  next =>
    obtain ⟨position, hposition⟩ := List.mem_iff_getElem?.mp h
    rw [List.getElem?_modify] at hposition
    obtain ⟨old, hold, heq⟩ := Option.map_eq_some_iff.mp hposition
    refine ⟨old, List.mem_of_getElem? hold, ?_⟩
    subst heq
    split
    next => exact ⟨rfl, rfl, rfl⟩
    next => exact ⟨rfl, rfl, rfl⟩
  next => exact ⟨pending, h, rfl, rfl, rfl⟩

theorem map_call_settle (s : IngressTable) (search : Search) (index : Nat) (port : UInt16) :
    ((s.settle search (some index)).candidates port).map (·.call) =
      (s.candidates port).map (·.call) := by
  rw [candidates_settle]
  split
  next =>
    apply List.ext_getElem?
    intro position
    rw [List.getElem?_map, List.getElem?_map, List.getElem?_modify, Option.map_eq_map,
      Option.map_map]
    congr 1
    funext pending
    simp only [Function.comp_apply]
    split
    next => rfl
    next => rfl
  next => rfl

theorem Listed.settle (h : Listed s) (search : Search) (result : Option Nat) :
    Listed (s.settle search result) := by
  cases result with
  | none => exact { h with }
  | some index =>
    refine ⟨h.filled.take _ _, ?_, ?_, ?_, h.fds, h.known⟩
    · intro port pending hmem
      obtain ⟨old, hold, hfd, hsocket, hcall⟩ := mem_settle hmem
      rw [← hfd, ← hsocket, ← hcall]
      exact h.entries port old hold
    · intro call registration hcall
      rw [map_call_settle]
      exact h.listed call registration hcall
    · intro port
      rw [map_call_settle]
      exact h.nodup port

theorem listed_step {event : TableEvent} (h : Listed s)
    (hstep : IngressTable.Step relay event s t) : Listed t := by
  cases event with
  | change socket endpoints =>
    cases hstep
    exact { h with }
  | register socket fd port =>
    obtain ⟨_, hfd, rfl⟩ := hstep
    exact h.register hfd
  | unregister call =>
    obtain ⟨registration, hcall, _, rfl⟩ := hstep
    exact h.drop hcall
  | accept source =>
    obtain ⟨_, rfl⟩ := hstep
    exact { h with }
  | scan answer =>
    obtain ⟨stream, source, reads, op, next, _, _, rfl⟩ := hstep
    exact { h with }
  | finish =>
    obtain ⟨search, result, _, _, rfl⟩ := hstep
    exact h.settle search result

theorem candidates_initial (h : s.Initial) (port : UInt16) : s.candidates port = [] := by
  unfold IngressTable.candidates
  rw [h.2.1]
  rfl

theorem listed_initial (h : s.Initial) : Listed s := by
  have hcandidates := candidates_initial h
  obtain ⟨hregistrations, hwaiting, _, _⟩ := h
  refine ⟨?_, ?_, ?_, ?_, ?_, ?_⟩
  · rw [hwaiting]
    intro port list hlookup
    cases hlookup
  · simp [hcandidates]
  · simp [hregistrations]
  · simp [hcandidates]
  · simp [hregistrations]
  · simp [hregistrations]

end

end Scproxy
