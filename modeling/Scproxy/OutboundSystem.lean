import Scproxy.OutboundOwnership
import Scproxy.Parties
import Scproxy.Permits

namespace Scproxy

/-- The semaphore and the table of the ingress. -/
structure Outbound where
  free : Nat
  waiting : Waiting

/-- The calls of `connect_tcp` after their checks and the tasks that they spawned. -/
abbrev OutboundSystem := Parties OwnerOperation OwnerOperation.Ret Holding Outbound

abbrev Owner := Party OwnerOperation OwnerOperation.Ret Holding

abbrev OwnerEffect := PartyEffect OwnerOperation OwnerOperation.Ret Holding Outbound

inductive OutboundEvent
  | begin (locked : Locked) (service : Service)
  | operate
  | deliver (port : UInt16) (index : Nat)
  | leave

namespace Outbound

def capacity : Nat := 128

/-- The relay or the DNS service of an accepted connection runs. -/
def Serves (owner : Owner) : Prop :=
  (∃ next, owner.program = .perform .serveDns next) ∨ ∃ next, owner.program = .perform .relay next

/-- The table entries that live registrations made. -/
def registered (owns : List Holding) : List (UInt16 × Nat) := owns.filterMap Holding.entry

/-- The table without the entry of a registration. -/
def dropRegistration (s : Outbound) (w : Holding) : Waiting :=
  match w.registration with
  | some registration => Ingress.unregister registration.port registration.fd s.waiting
  | none => s.waiting

/-- The outcomes of an operation. A registration's descriptor is not the descriptor of
another live one. -/
def Operates (s : Outbound) (owns : List Holding) (w : Holding) :
    (op : OwnerOperation) → op.Ret → OwnerEffect → Prop
  | .tcp .acquire, acquired, effect =>
    (acquired = true ∧ ∃ free, s.free = free + 1 ∧
      effect = ⟨{ s with free := free }, { w with permit := true }, []⟩) ∨
    (acquired = false ∧ s.free = 0 ∧ effect = ⟨s, w, []⟩)
  | .tcp .register, result, effect =>
    (∃ error, result = .error error ∧ effect = ⟨s, w, []⟩) ∨
    ∃ registration call, result = .ok registration.port ∧
      registration.fd ∉ (registered owns).map Prod.snd ∧
      effect =
        ⟨{ s with
            waiting := Ingress.push registration.port
              ⟨registration.fd, registration.socket, call, true⟩ s.waiting },
          { w with registration := some registration }, []⟩
  | .tcp (.spawn task), _, effect => effect = ⟨s, .nothing, [⟨w, task.service.task⟩]⟩
  | .dropRegistration, _, effect =>
    effect = ⟨{ s with waiting := s.dropRegistration w }, { w with registration := none }, []⟩
  | .dropPermit, _, effect =>
    effect = ⟨{ s with free := s.free + 1 }, { w with permit := false }, []⟩
  | _, _, effect => effect = ⟨s, w, []⟩

def call (relay : SocketAddrV4) (locked : Locked) (service : Service) : Owner :=
  ⟨.nothing, OwnedCall.acquire relay locked service >>= fun _ => .done ()⟩

def Step (relay : SocketAddrV4) : OutboundEvent → OutboundSystem → OutboundSystem → Prop
  | .begin locked service, s, t => s.Join (call relay locked service) t
  | .operate, s, t => s.Operate Operates t
  | .deliver port index, s, t =>
    t = { s with shared.waiting := Ingress.take port index s.shared.waiting }
  | .leave, s, t => s.Leave (· = .tcp .stop) t

/-- The permits are counted by their owners, and the table has one entry for each
registration. -/
structure Accounted (s : Outbound) (owns : List Holding) : Prop where
  permits : Permits capacity Holding.permit s.free owns
  backed : ∀ w ∈ owns, w.registration.isSome = true → w.permit = true
  table : (Ingress.entries s.waiting).Perm (registered owns)
  distinct : ((registered owns).map Prod.snd).Nodup
  filled : Ingress.Filled s.waiting

theorem registered_middle (before after : List Holding) (w : Holding) :
    (registered (before ++ w :: after)).Perm (w.entry.toList ++ registered (before ++ after)) :=
  Permits.filterMap_middle Holding.entry before after w

theorem registered_snoc (owns : List Holding) (w : Holding) :
    (registered (owns ++ [w])).Perm (w.entry.toList ++ registered owns) := by
  have h := registered_middle owns [] w
  rwa [List.append_nil] at h

section Accounts

variable {s : Outbound} {before after owns : List Holding} {w : Holding}

theorem Accounted.same_registered (h : s.Accounted owns) {owns' : List Holding}
    (hperm : (registered owns').Perm (registered owns)) :
    (Ingress.entries s.waiting).Perm (registered owns') ∧
      ((registered owns').map Prod.snd).Nodup :=
  ⟨h.table.trans hperm.symm, (hperm.map Prod.snd).nodup_iff.mpr h.distinct⟩

theorem Accounted.backed_replace (h : s.Accounted (before ++ w :: after)) {w' : Holding}
    (hw' : w'.registration.isSome = true → w'.permit = true) :
    ∀ v ∈ before ++ w' :: after, v.registration.isSome = true → v.permit = true := by
  have hbacked := h.backed
  rw [List.forall_mem_append, List.forall_mem_cons] at hbacked ⊢
  exact ⟨hbacked.1, hw', hbacked.2.2⟩

theorem Accounted.join (h : s.Accounted owns) : s.Accounted (owns ++ [.nothing]) := by
  obtain ⟨htable, hdistinct⟩ := h.same_registered (registered_snoc owns .nothing)
  refine ⟨h.permits.join rfl, ?_, htable, hdistinct, h.filled⟩
  rw [List.forall_mem_append, List.forall_mem_singleton]
  exact ⟨h.backed, nofun⟩

theorem Accounted.leave (h : s.Accounted (before ++ .nothing :: after)) :
    s.Accounted (before ++ after) := by
  obtain ⟨htable, hdistinct⟩ := h.same_registered (registered_middle before after .nothing).symm
  refine ⟨h.permits.leave rfl, ?_, htable, hdistinct, h.filled⟩
  intro v hv
  apply h.backed
  simp only [List.mem_append, List.mem_cons] at hv ⊢
  tauto

/-- A permit may come or go while the registration stays. -/
theorem Accounted.repermit (h : s.Accounted (before ++ w :: after)) {free : Nat} {permit : Bool}
    (hpermits : Permits capacity Holding.permit free
      (before ++ { w with permit := permit } :: after))
    (hbacked : w.registration.isSome = true → permit = true) :
    Accounted { s with free := free } (before ++ { w with permit := permit } :: after) := by
  have hsame : (registered (before ++ { w with permit := permit } :: after)).Perm
      (registered (before ++ w :: after)) :=
    (registered_middle before after { w with permit := permit }).trans
      (registered_middle before after w).symm
  obtain ⟨htable, hdistinct⟩ := h.same_registered hsame
  exact ⟨hpermits, h.backed_replace hbacked, htable, hdistinct, h.filled⟩

theorem Accounted.register (h : s.Accounted (before ++ .permitted :: after))
    {registration : Registration} (call : Nat)
    (hfresh : registration.fd ∉ (registered (before ++ .permitted :: after)).map Prod.snd) :
    Accounted
      { s with
        waiting := Ingress.push registration.port
          ⟨registration.fd, registration.socket, call, true⟩ s.waiting }
      (before ++ .both registration :: after) := by
  have hothers : (registered (before ++ .permitted :: after)).Perm (registered (before ++ after)) :=
    registered_middle before after .permitted
  have hnew : (registered (before ++ .both registration :: after)).Perm
      ((registration.port, registration.fd) :: registered (before ++ .permitted :: after)) :=
    (registered_middle before after (.both registration)).trans (hothers.symm.cons _)
  refine ⟨h.permits.keep rfl, h.backed_replace fun _ => rfl, ?_, ?_, h.filled.push _ _⟩
  · exact (Ingress.entries_push _ _ _).trans ((h.table.cons _).trans hnew.symm)
  · rw [(hnew.map Prod.snd).nodup_iff]
    exact List.nodup_cons.mpr ⟨hfresh, h.distinct⟩

/-- The descriptor of a dropped registration is in no other entry of the table. -/
theorem Accounted.unregister {registration : Registration}
    (h : s.Accounted (before ++ .both registration :: after)) :
    Accounted
      { s with waiting := Ingress.unregister registration.port registration.fd s.waiting }
      (before ++ .permitted :: after) := by
  have hold : (registered (before ++ .both registration :: after)).Perm
      ((registration.port, registration.fd) :: registered (before ++ after)) :=
    registered_middle before after (.both registration)
  have hnew : (registered (before ++ .permitted :: after)).Perm (registered (before ++ after)) :=
    registered_middle before after .permitted
  have hdistinct := (hold.map Prod.snd).nodup_iff.mp h.distinct
  obtain ⟨hfd, hnodup⟩ := List.nodup_cons.mp hdistinct
  refine ⟨h.permits.keep rfl, h.backed_replace nofun, ?_, ?_, h.filled.unregister _ _⟩
  · have hkept : ∀ entry ∈ registered (before ++ after),
        decide (entry ≠ (registration.port, registration.fd)) = true := by
      intro entry hentry
      refine decide_eq_true fun heq => hfd ?_
      exact List.mem_map.mpr ⟨entry, hentry, congrArg Prod.snd heq⟩
    have hfilter : ((registered (before ++ .both registration :: after)).filter
        (· ≠ (registration.port, registration.fd))).Perm (registered (before ++ after)) := by
      have hcons := hold.filter (· ≠ (registration.port, registration.fd))
      rwa [List.filter_cons_of_neg (by simp), List.filter_eq_self.mpr hkept] at hcons
    exact (Ingress.entries_unregister _ _ _).trans
      ((h.table.filter _).trans (hfilter.trans hnew.symm))
  · rw [(hnew.map Prod.snd).nodup_iff]
    exact hnodup

theorem Accounted.hand {registration : Registration}
    (h : s.Accounted (before ++ .both registration :: after)) :
    s.Accounted (before ++ .nothing :: after ++ [.both registration]) := by
  have hmoved : (registered (before ++ .nothing :: after ++ [.both registration])).Perm
      (registered (before ++ .both registration :: after)) := by
    have hleft : (registered (before ++ .nothing :: after)).Perm (registered (before ++ after)) :=
      registered_middle before after .nothing
    exact (registered_snoc _ _).trans
      ((hleft.append_left _).trans (registered_middle before after (.both registration)).symm)
  obtain ⟨htable, hdistinct⟩ := h.same_registered hmoved
  refine ⟨h.permits.hand rfl rfl rfl, ?_, htable, hdistinct, h.filled⟩
  rw [List.forall_mem_append, List.forall_mem_singleton]
  exact ⟨h.backed_replace nofun, fun _ => rfl⟩

theorem Accounted.length_entries (h : s.Accounted owns) :
    (Ingress.entries s.waiting).length = owns.countP fun w => w.registration.isSome := by
  rw [h.table.length_eq, registered, List.length_filterMap_eq_countP]
  apply List.countP_congr
  intro w _
  rw [Holding.entry, Option.isSome_map]

theorem Accounted.countP_registered (h : s.Accounted owns) :
    (owns.countP fun w => w.registration.isSome) ≤ capacity - s.free :=
  Nat.le_trans (List.countP_mono_left h.backed) h.permits.countP_le

theorem Accounted.eq_initial (h : s.Accounted owns) (hnothing : ∀ w ∈ owns, w = .nothing) :
    s.free = capacity ∧ s.waiting = ∅ := by
  refine ⟨h.permits.eq_capacity fun w hw => by rw [hnothing w hw]; rfl, ?_⟩
  apply h.filled.eq_empty
  apply List.eq_nil_of_length_eq_zero
  rw [h.length_entries]
  apply List.countP_eq_zero.mpr
  intro w hw
  rw [hnothing w hw]
  decide

end Accounts

/-- What one operation of an owner does, as its program may expect, to the accounts. -/
theorem Accounted.operate {s : Outbound} {before after : List Holding} {w : Holding}
    {op : OwnerOperation} {r : op.Ret} {effect : OwnerEffect}
    (h : s.Accounted (before ++ w :: after)) (hguard : ownership.guard op w)
    (hop : s.Operates (before ++ w :: after) w op r effect) :
    ownership.after op r w effect.own ∧
    (∀ party ∈ effect.started, OwnerKeeps party.program party.own) ∧
    effect.shared.Accounted (before ++ effect.own :: after ++ effect.started.map Party.own) := by
  have hquiet : (∀ party ∈ ([] : List Owner), OwnerKeeps party.program party.own) ∧
      s.Accounted (before ++ w :: after ++ ([] : List Owner).map Party.own) :=
    ⟨nofun, by simpa using h⟩
  cases op with
  | tcp op =>
    cases op with
    | acquire =>
      cases hguard
      rcases hop with ⟨rfl, free, hfree, rfl⟩ | ⟨rfl, _, rfl⟩
      · refine ⟨rfl, nofun, ?_⟩
        rw [List.map_nil, List.append_nil]
        have hpermits := h.permits
        rw [hfree] at hpermits
        exact h.repermit (hpermits.acquire rfl rfl) nofun
      · exact ⟨rfl, hquiet⟩
    | register =>
      cases hguard
      rcases hop with ⟨error, rfl, rfl⟩ | ⟨registration, call, rfl, hfresh, rfl⟩
      · exact ⟨rfl, hquiet⟩
      · refine ⟨⟨registration, rfl, rfl⟩, nofun, ?_⟩
        rw [List.map_nil, List.append_nil]
        exact h.register call hfresh
    | spawn task =>
      obtain ⟨registration, _, rfl⟩ := hguard
      cases hop
      refine ⟨rfl, ?_, h.hand⟩
      rw [List.forall_mem_singleton]
      exact task.service.keeps_task registration
    | _ =>
      cases hop
      exact ⟨rfl, hquiet⟩
  | dropRegistration =>
    obtain ⟨registration, rfl⟩ := hguard
    cases hop
    refine ⟨rfl, nofun, ?_⟩
    rw [List.map_nil, List.append_nil]
    exact h.unregister
  | dropPermit =>
    cases hguard
    cases hop
    refine ⟨rfl, nofun, ?_⟩
    rw [List.map_nil, List.append_nil]
    exact h.repermit (h.permits.release rfl rfl) nofun
  | _ =>
    cases hop
    exact ⟨rfl, hquiet⟩

theorem keeps_call (relay : SocketAddrV4) (locked : Locked) (service : Service) :
    OwnerKeeps (call relay locked service).program .nothing := by
  apply Discipline.Spec.bind
  exact Discipline.Spec.weaken (fun _ _ h => h) (OwnedCall.keeps_acquire relay locked service)

def Sound (s : OutboundSystem) : Prop := s.Sound ownership (· = .nothing) Accounted

theorem Sound.step {relay : SocketAddrV4} {event : OutboundEvent} {s t : OutboundSystem}
    (h : Sound s) (hstep : Step relay event s t) : Sound t := by
  cases event with
  | begin locked service =>
    exact Parties.Sound.join h (keeps_call relay locked service) Accounted.join hstep
  | operate =>
    refine Parties.Sound.operate h (fun _ => rfl) ?_ hstep
    intro before w after op r effect howns haccounted hguard hop
    rw [howns] at hop
    exact haccounted.operate hguard hop
  | deliver port index =>
    cases hstep
    refine Parties.Sound.change h fun haccounted => ?_
    exact { haccounted with
      table := (Ingress.entries_take _ _ _).trans haccounted.table
      filled := haccounted.filled.take port index }
  | leave =>
    refine Parties.Sound.leave h (fun _ => rfl) ?_ ?_ hstep
    · rintro _ w rfl hguard
      exact hguard
    · rintro before _ after rfl haccounted
      exact haccounted.leave

def Initial (s : OutboundSystem) : Prop := s = ⟨⟨capacity, ∅⟩, []⟩

theorem Sound.initial {s : OutboundSystem} (h : Initial s) : Sound s := by
  cases h
  refine ⟨nofun, Permits.none_held, nofun, List.Perm.refl [], List.nodup_nil, ?_⟩
  intro port list hlist
  cases hlist

end Outbound

def outboundSystem (relay : SocketAddrV4) : Transition OutboundSystem OutboundEvent where
  start := Outbound.Initial
  step := Outbound.Step relay

namespace Outbound

theorem sound {relay : SocketAddrV4} {s : OutboundSystem}
    (h : (outboundSystem relay).Reachable s) : Sound s :=
  h.invariant (fun _ hs => .initial hs) fun _ _ _ hs _ hstep => hs.step hstep

theorem Sound.serves {s : OutboundSystem} (h : Sound s) {owner : Owner}
    (howner : owner ∈ s.parties) (hserves : Serves owner) : owner.own = .nothing := by
  rcases hserves with ⟨next, hdns⟩ | ⟨next, hrelay⟩
  · exact Parties.Sound.guard h (fun _ => rfl) howner hdns
  · exact Parties.Sound.guard h (fun _ => rfl) howner hrelay

/-- In every interleaving of the calls, the tasks and the deliveries each permit is free or
has one owner, the table has one entry for each registration, each under a descriptor of its
own, and never more than the permits that are out, and served connections own neither: once all
others have ended, every permit is back and the table is empty. -/
theorem entries_within_permits {relay : SocketAddrV4} {s : OutboundSystem}
    (h : (outboundSystem relay).Reachable s) :
    s.shared.free + s.owns.countP Holding.permit = capacity ∧
    (Ingress.entries s.shared.waiting).Perm (registered s.owns) ∧
    ((registered s.owns).map Prod.snd).Nodup ∧
    (Ingress.entries s.shared.waiting).length ≤ capacity - s.shared.free ∧
    (∀ owner ∈ s.parties, Serves owner → owner.own = .nothing) ∧
    ((∀ owner ∈ s.parties, Serves owner) → s.shared.free = capacity ∧ s.shared.waiting = ∅) := by
  have hsound := sound h
  have haccounted := hsound.owned
  refine ⟨haccounted.permits, haccounted.table, haccounted.distinct, ?_, fun _ => hsound.serves, ?_⟩
  · rw [haccounted.length_entries]
    exact haccounted.countP_registered
  · intro hall
    apply haccounted.eq_initial
    intro w hw
    obtain ⟨owner, howner, rfl⟩ := List.mem_map.mp hw
    exact hsound.serves howner (hall owner howner)

/-- One call has its permit and its registration and is about to connect. -/
theorem entries_within_permits_reserved :
    ∃ s, (outboundSystem ⟨Ipv4Addr.localhost, 40000⟩).Reachable s ∧ s.shared.free = 127 ∧
      Ingress.entries s.shared.waiting = [(5000, 9)] ∧
      (Ingress.entries s.shared.waiting).Perm (registered s.owns) ∧
      ((registered s.owns).map Prod.snd).Nodup := by
  have hrun : ∃ s, (outboundSystem ⟨Ipv4Addr.localhost, 40000⟩).Reachable s ∧
      s.shared.free = 127 ∧ Ingress.entries s.shared.waiting = [(5000, 9)] := by
    have hbegun : (outboundSystem ⟨Ipv4Addr.localhost, 40000⟩).Reachable _ :=
      .next (.begin ⟨7, 0, ⟨Ipv4Addr.new 203 0 113 1, 80⟩⟩ .dns) (.start rfl) trivial rfl
    have hacquired : (outboundSystem ⟨Ipv4Addr.localhost, 40000⟩).Reachable _ :=
      .next .operate hbegun trivial
        ⟨[], _, [], .tcp .acquire, _, true, _, rfl, rfl, Or.inl ⟨rfl, 127, rfl, rfl⟩, rfl⟩
    have hvalid : (outboundSystem ⟨Ipv4Addr.localhost, 40000⟩).Reachable _ :=
      .next .operate hacquired trivial
        ⟨[], _, [], .tcp .valid, _, .ok (), _, rfl, rfl, rfl, rfl⟩
    have hpeer : (outboundSystem ⟨Ipv4Addr.localhost, 40000⟩).Reachable _ :=
      .next .operate hvalid trivial
        ⟨[], _, [], .tcp (.insertPeer _ _ _), _, (), _, rfl, rfl, rfl, rfl⟩
    have hregistered : (outboundSystem ⟨Ipv4Addr.localhost, 40000⟩).Reachable _ :=
      .next .operate hpeer trivial
        ⟨[], _, [], .tcp .register, _, .ok 5000, _, rfl, rfl,
          Or.inr ⟨⟨9, 3, 5000⟩, 0, rfl, List.not_mem_nil, rfl⟩, rfl⟩
    exact ⟨_, hregistered, rfl, rfl⟩
  obtain ⟨s, hs, hfree, hentries⟩ := hrun
  obtain ⟨_, htable, hdistinct, _⟩ := entries_within_permits hs
  exact ⟨s, hs, hfree, hentries, htable, hdistinct⟩

end Outbound

end Scproxy
