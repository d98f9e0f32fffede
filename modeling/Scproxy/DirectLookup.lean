import Scproxy.DirectConnector
import Scproxy.Parties
import Scproxy.Permits
import Scproxy.Transition

namespace Scproxy

/-- The channel between a call of `run_lookup` and its thread. -/
inductive LookupChannel
  | empty
  | sent (result : Found)
  | closed

/-- How far a call or its thread is. -/
inductive LookupPhase
  | starting
  | waiting
  | resolving
  | ended
  deriving DecidableEq

/-- What a call of `run_lookup` or its thread owns. -/
structure LookupOwn where
  call : Nat
  permit : Bool
  phase : LookupPhase

/-- The semaphore and the channels of all calls. -/
structure Lookups where
  free : Nat
  channels : Nat → LookupChannel

abbrev LookupSystem := Parties LookupOperation LookupOperation.Ret LookupOwn Lookups

abbrev LookupParty := Party LookupOperation LookupOperation.Ret LookupOwn

abbrev LookupEffect := PartyEffect LookupOperation LookupOperation.Ret LookupOwn Lookups

inductive LookupEvent
  | begin (call : Nat)
  | operate
  | leave

namespace Lookups

open DirectConnector

def capacity : Nat := 32

def setChannel (s : Lookups) (call : Nat) (channel : LookupChannel) : Lookups :=
  { s with channels := Function.update s.channels call channel }

/-- The call waits for its thread, or may still spawn it. -/
def caller (w : LookupOwn) : Option Nat :=
  if w.phase = .starting ∨ w.phase = .waiting then some w.call else none

section System

variable (domains : Nat → String)

/-- The outcomes of an operation. A call may be cancelled or time out whatever its thread
does. -/
def Operates (s : Lookups) (_ : List LookupOwn) (w : LookupOwn) :
    (op : LookupOperation) → op.Ret → LookupEffect → Prop
  | .acquire, acquired, effect =>
    (acquired = true ∧ ∃ free, s.free = free + 1 ∧
      effect = ⟨{ s with free := free }, { w with permit := true }, []⟩) ∨
    (acquired = false ∧ s.free = 0 ∧ effect = ⟨s, w, []⟩)
  | .spawn domain, result, effect =>
    (result = .ok () ∧ effect = ⟨s, { w with permit := false, phase := .waiting },
      [⟨{ w with phase := .resolving }, lookupThread domain⟩]⟩) ∨
    ∃ error, result = .error error ∧
      effect = ⟨{ s.setChannel w.call .closed with free := s.free + 1 },
        { w with permit := false, phase := .ended }, []⟩
  | .receive, received, effect =>
    effect = ⟨s, w, []⟩ ∧
      match received with
      | .cancelled | .elapsed => True
      | .ended (.ok result) => s.channels w.call = .sent result
      | .ended (.error ()) => s.channels w.call = .closed
  | .getaddrinfo _, _, effect => effect = ⟨s, w, []⟩
  | .send result, _, effect =>
    effect = ⟨s.setChannel w.call (.sent result), { w with phase := .ended }, []⟩
  | .dropPermit, _, effect => effect = ⟨{ s with free := s.free + 1 }, { w with permit := false }, []⟩

def call (number : Nat) : LookupParty :=
  ⟨⟨number, false, .starting⟩, runLookup (domains number) >>= fun _ => .done ()⟩

/-- Calls are numbered, and a number is used once. -/
def Step : LookupEvent → LookupSystem → LookupSystem → Prop
  | .begin number, s, t => s.shared.channels number = .empty ∧
      (∀ w ∈ s.owns, w.call ≠ number) ∧ s.Join (call domains number) t
  | .operate, s, t => s.Operate Operates t
  | .leave, s, t => s.Leave (fun _ => False) t

def Initial (s : LookupSystem) : Prop := s = ⟨⟨capacity, fun _ => .empty⟩, []⟩

/-- A thread has its permit until it has answered, and a call that waits gets what its own
thread found. -/
def discipline : Discipline LookupOperation LookupOperation.Ret LookupOwn where
  rely w v := v = w
  rely_trans _ _ _ huv hvw := hvw.trans huv
  guard
    | .acquire, w => w.phase = .starting ∧ w.permit = false
    | .spawn domain, w => w.phase = .starting ∧ w.permit = true ∧ domain = domains w.call
    | .receive, w => w.phase = .waiting ∧ w.permit = false
    | .getaddrinfo _, w => w.phase = .resolving ∧ w.permit = true
    | .send result, w => w.phase = .resolving ∧ w.permit = true ∧ Resolved (domains w.call) result
    | .dropPermit, w => w.phase = .ended ∧ w.permit = true
  after
    | .acquire, acquired, w, w' => w' = { w with permit := acquired }
    | .spawn _, .ok _, w, w' => w' = { w with permit := false, phase := .waiting }
    | .spawn _, .error _, w, w' => w' = { w with permit := false, phase := .ended }
    | .receive, .ended (.ok result), w, w' => Resolved (domains w.call) result ∧ w' = w
    | .receive, .ended (.error _), _, _ => False
    | .receive, _, w, w' => w' = w
    | .getaddrinfo _, _, w, w' => w' = w
    | .send _, _, w, w' => w' = { w with phase := .ended }
    | .dropPermit, _, w, w' => w' = { w with permit := false }

def Keeps {α : Type} : LookupProgram α → LookupOwn → Prop :=
  (discipline domains).Spec fun _ w => w.permit = false

/-- The permits are counted by their owners, a sent result is one of the call's own domain,
and no waiting call has lost its thread. -/
structure Accounted (s : Lookups) (owns : List LookupOwn) : Prop where
  permits : Permits capacity LookupOwn.permit s.free owns
  sent : ∀ number result, s.channels number = .sent result → Resolved (domains number) result
  callers : (owns.filterMap caller).Nodup
  live : ∀ number ∈ owns.filterMap caller, s.channels number ≠ .closed

end System

variable {domains : Nat → String}

theorem keeps_resolveIpv4 {w : LookupOwn} (hphase : w.phase = .resolving) (hpermit : w.permit = true)
    {f : Found → LookupProgram Unit}
    (hf : ∀ result, Resolved (domains w.call) result → Keeps domains (f result) w) :
    Keeps domains (resolveIpv4 (domains w.call) >>= f) w := by
  unfold Resolved at hf
  unfold resolveIpv4 at hf ⊢
  split
  next h =>
    rw [if_pos h] at hf
    exact hf _ ⟨_, .done _⟩
  next h =>
    rw [if_neg h] at hf
    split
    next hnul =>
      rw [if_pos hnul] at hf
      exact hf _ ⟨_, .done _⟩
    next hnul =>
      rw [if_neg hnul] at hf
      rintro v rfl
      refine ⟨⟨hphase, hpermit⟩, fun answer v' hv' => ?_⟩
      cases hv'
      exact hf _ ⟨_, .perform (.done _)⟩

theorem keeps_lookupThread (w : LookupOwn) (hphase : w.phase = .resolving)
    (hpermit : w.permit = true) : Keeps domains (lookupThread (domains w.call)) w := by
  refine keeps_resolveIpv4 hphase hpermit fun result hresult => ?_
  rintro v rfl
  refine ⟨⟨hphase, hpermit, hresult⟩, fun _ v' hv' => ?_⟩
  cases hv'
  rintro v rfl
  refine ⟨⟨rfl, hpermit⟩, fun _ v' hv' => ?_⟩
  cases hv'
  rfl

theorem keeps_call (number : Nat) :
    Keeps domains (call domains number).program (call domains number).own := by
  apply Discipline.Spec.bind
  refine Discipline.Spec.weaken (fun _ _ h => h) ?_
  rintro v rfl
  refine ⟨⟨rfl, rfl⟩, fun acquired v' hv' => ?_⟩
  cases hv'
  cases acquired with
  | false => rfl
  | true =>
    rintro v rfl
    refine ⟨⟨rfl, rfl, rfl⟩, fun spawned v' hv' => ?_⟩
    cases spawned with
    | error error =>
      cases hv'
      rfl
    | ok _ =>
      cases hv'
      rintro v rfl
      refine ⟨⟨rfl, rfl⟩, fun received v' hv' => ?_⟩
      rcases received with _ | _ | _ | result
      · cases hv'
        rfl
      · cases hv'
        rfl
      · exact hv'.elim
      · obtain ⟨_, rfl⟩ := hv'
        rfl

section Accounts

variable {s : Lookups} {before after owns : List LookupOwn} {w : LookupOwn}

theorem mem_callers {number : Nat} (h : number ∈ owns.filterMap caller) :
    ∃ v ∈ owns, v.call = number := by
  obtain ⟨v, hv, hcaller⟩ := List.mem_filterMap.mp h
  unfold caller at hcaller
  split at hcaller
  next => exact ⟨v, hv, Option.some.inj hcaller⟩
  next => cases hcaller

theorem Accounted.join (h : s.Accounted domains owns) {number : Nat}
    (hempty : s.channels number = .empty) (hfresh : ∀ v ∈ owns, v.call ≠ number) :
    s.Accounted domains (owns ++ [⟨number, false, .starting⟩]) := by
  have hcallers : (owns ++ [(⟨number, false, .starting⟩ : LookupOwn)]).filterMap caller =
      owns.filterMap caller ++ [number] := List.filterMap_append
  refine ⟨h.permits.join rfl, h.sent, ?_, ?_⟩
  · rw [hcallers, List.nodup_append]
    refine ⟨h.callers, List.nodup_singleton number, ?_⟩
    rintro a ha b hb rfl
    obtain ⟨v, hv, rfl⟩ := mem_callers ha
    exact hfresh v hv (List.mem_singleton.mp hb)
  · rw [hcallers, List.forall_mem_append, List.forall_mem_singleton, hempty]
    exact ⟨h.live, nofun⟩

theorem Accounted.leave (h : s.Accounted domains (before ++ w :: after))
    (hpermit : w.permit = false) : s.Accounted domains (before ++ after) := by
  have hsub : ((before ++ after).filterMap caller).Sublist
      ((before ++ w :: after).filterMap caller) :=
    ((List.Sublist.refl before).append (List.sublist_cons_self w after)).filterMap caller
  refine ⟨h.permits.leave hpermit, h.sent, h.callers.sublist hsub, ?_⟩
  exact fun number hnumber => h.live number (hsub.subset hnumber)

/-- What is left to show when an owner changes: no call is added, and those that remain
have their channels. -/
theorem Accounted.replace (h : s.Accounted domains (before ++ w :: after)) {t : Lookups}
    {w' : LookupOwn} {started : List LookupOwn}
    (hpermits : Permits capacity LookupOwn.permit t.free (before ++ w' :: after ++ started))
    (hsent : ∀ number result, t.channels number = .sent result → Resolved (domains number) result)
    (hcallers : ((w' :: started).filterMap caller).Sublist (caller w).toList)
    (hlive : ∀ number, s.channels number ≠ .closed →
      number ∈ (w' :: started ++ (before ++ after)).filterMap caller →
      t.channels number ≠ .closed) :
    t.Accounted domains (before ++ w' :: after ++ started) := by
  have hmoved : (before ++ w' :: after ++ started).Perm (w' :: started ++ (before ++ after)) := by
    refine List.perm_append_comm.trans ?_
    exact (List.Perm.append_left started List.perm_middle).trans List.perm_middle
  have hold := Permits.filterMap_middle caller before after w
  have hsub : ((w' :: started ++ (before ++ after)).filterMap caller).Sublist
      ((caller w).toList ++ (before ++ after).filterMap caller) := by
    rw [List.filterMap_append]
    exact hcallers.append (List.Sublist.refl _)
  refine ⟨hpermits, hsent, ?_, ?_⟩
  · rw [(hmoved.filterMap caller).nodup_iff]
    exact (hold.nodup_iff.mp h.callers).sublist hsub
  · intro number hnumber
    have hnew := (hmoved.filterMap caller).mem_iff.mp hnumber
    exact hlive number (h.live number (hold.mem_iff.mpr (hsub.subset hnew))) hnew

/-- No other call has the channel of this one. -/
theorem Accounted.call_notMem (h : s.Accounted domains (before ++ w :: after))
    (hw : caller w = some w.call) : w.call ∉ (before ++ after).filterMap caller := by
  have hnodup := (Permits.filterMap_middle caller before after w).nodup_iff.mp h.callers
  rw [hw] at hnodup
  exact (List.nodup_cons.mp hnodup).1

theorem setChannel_channels (number other : Nat) (channel : LookupChannel) :
    (s.setChannel number channel).channels other =
      if other = number then channel else s.channels other :=
  Function.update_apply _ _ _ _

/-- What one operation of a call or of a thread does, as its program may expect, to the
accounts. -/
theorem Accounted.operate {op : LookupOperation} {r : op.Ret} {effect : LookupEffect}
    (h : s.Accounted domains (before ++ w :: after)) (hguard : (discipline domains).guard op w)
    (hop : s.Operates (before ++ w :: after) w op r effect) :
    (discipline domains).after op r w effect.own ∧
    (∀ party ∈ effect.started, Keeps domains party.program party.own) ∧
    effect.shared.Accounted domains
      (before ++ effect.own :: after ++ effect.started.map Party.own) := by
  have hquiet : (∀ party ∈ ([] : List LookupParty), Keeps domains party.program party.own) ∧
      s.Accounted domains (before ++ w :: after ++ ([] : List LookupParty).map Party.own) :=
    ⟨nofun, by simpa using h⟩
  cases op with
  | acquire =>
    obtain ⟨hphase, hpermit⟩ := hguard
    rcases hop with ⟨rfl, free, hfree, rfl⟩ | ⟨rfl, _, rfl⟩
    · have hpermits := h.permits
      rw [hfree] at hpermits
      refine ⟨rfl, nofun, h.replace ?_ h.sent (List.Sublist.refl _) fun _ hlive _ => hlive⟩
      rw [List.map_nil, List.append_nil]
      exact hpermits.acquire hpermit rfl
    · refine ⟨?_, hquiet⟩
      show w = { w with permit := false }
      rw [← hpermit]
  | spawn domain =>
    obtain ⟨hphase, hpermit, rfl⟩ := hguard
    have hcaller : caller w = some w.call := if_pos (Or.inl hphase)
    rcases hop with ⟨rfl, rfl⟩ | ⟨error, rfl, rfl⟩
    · refine ⟨rfl, ?_, h.replace (h.permits.hand hpermit rfl hpermit) h.sent ?_ fun _ hlive _ => hlive⟩
      · rw [List.forall_mem_singleton]
        exact keeps_lookupThread { w with phase := .resolving } rfl hpermit
      · rw [hcaller]
        exact List.Sublist.refl [w.call]
    · refine ⟨rfl, nofun, h.replace ?_ ?_ (List.nil_sublist _) ?_⟩
      · rw [List.map_nil, List.append_nil]
        exact h.permits.release hpermit rfl
      · intro number result hsent
        rw [setChannel_channels] at hsent
        split at hsent
        next => cases hsent
        next => exact h.sent number result hsent
      · intro number hlive hnumber
        have hne : number ≠ w.call := fun heq => h.call_notMem hcaller (heq ▸ hnumber)
        rw [setChannel_channels, if_neg hne]
        exact hlive
  | receive =>
    obtain ⟨rfl, hreceived⟩ := hop
    refine ⟨?_, hquiet⟩
    rcases r with _ | _ | _ | result
    · rfl
    · rfl
    · refine h.live w.call ?_ hreceived
      refine List.mem_filterMap.mpr ⟨w, by simp, if_pos (Or.inr hguard.1)⟩
    · exact ⟨h.sent _ _ hreceived, rfl⟩
  | getaddrinfo name =>
    cases hop
    exact ⟨rfl, hquiet⟩
  | send result =>
    obtain ⟨hphase, hpermit, hresolved⟩ := hguard
    cases hop
    refine ⟨rfl, nofun, h.replace ?_ ?_ (List.nil_sublist _) ?_⟩
    · rw [List.map_nil, List.append_nil]
      exact h.permits.keep rfl
    · intro number found hsent
      rw [setChannel_channels] at hsent
      split at hsent
      next heq =>
        cases hsent
        rw [heq]
        exact hresolved
      next => exact h.sent number found hsent
    · intro number hlive _
      rw [setChannel_channels]
      split
      next => exact nofun
      next => exact hlive
  | dropPermit =>
    obtain ⟨hphase, hpermit⟩ := hguard
    cases hop
    refine ⟨rfl, nofun, h.replace ?_ h.sent (List.Sublist.refl _) fun _ hlive _ => hlive⟩
    rw [List.map_nil, List.append_nil]
    exact h.permits.release hpermit rfl

end Accounts

def Sound (domains : Nat → String) (s : LookupSystem) : Prop :=
  s.Sound (discipline domains) (·.permit = false) (Accounted domains)

theorem Sound.step {event : LookupEvent} {s t : LookupSystem} (h : Sound domains s)
    (hstep : Step domains event s t) : Sound domains t := by
  cases event with
  | begin number =>
    obtain ⟨hempty, hfresh, hjoin⟩ := hstep
    exact Parties.Sound.join h (keeps_call number) (fun hI => hI.join hempty hfresh) hjoin
  | operate =>
    refine Parties.Sound.operate h (fun _ => rfl) ?_ hstep
    intro before w after op r effect howns haccounted hguard hop
    exact haccounted.operate hguard hop
  | leave =>
    refine Parties.Sound.leave h (fun _ => rfl) (fun _ _ => False.elim) ?_ hstep
    exact fun before w after hpermit haccounted => haccounted.leave hpermit

theorem Sound.initial {s : LookupSystem} (h : Initial s) : Sound domains s := by
  cases h
  exact ⟨nofun, Permits.none_held, nofun, List.nodup_nil, nofun⟩

end Lookups

def lookupSystem (domains : Nat → String) : Transition LookupSystem LookupEvent where
  start := Lookups.Initial
  step := Lookups.Step domains

namespace Lookups

open DirectConnector

theorem sound {domains : Nat → String} {s : LookupSystem}
    (h : (lookupSystem domains).Reachable s) : Sound domains s :=
  h.invariant (fun _ hs => .initial hs) fun _ _ _ hs _ hstep => hs.step hstep

/-- The thread is inside the native lookup. -/
def Resolving (party : LookupParty) : Prop :=
  ∃ name next, party.program = .perform (.getaddrinfo name) next

/-- The thread is about to answer its call. -/
def Answering (party : LookupParty) : Prop :=
  ∃ result next, party.program = .perform (.send result) next

/-- The call waits for the thread's answer. -/
def Waiting (party : LookupParty) : Prop := ∃ next, party.program = .perform .receive next

theorem Sound.waiting {domains : Nat → String} {s : LookupSystem} (h : Sound domains s)
    {party : LookupParty} (hparty : party ∈ s.parties) (hwaiting : Waiting party) :
    party.own.permit = false ∧ s.shared.channels party.own.call ≠ .closed := by
  obtain ⟨next, hprogram⟩ := hwaiting
  obtain ⟨hphase, hpermit⟩ := Parties.Sound.guard h (fun _ => rfl) hparty hprogram
  refine ⟨hpermit, h.owned.live _ ?_⟩
  exact List.mem_filterMap.mpr ⟨party.own, List.mem_map_of_mem hparty, if_pos (Or.inr hphase)⟩

/-- A thread keeps its permit until it has answered. -/
theorem Sound.permit {domains : Nat → String} {s : LookupSystem} (h : Sound domains s)
    {party : LookupParty} (hparty : party ∈ s.parties)
    (hthread : Resolving party ∨ Answering party) : party.own.permit = true := by
  rcases hthread with ⟨name, next, hprogram⟩ | ⟨result, next, hprogram⟩
  · exact (Parties.Sound.guard h (fun _ => rfl) hparty hprogram).2
  · exact (Parties.Sound.guard h (fun _ => rfl) hparty hprogram).2.1

theorem Sound.resolving {domains : Nat → String} {s : LookupSystem} (h : Sound domains s)
    {threads : List LookupParty} (hthreads : threads.Sublist s.parties)
    (hresolving : ∀ party ∈ threads, Resolving party) :
    threads.length ≤ capacity - s.shared.free := by
  have hpermit : ∀ w ∈ threads.map Party.own, w.permit = true := by
    intro w hw
    obtain ⟨party, hparty, rfl⟩ := List.mem_map.mp hw
    exact h.permit (hthreads.subset hparty) (.inl (hresolving party hparty))
  calc threads.length = (threads.map Party.own).countP LookupOwn.permit := by
        rw [List.countP_eq_length.mpr hpermit, List.length_map]
    _ ≤ s.owns.countP LookupOwn.permit := (hthreads.map Party.own).countP_le
    _ ≤ capacity - s.shared.free := h.owned.permits.countP_le

/-- Whatever times out or is cancelled, every permit is free or held, each thread holds one
until it has answered, and no call that only waits does; so at most 32 lookups run, and all
permits return when the threads have ended. A call that waits has not lost its thread, and the
result in its channel is one of its own domain. -/
theorem lookups_within_permits {domains : Nat → String} {s : LookupSystem}
    (h : (lookupSystem domains).Reachable s) :
    s.shared.free + s.owns.countP LookupOwn.permit = capacity ∧
    (∀ threads : List LookupParty, threads.Sublist s.parties →
      (∀ party ∈ threads, Resolving party) → threads.length ≤ capacity - s.shared.free) ∧
    (∀ party ∈ s.parties, Resolving party ∨ Answering party → party.own.permit = true) ∧
    (∀ party ∈ s.parties, Waiting party →
      party.own.permit = false ∧ s.shared.channels party.own.call ≠ .closed) ∧
    (∀ number result, s.shared.channels number = .sent result →
      Resolved (domains number) result) ∧
    ((∀ party ∈ s.parties, Waiting party) → s.shared.free = capacity) := by
  have hsound := sound h
  refine ⟨hsound.owned.permits, fun _ => hsound.resolving, fun _ => hsound.permit,
    fun _ => hsound.waiting, hsound.owned.sent, ?_⟩
  intro hall
  apply hsound.owned.permits.eq_capacity
  intro w hw
  obtain ⟨party, hparty, rfl⟩ := List.mem_map.mp hw
  exact (hsound.waiting hparty (hall party hparty)).1

/-- The call has timed out and is gone, and its thread still looks the name up. -/
theorem lookups_within_permits_after_timeout :
    ∃ s party, (lookupSystem fun _ => "host").Reachable s ∧ s.parties = [party] ∧
      Resolving party ∧ s.shared.free = 31 ∧ party.own.permit = true ∧
      s.shared.free + s.owns.countP LookupOwn.permit = capacity := by
  have hrun : ∃ s party, (lookupSystem fun _ => "host").Reachable s ∧ s.parties = [party] ∧
      Resolving party ∧ s.shared.free = 31 := by
    have hbegun : (lookupSystem fun _ => "host").Reachable _ :=
      .next (.begin 0) (.start rfl) trivial ⟨rfl, nofun, rfl⟩
    have hacquired : (lookupSystem fun _ => "host").Reachable _ :=
      .next .operate hbegun trivial
        ⟨[], _, [], .acquire, _, true, _, rfl, rfl, Or.inl ⟨rfl, 31, rfl, rfl⟩, rfl⟩
    have hspawned : (lookupSystem fun _ => "host").Reachable _ :=
      .next .operate hacquired trivial
        ⟨[], _, [], .spawn "host", _, .ok (), _, rfl, rfl, Or.inl ⟨rfl, rfl⟩, rfl⟩
    have htimeout : (lookupSystem fun _ => "host").Reachable _ :=
      .next .operate hspawned trivial
        ⟨[], _, [_], .receive, _, .elapsed, _, rfl, rfl, ⟨rfl, trivial⟩, rfl⟩
    have hgone : (lookupSystem fun _ => "host").Reachable _ :=
      .next .leave htimeout trivial ⟨[], _, [_], rfl, Or.inl rfl, rfl⟩
    exact ⟨_, _, hgone, rfl, ⟨_, _, rfl⟩, rfl⟩
  obtain ⟨s, party, hs, hparties, hresolving, hfree⟩ := hrun
  obtain ⟨hcount, _, hpermit, _⟩ := lookups_within_permits hs
  have hparty : party ∈ s.parties := hparties ▸ List.mem_singleton_self party
  exact ⟨s, party, hs, hparties, hresolving, hfree, hpermit party hparty (.inl hresolving), hcount⟩

end Lookups

end Scproxy
