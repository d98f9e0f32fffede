import Mathlib.Data.List.Basic
import Scproxy.HashMap
import Scproxy.Interaction
import Scproxy.Net

namespace Scproxy

/-- A candidate for a stream. `fd` is the broker's duplicate of the socket, and
`sender` tells whether the channel to the registration is still unused. The
registration is named by the connect call that made it. -/
structure Pending where
  fd : Nat
  socket : Nat
  call : Nat
  sender : Bool
  deriving DecidableEq

abbrev Waiting := HashMap UInt16 (List Pending)

/-- The two questions to the kernel about a candidate's socket. An error is `none`. -/
inductive AddressOp
  | localAddress (socket : Nat)
  | peerAddress (socket : Nat)

abbrev AddressOp.Ret (_ : AddressOp) : Type := Option SocketAddrV4

namespace Ingress

/-- `or_default().push(..)`, the end of `register`. -/
def push (port : UInt16) (pending : Pending) (waiting : Waiting) : Waiting :=
  waiting.insert port ((waiting.lookup port).getD [] ++ [pending])

/-- What dropping a registration does to the table. -/
def unregister (port : UInt16) (fd : Nat) (waiting : Waiting) : Waiting :=
  match waiting.lookup port with
  | none => waiting
  | some candidates =>
    let rest := candidates.filter fun pending => pending.fd ≠ fd
    if rest = [] then waiting.erase port else waiting.insert port rest

/-- The channel of a candidate is taken; the candidate stays in the table. -/
def take (port : UInt16) (index : Nat) (waiting : Waiting) : Waiting :=
  match waiting.lookup port with
  | none => waiting
  | some candidates =>
    waiting.insert port (candidates.modify index fun pending => { pending with sender := false })

/-- The index of the first candidate whose socket has the addresses of the
stream. The two addresses are read one after the other. -/
def findCandidate (relay source : SocketAddrV4) :
    List Pending → Nat → Interaction AddressOp AddressOp.Ret (Option Nat)
  | [], _ => .done none
  | pending :: rest, index =>
    if pending.sender then
      .perform (.localAddress pending.socket) fun localAddress =>
        if localAddress = some source then
          .perform (.peerAddress pending.socket) fun peerAddress =>
            if peerAddress = some relay then .done (some index)
            else findCandidate relay source rest (index + 1)
        else findCandidate relay source rest (index + 1)
    else findCandidate relay source rest (index + 1)

/-- The search that `deliver` makes under the lock. -/
def deliver (relay source : SocketAddrV4) (waiting : Waiting) :
    Interaction AddressOp AddressOp.Ret (Option Nat) :=
  findCandidate relay source ((waiting.lookup source.port).getD []) 0

/-- A registration still waits for its stream. -/
def Waits (waiting : Waiting) (pending : Pending) : Prop :=
  pending.sender = true ∧ ∃ port candidates, waiting.lookup port = some candidates ∧
    pending ∈ candidates

/-- The candidates of a port. -/
def candidates (waiting : Waiting) (port : UInt16) : List Pending := (waiting.lookup port).getD []

theorem candidates_insert (waiting : Waiting) (port other : UInt16) (list : List Pending) :
    candidates (waiting.insert port list) other =
      if other = port then list else candidates waiting other := by
  unfold candidates
  rw [HashMap.lookup_insert_eq_ite]
  split
  next => rfl
  next => rfl

theorem candidates_erase (waiting : Waiting) (port other : UInt16) :
    candidates (waiting.erase port) other = if other = port then [] else candidates waiting other := by
  unfold candidates
  rw [HashMap.lookup_erase_eq_ite]
  split
  next => rfl
  next => rfl

theorem candidates_push (port other : UInt16) (pending : Pending) (waiting : Waiting) :
    candidates (push port pending waiting) other =
      if other = port then candidates waiting other ++ [pending] else candidates waiting other := by
  unfold push
  rw [candidates_insert]
  split
  next h =>
    rw [h]
    rfl
  next => rfl

theorem candidates_unregister (port other : UInt16) (fd : Nat) (waiting : Waiting) :
    candidates (unregister port fd waiting) other =
      if other = port then (candidates waiting other).filter fun pending => pending.fd ≠ fd
      else candidates waiting other := by
  unfold unregister
  cases hlookup : waiting.lookup port with
  | none =>
    have hnone : candidates waiting port = [] := by rw [candidates, hlookup]; rfl
    dsimp only
    split
    next h => rw [h, hnone, List.filter_nil]
    next => rfl
  | some list =>
    have hlist : candidates waiting port = list := by rw [candidates, hlookup]; rfl
    dsimp only
    split
    next hrest =>
      rw [candidates_erase]
      split
      next h => rw [h, hlist, hrest]
      next => rfl
    next =>
      rw [candidates_insert]
      split
      next h => rw [h, hlist]
      next => rfl

theorem candidates_take (port other : UInt16) (index : Nat) (waiting : Waiting) :
    candidates (take port index waiting) other =
      if other = port then
        (candidates waiting other).modify index fun pending => { pending with sender := false }
      else candidates waiting other := by
  unfold take
  cases hlookup : waiting.lookup port with
  | none =>
    have hnone : candidates waiting port = [] := by rw [candidates, hlookup]; rfl
    dsimp only
    split
    next h => rw [h, hnone, List.modify_nil]
    next => rfl
  | some list =>
    have hlist : candidates waiting port = list := by rw [candidates, hlookup]; rfl
    dsimp only
    rw [candidates_insert]
    split
    next h => rw [h, hlist]
    next => rfl

theorem waits_iff {waiting : Waiting} {pending : Pending} :
    Waits waiting pending ↔
      pending.sender = true ∧ ∃ port, pending ∈ candidates waiting port := by
  constructor
  · rintro ⟨hsender, port, list, hlookup, hmem⟩
    refine ⟨hsender, port, ?_⟩
    rwa [candidates, hlookup]
  · rintro ⟨hsender, port, hmem⟩
    refine ⟨hsender, port, ?_⟩
    cases hlookup : waiting.lookup port with
    | none =>
      rw [candidates, hlookup] at hmem
      cases hmem
    | some list =>
      rw [candidates, hlookup] at hmem
      exact ⟨list, rfl, hmem⟩

theorem waits_push {port : UInt16} {new pending : Pending} {waiting : Waiting}
    (h : Waits (push port new waiting) pending) : Waits waiting pending ∨ pending = new := by
  rw [waits_iff] at h ⊢
  obtain ⟨hsender, other, hmem⟩ := h
  rw [candidates_push] at hmem
  split at hmem
  next =>
    rcases List.mem_append.mp hmem with hold | hnew
    · exact .inl ⟨hsender, other, hold⟩
    · exact .inr (List.mem_singleton.mp hnew)
  next => exact .inl ⟨hsender, other, hmem⟩

theorem waits_unregister {port : UInt16} {fd : Nat} {pending : Pending} {waiting : Waiting}
    (h : Waits (unregister port fd waiting) pending) : Waits waiting pending := by
  rw [waits_iff] at h ⊢
  obtain ⟨hsender, other, hmem⟩ := h
  rw [candidates_unregister] at hmem
  split at hmem
  next => exact ⟨hsender, other, (List.mem_filter.mp hmem).1⟩
  next => exact ⟨hsender, other, hmem⟩

theorem mem_modify_sender {candidates : List Pending} {index : Nat} {pending : Pending}
    (hsender : pending.sender = true)
    (h : pending ∈ candidates.modify index fun p => { p with sender := false }) :
    pending ∈ candidates := by
  induction candidates generalizing index with
  | nil => simp at h
  | cons p candidates ih =>
    cases index with
    | zero =>
      rw [List.modify_zero_cons] at h
      rcases List.mem_cons.mp h with heq | hmem
      · rw [heq] at hsender
        cases hsender
      · exact List.mem_cons_of_mem _ hmem
    | succ index =>
      rw [List.modify_succ_cons] at h
      rcases List.mem_cons.mp h with heq | hmem
      · rw [heq]
        exact List.mem_cons_self
      · exact List.mem_cons_of_mem _ (ih hmem)

theorem waits_take {port : UInt16} {index : Nat} {pending : Pending} {waiting : Waiting}
    (h : Waits (take port index waiting) pending) : Waits waiting pending := by
  rw [waits_iff] at h ⊢
  obtain ⟨hsender, other, hmem⟩ := h
  rw [candidates_take] at hmem
  split at hmem
  next => exact ⟨hsender, other, mem_modify_sender hsender hmem⟩
  next => exact ⟨hsender, other, hmem⟩

/-- No list of candidates is empty. -/
def Filled (waiting : Waiting) : Prop :=
  ∀ port list, waiting.lookup port = some list → list ≠ []

theorem Filled.push {waiting : Waiting} (h : Filled waiting) (port : UInt16) (pending : Pending) :
    Filled (push port pending waiting) := by
  intro other list hlookup
  unfold Ingress.push at hlookup
  rw [HashMap.lookup_insert_eq_ite] at hlookup
  split at hlookup
  next =>
    cases hlookup
    simp
  next => exact h other list hlookup

theorem Filled.unregister {waiting : Waiting} (h : Filled waiting) (port : UInt16) (fd : Nat) :
    Filled (unregister port fd waiting) := by
  intro other list hlookup
  unfold Ingress.unregister at hlookup
  split at hlookup
  next => exact h other list hlookup
  next =>
    dsimp only at hlookup
    split at hlookup
    next =>
      rw [HashMap.lookup_erase_eq_ite] at hlookup
      split at hlookup
      next => cases hlookup
      next => exact h other list hlookup
    next hrest =>
      rw [HashMap.lookup_insert_eq_ite] at hlookup
      split at hlookup
      next =>
        cases hlookup
        exact hrest
      next => exact h other list hlookup

theorem Filled.take {waiting : Waiting} (h : Filled waiting) (port : UInt16) (index : Nat) :
    Filled (take port index waiting) := by
  intro other list hlookup
  unfold Ingress.take at hlookup
  split at hlookup
  next => exact h other list hlookup
  next candidates hcandidates =>
    rw [HashMap.lookup_insert_eq_ite] at hlookup
    split at hlookup
    next =>
      cases hlookup
      have hlength := List.length_pos_iff.mpr (h port candidates hcandidates)
      exact List.ne_nil_of_length_pos (by rwa [List.length_modify])
    next => exact h other list hlookup

/-- All candidates of the table, each as its port and descriptor. -/
def entries (waiting : Waiting) : List (UInt16 × Nat) :=
  waiting.entries.flatMap fun entry => entry.2.map fun pending => (entry.1, pending.fd)

theorem entries_insert (waiting : Waiting) (port : UInt16) (list : List Pending) :
    entries (waiting.insert port list) =
      (list.map fun pending => (port, pending.fd)) ++ entries (waiting.erase port) := by
  unfold entries
  rw [AList.entries_insert, List.flatMap_cons]
  rfl

/-- The entries of one port and those of the others. -/
theorem entries_perm (waiting : Waiting) (port : UInt16) :
    (entries waiting).Perm
      (((candidates waiting port).map fun pending => (port, pending.fd)) ++
        entries (waiting.erase port)) := by
  cases hlookup : waiting.lookup port with
  | none =>
    have hnone : candidates waiting port = [] := by rw [candidates, hlookup]; rfl
    have herase : (waiting.erase port).entries = waiting.entries :=
      List.kerase_of_notMem_keys (AList.lookup_eq_none.mp hlookup)
    rw [hnone, List.map_nil, List.nil_append, entries, entries, herase]
  | some list =>
    have hlist : candidates waiting port = list := by rw [candidates, hlookup]; rfl
    have hsame : waiting.entries.Perm ((waiting.erase port).insert port list).entries := by
      apply List.lookup_ext waiting.nodupKeys (AList.nodupKeys _)
      intro other found
      have hother : ((waiting.erase port).insert port list).lookup other = waiting.lookup other := by
        rw [HashMap.lookup_insert_eq_ite, HashMap.lookup_erase_eq_ite]
        split
        next h => rw [h, hlookup]
        next => rfl
      show found ∈ waiting.lookup other ↔ _
      rw [← hother]
      rfl
    have hfresh : port ∉ waiting.erase port := by
      rw [AList.mem_erase]
      simp
    rw [AList.entries_insert_of_notMem hfresh] at hsame
    rw [hlist]
    exact hsame.flatMap_right _

theorem mem_entries {waiting : Waiting} {port : UInt16} {fd : Nat} :
    (port, fd) ∈ entries waiting ↔ ∃ pending ∈ candidates waiting port, pending.fd = fd := by
  unfold entries
  constructor
  · intro h
    obtain ⟨⟨other, list⟩, hentry, hmem⟩ := List.mem_flatMap.mp h
    obtain ⟨pending, hpending, heq⟩ := List.mem_map.mp hmem
    obtain ⟨rfl, rfl⟩ := Prod.mk.inj heq
    have hlookup : waiting.lookup other = some list := AList.mem_lookup_iff.mpr hentry
    refine ⟨pending, ?_, rfl⟩
    rwa [candidates, hlookup]
  · rintro ⟨pending, hpending, rfl⟩
    cases hlookup : waiting.lookup port with
    | none =>
      rw [candidates, hlookup] at hpending
      cases hpending
    | some list =>
      rw [candidates, hlookup] at hpending
      refine List.mem_flatMap.mpr ⟨⟨port, list⟩, AList.mem_lookup_iff.mp hlookup, ?_⟩
      exact List.mem_map.mpr ⟨pending, hpending, rfl⟩

/-- The table is known by the candidates of its ports. -/
theorem count_entries (waiting : Waiting) (port : UInt16) (fd : Nat) :
    (entries waiting).count (port, fd) =
      ((candidates waiting port).map fun pending => pending.fd).count fd := by
  have hothers : (port, fd) ∉ entries (waiting.erase port) := by
    intro hmem
    obtain ⟨pending, hpending, _⟩ := mem_entries.mp hmem
    rw [candidates_erase, if_pos rfl] at hpending
    cases hpending
  rw [(entries_perm waiting port).count_eq, List.count_append, List.count_eq_zero.mpr hothers]
  rw [Nat.add_zero, List.count_eq_countP, List.count_eq_countP, List.countP_map, List.countP_map]
  apply List.countP_congr
  intro pending _
  simp

theorem entries_push (port : UInt16) (pending : Pending) (waiting : Waiting) :
    (entries (push port pending waiting)).Perm ((port, pending.fd) :: entries waiting) := by
  apply List.perm_iff_count.mpr
  rintro ⟨other, fd⟩
  rw [count_entries, candidates_push, List.count_cons, count_entries]
  split
  next h =>
    rw [List.map_append, List.count_append, h]
    simp [List.count_singleton]
  next h => simp [Ne.symm h]

theorem entries_unregister (port : UInt16) (fd : Nat) (waiting : Waiting) :
    (entries (unregister port fd waiting)).Perm ((entries waiting).filter (· ≠ (port, fd))) := by
  apply List.perm_iff_count.mpr
  rintro ⟨other, fd'⟩
  rw [count_entries, candidates_unregister]
  by_cases heq : (other, fd') = (port, fd)
  · obtain ⟨rfl, rfl⟩ := Prod.mk.inj heq
    have hgone : (other, fd') ∉ (entries waiting).filter (· ≠ (other, fd')) := by simp
    rw [if_pos rfl, List.count_eq_zero.mpr hgone]
    apply List.count_eq_zero.mpr
    simp
  · have hkept : ((entries waiting).filter (· ≠ (port, fd))).count (other, fd') =
        (entries waiting).count (other, fd') := by
      apply List.count_filter
      exact decide_eq_true heq
    rw [hkept, count_entries]
    split
    next h =>
      have hfd : fd' ≠ fd := fun hfd => heq (by rw [h, hfd])
      rw [List.count_eq_countP, List.count_eq_countP, List.countP_map, List.countP_map,
        List.countP_filter]
      apply List.countP_congr
      intro pending _
      simp only [Function.comp_apply, beq_iff_eq, Bool.and_eq_true, decide_eq_true_eq]
      constructor
      · exact fun h => h.1
      · exact fun h => ⟨h, h ▸ hfd⟩
    next => rfl

theorem entries_take (port : UInt16) (index : Nat) (waiting : Waiting) :
    (entries (take port index waiting)).Perm (entries waiting) := by
  apply List.perm_iff_count.mpr
  rintro ⟨other, fd⟩
  rw [count_entries, count_entries, candidates_take]
  split
  next =>
    congr 1
    apply List.ext_getElem?
    intro i
    rw [List.getElem?_map, List.getElem?_modify, List.getElem?_map]
    cases (candidates waiting other)[i]? with
    | none => rfl
    | some pending =>
      simp only [Option.map_eq_map, Option.map_some]
      split
      next => rfl
      next => rfl
  next => rfl

theorem Filled.eq_empty {waiting : Waiting} (h : Filled waiting) (hnone : entries waiting = []) :
    waiting = ∅ := by
  apply AList.ext
  apply List.eq_nil_iff_forall_not_mem.mpr
  rintro ⟨port, list⟩ hentry
  have hlookup : waiting.lookup port = some list := AList.mem_lookup_iff.mpr hentry
  obtain ⟨pending, hpending⟩ := List.exists_mem_of_ne_nil list (h port list hlookup)
  have hmem : (port, pending.fd) ∈ entries waiting := by
    refine mem_entries.mpr ⟨pending, ?_, rfl⟩
    rwa [candidates, hlookup]
  rw [hnone] at hmem
  cases hmem

end Ingress

end Scproxy
