import Mathlib.Logic.Function.Basic
import Scproxy.HashMap

namespace Scproxy

/-- A client of a table of weak references to locks. From `looking` to `found` it
holds the mutex of the table; `created`, `found`, `referring` and `holding` have a
strong reference, and `holding` the guard of its lock. -/
inductive LockClient (K : Type)
  | away
  | looking (key : K)
  | missed (key : K)
  | created (key : K) (lock : Nat)
  | found (key : K) (lock : Nat)
  | referring (key : K) (lock : Nat)
  | holding (key : K) (lock : Nat)

namespace LockClient

variable {K : Type}

/-- The strong reference, with the key it was looked up under. -/
def reference : LockClient K → Option (K × Nat)
  | created key lock | found key lock | referring key lock | holding key lock => some (key, lock)
  | away | looking _ | missed _ => none

/-- The client holds the mutex of the table. -/
def Inside : LockClient K → Prop
  | looking _ | missed _ | created .. | found .. => True
  | away | referring .. | holding .. => False

/-- The client found no lock that it could use, and has not left one yet. -/
def Replaces (key : K) : LockClient K → Prop
  | missed other | created other _ => other = key
  | _ => False

theorem Replaces.inside {key : K} {client : LockClient K} (h : client.Replaces key) :
    client.Inside := by
  cases client with
  | missed other | created other lock => trivial
  | _ => exact h.elim

end LockClient

inductive TableOwner
  | client (id : Nat)
  | cleanup

/-- The cleanup looks at one entry after another. -/
inductive Cleanup (K : Type)
  | idle
  | scanning (todo : List K)
  | removing (key : K) (todo : List K)

/-- `owner` holds the mutex of the table, `holders` the guards of the locks. -/
structure WeakTable (K : Type) where
  clients : Nat → LockClient K
  table : HashMap K Nat
  owner : Option TableOwner
  holders : Nat → Option Nat
  cleanup : Cleanup K

inductive LockTableEvent (K : Type)
  | look (id : Nat) (key : K)
  | upgrade (id : Nat)
  | miss (id : Nat)
  | create (id : Nat)
  | insert (id : Nat)
  | exit (id lock : Nat)
  | acquire (id lock : Nat)
  | dropGuard (id lock : Nat)
  | dropReference (id lock : Nat)
  | startCleanup
  | check
  | remove
  | endCleanup

/-- The cleanup is one of its own, and runs beside the clients. -/
def LockTableEvent.OfCleanup {K : Type} : LockTableEvent K → Prop
  | startCleanup | check | remove | endCleanup => True
  | _ => False

/-- The client that the event is a step of. -/
def LockTableEvent.client? {K : Type} : LockTableEvent K → Option Nat
  | look id _ | upgrade id | miss id | create id | insert id | exit id _ | acquire id _
  | dropGuard id _ | dropReference id _ => some id
  | startCleanup | check | remove | endCleanup => none

/-- What a step of a client does to it. -/
def LockClient.Moves {K : Type} (before after : LockClient K) : LockTableEvent K → Prop
  | .look _ key => before = .away ∧ after = .looking key
  | .upgrade _ => ∃ key lock, before = .looking key ∧ after = .found key lock
  | .miss _ => ∃ key, before = .looking key ∧ after = .missed key
  | .create _ => ∃ key lock, before = .missed key ∧ after = .created key lock
  | .insert _ => ∃ key lock, before = .created key lock ∧ after = .found key lock
  | .exit _ lock => ∃ key, before = .found key lock ∧ after = .referring key lock
  | .acquire _ lock => ∃ key, before = .referring key lock ∧ after = .holding key lock
  | .dropGuard _ lock => ∃ key, before = .holding key lock ∧ after = .referring key lock
  | .dropReference _ lock => ∃ key, before = .referring key lock ∧ after = .away
  | .startCleanup | .check | .remove | .endCleanup => after = before

namespace WeakTable

variable {K : Type}

def setClient (s : WeakTable K) (id : Nat) (client : LockClient K) : WeakTable K :=
  { s with clients := Function.update s.clients id client }

def setHolder (s : WeakTable K) (lock : Nat) (holder : Option Nat) : WeakTable K :=
  { s with holders := Function.update s.holders lock holder }

@[grind =] theorem clients_setClient (s : WeakTable K) (id other : Nat) (client : LockClient K) :
    (s.setClient id client).clients other = if other = id then client else s.clients other :=
  Function.update_apply ..

@[grind =] theorem holders_setHolder (s : WeakTable K) (lock other : Nat) (holder : Option Nat) :
    (s.setHolder lock holder).holders other = if other = lock then holder else s.holders other :=
  Function.update_apply ..

@[grind =] theorem clients_setHolder (s : WeakTable K) (lock id : Nat) (holder : Option Nat) :
    (s.setHolder lock holder).clients id = s.clients id := rfl

@[grind =] theorem holders_setClient (s : WeakTable K) (id lock : Nat) (client : LockClient K) :
    (s.setClient id client).holders lock = s.holders lock := rfl

/-- The strong count of the lock is not zero. -/
def Alive (s : WeakTable K) (lock : Nat) : Prop :=
  ∃ id key, (s.clients id).reference = some (key, lock)

variable [DecidableEq K]

/-- A weak reference can be upgraded while there is a strong one. A new lock is
none that the table or a client refers to. -/
inductive Step : LockTableEvent K → WeakTable K → WeakTable K → Prop
  | look {s : WeakTable K} {id : Nat} {key : K} (hclient : s.clients id = .away)
    (howner : s.owner = none) :
    Step (.look id key) s { s.setClient id (.looking key) with owner := some (.client id) }
  | upgrade {s : WeakTable K} {id lock : Nat} {key : K} (hclient : s.clients id = .looking key)
    (hentry : s.table.lookup key = some lock) (halive : s.Alive lock) :
    Step (.upgrade id) s (s.setClient id (.found key lock))
  | miss {s : WeakTable K} {id : Nat} {key : K} (hclient : s.clients id = .looking key)
    (hdead : ∀ lock, s.table.lookup key = some lock → ¬s.Alive lock) :
    Step (.miss id) s (s.setClient id (.missed key))
  | create {s : WeakTable K} {id lock : Nat} {key : K} (hclient : s.clients id = .missed key)
    (hdead : ¬s.Alive lock) (hfresh : ∀ other, s.table.lookup other ≠ some lock) :
    Step (.create id) s ((s.setHolder lock none).setClient id (.created key lock))
  | insert {s : WeakTable K} {id lock : Nat} {key : K}
    (hclient : s.clients id = .created key lock) :
    Step (.insert id) s { s.setClient id (.found key lock) with table := s.table.insert key lock }
  | exit {s : WeakTable K} {id lock : Nat} {key : K} (hclient : s.clients id = .found key lock) :
    Step (.exit id lock) s { s.setClient id (.referring key lock) with owner := none }
  | acquire {s : WeakTable K} {id lock : Nat} {key : K}
    (hclient : s.clients id = .referring key lock) (hfree : s.holders lock = none) :
    Step (.acquire id lock) s ((s.setHolder lock (some id)).setClient id (.holding key lock))
  | dropGuard {s : WeakTable K} {id lock : Nat} {key : K}
    (hclient : s.clients id = .holding key lock) :
    Step (.dropGuard id lock) s ((s.setHolder lock none).setClient id (.referring key lock))
  | dropReference {s : WeakTable K} {id lock : Nat} {key : K}
    (hclient : s.clients id = .referring key lock) :
    Step (.dropReference id lock) s (s.setClient id .away)
  | startCleanup {s : WeakTable K} {todo : List K} (howner : s.owner = none)
    (htodo : todo.Perm s.table.keys) :
    Step .startCleanup s { s with owner := some .cleanup, cleanup := .scanning todo }
  | keep {s : WeakTable K} {key : K} {todo : List K} {lock : Nat}
    (hcleanup : s.cleanup = .scanning (key :: todo)) (hentry : s.table.lookup key = some lock)
    (halive : s.Alive lock) : Step .check s { s with cleanup := .scanning todo }
  | condemn {s : WeakTable K} {key : K} {todo : List K} {lock : Nat}
    (hcleanup : s.cleanup = .scanning (key :: todo)) (hentry : s.table.lookup key = some lock)
    (hdead : ¬s.Alive lock) : Step .check s { s with cleanup := .removing key todo }
  | remove {s : WeakTable K} {key : K} {todo : List K} (hcleanup : s.cleanup = .removing key todo) :
    Step .remove s { s with table := s.table.erase key, cleanup := .scanning todo }
  | endCleanup {s : WeakTable K} (hcleanup : s.cleanup = .scanning []) :
    Step .endCleanup s { s with owner := none, cleanup := .idle }

section Step

variable {s t : WeakTable K} {event : LockTableEvent K} {id lock : Nat} {key : K}

theorem Step.clients_of_ne (hstep : Step event s t) (h : event.client? ≠ some id) :
    t.clients id = s.clients id := by
  cases hstep with
  | _ => grind [LockTableEvent.client?, setClient]

theorem Step.moves (hstep : Step event s t) (h : event.client? = some id) :
    (s.clients id).Moves (t.clients id) event := by
  cases hstep with
  | _ => grind [LockTableEvent.client?, LockClient.Moves]

/-- A strong reference comes from another one, or from a new lock. -/
theorem Step.reference (hstep : Step event s t)
    (h : (t.clients id).reference = some (key, lock)) :
    (s.clients id).reference = some (key, lock) ∨
    (s.clients id = .looking key ∧ s.Alive lock ∧ s.table.lookup key = some lock ∧
      t.table = s.table) ∨
    (s.clients id = .missed key ∧ t.clients id = .created key lock) := by
  cases hstep with
  | _ => grind [LockClient.reference, setClient]

/-- The table changes when a new lock is entered and when the cleanup removes one. -/
theorem Step.table (hstep : Step event s t) :
    t.table = s.table ∨
    (∃ id key lock, s.clients id = .created key lock ∧ t.table = s.table.insert key lock) ∨
    ∃ key todo, event = .remove ∧ s.cleanup = .removing key todo ∧ t.table = s.table.erase key := by
  cases hstep with
  | _ => grind [setClient, setHolder]

theorem Step.created (hstep : Step event s t) (h : s.clients id = .created key lock) :
    t.clients id = .created key lock ∨
    t.clients id = .found key lock ∧ t.table = s.table.insert key lock := by
  cases hstep with
  | _ => grind [setClient]

theorem Step.replaces (hstep : Step event s t) (h : (t.clients id).Replaces key) :
    (s.clients id).Replaces key ∨
    (s.clients id = .looking key ∧ ∀ lock, s.table.lookup key = some lock → ¬s.Alive lock) := by
  cases hstep with
  | _ => grind [LockClient.Replaces, setClient]

theorem Step.removing {todo : List K} (hstep : Step event s t)
    (h : t.cleanup = .removing key todo) :
    s.cleanup = .removing key todo ∨
    (t.table = s.table ∧ s.cleanup ≠ .idle ∧
      ∃ lock, s.table.lookup key = some lock ∧ ¬s.Alive lock) := by
  cases hstep with
  | _ => grind [setClient, setHolder]

end Step

/-- What holds of every state. A reference is to the lock in the table, unless it
is a new one; while a client is about to enter a new lock, nobody else refers to a
lock under its key; and what the cleanup is about to remove is not referred to. -/
structure Sound (s : WeakTable K) : Prop where
  inside : ∀ id, (s.clients id).Inside → s.owner = some (.client id)
  cleaning : s.cleanup ≠ .idle → s.owner = some .cleanup
  referenced : ∀ id key lock, (s.clients id).reference = some (key, lock) →
    s.table.lookup key = some lock ∨ s.clients id = .created key lock
  sole : ∀ id key, (s.clients id).Replaces key →
    ∀ other lock, (s.clients other).reference = some (key, lock) → other = id
  held : ∀ id key lock, s.clients id = .holding key lock → s.holders lock = some id
  holds : ∀ id lock, s.holders lock = some id → ∃ key, s.clients id = .holding key lock
  condemned : ∀ key todo lock, s.cleanup = .removing key todo → s.table.lookup key = some lock →
    ¬s.Alive lock

namespace Sound

variable {s t : WeakTable K} {event : LockTableEvent K} {id id' lock lock' : Nat} {key : K}

/-- Only one client is inside at a time. -/
theorem inside_unique (h : s.Sound) (hid : (s.clients id).Inside) (hid' : (s.clients id').Inside) :
    id = id' := by
  have howner := (h.inside id hid).symm.trans (h.inside id' hid')
  exact TableOwner.client.inj (Option.some.inj howner)

/-- No client is inside while the cleanup runs. -/
theorem idle_of_inside (h : s.Sound) (hid : (s.clients id).Inside) : s.cleanup = .idle := by
  by_contra hrunning
  have howner := (h.inside id hid).symm.trans (h.cleaning hrunning)
  cases howner

theorem inside_step (h : s.Sound) (hstep : Step event s t) (hid : (t.clients id).Inside) :
    t.owner = some (.client id) := by
  have hinside := h.inside
  have hcleaning := h.cleaning
  cases hstep with
  | _ => grind [LockClient.Inside, setClient, setHolder]

theorem cleaning_step (h : s.Sound) (hstep : Step event s t) (hcleanup : t.cleanup ≠ .idle) :
    t.owner = some .cleanup := by
  have hinside := h.inside
  have hcleaning := h.cleaning
  cases hstep with
  | _ => grind [LockClient.Inside, setClient, setHolder]

theorem referenced_step (h : s.Sound) (hstep : Step event s t)
    (href : (t.clients id).reference = some (key, lock)) :
    t.table.lookup key = some lock ∨ t.clients id = .created key lock := by
  rcases hstep.reference href with hold | ⟨_, _, hentry, hsame⟩ | ⟨_, hcreated⟩
  · rcases h.referenced id key lock hold with hentry | hcreated
    · left
      rcases hstep.table with hsame | ⟨other, key', lock', hother, hinsert⟩ |
        ⟨key', todo, _, hremoving, herase⟩
      · rw [hsame, hentry]
      · rw [hinsert, HashMap.lookup_insert_eq_ite]
        split
        next heq =>
          subst heq
          obtain rfl := h.sole other key (by rw [hother]; rfl) id lock hold
          rw [hother] at hold
          cases hold
          rfl
        next => exact hentry
      · rw [herase, HashMap.lookup_erase_eq_ite]
        split
        next heq =>
          subst heq
          exact absurd ⟨id, key, hold⟩ (h.condemned key todo lock hremoving hentry)
        next => exact hentry
    · rcases hstep.created hcreated with hkept | ⟨_, hinsert⟩
      · exact Or.inr hkept
      · left
        rw [hinsert, AList.lookup_insert]
  · left
    rw [hsame, hentry]
  · exact Or.inr hcreated

theorem sole_step (h : s.Sound) (hstep : Step event s t) (hreplaces : (t.clients id).Replaces key)
    (href : (t.clients id').reference = some (key, lock)) : id' = id := by
  have hinside : (s.clients id).Inside := by
    rcases hstep.replaces hreplaces with hold | ⟨hlooking, _⟩
    · exact hold.inside
    · rw [hlooking]
      trivial
  rcases hstep.reference href with hold' | ⟨hlooking', _⟩ | ⟨hmissed', _⟩
  · rcases hstep.replaces hreplaces with hold | ⟨_, hdead⟩
    · exact h.sole id key hold id' lock hold'
    · rcases h.referenced id' key lock hold' with hentry | hcreated'
      · exact absurd ⟨id', key, hold'⟩ (hdead lock hentry)
      · exact h.inside_unique (by rw [hcreated']; trivial) hinside
  · exact h.inside_unique (by rw [hlooking']; trivial) hinside
  · exact h.inside_unique (by rw [hmissed']; trivial) hinside

theorem condemned_step (h : s.Sound) (hstep : Step event s t) {todo : List K}
    (hremoving : t.cleanup = .removing key todo) (hentry : t.table.lookup key = some lock) :
    ¬t.Alive lock := by
  have hrunning : s.cleanup ≠ .idle := by
    rcases hstep.removing hremoving with hold | ⟨_, hrunning, _⟩
    · rw [hold]
      nofun
    · exact hrunning
  have houtside : ∀ other, ¬(s.clients other).Inside :=
    fun other hother => hrunning (h.idle_of_inside hother)
  have hdead : ¬s.Alive lock := by
    rcases hstep.removing hremoving with hold | ⟨hsame, _, lock', hentry', hdead'⟩
    · rcases hstep.table with hsame | ⟨other, _, _, hother, _⟩ | ⟨key', todo', _, hold', herase⟩
      · exact h.condemned key todo lock hold (hsame ▸ hentry)
      · exact absurd (by rw [hother]; trivial) (houtside other)
      · cases hold.symm.trans hold'
        rw [herase, AList.lookup_erase] at hentry
        cases hentry
    · rw [hsame, hentry'] at hentry
      cases hentry
      exact hdead'
  rintro ⟨id, key', href⟩
  rcases hstep.reference href with hold | ⟨hlooking, _⟩ | ⟨hmissed, _⟩
  · exact hdead ⟨id, key', hold⟩
  · exact houtside id (by rw [hlooking]; trivial)
  · exact houtside id (by rw [hmissed]; trivial)

theorem held_step (h : s.Sound) (hstep : Step event s t) (hid : t.clients id = .holding key lock) :
    t.holders lock = some id := by
  have hheld := h.held
  have halive : ∀ {id key lock}, s.clients id = .holding key lock → s.Alive lock :=
    fun hholding => ⟨_, _, congrArg LockClient.reference hholding⟩
  cases hstep with
  | create | acquire | dropGuard => grind
  | _ => grind [setClient]

theorem holds_step (h : s.Sound) (hstep : Step event s t) (hlock : t.holders lock = some id) :
    ∃ key, t.clients id = .holding key lock := by
  have hheld := h.held
  have hholds := h.holds
  cases hstep with
  | create | acquire | dropGuard => grind
  | _ => grind [setClient]

theorem step (h : s.Sound) (hstep : Step event s t) : t.Sound where
  inside _ := h.inside_step hstep
  cleaning := h.cleaning_step hstep
  referenced _ _ _ := h.referenced_step hstep
  sole _ _ hreplaces _ _ := h.sole_step hstep hreplaces
  held _ _ _ := h.held_step hstep
  holds _ _ := h.holds_step hstep
  condemned _ _ _ := h.condemned_step hstep

/-- A table that nobody uses. -/
theorem of_away (hclients : ∀ id, s.clients id = .away) (hholders : ∀ lock, s.holders lock = none)
    (hcleanup : s.cleanup = .idle) : s.Sound where
  inside id hid := by
    rw [hclients] at hid
    exact hid.elim
  cleaning hrunning := absurd hcleanup hrunning
  referenced id key lock hid := by
    rw [hclients] at hid
    cases hid
  sole id key hid := by
    rw [hclients] at hid
    exact hid.elim
  held id key lock hid := by
    rw [hclients] at hid
    cases hid
  holds id lock hlock := by
    rw [hholders] at hlock
    cases hlock
  condemned key todo lock hremoving := by
    rw [hcleanup] at hremoving
    cases hremoving

/-- All references under a key are to one lock. -/
theorem same_lock (h : s.Sound) (hid : (s.clients id).reference = some (key, lock))
    (hid' : (s.clients id').reference = some (key, lock')) : lock = lock' := by
  have hreplaced : ∀ {id id' lock lock'}, s.clients id = .created key lock →
      (s.clients id').reference = some (key, lock') → lock = lock' := by
    intro id id' lock lock' hcreated hother
    obtain rfl := h.sole id key (by rw [hcreated]; rfl) id' lock' hother
    rw [hcreated] at hother
    cases hother
    rfl
  rcases h.referenced id key lock hid with hentry | hcreated
  · rcases h.referenced id' key lock' hid' with hentry' | hcreated'
    · exact Option.some.inj (hentry.symm.trans hentry')
    · exact (hreplaced hcreated' hid).symm
  · exact hreplaced hcreated hid'

/-- One client at most holds a lock under a key. -/
theorem one_holder (h : s.Sound) (hid : s.clients id = .holding key lock)
    (hid' : s.clients id' = .holding key lock') : id = id' := by
  obtain rfl := h.same_lock (congrArg LockClient.reference hid) (congrArg LockClient.reference hid')
  exact Option.some.inj ((h.held id key lock hid).symm.trans (h.held id' key lock hid'))

/-- The cleanup removes a lock that nobody refers to. -/
theorem removed (h : s.Sound) (hstep : Step event s t) (hcleanup : event.OfCleanup)
    (hentry : s.table.lookup key = some lock) (hgone : t.table.lookup key ≠ some lock) :
    ¬s.Alive lock ∧ s.holders lock = none := by
  have hdead : ¬s.Alive lock := by
    cases hstep with
    | @remove _ key' todo hremoving =>
      have hkey : key = key' := by
        by_contra hne
        exact hgone ((AList.lookup_erase_ne hne).trans hentry)
      subst hkey
      exact h.condemned key todo lock hremoving hentry
    | startCleanup | keep | condemn | endCleanup => exact absurd hentry hgone
    | _ => exact hcleanup.elim
  refine ⟨hdead, ?_⟩
  cases hholder : s.holders lock with
  | none => rfl
  | some id =>
    obtain ⟨key', hholding⟩ := h.holds id lock hholder
    exact absurd ⟨id, key', congrArg LockClient.reference hholding⟩ hdead

end Sound

end WeakTable

end Scproxy
