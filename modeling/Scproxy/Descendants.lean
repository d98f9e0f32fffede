import Scproxy.DescendantSearch

namespace Scproxy

open Interaction

namespace CommandTree

section Runs

variable {table : ProcessTable} {pid : Pid} {trace : List TreeEvent}

/-- What the search may do. -/
def Searches (signal : Sending) : TreeOperation → Prop
  | .readDir _ | .readChildren .. => True
  | .kill _ sent => sent = signal
  | _ => False

theorem searches_perform {signal : Sending} {op : TreeOperation} (h : Searches signal op) :
    (Tree.perform op).run.Performs (Searches signal) := ⟨h, fun _ => trivial⟩

theorem searches_readTask (signal : Sending) (task : Except IoError String) :
    (readTask pid task).run.Performs (Searches signal) := by
  cases task with
  | error error => trivial
  | ok task =>
    refine Performs.andThen (searches_perform trivial) fun answer => ?_
    cases answer with
    | error error =>
      dsimp only
      split
      next => trivial
      next => trivial
    | ok text => trivial

theorem searches_readTasks (signal : Sending) (tasks : List (Except IoError String)) :
    (readTasks pid tasks).run.Performs (Searches signal) := by
  induction tasks with
  | nil => trivial
  | cons task tasks ih =>
    refine Performs.andThen (searches_readTask signal task) fun _ => ?_
    exact Performs.andThen ih fun _ => trivial

theorem searches_readProcess (signal : Sending) :
    (readProcess pid).run.Performs (Searches signal) := by
  refine Performs.andThen (searches_perform trivial) fun answer => ?_
  cases answer with
  | error error =>
    dsimp only
    split
    next => trivial
    next => trivial
  | ok tasks => exact searches_readTasks signal tasks

theorem searches_explore (signal : Sending) {root : Pid} (s : StackSearch root) :
    (explore s).run.Performs (Searches signal) := by
  fun_induction explore s with
  | case1 s hpending => trivial
  | case2 s pid rest hpending ih => exact Performs.andThen (searches_readProcess signal) ih

theorem searches_forwardAll (signal : Sending) (pids : List Pid) :
    (forwardAll signal pids).run.Performs (Searches signal) := by
  induction pids with
  | nil => trivial
  | cons pid pids ih =>
    refine Performs.andThen ?_ fun _ => ih
    refine Performs.andThen (searches_perform rfl) fun answer => ?_
    split
    next => trivial
    next => trivial

theorem searches_signalDescendants (root : Pid) (signal : Sending) :
    (signalDescendants root signal).run.Performs (Searches signal) :=
  Performs.andThen (searches_explore signal _) fun _ => searches_forwardAll signal _

theorem nonempty_of_searches {signal : Sending} {op : TreeOperation} (h : Searches signal op) :
    Nonempty op.Ret := by
  cases op with
  | readDir pid => exact ⟨.ok []⟩
  | readChildren pid task => exact ⟨.ok ""⟩
  | kill pid sent => exact ⟨.ok ()⟩
  | waitpid | now | sigtimedwait timeout | pending => exact h.elim

/-- Every question of the search has an answer. -/
theorem exists_shows (table : ProcessTable) {signal : Sending} {op : TreeOperation}
    (h : Searches signal op) : ∃ answer, Shows table ⟨op, answer⟩ := by
  cases op with
  | readDir pid =>
    cases htasks : table.tasks pid with
    | none => exact ⟨.error (.os Errno.enoent), by simp [Shows, htasks]⟩
    | some tasks => exact ⟨.ok (tasks.map .ok), by simp [Shows, htasks]⟩
  | readChildren pid task =>
    cases hpids : table.children pid task with
    | none => exact ⟨.error (.os Errno.enoent), by simp [Shows, hpids]⟩
    | some pids => exact ⟨.ok (childrenText pids), by simp [Shows, hpids]⟩
  | kill pid sent => exact ⟨.ok (), Or.inl rfl⟩
  | waitpid | now | sigtimedwait timeout | pending => exact h.elim

end Runs

section Order

variable {table : ProcessTable} {root parent child : Pid} {trace : List TreeEvent}
  {t : StackSearch root}

theorem Explored.discovers (h : Explored table (listings trace) t)
    (hdiscovers : Discovers trace parent child) :
    table.Child parent child ∧ (parent = root ∨ parent ∈ listed (listings trace)) := by
  obtain ⟨before, pids, after, heq, hchild, _⟩ := hdiscovers
  refine ⟨h.child (parent, pids) (by simp [heq]) child hchild, ?_⟩
  rw [heq, listed_append]
  exact (h.source before (parent, pids) after heq).imp_right (List.mem_append_left _)

theorem exists_discovers (h : child ∈ listed (listings trace)) :
    ∃ parent, Discovers trace parent child := by
  have hfirst : ∀ entries : List (Pid × List Pid), child ∈ listed entries →
      ∃ before entry after, entries = before ++ entry :: after ∧ child ∈ entry.2 ∧
        child ∉ listed before := by
    intro entries hmem
    induction entries with
    | nil => simp [listed] at hmem
    | cons entry entries ih =>
      by_cases hentry : child ∈ entry.2
      · exact ⟨[], entry, entries, rfl, hentry, by simp [listed]⟩
      · have hlater : child ∈ listed entries := by
          have happend : child ∈ entry.2 ++ listed entries := hmem
          rcases List.mem_append.mp happend with hmem | hmem
          · exact absurd hmem hentry
          · exact hmem
        obtain ⟨before, other, after, rfl, hother, hnew⟩ := ih hlater
        refine ⟨entry :: before, other, after, rfl, hother, fun hold => ?_⟩
        rcases List.mem_append.mp (show child ∈ entry.2 ++ listed before from hold) with hold | hold
        · exact hentry hold
        · exact hnew hold
  obtain ⟨before, entry, after, heq, hchild, hnew⟩ := hfirst _ h
  exact ⟨entry.1, before, entry.2, after, heq, hchild, hnew⟩

/-- A process stands before the one through which it was found. -/
theorem Explored.precedes (h : Explored table (listings trace) t)
    (hdiscovers : Discovers trace parent child) (hparent : parent ≠ root) (hchild : child ≠ root) :
    Precedes (StackSearch.order root (listed (listings trace))) child parent := by
  obtain ⟨before, pids, after, heq, hmem, hnew⟩ := hdiscovers
  have hsource := (h.source before (parent, pids) after heq).resolve_left hparent
  rw [heq, listed_append]
  exact StackSearch.precedes_order (List.mem_append_left _ hmem) hnew hchild hsource hparent

theorem Explored.mem_order (h : Explored table (listings trace) t) (hempty : t.pending = [])
    (pid : Pid) : pid ∈ StackSearch.order root (listed (listings trace)) ↔
      Relation.TransGen table.Child root pid ∧ pid ≠ root := by
  refine StackSearch.mem_order_iff_reachable h.reachable fun a ha b hab => ?_
  exact h.closed a (h.mem_seen.mpr ha) (by simp [hempty]) b hab

/-- In a tree a process is found through its parent. -/
theorem Explored.precedes_parent (h : Explored table (listings trace) t) (hempty : t.pending = [])
    (htree : table.IsTree root) (hreach : Relation.TransGen table.Child root parent)
    (hparent : parent ≠ root) (hchild : table.Child parent child) :
    Precedes (StackSearch.order root (listed (listings trace))) child parent := by
  have hnotRoot : child ≠ root := fun heq => htree.1 parent hreach.to_reflTransGen (heq ▸ hchild)
  have hfound := (h.mem_order hempty child).mpr ⟨hreach.tail hchild, hnotRoot⟩
  obtain ⟨other, hdiscovers⟩ := exists_discovers (StackSearch.mem_order.mp hfound).1
  obtain ⟨hother, hsource⟩ := h.discovers hdiscovers
  have hotherReach : Relation.ReflTransGen table.Child root other := by
    rcases hsource with rfl | hmem
    · exact .refl
    · exact (h.reachable other hmem).to_reflTransGen
  have heq : other = parent :=
    htree.2 other parent child hotherReach hreach.to_reflTransGen hother hchild
  exact h.precedes (heq ▸ hdiscovers) hparent hnotRoot

/-- In a tree every descendant stands before all of its ancestors. -/
theorem Explored.precedes_ancestor {ancestor descendant : Pid}
    (h : Explored table (listings trace) t) (hempty : t.pending = [])
    (htree : table.IsTree root) (hreach : Relation.TransGen table.Child root ancestor)
    (hancestor : ancestor ≠ root) (hbelow : Relation.TransGen table.Child ancestor descendant) :
    Precedes (StackSearch.order root (listed (listings trace))) descendant ancestor := by
  induction hbelow with
  | single hchild => exact h.precedes_parent hempty htree hreach hancestor hchild
  | @tail middle last hmiddle hchild ih =>
    have hmiddleReach := hreach.trans hmiddle
    have hnotRoot : middle ≠ root := by
      rintro rfl
      obtain ⟨above, habove, hlast⟩ := Relation.TransGen.tail'_iff.mp hmiddleReach
      exact htree.1 above habove hlast
    exact (h.precedes_parent hempty htree hmiddleReach hnotRoot hchild).trans
      (StackSearch.nodup_order _) ih

end Order

theorem signalDescendants_children_first (table : ProcessTable) (root : Pid) (signal : Sending) :
    (∀ trace, ¬Halts (signalDescendants root signal).run trace) ∧
    (∃ trace result, Runs (signalDescendants root signal).run trace result ∧
      ∀ event ∈ trace, Shows table event) ∧
    ∀ trace result, Runs (signalDescendants root signal).run trace result →
      (∀ event ∈ trace, Shows table event) →
      result = .ok () ∧
      (∀ event ∈ trace, ∀ pid sent, event.op = .kill pid sent → sent = signal) ∧
      (killed trace).Nodup ∧
      (∀ pid, pid ∈ killed trace ↔ Relation.TransGen table.Child root pid ∧ pid ≠ root) ∧
      (∀ child ∈ killed trace, ∃ parent, Discovers trace parent child) ∧
      (∀ parent child, Discovers trace parent child → table.Child parent child ∧
        (parent ≠ root → child ≠ root → Precedes (killed trace) child parent)) ∧
      (table.IsTree root → ∀ ancestor descendant, Relation.TransGen table.Child root ancestor →
        Relation.TransGen table.Child ancestor descendant → ancestor ≠ root →
        Precedes (killed trace) descendant ancestor) := by
  have hsearches := searches_signalDescendants root signal
  refine ⟨fun trace => Performs.not_halts (hsearches.mono fun _ => nonempty_of_searches),
    hsearches.exists_runs fun op => exists_shows table, ?_⟩
  intro trace result hrun hshows
  obtain ⟨hresult, hkilled, t, hempty, ht⟩ := runs_signalDescendants hrun hshows
  rw [hkilled]
  refine ⟨hresult, ?_, StackSearch.nodup_order _, ht.mem_order hempty, ?_, ?_, ?_⟩
  · intro event hevent pid sent hop
    have hallowed := hsearches.runs hrun event hevent
    rwa [hop] at hallowed
  · intro child hchild
    exact exists_discovers (StackSearch.mem_order.mp hchild).1
  · intro parent child hdiscovers
    exact ⟨(ht.discovers hdiscovers).1, ht.precedes hdiscovers⟩
  · intro htree ancestor descendant hreach hbelow hancestor
    exact ht.precedes_ancestor hempty htree hreach hancestor hbelow

end CommandTree

end Scproxy
