import CorpusAgent.Proofs.Filter.Logged
import CorpusAgent.Proofs.Lists

/-!
# The work of reading a filter

However wide or deep a tree is, its reading visits at most one node and one level more than the
limits allow.

* `Visits.of`: the counters of some nodes.  `Visits.start_after`: these are the counters after the
  visits of these nodes.
* `Seen`: the nodes that the reading of a tree visits.  `Seen.within_or_last`: each visit starts
  within the limits, and after one at a node that is wrong there is no other.
* `parse_bounded`: what the visits of a reading are, from the first to the last.
-/

namespace CorpusAgent.Filter

/-! ### Counters -/

/-- How many nodes there are, and the deepest level among them. -/
def Visits.of (ns : List Node) : Visits := ⟨ns.length, (ns.map Node.level).foldl max 0⟩

/-- What is reported about counters beyond a limit. -/
def Visits.excess (s : Visits) : FilterFault :=
  if maxNodes < s.nodes then .tooManyNodes s.nodes maxNodes else .tooDeep s.deepest maxDepth

section

variable {s : Visits} {ns : List Node} {front rest : List Visit} {x : Visit}

theorem Visits.after_eq :
    s.after ns = ⟨s.nodes + ns.length, (ns.map Node.level).foldl max s.deepest⟩ := by
  induction ns generalizing s with
  | nil => rfl
  | cons n ns ih =>
    change (s.count n).after ns = _
    rw [ih, count, List.length_cons, Nat.add_comm ns.length, ← Nat.add_assoc]
    rfl

theorem Visits.start_after : Visits.start.after ns = .of ns := by
  rw [after_eq, start, Nat.zero_add, of]

/-- Each visit finds the counters as those before it have left them. -/
theorem entries_split (h : s.entries ns = front ++ x :: rest) :
    x.before = s.after (front.map Visit.node) ∧ x.after = x.before.count x.node := by
  induction front generalizing s ns with
  | nil =>
    cases ns with
    | nil => cases h
    | cons n ns =>
      obtain ⟨rfl, -⟩ := List.cons.inj h
      exact ⟨rfl, rfl⟩
  | cons y front ih =>
    cases ns with
    | nil => cases h
    | cons n ns =>
      obtain ⟨rfl, hrest⟩ := List.cons.inj h
      exact ih hrest

theorem node_mem_of_mem_entries (hx : x ∈ s.entries ns) : x.node ∈ ns := by
  rw [← s.map_node_entries ns]
  exact List.mem_map_of_mem hx

theorem within_of_mem_entries (h : (s.after ns).Within) (hx : x ∈ s.entries ns) :
    x.after.Within := by
  obtain ⟨front, rest, hsplit⟩ := List.append_of_mem hx
  obtain ⟨hbefore, hafter⟩ := entries_split hsplit
  have hnodes : ns = front.map Visit.node ++ x.node :: rest.map Visit.node := by
    rw [← List.map_cons, ← List.map_append, ← hsplit, Visits.map_node_entries]
  rw [hnodes, Visits.after_append, ← hbefore] at h
  have hrest : ((x.before.count x.node).after (rest.map Visit.node)).Within := h
  rw [hafter]
  exact hrest.of_after

theorem Violates.eq_excess {n : Node} {inner : FilterPath} {w : Json} {fault : FilterFault}
    (h : Violates s n inner w fault) (hs : s.Within) (hbeyond : ¬(s.count n).Within) :
    inner = [] ∧ fault = (s.count n).excess := by
  cases h with
  | count h =>
    have hnodes : (s.count n).nodes = maxNodes + 1 := congrArg (· + 1) h
    rw [Visits.excess, hnodes, if_pos (Nat.lt_succ_self maxNodes)]
    exact ⟨rfl, rfl⟩
  | depth hcount h =>
    have hnodes : ¬maxNodes < (s.count n).nodes := Nat.not_lt.mpr hcount
    have hdeepest : (s.count n).deepest = maxDepth + 1 := by
      rw [Visits.count, h]
      exact Nat.max_eq_right (Nat.le_succ_of_le hs.2)
    rw [Visits.excess, if_neg hnodes, hdeepest]
    exact ⟨rfl, rfl⟩
  | own hwithin => exact absurd hwithin hbeyond

end

/-! ### The visits of a reading -/

/-- The reading of a tree with its log. -/
def readLogged (v : Json) : Except FilterError Filter × Log :=
  (Node.root v).read.run.run ⟨.start, []⟩

theorem readLogged_eq (v : Json) :
    ((readLogged v).1, (readLogged v).2.counters) = parseCounting v :=
  (read_erases (n := Node.root v) rfl ⟨.start, []⟩).symm

/-- The nodes that the reading of a tree visits. -/
structure Seen (v : Json) (seen : List Node) : Prop where
  inOrder : seen <+: (Node.root v).nodes
  all : ∀ f, parse v = .ok f → seen = (Node.root v).nodes
  level_le : ∀ n ∈ seen, n.level ≤ maxDepth + 1
  counters : (parseCounting v).2 = .of seen
  visits : (readLogged v).2.visits = Visits.start.entries seen

theorem exists_seen (v : Json) : ∃ seen, Seen v seen := by
  obtain ⟨seen, hseen, hok, hlevel, hlog⟩ :=
    read_logs (Node.root v) (Nat.le_add_left 1 maxDepth) ⟨.start, []⟩
  have hlog : (readLogged v).2 = ⟨Visits.start.after seen, Visits.start.entries seen⟩ := hlog
  refine ⟨seen, hseen, fun f hparse => hok f ?_, hlevel, ?_, congrArg Log.visits hlog⟩
  · rw [parse, ← readLogged_eq] at hparse
    exact hparse
  · rw [← readLogged_eq, hlog, Visits.start_after]

namespace Seen

variable {v : Json} {seen : List Node} {front rest : List Visit} {x : Visit}

theorem passes {f : Filter} (h : Seen v seen) (hparse : parse v = .ok f) :
    (readLogged v).2.visits.map Visit.node = (Node.root v).nodes ∧
      ∀ x ∈ (readLogged v).2.visits, x.after.Within ∧ Sound x.node.value := by
  have hpass := parse_passes hparse
  have hwithin := hpass.within visits_start_within
  rw [hpass.eq_after] at hwithin
  rw [h.visits, h.all f hparse, Visits.map_node_entries]
  refine ⟨rfl, fun x hx => ⟨within_of_mem_entries hwithin hx, ?_⟩⟩
  exact hpass.sound _ (node_mem_of_mem_entries hx)

theorem stops {e : FilterError} (h : Seen v seen) (hparse : parse v = .error e) :
    ∃ front x inner w, (readLogged v).2.visits = front ++ [x] ∧
      (∀ y ∈ front, y.after.Within ∧ Sound y.node.value) ∧ x.before.Within ∧
        e.path = x.node.place ++ inner ∧ Violates x.before x.node inner w e.fault := by
  obtain ⟨before, n, after, inner, w, hsplit, hsound, hwithin, hpath, hviolates, hlast⟩ :=
    (parse_stops hparse).split visits_start_within
  -- the counters at the end tell how many nodes have been visited, so these are the first ones
  obtain rfl : seen = before ++ [n] := by
    have hlength : seen.length = (before ++ [n]).length := by
      have hcounters := h.counters
      rw [hlast, Visits.start_after] at hcounters
      rw [List.length_append]
      exact (congrArg Visits.nodes hcounters).symm
    have hfirst : before ++ [n] <+: (Node.root v).nodes := by
      rw [hsplit]
      exact (List.prefix_append_right_inj before).mpr ⟨after, rfl⟩
    exact (List.prefix_of_prefix_length_le h.inOrder hfirst (Nat.le_of_eq hlength)).eq_of_length
      hlength
  have hvisits := h.visits
  rw [Visits.entries_append] at hvisits
  refine ⟨_, _, inner, w, hvisits, fun y hy => ⟨within_of_mem_entries hwithin hy, ?_⟩, hwithin,
    hpath, hviolates⟩
  exact hsound _ (node_mem_of_mem_entries hy)

theorem of_split (h : Seen v seen) (hsplit : (readLogged v).2.visits = front ++ x :: rest) :
    x.before = .of (front.map Visit.node) ∧ x.after = x.before.count x.node := by
  rw [← Visits.start_after]
  exact entries_split (h.visits.symm.trans hsplit)

/-- A visit starts within the limits.  It also ends within them, or it is the last one and the error
is about its node. -/
theorem within_or_last (h : Seen v seen)
    (hsplit : (readLogged v).2.visits = front ++ x :: rest) :
    x.before.Within ∧ (x.after.Within ∨ rest = [] ∧ ∃ e inner w, parse v = .error e ∧
      e.path = x.node.place ++ inner ∧ Violates x.before x.node inner w e.fault) := by
  have hafter := (h.of_split hsplit).2
  have hbefore (hwithin : x.after.Within) : x.before.Within := (hafter ▸ hwithin).of_count
  cases hparse : parse v with
  | ok f =>
    have hx : x ∈ (readLogged v).2.visits := by
      rw [hsplit]
      exact List.mem_append_right front List.mem_cons_self
    have hwithin := ((h.passes hparse).2 x hx).1
    exact ⟨hbefore hwithin, .inl hwithin⟩
  | error e =>
    obtain ⟨others, y, inner, w, hlast, hothers, hwithin, hpath, hviolates⟩ := h.stops hparse
    rcases eq_or_mem_of_append_eq_concat (hsplit.symm.trans hlast) with ⟨rfl, rfl⟩ | hmem
    · exact ⟨hwithin, .inr ⟨rfl, e, inner, w, rfl, hpath, hviolates⟩⟩
    · exact ⟨hbefore (hothers x hmem).1, .inl (hothers x hmem).1⟩

theorem length_le (h : Seen v seen) : (readLogged v).2.visits.length ≤ maxNodes + 1 := by
  rcases (readLogged v).2.visits.eq_nil_or_concat' with hnil | ⟨front, x, hsplit⟩
  · rw [hnil]
    exact Nat.zero_le _
  · have hnodes := (h.within_or_last hsplit).1.1
    rw [(h.of_split hsplit).1, Visits.of, List.length_map] at hnodes
    rw [hsplit, List.length_append]
    exact Nat.add_le_add_right hnodes 1

theorem counters_le (h : Seen v seen) (hx : x ∈ (readLogged v).2.visits) :
    x.after.nodes ≤ maxNodes + 1 ∧ x.after.deepest ≤ maxDepth + 1 := by
  obtain ⟨front, rest, hsplit⟩ := List.append_of_mem hx
  obtain ⟨hnodes, hdeepest⟩ := (h.within_or_last hsplit).1
  have hlevel := h.level_le _ (node_mem_of_mem_entries (h.visits ▸ hx))
  rw [(h.of_split hsplit).2]
  exact ⟨Nat.add_le_add_right hnodes 1, Nat.max_le.mpr ⟨Nat.le_succ_of_le hdeepest, hlevel⟩⟩

theorem error_of_beyond (h : Seen v seen)
    (hsplit : (readLogged v).2.visits = front ++ x :: rest) (hbeyond : ¬x.after.Within) :
    rest = [] ∧ parse v = .error ⟨x.node.place, x.after.excess⟩ := by
  have hafter := (h.of_split hsplit).2
  obtain ⟨hwithin, hx⟩ := h.within_or_last hsplit
  obtain ⟨rfl, ⟨path, fault⟩, inner, w, hparse, hpath, hviolates⟩ := hx.resolve_left hbeyond
  rw [hafter] at hbeyond ⊢
  obtain ⟨rfl, hfault⟩ := hviolates.eq_excess hwithin hbeyond
  refine ⟨rfl, hparse.trans ?_⟩
  rw [← hfault, ← List.append_nil x.node.place, ← hpath]

end Seen

/-- What the visits of the reading of a tree are. -/
structure Bounded (v : Json) (visits : List Visit) : Prop where
  /-- They are visits of the first nodes in document order. -/
  inOrder : visits.map Visit.node <+: (Node.root v).nodes
  length_le : visits.length ≤ maxNodes + 1
  level_le : ∀ x ∈ visits, x.node.level ≤ maxDepth + 1
  /-- Before and after each visit the counters are those of the nodes visited so far. -/
  counters : ∀ front x rest, visits = front ++ x :: rest →
    x.before = .of (front.map Visit.node) ∧ x.after = .of ((front ++ [x]).map Visit.node)
  counters_le : ∀ x ∈ visits, x.after.nodes ≤ maxNodes + 1 ∧ x.after.deepest ≤ maxDepth + 1
  /-- A visit beyond a limit is the last one, and the error is about its node. -/
  beyond : ∀ front x rest, visits = front ++ x :: rest → ¬x.after.Within →
    rest = [] ∧ parse v = .error ⟨x.node.place, x.after.excess⟩
  /-- If a filter is read, all nodes are visited and nothing is wrong with any. -/
  passes : ∀ f, parse v = .ok f → visits.map Visit.node = (Node.root v).nodes ∧
    ∀ x ∈ visits, x.after.Within ∧ Sound x.node.value
  /-- Else the first node that is wrong is the last one that is visited, and the error is about
  it. -/
  stops : ∀ e, parse v = .error e → ∃ front x inner w, visits = front ++ [x] ∧
    (∀ y ∈ front, y.after.Within ∧ Sound y.node.value) ∧ x.before.Within ∧
      e.path = x.node.place ++ inner ∧ Violates x.before x.node inner w e.fault

/-- Whatever the tree, the reading that goes by the tree alone and logs its visits is the one
without a log, and its visits are bounded by the limits. -/
theorem parse_bounded (v : Json) :
    ((readLogged v).1, (readLogged v).2.counters) = parseCounting v ∧
      (parseCounting v).2 = .of ((readLogged v).2.visits.map Visit.node) ∧
        Bounded v (readLogged v).2.visits := by
  obtain ⟨seen, h⟩ := exists_seen v
  have hnodes : (readLogged v).2.visits.map Visit.node = seen := by
    rw [h.visits, Visits.map_node_entries]
  refine ⟨readLogged_eq v, hnodes ▸ h.counters, ?_⟩
  exact {
    inOrder := hnodes ▸ h.inOrder
    length_le := h.length_le
    level_le := fun x hx => h.level_le _ (node_mem_of_mem_entries (h.visits ▸ hx))
    counters := fun front x rest hsplit => by
      obtain ⟨hbefore, hafter⟩ := h.of_split hsplit
      refine ⟨hbefore, ?_⟩
      rw [hafter, hbefore, List.map_append, ← Visits.start_after, ← Visits.start_after,
        Visits.after_append]
      rfl
    counters_le := fun x hx => h.counters_le hx
    beyond := fun front x rest hsplit hbeyond => h.error_of_beyond hsplit hbeyond
    passes := fun f hparse => h.passes hparse
    stops := fun e hparse => h.stops hparse }

/-- A tree of a thousand levels. -/
example : (parseCounting (Nat.repeat (fun v => .list [v]) 1000 .null)).2 =
    ⟨maxDepth + 1, maxDepth + 1⟩ := by rfl

/-- A tree of a thousand nodes on one level. -/
example : (parseCounting (.list (List.replicate 1000 (.list [])))).2 = ⟨maxNodes + 1, 2⟩ := by
  decide +kernel

end CorpusAgent.Filter
