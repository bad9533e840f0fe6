import CorpusAgent.Proofs.Filter.Traversal

/-!
# Readings that log their visits

A tree can be read on however many levels it has, by recursion on the tree alone, and each visit can
be logged with the counters before and after it.

* `Node.read`: such a reading of a node and all below it.
* `Erases`: a reading that is another one without the log.  `read_erases`: `Node.read` without the
  log is `parseNode`, so the levels left are never what ends a reading.
* `Logs`: a reading that logs visits of certain nodes.  `read_logs`: `Node.read` visits nodes in
  document order and none beyond the level after the last one allowed, since it goes on to the parts
  of a node only after its visit.
-/

namespace CorpusAgent.Filter

/-! ### Logs -/

/-- A visit of a node, with the counters before and after it. -/
structure Visit where
  node : Node
  before : Visits
  after : Visits

/-- The counters, and the visits so far in their order. -/
structure Log where
  counters : Visits
  visits : List Visit

/-- A reading that keeps a log, also when it fails. -/
abbrev Logged := ExceptT FilterError (StateM Log)

/-- Visits a node and logs what the visit has made of the counters. -/
def Node.logVisit (n : Node) : Logged Unit := fun log =>
  let visited := (visit n.place n.level).run.run log.counters
  (visited.1, ⟨visited.2, log.visits ++ [⟨n, log.counters, visited.2⟩]⟩)

/-- What `and` and `or` make of their parts. -/
def groupForm (place : FilterPath) (make : List Filter → Filter) :
    Json → Except FilterError (List Filter → Filter)
  | .list _ => pure make
  | _ => throw ⟨place, .argsNotList⟩

/-- What `not` makes of its only part. -/
def notForm (place : FilterPath) : Json → Except FilterError (List Filter → Filter)
  | .list [_] => pure fun parts => .not (parts.headD default)
  | .list _ => throw ⟨place, .notArity⟩
  | _ => pure fun parts => .not (parts.headD default)

/-- What a node makes of its parts, unless something is wrong with it by itself. -/
def Node.form (n : Node) : Except FilterError (List Filter → Filter) :=
  match n.value with
  | .list _ => pure .all
  | .object members =>
    match groupOf? members with
    | some (group, raw) =>
      if members.length ≠ 1 then throw ⟨n.place, .extraKeys group⟩
      else if group = "and" then groupForm (n.place.member group) .all raw
      else if group = "or" then groupForm (n.place.member group) .any raw
      else notForm (n.place.member group) raw
    | none => (fun leaf _ => leaf) <$> parseLeaf n.place members
  | _ => throw ⟨n.place, .noNode⟩

/-- Reads a node and all below it, on however many levels. -/
def Node.read (n : Node) : Logged Filter := do
  n.logVisit
  let form ← liftM n.form
  let parts ← (partsOf n.value).attach.mapM fun p => (n.part p.1).read
  pure (form parts)
termination_by sizeOf n.value
decreasing_by exact sizeOf_lt_of_mem_partsOf p.2

/-- The reading of a node that has been visited. -/
def Node.readVisited (n : Node) : Logged Filter := do
  let form ← liftM n.form
  let parts ← (partsOf n.value).mapM fun p => (n.part p).read
  pure (form parts)

theorem Node.read_eq (n : Node) : n.read = n.logVisit >>= fun _ => n.readVisited := by
  rw [read, List.mapM_subtype (g := fun p => (n.part p).read) fun _ _ => rfl, List.unattach_attach]
  rfl

/-- The visits of some nodes one after the other. -/
def Visits.entries (s : Visits) : List Node → List Visit
  | [] => []
  | n :: ns => ⟨n, s, s.count n⟩ :: (s.count n).entries ns

/-- The log after the visits of some nodes. -/
def Log.after (log : Log) (ns : List Node) : Log :=
  ⟨log.counters.after ns, log.visits ++ log.counters.entries ns⟩

section

variable (s : Visits) (ns ms : List Node)

theorem Visits.after_append : s.after (ns ++ ms) = (s.after ns).after ms := List.foldl_append

theorem Visits.entries_append :
    s.entries (ns ++ ms) = s.entries ns ++ (s.after ns).entries ms := by
  induction ns generalizing s with
  | nil => rfl
  | cons n ns ih => exact congrArg (_ :: ·) (ih _)

theorem Visits.map_node_entries : (s.entries ns).map Visit.node = ns := by
  induction ns generalizing s with
  | nil => rfl
  | cons n ns ih => exact congrArg (n :: ·) (ih _)

theorem Log.after_append (log : Log) : log.after (ns ++ ms) = (log.after ns).after ms := by
  simp only [after, Visits.after_append, Visits.entries_append, List.append_assoc]

end

section

variable {α β : Type}

/-- A result that a reading can have. -/
def Gives (x : Logged α) (a : α) : Prop := ∃ log, (x.run.run log).1 = .ok a

/-- A visit counts its node and is logged, also when it fails. -/
theorem run_logVisit (n : Node) (log : Log) : n.logVisit.run.run log =
    (((visit n.place n.level).run.run log.counters).1, log.after [n]) := by
  have hcount : ((visit n.place n.level).run.run log.counters).2 = log.counters.count n := by
    rw [run_visit]
    split_ifs <;> rfl
  rw [show n.logVisit.run.run log = n.logVisit log from rfl, Node.logVisit, hcount]
  rfl

/-- The visit of a node that is too deep fails. -/
theorem level_le_of_gives {n : Node} {u : Unit} (h : Gives n.logVisit u) : n.level ≤ maxDepth := by
  obtain ⟨log, hrun⟩ := h
  rw [run_logVisit] at hrun
  obtain ⟨hcount, hwithin⟩ := run_visit_ok_iff.mp (Prod.ext hrun rfl)
  rw [hcount] at hwithin
  exact Nat.le_trans (Nat.le_max_right _ _) hwithin.2

/-! ### Without the log -/

/-- Without its log the one reading is the other. -/
def Erases (x : Logged α) (y : Parse α) : Prop :=
  ∀ log, y.run.run log.counters = ((x.run.run log).1, (x.run.run log).2.counters)

namespace Erases

variable {x : Logged α} {y : Parse α}

theorem pure (a : α) : Erases (Pure.pure a) (Pure.pure a) := fun _ => rfl

theorem bind {k : α → Logged β} {l : α → Parse β} (hx : Erases x y)
    (hk : ∀ a, Gives x a → Erases (k a) (l a)) : Erases (x >>= k) (y >>= l) := by
  intro log
  rw [run_bind, run_bind, hx log]
  rcases hrun : x.run.run log with ⟨e | a, now⟩
  · rfl
  · exact hk a ⟨log, by rw [hrun]⟩ now

theorem map {f : α → β} (h : Erases x y) : Erases (f <$> x) (f <$> y) := by
  rw [map_eq_pure_bind, map_eq_pure_bind]
  exact h.bind fun a _ => .pure (f a)

/-- What comes after the visit of a node matters only if the node is not too deep. -/
theorem visit {n : Node} (h : n.level ≤ maxDepth → Erases x y) :
    Erases (n.logVisit >>= fun _ => x) (Filter.visit n.place n.level >>= fun _ => y) := by
  have hvisit : Erases n.logVisit (Filter.visit n.place n.level) := fun _ => rfl
  exact hvisit.bind fun u hu => h (level_le_of_gives hu)

end Erases

variable {n : Node} {levels : Nat} {node : FilterPath → Json → Parse Filter}

theorem readVisited_erases_of_ok {form : List Filter → Filter} {y : Parse (List Filter)}
    (hform : n.form = .ok form)
    (hparts : Erases ((partsOf n.value).mapM fun p => (n.part p).read) y) :
    Erases n.readVisited (form <$> y) := by
  rw [Node.readVisited, hform, map_eq_pure_bind]
  exact hparts.bind fun parts _ => .pure (form parts)

theorem readVisited_erases_of_error {place : FilterPath} {fault : FilterFault}
    (hform : n.form = .error ⟨place, fault⟩) : Erases n.readVisited (fail place fault) := by
  rw [Node.readVisited, hform]
  exact fun _ => rfl

/-- The items of a group are read one after the other. -/
theorem parseItems_erases {front place : FilterPath} (hplace : place = n.place ++ front)
    (hnode : ∀ p, Erases (n.part p).read (node (n.place ++ p.mark) p.value)) (start : Nat)
    (items : List Json) :
    Erases ((numbered front start items).mapM fun p => (n.part p).read)
      (parseItems node place start items) := by
  induction items generalizing start with
  | nil => exact .pure []
  | cons v rest ih =>
    have hfirst := hnode ⟨front ++ [.index start], front ++ [.index start], v⟩
    rw [← List.append_assoc, ← hplace] at hfirst
    rw [numbered, List.zipIdx_cons, List.map_cons, ← numbered, List.mapM_cons]
    exact hfirst.bind fun part _ => (ih (start + 1)).bind fun parts _ => .pure (part :: parts)

theorem parseGroup_erases {group : String} {raw : Json} {make : List Filter → Filter}
    (hform : n.form = groupForm (n.place.member group) make raw)
    (hparts : partsOf n.value = numbered [.name group] 0 (raw.list?.getD []))
    (hnode : ∀ p, Erases (n.part p).read (node (n.place ++ p.mark) p.value)) :
    Erases n.readVisited (make <$> parseGroup node (n.place.member group) raw) := by
  cases raw with
  | list items =>
    refine readVisited_erases_of_ok hform ?_
    rw [hparts]
    exact parseItems_erases rfl hnode 0 items
  | _ => exact readVisited_erases_of_error hform

theorem parseNot_erases {raw : Json} (hform : n.form = notForm (n.place.member "not") raw)
    (hparts : partsOf n.value = partsOfNot raw)
    (hnode : ∀ p, Erases (n.part p).read (node (n.place ++ p.mark) p.value)) :
    Erases n.readVisited (.not <$> parseNot node (n.place.member "not") raw) := by
  have honly {steps : FilterPath} {item : Json}
      (hform : n.form = .ok fun parts => .not (parts.headD default))
      (hparts : partsOf n.value = [⟨steps, [.name "not"], item⟩]) :
      Erases n.readVisited (.not <$> node (n.place.member "not") item) := by
    have hpart := hnode ⟨steps, [.name "not"], item⟩
    have hlist : Erases ((partsOf n.value).mapM fun p => (n.part p).read)
        ((fun part => [part]) <$> node (n.place.member "not") item) := by
      rw [hparts, List.mapM_cons, map_eq_pure_bind]
      exact hpart.bind fun part _ => .pure [part]
    have hread := readVisited_erases_of_ok hform hlist
    rwa [Functor.map_map] at hread
  cases raw with
  | list items =>
    rcases items with _ | ⟨item, _ | ⟨second, rest⟩⟩
    · exact readVisited_erases_of_error hform
    · exact honly hform hparts
    · exact readVisited_erases_of_error hform
  | _ => exact honly hform hparts

theorem parseObject_erases {members : List (String × Json)} (hvalue : n.value = .object members)
    (hnode : ∀ p, Erases (n.part p).read (node (n.place ++ p.mark) p.value)) :
    Erases n.readVisited (parseObject node n.place members) := by
  have hform := Node.form.eq_def n
  have hparts := congrArg partsOf hvalue
  rw [hvalue] at hform
  rw [partsOf] at hparts
  unfold parseObject
  cases hgroup : groupOf? members with
  | none =>
    simp only [hgroup] at hform hparts
    cases hleaf : parseLeaf n.place members with
    | error e =>
      rw [hleaf] at hform
      exact readVisited_erases_of_error hform
    | ok e =>
      rw [hleaf] at hform
      have hnil : Erases ((partsOf n.value).mapM fun p => (n.part p).read) (pure []) := by
        rw [hparts]
        exact .pure []
      exact readVisited_erases_of_ok hform hnil
  | some found =>
    obtain ⟨group, raw⟩ := found
    simp only [hgroup] at hform hparts
    by_cases hlength : members.length = 1
    · have hgroups : group = "and" ∨ group = "or" ∨ group = "not" := by
        simpa [groups] using (mem_of_groupOf?_eq_some hgroup).1
      simp only [hlength] at hform ⊢
      rcases hgroups with rfl | rfl | rfl
      · exact parseGroup_erases hform hparts hnode
      · exact parseGroup_erases hform hparts hnode
      · exact parseNot_erases hform hparts hnode
    · simp only [ne_eq, hlength, not_false_eq_true, if_true] at hform ⊢
      exact readVisited_erases_of_error hform

/-- Without its log, the reading on however many levels is the one on the levels that are left. -/
theorem read_erases (hlevel : levels + n.level = maxDepth + 1) :
    Erases n.read (parseNode levels n.place n.value) := by
  induction levels generalizing n with
  | zero =>
    -- without a level left both only visit the node, and the visit fails
    rw [Nat.zero_add] at hlevel
    rw [Node.read_eq, parseNode, ← hlevel]
    exact .visit fun h => absurd h (by omega)
  | succ levels ih =>
    obtain ⟨place, steps, level, v⟩ := n
    obtain rfl : level = maxDepth - levels := by simp only at hlevel; omega
    set n : Node := ⟨place, steps, maxDepth - levels, v⟩
    have hnode (p : Part) :
        Erases (n.part p).read (parseNode levels (n.place ++ p.mark) p.value) :=
      ih (n := n.part p) (by simp only [Node.part, n] at hlevel ⊢; omega)
    rw [Node.read_eq]
    refine .visit (n := n) fun _ => ?_
    cases v with
    | list items =>
      have hitems := parseItems_erases (List.append_nil place).symm hnode 0 items
      exact readVisited_erases_of_ok rfl hitems
    | object members => exact parseObject_erases rfl hnode
    | _ => exact readVisited_erases_of_error rfl

/-! ### What is logged -/

/-- A reading visits the first of some nodes, all of them if it succeeds and none beyond the level
after the last one allowed, and logs these visits. -/
def Logs (x : Logged α) (ns : List Node) : Prop :=
  ∀ log, ∃ seen, seen <+: ns ∧ (∀ a, (x.run.run log).1 = .ok a → seen = ns) ∧
    (∀ m ∈ seen, m.level ≤ maxDepth + 1) ∧ (x.run.run log).2 = log.after seen

namespace Logs

variable {x : Logged α} {ns : List Node}

theorem lift (x : Except FilterError α) : Logs (liftM x) [] := by
  intro log
  refine ⟨[], List.prefix_refl _, fun _ _ => rfl, fun m hm => absurd hm List.not_mem_nil, ?_⟩
  rw [run_liftM, Log.after, Visits.entries, List.append_nil]
  rfl

theorem bind {k : α → Logged β} {ms : List Node} (hx : Logs x ns)
    (hk : ∀ a, Gives x a → Logs (k a) ms) : Logs (x >>= k) (ns ++ ms) := by
  intro log
  obtain ⟨seen, hseen, hok, hlevel, hlog⟩ := hx log
  rw [run_bind, hlog]
  cases hrun : (x.run.run log).1 with
  | error e => exact ⟨seen, hseen.trans (List.prefix_append _ _), nofun, hlevel, rfl⟩
  | ok a =>
    obtain rfl := hok a hrun
    obtain ⟨more, hmore, hok', hlevel', hlog'⟩ := hk a ⟨log, hrun⟩ (log.after seen)
    refine ⟨seen ++ more, (List.prefix_append_right_inj _).mpr hmore, fun b hb => ?_,
      List.forall_mem_append.mpr ⟨hlevel, hlevel'⟩, ?_⟩
    · rw [hok' b hb]
    · rw [Log.after_append]
      exact hlog'

theorem map {f : α → β} (h : Logs x ns) : Logs (f <$> x) ns := by
  rw [map_eq_pure_bind, ← List.append_nil ns]
  exact h.bind fun a _ => lift (pure (f a))

/-- What is below a node is visited only if the node is not too deep. -/
theorem visit {n : Node} (hlevel : n.level ≤ maxDepth + 1) (h : n.level ≤ maxDepth → Logs x ns) :
    Logs (n.logVisit >>= fun _ => x) (n :: ns) := by
  have hvisit : Logs n.logVisit [n] := by
    intro log
    rw [run_logVisit]
    exact ⟨[n], List.prefix_refl _, fun _ _ => rfl, List.forall_mem_singleton.mpr hlevel, rfl⟩
  exact hvisit.bind fun u hu => h (level_le_of_gives hu)

theorem parts {n : Node} {ps : List Part} (h : ∀ p ∈ ps, Logs (n.part p).read (n.part p).nodes) :
    Logs (ps.mapM fun p => (n.part p).read) (ps.flatMap fun p => (n.part p).nodes) := by
  induction ps with
  | nil => exact lift (pure [])
  | cons p ps ih =>
    obtain ⟨hp, hps⟩ := List.forall_mem_cons.mp h
    simp only [List.mapM_cons, List.flatMap_cons, bind_pure_comp]
    exact hp.bind fun part _ => (ih hps).map

end Logs

/-- The reading of a node visits it and what is below it in document order. -/
theorem read_logs (n : Node) (hlevel : n.level ≤ maxDepth + 1) : Logs n.read n.nodes := by
  induction n using Node.nodes.induct with
  | case1 n ih =>
    rw [Node.read_eq, Node.nodes_eq]
    refine .visit hlevel fun hdeep => (Logs.lift n.form).bind fun form _ => ?_
    rw [bind_pure_comp]
    exact (Logs.parts fun p hp => ih ⟨p, hp⟩ (Nat.add_le_add_right hdeep 1)).map

end

end CorpusAgent.Filter
