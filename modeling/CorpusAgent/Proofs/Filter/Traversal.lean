import CorpusAgent.Proofs.Filter.Nodes

/-!
# Where the reading of a filter stops

A reading visits the nodes of a tree in document order and stops at the first one that is wrong by
itself or beyond a limit.

* `Passes`, `Stops`: visits of nodes one after the other, past all of them or up to one that is
  wrong.
* `Follows`: a reading that visits nodes in this way.  `parseNode_follows`: the reading of a tree is
  one, by induction on the levels left.
* `exists_parse_iff`: a filter is read just if all its nodes are sound and within the limits.
* `parse_error_located`: the error of a filter that cannot be read is about the first node that is
  wrong, and where no `not` over a list of one item is on the way to it, the path of the error leads
  to the value that it is about.
-/

namespace CorpusAgent.Filter

/-! ### Visits -/

/-- The visits after that of a node. -/
def Visits.count (s : Visits) (n : Node) : Visits := ⟨s.nodes + 1, max s.deepest n.level⟩

/-- The visits after those of some nodes. -/
def Visits.after (s : Visits) (ns : List Node) : Visits := ns.foldl Visits.count s

theorem Visits.Within.of_count {s : Visits} {n : Node} (h : (s.count n).Within) : s.Within :=
  ⟨Nat.le_trans (Nat.le_succ _) h.1, Nat.le_trans (Nat.le_max_left _ _) h.2⟩

theorem Visits.Within.of_after {s : Visits} {ns : List Node} (h : (s.after ns).Within) :
    s.Within := by
  induction ns generalizing s with
  | nil => exact h
  | cons n ns ih => exact (ih h).of_count

/-- Nothing is wrong with a node by itself. -/
def Sound (v : Json) : Prop := ∀ inner w fault, ¬NodeFault v inner w fault

/-- What is wrong with a node that is visited after others: it is one too many, it is too deep, or
it has a fault of its own. -/
inductive Violates (s : Visits) (n : Node) : FilterPath → Json → FilterFault → Prop
  | count (h : s.nodes = maxNodes) :
    Violates s n [] n.value (.tooManyNodes (maxNodes + 1) maxNodes)
  | depth (hcount : s.nodes < maxNodes) (h : n.level = maxDepth + 1) :
    Violates s n [] n.value (.tooDeep (maxDepth + 1) maxDepth)
  | own {inner : FilterPath} {w : Json} {fault : FilterFault} (hwithin : (s.count n).Within)
    (h : NodeFault n.value inner w fault) : Violates s n inner w fault

/-- The visits pass some nodes. -/
inductive Passes : Visits → List Node → Visits → Prop
  | nil (s : Visits) : Passes s [] s
  | cons {s t : Visits} {n : Node} {ns : List Node} (hwithin : (s.count n).Within)
    (hsound : Sound n.value) (h : Passes (s.count n) ns t) : Passes s (n :: ns) t

/-- The visits stop with an error at one of some nodes. -/
inductive Stops (e : FilterError) (t : Visits) : Visits → List Node → Prop
  | here {s : Visits} {n : Node} {ns : List Node} {inner : FilterPath} {w : Json}
    (hpath : e.path = n.place ++ inner) (h : Violates s n inner w e.fault)
    (hvisits : t = s.count n) : Stops e t s (n :: ns)
  | later {s : Visits} {n : Node} {ns : List Node} (hwithin : (s.count n).Within)
    (hsound : Sound n.value) (h : Stops e t (s.count n) ns) : Stops e t s (n :: ns)

section

variable {s t u : Visits} {ns ms : List Node} {e : FilterError}

theorem Passes.within (h : Passes s ns t) (hs : s.Within) : t.Within := by
  induction h with
  | nil => exact hs
  | cons hwithin _ _ ih => exact ih hwithin

theorem Passes.sound (h : Passes s ns t) : ∀ n ∈ ns, Sound n.value := by
  induction h with
  | nil => exact fun n hn => absurd hn List.not_mem_nil
  | cons _ hsound _ ih => exact List.forall_mem_cons.mpr ⟨hsound, ih⟩

theorem Passes.eq_after (h : Passes s ns t) : t = s.after ns := by
  induction h with
  | nil => rfl
  | cons _ _ _ ih => exact ih

theorem Passes.append (h : Passes s ns u) (h' : Passes u ms t) : Passes s (ns ++ ms) t := by
  induction h with
  | nil => exact h'
  | cons hwithin hsound _ ih => exact .cons hwithin hsound (ih h')

theorem Passes.stops (h : Passes s ns u) (h' : Stops e t u ms) : Stops e t s (ns ++ ms) := by
  induction h with
  | nil => exact h'
  | cons hwithin hsound _ ih => exact .later hwithin hsound (ih h')

theorem Stops.append (h : Stops e t s ns) (ms : List Node) : Stops e t s (ns ++ ms) := by
  induction h with
  | here hpath h hvisits => exact .here hpath h hvisits
  | later hwithin hsound _ ih => exact .later hwithin hsound ih

/-- The node at which the visits stop is the first one that is wrong. -/
theorem Stops.split (h : Stops e t s ns) (hs : s.Within) :
    ∃ before n after inner w, ns = before ++ n :: after ∧ (∀ m ∈ before, Sound m.value) ∧
      (s.after before).Within ∧ e.path = n.place ++ inner ∧
        Violates (s.after before) n inner w e.fault ∧ t = (s.after before).count n := by
  induction h with
  | @here s n ns inner w hpath h hvisits =>
    exact ⟨[], n, ns, inner, w, rfl, fun m hm => absurd hm List.not_mem_nil, hs, hpath, h, hvisits⟩
  | @later s n ns hwithin hsound _ ih =>
    obtain ⟨before, m, after, inner, w, rfl, hbefore, hrest⟩ := ih hwithin
    exact ⟨n :: before, m, after, inner, w, rfl, List.forall_mem_cons.mpr ⟨hsound, hbefore⟩, hrest⟩

end

/-! ### Readings that visit nodes -/

section

variable {α β : Type} {s t : Visits}

theorem run_bind_error_iff {x : Parse α} {k : α → Parse β} {e : FilterError} :
    (x >>= k).run.run s = (.error e, t) ↔ x.run.run s = (.error e, t) ∨
      ∃ a u, x.run.run s = (.ok a, u) ∧ (k a).run.run u = (.error e, t) := by
  rw [run_bind]
  rcases hx : x.run.run s with ⟨e' | a, u⟩
  · constructor
    · intro h
      obtain ⟨he, rfl⟩ := Prod.mk.inj h
      obtain rfl := Except.error.inj he
      exact .inl rfl
    · rintro (h | ⟨a, v, h, -⟩)
      · obtain ⟨he, rfl⟩ := Prod.mk.inj h
        obtain rfl := Except.error.inj he
        rfl
      · cases (Prod.mk.inj h).1
  · refine ⟨fun h => .inr ⟨a, u, rfl, h⟩, fun h => ?_⟩
    rcases h with h | ⟨a', v, h, hk⟩
    · cases (Prod.mk.inj h).1
    · obtain ⟨ha, rfl⟩ := Prod.mk.inj h
      obtain rfl := Except.ok.inj ha
      exact hk

theorem run_map_error_iff {x : Parse α} {f : α → β} {e : FilterError} :
    (f <$> x).run.run s = (.error e, t) ↔ x.run.run s = (.error e, t) := by
  rw [map_eq_pure_bind, run_bind_error_iff]
  refine or_iff_left ?_
  rintro ⟨a, u, -, h⟩
  cases (Prod.mk.inj h).1

/-- A reading visits some nodes, in their order and no further than the first one that is wrong. -/
structure Follows (x : Parse α) (ns : List Node) : Prop where
  pass : ∀ {s t a}, s.Within → x.run.run s = (.ok a, t) → Passes s ns t
  stop : ∀ {s t e}, s.Within → x.run.run s = (.error e, t) → Stops e t s ns

namespace Follows

variable {x : Parse α} {ns : List Node}

theorem pure (a : α) : Follows (Pure.pure a) [] := by
  refine ⟨fun _ h => ?_, fun _ h => ?_⟩
  · obtain ⟨-, rfl⟩ := Prod.mk.inj h
    exact .nil _
  · cases (Prod.mk.inj h).1

theorem bind {k : α → Parse β} {ms : List Node} (hx : Follows x ns)
    (hk : ∀ a, Follows (k a) ms) : Follows (x >>= k) (ns ++ ms) := by
  refine ⟨fun hs h => ?_, fun hs h => ?_⟩
  · obtain ⟨a, u, hfirst, hrest⟩ := run_bind_ok_iff.mp h
    have hpass := hx.pass hs hfirst
    exact hpass.append ((hk a).pass (hpass.within hs) hrest)
  · rcases run_bind_error_iff.mp h with hfirst | ⟨a, u, hfirst, hrest⟩
    · exact (hx.stop hs hfirst).append ms
    · have hpass := hx.pass hs hfirst
      exact hpass.stops ((hk a).stop (hpass.within hs) hrest)

theorem map {f : α → β} (h : Follows x ns) : Follows (f <$> x) ns := by
  refine ⟨fun hs hx => ?_, fun hs hx => h.stop hs (run_map_error_iff.mp hx)⟩
  obtain ⟨a, hrun, -⟩ := run_map_ok_iff.mp hx
  exact h.pass hs hrun

end Follows

/-- A reading of a node that has been visited finds a fault of the node, or the node is sound and
the reading visits the nodes below it. -/
structure Below (x : Parse α) (n : Node) (ns : List Node) : Prop where
  pass : ∀ {s t a}, s.Within → x.run.run s = (.ok a, t) → Sound n.value ∧ Passes s ns t
  stop : ∀ {s t e}, s.Within → x.run.run s = (.error e, t) →
    (∃ inner w, e.path = n.place ++ inner ∧ NodeFault n.value inner w e.fault ∧ t = s) ∨
      Sound n.value ∧ Stops e t s ns

namespace Below

variable {x : Parse α} {n : Node} {ns : List Node}

theorem of_sound (hsound : Sound n.value) (h : Follows x ns) : Below x n ns :=
  ⟨fun hs hx => ⟨hsound, h.pass hs hx⟩, fun hs hx => .inr ⟨hsound, h.stop hs hx⟩⟩

theorem lift {x : Except FilterError α} (h : Checks x n.place (NodeFault n.value)) :
    Below (liftM x : Parse α) n [] := by
  refine ⟨fun _ hx => ?_, fun _ hx => ?_⟩
  · obtain ⟨ha, rfl⟩ := Prod.mk.inj ((run_liftM x _).symm.trans hx)
    exact ⟨fun _ _ _ => h.none ha, .nil _⟩
  · obtain ⟨he, rfl⟩ := Prod.mk.inj ((run_liftM x _).symm.trans hx)
    obtain ⟨inner, w, hpath, hfault⟩ := h.one he
    exact .inl ⟨inner, w, hpath, hfault, rfl⟩

theorem map {f : α → β} (h : Below x n ns) : Below (f <$> x) n ns := by
  refine ⟨fun hs hx => ?_, fun hs hx => h.stop hs (run_map_error_iff.mp hx)⟩
  obtain ⟨a, hrun, -⟩ := run_map_ok_iff.mp hx
  exact h.pass hs hrun

theorem fail {place inner : FilterPath} {w : Json} {fault : FilterFault}
    (hplace : place = n.place ++ inner) (h : NodeFault n.value inner w fault) (ns : List Node) :
    Below (Filter.fail place fault : Parse α) n ns := by
  refine ⟨fun _ hx => ?_, fun _ hx => ?_⟩
  · cases (Prod.mk.inj hx).1
  · obtain ⟨he, rfl⟩ := Prod.mk.inj hx
    obtain rfl := Except.error.inj he
    exact .inl ⟨inner, w, hplace, h, rfl⟩

end Below

theorem run_visit_error {n : Node} {e : FilterError} (hs : s.Within)
    (hlevel : n.level ≤ maxDepth + 1)
    (h : (visit n.place n.level).run.run s = (.error e, t)) :
    t = s.count n ∧ e.path = n.place ∧ Violates s n [] n.value e.fault := by
  rw [run_visit] at h
  split_ifs at h with hnodes hdepth
  · obtain ⟨he, rfl⟩ := Prod.mk.inj h
    obtain rfl := Except.error.inj he
    have hcount : s.nodes = maxNodes := Nat.le_antisymm hs.1 (Nat.le_of_lt_succ hnodes)
    refine ⟨rfl, rfl, ?_⟩
    rw [hcount]
    exact .count hcount
  · obtain ⟨he, rfl⟩ := Prod.mk.inj h
    obtain rfl := Except.error.inj he
    have hdeep : n.level = maxDepth + 1 := by
      have hs := hs.2
      omega
    have hmax : max s.deepest n.level = maxDepth + 1 := by
      have hs := hs.2
      omega
    refine ⟨rfl, rfl, ?_⟩
    rw [hmax]
    exact .depth (by omega) hdeep
  · cases (Prod.mk.inj h).1

/-- A node is visited before those below it. -/
theorem Follows.visit {x : Parse α} {n : Node} {ns : List Node} (hlevel : n.level ≤ maxDepth + 1)
    (h : n.level ≤ maxDepth → Below x n ns) :
    Follows (Filter.visit n.place n.level >>= fun _ => x) (n :: ns) := by
  refine ⟨fun hs hrun => ?_, fun hs hrun => ?_⟩
  · obtain ⟨_, u, hvisit, hx⟩ := run_bind_ok_iff.mp hrun
    -- a visit that succeeds is within the limits, so the node is not too deep
    obtain ⟨rfl, hwithin⟩ := run_visit_ok_iff.mp hvisit
    obtain ⟨hsound, hpass⟩ := (h (Nat.le_trans (Nat.le_max_right _ _) hwithin.2)).pass hwithin hx
    exact .cons hwithin hsound hpass
  · rcases run_bind_error_iff.mp hrun with hvisit | ⟨_, u, hvisit, hx⟩
    · obtain ⟨ht, hpath, hviolates⟩ := run_visit_error hs hlevel hvisit
      exact .here (hpath.trans (List.append_nil _).symm) hviolates ht
    · obtain ⟨rfl, hwithin⟩ := run_visit_ok_iff.mp hvisit
      rcases (h (Nat.le_trans (Nat.le_max_right _ _) hwithin.2)).stop hwithin hx with
        ⟨inner, w, hpath, hfault, rfl⟩ | ⟨hsound, hstop⟩
      · exact .here hpath (.own hwithin hfault) rfl
      · exact .later hwithin hsound hstop

end

/-! ### Trees -/

section

variable {levels : Nat} {n : Node} {node : FilterPath → Json → Parse Filter}

theorem parseItems_follows {front place : FilterPath} (hplace : place = n.place ++ front)
    (hnode : ∀ p, Follows (node (n.place ++ p.mark) p.value) (n.part p).nodes) (start : Nat)
    (items : List Json) :
    Follows (parseItems node place start items)
      ((numbered front start items).flatMap fun p => (n.part p).nodes) := by
  induction items generalizing start with
  | nil => exact .pure []
  | cons v rest ih =>
    have hfirst := hnode ⟨front ++ [.index start], front ++ [.index start], v⟩
    rw [← List.append_assoc, ← hplace] at hfirst
    rw [numbered, List.zipIdx_cons, List.map_cons, ← numbered, List.flatMap_cons]
    exact hfirst.bind fun part => (ih (start + 1)).map

theorem sound_list (items : List Json) : Sound (.list items) := by
  rintro inner w fault (⟨h, -⟩)
  cases h

theorem NodeFault.of_group {group : String} {raw w : Json} {inner : FilterPath}
    {fault : FilterFault} (hgroup : group ∈ groups)
    (h : NodeFault (.object [(group, raw)]) inner w fault) :
    (group = "and" ∨ group = "or") ∧ raw.list? = none ∨
      group = "not" ∧ ∃ items, raw = .list items ∧ items.length ≠ 1 := by
  cases h with
  | noNode _ hobject => cases hobject
  | extraKeys _ h => exact absurd rfl h
  | argsNotList hname h => exact .inl ⟨hname, h⟩
  | notArity h => exact .inr ⟨rfl, _, rfl, h⟩
  | leaf hnone =>
    cases (groupOf?_eq_none_iff.mp hnone group hgroup).symm.trans (Json.find?_singleton group raw)

/-- Only what is no list is wrong under `and` and `or`. -/
theorem parseGroup_below {group : String} {raw : Json} (hgroup : group = "and" ∨ group = "or")
    (hvalue : n.value = .object [(group, raw)])
    (hnode : ∀ p, Follows (node (n.place ++ p.mark) p.value) (n.part p).nodes) :
    Below (parseGroup node (n.place.member group) raw) n
      ((numbered [.name group] 0 (raw.list?.getD [])).flatMap fun p => (n.part p).nodes) := by
  have hmem : group ∈ groups := by
    rcases hgroup with rfl | rfl <;> decide
  have hnot : group ≠ "not" := by
    rcases hgroup with rfl | rfl <;> decide
  have hfail (hlist : raw.list? = none) : NodeFault n.value [.name group] raw .argsNotList :=
    hvalue ▸ .argsNotList hgroup hlist
  cases raw with
  | list items =>
    refine .of_sound ?_ (parseItems_follows rfl hnode 0 items)
    rw [hvalue]
    intro inner w fault h
    rcases h.of_group hmem with ⟨-, h⟩ | ⟨h, -⟩
    · cases h
    · exact hnot h
  | _ => exact .fail rfl (hfail rfl) _

/-- Only a list of a length other than one is wrong under `not`. -/
theorem parseNot_below {raw : Json} (hvalue : n.value = .object [("not", raw)])
    (hnode : ∀ p, Follows (node (n.place ++ p.mark) p.value) (n.part p).nodes) :
    Below (parseNot node (n.place.member "not") raw) n
      ((partsOfNot raw).flatMap fun p => (n.part p).nodes) := by
  have hsound (hone : ∀ items, raw = .list items → items.length = 1) : Sound n.value := by
    rw [hvalue]
    intro inner w fault h
    rcases h.of_group (by decide) with ⟨h, -⟩ | ⟨-, items, hitems, h⟩
    · exact absurd h (by decide)
    · exact h (hone items hitems)
  have hpart (steps : FilterPath) (item : Json) (hone : Sound n.value) :
      Below (node (n.place.member "not") item) n
        ([⟨steps, [.name "not"], item⟩].flatMap fun p => (n.part p).nodes) := by
    rw [List.flatMap_singleton]
    exact .of_sound hone (hnode ⟨steps, [.name "not"], item⟩)
  have hfail (items : List Json) (hitems : raw = .list items) (hlength : items.length ≠ 1) :
      NodeFault n.value [.name "not"] (.list items) .notArity := by
    rw [hvalue, hitems]
    exact .notArity hlength
  cases raw with
  | list items =>
    rcases items with _ | ⟨item, _ | ⟨second, rest⟩⟩
    · exact .fail rfl (hfail [] rfl nofun) []
    · exact hpart _ item (hsound fun items h => Json.list.inj h ▸ rfl)
    · exact .fail rfl (hfail _ rfl nofun) []
  | _ => exact hpart _ _ (hsound nofun)

theorem nodeFault_leaf_iff {members : List (String × Json)} {inner : FilterPath} {w : Json}
    {fault : FilterFault} (hgroup : groupOf? members = none) :
    NodeFault (.object members) inner w fault ↔ LeafFault members inner w fault := by
  refine ⟨fun h => ?_, .leaf hgroup⟩
  have hnone := groupOf?_eq_none_iff.mp hgroup
  cases h with
  | noNode _ hobject => cases hobject
  | extraKeys hsome => cases hgroup.symm.trans hsome
  | @argsNotList group raw hname =>
    have hmem : group ∈ groups := by
      rcases hname with rfl | rfl <;> decide
    cases (hnone group hmem).symm.trans (Json.find?_singleton group w)
  | @notArity items =>
    cases (hnone "not" (by decide)).symm.trans (Json.find?_singleton "not" (.list items))
  | leaf _ h => exact h

theorem parseObject_below {members : List (String × Json)} (hvalue : n.value = .object members)
    (hnode : ∀ p, Follows (node (n.place ++ p.mark) p.value) (n.part p).nodes) :
    Below (parseObject node n.place members) n
      ((partsOf (.object members)).flatMap fun p => (n.part p).nodes) := by
  rw [partsOf]
  unfold parseObject
  cases hgroup : groupOf? members with
  | none =>
    refine Below.lift ?_
    rw [hvalue]
    exact (parseLeaf_checks _ members).congr (nodeFault_leaf_iff hgroup)
  | some found =>
    obtain ⟨group, raw⟩ := found
    obtain ⟨hname, hraw⟩ := mem_of_groupOf?_eq_some hgroup
    by_cases hlength : members.length = 1
    · obtain rfl := eq_singleton_of_find? hlength hraw
      have hgroups : group = "and" ∨ group = "or" ∨ group = "not" := by
        simpa [groups] using hname
      rcases hgroups with rfl | rfl | rfl
      · exact (parseGroup_below (.inl rfl) hvalue hnode).map
      · exact (parseGroup_below (.inr rfl) hvalue hnode).map
      · exact (parseNot_below hvalue hnode).map
    · simp only [ne_eq, hlength, not_false_eq_true, if_true]
      have hfault : NodeFault n.value [] (.object members) (.extraKeys group) :=
        hvalue ▸ .extraKeys hgroup hlength
      exact .fail (List.append_nil _).symm hfault _

/-- The reading of a tree visits its nodes in document order. -/
theorem parseNode_follows (hlevel : levels + n.level = maxDepth + 1) :
    Follows (parseNode levels n.place n.value) n.nodes := by
  induction levels generalizing n with
  | zero =>
    -- without a level left the node is too deep, and the visit itself fails
    rw [Nat.zero_add] at hlevel
    rw [Node.nodes_eq, parseNode, ← hlevel]
    exact .visit (Nat.le_of_eq hlevel) fun h => absurd h (by omega)
  | succ levels ih =>
    obtain ⟨place, steps, level, v⟩ := n
    obtain rfl : level = maxDepth - levels := by simp only at hlevel; omega
    set n : Node := ⟨place, steps, maxDepth - levels, v⟩
    -- the parts are one level deeper and are read with one level less
    have hnode (p : Part) :
        Follows (parseNode levels (n.place ++ p.mark) p.value) (n.part p).nodes :=
      ih (n := n.part p) (by simp only [Node.part, n] at hlevel ⊢; omega)
    rw [Node.nodes_eq]
    refine .visit (n := n) (by simp only [n]; omega) fun _ => ?_
    cases v with
    | list items =>
      have hitems := parseItems_follows (List.append_nil place).symm hnode 0 items
      exact .of_sound (sound_list items) hitems.map
    | object members => exact parseObject_below rfl hnode
    | _ => exact .fail (List.append_nil _).symm (.noNode rfl rfl) _

end

/-! ### Errors -/

/-- What an error of a reading is about: a node, and from it the steps to a value.  The nodes before
it in document order are sound and within the limits, and it is the first one that is wrong. -/
structure Located (v : Json) (e : FilterError) (before : List Node) (node : Node)
    (inner : FilterPath) (w : Json) : Prop where
  /-- In document order the node comes right after those before it. -/
  split : ∃ after, (Node.root v).nodes = before ++ node :: after
  /-- The steps to the node lead to it. -/
  reached : v.at? node.steps = some node.value
  sound : ∀ m ∈ before, Sound m.value
  within : (Visits.start.after before).Within
  violates : Violates (Visits.start.after before) node inner w e.fault
  path : e.path = node.place ++ inner
  /-- Further steps lead to the value, or an operator is missing and the value is the leaf. -/
  resolves : v.at? (node.steps ++ inner) = some w ∨
    e.fault = .missingOperator ∧ inner = [.name "op"] ∧ w = node.value ∧ w.member? "op" = none
  /-- Without a `not` over a list of one item on the way, the path consists of these steps. -/
  plain : Plain v node.steps → e.path = node.steps ++ inner

/-- What is wrong with a node is so at the value that the steps from it lead to, or an operator is
missing. -/
theorem Violates.at? {s : Visits} {n : Node} {inner : FilterPath} {w : Json} {fault : FilterFault}
    (h : Violates s n inner w fault) : n.value.at? inner = some w ∨
      fault = .missingOperator ∧ inner = [.name "op"] ∧ w = n.value ∧ w.member? "op" = none := by
  cases h with
  | count | depth => exact .inl rfl
  | own _ h =>
    refine h.at?.imp_right ?_
    rintro ⟨hfault, hinner, rfl, hop⟩
    exact ⟨hfault, hinner, rfl, hop⟩

/-- Within the limits only a fault of its own is wrong with a node. -/
theorem Violates.not_sound {s : Visits} {n : Node} {inner : FilterPath} {w : Json}
    {fault : FilterFault} (h : Violates s n inner w fault) (hwithin : (s.count n).Within) :
    ¬Sound n.value := by
  cases h with
  | count h =>
    have hnodes : maxNodes + 1 ≤ maxNodes := h ▸ hwithin.1
    exact absurd hnodes (Nat.not_succ_le_self _)
  | depth _ h =>
    have hlevel : maxDepth + 1 ≤ maxDepth := h ▸ Nat.le_trans (Nat.le_max_right _ _) hwithin.2
    exact absurd hlevel (Nat.not_succ_le_self _)
  | own _ h => exact fun hsound => hsound _ _ _ h

theorem parse_stops {v : Json} {e : FilterError} (h : parse v = .error e) :
    Stops e (parseCounting v).2 .start (Node.root v).nodes := by
  have hrun : (parseNode maxDepth [] v).run.run .start = (.error e, (parseCounting v).2) :=
    Prod.ext h rfl
  exact (parseNode_follows (n := Node.root v) rfl).stop visits_start_within hrun

theorem parse_passes {v : Json} {f : Filter} (h : parse v = .ok f) :
    Passes .start (Node.root v).nodes (parseCounting v).2 := by
  have hrun : (parseNode maxDepth [] v).run.run .start = (.ok f, (parseCounting v).2) :=
    Prod.ext h rfl
  exact (parseNode_follows (n := Node.root v) rfl).pass visits_start_within hrun

/-- A filter is read just if each of its nodes is sound and they keep within the limits. -/
theorem exists_parse_iff {v : Json} :
    (∃ f, parse v = .ok f) ↔ (∀ n ∈ (Node.root v).nodes, Sound n.value) ∧
      (Visits.start.after (Node.root v).nodes).Within := by
  constructor
  · rintro ⟨f, hparse⟩
    have hpass := parse_passes hparse
    exact ⟨hpass.sound, hpass.eq_after ▸ hpass.within visits_start_within⟩
  · rintro ⟨hsound, hwithin⟩
    cases hparse : parse v with
    | ok f => exact ⟨f, rfl⟩
    | error e =>
      obtain ⟨before, node, after, inner, w, hsplit, -, -, -, hviolates, -⟩ :=
        (parse_stops hparse).split visits_start_within
      rw [hsplit] at hsound hwithin
      rw [Visits.after, List.foldl_append] at hwithin
      have hrest : (((Visits.start.after before).count node).after after).Within := hwithin
      have hnode := hsound node (List.mem_append_right before List.mem_cons_self)
      exact absurd hnode (hviolates.not_sound hrest.of_after)

/-- The error of a filter that cannot be read is about the first node in document order that is
wrong by itself or beyond a limit. -/
theorem parse_error_located {v : Json} {e : FilterError} (h : parse v = .error e) :
    ∃ before node inner w, Located v e before node inner w := by
  obtain ⟨before, node, after, inner, w, hsplit, hsound, hwithin, hpath, hviolates, -⟩ :=
    (parse_stops h).split visits_start_within
  have hmem : node ∈ (Node.root v).nodes := by
    rw [hsplit]
    exact List.mem_append_right before List.mem_cons_self
  obtain ⟨steps, hsteps, hreached, hplace⟩ := Node.exists_of_mem_nodes hmem
  obtain rfl : node.steps = steps := hsteps
  refine ⟨before, node, inner, w, ⟨after, hsplit⟩, hreached, hsound, hwithin, hviolates, hpath, ?_,
    fun hplain => ?_⟩
  · refine hviolates.at?.imp_left fun hinner => ?_
    rw [Json.at?_append]
    exact (congrArg (Option.bind · _) hreached).trans hinner
  · rw [hpath, hplace hplain]
    rfl

/-- A leaf on a path of unknown origin after one that is sound. -/
def unknownOriginSecond : Json := .object [("and", .list [
  .object [("field", .text "team"), ("op", .text "exists")],
  .object [("path", .list [.text "db", .text "team"]), ("op", .text "exists")]])]

theorem parse_error_located_unknownOrigin :
    ∃ e before node inner w, parse unknownOriginSecond = .error e ∧
      e.path = [.name "and", .index 1, .name "path", .index 0] ∧
        unknownOriginSecond.at? e.path = some (.text "db") ∧
          Located unknownOriginSecond e before node inner w := by
  have hparse : parse unknownOriginSecond =
      .error ⟨[.name "and", .index 1, .name "path", .index 0], .unknownOrigin "db"⟩ := by rfl
  obtain ⟨before, node, inner, w, h⟩ := parse_error_located hparse
  exact ⟨_, before, node, inner, w, hparse, rfl, rfl, h⟩

/-- Under a `not` over a list of one item the index is left out, and the path of the error leads
nowhere. -/
theorem path_of_listed_not :
    let v : Json := .object [("not", .list [.object [("field", .number (.integer 7))]])]
    parse v = .error ⟨[.name "not", .name "field"], .notText⟩ ∧
      v.at? [.name "not", .name "field"] = none ∧
        v.at? [.name "not", .index 0, .name "field"] = some (.number (.integer 7)) :=
  ⟨by rfl, by rfl, by rfl⟩

end CorpusAgent.Filter
