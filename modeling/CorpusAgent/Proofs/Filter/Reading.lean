import CorpusAgent.Proofs.Filter.Leaf

/-!
# The filters that can be read

A reading counts the nodes that it visits and stops at the first one beyond a limit.

* `Reads`: from visits within the limits, a reading gives what its grammar allows as long as there
  is room for the nodes, and it has then counted exactly these nodes.
* `parseNode_reads`: this holds of the reading of a tree, by induction on the levels left for it.
* `Denotes.unique`: a JSON tree stands for one filter only.
* `parse_eq_ok_iff`: a JSON tree is read exactly as the filters it stands for that keep within all
  limits.
-/

namespace CorpusAgent.Filter

section

variable {α β : Type}

theorem run_bind {σ : Type} (x : ExceptT FilterError (StateM σ) α)
    (k : α → ExceptT FilterError (StateM σ) β) (s : σ) :
    (x >>= k).run.run s = (ExceptT.bindCont k (x.run.run s).1).run (x.run.run s).2 := rfl

/-- What visits no node. -/
theorem run_liftM {σ : Type} (x : Except FilterError α) (s : σ) :
    (liftM x : ExceptT FilterError (StateM σ) α).run.run s = (x, s) := by
  cases x <;> rfl

theorem run_bind_ok_iff {x : Parse α} {k : α → Parse β} {s t : Visits} {b : β} :
    (x >>= k).run.run s = (.ok b, t) ↔
      ∃ a u, x.run.run s = (.ok a, u) ∧ (k a).run.run u = (.ok b, t) := by
  rw [run_bind]
  rcases hx : x.run.run s with ⟨e | a, u⟩
  · refine iff_of_false (fun h => ?_) fun ⟨a, v, h, _⟩ => ?_
    · cases (Prod.mk.inj h).1
    · cases (Prod.mk.inj h).1
  · refine ⟨fun h => ⟨a, u, rfl, h⟩, fun ⟨a', v, h, hk⟩ => ?_⟩
    obtain ⟨ha, rfl⟩ := Prod.mk.inj h
    obtain rfl := Except.ok.inj ha
    exact hk

theorem run_map_ok_iff {x : Parse α} {f : α → β} {s t : Visits} {b : β} :
    (f <$> x).run.run s = (.ok b, t) ↔ ∃ a, x.run.run s = (.ok a, t) ∧ f a = b := by
  rw [map_eq_pure_bind, run_bind_ok_iff]
  constructor
  · rintro ⟨a, u, hx, hpure⟩
    obtain ⟨hb, rfl⟩ := Prod.mk.inj hpure
    exact ⟨a, hx, Except.ok.inj hb⟩
  · rintro ⟨a, hx, rfl⟩
    exact ⟨a, t, hx, rfl⟩

/-- The visits keep within the limits. -/
def Visits.Within (s : Visits) : Prop := s.nodes ≤ maxNodes ∧ s.deepest ≤ maxDepth

theorem run_visit (place : FilterPath) (depth : Nat) (s : Visits) :
    (visit place depth).run.run s =
      (if maxNodes < s.nodes + 1 then fail place (.tooManyNodes (s.nodes + 1) maxNodes)
        else if maxDepth < max s.deepest depth then
          fail place (.tooDeep (max s.deepest depth) maxDepth)
        else pure () : Parse Unit).run.run ⟨s.nodes + 1, max s.deepest depth⟩ := rfl

/-- A visit succeeds within the limits, and counts also when it fails. -/
theorem run_visit_ok_iff {place : FilterPath} {depth : Nat} {s t : Visits} {u : Unit} :
    (visit place depth).run.run s = (.ok u, t) ↔
      t = ⟨s.nodes + 1, max s.deepest depth⟩ ∧ t.Within := by
  rw [run_visit]
  split_ifs with hnodes hdepth
  · refine iff_of_false (fun h => by cases (Prod.mk.inj h).1) ?_
    rintro ⟨rfl, hwithin, -⟩
    exact Nat.not_lt.mpr hwithin hnodes
  · refine iff_of_false (fun h => by cases (Prod.mk.inj h).1) ?_
    rintro ⟨rfl, -, hwithin⟩
    exact Nat.not_lt.mpr hwithin hdepth
  · constructor
    · intro h
      obtain ⟨-, rfl⟩ := Prod.mk.inj h
      exact ⟨rfl, Nat.not_lt.mp hnodes, Nat.not_lt.mp hdepth⟩
    · rintro ⟨rfl, -⟩
      rfl

/-- A reading gives the results that are allowed, as long as there is room for the nodes they take,
and counts these nodes. -/
structure Reads (x : Parse α) (allowed : α → Prop) (count : α → Nat) : Prop where
  sound : ∀ {s t : Visits} {a : α}, s.Within → x.run.run s = (.ok a, t) →
    allowed a ∧ t.Within ∧ t.nodes = s.nodes + count a
  complete : ∀ {s : Visits} {a : α}, s.Within → allowed a → s.nodes + count a ≤ maxNodes →
    ∃ t, x.run.run s = (.ok a, t)

namespace Reads

variable {x : Parse α} {allowed : α → Prop} {count : α → Nat}

theorem congr {other : α → Prop} (h : Reads x allowed count) (hiff : ∀ a, allowed a ↔ other a) :
    Reads x other count :=
  ⟨fun hs hx => ⟨(hiff _).mp (h.sound hs hx).1, (h.sound hs hx).2⟩,
    fun hs ha => h.complete hs ((hiff _).mpr ha)⟩

theorem fail {place : FilterPath} {fault : FilterFault} (hnone : ∀ a, ¬allowed a) :
    Reads (Filter.fail place fault) allowed count :=
  ⟨fun _ hx => (by cases (Prod.mk.inj hx).1), fun _ ha => absurd ha (hnone _)⟩

theorem lift {x : Except FilterError α} (hx : ∀ a, x = .ok a ↔ allowed a)
    (hcount : ∀ a, allowed a → count a = 0) : Reads (liftM x) allowed count := by
  constructor
  · intro s t a hs h
    obtain ⟨ha, rfl⟩ := Prod.mk.inj ((run_liftM x s).symm.trans h)
    have hallowed := (hx a).mp ha
    exact ⟨hallowed, hs, by rw [hcount a hallowed, Nat.add_zero]⟩
  · intro s a hs ha hroom
    exact ⟨s, by rw [run_liftM, (hx a).mpr ha]⟩

theorem map (f : α → β) {result : β → Prop} {countResult : β → Nat} (h : Reads x allowed count)
    (hresult : ∀ b, result b ↔ ∃ a, allowed a ∧ f a = b)
    (hcount : ∀ a, countResult (f a) = count a) : Reads (f <$> x) result countResult := by
  constructor
  · intro s t b hs hx
    obtain ⟨a, hrun, rfl⟩ := run_map_ok_iff.mp hx
    obtain ⟨ha, ht, hnodes⟩ := h.sound hs hrun
    exact ⟨(hresult _).mpr ⟨a, ha, rfl⟩, ht, by rw [hcount, hnodes]⟩
  · intro s b hs hb hroom
    obtain ⟨a, ha, rfl⟩ := (hresult b).mp hb
    rw [hcount] at hroom
    obtain ⟨t, hx⟩ := h.complete hs ha hroom
    exact ⟨t, run_map_ok_iff.mpr ⟨a, hx, rfl⟩⟩

/-- A node is visited before its parts. -/
theorem visit {place : FilterPath} {depth : Nat} {countNode : α → Nat} (hdepth : depth ≤ maxDepth)
    (h : Reads x allowed count) (hcount : ∀ a, countNode a = count a + 1) :
    Reads (Filter.visit place depth >>= fun _ => x) allowed countNode := by
  constructor
  · intro s t a hs hrun
    obtain ⟨_, u, hvisit, hx⟩ := run_bind_ok_iff.mp hrun
    obtain ⟨rfl, hu⟩ := run_visit_ok_iff.mp hvisit
    obtain ⟨ha, ht, hnodes⟩ := h.sound hu hx
    refine ⟨ha, ht, ?_⟩
    rw [hnodes, hcount]
    exact Nat.add_right_comm s.nodes 1 (count a)
  · intro s a hs ha hroom
    rw [hcount] at hroom
    have hu : Visits.Within ⟨s.nodes + 1, max s.deepest depth⟩ :=
      ⟨show s.nodes + 1 ≤ maxNodes by omega, Nat.max_le.mpr ⟨hs.2, hdepth⟩⟩
    have hvisit : (Filter.visit place depth).run.run s = (.ok (), _) :=
      run_visit_ok_iff.mpr ⟨rfl, hu⟩
    obtain ⟨t, hx⟩ := h.complete hu ha (show s.nodes + 1 + count a ≤ maxNodes by omega)
    exact ⟨t, run_bind_ok_iff.mpr ⟨(), _, hvisit, hx⟩⟩

end Reads

end

theorem parseItems_reads {node : FilterPath → Json → Parse Filter} {allowed : Json → Filter → Prop}
    (hnode : ∀ place v, Reads (node place v) (allowed v) fun e => e.nodes.length)
    (place : FilterPath) (i : Nat) (items : List Json) :
    Reads (parseItems node place i items) (List.Forall₂ allowed items)
      fun parts => (nodesOf parts).length := by
  induction items generalizing i with
  | nil =>
    refine Reads.lift (x := pure []) (fun parts => ?_) fun parts h => ?_
    · rw [pure_eq_ok_iff, List.forall₂_nil_left_iff, eq_comm]
    · rw [List.forall₂_nil_left_iff.mp h]
      rfl
  | cons v rest ih =>
    constructor
    · intro s t parts hs hrun
      obtain ⟨part, u, hpart, hrest⟩ := run_bind_ok_iff.mp hrun
      obtain ⟨later, w, hlater, hpure⟩ := run_bind_ok_iff.mp hrest
      obtain ⟨hparts, rfl⟩ := Prod.mk.inj hpure
      obtain rfl := Except.ok.inj hparts
      obtain ⟨hallowed, hu, hcount⟩ := (hnode _ v).sound hs hpart
      obtain ⟨hallowed', hw, hcount'⟩ := (ih _).sound hu hlater
      refine ⟨.cons hallowed hallowed', hw, ?_⟩
      rw [hcount', hcount, nodesOf, List.length_append, Nat.add_assoc]
    · intro s parts hs hallowed hroom
      cases hallowed with
      | @cons _ part _ later hpart hlater =>
        rw [nodesOf, List.length_append] at hroom
        obtain ⟨u, hrun⟩ := (hnode (place.item i) v).complete hs hpart (by omega)
        -- what the first item has counted leaves room for the others
        obtain ⟨-, hu, hcount⟩ := (hnode _ v).sound hs hrun
        obtain ⟨w, hrun'⟩ := (ih (i + 1)).complete hu hlater (by omega)
        exact ⟨w, run_bind_ok_iff.mpr ⟨part, u, hrun, run_bind_ok_iff.mpr ⟨later, w, hrun', rfl⟩⟩⟩

/-! ### Trees -/

/-- The filters of a tree that has so many levels left. -/
def Readable (levels : Nat) (v : Json) (e : Filter) : Prop :=
  Denotes v e ∧ e.depth ≤ levels ∧ ∀ node ∈ e.nodes, node.NodeWithin

/-- The parts of a list of parts. -/
def Parts (part : Json → Filter → Prop) (raw : Json) (parts : List Filter) : Prop :=
  ∃ items, raw = .list items ∧ List.Forall₂ part items parts

/-- The part under `not`, which may stand in a list of one item. -/
def OnlyPart (part : Json → Filter → Prop) (raw : Json) (e : Filter) : Prop :=
  (∃ item, raw = .list [item] ∧ part item e) ∨ raw.list? = none ∧ part raw e

section

variable {levels : Nat} {v raw : Json} {members : List (String × Json)} {group : String}
  {e : Filter} {parts : List Filter}

theorem forall₂_readable_iff {items : List Json} :
    List.Forall₂ (Readable levels) items parts ↔
      List.Forall₂ Denotes items parts ∧ depthOf parts ≤ levels ∧
        ∀ node ∈ nodesOf parts, node.NodeWithin := by
  induction items generalizing parts with
  | nil =>
    rw [List.forall₂_nil_left_iff, List.forall₂_nil_left_iff]
    refine (and_iff_left_of_imp ?_).symm
    rintro rfl
    exact ⟨Nat.zero_le _, fun node hnode => absurd hnode List.not_mem_nil⟩
  | cons v rest ih =>
    cases parts with
    | nil => simp
    | cons part later =>
      rw [List.forall₂_cons, List.forall₂_cons, ih, Readable, depthOf, Nat.max_le, nodesOf,
        List.forall_mem_append]
      tauto

theorem parts_readable_iff :
    Parts (Readable levels) raw parts ↔ Parts Denotes raw parts ∧ depthOf parts ≤ levels ∧
      ∀ node ∈ nodesOf parts, node.NodeWithin := by
  simp only [Parts, forall₂_readable_iff, ← and_assoc, exists_and_right]

theorem onlyPart_readable_iff :
    OnlyPart (Readable levels) raw e ↔ OnlyPart Denotes raw e ∧ e.depth ≤ levels ∧
      ∀ node ∈ e.nodes, node.NodeWithin := by
  simp only [OnlyPart, Readable, ← and_assoc, exists_and_right, ← or_and_right]

theorem nodeWithin_of_texts {node : Filter} (hvalues : node.values = [])
    (htexts : node.texts = []) : NodeWithin node := by
  rw [NodeWithin, hvalues, htexts]
  exact ⟨Nat.zero_le _, fun text htext => absurd htext List.not_mem_nil⟩

/-- A group is readable if its parts are with one level less. -/
theorem readable_group_iff {make : List Filter → Filter}
    (hdepth : ∀ parts, (make parts).depth = depthOf parts + 1)
    (hnodes : ∀ parts, (make parts).nodes = make parts :: nodesOf parts)
    (hwithin : ∀ parts, NodeWithin (make parts))
    (hv : ∀ e, Denotes v e ↔ ∃ parts, Parts Denotes raw parts ∧ make parts = e) :
    Readable (levels + 1) v e ↔ ∃ parts, Parts (Readable levels) raw parts ∧ make parts = e := by
  have hparts : ∀ parts, (make parts).depth ≤ levels + 1 ∧
      (∀ node ∈ (make parts).nodes, node.NodeWithin) ↔
        depthOf parts ≤ levels ∧ ∀ node ∈ nodesOf parts, node.NodeWithin := by
    intro parts
    rw [hdepth, hnodes, List.forall_mem_cons, and_iff_right (hwithin parts),
      Nat.add_le_add_iff_right]
  simp only [Readable, hv, parts_readable_iff]
  constructor
  · rintro ⟨⟨parts, hdenotes, rfl⟩, hlimits⟩
    exact ⟨parts, ⟨hdenotes, (hparts parts).mp hlimits⟩, rfl⟩
  · rintro ⟨parts, ⟨hdenotes, hlimits⟩, rfl⟩
    exact ⟨⟨parts, hdenotes, rfl⟩, (hparts parts).mpr hlimits⟩

theorem readable_all_iff
    (hv : ∀ e, Denotes v e ↔ ∃ parts, Parts Denotes raw parts ∧ Filter.all parts = e) :
    Readable (levels + 1) v e ↔
      ∃ parts, Parts (Readable levels) raw parts ∧ Filter.all parts = e :=
  readable_group_iff (fun _ => rfl) (fun _ => rfl) (fun _ => nodeWithin_of_texts rfl rfl) hv

theorem readable_any_iff
    (hv : ∀ e, Denotes v e ↔ ∃ parts, Parts Denotes raw parts ∧ Filter.any parts = e) :
    Readable (levels + 1) v e ↔
      ∃ parts, Parts (Readable levels) raw parts ∧ Filter.any parts = e :=
  readable_group_iff (fun _ => rfl) (fun _ => rfl) (fun _ => nodeWithin_of_texts rfl rfl) hv

theorem readable_not_iff
    (hv : ∀ e, Denotes v e ↔ ∃ part, OnlyPart Denotes raw part ∧ Filter.not part = e) :
    Readable (levels + 1) v e ↔
      ∃ part, OnlyPart (Readable levels) raw part ∧ Filter.not part = e := by
  have hpart : ∀ part, (Filter.not part).depth ≤ levels + 1 ∧
      (∀ node ∈ (Filter.not part).nodes, node.NodeWithin) ↔
        part.depth ≤ levels ∧ ∀ node ∈ part.nodes, node.NodeWithin := by
    intro part
    rw [depth, nodes, List.forall_mem_cons, and_iff_right (nodeWithin_of_texts rfl rfl),
      Nat.add_le_add_iff_right]
  simp only [Readable, hv, onlyPart_readable_iff]
  constructor
  · rintro ⟨⟨part, hdenotes, rfl⟩, hlimits⟩
    exact ⟨part, ⟨hdenotes, (hpart part).mp hlimits⟩, rfl⟩
  · rintro ⟨part, ⟨hdenotes, hlimits⟩, rfl⟩
    exact ⟨⟨part, hdenotes, rfl⟩, (hpart part).mpr hlimits⟩

theorem readable_leaf_iff (hgroup : ∀ group ∈ groups, Json.find? group members = none) :
    Readable (levels + 1) (.object members) e ↔ Denotes (.object members) e ∧ NodeWithin e := by
  refine and_congr_right fun hdenotes => ?_
  rcases hdenotes.leaf hgroup with ⟨name, c, rfl, -⟩ | ⟨origin, key, c, rfl, -⟩
  · rw [depth, nodes, List.forall_mem_singleton, and_iff_right (Nat.le_add_left 1 levels)]
  · rw [depth, nodes, List.forall_mem_singleton, and_iff_right (Nat.le_add_left 1 levels)]

/-! ### Groups -/

theorem denotes_list_iff {items : List Json} :
    Denotes (.list items) e ↔
      ∃ parts, Parts Denotes (.list items) parts ∧ Filter.all parts = e := by
  constructor
  · intro h
    cases h with
    | list h => exact ⟨_, ⟨_, rfl, h⟩, rfl⟩
  · rintro ⟨parts, ⟨items', hitems, h⟩, rfl⟩
    obtain rfl := Json.list.inj hitems
    exact .list h

/-- What an object with the name of a group stands for. -/
theorem Denotes.named (h : Denotes (.object [(group, raw)]) e) (hgroup : group ∈ groups) :
    (group = "and" ∧ ∃ parts, Parts Denotes raw parts ∧ Filter.all parts = e) ∨
    (group = "or" ∧ ∃ parts, Parts Denotes raw parts ∧ Filter.any parts = e) ∨
    (group = "not" ∧ ∃ part, OnlyPart Denotes raw part ∧ Filter.not part = e) := by
  have hfound : Json.find? group [(group, raw)] = some raw := if_pos rfl
  cases h with
  | all h => exact .inl ⟨rfl, _, ⟨_, rfl, h⟩, rfl⟩
  | any h => exact .inr (.inl ⟨rfl, _, ⟨_, rfl, h⟩, rfl⟩)
  | notItem h => exact .inr (.inr ⟨rfl, _, .inl ⟨_, rfl, h⟩, rfl⟩)
  | notValue hlist h => exact .inr (.inr ⟨rfl, _, .inr ⟨hlist, h⟩, rfl⟩)
  | field hnone => cases (hnone group hgroup).symm.trans hfound
  | path hnone => cases (hnone group hgroup).symm.trans hfound

theorem denotes_and_iff :
    Denotes (.object [("and", raw)]) e ↔
      ∃ parts, Parts Denotes raw parts ∧ Filter.all parts = e := by
  constructor
  · intro h
    rcases h.named (by decide) with ⟨-, h⟩ | ⟨hname, -⟩ | ⟨hname, -⟩
    · exact h
    · exact absurd hname (by decide)
    · exact absurd hname (by decide)
  · rintro ⟨parts, ⟨items, rfl, h⟩, rfl⟩
    exact .all h

theorem denotes_or_iff :
    Denotes (.object [("or", raw)]) e ↔
      ∃ parts, Parts Denotes raw parts ∧ Filter.any parts = e := by
  constructor
  · intro h
    rcases h.named (by decide) with ⟨hname, -⟩ | ⟨-, h⟩ | ⟨hname, -⟩
    · exact absurd hname (by decide)
    · exact h
    · exact absurd hname (by decide)
  · rintro ⟨parts, ⟨items, rfl, h⟩, rfl⟩
    exact .any h

theorem denotes_not_iff :
    Denotes (.object [("not", raw)]) e ↔
      ∃ part, OnlyPart Denotes raw part ∧ Filter.not part = e := by
  constructor
  · intro h
    rcases h.named (by decide) with ⟨hname, -⟩ | ⟨hname, -⟩ | ⟨-, h⟩
    · exact absurd hname (by decide)
    · exact absurd hname (by decide)
    · exact h
  · rintro ⟨part, ⟨item, rfl, h⟩ | ⟨hlist, h⟩, rfl⟩
    · exact .notItem h
    · exact .notValue hlist h

theorem groupOf?_eq_none_iff :
    groupOf? members = none ↔ ∀ group ∈ groups, Json.find? group members = none := by
  rw [groupOf?, List.findSome?_eq_none_iff]
  simp only [Option.map_eq_none_iff]
  rfl

theorem mem_of_groupOf?_eq_some (h : groupOf? members = some (group, raw)) :
    group ∈ groups ∧ Json.find? group members = some raw := by
  obtain ⟨name, hname, hfound⟩ := List.exists_of_findSome?_eq_some h
  obtain ⟨v, hv, heq⟩ := Option.map_eq_some_iff.mp hfound
  obtain ⟨rfl, rfl⟩ := Prod.mk.inj heq
  exact ⟨hname, hv⟩

/-- The name of a group stands alone in its object. -/
theorem Denotes.length_eq_one (h : Denotes (.object members) e) (hgroup : group ∈ groups)
    (hraw : Json.find? group members = some raw) : members.length = 1 := by
  cases h with
  | all | any | notItem | notValue => rfl
  | field hnone => cases (hnone group hgroup).symm.trans hraw
  | path hnone => cases (hnone group hgroup).symm.trans hraw

theorem eq_singleton_of_find? (hlength : members.length = 1)
    (hraw : Json.find? group members = some raw) : members = [(group, raw)] := by
  obtain ⟨⟨name, v⟩, rfl⟩ := List.length_eq_one_iff.mp hlength
  rw [Json.find?] at hraw
  split_ifs at hraw with hname
  · obtain rfl := Option.some.inj hraw
    rw [hname]
  · cases hraw

end

/-! ### One filter only -/

mutual

/-- A tree stands for one filter only. -/
theorem Denotes.unique {v : Json} {e e' : Filter} (h : Denotes v e) (h' : Denotes v e') :
    e = e' := by
  cases e with
  | all parts =>
    cases h with
    | list h =>
      obtain ⟨parts', ⟨items, hitems, hparts⟩, rfl⟩ := denotes_list_iff.mp h'
      obtain rfl := Json.list.inj hitems
      rw [denotes_unique_each h hparts]
    | all h =>
      obtain ⟨parts', ⟨items, hitems, hparts⟩, rfl⟩ := denotes_and_iff.mp h'
      obtain rfl := Json.list.inj hitems
      rw [denotes_unique_each h hparts]
  | any parts =>
    cases h with
    | any h =>
      obtain ⟨parts', ⟨items, hitems, hparts⟩, rfl⟩ := denotes_or_iff.mp h'
      obtain rfl := Json.list.inj hitems
      rw [denotes_unique_each h hparts]
  | not part =>
    obtain ⟨raw, rfl, honly⟩ : ∃ raw, v = .object [("not", raw)] ∧ OnlyPart Denotes raw part := by
      cases h with
      | notItem h => exact ⟨_, rfl, .inl ⟨_, rfl, h⟩⟩
      | notValue hlist h => exact ⟨_, rfl, .inr ⟨hlist, h⟩⟩
    obtain ⟨part', honly', rfl⟩ := denotes_not_iff.mp h'
    rcases honly with ⟨item, rfl, hpart⟩ | ⟨hlist, hpart⟩
    · rcases honly' with ⟨item', hitem, hpart'⟩ | ⟨hlist', -⟩
      · obtain rfl := List.head_eq_of_cons_eq (Json.list.inj hitem)
        rw [hpart.unique hpart']
      · cases hlist'
    · rcases honly' with ⟨item', rfl, -⟩ | ⟨-, hpart'⟩
      · cases hlist
      · rw [hpart.unique hpart']
  | field name c =>
    cases h with
    | field hgroup hname hc =>
      rcases h'.leaf hgroup with ⟨name', c', rfl, hname', hc'⟩ | ⟨_, _, _, -, hnone, -⟩
      · obtain rfl := Json.text.inj (Option.some.inj (hname.symm.trans hname'))
        rw [hc.unique hc']
      · cases hname.symm.trans hnone
  | path origin key c =>
    cases h with
    | path hgroup hfield hpath _ hc =>
      rcases h'.leaf hgroup with ⟨_, _, -, hname', -⟩ | ⟨origin', key', c', rfl, -, hpath', -, hc'⟩
      · cases hfield.symm.trans hname'
      · have heq := List.cons.inj (Json.list.inj (Option.some.inj (hpath.symm.trans hpath')))
        have horigin : origin = origin' :=
          Option.some.inj ((ofName?_eq_some_iff.mpr rfl).symm.trans
            (ofName?_eq_some_iff.mpr (Json.text.inj heq.1)))
        have hkey : key = key' := Json.text.inj (List.cons.inj heq.2).1
        rw [horigin, hkey, hc.unique hc']

theorem denotes_unique_each {items : List Json} {parts parts' : List Filter}
    (h : List.Forall₂ Denotes items parts) (h' : List.Forall₂ Denotes items parts') :
    parts = parts' := by
  cases parts with
  | nil =>
    cases h
    cases h'
    rfl
  | cons part rest =>
    cases h with
    | cons hpart hrest =>
      cases h' with
      | cons hpart' hrest' => rw [hpart.unique hpart', denotes_unique_each hrest hrest']

end

/-! ### Reading -/

section

variable {levels : Nat} {node : FilterPath → Json → Parse Filter}
  (hnode : ∀ place v, Reads (node place v) (Readable levels v) fun e => e.nodes.length)

include hnode

theorem parseGroup_reads (place : FilterPath) (raw : Json) :
    Reads (parseGroup node place raw) (Parts (Readable levels) raw)
      fun parts => (nodesOf parts).length := by
  cases raw with
  | list items =>
    refine (parseItems_reads hnode place 0 items).congr fun parts => ?_
    simp only [Parts, Json.list.injEq, exists_eq_left']
  | _ => exact .fail fun parts ⟨items, hitems, _⟩ => by cases hitems

theorem parseNot_reads (place : FilterPath) (raw : Json) :
    Reads (parseNot node place raw) (OnlyPart (Readable levels) raw) fun e => e.nodes.length := by
  have hvalue (v : Json) (hlist : v.list? = none) :
      Reads (node place v) (OnlyPart (Readable levels) v) fun e => e.nodes.length := by
    refine (hnode place v).congr fun e => ⟨fun he => .inr ⟨hlist, he⟩, ?_⟩
    rintro (⟨item, rfl, -⟩ | ⟨-, he⟩)
    · cases hlist
    · exact he
  cases raw with
  | list items =>
    match items with
    | [item] =>
      refine (hnode place item).congr fun e => ⟨fun he => .inl ⟨item, rfl, he⟩, ?_⟩
      rintro (⟨other, hitems, he⟩ | ⟨hlist, -⟩)
      · obtain rfl := List.head_eq_of_cons_eq (Json.list.inj hitems)
        exact he
      · cases hlist
    | [] | _ :: _ :: _ =>
      refine .fail fun e he => ?_
      rcases he with ⟨other, hitems, -⟩ | ⟨hlist, -⟩
      · cases hitems
      · cases hlist
  | null => exact hvalue _ rfl
  | bool b => exact hvalue _ rfl
  | number n => exact hvalue _ rfl
  | text s => exact hvalue _ rfl
  | object members => exact hvalue _ rfl

theorem parseObject_reads (place : FilterPath) (members : List (String × Json)) :
    Reads (parseObject node place members) (Readable (levels + 1) (.object members))
      fun e => e.nodes.tail.length := by
  unfold parseObject
  cases hgroup : groupOf? members with
  | none =>
    have hnone := groupOf?_eq_none_iff.mp hgroup
    refine .lift (fun e => (parseLeaf_eq_ok_iff hnone).trans (readable_leaf_iff hnone).symm) ?_
    intro e he
    rcases he.1.leaf hnone with ⟨name, c, rfl, -⟩ | ⟨origin, key, c, rfl, -⟩
    · rfl
    · rfl
  | some found =>
    obtain ⟨group, raw⟩ := found
    obtain ⟨hname, hraw⟩ := mem_of_groupOf?_eq_some hgroup
    simp only
    split_ifs with hlength hand hor
    · exact .fail fun e he => hlength (he.1.length_eq_one hname hraw)
    · obtain rfl := eq_singleton_of_find? (not_not.mp hlength) hraw
      subst hand
      exact .map Filter.all (parseGroup_reads hnode _ raw)
        (fun e => readable_all_iff fun e => denotes_and_iff) fun _ => rfl
    · obtain rfl := eq_singleton_of_find? (not_not.mp hlength) hraw
      subst hor
      exact .map Filter.any (parseGroup_reads hnode _ raw)
        (fun e => readable_any_iff fun e => denotes_or_iff) fun _ => rfl
    · obtain rfl := eq_singleton_of_find? (not_not.mp hlength) hraw
      have hnot : group = "not" := by simpa [groups, hand, hor] using hname
      subst hnot
      exact .map Filter.not (parseNot_reads hnode _ raw)
        (fun e => readable_not_iff fun e => denotes_not_iff) fun _ => rfl

end

theorem parseNode_reads (levels : Nat) (place : FilterPath) (v : Json) :
    Reads (parseNode levels place v) (Readable levels v) fun e => e.nodes.length := by
  induction levels generalizing place v with
  | zero =>
    -- without a level left the visit fails, and no filter is that shallow
    constructor
    · intro s t e hs hrun
      obtain ⟨_, u, -, hfail⟩ := run_bind_ok_iff.mp hrun
      cases (Prod.mk.inj hfail).1
    · intro s e hs he
      exact absurd he.2.1 (Nat.not_le.mpr e.depth_pos)
  | succ levels ih =>
    refine .visit (Nat.sub_le _ _) ?_ fun e => congrArg List.length e.nodes_eq_cons
    cases v with
    | list items =>
      exact .map Filter.all (parseGroup_reads ih place (.list items))
        (fun e => readable_all_iff fun e => denotes_list_iff) fun _ => rfl
    | object members => exact parseObject_reads ih place members
    | _ => exact .fail fun e he => by cases he.1

theorem visits_start_within : Visits.start.Within := ⟨Nat.zero_le _, Nat.zero_le _⟩

/-- What is read stands for the filter, which keeps within the limits. -/
theorem denotes_of_parse {v : Json} {e : Filter} (h : parse v = .ok e) :
    Denotes v e ∧ e.Within := by
  have hrun : (parseNode maxDepth [] v).run.run .start = (.ok e, (parseCounting v).2) :=
    Prod.ext h rfl
  obtain ⟨⟨hdenotes, hdepth, heach⟩, hwithin, hnodes⟩ :=
    (parseNode_reads maxDepth [] v).sound visits_start_within hrun
  have hcount : e.nodes.length ≤ maxNodes := by
    rw [Visits.start, Nat.zero_add] at hnodes
    exact hnodes ▸ hwithin.1
  exact ⟨hdenotes, hcount, hdepth, heach⟩

/-- What stands for a filter within the limits is read as this filter. -/
theorem Denotes.parse {v : Json} {e : Filter} (h : Denotes v e) (hwithin : e.Within) :
    parse v = .ok e := by
  have hroom : Visits.start.nodes + e.nodes.length ≤ maxNodes := by
    rw [Visits.start, Nat.zero_add]
    exact hwithin.count
  obtain ⟨t, ht⟩ := (parseNode_reads maxDepth [] v).complete visits_start_within
    ⟨h, hwithin.depth, hwithin.each⟩ hroom
  exact congrArg Prod.fst ht

/-- **The parser accepts exactly its grammar.**  A JSON tree is read exactly as the filters that it
stands for and that keep within the limits. -/
theorem parse_eq_ok_iff (v : Json) (e : Filter) : parse v = .ok e ↔ Denotes v e ∧ e.Within :=
  ⟨denotes_of_parse, fun h => h.1.parse h.2⟩

example : parse (.object [("not", .list [.object [("field", .text "author"), ("op", .text "Like"),
      ("value", .list [.null])]])]) =
    .ok (.not (.field "author" ⟨.contains, none, some [.null]⟩)) := by rfl

end CorpusAgent.Filter
