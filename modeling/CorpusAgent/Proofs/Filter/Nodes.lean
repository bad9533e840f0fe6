import CorpusAgent.Proofs.Filter.Faults

/-!
# The nodes of a filter tree

What a reading visits, before anything is read.

* `partsOf`: the parts of a node, each with the steps to it and with what its place adds.
* `Node.nodes`: a node and all below it in document order.
* `Node.exists_of_mem_nodes`: the steps of a node lead to it, and so does its place as errors write
  it unless a `not` over a list of one item is on the way.
-/

namespace CorpusAgent.Filter

/-! ### Parts -/

/-- A part of a node: the steps from the node to it, and what its place adds to that of the node. -/
structure Part where
  steps : FilterPath
  mark : FilterPath
  value : Json

/-- The items of a list from an index on, as parts. -/
def numbered (front : FilterPath) (start : Nat) (items : List Json) : List Part :=
  (items.zipIdx start).map fun (item, i) => ⟨front ++ [.index i], front ++ [.index i], item⟩

/-- The part under `not`.  In a list of one item its place has no index. -/
def partsOfNot : Json → List Part
  | .list [item] => [⟨[.name "not", .index 0], [.name "not"], item⟩]
  | .list _ => []
  | v => [⟨[.name "not"], [.name "not"], v⟩]

/-- The parts of a node. -/
def partsOf : Json → List Part
  | .list items => numbered [] 0 items
  | .object members =>
    match groupOf? members with
    | some (group, raw) =>
      if group = "not" then partsOfNot raw else numbered [.name group] 0 (raw.list?.getD [])
    | none => []
  | _ => []

/-- A `not` over a list of one item. -/
def ListedNot (v : Json) : Prop := ∃ item, v.member? "not" = some (.list [item])

section

variable {v : Json} {p : Part}

theorem exists_of_mem_numbered {front : FilterPath} {start : Nat} {items : List Json}
    (h : p ∈ numbered front start items) :
    ∃ i, items[i]? = some p.value ∧ p.steps = front ++ [.index (start + i)] ∧ p.mark = p.steps := by
  obtain ⟨⟨item, j⟩, hitem, rfl⟩ := List.mem_map.mp h
  obtain ⟨hle, hget⟩ := List.mem_zipIdx_iff_le_and_getElem?_sub.mp hitem
  exact ⟨j - start, hget, by rw [Nat.add_sub_cancel' hle], rfl⟩

/-- The steps of a part lead to it, and its place has them all unless it stands in a list of one
item under `not`. -/
theorem at?_of_mem_partsOf (h : p ∈ partsOf v) :
    v.at? p.steps = some p.value ∧ p.steps ≠ [] ∧ (p.mark = p.steps ∨ ListedNot v) := by
  cases v with
  | list items =>
    obtain ⟨i, hitem, hsteps, hmark⟩ := exists_of_mem_numbered h
    rw [Nat.zero_add, List.nil_append] at hsteps
    rw [hmark, hsteps]
    exact ⟨Json.at?_item hitem [], List.cons_ne_nil _ _, .inl rfl⟩
  | object members =>
    rw [partsOf] at h
    split at h
    case h_2 => cases h
    rename_i group raw hgroup
    have hraw := (mem_of_groupOf?_eq_some hgroup).2
    split_ifs at h with hnot
    · subst hnot
      rw [partsOfNot.eq_def] at h
      split at h
      · obtain rfl := List.mem_singleton.mp h
        exact ⟨Json.at?_member hraw _, List.cons_ne_nil _ _, .inr ⟨_, hraw⟩⟩
      · cases h
      · obtain rfl := List.mem_singleton.mp h
        exact ⟨Json.at?_member hraw [], List.cons_ne_nil _ _, .inl rfl⟩
    · obtain ⟨i, hitem, hsteps, hmark⟩ := exists_of_mem_numbered h
      cases raw with
      | list items =>
        rw [Nat.zero_add] at hsteps
        rw [hmark, hsteps]
        exact ⟨(Json.at?_member hraw _).trans (Json.at?_item hitem []),
          List.append_ne_nil_of_left_ne_nil (List.cons_ne_nil _ _) _, .inl rfl⟩
      | _ => cases hitem
  | _ => cases h

theorem sizeOf_lt_of_step? {w : Json} {step : PathStep} (h : v.step? step = some w) :
    sizeOf w < sizeOf v := by
  rw [Json.step?.eq_def] at h
  split at h
  · have hlt := List.sizeOf_lt_of_mem (List.mem_of_getElem? h)
    rw [Json.list.sizeOf_spec]
    omega
  · rename_i members name
    rw [Json.object.sizeOf_spec]
    induction members with
    | nil => cases h
    | cons m rest ih =>
      obtain ⟨key, raw⟩ := m
      rw [Json.find?] at h
      rw [List.cons.sizeOf_spec, Prod.mk.sizeOf_spec]
      split_ifs at h
      · obtain rfl := Option.some.inj h
        omega
      · have hlt := ih h
        omega
  · cases h

theorem sizeOf_le_of_at? {w : Json} {steps : FilterPath} (h : v.at? steps = some w) :
    sizeOf w ≤ sizeOf v := by
  induction steps generalizing v with
  | nil => exact Option.some.inj h ▸ Nat.le_refl _
  | cons step rest ih =>
    obtain ⟨u, hu, hw⟩ := Option.bind_eq_some_iff.mp h
    exact Nat.le_trans (ih hw) (Nat.le_of_lt (sizeOf_lt_of_step? hu))

theorem sizeOf_lt_of_mem_partsOf (h : p ∈ partsOf v) : sizeOf p.value < sizeOf v := by
  obtain ⟨hat, hsteps, -⟩ := at?_of_mem_partsOf h
  obtain ⟨step, rest, hcons⟩ := List.exists_cons_of_ne_nil hsteps
  rw [hcons] at hat
  obtain ⟨u, hu, hw⟩ := Option.bind_eq_some_iff.mp hat
  exact Nat.lt_of_le_of_lt (sizeOf_le_of_at? hw) (sizeOf_lt_of_step? hu)

end

/-! ### Nodes -/

/-- A node in a tree. -/
structure Node where
  /-- Where it is, as errors write it. -/
  place : FilterPath
  /-- The steps to it. -/
  steps : FilterPath
  level : Nat
  value : Json

namespace Node

/-- A tree as a node of its own. -/
def root (v : Json) : Node := ⟨[], [], 1, v⟩

def part (n : Node) (p : Part) : Node :=
  ⟨n.place ++ p.mark, n.steps ++ p.steps, n.level + 1, p.value⟩

/-- A node and all below it, in document order. -/
def nodes (n : Node) : List Node :=
  n :: (partsOf n.value).attach.flatMap fun p => (n.part p.1).nodes
termination_by sizeOf n.value
decreasing_by exact sizeOf_lt_of_mem_partsOf p.2

theorem nodes_eq (n : Node) :
    n.nodes = n :: (partsOf n.value).flatMap fun p => (n.part p).nodes := by
  rw [nodes, List.flatMap_subtype (g := fun p => (n.part p).nodes) fun _ _ => rfl,
    List.unattach_attach]

end Node

/-! ### Ways -/

/-- No `not` over a list of one item is on the way. -/
def Plain (v : Json) (steps : FilterPath) : Prop :=
  ∀ front step rest w, steps = front ++ step :: rest → v.at? front = some w → ¬ListedNot w

theorem Plain.after {v w : Json} {front rest : FilterPath} (h : Plain v (front ++ rest))
    (hw : v.at? front = some w) : Plain w rest := by
  rintro inner step more u rfl hu
  refine h (front ++ inner) step more u (List.append_assoc ..).symm ?_
  rw [Json.at?_append, hw]
  exact hu

theorem Plain.not_listedNot {v : Json} {front rest : FilterPath} (h : Plain v (front ++ rest))
    (hfront : front ≠ []) : ¬ListedNot v := by
  obtain ⟨step, more, rfl⟩ := List.exists_cons_of_ne_nil hfront
  exact h [] step (more ++ rest) v rfl rfl

/-- A node of a tree is where its steps lead, and so is its place unless a `not` over a list of one
item is on the way. -/
theorem Node.exists_of_mem_nodes {n m : Node} (h : m ∈ n.nodes) :
    ∃ rest, m.steps = n.steps ++ rest ∧ n.value.at? rest = some m.value ∧
      (Plain n.value rest → m.place = n.place ++ rest) := by
  induction n using Node.nodes.induct with
  | case1 n ih =>
    rw [nodes_eq, List.mem_cons, List.mem_flatMap] at h
    rcases h with rfl | ⟨p, hp, hm⟩
    · exact ⟨[], (List.append_nil _).symm, rfl, fun _ => (List.append_nil _).symm⟩
    · obtain ⟨hat, hsteps, hmark⟩ := at?_of_mem_partsOf hp
      obtain ⟨rest, hrest, hvalue, hplace⟩ := ih ⟨p, hp⟩ hm
      refine ⟨p.steps ++ rest, by rw [hrest, part, List.append_assoc], ?_, fun hplain => ?_⟩
      · rw [Json.at?_append, hat]
        exact hvalue
      · have hmark := hmark.resolve_right (hplain.not_listedNot hsteps)
        rw [hplace (hplain.after hat), part, hmark, List.append_assoc]

end CorpusAgent.Filter
