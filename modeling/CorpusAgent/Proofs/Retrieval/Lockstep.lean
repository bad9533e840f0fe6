import CorpusAgent.Proofs.Retrieval.Tools
import Mathlib.Data.List.Forall2

/-!
# Two runs in step

A property of two runs is proved along the parts of a run, taken together in pairs.

* `ResultAlike`: two results that both fail in the same way or both succeed alike.
* `Comparison`: when two states, two calls and the replies to two calls are alike.
* `Comparison.Agrees`: the replies to the calls of two runs are alike as long as the calls are.
* `InStep`: two parts of runs that keep states alike and have like results if the replies agree.
* `InStep.bind`: they can be put one after the other.
-/

namespace CorpusAgent.Retrieval

/-- Two results that are alike: the same failure, or values that are related. -/
inductive ResultAlike {ε α : Type} (R : α → α → Prop) : Except ε α → Except ε α → Prop
  | ok {a b : α} (h : R a b) : ResultAlike R (.ok a) (.ok b)
  | error (e : ε) : ResultAlike R (.error e) (.error e)

theorem ResultAlike.refl {ε α : Type} {R : α → α → Prop} (h : ∀ a, R a a) (x : Except ε α) :
    ResultAlike R x x := by
  cases x with
  | ok a => exact .ok (h a)
  | error e => exact .error e

theorem ResultAlike.eq {ε α : Type} {x y : Except ε α} (h : ResultAlike Eq x y) : x = y := by
  cases h with
  | ok h => rw [h]
  | error => rfl

/-- What is compared of two runs.  States that are alike come from calls that are alike, and stay
alike after one more call of each run. -/
structure Comparison where
  states : RunState → RunState → Prop
  calls : Call → Call → Prop
  /-- The replies to two calls, each after a history of calls, are alike. -/
  replies : List Call → Call → List Call → Call → Prop
  refl : ∀ s, states s s
  history : ∀ {s t}, states s t → List.Forall₂ calls s.calls t.calls
  asked : ∀ {s t c d}, states s t → calls c d → states (s.asked c) (t.asked d)

/-- As long as the calls of two runs are alike, so are the replies to them. -/
def Comparison.Agrees (K : Comparison) (calls more : List Call) : Prop :=
  ∀ before c before' d, before ++ [c] <+: calls → before' ++ [d] <+: more →
    List.Forall₂ K.calls before before' → K.calls c d → K.replies before c before' d

theorem Comparison.Agrees.of_prefix {K : Comparison} {calls calls' more more' : List Call}
    (h : K.Agrees calls' more') (hcalls : calls <+: calls') (hmore : more <+: more') :
    K.Agrees calls more :=
  fun before c before' d hc hd => h before c before' d (hc.trans hcalls) (hd.trans hmore)

/-- A part of a run only adds to the calls. -/
def Grows {α : Type} (x : RunM α) : Prop := ∀ s, s.calls <+: (x.run.run s).2.calls

/-- Two parts of runs that go in step. -/
structure InStep (K : Comparison) {α : Type} (R : α → α → Prop) (x y : RunM α) : Prop where
  left : Grows x
  right : Grows y
  alike : ∀ s t, K.states s t → K.Agrees (x.run.run s).2.calls (y.run.run t).2.calls →
    ResultAlike R (x.run.run s).1 (y.run.run t).1 ∧ K.states (x.run.run s).2 (y.run.run t).2

/-! ### Parts of runs -/

section

variable {α β : Type} {x : RunM α} {k : α → RunM β} {s u : RunState}

theorem run_bind_of_ok {a : α} (h : x.run.run s = (.ok a, u)) :
    (x >>= k).run.run s = (k a).run.run u := by
  have hbind : (x >>= k).run.run s = (ExceptT.bindCont k (x.run.run s).1).run (x.run.run s).2 := rfl
  rw [hbind, h]
  rfl

theorem run_bind_of_error {e : ServiceError} (h : x.run.run s = (.error e, u)) :
    (x >>= k).run.run s = (.error e, u) := by
  have hbind : (x >>= k).run.run s = (ExceptT.bindCont k (x.run.run s).1).run (x.run.run s).2 := rfl
  rw [hbind, h]
  rfl

theorem Grows.bind (hx : Grows x) (hk : ∀ a, Grows (k a)) : Grows (x >>= k) := by
  intro s
  have hfirst := hx s
  rcases hrun : x.run.run s with ⟨e | a, u⟩
  · rw [run_bind_of_error hrun]
    rwa [hrun] at hfirst
  · rw [run_bind_of_ok hrun]
    rw [hrun] at hfirst
    exact hfirst.trans (hk a u)

end

namespace InStep

variable {K : Comparison} {α β : Type} {R : α → α → Prop} {S : β → β → Prop}

theorem value {a b : α} (h : R a b) : InStep K R (pure a) (pure b) where
  left := fun _ => List.prefix_refl _
  right := fun _ => List.prefix_refl _
  alike := fun _ _ hst _ => ⟨.ok h, hst⟩

theorem failure (e : ServiceError) : InStep K R (throw e : RunM α) (throw e) where
  left := fun _ => List.prefix_refl _
  right := fun _ => List.prefix_refl _
  alike := fun _ _ hst _ => ⟨.error e, hst⟩

/-- Since each value is related to itself, what comes after is known to add to the calls, so that
the replies to the first parts agree if all of them do. -/
theorem bind {x y : RunM α} {k l : α → RunM β} (hR : ∀ a, R a a) (hx : InStep K R x y)
    (hk : ∀ a b, R a b → InStep K S (k a) (l b)) : InStep K S (x >>= k) (y >>= l) where
  left := hx.left.bind fun a => (hk a a (hR a)).left
  right := hx.right.bind fun b => (hk b b (hR b)).right
  alike := by
    intro s t hst hagrees
    have hfirst := hx.alike s t hst
    rcases hrun : x.run.run s with ⟨e | a, u⟩
    · rcases hrun' : y.run.run t with ⟨e' | b, v⟩
      · rw [run_bind_of_error hrun, run_bind_of_error hrun'] at hagrees ⊢
        rw [hrun, hrun'] at hfirst
        obtain ⟨hresult, hstates⟩ := hfirst hagrees
        cases hresult with
        | error => exact ⟨.error e, hstates⟩
      · rw [run_bind_of_error hrun, run_bind_of_ok hrun'] at hagrees
        rw [hrun, hrun'] at hfirst
        have hgrows := (hk b b (hR b)).right v
        cases (hfirst (hagrees.of_prefix (List.prefix_refl _) hgrows)).1
    · rcases hrun' : y.run.run t with ⟨e' | b, v⟩
      · rw [run_bind_of_ok hrun, run_bind_of_error hrun'] at hagrees
        rw [hrun, hrun'] at hfirst
        have hgrows := (hk a a (hR a)).left u
        cases (hfirst (hagrees.of_prefix hgrows (List.prefix_refl _))).1
      · rw [run_bind_of_ok hrun, run_bind_of_ok hrun'] at hagrees ⊢
        rw [hrun, hrun'] at hfirst
        have hgrows := (hk a a (hR a)).left u
        have hgrows' := (hk b b (hR b)).right v
        obtain ⟨hresult, hstates⟩ := hfirst (hagrees.of_prefix hgrows hgrows')
        cases hresult with
        | ok h => exact (hk a b h).alike u v hstates hagrees

theorem bind_eq {x y : RunM α} {k l : α → RunM β} (hx : InStep K Eq x y)
    (hk : ∀ a, InStep K S (k a) (l a)) : InStep K S (x >>= k) (y >>= l) :=
  bind (fun _ => rfl) hx fun a _ heq => heq ▸ hk a

/-- Calls that are alike go in step if replies that are alike lead to like values. -/
theorem call {c d : Call} {f g : List Call → Except ServiceError α} (hcalls : K.calls c d)
    (hreply : ∀ before before', K.replies before c before' d →
      ResultAlike R (f before) (g before')) :
    InStep K R (ask c f) (ask d g) where
  left := fun _ => List.prefix_append ..
  right := fun _ => List.prefix_append ..
  alike := fun s t hst hagrees =>
    ⟨hreply _ _ (hagrees s.calls c t.calls d (List.prefix_refl _) (List.prefix_refl _)
      (K.history hst) hcalls), K.asked hst hcalls⟩

theorem state : InStep K K.states (get : RunM RunState) get where
  left := fun _ => List.prefix_refl _
  right := fun _ => List.prefix_refl _
  alike := fun _ _ hst _ => ⟨.ok hst, hst⟩

/-- Changes that leave the calls alone and keep states alike go in step. -/
theorem change {f g : RunState → RunState} (hf : ∀ s, (f s).calls = s.calls)
    (hg : ∀ s, (g s).calls = s.calls) (h : ∀ s t, K.states s t → K.states (f s) (g t)) :
    InStep K Eq (modify f : RunM PUnit) (modify g) where
  left := fun s => (hf s).symm ▸ List.prefix_refl _
  right := fun s => (hg s).symm ▸ List.prefix_refl _
  alike := fun s t hst _ => ⟨.ok rfl, h s t hst⟩

theorem rule {x y : Except ProtocolFault α} (h : ResultAlike R x y) :
    InStep K R (obeyed x) (obeyed y) := by
  cases h with
  | ok h => exact value h
  | error fault => exact failure fault.error

end InStep

end CorpusAgent.Retrieval
