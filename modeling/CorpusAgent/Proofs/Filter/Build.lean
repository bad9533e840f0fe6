import CorpusAgent.Predicate
import CorpusAgent.Sql.Placeholder
import Mathlib.Data.List.Infix

/-!
# Building with bound values

An expression refers to values that are bound while it is built.  Building only adds values, so what
an expression refers to stays where it is.

* `Yields m P`: building `m` keeps the values bound before, and whatever is bound later, the result
  satisfies `P` of all values.
* `Yields.bind`: the rule for two steps; the postcondition of the first is at hand in the second.
* `lookup?_paramsOf`: the value of the placeholder of a number is the value bound under it.
-/

namespace CorpusAgent.Filter

open Sql (paramName lookup?)

variable {α β : Type}

/-- Building keeps the values bound before, and what it gives satisfies `P` of the values bound up
to any later point. -/
def Yields (m : Build α) (P : List String → α → Prop) : Prop :=
  ∀ bound : Array String, bound.toList <+: (m.run bound).2.toList ∧
    ∀ later, (m.run bound).2.toList <+: later → P later (m.run bound).1

theorem Yields.pure {a : α} {P : List String → α → Prop} (h : ∀ later, P later a) :
    Yields (Pure.pure a : Build α) P :=
  fun _ => ⟨List.prefix_refl _, fun later _ => h later⟩

theorem Yields.bind {m : Build α} {k : α → Build β} {P : List String → α → Prop}
    {Q : List String → β → Prop} (hm : Yields m P)
    (hk : ∀ a, Yields (k a) fun later b => P later a → Q later b) : Yields (m >>= k) Q := by
  intro bound
  obtain ⟨hpre, hP⟩ := hm bound
  obtain ⟨hpre', hQ⟩ := hk (m.run bound).1 (m.run bound).2
  refine ⟨hpre.trans hpre', fun later hl => hQ later hl (hP later (hpre'.trans hl))⟩

theorem Yields.mono {m : Build α} {P Q : List String → α → Prop} (hm : Yields m P)
    (h : ∀ later a, P later a → Q later a) : Yields m Q :=
  fun bound => ⟨(hm bound).1, fun later hl => h later _ ((hm bound).2 later hl)⟩

/-- The number of a bound value leads to it. -/
theorem bind_yields (value : String) :
    Yields (bind value) fun later i => later[i]? = some value := by
  intro bound
  refine ⟨⟨[value], by simp [Filter.bind, StateT.run]⟩, fun later hl => ?_⟩
  obtain ⟨rest, rfl⟩ := hl
  simp [Filter.bind, StateT.run]

theorem bindAll_yields (values : List String) :
    Yields (bindAll values) fun later is => is.map (later[·]?) = values.map some := by
  induction values with
  | nil => exact Yields.pure fun _ => rfl
  | cons value rest ih =>
    refine (bind_yields value).bind fun i => ih.bind fun is => Yields.pure fun later his hi => ?_
    simp only [List.map_cons, hi, his]

theorem paramName_inj {i j : Nat} (h : paramName i = paramName j) : i = j := by
  have hd : Nat.toDigits 10 i = Nat.toDigits 10 j := by
    simpa [paramName] using congrArg String.toList h
  rw [← Nat.ofDigitChars_ten_toDigits (n := i), hd, Nat.ofDigitChars_ten_toDigits]

theorem find?_zipIdx_paramName (values : List String) (start i : Nat) :
    (((values.zipIdx start).map fun (value, j) => (paramName j, value)).find? fun p =>
      p.1 == paramName (start + i)).map (·.2) = values[i]? := by
  induction values generalizing start i with
  | nil => rfl
  | cons value rest ih =>
    rw [List.zipIdx_cons, List.map_cons]
    cases i with
    | zero => simp
    | succ i =>
      have hne : paramName start ≠ paramName (start + (i + 1)) := fun h => by
        have := paramName_inj h
        omega
      have hstep := ih (start + 1) i
      rw [show start + 1 + i = start + (i + 1) by omega] at hstep
      rw [List.find?_cons_of_neg (by simpa using hne), hstep]
      rfl

/-- The value of a placeholder is the value bound under its number. -/
theorem lookup?_paramsOf (bound : Array String) (i : Nat) :
    lookup? (paramsOf bound) (paramName i) = bound.toList[i]? := by
  have h := find?_zipIdx_paramName bound.toList 0 i
  rwa [Nat.zero_add] at h

end CorpusAgent.Filter
