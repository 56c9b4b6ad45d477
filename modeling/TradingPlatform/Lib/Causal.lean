import TradingPlatform.Lib.Runs
import Mathlib.Data.List.GetD
import Mathlib.Data.List.TakeDrop

/-! # Causal transforms

A transform of series is causal when the first values it gives are determined by the first
values it is given. -/

namespace TradingPlatform.Lib

open TradingPlatform.Lib.Runs

variable {α β : Type*}

def Causal (F : List α → List β) : Prop :=
  ∀ xs ys m, xs.take m = ys.take m → (F xs).take m = (F ys).take m

theorem getElem?_of_take {xs ys : List α} {m i : ℕ} (h : xs.take m = ys.take m) (hi : i < m) :
    xs[i]? = ys[i]? := by
  rw [← List.getElem?_take_of_lt hi, h, List.getElem?_take_of_lt hi]

theorem take_of_take {xs ys : List α} {m k : ℕ} (h : xs.take m = ys.take m) (hk : k ≤ m) :
    xs.take k = ys.take k := by
  rw [← Nat.min_eq_left hk, ← List.take_take, h, List.take_take]

theorem getD_of_take {xs ys : List α} {m i : ℕ} (h : xs.take m = ys.take m) (hi : i < m) (z : α) :
    xs.getD i z = ys.getD i z := by
  rw [List.getD_eq_getElem?_getD, getElem?_of_take h hi, List.getD_eq_getElem?_getD]

theorem causal_iff {F : List α → List β} :
    Causal F ↔ ∀ xs ys m, xs.take m = ys.take m → ∀ i < m, (F xs)[i]? = (F ys)[i]? := by
  refine ⟨fun h xs ys m hm i hi => getElem?_of_take (h xs ys m hm) hi, fun h xs ys m hm => ?_⟩
  refine List.ext_getElem? fun i => ?_
  rcases Nat.lt_or_ge i m with hi | hi
  · rw [List.getElem?_take_of_lt hi, List.getElem?_take_of_lt hi, h xs ys m hm i hi]
  · rw [List.getElem?_take_eq_none hi, List.getElem?_take_eq_none hi]

theorem causal_map (f : α → β) : Causal (List.map f) := by
  intro xs ys m h
  rw [← List.map_take, h, List.map_take]

/-- What a machine puts out. -/
theorem causal_outputs {σ : Type*} (step : σ → α → σ × β) (s : σ) : Causal (outputs step s) := by
  rw [causal_iff]
  intro xs ys m h i hi
  rw [getElem?_outputs, getElem?_outputs, getElem?_of_take h hi, take_of_take h hi.le]

/-- A transform that computes each value from the series up to it. -/
theorem causal_of_upTo {F : List α → List β} {g : List α → β}
    (h : ∀ xs i, (F xs)[i]? = if i < xs.length then some (g (xs.take (i + 1))) else none) :
    Causal F := by
  rw [causal_iff]
  intro xs ys m hm i hi
  have hlen : i < xs.length ↔ i < ys.length := by
    rw [← not_le, ← List.getElem?_eq_none_iff, getElem?_of_take hm hi, List.getElem?_eq_none_iff,
      not_le]
  rw [h, h, take_of_take hm hi]
  exact if_congr hlen rfl rfl

end TradingPlatform.Lib
