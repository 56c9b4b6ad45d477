import Mathlib.Data.List.Nodup
import Mathlib.Logic.Function.Basic

/-! # Writes of parallel threads

Threads that write cells of one store. Where no two writes share a cell, the store they leave
does not depend on who went first. -/

namespace TradingPlatform.Lib.Writes

/-- The merges of some lists: each keeps its order, whoever goes first. -/
inductive Merge {α : Type*} : List (List α) → List α → Prop
  | done {threads : List (List α)} (h : ∀ thread ∈ threads, thread = []) : Merge threads []
  | step {before after : List (List α)} {a : α} {rest trace : List α}
      (h : Merge (before ++ rest :: after) trace) : Merge (before ++ (a :: rest) :: after) (a :: trace)

theorem Merge.perm {α : Type*} {threads : List (List α)} {trace : List α}
    (h : Merge threads trace) : trace.Perm threads.flatten := by
  induction h with
  | done h => rw [List.flatten_eq_nil_iff.mpr h]
  | @step before after a rest trace _ ih =>
    simp only [List.flatten_append, List.flatten_cons, List.cons_append] at ih ⊢
    exact (ih.cons a).trans List.perm_middle.symm

/-- A thread may run to its end before the others go on. -/
theorem Merge.alone {α : Type*} {before after : List (List α)} {trace : List α}
    (h : Merge (before ++ [] :: after) trace) (thread : List α) :
    Merge (before ++ thread :: after) (thread ++ trace) := by
  induction thread with
  | nil => exact h
  | cons a rest ih => exact .step ih

variable {κ ν : Type*} [DecidableEq κ]

def write (s : κ → ν) (w : κ × ν) : κ → ν := Function.update s w.1 w.2

def run (s : κ → ν) (ws : List (κ × ν)) : κ → ν := ws.foldl write s

theorem run_of_notMem {ws : List (κ × ν)} {k : κ} (h : k ∉ ws.map Prod.fst) (s : κ → ν) :
    run s ws k = s k := by
  induction ws generalizing s with
  | nil => rfl
  | cons w ws ih =>
    rw [List.map_cons, List.mem_cons, not_or] at h
    exact (ih h.2 _).trans (Function.update_of_ne h.1 ..)

theorem run_of_mem {ws : List (κ × ν)} {k : κ} {v : ν} (hcells : (ws.map Prod.fst).Nodup)
    (h : (k, v) ∈ ws) (s : κ → ν) : run s ws k = v := by
  induction ws generalizing s with
  | nil => cases h
  | cons w ws ih =>
    obtain ⟨hw, hcells⟩ := List.nodup_cons.mp hcells
    rcases List.mem_cons.mp h with rfl | h
    · exact (run_of_notMem hw _).trans (Function.update_self ..)
    · exact ih hcells h _

end TradingPlatform.Lib.Writes
