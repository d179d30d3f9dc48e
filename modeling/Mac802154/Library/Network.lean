import Mathlib.Data.List.Induction
import Mathlib.Logic.Function.Basic

namespace Mac802154.Library

universe u

-- A node of a network: how it moves by itself, what it has emitted so far, and
-- how it takes in what reaches it, with what the way there adds to it (`ν`).
structure Station (S : Type u) (μ F ν : Type) where
  step : μ → S → S
  emitted : S → List F
  receive : F → ν → S → S

inductive StationMove (μ F ν : Type) where
  | own (m : μ)
  | receive (f : F) (noise : ν)

-- The network may deliver what a node has emitted to any node, any number of
-- times, in any order and at any time after that, or never.
inductive NetworkMove (ι μ ν : Type) where
  | own (i : ι) (m : μ)
  | deliver (i : ι) (k : Nat) (noise : ν) (j : ι)

variable {ι μ F ν : Type} {S : Type u} (station : Station S μ F ν)

namespace Station

def move (s : S) : StationMove μ F ν → S
  | .own m => station.step m s
  | .receive f noise => station.receive f noise s

def run (s : S) (moves : List (StationMove μ F ν)) : S :=
  moves.foldl station.move s

-- What has been emitted stays emitted.
structure Keeps : Prop where
  step : ∀ m s, station.emitted s ⊆ station.emitted (station.step m s)
  receive : ∀ f noise s, station.emitted s ⊆ station.emitted (station.receive f noise s)

end Station

namespace Network

variable [DecidableEq ι]

def move (nodes : ι → S) : NetworkMove ι μ ν → ι → S
  | .own i m => Function.update nodes i (station.step m (nodes i))
  | .deliver i k noise j =>
      match (station.emitted (nodes i))[k]? with
      | some f => Function.update nodes j (station.receive f noise (nodes j))
      | none => nodes

def run (nodes : ι → S) (moves : List (NetworkMove ι μ ν)) : ι → S :=
  moves.foldl (move station) nodes

-- At any node, a move of the network is nothing, a move of its own, or the
-- receipt of something that some node has emitted.
theorem move_cases (nodes : ι → S) (m : NetworkMove ι μ ν) (i : ι) :
    move station nodes m i = nodes i ∨ (∃ own, move station nodes m i = station.step own (nodes i)) ∨
      ∃ j, ∃ f ∈ station.emitted (nodes j), ∃ noise,
        move station nodes m i = station.receive f noise (nodes i) := by
  cases m with
  | own j own =>
      by_cases h : i = j
      · subst h
        exact .inr (.inl ⟨own, Function.update_self i _ nodes⟩)
      · exact .inl (Function.update_of_ne h _ nodes)
  | deliver j k noise i' =>
      cases hf : (station.emitted (nodes j))[k]? with
      | none =>
          simp only [move, hf, true_or]
      | some f =>
          simp only [move, hf]
          by_cases h : i = i'
          · subst h
            exact .inr (.inr ⟨j, f, List.mem_of_getElem? hf, noise, Function.update_self i _ nodes⟩)
          · exact .inl (Function.update_of_ne h _ nodes)

variable {station}

theorem emitted_move (h : station.Keeps) (nodes : ι → S) (m : NetworkMove ι μ ν) (i : ι) :
    station.emitted (nodes i) ⊆ station.emitted (move station nodes m i) := by
  rcases move_cases station nodes m i with he | ⟨own, he⟩ | ⟨j, f, -, noise, he⟩
  · rw [he]
    exact fun _ hf => hf
  · rw [he]
    exact h.step own (nodes i)
  · rw [he]
    exact h.receive f noise (nodes i)

-- Seen from one node, a run of the network is a run of that node alone, and all
-- that it receives has been emitted by some node.
theorem run_station (h : station.Keeps) (nodes : ι → S) (moves : List (NetworkMove ι μ ν)) (i : ι) :
    ∃ seen, run station nodes moves i = station.run (nodes i) seen ∧
      ∀ f noise, .receive f noise ∈ seen → ∃ j, f ∈ station.emitted (run station nodes moves j) := by
  induction moves using List.reverseRecOn with
  | nil => exact ⟨[], rfl, fun f noise hf => by cases hf⟩
  | append_singleton moves m ih =>
      obtain ⟨seen, hrun, hseen⟩ := ih
      have hlast : run station nodes (moves ++ [m]) = move station (run station nodes moves) m :=
        List.foldl_append
      rw [hlast]
      have hlater (f : F) (noise : ν) (hf : .receive f noise ∈ seen) :
          ∃ j, f ∈ station.emitted (move station (run station nodes moves) m j) := by
        obtain ⟨j, hj⟩ := hseen f noise hf
        exact ⟨j, emitted_move h _ m j hj⟩
      have hsnoc (next : StationMove μ F ν) :
          station.run (nodes i) (seen ++ [next]) = station.move (run station nodes moves i) next := by
        rw [hrun]
        exact List.foldl_append
      rcases move_cases station (run station nodes moves) m i with
        he | ⟨own, he⟩ | ⟨j, f, hf, noise, he⟩
      · exact ⟨seen, he.trans hrun, hlater⟩
      · have hnext := hsnoc (.own own)
        refine ⟨_, he.trans hnext.symm, fun f noise hf => ?_⟩
        rcases List.mem_append.mp hf with hf | hf
        · exact hlater f noise hf
        · cases List.mem_singleton.mp hf
      · have hnext := hsnoc (.receive f noise)
        refine ⟨_, he.trans hnext.symm, fun f' noise' hf' => ?_⟩
        rcases List.mem_append.mp hf' with hf' | hf'
        · exact hlater f' noise' hf'
        · cases List.mem_singleton.mp hf'
          exact ⟨j, emitted_move h _ m j hf⟩

end Network

end Mac802154.Library
