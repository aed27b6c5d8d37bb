import Mathlib.Data.List.MinMax
import Mathlib.Data.Prod.Lex
import Beyond.Inference.Peers

/-!
# The peer that is selected

`Prepare` walks once over the peers and remembers the last one that was better than all before it.  Here
the walk is compared with `List.argmax`, which takes the first of the best elements of a list, for the
order of the pairs of free memory and free storage in which memory comes first.
-/

namespace Beyond
namespace Inference
namespace Peers

variable {π η ρ : Type*}

/-! ## Ranks -/

def Info.rank (i : Info) : ℕ ×ₗ ℕ := toLex (i.freeMemory, i.freeStorage)

def Selected.rank (selected : Selected π) : ℕ ×ₗ ℕ :=
  toLex (selected.freeMemory, selected.freeStorage)

/-- A peer without an info is below all others. -/
def rank (info : π → Option Info) (p : π) : WithBot (ℕ ×ₗ ℕ) :=
  match info p with
  | none => ⊥
  | some i => i.rank

/-- Where the loop starts. -/
def zero : ℕ ×ₗ ℕ := toLex (0, 0)

/-! ## The property -/

/-- `p` has an info above zero, no other is above it, and `p` is the earliest of those that reach it. -/
structure Best [DecidableEq π] (info : π → Option Info) (peers : List π) (p : π) (i : Info) : Prop where
  mem : p ∈ peers
  known : info p = some i
  above : zero < i.rank
  maximal : ∀ q ∈ peers, ∀ j, info q = some j → j.rank ≤ i.rank
  earliest : ∀ q ∈ peers, ∀ j, info q = some j → i.rank ≤ j.rank → peers.idxOf p ≤ peers.idxOf q

/-- The best peer, or the first one if no info is above zero. -/
def Chosen [DecidableEq π] (info : π → Option Info) (first : π) (rest : List π) (p : π) : Prop :=
  (∃ i, Best info (first :: rest) p i) ∨
    (∀ q ∈ first :: rest, ∀ i, info q = some i → i.rank = zero) ∧ p = first

/-! ## The loop -/

section Loop

variable {info : π → Option Info} {selected : Selected π} {peers : List π} {p : π}

theorem zero_le (x : ℕ ×ₗ ℕ) : zero ≤ x := by
  rw [zero, Prod.Lex.le_iff]
  rcases Nat.eq_zero_or_pos (ofLex x).1 with hmemory | hmemory
  · exact Or.inr ⟨hmemory.symm, Nat.zero_le _⟩
  · exact Or.inl hmemory

/-- The two comparisons of the loop are one. -/
theorem selected_rank_lt_iff (selected : Selected π) (i : Info) :
    selected.rank < i.rank ↔ i.freeMemory > selected.freeMemory ∨
      i.freeMemory = selected.freeMemory ∧ i.freeStorage > selected.freeStorage := by
  rw [Selected.rank, Info.rank, Prod.Lex.lt_iff]
  exact or_congr_right (and_congr_left' eq_comm)

theorem consider_of_lt {i : Info} (hi : info p = some i) (hlt : selected.rank < i.rank) :
    consider info selected p = ⟨i.freeStorage, i.freeMemory, some p⟩ := by
  unfold consider
  rw [hi]
  dsimp only
  rcases (selected_rank_lt_iff selected i).1 hlt with hmemory | hstorage
  · rw [if_pos hmemory]
  · rw [if_pos hstorage, ite_self]

theorem consider_of_not_lt {i : Info} (hi : info p = some i) (hlt : ¬selected.rank < i.rank) :
    consider info selected p = selected := by
  rw [selected_rank_lt_iff, not_or] at hlt
  unfold consider
  rw [hi]
  dsimp only
  rw [if_neg hlt.1, if_neg hlt.2]

theorem consider_of_none (hp : info p = none) : consider info selected p = selected := by
  unfold consider
  rw [hp]

/-- What the loop has found in the peers that it has seen. -/
inductive Found (info : π → Option Info) (peers : List π) : Selected π → Prop
  | nothing (hzero : ∀ q ∈ peers, rank info q ≤ zero) : Found info peers ⟨0, 0, none⟩
  | best {p : π} {i : Info} (hbest : peers.argmax (rank info) = some p) (hi : info p = some i)
      (habove : zero < i.rank) : Found info peers ⟨i.freeStorage, i.freeMemory, some p⟩

theorem rank_eq {i : Info} (hi : info p = some i) : rank info p = i.rank := by
  rw [rank, hi]

theorem rank_bot (hi : info p = none) : rank info p = ⊥ := by
  rw [rank, hi]

/-- The latest element takes over exactly if it is above the best one so far. -/
theorem argmax_append_of_lt {q : π} (hbelow : ∀ p ∈ peers, rank info p < rank info q) :
    (peers ++ [q]).argmax (rank info) = some q := by
  rw [List.argmax_concat]
  cases hbest : peers.argmax (rank info) with
  | none => rfl
  | some p => exact if_pos (hbelow p (List.argmax_mem hbest))

theorem argmax_append_of_le {q : π} (hbest : peers.argmax (rank info) = some p)
    (hle : rank info q ≤ rank info p) : (peers ++ [q]).argmax (rank info) = some p := by
  rw [List.argmax_concat, hbest]
  exact if_neg (not_lt_of_ge hle)

theorem found_consider (h : Found info peers selected) (q : π) :
    Found info (peers ++ [q]) (consider info selected q) := by
  cases hq : info q with
  | none =>
      rw [consider_of_none hq]
      have hbot := rank_bot hq
      cases h with
      | nothing hzero =>
          refine .nothing fun p hp => ?_
          rcases List.mem_append.1 hp with hold | hnew
          · exact hzero p hold
          · rw [List.mem_singleton.1 hnew, hbot]
            exact bot_le
      | best hbest hi habove =>
          exact .best (argmax_append_of_le hbest (hbot ▸ bot_le)) hi habove
  | some j =>
      by_cases hlt : selected.rank < j.rank
      · rw [consider_of_lt hq hlt]
        have hbelow : zero < j.rank ∧ ∀ p ∈ peers, rank info p < rank info q := by
          rw [rank_eq hq]
          cases h with
          | nothing hzero =>
              exact ⟨hlt, fun p hp => lt_of_le_of_lt (hzero p hp) (WithBot.coe_lt_coe.2 hlt)⟩
          | best hbest hi habove =>
              refine ⟨habove.trans hlt, fun p hp => ?_⟩
              have hle := List.le_of_mem_argmax hp hbest
              rw [rank_eq hi] at hle
              exact lt_of_le_of_lt hle (WithBot.coe_lt_coe.2 hlt)
        exact .best (argmax_append_of_lt hbelow.2) hq hbelow.1
      · rw [consider_of_not_lt hq hlt]
        cases h with
        | nothing hzero =>
            refine .nothing fun p hp => ?_
            rcases List.mem_append.1 hp with hold | hnew
            · exact hzero p hold
            · rw [List.mem_singleton.1 hnew, rank_eq hq]
              exact WithBot.coe_le_coe.2 (not_lt.1 hlt)
        | best hbest hi habove =>
            refine .best (argmax_append_of_le hbest ?_) hi habove
            rw [rank_eq hq, rank_eq hi]
            exact WithBot.coe_le_coe.2 (not_lt.1 hlt)

/-- The whole loop. -/
theorem found_foldl (info : π → Option Info) (peers : List π) :
    Found info peers (peers.foldl (consider info) ⟨0, 0, none⟩) := by
  induction peers using List.reverseRecOn with
  | nil => exact .nothing fun q hq => absurd hq List.not_mem_nil
  | append_singleton peers q ih =>
      rw [List.foldl_append]
      exact found_consider ih q

end Loop

/-! ## Selection -/

section Selection

variable [DecidableEq π]

theorem chosen_select (info : π → Option Info) (first : π) (rest : List π) :
    Chosen info first rest (select info first rest) := by
  unfold select
  generalize hselected : (first :: rest).foldl (consider info) ⟨0, 0, none⟩ = selected
  have hfound := found_foldl info (first :: rest)
  rw [hselected] at hfound
  cases hfound with
  | nothing hzero =>
      refine Or.inr ⟨fun q hq i hi => ?_, rfl⟩
      have hle := hzero q hq
      rw [rank_eq hi] at hle
      exact le_antisymm (WithBot.coe_le_coe.1 hle) (zero_le _)
  | @best p i hbest hi habove =>
      rcases List.argmax_eq_some_iff.1 hbest with ⟨hmem, hmax, hfirst⟩
      refine Or.inl ⟨i, hmem, hi, habove, fun q hq j hj => ?_, fun q hq j hj hle => ?_⟩
      · have hle := hmax q hq
        rw [rank_eq hi, rank_eq hj] at hle
        exact WithBot.coe_le_coe.1 hle
      · apply hfirst q hq
        rw [rank_eq hi, rank_eq hj]
        exact WithBot.coe_le_coe.2 hle

variable [DecidableEq ρ]

/-- A `Prepare` that has to select a peer takes the best one, and only after the pending model was loaded on
it. -/
theorem prepare_best (s : State π η ρ) (r : ρ) (info : π → Option Info) (load ret : Int) {first : π}
    {rest : List π} {modelFile : String} (hself : s.remote r = ⟨none, first :: rest, modelFile⟩) :
    ∃ p, Chosen info first rest p ∧
      ((modelFile ≠ "" ∧ load < 0 ∧ prepare s r info load ret = ⟨s, load, none⟩) ∨
        ((modelFile ≠ "" → 0 ≤ load) ∧ ∃ t, prepare s r info load ret = ⟨t, ret, some p⟩ ∧
          t.remote r = ⟨some p, first :: rest, ""⟩ ∧
          t.loaded = if modelFile = "" then s.loaded
            else Function.update s.loaded p (some modelFile))) := by
  refine ⟨select info first rest, chosen_select info first rest, ?_⟩
  unfold prepare
  rw [hself]
  dsimp only
  by_cases hfile : modelFile = ""
  · subst hfile
    refine Or.inr ⟨fun h => absurd rfl h, _, rfl, ?_, rfl⟩
    exact Function.update_self ..
  · rw [if_pos hfile, if_neg hfile]
    by_cases hload : load < 0
    · rw [if_pos hload]
      exact Or.inl ⟨hfile, hload, rfl⟩
    · rw [if_neg hload]
      refine Or.inr ⟨fun _ => not_lt.1 hload, _, rfl, ?_, rfl⟩
      exact Function.update_self ..

/-- Three peers and a pending model. -/
def threePeers : State Nat Unit Unit :=
  { State.initial with remote := fun _ => ⟨none, [0, 1, 2], "model"⟩ }

/-- The first of these peers has no info, and the others have the same. -/
def sameInfo : Nat → Option Info
  | 0 => none
  | _ => some ⟨512, 64⟩

theorem prepare_best_threePeers :
    ∃ p, Chosen sameInfo 0 [1, 2] p ∧
      (("model" ≠ "" ∧ (0 : Int) < 0 ∧
          prepare threePeers () sameInfo 0 0 = ⟨threePeers, 0, none⟩) ∨
        (("model" ≠ "" → (0 : Int) ≤ 0) ∧ ∃ t, prepare threePeers () sameInfo 0 0 = ⟨t, 0, some p⟩ ∧
          t.remote () = ⟨some p, [0, 1, 2], ""⟩ ∧
          t.loaded = if "model" = "" then threePeers.loaded
            else Function.update threePeers.loaded p (some "model"))) :=
  prepare_best threePeers () sameInfo 0 0 rfl

example : select sameInfo 0 [1, 2] = 1 := by decide

end Selection

end Peers
end Inference
end Beyond
