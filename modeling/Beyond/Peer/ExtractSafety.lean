import Beyond.Peer.ExtractInfo

/-!
# Which answers of the filter are extracted

`ExtractTensorInfo` weighs the digits of a rank from the wrong end, indexes its tables without a check,
fills four of five cells for a rank of four, and loses a text or the array on some of its ways out.
This module says for which answers none of that happens.
-/

namespace Beyond
namespace Peer
namespace ExtractInfo

open Bytes Inference Errno
open TensorText (comma colon)

/-! ## The property -/

/-- The filter reports a text that is not empty. -/
def Reported (prop : Option Bytes) : Prop := prop.getD [] ≠ []

instance (prop : Option Bytes) : Decidable (Reported prop) := inferInstanceAs (Decidable (_ ≠ _))

/-- The entry says what the texts say: its type, its rank, and a size that fits its dims, which were
all written. -/
structure EntryExact (r : Reply) (i : Nat) (e : Entry) : Prop where
  type : (fields (r.types.getD []))[i]?.map tensorTypeStringToType = some e.type
  rank : if Reported r.ranks then
      ∃ f rank, (fields (r.ranks.getD []))[i]? = some f ∧ number f = some rank ∧
        e.dims.size = rank + 1
    else e.dims.size = 3 + 1
  contents : ∃ values, readArray id e.dims.size e.dims.data = some values ∧
    e.size = tensorTypeToSize e.type * values.prod

/-- The call fails without a trace, or it returns an exact array. -/
def SafeAndExact (r : Reply) (info : Option Infos) (size : Int) : Except Fault Outcome → Prop
  | .error _ => False
  | .ok out =>
      (out.ret < 0 ∧ out.info = info ∧ out.size = size ∧ out.ledger.Balanced []) ∨
      ∃ infos, out.ret = 0 ∧ out.info = some infos ∧ out.size = infos.entries.length ∧
        infos.entries.length = (fields (r.types.getD [])).length ∧
        out.ledger.Balanced infos.blocks ∧
        ∀ i e, infos.entries[i]? = some e → EntryExact r i e

/-! ## The condition -/

/-- The rank for entry `i`, with its digits in reverse, or the fallback if no rank was stored. -/
def usedRank (ranks : List Bytes) (i : Nat) : Option Int :=
  if ranks = [] then some 3 else ranks[i]?.map reversed

/-- The parser for `rank` finds as many numbers in the dims of entry `i`, and their product. -/
structure Parsed (ranks dims : List Bytes) (i rank : Nat) (numbers : List Int) (p : Int) : Prop where
  used : usedRank ranks i = some (rank : Int)
  pos : 1 ≤ rank
  max : rank ≤ 4
  scan : ∃ str, dims[i]? = some str ∧ scanDims rank str = .ok numbers
  full : numbers.length = rank
  product : product numbers.reverse = .ok p

/-- Entry `i` is filled. -/
def Passes (m : Memory) (ranks dims : List Bytes) (i : Nat) (type : Int) : Prop :=
  m.dims i = true ∧ ∃ rank numbers p, Parsed ranks dims i rank numbers p ∧ 0 ≤ p ∧
    Fits (tensorTypeToSize type * p)

/-- Entry `i` is given up: there is no memory, there are too few numbers, or the product is negative. -/
def Fails (m : Memory) (ranks dims : List Bytes) (i : Nat) : Prop :=
  (m.dims i = false ∧ usedRank ranks i ≠ none) ∨
  (∃ (rank : Nat) (str : Bytes) (numbers : List Int), usedRank ranks i = some (rank : Int) ∧
    1 ≤ rank ∧ rank ≤ 4 ∧ dims[i]? = some str ∧ scanDims rank str = .ok numbers ∧
    numbers.length ≠ rank) ∨
  (∃ rank numbers p, Parsed ranks dims i rank numbers p ∧ p < 0)

/-- One, two or three, in one digit. -/
def OneDigit (field : Bytes) : Prop := field ∈ ["1", "2", "3"].map ascii

instance (field : Bytes) : Decidable (OneDigit field) := inferInstanceAs (Decidable (_ ∈ _))

/-- The fields of the ranks that are stored. -/
def storedRanks (r : Reply) : List Bytes :=
  if Reported r.ranks then rankFields [] (r.ranks.getD []) else []

/-- The entries that are reached are filled, and their ranks were written with one digit; or one of
them is given up, and not the first. -/
def EntriesExtractable (m : Memory) (r : Reply) (types dims : List Bytes) : Prop :=
  let passes i :=
    ∃ f, types[i]? = some f ∧ Passes m (storedRanks r) dims i (tensorTypeStringToType f)
  (∃ k, 0 < k ∧ k < types.length ∧ (∀ i < k, passes i) ∧ Fails m (storedRanks r) dims k) ∨
  ((∀ i < types.length, passes i) ∧
    (Reported r.ranks → ∀ i < types.length,
      ∃ f, (fields (r.ranks.getD []))[i]? = some f ∧ OneDigit f))

def Extractable (m : Memory) (r : Reply) : Prop :=
  (Reported r.ranks → RanksFit (r.ranks.getD [])) ∧
  ∀ types ∈ r.types, types ≠ [] ∧ types.length < INT_MAX ∧
    ∀ dims ∈ r.dims, dims ≠ [] ∧ dims.length < INT_MAX ∧
      (m.info = true → EntriesExtractable m r (fields types) (fields dims))

/-! ## One entry -/

/-- The cell for entry `i` that the loop writes. -/
def Filled (ranks dims : List Bytes) (i : Nat) (type : Int) (e : Entry) : Prop :=
  ∃ rank numbers p, Parsed ranks dims i rank numbers p ∧ e.type = type ∧
    e.dims = ⟨rank + 1, cells numbers⟩ ∧ e.size = tensorTypeToSize type * p

section Entry

variable {m : Memory} {ranks dims : List Bytes} {infos : Infos} {i : Nat} {type : Int}
  {types : List Int} {l : Ledger}

theorem rankAt_eq (ranks : List Bytes) (i : Nat) :
    rankAt (ranks.map reversed) i =
      match usedRank ranks i with
      | some rank => .ok rank
      | none => .error .outOfBounds := by
  unfold rankAt usedRank
  rw [List.length_map, List.getElem?_map]
  cases ranks with
  | nil => rfl
  | cons f ranks =>
      have hpos : (f :: ranks).length > 0 := List.length_pos_of_ne_nil (List.cons_ne_nil f ranks)
      have hne : f :: ranks ≠ [] := List.cons_ne_nil f ranks
      cases (f :: ranks)[i]? with
      | none => simp only [if_pos hpos, if_neg hne, Option.map_none]
      | some g => simp only [if_pos hpos, if_neg hne, Option.map_some]

/-- The rest of the loop body, once there is a rank and memory for the dims. -/
theorem fillLoop_cons {rank : Int} (hi : infos.entries.length = i)
    (hrank : usedRank ranks i = some rank) (hm : m.dims i = true) :
    fillLoop m (ranks.map reversed) dims infos (type :: types) l =
      match dims[i]? with
      | none => .error .outOfBounds
      | some str =>
          match parseDims str rank (Dimensions.allocate (rank + 1).toNat).data with
          | .error e => .error e
          | .ok (data, ret) =>
              if ret < 0 then .ok (.error ret, freeTensorInfo infos (l.alloc.free l.allocated))
              else
                match toInt (tensorTypeToSize type * ret) with
                | .error e => .error e
                | .ok size =>
                    fillLoop m (ranks.map reversed) dims
                      { infos with
                        entries := infos.entries ++
                          [⟨type, size, none, ⟨(rank + 1).toNat, data⟩, l.allocated⟩] }
                      types l.alloc := by
  subst hi
  simp only [fillLoop, rankAt_eq, hrank, hm, Bool.true_eq_false, if_false]
  rfl

theorem fillLoop_passes (hi : infos.entries.length = i) (h : Passes m ranks dims i type) :
    ∃ e, Filled ranks dims i type e ∧ e.block = l.allocated ∧ ∀ types,
      fillLoop m (ranks.map reversed) dims infos (type :: types) l =
        fillLoop m (ranks.map reversed) dims { infos with entries := infos.entries ++ [e] } types
          l.alloc := by
  rcases h with ⟨hm, rank, numbers, p, hparsed, hp, hfits⟩
  rcases hparsed.scan with ⟨str, hstr, hscan⟩
  refine ⟨⟨type, tensorTypeToSize type * p, none, ⟨rank + 1, cells numbers⟩, l.allocated⟩,
    ⟨rank, numbers, p, hparsed, rfl, rfl, rfl⟩, rfl, fun types => ?_⟩
  have hfull := parseDims_full hparsed.pos hparsed.max hscan hparsed.full
  have hnat : ((rank : Int) + 1).toNat = rank + 1 := by omega
  rw [fillLoop_cons hi hparsed.used hm]
  simp only [hstr, hnat, hfull, hparsed.product, toInt_ok hfits, if_neg (not_lt.2 hp)]

theorem fillLoop_fails (hi : infos.entries.length = i) (h : Fails m ranks dims i) :
    ∃ ret l', ret < 0 ∧ (∀ held, l.Balanced held → l'.Balanced held) ∧ ∀ type types,
      fillLoop m (ranks.map reversed) dims infos (type :: types) l =
        .ok (.error ret, freeTensorInfo infos l') := by
  by_cases hm : m.dims i = false
  · have hrank : usedRank ranks i ≠ none := by
      rcases h with h | ⟨rank, str, numbers, hused, -⟩ | ⟨rank, numbers, p, hparsed, -⟩
      · exact h.2
      · simp [hused]
      · simp [hparsed.used]
    rcases Option.ne_none_iff_exists'.1 hrank with ⟨rank, hrank⟩
    refine ⟨-ENOMEM, l, by decide, fun _ => id, fun type types => ?_⟩
    subst hi
    simp only [fillLoop, rankAt_eq, hrank, hm, if_true]
  · rw [Bool.not_eq_false] at hm
    have hfree : ∀ held, l.Balanced held → (l.alloc.free l.allocated).Balanced held :=
      fun _ hl => hl.alloc.free
    rcases h with h | ⟨rank, str, numbers, hused, hpos, hmax, hstr, hscan, hshort⟩ |
      ⟨rank, numbers, p, hparsed, hp⟩
    · exact absurd (hm.symm.trans h.1) (by decide)
    · rcases parseDims_short hpos hmax hscan hshort with ⟨values, hparse⟩
      have hnat : ((rank : Int) + 1).toNat = rank + 1 := by omega
      refine ⟨-EINVAL, _, by decide, hfree, fun type types => ?_⟩
      rw [fillLoop_cons hi hused hm]
      simp only [hstr, hnat, hparse]
      exact if_pos (by decide)
    · rcases hparsed.scan with ⟨str, hstr, hscan⟩
      have hfull := parseDims_full hparsed.pos hparsed.max hscan hparsed.full
      have hnat : ((rank : Int) + 1).toNat = rank + 1 := by omega
      refine ⟨p, _, hp, hfree, fun type types => ?_⟩
      rw [fillLoop_cons hi hparsed.used hm]
      simp only [hstr, hnat, hfull, hparsed.product, if_pos hp]

theorem fillLoop_faults (hi : infos.entries.length = i) (hpass : ¬ Passes m ranks dims i type)
    (hfail : ¬ Fails m ranks dims i) :
    ∃ e, fillLoop m (ranks.map reversed) dims infos (type :: types) l = .error e := by
  cases hused : usedRank ranks i with
  | none =>
      subst hi
      exact ⟨.outOfBounds, by simp only [fillLoop, rankAt_eq, hused]⟩
  | some rank =>
      have hm : m.dims i = true := by
        rw [← Bool.not_eq_false]
        exact fun hm => hfail (Or.inl ⟨hm, by simp [hused]⟩)
      rw [fillLoop_cons hi hused hm]
      cases hstr : dims[i]? with
      | none => exact ⟨_, rfl⟩
      | some str =>
          simp only
          by_cases hrange : 1 ≤ rank ∧ rank ≤ 4
          case neg => exact ⟨_, by rw [parseDims_outOfBounds hrange]⟩
          obtain ⟨r, rfl⟩ := Int.eq_ofNat_of_zero_le (by omega : 0 ≤ rank)
          have hpos : 1 ≤ r := by omega
          have hmax : r ≤ 4 := by omega
          have hnat : ((r : Int) + 1).toNat = r + 1 := by omega
          cases hscan : scanDims r str with
          | error e => exact ⟨e, by rw [parseDims_error hpos hmax hscan]⟩
          | ok numbers =>
              by_cases hfull : numbers.length = r
              case neg =>
                exact absurd (Or.inr (Or.inl ⟨r, str, numbers, hused, hpos, hmax, hstr, hscan,
                  hfull⟩)) hfail
              rw [hnat, parseDims_full hpos hmax hscan hfull]
              cases hproduct : product numbers.reverse with
              | error e => exact ⟨e, rfl⟩
              | ok p =>
                  have hparsed : Parsed ranks dims i r numbers p :=
                    ⟨hused, hpos, hmax, ⟨str, hstr, hscan⟩, hfull, hproduct⟩
                  have hp : ¬ p < 0 := fun hp =>
                    hfail (Or.inr (Or.inr ⟨r, numbers, p, hparsed, hp⟩))
                  have hfits : ¬ Fits (tensorTypeToSize type * p) := fun hfits =>
                    hpass ⟨hm, r, numbers, p, hparsed, not_lt.1 hp, hfits⟩
                  exact ⟨.overflow, by simp only [if_neg hp, toInt_error hfits]⟩

theorem Parsed.scan_unique {rank rank' : Nat} {numbers numbers' : List Int} {p : Int} {str' : Bytes}
    (h : Parsed ranks dims i rank numbers p) (hused : usedRank ranks i = some (rank' : Int))
    (hstr : dims[i]? = some str') (hscan : scanDims rank' str' = .ok numbers') :
    rank' = rank ∧ numbers' = numbers := by
  rcases h.scan with ⟨str, hstr', hscan'⟩
  have hrank := hused.symm.trans h.used
  rw [Option.some.injEq, Int.natCast_inj] at hrank
  have htext := hstr.symm.trans hstr'
  rw [Option.some.injEq] at htext
  subst hrank htext
  exact ⟨rfl, Except.ok.inj (hscan.symm.trans hscan')⟩

theorem Parsed.unique {rank rank' : Nat} {numbers numbers' : List Int} {p p' : Int}
    (h : Parsed ranks dims i rank numbers p) (h' : Parsed ranks dims i rank' numbers' p') :
    rank' = rank ∧ numbers' = numbers ∧ p' = p := by
  rcases h'.scan with ⟨str', hstr', hscan'⟩
  rcases h.scan_unique h'.used hstr' hscan' with ⟨rfl, rfl⟩
  exact ⟨rfl, rfl, Except.ok.inj (h'.product.symm.trans h.product)⟩

theorem Passes.not_fails (h : Passes m ranks dims i type) : ¬ Fails m ranks dims i := by
  rcases h with ⟨hm, rank, numbers, p, hparsed, hp, -⟩
  rintro (⟨hmem, -⟩ | ⟨rank', str', numbers', hused', -, -, hstr', hscan', hshort⟩ |
    ⟨rank', numbers', p', hparsed', hneg⟩)
  · exact absurd (hm.symm.trans hmem) (by decide)
  · rcases hparsed.scan_unique hused' hstr' hscan' with ⟨rfl, rfl⟩
    exact hshort hparsed.full
  · rcases hparsed.unique hparsed' with ⟨-, -, rfl⟩
    exact absurd hneg (not_lt.2 hp)

end Entry

/-! ## The loop -/

section Loop

variable {m : Memory} {ranks dims : List Bytes}

/-- The loop runs over the entries that are filled. -/
theorem fillLoop_prefix {infos : Infos} {types : List Int} {l : Ledger}
    (h : ∀ j type, types[j]? = some type → Passes m ranks dims (infos.entries.length + j) type)
    (hl : l.Balanced infos.blocks) :
    ∃ es l', es.length = types.length ∧
      (∀ j e, es[j]? = some e → ∃ type, types[j]? = some type ∧
        Filled ranks dims (infos.entries.length + j) type e) ∧
      l'.Balanced (Infos.blocks { infos with entries := infos.entries ++ es }) ∧
      ∀ rest, fillLoop m (ranks.map reversed) dims infos (types ++ rest) l =
        fillLoop m (ranks.map reversed) dims { infos with entries := infos.entries ++ es } rest
          l' := by
  induction types generalizing infos l with
  | nil => exact ⟨[], l, rfl, by simp, by simpa using hl, by simp⟩
  | cons type types ih =>
      have hfirst := h 0 type rfl
      rw [Nat.add_zero] at hfirst
      rcases fillLoop_passes (l := l) rfl hfirst with ⟨e, he, hblock, hstep⟩
      have hrest : ∀ j type', types[j]? = some type' →
          Passes m ranks dims ((infos.entries ++ [e]).length + j) type' := by
        intro j type' hj
        have hpass := h (j + 1) type' hj
        rwa [List.length_append, List.length_singleton, Nat.add_assoc, Nat.add_comm 1]
      have hbalanced : l.alloc.Balanced
          (Infos.blocks { infos with entries := infos.entries ++ [e] }) := by
        apply hl.alloc.perm
        simp only [Infos.blocks, List.map_append, List.map_cons, List.map_nil, hblock,
          List.append_assoc]
        exact List.perm_middle.symm
      rcases ih hrest hbalanced with ⟨es, l', hlength, hfilled, hl', hrun⟩
      refine ⟨e :: es, l', by simp [hlength], ?_, ?_, ?_⟩
      · intro j e' hj
        cases j with
        | zero =>
            cases hj
            exact ⟨type, rfl, he⟩
        | succ j =>
            rcases hfilled j e' hj with ⟨type', htype, hfill⟩
            rw [List.length_append, List.length_singleton, Nat.add_assoc, Nat.add_comm 1] at hfill
            exact ⟨type', htype, hfill⟩
      · rwa [List.append_assoc] at hl'
      · intro rest
        have hnext := hrun rest
        simp only [List.append_assoc, List.singleton_append] at hnext
        exact (hstep (types ++ rest)).trans hnext

/-- Either all entries pass, or one of them is the first that does not. -/
theorem all_or_first (p : Nat → Prop) (n : Nat) :
    (∀ i < n, p i) ∨ ∃ k < n, (∀ i < k, p i) ∧ ¬ p k := by
  induction n with
  | zero => exact Or.inl fun i hi => absurd hi (Nat.not_lt_zero i)
  | succ n ih =>
      rcases ih with hall | ⟨k, hk, hbefore, hfirst⟩
      · by_cases hn : p n
        · refine Or.inl fun i hi => ?_
          rcases Nat.lt_succ_iff_lt_or_eq.1 hi with hi | rfl
          · exact hall i hi
          · exact hn
        · exact Or.inr ⟨n, Nat.lt_succ_self n, hall, hn⟩
      · exact Or.inr ⟨k, Nat.lt_succ_of_lt hk, hbefore, hfirst⟩

section Run

variable {types : List Int} {block : Nat} {l : Ledger}

/-- Every entry is filled. -/
theorem fillLoop_all (hl : l.Balanced [block])
    (h : ∀ i type, types[i]? = some type → Passes m ranks dims i type) :
    ∃ infos l', fillLoop m (ranks.map reversed) dims ⟨block, []⟩ types l = .ok (.ok infos, l') ∧
      infos.entries.length = types.length ∧ l'.Balanced infos.blocks ∧
      ∀ i e, infos.entries[i]? = some e →
        ∃ type, types[i]? = some type ∧ Filled ranks dims i type e := by
  have hpass : ∀ j type, types[j]? = some type →
      Passes m ranks dims ((⟨block, []⟩ : Infos).entries.length + j) type := by
    intro j type hj
    rw [List.length_nil, Nat.zero_add]
    exact h j type hj
  rcases fillLoop_prefix hpass hl with ⟨es, l', hlength, hfilled, hl', hrun⟩
  have hend := hrun []
  rw [List.append_nil] at hend
  refine ⟨_, l', hend, hlength, hl', ?_⟩
  intro i e hi
  rcases hfilled i e hi with ⟨type, htype, hfill⟩
  rw [List.length_nil, Nat.zero_add] at hfill
  exact ⟨type, htype, hfill⟩

/-- The first entry that is not filled decides. -/
theorem fillLoop_first (hl : l.Balanced [block]) {k : Nat} {type : Int}
    (htype : types[k]? = some type)
    (hbefore : ∀ i < k, ∀ type, types[i]? = some type → Passes m ranks dims i type)
    (hfirst : ¬ Passes m ranks dims k type) :
    (Fails m ranks dims k →
      ∃ ret l', ret < 0 ∧ (l'.Balanced [] ↔ 0 < k) ∧
        fillLoop m (ranks.map reversed) dims ⟨block, []⟩ types l = .ok (.error ret, l')) ∧
    (¬ Fails m ranks dims k →
      ∃ e, fillLoop m (ranks.map reversed) dims ⟨block, []⟩ types l = .error e) := by
  have hk := (List.getElem?_eq_some_iff.1 htype).1
  have hsplit : types = types.take k ++ type :: types.drop (k + 1) := by
    rw [← (List.getElem?_eq_some_iff.1 htype).2, ← List.drop_eq_getElem_cons hk,
      List.take_append_drop]
  have hpass : ∀ j type, (types.take k)[j]? = some type →
      Passes m ranks dims ((⟨block, []⟩ : Infos).entries.length + j) type := by
    intro j type hj
    rw [List.getElem?_take] at hj
    by_cases hjk : j < k
    · rw [List.length_nil, Nat.zero_add]
      rw [if_pos hjk] at hj
      exact hbefore j hjk type hj
    · rw [if_neg hjk] at hj
      cases hj
  rcases fillLoop_prefix hpass hl with ⟨es, l', hlength, -, hl', hrun⟩
  rw [List.length_take, Nat.min_eq_left hk.le] at hlength
  have hstart := hrun (type :: types.drop (k + 1))
  rw [← hsplit] at hstart
  rw [hstart]
  constructor
  · intro hfail
    have hcount : (Infos.entries ⟨block, [] ++ es⟩).length = k := hlength
    rcases fillLoop_fails (l := l') hcount hfail with ⟨ret, l'', hret, hkeep, hstep⟩
    refine ⟨ret, _, hret, ?_, hstep _ _⟩
    have hheld := hkeep _ hl'
    unfold freeTensorInfo
    simp only [List.nil_append, hlength]
    by_cases hzero : k = 0
    · -- `FreeTensorInfo` does nothing for a count of zero, and the array is lost.
      rw [if_pos hzero]
      have hnil : es = [] := List.eq_nil_of_length_eq_zero (hlength.trans hzero)
      rw [hnil] at hheld
      have hlost : l''.Balanced ([block] ++ []) := hheld
      rw [hlost.iff_none_lost]
      simp [hzero]
    · rw [if_neg hzero]
      have hfree : (l''.freeAll (Infos.blocks ⟨block, es⟩)).Balanced [] := by
        apply Ledger.Balanced.freeAll
        rwa [List.append_nil]
      exact iff_of_true hfree (Nat.pos_of_ne_zero hzero)
  · intro hfail
    exact fillLoop_faults (by simpa using hlength) hfirst hfail

end Run

end Loop

/-! ## Entries -/

section Exact

theorem toInt_eq_ok {n v : Int} (h : toInt n = .ok v) : v = n := by
  unfold toInt at h
  split at h
  · exact (Except.ok.inj h).symm
  · cases h

theorem mulAll_eq_ok {p q : Int} {vs : List Int} (h : mulAll p vs = .ok q) : q = p * vs.prod := by
  induction vs generalizing p with
  | nil =>
      cases h
      simp
  | cons v vs ih =>
      unfold mulAll at h
      split at h
      · cases h
      · rename_i p' hp'
        rw [ih h, toInt_eq_ok hp', List.prod_cons, mul_assoc]

theorem product_eq_ok {vs : List Int} {p : Int} (h : product vs = .ok p) : p = vs.prod := by
  cases vs with
  | nil => exact (Except.ok.inj h).symm
  | cons v vs =>
      rw [List.prod_cons]
      exact mulAll_eq_ok h

/-- A reader finds something in every cell unless there are four numbers. -/
theorem readArray_cells_of_ne {numbers : List Int} (h : numbers.length ≠ 4) :
    readArray id (numbers.length + 1) (cells numbers) = some (1 :: numbers.reverse) := by
  have hread : ∀ (xs : List Int) (rest : List (Option Int)),
      readArray id xs.length (xs.map some ++ rest) = some xs := fun xs rest =>
    readArray_append rest (by simp [List.forall₂_map_left_iff, List.forall₂_same])
  have hcells := hread (1 :: numbers.reverse) [none]
  rw [cells, if_neg h]
  simpa using hcells

theorem readArray_cells_four {numbers : List Int} (h : numbers.length = 4) :
    readArray id (numbers.length + 1) (cells numbers) = none := by
  match numbers, h with
  | [a, b, c, d], _ => rfl

/-- Nothing is read back to front in a number of one digit. -/
theorem oneDigit_iff {f : Bytes} {rank : Nat} (hmax : rank ≤ 3) (hpos : 1 ≤ rank)
    (hused : reversed f = rank) : number f = some rank ↔ OneDigit f := by
  constructor
  · intro hnumber
    unfold number at hnumber
    split at hnumber
    case isFalse => cases hnumber
    case isTrue hdigits =>
      have hvalue : value f = rank := Option.some.inj hnumber
      have hall : ∀ b ∈ f, isDigit b = true := List.all_eq_true.1 hdigits.2
      rcases List.eq_nil_or_concat f with rfl | ⟨g, z, rfl⟩
      · exact absurd rfl hdigits.1
      · rw [List.concat_eq_append] at *
        have hz := isDigit_iff.1 (hall z (by simp))
        rw [value_concat] at hvalue
        rw [reversed_concat] at hused
        have hg : ∀ b ∈ g, isDigit b = true := fun b hb => hall b (List.mem_append_left _ hb)
        have hlow := (reversed_bounds hg).1
        have hdigit : digit z = rank := by omega
        -- The last digit is the highest in reverse, so nothing stands in front of it.
        have hnil : g = [] := by
          by_contra hne
          have hlen : 1 ≤ g.length := List.length_pos_of_ne_nil hne
          have hpow : 10 ^ 1 ≤ 10 ^ g.length := Nat.pow_le_pow_right (by decide) hlen
          have hcast : (10 : Int) ^ g.length = ((10 ^ g.length : Nat) : Int) := by
            push_cast
            rfl
          have hge : (10 : Int) ≤ 10 ^ g.length := by
            rw [hcast]
            exact_mod_cast hpow
          have hmul : (10 : Int) * digit z ≤ 10 ^ g.length * digit z :=
            Int.mul_le_mul_of_nonneg_right hge (Int.natCast_nonneg _)
          omega
        subst hnil
        have hbyte : z = 0x31 ∨ z = 0x32 ∨ z = 0x33 := by
          unfold digit at hdigit
          simp only [← UInt8.toNat_inj]
          have : (0x31 : UInt8).toNat = 49 := rfl
          have : (0x32 : UInt8).toNat = 50 := rfl
          have : (0x33 : UInt8).toNat = 51 := rfl
          omega
        rcases hbyte with rfl | rfl | rfl <;> decide
  · intro hdigit
    have hall : ∀ f ∈ ["1", "2", "3"].map ascii, number f = some (reversed f).toNat := by decide
    rw [hall f hdigit, hused]
    rfl

variable {r : Reply} {dims : List Bytes} {i : Nat} {f : Bytes}

theorem rankVector_eq (r : Reply) :
    rankVector r.ranks =
      if Reported r.ranks → RanksFit (r.ranks.getD []) then .ok ((storedRanks r).map reversed)
      else .error .overflow := by
  unfold rankVector storedRanks Reported
  match r.ranks with
  | none => rfl
  | some [] => rfl
  | some (b :: text) =>
      simp only [Option.getD_some, ne_eq, reduceCtorEq, not_false_iff, if_true, forall_true_left]
      exact rankLoop_eq (b :: text)

/-- A rank that is stored is a field of the text. -/
theorem getElem?_storedRanks (h : (storedRanks r)[i]? = some f) :
    (fields (r.ranks.getD []))[i]? = some f := by
  unfold storedRanks at h
  split at h
  · rcases rankFields_prefix List.not_mem_nil (r.ranks.getD []) with ⟨t, ht⟩
    rw [List.nil_append] at ht
    rw [← ht, List.getElem?_append_left (List.getElem?_eq_some_iff.1 h).1]
    exact h
  · cases h

/-- If the first field is a number, then it is stored. -/
theorem storedRanks_ne_nil (hr : Reported r.ranks)
    (hfirst : (fields (r.ranks.getD []))[0]? = some f) (hnumber : number f ≠ none) :
    storedRanks r ≠ [] := by
  unfold storedRanks
  rw [if_pos hr]
  intro hnil
  rcases rankFields_eq_nil List.not_mem_nil hnil with ⟨g, rest, hfields, b, hb, hdigit⟩
  rw [List.nil_append] at hfields
  rw [hfields, List.getElem?_cons_zero, Option.some.injEq] at hfirst
  subst hfirst
  unfold number at hnumber
  rw [ne_eq, ite_eq_right_iff, not_forall] at hnumber
  rcases hnumber with ⟨hall, -⟩
  rw [List.all_eq_true.1 hall.2 b hb] at hdigit
  cases hdigit

/-- The rank of a number that is stored. -/
theorem usedRank_storedRanks (hr : Reported r.ranks) {rank : Int} {f₀ : Bytes}
    (hfirst : (fields (r.ranks.getD []))[0]? = some f₀) (hnumber : number f₀ ≠ none)
    (hf : (fields (r.ranks.getD []))[i]? = some f) (hused : usedRank (storedRanks r) i = some rank) :
    reversed f = rank := by
  unfold usedRank at hused
  rw [if_neg (storedRanks_ne_nil hr hfirst hnumber), Option.map_eq_some_iff] at hused
  rcases hused with ⟨g, hg, hrank⟩
  have hsame := (getElem?_storedRanks hg).symm.trans hf
  rw [Option.some.injEq] at hsame
  rwa [← hsame]

/-- The entries of the array are exact unless a rank has another form than one digit. -/
theorem entries_exact_iff {types : Bytes} (htypes : r.types = some types) {infos : Infos}
    (hlength : infos.entries.length = (fields types).length)
    (hfilled : ∀ i e, infos.entries[i]? = some e →
      ∃ type, ((fields types).map tensorTypeStringToType)[i]? = some type ∧
        Filled (storedRanks r) dims i type e) :
    (∀ i e, infos.entries[i]? = some e → EntryExact r i e) ↔
      (Reported r.ranks → ∀ i < (fields types).length,
        ∃ f, (fields (r.ranks.getD []))[i]? = some f ∧ OneDigit f) := by
  have hpos : 0 < (fields types).length :=
    List.length_pos_of_ne_nil (List.splitOn_ne_nil comma types)
  constructor
  · intro hexact hr
    -- The numbers that the entries claim for their ranks.
    have hnumbers : ∀ i < (fields types).length, ∃ f rank,
        (fields (r.ranks.getD []))[i]? = some f ∧ number f = some rank ∧ 1 ≤ rank ∧ rank ≤ 3 ∧
          usedRank (storedRanks r) i = some (rank : Int) := by
      intro i hi
      have he : infos.entries[i]? = some infos.entries[i] := List.getElem?_eq_getElem _
      have hexact := hexact i _ he
      rcases hfilled i _ he with ⟨type, -, rank, numbers, p, hparsed, -, hdims, -⟩
      have hrank := hexact.rank
      rcases hexact.contents with ⟨values, hread, -⟩
      rw [if_pos hr, hdims] at hrank
      rcases hrank with ⟨f, rank', hf, hnumber, hsize⟩
      have heq : rank = rank' := Nat.succ.inj hsize
      subst heq
      refine ⟨f, rank, hf, hnumber, hparsed.pos, ?_, hparsed.used⟩
      have hne : rank ≠ 4 := by
        intro hfour
        rw [hdims, ← hparsed.full, readArray_cells_four (hparsed.full.trans hfour)] at hread
        cases hread
      have hmax := hparsed.max
      omega
    intro i hi
    rcases hnumbers 0 hpos with ⟨f₀, rank₀, hfirst, hnumber₀, -⟩
    rcases hnumbers i hi with ⟨f, rank, hf, hnumber, hone, hthree, hused⟩
    have hreversed := usedRank_storedRanks hr hfirst (by simp [hnumber₀]) hf hused
    exact ⟨f, hf, (oneDigit_iff hthree hone hreversed).1 hnumber⟩
  · intro hdigits i e he
    rcases hfilled i e he with ⟨type, htype, rank, numbers, p, hparsed, hetype, hdims, hsize⟩
    have hi : i < (fields types).length := by
      rw [← hlength]
      exact (List.getElem?_eq_some_iff.1 he).1
    have hrank : (if Reported r.ranks then
        ∃ f rank, (fields (r.ranks.getD []))[i]? = some f ∧ number f = some rank ∧
          e.dims.size = rank + 1
      else e.dims.size = 3 + 1) ∧ rank ≤ 3 := by
      by_cases hr : Reported r.ranks
      · rw [if_pos hr]
        rcases hdigits hr 0 hpos with ⟨f₀, hfirst, hdigit₀⟩
        rcases hdigits hr i hi with ⟨f, hf, hdigit⟩
        have hall : ∀ f ∈ ["1", "2", "3"].map ascii,
            number f ≠ none ∧ reversed f ≤ 3 := by decide
        have hreversed := usedRank_storedRanks hr hfirst (hall f₀ hdigit₀).1 hf hparsed.used
        have hmax : rank ≤ 3 := by
          have hle := (hall f hdigit).2
          omega
        exact ⟨⟨f, rank, hf, (oneDigit_iff hmax hparsed.pos hreversed).2 hdigit, by rw [hdims]⟩,
          hmax⟩
      · rw [if_neg hr]
        have hused := hparsed.used
        unfold usedRank storedRanks at hused
        rw [if_neg hr, if_pos rfl, Option.some.injEq] at hused
        have hthree : rank = 3 := by omega
        exact ⟨by rw [hdims, hthree], hthree.le⟩
    constructor
    case type =>
      rw [htypes, Option.getD_some, hetype, ← htype, List.getElem?_map]
    case rank => exact hrank.1
    case contents =>
      have hne : numbers.length ≠ 4 := by
        rw [hparsed.full]
        omega
      refine ⟨1 :: numbers.reverse, ?_, ?_⟩
      · rw [hdims, ← hparsed.full]
        exact readArray_cells_of_ne hne
      · rw [hsize, hetype, product_eq_ok hparsed.product, List.prod_cons, one_mul]

end Exact

/-! ## The call -/

section Call

variable {m : Memory} {r : Reply} {info : Option Infos} {size ret : Int} {l : Ledger}

/-- A negative code is fine if nothing is lost. -/
theorem safe_error_iff (hret : ret < 0) :
    SafeAndExact r info size (.ok ⟨ret, info, size, l⟩) ↔ l.Balanced [] := by
  constructor
  · rintro (⟨-, -, -, hl⟩ | ⟨infos, hzero, -⟩)
    · exact hl
    · exact absurd hzero hret.ne
  · exact fun hl => Or.inl ⟨hret, rfl, rfl, hl⟩

theorem readProperty_balanced (prop : Option Bytes) (hl : l.Balanced []) :
    (readProperty prop l).Balanced [] := by
  unfold readProperty
  split
  · exact hl
  · exact hl.alloc.free

/-- The copy of an empty text is lost. -/
theorem getProperty_lost {text : Bytes} (hl : l.Balanced []) :
    ¬ (getProperty (some text) l).Balanced [] := by
  have hlost : (getProperty (some text) l).Balanced ([l.allocated] ++ []) := hl.alloc
  rw [hlost.iff_none_lost]
  exact List.cons_ne_nil _ _

/-- What the call makes of the answer of the loop. -/
def ofLoop (info : Option Infos) (size : Int) (count : Nat) :
    Except Fault (Except Int Infos × Ledger) → Except Fault Outcome
  | .error e => .error e
  | .ok (.error ret, l) => .ok ⟨ret, info, size, l⟩
  | .ok (.ok infos, l) => .ok ⟨0, some infos, count, l⟩

theorem entries_safe_iff (m : Memory) (info : Option Infos) (size : Int) (dims : Bytes)
    {types : Bytes} (htypes : r.types = some types) (hl : l.Balanced []) :
    SafeAndExact r info size (ofLoop info size ((fields types).map tensorTypeStringToType).length
      (fillLoop m ((storedRanks r).map reversed) (fields dims) ⟨l.allocated, []⟩
        ((fields types).map tensorTypeStringToType) l.alloc)) ↔
      EntriesExtractable m r (fields types) (fields dims) := by
  let passes (i : Nat) : Prop := ∃ f, (fields types)[i]? = some f ∧
    Passes m (storedRanks r) (fields dims) i (tensorTypeStringToType f)
  have hpasses : ∀ {i : Nat}, passes i → ∀ type,
      ((fields types).map tensorTypeStringToType)[i]? = some type →
      Passes m (storedRanks r) (fields dims) i type := by
    rintro i ⟨f, hf, hpass⟩ type htype
    rw [List.getElem?_map, hf, Option.map_some, Option.some.injEq] at htype
    rwa [← htype]
  rcases all_or_first passes (fields types).length with hall | ⟨k, hk, hbefore, hfirst⟩
  · have hpass : ∀ i type, ((fields types).map tensorTypeStringToType)[i]? = some type →
        Passes m (storedRanks r) (fields dims) i type := by
      intro i type htype
      have hi := (List.getElem?_eq_some_iff.1 htype).1
      rw [List.length_map] at hi
      exact hpasses (hall i hi) type htype
    rcases fillLoop_all hl.alloc hpass with ⟨infos, l', hrun, hlength, hl', hfilled⟩
    rw [List.length_map] at hlength
    have hexact := entries_exact_iff htypes hlength hfilled
    rw [hrun]
    constructor
    · rintro (⟨hneg, -⟩ | ⟨infos', -, hinfos, -, -, -, hentries⟩)
      · exact absurd hneg (lt_irrefl 0)
      · cases hinfos
        exact Or.inr ⟨hall, hexact.1 hentries⟩
    · rintro (⟨k, -, hk, -, hfail⟩ | ⟨-, hdigits⟩)
      · rcases hall k hk with ⟨f, -, hpass⟩
        exact absurd hfail hpass.not_fails
      · refine Or.inr ⟨infos, rfl, rfl, ?_, by rw [htypes]; exact hlength, hl', hexact.2 hdigits⟩
        rw [hlength, List.length_map]
  · have hf : (fields types)[k]? = some (fields types)[k] := List.getElem?_eq_getElem hk
    have htype : ((fields types).map tensorTypeStringToType)[k]? =
        some (tensorTypeStringToType (fields types)[k]) := by
      rw [List.getElem?_map, hf, Option.map_some]
    have hstop := fillLoop_first hl.alloc htype (fun i hi => hpasses (hbefore i hi))
      fun hpass => hfirst ⟨_, hf, hpass⟩
    -- There is one entry only at which the loop can be given up.
    have hunique : ∀ k', k' < (fields types).length → (∀ i < k', passes i) →
        Fails m (storedRanks r) (fields dims) k' → k' = k := by
      intro k' hk' hbefore' hfail
      rcases Nat.lt_trichotomy k' k with hlt | heq | hgt
      · rcases hbefore k' hlt with ⟨f, -, hpass⟩
        exact absurd hfail hpass.not_fails
      · exact heq
      · exact absurd (hbefore' k hgt) hfirst
    have hiff : EntriesExtractable m r (fields types) (fields dims) ↔
        0 < k ∧ Fails m (storedRanks r) (fields dims) k := by
      constructor
      · rintro (⟨k', hpos, hk', hbefore', hfail⟩ | ⟨hall, -⟩)
        · obtain rfl := hunique k' hk' hbefore' hfail
          exact ⟨hpos, hfail⟩
        · exact absurd (hall k hk) hfirst
      · rintro ⟨hpos, hfail⟩
        exact Or.inl ⟨k, hpos, hk, hbefore, hfail⟩
    rw [hiff]
    by_cases hfail : Fails m (storedRanks r) (fields dims) k
    · rcases hstop.1 hfail with ⟨ret, l', hret, hlost, hrun⟩
      rw [hrun]
      exact (safe_error_iff hret).trans (hlost.trans (and_iff_left hfail).symm)
    · rcases hstop.2 hfail with ⟨e, hrun⟩
      rw [hrun]
      exact iff_of_false id fun h => hfail h.2

/-- The way to the loop. -/
theorem extract_eq_ofLoop (info : Option Infos) (size : Int) {types dims : Bytes}
    (hranks : Reported r.ranks → RanksFit (r.ranks.getD [])) (htypes : r.types = some types)
    (hne : types ≠ []) (hlength : types.length < INT_MAX) (hdims : r.dims = some dims)
    (hne' : dims ≠ []) (hlength' : dims.length < INT_MAX) (hm : m.info = true) :
    ∃ l : Ledger, l.Balanced [] ∧
      extractTensorInfo m r info size =
        ofLoop info size ((fields types).map tensorTypeStringToType).length
          (fillLoop m ((storedRanks r).map reversed) (fields dims) ⟨l.allocated, []⟩
            ((fields types).map tensorTypeStringToType) l.alloc) := by
  have hvector := (rankVector_eq r).trans (if_pos hranks)
  have hsplit := (splitLoop_eq types).trans (if_pos hlength)
  have hsplit' := (splitLoop_eq dims).trans (if_pos hlength')
  refine ⟨readProperty r.dims (readProperty r.types (readProperty r.ranks .empty)),
    readProperty_balanced _ (readProperty_balanced _ (readProperty_balanced _ .empty)), ?_⟩
  cases types with
  | nil => exact absurd rfl hne
  | cons b types =>
      cases dims with
      | nil => exact absurd rfl hne'
      | cons c dims =>
          simp only [extractTensorInfo, hvector, htypes, hsplit, hdims, hsplit', hm,
            Bool.true_eq_false, if_false]
          rfl

/-- A call that succeeds got to the loop. -/
theorem reached_of_success {out : Outcome} (h : extractTensorInfo m r info size = .ok out)
    (hret : out.ret = 0) :
    (Reported r.ranks → RanksFit (r.ranks.getD [])) ∧
      (∃ types, r.types = some types ∧ types ≠ [] ∧ types.length < INT_MAX) ∧
      (∃ dims, r.dims = some dims ∧ dims ≠ [] ∧ dims.length < INT_MAX) ∧ m.info = true := by
  unfold extractTensorInfo at h
  rw [rankVector_eq] at h
  by_cases hranks : Reported r.ranks → RanksFit (r.ranks.getD [])
  case neg =>
    rw [if_neg hranks] at h
    cases h
  rw [if_pos hranks] at h
  refine ⟨hranks, ?_⟩
  match htypes : r.types with
  | none =>
      simp only [htypes] at h
      cases h
      cases hret
  | some [] =>
      simp only [htypes] at h
      cases h
      cases hret
  | some (b :: types) =>
      simp only [htypes, splitLoop_eq] at h
      by_cases hlength : (b :: types).length < INT_MAX
      case neg =>
        rw [if_neg hlength] at h
        cases h
      rw [if_pos hlength] at h
      refine ⟨⟨_, rfl, List.cons_ne_nil b types, hlength⟩, ?_⟩
      match hdims : r.dims with
      | none =>
          simp only [hdims] at h
          cases h
          cases hret
      | some [] =>
          simp only [hdims] at h
          cases h
          cases hret
      | some (c :: dims) =>
          simp only [hdims] at h
          by_cases hlength' : (c :: dims).length < INT_MAX
          case neg =>
            rw [if_neg hlength'] at h
            cases h
          rw [if_pos hlength'] at h
          refine ⟨⟨_, rfl, List.cons_ne_nil c dims, hlength'⟩, ?_⟩
          by_contra hm
          rw [Bool.not_eq_true] at hm
          simp only [hm, if_true] at h
          cases h
          cases hret

/-- Exactly these answers are extracted without a fault, without a loss, and exactly. -/
theorem extract_safe_iff (m : Memory) (r : Reply) (info : Option Infos) (size : Int) :
    SafeAndExact r info size (extractTensorInfo m r info size) ↔ Extractable m r := by
  have hempty := readProperty_balanced r.ranks Ledger.Balanced.empty
  unfold Extractable
  by_cases hranks : Reported r.ranks → RanksFit (r.ranks.getD [])
  case neg =>
    have hrun : extractTensorInfo m r info size = .error .overflow := by
      simp only [extractTensorInfo, rankVector_eq, if_neg hranks]
    rw [hrun]
    exact iff_of_false id fun h => hranks h.1
  have hvector := (rankVector_eq r).trans (if_pos hranks)
  rw [and_iff_right hranks]
  cases htypes : r.types with
  | none =>
      simp only [extractTensorInfo, hvector, htypes]
      exact iff_of_true ((safe_error_iff (by decide)).2 hempty) (by simp)
  | some types =>
      simp only [Option.mem_some_iff, forall_eq']
      cases types with
      | nil =>
          simp only [extractTensorInfo, hvector, htypes]
          exact iff_of_false (fun h => getProperty_lost hempty ((safe_error_iff (by decide)).1 h))
            fun h => h.1 rfl
      | cons b types =>
          rw [and_iff_right (List.cons_ne_nil b types)]
          by_cases hlength : (b :: types).length < INT_MAX
          case neg =>
            have hsplit := (splitLoop_eq (b :: types)).trans (if_neg hlength)
            simp only [extractTensorInfo, hvector, htypes, hsplit]
            exact iff_of_false id fun h => hlength h.1
          have hsplit := (splitLoop_eq (b :: types)).trans (if_pos hlength)
          have hread := readProperty_balanced (some (b :: types)) hempty
          rw [and_iff_right hlength]
          cases hdims : r.dims with
          | none =>
              simp only [extractTensorInfo, hvector, htypes, hsplit, hdims]
              exact iff_of_true ((safe_error_iff (by decide)).2 hread) (by simp)
          | some dims =>
              simp only [Option.mem_some_iff, forall_eq']
              cases dims with
              | nil =>
                  simp only [extractTensorInfo, hvector, htypes, hsplit, hdims]
                  exact iff_of_false
                    (fun h => getProperty_lost hread ((safe_error_iff (by decide)).1 h))
                    fun h => h.1 rfl
              | cons c dims =>
                  rw [and_iff_right (List.cons_ne_nil c dims)]
                  by_cases hlength' : (c :: dims).length < INT_MAX
                  case neg =>
                    have hsplit' := (splitLoop_eq (c :: dims)).trans (if_neg hlength')
                    simp only [extractTensorInfo, hvector, htypes, hsplit, hdims, hsplit']
                    exact iff_of_false id fun h => hlength' h.1
                  rw [and_iff_right hlength']
                  cases hm : m.info with
                  | false =>
                      have hsplit' := (splitLoop_eq (c :: dims)).trans (if_pos hlength')
                      have hread' := readProperty_balanced (some (c :: dims)) hread
                      simp only [extractTensorInfo, hvector, htypes, hsplit, hdims, hsplit', hm,
                        if_true]
                      exact iff_of_true ((safe_error_iff (by decide)).2 hread') (by simp)
                  | true =>
                      rcases extract_eq_ofLoop info size hranks htypes (List.cons_ne_nil b types)
                        hlength hdims (List.cons_ne_nil c dims) hlength' hm with ⟨l, hl, hrun⟩
                      rw [hrun, forall_prop_of_true rfl]
                      exact entries_safe_iff m info size (c :: dims) htypes hl

end Call

/-- The memory does not run out. -/
def Memory.ample : Memory := ⟨true, fun _ => true⟩

/-- A tensor of rank five. -/
def fiveDims : Reply := ⟨some (ascii "5"), some (ascii "float32"), some (ascii "3:224:224:1:2")⟩

/-- There is no fifth parser. -/
theorem five_dims_unsafe :
    ¬ SafeAndExact fiveDims none 0 (extractTensorInfo .ample fiveDims none 0) := by
  have hrun : extractTensorInfo .ample fiveDims none 0 = .error .outOfBounds := by rfl
  rw [hrun]
  exact id

end ExtractInfo
end Peer
end Beyond
