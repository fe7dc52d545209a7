import Gridding.Proofs.Allocation.Dense
import Gridding.Proofs.Allocation.Entries
import Gridding.Proofs.Allocation.Memory

/-!
# Linear combinations of allocations

In exact arithmetic a merged allocation weighs at each place the sum of the weights of its parts
under their factors, its table shows these weights, and merging what is merged already multiplies
the factors.
-/

namespace Gridding.Allocation

variable {ρ α : Type}

/-! ## When merging fails -/

theorem exists_merge_error_iff [Zero α] [Add α] [Mul α] {results : List (Allocation ρ α)}
    {multipliers : List α} :
    (∃ e, merge results multipliers = .error e) ↔ results = [] ∨
      results.length ≠ multipliers.length ∨
      ∃ r ∈ results, ∃ s ∈ results, (r.nx, r.ny) ≠ (s.nx, s.ny) := by
  have hok : (∃ e, merge results multipliers = .error e) ↔
      ¬ ∃ m, merge results multipliers = .ok m := by
    cases merge results multipliers <;> simp
  rw [hok]
  constructor
  · intro hnone
    cases results with
    | nil => exact .inl rfl
    | cons first rest =>
      by_contra! hall
      obtain ⟨-, hlen, hsame⟩ := hall
      refine hnone ⟨_, merge_eq_ok_iff.mpr ⟨first, rest, rfl, hlen, fun r hr => ?_, rfl⟩⟩
      exact Prod.ext_iff.mp (hsame r hr first List.mem_cons_self)
  · rintro hbad ⟨m, hm⟩
    obtain ⟨first, rest, heq, hlen, hsame, -⟩ := merge_eq_ok_iff.mp hm
    rcases hbad with hnil | hcount | ⟨r, hr, s, hs, hne⟩
    · rw [heq] at hnil
      cases hnil
    · exact hcount hlen
    · obtain ⟨hnx, hny⟩ := hsame r hr
      obtain ⟨hnx', hny'⟩ := hsame s hs
      exact hne (by rw [hnx, hny, hnx', hny'])

/-! ## Tables in exact arithmetic -/

theorem hasPlace_of_within {nx ny : Int} {c : Cell ρ α} (h : c.Within nx ny) :
    HasPlace nx ny c := by
  obtain ⟨hrow, hrow', hcol, hcol'⟩ := h
  exact ⟨by omega, hrow', by omega, hcol'⟩

section Tables

variable [Field α] [Tally α] [ExactTally α]

/-- The weights at a place added up, in exact arithmetic. -/
def placeWeight (a : Allocation ρ α) (row col : Int) : α :=
  ((a.cells.filter fun c => c.row = row && c.col = col).map (·.weight)).sum

theorem weightAt_eq (a : Allocation ρ α) (row col : Int) :
    a.weightAt row col = .ok (a.placeWeight row col) := ExactTally.sum_eq _

theorem total_eq (a : Allocation ρ α) : a.total = .ok a.weightSum := ExactTally.sum_eq _

omit [Tally α] [ExactTally α] in
theorem addedAt_eq (a : Allocation ρ α) (row col : Int) :
    a.addedAt row col = a.placeWeight row col := by
  rw [addedAt, placeWeight, List.sum_eq_foldl, List.foldl_map]

theorem tableTotal_eq {a : Allocation ρ α} (h : ∀ c ∈ a.cells, c.Within a.nx a.ny) :
    a.tableTotal = a.weightSum := by
  have hplaced : ∀ p ∈ a.cells.map fun c => (c.row.toNat, c.col.toNat, c.weight),
      p.1 < a.ny.toNat ∧ p.2.1 < a.nx.toNat := by
    intro p hp
    obtain ⟨c, hc, rfl⟩ := List.mem_map.mp hp
    obtain ⟨hrow, hrow', hcol, hcol'⟩ := h c hc
    dsimp only
    omega
  have hsum := sum_entries hplaced
  simp only [entry_of_within h] at hsum
  rw [tableTotal, ExactTally.tableSum_eq, tableOf, List.sum_flatten, List.map_map, weightSum]
  refine hsum.trans ?_
  rw [List.map_map]
  rfl

/-- The table of an allocation shows its weights at all places, scaled by their sum if the shape is
covered. -/
structure Tabled [BEq α] (a : Allocation ρ α) (w : Int → Int → α) (s : α) : Prop where
  weightAt : ∀ row col, a.weightAt row col = .ok (w row col)
  total : a.total = .ok s
  none_iff : a.dense = .ok ⟨none, false⟩ ↔ s = 0
  some_of_ne_zero : s ≠ 0 → ∃ rows, a.dense = .ok ⟨some rows, a.covered⟩ ∧
    rows = (tableOf a.nx a.ny fun r c => if a.covered then w r c / s else w r c) ∧
    (a.covered = true → rows.flatten.sum = 1)

theorem tabled [BEq α] [LawfulBEq α] {a : Allocation ρ α} (hsize : ¬ (a.nx < 0 ∨ a.ny < 0))
    (h : ∀ c ∈ a.cells, c.Within a.nx a.ny) : a.Tabled a.placeWeight a.weightSum := by
  have hdense := dense_of_within hsize h
  have hentry : a.entryAt = fun r c =>
      if a.covered then a.placeWeight r c / a.weightSum else a.placeWeight r c := by
    funext r c
    rw [entryAt, tableTotal_eq h, addedAt_eq, mul_one_div]
  rw [tableTotal_eq h, hentry] at hdense
  refine ⟨weightAt_eq a, total_eq a, ?_, fun hne => ?_⟩
  · rw [hdense]
    by_cases hzero : a.weightSum = 0
    · simp [hzero]
    · simp [hzero]
  · rw [if_neg (mt beq_iff_eq.mp hne)] at hdense
    refine ⟨_, hdense, rfl, fun hcovered => ?_⟩
    have hplace : ∀ c ∈ a.cells, HasPlace a.nx a.ny c := fun c hc => hasPlace_of_within (h c hc)
    obtain ⟨hzero, -⟩ | ⟨-, rows, hrows, hsum⟩ := exists_dense (by omega) (by omega) hplace
    · exact absurd hzero hne
    · have hsame := Except.ok.inj (hdense.symm.trans hrows)
      rw [if_pos hcovered, ← Option.some.inj (congrArg Dense.rows hsame)] at hsum
      exact hsum

end Tables

/-! ## Sums of sums -/

section Nested

variable [CommSemiring α]

/-- Allocations, each of them merged from parts under factors. -/
def Merged (parts : List (List (Allocation ρ α) × List α)) (results : List (Allocation ρ α)) :
    Prop :=
  List.Forall₂ (fun p r => merge p.1 p.2 = .ok r) parts results

/-- All parts, and their factors times those of what they were merged to. -/
def allParts (parts : List (List (Allocation ρ α) × List α)) : List (Allocation ρ α) :=
  parts.flatMap (·.1)

def allFactors (parts : List (List (Allocation ρ α) × List α)) (multipliers : List α) : List α :=
  (parts.zip multipliers).flatMap fun t => t.1.2.map (· * t.2)

theorem length_of_merge {results : List (Allocation ρ α)} {multipliers : List α}
    {m : Allocation ρ α} (h : merge results multipliers = .ok m) :
    results.length = multipliers.length := by
  obtain ⟨-, -, -, hlen, -⟩ := merge_eq_ok_iff.mp h
  exact hlen

variable {parts : List (List (Allocation ρ α) × List α)} {results : List (Allocation ρ α)}
  {multipliers : List α}

theorem Merged.length_all (h : Merged parts results) (hlen : results.length = multipliers.length) :
    (allParts parts).length = (allFactors parts multipliers).length := by
  induction h generalizing multipliers with
  | nil => simp [allParts, allFactors]
  | cons hp _ ih =>
    obtain ⟨m, multipliers, rfl⟩ := List.exists_cons_of_length_eq_add_one hlen.symm
    have hrest := ih (by simpa using hlen)
    simp only [allParts, allFactors, List.flatMap_cons, List.zip_cons_cons, List.length_append,
      List.length_map, length_of_merge hp] at hrest ⊢
    omega

/-- What is merged at once comes to the same sum as what is merged in two steps. -/
theorem Merged.sameSum (h : Merged parts results) (hlen : results.length = multipliers.length) :
    SameSum ((allFactors parts multipliers).zip (allParts parts)) (multipliers.zip results) := by
  induction h generalizing multipliers with
  | nil =>
    rw [List.zip_nil_right]
    exact SameSum.refl []
  | @cons p r parts results hp _ ih =>
    obtain ⟨m, multipliers, rfl⟩ := List.exists_cons_of_length_eq_add_one hlen.symm
    have hrest := ih (by simpa using hlen)
    have hfirst : SameSum ((p.2.map (· * m)).zip p.1) [(m, r)] := by
      have hscaled := (sameSum_of_merge hp).scale m
      rw [List.map_singleton, scaledTerm, one_mul] at hscaled
      rw [List.zip_map_left]
      exact hscaled
    have hlength : (p.2.map (· * m)).length = p.1.length := by
      rw [List.length_map, length_of_merge hp]
    simp only [allFactors, allParts, List.zip_cons_cons, List.flatMap_cons,
      List.zip_append hlength] at hrest ⊢
    exact hfirst.append hrest

omit [CommSemiring α] in
/-- A merged allocation has the size of all its parts, of which there is one. -/
theorem sizes_of_merge [Zero α] [Add α] [Mul α] {ps : List (Allocation ρ α)} {fs : List α}
    {r : Allocation ρ α} (h : merge ps fs = .ok r) :
    ∃ first rest, ps = first :: rest ∧ (first.nx = r.nx ∧ first.ny = r.ny) ∧
      first.shape = r.shape ∧ ∀ a ∈ ps, a.nx = r.nx ∧ a.ny = r.ny := by
  obtain ⟨first, rest, rfl, -, hsame, rfl⟩ := merge_eq_ok_iff.mp h
  exact ⟨first, rest, rfl, ⟨rfl, rfl⟩, rfl, hsame⟩

/-- The first part of another size has the size of the first allocation that does. -/
theorem Merged.find?_other (h : Merged parts results) (nx ny : Int) :
    ((allParts parts).find? fun a => a.nx ≠ nx || a.ny ≠ ny).map (fun a => (a.nx, a.ny)) =
      (results.find? fun a => a.nx ≠ nx || a.ny ≠ ny).map fun a => (a.nx, a.ny) := by
  induction h with
  | nil => rfl
  | @cons p r parts results hp _ ih =>
    obtain ⟨first, rest, hcons, hfirst, -, hsame⟩ := sizes_of_merge hp
    cases hother : r.nx ≠ nx || r.ny ≠ ny with
    | true =>
      simp only [allParts, List.flatMap_cons, hcons, List.cons_append, List.find?_cons, hfirst.1,
        hfirst.2, hother, Option.map_some]
    | false =>
      have hnone : p.1.find? (fun a => a.nx ≠ nx || a.ny ≠ ny) = none := by
        refine find?_other_eq_none_iff.mpr fun a ha => ?_
        simpa [(hsame a ha).1, (hsame a ha).2] using hother
      rw [allParts, List.flatMap_cons, List.find?_append, hnone, Option.none_or, List.find?_cons,
        hother]
      exact ih

theorem eq_of_sameSum {ts us : List (α × Allocation ρ α)} {a b : Allocation ρ α}
    (h : SameSum ts us) (ha : SameSum ts [(1, a)]) (hb : SameSum us [(1, b)])
    (hsetting : a.setting = b.setting) : a = b := by
  have hcells : a.cells = b.cells := by
    have heq := (ha.cells.symm.trans h.cells).trans hb.cells
    rwa [List.flatMap_singleton, List.flatMap_singleton, scaledCells_one, scaledCells_one] at heq
  have htotal : a.totalWeight = b.totalWeight := by
    have heq := (ha.totalWeight.symm.trans h.totalWeight).trans hb.totalWeight
    rwa [List.map_singleton, List.map_singleton, List.sum_singleton, List.sum_singleton, one_mul,
      one_mul] at heq
  have hcovered : a.covered = b.covered :=
    Option.some.inj ((ha.covered.symm.trans h.covered).trans hb.covered)
  cases a
  cases b
  simp only [setting, Prod.mk.injEq] at hsetting hcells htotal hcovered
  obtain ⟨hnx, hny, hshape⟩ := hsetting
  rw [hcells, htotal, hcovered, hnx, hny, hshape]

/-- Merging what is merged already is merging all parts under the products of the factors. -/
theorem Merged.merge_eq (h : Merged parts results) (hlen : results.length = multipliers.length) :
    merge results multipliers = merge (allParts parts) (allFactors parts multipliers) := by
  have hcount := h.length_all hlen
  have hsum := h.sameSum hlen
  have hfind := h.find?_other
  cases h with
  | nil => rfl
  | @cons p r parts results hp _ =>
    obtain ⟨first, rest, hcons, hfirst, hshape, -⟩ := sizes_of_merge hp
    have hall : allParts (p :: parts) = first :: (rest ++ allParts parts) := by
      rw [allParts, List.flatMap_cons, hcons]
      rfl
    have hfind := hfind r.nx r.ny
    cases hother : (r :: results).find? fun a => a.nx ≠ r.nx || a.ny ≠ r.ny with
    | none =>
      rw [hother, Option.map_none, Option.map_eq_none_iff, find?_other_eq_none_iff] at hfind
      have hsizes : ∀ a ∈ allParts (p :: parts), a.nx = first.nx ∧ a.ny = first.ny := by
        intro a ha
        rw [hfirst.1, hfirst.2]
        exact hfind a ha
      have hm := merge_eq_ok_iff.mpr ⟨r, results, rfl, hlen, find?_other_eq_none_iff.mp hother, rfl⟩
      have hm' := merge_eq_ok_iff.mpr ⟨first, _, hall, hcount, hsizes, rfl⟩
      rw [hm, hm']
      refine congrArg Except.ok (Eq.symm ?_)
      refine eq_of_sameSum hsum (sameSum_of_merge hm') (sameSum_of_merge hm) ?_
      simp only [setting, hfirst, hshape]
    | some other =>
      rw [hother, Option.map_some] at hfind
      obtain ⟨other', hother', hsize⟩ := Option.map_eq_some_iff.mp hfind
      obtain ⟨hnx, hny⟩ : other'.nx = other.nx ∧ other'.ny = other.ny := Prod.ext_iff.mp hsize
      rw [hall] at hother' hcount ⊢
      rw [merge, if_neg (not_not.mpr hlen), merge, if_neg (not_not.mpr hcount), hother, hfirst.1,
        hfirst.2, hother']
      simp only [hnx, hny]

end Nested

/-! ## Linearity -/

theorem within_of_merge [Zero α] [Add α] [Mul α] {results : List (Allocation ρ α)}
    {multipliers : List α} {m : Allocation ρ α} (h : merge results multipliers = .ok m)
    (hwithin : ∀ r ∈ results, ∀ c ∈ r.cells, c.Within r.nx r.ny) :
    ∀ c ∈ m.cells, c.Within m.nx m.ny := by
  obtain ⟨first, rest, -, -, hsame, rfl⟩ := merge_eq_ok_iff.mp h
  intro c hc
  obtain ⟨p, hp, hc⟩ := List.mem_flatMap.mp hc
  obtain ⟨d, hd, rfl⟩ := List.mem_map.mp hc
  have hr := (List.of_mem_zip hp).1
  have hinside := hwithin p.1 hr d hd
  rwa [(hsame p.1 hr).1, (hsame p.1 hr).2] at hinside

variable [Field α] [Tally α] [ExactTally α] [BEq α] [LawfulBEq α]

/-- When allocations can be merged, what the merged one weighs and shows in its table, that merging
in two steps is merging in one, and that merging in a memory is the same and leaves every allocation
as it is. -/
theorem merge_linear (results : List (Allocation ρ α)) (multipliers : List α) :
    ((∃ e, merge results multipliers = .error e) ↔ results = [] ∨
      results.length ≠ multipliers.length ∨
      ∃ r ∈ results, ∃ s ∈ results, (r.nx, r.ny) ≠ (s.nx, s.ny)) ∧
    (∀ m, merge results multipliers = .ok m →
      (∀ row col, m.weightAt row col = ((multipliers.zip results).mapM fun t : α × Allocation ρ α =>
        (t.2.weightAt row col).map (t.1 * ·)).map List.sum) ∧
      ((∀ r ∈ results, ¬ (r.nx < 0 ∨ r.ny < 0) ∧ ∀ c ∈ r.cells, c.Within r.nx r.ny) →
        ∃ w s, m.Tabled w s)) ∧
    (∀ parts, Merged parts results → results.length = multipliers.length →
      merge results multipliers = merge (allParts parts) (allFactors parts multipliers)) ∧
    ∀ memory stored, stored.map (Stored.read memory) = results.map some →
      (mergeStored memory stored multipliers).2.map
          (Stored.read (mergeStored memory stored multipliers).1) =
        (merge results multipliers).map some ∧
      ∀ (s : Stored ρ α) a, s.read memory = some a →
        s.read (mergeStored memory stored multipliers).1 = some a := by
  refine ⟨exists_merge_error_iff, fun m hm => ⟨(sameSum_of_merge hm).weightAt, fun hsizes => ?_⟩,
    fun parts hparts hlen => hparts.merge_eq hlen, fun memory stored hstored =>
      ⟨mergeStored_reads hstored multipliers, fun s a hread =>
        read_mergeStored hread stored multipliers⟩⟩
  have hinside := within_of_merge hm fun r hr => (hsizes r hr).2
  obtain ⟨first, rest, heq, -, -, rfl⟩ := merge_eq_ok_iff.mp hm
  have hsize := (hsizes first (heq ▸ List.mem_cons_self)).1
  exact ⟨_, _, tabled hsize hinside⟩

/-- An allocation without regions, its cells given by row, column and weight. -/
def bare (nx ny : Int) (cells : List (Int × Int × ℚ)) : Allocation Unit ℚ :=
  ⟨cells.map fun c => ⟨default, (), c.1, c.2.1, c.2.2, none⟩, true, nx, ny, none, 1⟩

/-- The weights at one place cancel out, and the other place has all that is left. -/
theorem merge_linear_cancelling :
    ∃ m, merge [bare 2 1 [(0, 0, 1 / 2), (0, 1, 1 / 2)], bare 2 1 [(0, 0, 1)]] [2, -1] = .ok m ∧
      (∃ w, m.Tabled w 1) ∧
      merge [m] [3] = merge [bare 2 1 [(0, 0, 1 / 2), (0, 1, 1 / 2)], bare 2 1 [(0, 0, 1)]]
        [6, -3] ∧
      Stored.read (mergeStored (bare 2 1 [(0, 0, 1)]).cells [⟨[0], true, 2, 1, none, 1⟩] [2]).1
        ⟨[0], true, 2, 1, none, 1⟩ = some (bare 2 1 [(0, 0, 1)]) := by
  obtain ⟨-, htable, -, -⟩ := merge_linear
    [bare 2 1 [(0, 0, 1 / 2), (0, 1, 1 / 2)], bare 2 1 [(0, 0, 1)]] [2, -1]
  obtain ⟨m, hm⟩ : ∃ m, merge [bare 2 1 [(0, 0, 1 / 2), (0, 1, 1 / 2)], bare 2 1 [(0, 0, 1)]]
      [2, -1] = .ok m := ⟨_, rfl⟩
  refine ⟨m, hm, ?_, ?_, ?_⟩
  · obtain ⟨w, s, hws⟩ := (htable m hm).2 (by decide)
    have hsum : s = m.weightSum := Except.ok.inj (hws.total.symm.trans (total_eq m))
    have hone : m.weightSum = 1 := by
      rw [← Except.ok.inj hm]
      decide +kernel
    rw [hsum, hone] at hws
    exact ⟨w, hws⟩
  · have hnested := (merge_linear [m] [3]).2.2.1 [(_, [2, -1])] (.cons hm .nil) rfl
    have hfactors : [2 * 3, -1 * 3] = [(6 : ℚ), -3] := by norm_num
    exact hnested.trans (congrArg (merge _) hfactors)
  · exact ((merge_linear [bare 2 1 [(0, 0, 1)]] [2]).2.2.2 (bare 2 1 [(0, 0, 1)]).cells
      [⟨[0], true, 2, 1, none, 1⟩] rfl).2 _ _ rfl

/-- An allocation of a negative size without cells can be merged, but has no table. -/
theorem merge_negative_size :
    ∃ m, merge [bare (-1) 2 []] [1] = .ok m ∧ m.total = .ok 0 ∧ m.dense = .error .negativeSize :=
  ⟨_, rfl, rfl, rfl⟩

end Gridding.Allocation
