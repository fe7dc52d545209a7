import Gridding.Proofs.Fallible
import Gridding.Surrogate.Rows
import Mathlib

/-!
# Rows of tables

The weight of a row is the sum of its amounts in the weight columns, each times its factor. So every
row is weighed by itself, and the weights of chosen rows are the chosen weights: to leave out rows
before they are weighed comes to the same as to leave them out afterwards. The weighted rows that meet
a region are those of all weighted rows that do, and the same errors come of both.
-/

namespace Gridding

section Places

variable {β γ : Type} {places : List Nat}

theorem map_getD_range (xs : List β) (d : β) : (List.range xs.length).map (xs.getD · d) = xs := by
  refine List.ext_getElem (by simp) fun i h₁ h₂ => ?_
  simp [List.getD_eq_getElem?_getD, List.getElem?_eq_getElem h₂]

theorem map_filter_range_zip (p : β → Bool) (xs : List β) (ys : List γ) (b : β) (c : γ)
    (h : ys.length = xs.length) :
    ((List.range xs.length).filter fun i => p (xs.getD i b)).map
        (fun i => (xs.getD i b, ys.getD i c)) =
      (xs.zip ys).filter fun e => p e.1 := by
  have hzip : xs.zip ys = (List.range xs.length).map fun i => (xs.getD i b, ys.getD i c) := by
    conv_lhs => rw [← map_getD_range xs b, ← map_getD_range ys c, h]
    exact List.zip_map'
  rw [hzip, List.filter_map]
  rfl

end Places

/-! ## Weights of chosen rows -/

section Weights

variable {α : Type} [Zero α] [Add α] [Mul α] [Amount α] {columns : List Column} {places : List Nat}
  {n : Nat}

theorem Column.length_select (c : Column) (places : List Nat) :
    (c.select places).values.length = places.length := by
  simp [Column.select]

omit [Add α] [Mul α] in
theorem Column.amounts_select (c : Column) (hplaces : ∀ i ∈ places, i < c.values.length) :
    ((c.select places).amounts : List α) = places.map fun i => c.amounts.getD i 0 := by
  rw [amounts, select, List.map_map]
  refine List.map_congr_left fun i hi => ?_
  have hlt := hplaces i hi
  simp [amounts, List.getD_eq_getElem?_getD, hlt]

omit [Add α] [Mul α] [Amount α] in
theorem zipWith_select (f : α → α → α) {totals xs : List α} (htotals : ∀ i ∈ places, i < totals.length)
    (hxs : ∀ i ∈ places, i < xs.length) :
    List.zipWith f (places.map fun i => totals.getD i 0) (places.map fun i => xs.getD i 0) =
      places.map fun i => (List.zipWith f totals xs).getD i 0 := by
  rw [List.zipWith_map, List.zipWith_self]
  refine List.map_congr_left fun i hi => ?_
  simp [List.getD_eq_getElem?_getD, htotals i hi, hxs i hi]

theorem addColumns_select (hcolumns : ∀ c ∈ columns, c.values.length = n) (hplaces : ∀ i ∈ places, i < n)
    (terms : List (String × α)) (totals : List α) (htotals : totals.length = n) :
    addColumns (columns.map (·.select places)) terms (places.map fun i => totals.getD i 0) =
      (addColumns columns terms totals).map fun ws => places.map fun i => ws.getD i 0 := by
  induction terms generalizing totals with
  | nil => rfl
  | cons term terms ih =>
    obtain ⟨name, factor⟩ := term
    have hfind : (columns.map (·.select places)).find? (fun c => c.name == name) =
        (columns.find? fun c => c.name == name).map (·.select places) := by
      rw [List.find?_map]
      rfl
    rw [addColumns, addColumns, hfind]
    cases hc : columns.find? fun c => c.name == name with
    | none => rfl
    | some c =>
      have hlength := hcolumns c (List.mem_of_find?_eq_some hc)
      have hamounts : (c.amounts : List α).length = n := by rw [Column.amounts, List.length_map, hlength]
      simp only [Option.map_some]
      rw [c.amounts_select (fun i hi => hlength.symm ▸ hplaces i hi),
        zipWith_select _ (fun i hi => htotals.symm ▸ hplaces i hi)
          (fun i hi => hamounts.symm ▸ hplaces i hi)]
      exact ih _ (by rw [List.length_zipWith, htotals, hamounts, min_self])

omit [Zero α] in
theorem length_addColumns (hcolumns : ∀ c ∈ columns, c.values.length = n) {terms : List (String × α)}
    {totals ws : List α} (htotals : totals.length = n) (h : addColumns columns terms totals = .ok ws) :
    ws.length = n := by
  induction terms generalizing totals with
  | nil =>
    cases h
    exact htotals
  | cons term terms ih =>
    rw [addColumns] at h
    split at h
    · cases h
    · rename_i c hc
      refine ih ?_ h
      rw [List.length_zipWith, htotals, Column.amounts, List.length_map,
        hcolumns c (List.mem_of_find?_eq_some hc), min_self]

variable [One α] (names : List String) (factors : List α)

theorem rowWeights_select (hcolumns : ∀ c ∈ columns, c.values.length = n)
    (hplaces : ∀ i ∈ places, i < n) :
    rowWeights (columns.map (·.select places)) places.length names factors =
      (rowWeights columns n names factors).map fun ws => places.map fun i => ws.getD i 0 := by
  have hconst (x : α) : List.replicate places.length x =
      places.map fun i => (List.replicate n x).getD i 0 := by
    rw [← List.map_const']
    refine List.map_congr_left fun i hi => ?_
    simp [List.getD_eq_getElem?_getD, hplaces i hi]
  unfold rowWeights
  split
  · exact congrArg Except.ok (hconst 1)
  · split
    · rfl
    · rw [hconst 0]
      exact addColumns_select hcolumns hplaces _ _ (List.length_replicate ..)

variable {names factors} in
theorem length_rowWeights (hcolumns : ∀ c ∈ columns, c.values.length = n) {ws : List α}
    (h : rowWeights columns n names factors = .ok ws) : ws.length = n := by
  unfold rowWeights at h
  split at h
  · cases h
    exact List.length_replicate ..
  · split at h
    · cases h
    · exact length_addColumns hcolumns (List.length_replicate ..) h

end Weights

/-! ## The weight of a row -/

section RowWeights

variable {α : Type} [Semiring α] [Amount α] {columns : List Column} {n : Nat}

/-- The amount of a named column in a row. -/
def amountInRow (columns : List Column) (name : String) (i : Nat) : α :=
  (columns.find? fun c => c.name == name).elim 0 fun c => c.amounts.getD i 0

/-- The sum of the amounts in a row, each times its factor; one without weight columns. -/
def weightInRow (columns : List Column) (names : List String) (factors : List α) (i : Nat) : α :=
  if names.isEmpty then 1
  else ((names.zip (if factors.isEmpty then names.map fun _ => 1 else factors)).map fun term =>
    term.2 * amountInRow columns term.1 i).sum

theorem addColumns_eq (hcolumns : ∀ c ∈ columns, c.values.length = n) {terms : List (String × α)}
    (hknown : ∀ term ∈ terms, ∃ c ∈ columns, c.name = term.1) {totals : List α}
    (htotals : totals.length = n) : addColumns columns terms totals =
      .ok ((List.range n).map fun i =>
        totals.getD i 0 + (terms.map fun term => term.2 * amountInRow columns term.1 i).sum) := by
  induction terms generalizing totals with
  | nil =>
    have htotal : (List.range n).map (fun i => totals.getD i 0) = totals :=
      htotals ▸ map_getD_range totals 0
    simp only [addColumns, List.map_nil, List.sum_nil, add_zero, htotal]
  | cons term terms ih =>
    obtain ⟨name, factor⟩ := term
    obtain ⟨c, hc, hname⟩ := hknown (name, factor) List.mem_cons_self
    obtain ⟨c, hfind⟩ := Option.isSome_iff_exists.mp
      (List.find?_isSome (p := fun c : Column => c.name == name).mpr ⟨c, hc, beq_iff_eq.mpr hname⟩)
    have hamounts : (c.amounts : List α).length = n := by
      rw [Column.amounts, List.length_map, hcolumns c (List.mem_of_find?_eq_some hfind)]
    have hrow (i : Nat) (hi : i < n) :
        (List.zipWith (fun t x => t + factor * x) totals c.amounts).getD i 0 =
          totals.getD i 0 + factor * amountInRow columns name i := by
      rw [amountInRow, hfind]
      simp [List.getD_eq_getElem?_getD, htotals, hamounts, hi]
    rw [addColumns, hfind]
    dsimp only
    rw [ih (fun term h => hknown term (List.mem_cons_of_mem _ h))
      (by rw [List.length_zipWith, htotals, hamounts, min_self])]
    refine congrArg Except.ok (List.map_congr_left fun i hi => ?_)
    rw [hrow i (List.mem_range.mp hi), List.map_cons, List.sum_cons, add_assoc]

/-- Every row has its weight if the weight columns are there and have a factor each or none has. -/
theorem rowWeights_eq (hcolumns : ∀ c ∈ columns, c.values.length = n) {names : List String}
    (hnames : ∀ name ∈ names, ∃ c ∈ columns, c.name = name) {factors : List α}
    (hfactors : factors = [] ∨ factors.length = names.length) :
    rowWeights columns n names factors = .ok ((List.range n).map (weightInRow columns names factors)) := by
  unfold rowWeights weightInRow
  split
  case isTrue =>
    rw [List.map_const', List.length_range]
  case isFalse =>
    have hcount : ¬ (!factors.isEmpty && decide (factors.length ≠ names.length)) = true := by
      rcases hfactors with rfl | heq
      · simp
      · simp [heq]
    rw [if_neg hcount]
    dsimp only
    rw [addColumns_eq hcolumns (fun term h => hnames _ (List.of_mem_zip h).1)
      (List.length_replicate ..)]
    refine congrArg Except.ok (List.map_congr_left fun i hi => ?_)
    simp [List.getD_eq_getElem?_getD, List.mem_range.mp hi]

end RowWeights

namespace Table

variable {ρ α ε : Type} {t : Table ρ}

/-- Is there a value for every row in every column? -/
def IsFull (t : Table ρ) : Prop := ∀ c ∈ t.columns, c.values.length = t.size

/-- The rows with a region, with weights. -/
def rows (t : Table ρ) (ws : List α) : List (ρ × α) :=
  (t.regions.zip ws).filterMap fun e => e.1.map (·, e.2)

theorem isFull_select (t : Table ρ) (places : List Nat) : (t.select places).IsFull := by
  intro c hc
  obtain ⟨c, -, rfl⟩ := List.mem_map.mp hc
  rw [Column.length_select, size, select, List.length_map]

theorem isFull_filtered (hfull : t.IsFull) {f : Option RowFilter} {kept : Table ρ}
    (hkept : t.filtered f = .ok kept) : kept.IsFull := by
  cases f with
  | none =>
    cases hkept
    exact hfull
  | some f =>
    rw [filtered] at hkept
    cases hrows : f.rows t.columns t.columnNames with
    | error e =>
      rw [hrows] at hkept
      cases hkept
    | ok places =>
      rw [hrows] at hkept
      cases hkept
      exact isFull_select t places

theorem placesWhere_eq (t : Table ρ) (keep : Option ρ → Bool) :
    t.placesWhere keep = (List.range t.size).filter fun i => keep (t.regions.getD i none) := by
  have hzip : (List.range t.size).zip t.regions =
      (List.range t.size).map fun i => (i, t.regions.getD i none) := by
    conv_lhs => rw [← List.map_id (List.range t.size), ← map_getD_range t.regions none]
    exact List.zip_map'
  rw [placesWhere, hzip, List.filterMap_map, ← List.filterMap_eq_filter]
  refine List.filterMap_congr fun i _ => ?_
  simp [Option.guard]

theorem lt_of_mem_placesWhere {keep : Option ρ → Bool} {i : Nat} (h : i ∈ t.placesWhere keep) :
    i < t.size := by
  rw [placesWhere_eq] at h
  exact List.mem_range.mp (List.mem_filter.mp h).1

theorem regions_select (t : Table ρ) (places : List Nat) :
    (t.select places).regions = places.map fun i => t.regions.getD i none := by
  rw [select]
  refine List.map_congr_left fun i _ => ?_
  simp [Array.getD_eq_getD_getElem?, List.getD_eq_getElem?_getD]

theorem isSome_of_mem_having {keep : ρ → Bool} {o : Option ρ} (h : o ∈ (t.having keep).regions) :
    o.isSome = true := by
  rw [having, regions_select] at h
  obtain ⟨i, hi, rfl⟩ := List.mem_map.mp h
  rw [placesWhere_eq] at hi
  have hany := (List.mem_filter.mp hi).2
  cases hr : t.regions.getD i none with
  | none =>
    rw [hr] at hany
    cases hany
  | some r => rfl

theorem rows_of_isSome {rs : List (Option ρ)} {columns : List Column} (h : ∀ o ∈ rs, o.isSome = true)
    (ws : List α) : (⟨rs, columns⟩ : Table ρ).rows ws = (rs.filterMap id).zip ws := by
  change (rs.zip ws).filterMap _ = _
  induction rs generalizing ws with
  | nil => rfl
  | cons o rs ih =>
    obtain ⟨r, rfl⟩ := Option.isSome_iff_exists.mp (h o List.mem_cons_self)
    cases ws with
    | nil => rw [List.zip_nil_right, List.zip_nil_right, List.filterMap_nil]
    | cons w ws =>
      simp [ih fun o ho => h o (List.mem_cons_of_mem _ ho)]

theorem sum_rows [AddCommMonoid α] {ws : List α} (h : ∀ o ∈ t.regions, o.isSome = true)
    (hws : ws.length = t.size) : ((t.rows ws).map (·.2)).sum = ws.sum := by
  have hall : (t.regions.filterMap id).length = t.size := List.filterMap_length_eq_length.mpr h
  have hrows : t.rows ws = (t.regions.filterMap id).zip ws := rows_of_isSome h ws
  rw [hrows, List.map_snd_zip (hws.trans hall.symm).le]

theorem some_mem_of_mem_rows {ws : List α} {row : ρ × α} (h : row ∈ t.rows ws) :
    some row.1 ∈ t.regions := by
  obtain ⟨⟨o, w⟩, he, hrow⟩ := List.mem_filterMap.mp h
  obtain ⟨q, rfl, rfl⟩ := Option.map_eq_some_iff.mp hrow
  exact (List.of_mem_zip he).1

theorem rows_having (keep : ρ → Bool) {ws : List α} (hws : ws.length = t.size) (d : α) :
    (t.having keep).rows ((t.placesWhere (Option.any keep)).map fun i => ws.getD i d) =
      (t.rows ws).filter fun row => keep row.1 := by
  rw [rows, having, regions_select, List.zip_map', placesWhere_eq, size,
    map_filter_range_zip (Option.any keep) t.regions ws none d hws, List.filterMap_filter, rows,
    List.filter_filterMap]
  refine List.filterMap_congr fun e _ => ?_
  obtain ⟨o, w⟩ := e
  cases o with
  | none => rfl
  | some r => cases h : keep r <;> simp [Option.filter, h]

theorem isSome_of_used [Region ρ α ε] {project : Table ρ → Except ProjectionError (Table ρ)}
    {t t' : Table ρ} {r : Request ρ α} (h : t.used project r = .ok t') :
    ∀ o ∈ t'.regions, o.isSome = true := by
  obtain ⟨t₁, -, h⟩ := bind_eq_ok.mp h
  obtain ⟨t₂, -, h⟩ := bind_eq_ok.mp h
  split at h <;> cases h <;> exact fun o => isSome_of_mem_having

section Weigh

variable [Zero α] [One α] [Add α] [Mul α] [Amount α]

/-- The rows with a region, each with its weight. -/
def weigh (t : Table ρ) (names : List String) (factors : List α) :
    Except WeightError (List (ρ × α)) :=
  (rowWeights t.columns t.size names factors).map t.rows

/-- Every row is weighed by itself. -/
theorem weigh_having (hfull : t.IsFull) (keep : ρ → Bool) (names : List String) (factors : List α) :
    (t.having keep).weigh names factors =
      (t.weigh names factors).map (List.filter fun row => keep row.1) := by
  have hsize : (t.having keep).size = (t.placesWhere (Option.any keep)).length :=
    List.length_map ..
  have hplaces : ∀ i ∈ t.placesWhere (Option.any keep), i < t.size := fun i => lt_of_mem_placesWhere
  have hweights := rowWeights_select names factors hfull hplaces
  have hcolumns : (t.having keep).columns =
      t.columns.map (·.select (t.placesWhere (Option.any keep))) := rfl
  rw [weigh, hsize, hcolumns, hweights, weigh]
  cases hws : rowWeights t.columns t.size names factors with
  | error e => rfl
  | ok ws => exact congrArg Except.ok (rows_having keep (length_rowWeights hfull hws) 0)

variable [Region ρ α ε]

theorem weightedRows_eq (project : Table ρ → Except ProjectionError (Table ρ)) (t : Table ρ)
    (r : Request ρ α) : t.weightedRows project .ok r =
      t.used project r >>= fun t => (t.weigh r.weightColumns r.weightFactors).mapError .weights := by
  rw [weightedRows]
  cases hused : t.used project r with
  | error e => rfl
  | ok t' =>
    have hsome : ∀ o ∈ t'.regions, o.isSome = true := isSome_of_used hused
    have hregions : (t'.regions.filterMap id).mapM Except.ok =
        (.ok (t'.regions.filterMap id) : Except GeometryError (List ρ)) :=
      (List.mapM_pure (m := Except GeometryError)).trans (by rw [List.map_id']; rfl)
    simp only [bind, Except.bind, weigh, hregions]
    cases rowWeights t'.columns t'.size r.weightColumns r.weightFactors with
    | error e => rfl
    | ok ws => exact congrArg Except.ok (rows_of_isSome hsome ws).symm

/-- To leave out what does not meet a region before rows are weighed is to leave it out
afterwards. -/
theorem weightedRows_clipTo (project : Table ρ → Except ProjectionError (Table ρ)) (t : Table ρ)
    (r : Request ρ α) (region : ρ) :
    t.weightedRows project .ok { r with clipTo := some region } =
      (t.weightedRows project .ok { r with clipTo := none }).map
        (List.filter fun row => Region.meets row.1 region) := by
  rw [weightedRows_eq, weightedRows_eq, used, used]
  cases t.filtered r.filter with
  | error e => rfl
  | ok t₁ =>
    simp only [Except.mapError, bind, Except.bind]
    cases project t₁ with
    | error e => rfl
    | ok t₂ =>
      have hfull : t₂.present.IsFull := isFull_select _ _
      have hweigh := weigh_having hfull (fun q => Region.meets q region) r.weightColumns
        r.weightFactors
      simp only [pure, Except.pure]
      rw [meeting, hweigh]
      cases t₂.present.weigh r.weightColumns r.weightFactors <;> rfl

/-- What is weighed if nothing is left out but by the filter. -/
theorem weightedRows_of_present {project : Table ρ → Except ProjectionError (Table ρ)} {t kept : Table ρ}
    {r : Request ρ α} (hkept : t.filtered r.filter = .ok kept) (hproject : project kept = .ok kept)
    (hclip : r.clipTo = none) (hfull : kept.IsFull)
    (hpresent : ∀ q, some q ∈ kept.regions → Region.isEmpty q = false) :
    t.weightedRows project .ok r =
      (kept.weigh r.weightColumns r.weightFactors).mapError .weights := by
  have hused : t.used project r = .ok kept.present := by
    simp [used, hkept, hproject, hclip, Except.mapError, bind, Except.bind, pure, Except.pure]
  rw [weightedRows_eq, hused]
  change (kept.present.weigh _ _).mapError LayerError.weights = _
  rw [present, weigh_having hfull]
  refine congrArg (Except.mapError _) ?_
  cases hweigh : kept.weigh r.weightColumns r.weightFactors with
  | error e => rfl
  | ok rows =>
    refine congrArg Except.ok (List.filter_eq_self.mpr fun row hrow => ?_)
    obtain ⟨ws, -, rfl⟩ := map_eq_ok.mp hweigh
    rw [hpresent row.1 (some_mem_of_mem_rows hrow)]
    rfl

variable [Div α] [LE α] [DecidableLE α] [BEq α] [Tally α]

/-- The dataset of the rows that meet a region, with their weights. -/
theorem dataset_clipTo {project : Table ρ → Except ProjectionError (Table ρ)} {t kept : Table ρ}
    {f : Option RowFilter} (hkept : t.filtered f = .ok kept) (hproject : project kept = .ok kept)
    (hfull : kept.IsFull) (hpresent : ∀ q, some q ∈ kept.regions → Region.isEmpty q = false)
    {names : List String} {factors : List α} {rows : List (ρ × α)}
    (hrows : kept.weigh names factors = .ok rows) (region : ρ) (asDensity : Bool) :
    t.dataset project .ok ⟨names, factors, f, some region, asDensity⟩ =
      .ok (Dataset.ofRows asDensity (rows.filter fun row => Region.meets row.1 region)) := by
  rw [dataset, weightedRows_clipTo project t ⟨names, factors, f, none, asDensity⟩,
    weightedRows_of_present hkept hproject rfl hfull hpresent]
  simp only [hrows]
  rfl

end Weigh

end Table

end Gridding
