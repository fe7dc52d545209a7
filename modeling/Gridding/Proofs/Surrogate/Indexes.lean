import Gridding.Proofs.Surrogate.Listing

/-!
# The two indexes of a register

What is added to a register is entered under its name and under its code. Under each key stands what
was added last with it, so what is added later may drive an earlier object out of one index and
leave it in the other. The indexes agree if and only if that never happens: what holds its place
under its name holds its place under its code, and the other way around.

Nothing is assumed of the objects but that each has a label, so they may be surrogates or references
to them.
-/

namespace Gridding

namespace Register

variable {S : Type}

/-- The register of what is added one after the other. -/
def ofList (label : S → Label) (ss : List S) : Register S :=
  ss.foldl (fun r s => r.put (label s) s) .empty

/-- What was added last with a key. -/
def latest (key : S → RegistryKey) (ss : List S) (k : RegistryKey) : Option S :=
  ss.reverse.find? fun s => k == key s

/-- Has nothing that was added later taken the place of an object under its key? -/
def HoldsPlace (key : S → RegistryKey) (ss : List S) (s : S) : Prop :=
  latest key ss (key s) = some s

/-- Is an object found under some name or some code? -/
def Reaches (r : Register S) (s : S) : Prop :=
  (∃ region name, r.named region name = .ok s) ∨ ∃ region code, r.coded region code = .ok s

/-- What is found by code is found by its name, what is found by name is found by its code, and all
of it is counted. -/
structure Agree (label : S → Label) (r : Register S) : Prop where
  named_of_coded : ∀ region code s, r.coded region code = .ok s →
    r.named region (.text (label s).name) = .ok s
  coded_of_named : ∀ region name s, r.named region name = .ok s →
    r.coded region (.text (label s).code) = .ok s
  size_eq : r.size = {s | r.Reaches s}.ncard

section Latest

variable {key : S → RegistryKey} {ss : List S} {s : S} {k : RegistryKey}

/-- Of entries under their own keys, the last one of a key is what was added last with it. -/
theorem lookup_collect_map (key : S → RegistryKey) (ss : List S) (k : RegistryKey) :
    (Entries.collect (ss.map fun s => (key s, s))).lookup k = latest key ss k := by
  rw [Entries.lookup_collect, ← List.map_reverse, latest]
  induction ss.reverse with
  | nil => rfl
  | cons s ss ih =>
    rw [List.map_cons, List.lookup_cons, List.find?_cons, ih]

theorem mem_of_latest (h : latest key ss k = some s) : s ∈ ss ∧ key s = k := by
  unfold latest at h
  have hkey := List.find?_some h
  exact ⟨List.mem_reverse.mp (List.mem_of_find?_eq_some h), (eq_of_beq hkey).symm⟩

theorem holdsPlace_of_latest (h : latest key ss k = some s) : HoldsPlace key ss s := by
  rwa [HoldsPlace, (mem_of_latest h).2]

theorem holdsPlace_congr {key' : S → RegistryKey}
    (hkeys : ∀ t ∈ ss, key s = key t ↔ key' s = key' t) :
    HoldsPlace key ss s ↔ HoldsPlace key' ss s := by
  rw [HoldsPlace, HoldsPlace, latest, latest]
  rw [List.find?_congr fun t ht => ?_]
  rw [Bool.eq_iff_iff, beq_iff_eq, beq_iff_eq]
  exact hkeys t (List.mem_reverse.mp ht)

theorem finite_holdsPlace (key : S → RegistryKey) (ss : List S) :
    {s | HoldsPlace key ss s}.Finite :=
  (List.finite_toSet ss).subset fun _ h => (mem_of_latest h).1

end Latest

section Lookups

variable {r : Register S} {s : S}

theorem coded_eq_ok_iff {region : String} {code : Document} :
    r.coded (.text region) code = .ok s ↔ r.byCode.lookup (region, code.display) = some s := by
  simp only [coded]
  cases r.byCode.lookup (region, code.display) <;> simp

theorem exists_text_of_named {region name : Document} (h : r.named region name = .ok s) :
    ∃ region' name', region = .text region' ∧ name = .text name' := by
  unfold named at h
  split at h
  case h_1 region' name' => exact ⟨region', name', rfl, rfl⟩
  case h_2 => cases h

theorem exists_text_of_coded {region code : Document} (h : r.coded region code = .ok s) :
    ∃ region', region = .text region' := by
  unfold coded at h
  split at h
  case h_1 region' => exact ⟨region', rfl⟩
  case h_2 => cases h

end Lookups

section OfList

variable {label : S → Label} {ss : List S} {s : S}

theorem ofList_concat (label : S → Label) (ss : List S) (s : S) :
    ofList label (ss ++ [s]) = (ofList label ss).put (label s) s := List.foldl_concat ..

theorem byName_ofList (label : S → Label) (ss : List S) :
    (ofList label ss).byName = Entries.collect (ss.map fun s => ((Label.nameKey ∘ label) s, s)) := by
  induction ss using List.reverseRecOn with
  | nil => rfl
  | append_singleton ss s ih =>
    rw [ofList_concat, put, ih, List.map_append, List.map_singleton, Entries.collect_concat]
    rfl

theorem byCode_ofList (label : S → Label) (ss : List S) :
    (ofList label ss).byCode = Entries.collect (ss.map fun s => ((Label.codeKey ∘ label) s, s)) := by
  induction ss using List.reverseRecOn with
  | nil => rfl
  | append_singleton ss s ih =>
    rw [ofList_concat, put, ih, List.map_append, List.map_singleton, Entries.collect_concat]
    rfl

/-- A name finds what was added last with it. -/
theorem named_ofList_iff {region : Document} {name : String} :
    (ofList label ss).named region (.text name) = .ok s ↔
      ∃ region', region = .text region' ∧
        latest (Label.nameKey ∘ label) ss (region', name) = some s := by
  constructor
  · intro h
    obtain ⟨region', _, rfl, -⟩ := exists_text_of_named h
    refine ⟨region', rfl, ?_⟩
    rw [← lookup_collect_map, ← byName_ofList]
    exact named_eq_ok_iff.mp h
  · rintro ⟨region', rfl, h⟩
    rw [← lookup_collect_map, ← byName_ofList] at h
    exact named_eq_ok_iff.mpr h

/-- A code finds what was added last with it. -/
theorem coded_ofList_iff {region code : Document} :
    (ofList label ss).coded region code = .ok s ↔
      ∃ region', region = .text region' ∧
        latest (Label.codeKey ∘ label) ss (region', code.display) = some s := by
  constructor
  · intro h
    obtain ⟨region', rfl⟩ := exists_text_of_coded h
    refine ⟨region', rfl, ?_⟩
    rw [← lookup_collect_map, ← byCode_ofList]
    exact coded_eq_ok_iff.mp h
  · rintro ⟨region', rfl, h⟩
    rw [← lookup_collect_map, ← byCode_ofList] at h
    exact coded_eq_ok_iff.mpr h

theorem exists_named_iff :
    (∃ region name, (ofList label ss).named region name = .ok s) ↔
      HoldsPlace (Label.nameKey ∘ label) ss s := by
  constructor
  · rintro ⟨region, name, h⟩
    obtain ⟨_, name', -, rfl⟩ := exists_text_of_named h
    obtain ⟨region', -, hlatest⟩ := named_ofList_iff.mp h
    exact holdsPlace_of_latest hlatest
  · exact fun h => ⟨_, _, named_ofList_iff.mpr ⟨(label s).region, rfl, h⟩⟩

theorem exists_coded_iff :
    (∃ region code, (ofList label ss).coded region code = .ok s) ↔
      HoldsPlace (Label.codeKey ∘ label) ss s := by
  constructor
  · rintro ⟨region, code, h⟩
    obtain ⟨region', -, hlatest⟩ := coded_ofList_iff.mp h
    exact holdsPlace_of_latest hlatest
  · exact fun h => ⟨_, .text (label s).code, coded_ofList_iff.mpr ⟨(label s).region, rfl, h⟩⟩

theorem named_of_coded_iff :
    (∀ region code s, (ofList label ss).coded region code = .ok s →
      (ofList label ss).named region (.text (label s).name) = .ok s) ↔
      ∀ s, HoldsPlace (Label.codeKey ∘ label) ss s →
        HoldsPlace (Label.nameKey ∘ label) ss s := by
  constructor
  · intro h s hs
    obtain ⟨region, code, hcoded⟩ := exists_coded_iff.mpr hs
    exact exists_named_iff.mp ⟨_, _, h region code s hcoded⟩
  · intro h region code s hcoded
    have hname := h s (exists_coded_iff.mp ⟨region, code, hcoded⟩)
    obtain ⟨region', rfl, hlatest⟩ := coded_ofList_iff.mp hcoded
    have hregion : (label s).region = region' := congrArg Prod.fst (mem_of_latest hlatest).2
    exact named_ofList_iff.mpr ⟨region', rfl, hregion ▸ hname⟩

theorem coded_of_named_iff :
    (∀ region name s, (ofList label ss).named region name = .ok s →
      (ofList label ss).coded region (.text (label s).code) = .ok s) ↔
      ∀ s, HoldsPlace (Label.nameKey ∘ label) ss s →
        HoldsPlace (Label.codeKey ∘ label) ss s := by
  constructor
  · intro h s hs
    obtain ⟨region, name, hnamed⟩ := exists_named_iff.mpr hs
    exact exists_coded_iff.mp ⟨_, _, h region name s hnamed⟩
  · intro h region name s hnamed
    have hcode := h s (exists_named_iff.mp ⟨region, name, hnamed⟩)
    obtain ⟨_, name', -, rfl⟩ := exists_text_of_named hnamed
    obtain ⟨region', rfl, hlatest⟩ := named_ofList_iff.mp hnamed
    have hregion : (label s).region = region' := congrArg Prod.fst (mem_of_latest hlatest).2
    exact coded_ofList_iff.mpr ⟨region', rfl, hregion ▸ hcode⟩

/-- The entries of names are counted, and each holds an object of its own. -/
theorem size_ofList (label : S → Label) (ss : List S) :
    (ofList label ss).size = {s | HoldsPlace (Label.nameKey ∘ label) ss s}.ncard := by
  classical
  have hkeys : ((ofList label ss).byName.map (·.1)).Nodup := by
    rw [byName_ofList]
    exact Entries.nodup_keys_collect _
  have hlatest : ∀ {k s}, (k, s) ∈ (ofList label ss).byName ↔
      latest (Label.nameKey ∘ label) ss k = some s := by
    intro k s
    rw [← lookup_collect_map, ← byName_ofList]
    exact ⟨fun h => lookup_of_mem_of_nodup h hkeys, mem_of_lookup⟩
  have hvalues : ((ofList label ss).byName.map (·.2)).Nodup := by
    have hof : ((ofList label ss).byName.map (·.2)).map (Label.nameKey ∘ label) =
        (ofList label ss).byName.map (·.1) := by
      rw [List.map_map]
      exact List.map_congr_left fun e he => (mem_of_latest (hlatest.mp he)).2
    exact List.Nodup.of_map (Label.nameKey ∘ label) (hof ▸ hkeys)
  have hset : {s | HoldsPlace (Label.nameKey ∘ label) ss s} =
      ((ofList label ss).byName.map (·.2)).toFinset := by
    ext s
    simp only [Set.mem_ofPred_eq, List.coe_toFinset, List.mem_map]
    constructor
    · exact fun h => ⟨_, hlatest.mpr h, rfl⟩
    · rintro ⟨⟨k, s⟩, he, rfl⟩
      exact holdsPlace_of_latest (hlatest.mp he)
  rw [hset, Set.ncard_coe_finset, List.toFinset_card_of_nodup hvalues, List.length_map, size]

/-- All objects that are found are counted if and only if all are found by name. -/
theorem size_eq_iff :
    (ofList label ss).size = {s | (ofList label ss).Reaches s}.ncard ↔
      ∀ s, HoldsPlace (Label.codeKey ∘ label) ss s →
        HoldsPlace (Label.nameKey ∘ label) ss s := by
  have hreaches : {s | (ofList label ss).Reaches s} =
      {s | HoldsPlace (Label.nameKey ∘ label) ss s} ∪
        {s | HoldsPlace (Label.codeKey ∘ label) ss s} := by
    ext s
    exact or_congr exists_named_iff exists_coded_iff
  rw [size_ofList, hreaches]
  constructor
  · intro h s hs
    have hall := Set.eq_of_subset_of_ncard_le Set.subset_union_left h.ge
      ((finite_holdsPlace _ ss).union (finite_holdsPlace _ ss))
    exact hall.symm.subset (.inr hs)
  · intro h
    have hsub : {s | HoldsPlace (Label.codeKey ∘ label) ss s} ⊆
        {s | HoldsPlace (Label.nameKey ∘ label) ss s} := h
    rw [Set.union_eq_self_of_subset_right hsub]

theorem agree_of_holdsPlace_iff (h : ∀ s ∈ ss,
    (HoldsPlace (Label.nameKey ∘ label) ss s ↔ HoldsPlace (Label.codeKey ∘ label) ss s)) :
    Agree label (ofList label ss) := by
  have hname : ∀ s, HoldsPlace (Label.codeKey ∘ label) ss s →
      HoldsPlace (Label.nameKey ∘ label) ss s := fun s hs => (h s (mem_of_latest hs).1).mpr hs
  have hcode : ∀ s, HoldsPlace (Label.nameKey ∘ label) ss s →
      HoldsPlace (Label.codeKey ∘ label) ss s := fun s hs => (h s (mem_of_latest hs).1).mp hs
  exact ⟨named_of_coded_iff.mpr hname, coded_of_named_iff.mpr hcode, size_eq_iff.mpr hname⟩

/-- The indexes agree if no name comes with two codes and no code with two names. -/
theorem agree_of_paired (h : ∀ s ∈ ss, ∀ t ∈ ss,
    ((label s).nameKey = (label t).nameKey ↔ (label s).codeKey = (label t).codeKey)) :
    Agree label (ofList label ss) :=
  agree_of_holdsPlace_iff fun s hs => holdsPlace_congr fun t ht => h s hs t ht

/-- The two indexes agree if and only if what is replaced under its name is replaced under its code
too, and the other way around. -/
theorem agree_iff (label : S → Label) (ss : List S) :
    Agree label (ofList label ss) ↔ ∀ s ∈ ss,
      (HoldsPlace (Label.nameKey ∘ label) ss s ↔ HoldsPlace (Label.codeKey ∘ label) ss s) := by
  constructor
  · intro h s _
    exact ⟨coded_of_named_iff.mp h.coded_of_named s, named_of_coded_iff.mp h.named_of_coded s⟩
  · exact agree_of_holdsPlace_iff

end OfList

end Register

namespace Registry

/-- A registry that surrogates are added to is the register of their labels. -/
theorem foldl_add {σ α : Type} (ss : List (Surrogate σ α)) :
    ss.foldl add Register.empty = Register.ofList Surrogate.label ss := rfl

/-- Of two surrogates of one name, the second takes the place of the first under the name, but the
first is still found under its code, and one of the two is counted. -/
theorem superseded_still_coded :
    let old : Surrogate Unit ℚ := .simple ⟨"USA", "100", "Population"⟩ ()
    let new : Surrogate Unit ℚ := .simple ⟨"USA", "200", "Population"⟩ ()
    let r : Registry Unit ℚ := [old, new].foldl add Register.empty
    r.coded (.text "USA") (.text "100") = .ok old ∧
      r.named (.text "USA") (.text old.label.name) = .ok new ∧ old ≠ new ∧
      r.coded (.text "USA") (.text "200") = .ok new ∧ r.size = 1 := by
  exact ⟨rfl, rfl, by simp, rfl, rfl⟩

end Registry

end Gridding
