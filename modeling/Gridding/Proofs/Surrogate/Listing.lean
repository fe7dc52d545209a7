import Gridding.Proofs.Surrogate.Registry
import Gridding.Surrogate.Listing

/-!
# Registries of listings

Each entry of a listing that can be read whole gives a definition. If no two definitions have a key
in common, the registry is there if and only if every reference names a definition and no reference
leads back to where it came from. It then holds one surrogate for each definition, whatever
surrogates are made into, and the components of a merged one are what is found under their names.
-/

namespace Gridding

open Registry

variable {S : Type}

namespace Register

theorem named_eq_ok_iff {r : Register S} {region name : String} {s : S} :
    r.named (.text region) (.text name) = .ok s ↔ r.find? (region, name) = some s := by
  simp only [named]
  cases r.find? (region, name) <;> simp

theorem named_congr {r r' : Register S} (h : r.find? = r'.find?) (region name : Document) :
    r.named region name = r'.named region name := by
  unfold named
  rw [h]

end Register

/-- What a register of definitions holds. As many objects were made as there are definitions, one
after the other, so objects of different definitions can be told apart by what a maker is given. -/
structure Registry.Registered {σ α : Type} (maker : Maker σ α S) (ds : List (Definition σ α))
    (r : Register S) : Prop where
  names : r.names.Perm (ds.map Definition.key)
  made : ∃ order : List (Definition σ α), order.Perm ds ∧
    ∀ (n : Nat) (d : Definition σ α), order[n]? = some d → ∃ components : List (S × α),
      r.named (.text d.label.region) (.text d.label.name) = .ok (d.make maker n components) ∧
      List.Forall₂ (fun item c => r.named (.text d.label.region) (.text item.1) = .ok c.1 ∧
        c.2 = item.2) d.items components
  grounded : ∀ d ∈ ds, Grounded ds d.key

theorem Registry.Made.registered {σ α : Type} {maker : Maker σ α S}
    {order ds : List (Definition σ α)} {r : Register S} (h : Made maker order r)
    (hperm : order.Perm ds) (hitems : ∀ label items, .merged label items ∈ ds → items ≠ []) :
    Registered maker ds r := by
  refine ⟨?_, ⟨order, hperm, fun n d hd => ?_⟩, fun d hd => ?_⟩
  · rw [h.names]
    exact hperm.map Definition.key
  · obtain ⟨components, hfind, hassembles, -⟩ := h.exists_components hd
    refine ⟨components, Register.named_eq_ok_iff.mpr hfind, hassembles.imp ?_⟩
    exact fun item c hc => ⟨Register.named_eq_ok_iff.mpr hc.1, hc.2⟩
  · refine (h.grounded ?_ d (hperm.mem_iff.mpr hd)).of_subset hperm.subset
    exact fun label items hd => hitems label items (hperm.mem_iff.mp hd)

namespace Registry.Registered

variable {σ α : Type} {ds : List (Definition σ α)} {r : Registry σ α}

theorem named_simple (h : Registered .plain ds r) {label : Label} {source : σ}
    (hd : .simple label source ∈ ds) :
    r.named (.text label.region) (.text label.name) = .ok (.simple label source) := by
  obtain ⟨order, horder, hmade⟩ := h.made
  obtain ⟨n, hn⟩ := List.getElem?_of_mem (horder.mem_iff.mpr hd)
  obtain ⟨_, hfind, -⟩ := hmade n _ hn
  exact hfind

theorem named_merged (h : Registered .plain ds r) {label : Label} {items : List (String × α)}
    {components : List (Surrogate σ α × α)} (hd : .merged label items ∈ ds)
    (hcomponents : List.Forall₂ (fun item c =>
      r.named (.text label.region) (.text item.1) = .ok c.1 ∧ c.2 = item.2) items components) :
    r.named (.text label.region) (.text label.name) = .ok (.merged label components) := by
  obtain ⟨order, horder, hmade⟩ := h.made
  obtain ⟨n, hn⟩ := List.getElem?_of_mem (horder.mem_iff.mpr hd)
  obtain ⟨components', hfind, hcomponents'⟩ := hmade n _ hn
  have hassembles : ∀ {cs : List (Surrogate σ α × α)}, List.Forall₂ (fun item c =>
      r.named (.text label.region) (.text item.1) = .ok c.1 ∧ c.2 = item.2) items cs →
      Assembles r label.region items cs :=
    fun hcs => hcs.imp fun _ _ hc => ⟨Register.named_eq_ok_iff.mp hc.1, hc.2⟩
  obtain rfl := (hassembles hcomponents).unique (hassembles hcomponents')
  exact hfind

end Registry.Registered

namespace Listing

def Entry.ofDefinition : Definition Source Float → Entry
  | .simple label source => .simple label source
  | .merged label items => .merged label.nameKey ⟨label.code, .ok (items.map Definition.mergeItem)⟩

/-- Is an entry well-formed, and this what it says? -/
def Defines (folder : String) (e : Document) (d : Definition Source Float) : Prop :=
  entry folder e = .ok (.ofDefinition d)

variable {folder : String} {es es' : List Document} {ds ds' : List (Definition Source Float)}

theorem parts_ne_nil {d : Document} {ps : List Document} (hd : d.isGiven = true)
    (hparts : parts d = .ok ps) : ps ≠ [] := by
  cases d <;> simp only [parts, Document.isGiven, reduceCtorEq, Except.ok.injEq] at hd hparts
  all_goals
    subst hparts
    simpa using hd

/-- What is merged has components, since none would not count as given. -/
theorem Defines.items_ne_nil {e : Document} {label : Label} {items : List (String × Float)}
    (h : Defines folder e (.merged label items)) : items ≠ [] := by
  obtain ⟨region, -, h⟩ := bind_eq_ok.mp h
  obtain ⟨name, -, h⟩ := bind_eq_ok.mp h
  obtain ⟨code, -, h⟩ := bind_eq_ok.mp h
  dsimp only at h
  split at h
  case isTrue hgiven =>
    cases hparts : parts (e.field "merge") with
    | error err => simp [hparts, Entry.ofDefinition, Except.map, pure, Except.pure] at h
    | ok ps =>
      simp only [hparts, Entry.ofDefinition, Except.map, pure, Except.pure, Except.ok.injEq,
        Entry.merged.injEq, MergedEntry.mk.injEq] at h
      rintro rfl
      exact parts_ne_nil hgiven hparts (List.map_eq_nil_iff.mp h.2.2)
  case isFalse =>
    obtain ⟨data, -, h⟩ := bind_eq_ok.mp h
    obtain ⟨columns, -, h⟩ := bind_eq_ok.mp h
    obtain ⟨factors, -, h⟩ := bind_eq_ok.mp h
    obtain ⟨filter, -, h⟩ := bind_eq_ok.mp h
    cases h

theorem items_ne_nil (h : List.Forall₂ (Defines folder) es ds) {label : Label}
    {items : List (String × Float)} (hd : .merged label items ∈ ds) : items ≠ [] := by
  induction h with
  | nil => cases hd
  | cons he _ ih =>
    rcases List.mem_cons.mp hd with rfl | hd
    · exact he.items_ne_nil
    · exact ih hd

theorem mapM_entry (h : List.Forall₂ (Defines folder) es ds) :
    es.mapM (entry folder) = .ok (ds.map .ofDefinition) := by
  rw [mapM_eq_ok_iff]
  induction h with
  | nil => rfl
  | cons he _ ih => rw [List.map_cons, ih, he, List.map_cons, List.map_cons]

theorem filterMap_simple? (ds : List (Definition Source Float)) :
    (ds.map Entry.ofDefinition).filterMap Entry.simple? = ds.filterMap Definition.simple? := by
  rw [List.filterMap_map]
  refine List.filterMap_congr fun d _ => ?_
  cases d <;> rfl

/-- No entry takes the place of another one. -/
theorem foldl_putMerged (done : List (RegistryKey × MergedEntry ListingError Float))
    (hnodup : (done.map (·.1) ++ ds.map Definition.key).Nodup) :
    (ds.map Entry.ofDefinition).foldl Entry.putMerged done =
      done ++ ds.filterMap Definition.merged? := by
  induction ds generalizing done with
  | nil => simp
  | cons d ds ih =>
    cases d with
    | simple label source =>
      exact ih done (hnodup.sublist ((List.sublist_cons_self _ _).append_left _))
    | merged label items =>
      have hnew : done.lookup label.nameKey = none := by
        refine lookup_eq_none_iff_forall_ne.mpr fun e he => ?_
        exact (List.nodup_append.mp hnodup).2.2 _ (List.mem_map_of_mem he) _ List.mem_cons_self
      rw [List.map_cons, List.foldl_cons, Entry.ofDefinition, Entry.putMerged,
        Entries.put_of_lookup_eq_none hnew,
        ih _ (by simpa [Definition.key, Definition.label] using hnodup), List.append_assoc]
      rfl

theorem registryBy_eq_ofEntries (maker : Maker Source Float S) {d : Document}
    (hes : entries d = .ok es) (hds : List.Forall₂ (Defines folder) es ds)
    (hdistinct : (ds.map Definition.key).Nodup) :
    registryBy maker folder d =
      ofEntries maker (ds.filterMap Definition.simple?) (ds.filterMap Definition.merged?) := by
  rw [registryBy, hes, ← filterMap_simple? ds, ← List.nil_append (ds.filterMap Definition.merged?),
    ← foldl_putMerged [] hdistinct]
  change (es.mapM (entry folder)).mapError _ >>= _ = _
  rw [mapM_entry hds]
  rfl

theorem outcome_registryBy (maker : Maker Source Float S) {d : Document}
    (hes : entries d = .ok es) (hds : List.Forall₂ (Defines folder) es ds)
    (hdistinct : (ds.map Definition.key).Nodup) : Outcome maker ds (registryBy maker folder d) := by
  rw [registryBy_eq_ofEntries maker hes hds hdistinct]
  exact outcome_ofEntries maker hdistinct

/-- A listing whose entries are well-formed and have different keys gives a registry of them if all
their references are known and none leads back. The registry does not depend on their order. -/
theorem registryBy_resolves (maker : Maker Source Float S) (d : Document)
    (hes : entries d = .ok es) (hds : List.Forall₂ (Defines folder) es ds)
    (hdistinct : (ds.map Definition.key).Nodup) :
    ((∃ r, registryBy maker folder d = .ok r) ↔ Known ds ∧ Acyclic ds) ∧
      (Known ds → ¬ Acyclic ds → ∃ names, registryBy maker folder d = .error (.cycle names)) ∧
      (Acyclic ds → ¬ Known ds → ∃ name region, registryBy maker folder d =
        .error (.lookup (.unknownName (.text name) (.text region)))) ∧
      (∀ r, registryBy maker folder d = .ok r → Registered maker ds r) ∧
      ∀ d' es', entries d' = .ok es' → es'.Perm es → ∀ r, registry folder d = .ok r →
        ∃ r', registry folder d' = .ok r' ∧
          ∀ region name, r'.named region name = r.named region name := by
  have hmade := outcome_registryBy maker hes hds hdistinct
  refine ⟨hmade.ok_iff, hmade.eq_cycle, fun hacyclic hknown => hmade.eq_unknownName hknown hacyclic,
    fun r hr => ?_, fun d' es' hes' hperm r hr => ?_⟩
  · rw [hr] at hmade
    obtain ⟨order, horder, hmade⟩ := hmade
    exact hmade.registered horder fun label items => items_ne_nil hds
  · obtain ⟨ds', hds', hperm'⟩ := List.perm_comp_forall₂ hperm hds
    have hdistinct' : (ds'.map Definition.key).Nodup :=
      (hperm'.map Definition.key).nodup_iff.mpr hdistinct
    obtain ⟨r', hr', hfind⟩ := (outcome_registryBy .plain hes hds hdistinct).of_perm
      (outcome_registryBy .plain hes' hds' hdistinct') hperm' hr
    exact ⟨r', hr', fun region name => Register.named_congr hfind region name⟩

/-- Land is merged of roads and fields, and everything of land and, once more, of roads. -/
def landUse : List Document :=
  [.object [("region", .text "US"), ("name", .text "all"), ("code", .text "1"),
      ("merge", .list [.object [("name", .text "land"), ("multiplier", .number 0.5)],
        .object [("name", .text "roads"), ("multiplier", .number 2.0)]])],
    .object [("region", .text "US"), ("name", .text "roads"), ("code", .text "2"),
      ("weight_columns", .list [.text "lanes"]), ("weight_factors", .list [.number 3.5])],
    .object [("region", .text "US"), ("name", .text "land"), ("code", .text "3"),
      ("merge", .list [.object [("name", .text "roads"), ("multiplier", .number 1.0)],
        .object [("name", .text "fields"), ("multiplier", .number 4.0)]])],
    .object [("region", .text "US"), ("name", .text "fields"), ("code", .text "4")]]

def landUseDefinitions : List (Definition Source Float) :=
  [.merged ⟨"US", "1", "all"⟩ [("land", 0.5), ("roads", 2.0)],
    .simple ⟨"US", "2", "roads"⟩ ⟨.missing, ["lanes"], [3.5], none⟩,
    .merged ⟨"US", "3", "land"⟩ [("roads", 1.0), ("fields", 4.0)],
    .simple ⟨"US", "4", "fields"⟩ ⟨.missing, [], [], none⟩]

theorem landUse_defines : List.Forall₂ (Defines "/data") landUse landUseDefinitions := by
  unfold landUse landUseDefinitions
  refine .cons ?_ (.cons ?_ (.cons ?_ (.cons ?_ .nil)))
  all_goals rfl

theorem registryBy_resolves_landUse :
    List.Forall₂ (Defines "/data") landUse landUseDefinitions ∧
      (landUseDefinitions.map Definition.key).Nodup ∧
      ∃ r r' land roads fields, registry "/data" (.list landUse) = .ok r ∧ r.size = 4 ∧
        r.named (.text "US") (.text "roads") = .ok roads ∧
        r.named (.text "US") (.text "fields") = .ok fields ∧
        r.named (.text "US") (.text "land") = .ok land ∧
        land = .merged ⟨"US", "3", "land"⟩ [(roads, 1.0), (fields, 4.0)] ∧
        r.named (.text "US") (.text "all") =
          .ok (.merged ⟨"US", "1", "all"⟩ [(land, 0.5), (roads, 2.0)]) ∧
        registry "/data" (.object [("surrogates", .list landUse.reverse)]) = .ok r' ∧
        ∀ region name, r'.named region name = r.named region name := by
  have hdistinct : (landUseDefinitions.map Definition.key).Nodup := by decide
  have hknown : Known landUseDefinitions := by
    unfold Known
    decide
  have hacyclic : Acyclic landUseDefinitions :=
    acyclic_of_rank (fun k => if k.2 = "all" then 2 else if k.2 = "land" then 1 else 0) (by decide)
  obtain ⟨hok, -, -, hregistered, hperm⟩ :=
    registryBy_resolves .plain (.list landUse) rfl landUse_defines hdistinct
  obtain ⟨r, hr⟩ := hok.mpr ⟨hknown, hacyclic⟩
  obtain ⟨r', hr', hsame⟩ := hperm (.object [("surrogates", .list landUse.reverse)]) landUse.reverse
    rfl (List.reverse_perm landUse) r hr
  have hroads := (hregistered r hr).named_simple (.tail _ (.head _))
  have hfields := (hregistered r hr).named_simple (.tail _ (.tail _ (.tail _ (.head _))))
  have hland := (hregistered r hr).named_merged (.tail _ (.tail _ (.head _)))
    (.cons (b := (_, 1.0)) ⟨hroads, rfl⟩ (.cons (b := (_, 4.0)) ⟨hfields, rfl⟩ .nil))
  have hall := (hregistered r hr).named_merged (.head _)
    (.cons (b := (_, 0.5)) ⟨hland, rfl⟩ (.cons (b := (_, 2.0)) ⟨hroads, rfl⟩ .nil))
  refine ⟨landUse_defines, hdistinct, r, r', _, _, _, hr, ?_, hroads, hfields, hland, rfl, hall, hr',
    hsame⟩
  have hsize := (hregistered r hr).names.length_eq
  rwa [Register.names, List.length_map] at hsize

end Listing

end Gridding
