import Gridding.Proofs.Fallible
import Gridding.Proofs.Entries
import Gridding.Proofs.Surrogate.References
import Mathlib

/-!
# What a registry is made of

A register is made of definitions in some order, each after those it refers to. `resolve` makes what
is wanted and what that needs, and adds nothing that is on the way; it fails only because of a
reference that nothing is defined for, or because references lead back to where they came from. So a
registry of definitions is made of all of them, unless one of these is the case.
-/

namespace Gridding

namespace Register

variable {S : Type} {r r' : Register S} {l : Label} {s : S}

theorem find?_put (r : Register S) (l : Label) (s : S) (k : RegistryKey) :
    (r.put l s).find? k = if k == l.nameKey then some s else r.find? k :=
  Entries.lookup_put l.nameKey s r.byName k

theorem names_put (h : r.find? l.nameKey = none) : (r.put l s).names = r.names ++ [l.nameKey] := by
  rw [names, put, Entries.put_of_lookup_eq_none h, List.map_append]
  rfl

theorem mem_names_iff {k : RegistryKey} : k ∈ r.names ↔ ∃ s, r.find? k = some s := by
  constructor
  · intro hk
    obtain ⟨e, he, rfl⟩ := List.mem_map.mp hk
    exact exists_lookup_of_mem he
  · rintro ⟨s, hs⟩
    exact List.mem_map.mpr ⟨(k, s), mem_of_lookup hs, rfl⟩

theorem find?_eq_none_iff {k : RegistryKey} : r.find? k = none ↔ k ∉ r.names := by
  rw [mem_names_iff, Option.eq_none_iff_forall_ne_some, not_exists]

/-- Is everything in a register also in another one? -/
def Extends (r r' : Register S) : Prop := ∀ k s, r.find? k = some s → r'.find? k = some s

theorem Extends.trans {r'' : Register S} (h : r.Extends r') (h' : r'.Extends r'') :
    r.Extends r'' := fun k s hs => h' k s (h k s hs)

theorem extends_put (h : r.find? l.nameKey = none) : r.Extends (r.put l s) := by
  intro k s' hs
  rw [find?_put, if_neg, hs]
  intro hk
  rw [eq_of_beq hk, h] at hs
  cases hs

end Register

namespace Registry

open Register

variable {σ α S ε : Type} {maker : Maker σ α S} {ds ds' : List (Definition σ α)}
  {r r' : Register S}

namespace Definition

def make (maker : Maker σ α S) (n : Nat) (components : List (S × α)) : Definition σ α → S
  | simple label source => maker.simple n label source
  | merged label _ => maker.merged n label components

end Definition

/-- Are these what the items name in a region, with their multipliers and in their order? -/
def Assembles (r : Register S) (region : String) (items : List (String × α))
    (components : List (S × α)) : Prop :=
  List.Forall₂ (fun item c => r.find? (region, item.1) = some c.1 ∧ c.2 = item.2) items components

namespace Assembles

variable {region : String} {items : List (String × α)} {components components' : List (S × α)}

theorem mono (h : Assembles r region items components) (hr : r.Extends r') :
    Assembles r' region items components :=
  List.Forall₂.imp (fun _ _ hc => ⟨hr _ _ hc.1, hc.2⟩) h

theorem unique (h : Assembles r region items components)
    (h' : Assembles r region items components') : components = components' := by
  refine List.right_unique_forall₂' ?_ h h'
  rintro item ⟨s, m⟩ ⟨s', m'⟩ ⟨hs, rfl⟩ ⟨hs', rfl⟩
  exact congrArg (·, item.2) (Option.some.inj (hs.symm.trans hs'))

theorem mem_names (h : Assembles r region items components) {item : String × α}
    (hitem : item ∈ items) : (region, item.1) ∈ r.names := by
  induction h with
  | nil => cases hitem
  | cons hc _ ih =>
    rcases List.mem_cons.mp hitem with rfl | hitem
    · exact mem_names_iff.mpr ⟨_, hc.1⟩
    · exact ih hitem

end Assembles

/-- A register made of definitions one after the other, each of what is there by then. -/
inductive Made (maker : Maker σ α S) : List (Definition σ α) → Register S → Prop
  | empty : Made maker [] .empty
  | snoc {ds : List (Definition σ α)} {r : Register S} {d : Definition σ α}
      {components : List (S × α)} (h : Made maker ds r) (hnew : r.find? d.key = none)
      (hcomponents : Assembles r d.label.region d.items components) :
      Made maker (ds ++ [d]) (r.put d.label (d.make maker r.size components))

namespace Made

theorem names (h : Made maker ds r) : r.names = ds.map Definition.key := by
  induction h with
  | empty => rfl
  | snoc _ hnew _ ih =>
    rw [names_put hnew, ih, List.map_append]
    rfl

theorem size (h : Made maker ds r) : r.size = ds.length := by
  rw [Register.size, ← List.length_map (f := (·.1)), ← Register.names, h.names, List.length_map]

theorem nodup (h : Made maker ds r) : (ds.map Definition.key).Nodup := by
  induction h with
  | empty => exact List.nodup_nil
  | snoc h hnew _ ih =>
    rw [List.map_append, List.map_singleton, ← List.concat_eq_append]
    exact (List.nodup_concat _ _).mpr ⟨h.names ▸ find?_eq_none_iff.mp hnew, ih⟩

/-- Every definition has got a surrogate. How many were made before it is its place among the
definitions, and so are those it refers to. -/
theorem exists_components (h : Made maker ds r) {n : Nat} {d : Definition σ α}
    (hd : ds[n]? = some d) :
    ∃ components, r.find? d.key = some (d.make maker n components) ∧
      Assembles r d.label.region d.items components ∧
      ∀ k ∈ d.references, k ∈ (ds.take n).map Definition.key := by
  induction h with
  | empty => simp at hd
  | @snoc ds r d' components h hnew hcomponents ih =>
    have hextends := extends_put (s := d'.make maker r.size components) hnew
    rcases Nat.lt_or_ge n ds.length with hn | hn
    · rw [List.getElem?_append_left hn] at hd
      obtain ⟨components', hfind, hassembles, hbefore⟩ := ih hd
      rw [List.take_append_of_le_length (Nat.le_of_lt hn)]
      exact ⟨components', hextends _ _ hfind, hassembles.mono hextends, hbefore⟩
    · rw [List.getElem?_append_right hn, List.getElem?_singleton] at hd
      obtain ⟨hzero, rfl⟩ : n - ds.length = 0 ∧ d' = d := by simpa using hd
      obtain rfl : n = ds.length := by omega
      refine ⟨components, ?_, hcomponents.mono hextends, ?_⟩
      · rw [find?_put, if_pos (by exact beq_self_eq_true d'.key), h.size]
      · intro k hk
        obtain ⟨item, hitem, rfl⟩ := List.mem_map.mp hk
        rw [List.take_left, ← h.names]
        exact hcomponents.mem_names hitem

theorem known (h : Made maker ds r) : Known ds := by
  intro d hd k hk
  obtain ⟨n, hn⟩ := List.getElem?_of_mem hd
  obtain ⟨-, -, -, hbefore⟩ := h.exists_components hn
  exact List.map_subset _ (List.take_subset n ds) (hbefore k hk)

/-- References go from later definitions to earlier ones. -/
theorem acyclic (h : Made maker ds r) : Acyclic ds := by
  refine acyclic_of_rank (ds.map Definition.key).idxOf fun d hd k hk => ?_
  obtain ⟨n, hn⟩ := List.getElem?_of_mem hd
  obtain ⟨-, -, -, hbefore⟩ := h.exists_components hn
  have hkey : (ds.map Definition.key)[n]? = some d.key := by rw [List.getElem?_map, hn]; rfl
  obtain ⟨hlt, hget⟩ := List.getElem?_eq_some_iff.mp hkey
  have hplace : (ds.map Definition.key).idxOf d.key = n := by
    rw [← hget]
    exact h.nodup.idxOf_getElem n hlt
  rw [hplace, ← List.mem_take_iff_idxOf_lt (h.known d hd k hk), ← List.map_take]
  exact hbefore k hk

theorem grounded (h : Made maker ds r)
    (hitems : ∀ label items, .merged label items ∈ ds → items ≠ []) :
    ∀ d ∈ ds, Grounded ds d.key := by
  induction h with
  | empty => simp
  | @snoc ds r d components h hnew hcomponents ih =>
    have hsub : ds ⊆ ds ++ [d] := List.subset_append_left ds [d]
    have hold := ih fun label items hd => hitems label items (hsub hd)
    intro d' hd'
    rcases List.mem_append.mp hd' with hd' | hd'
    · exact (hold d' hd').of_subset hsub
    obtain rfl := List.mem_singleton.mp hd'
    have hlast : d' ∈ ds ++ [d'] := List.mem_append_right ds hd'
    cases d' with
    | simple label source => exact .simple hlast
    | merged label items =>
      refine .merged hlast (hitems label items hlast) fun item hitem => ?_
      have hname := hcomponents.mem_names hitem
      rw [h.names] at hname
      obtain ⟨d, hd, hkey⟩ := List.mem_map.mp hname
      rw [← hkey]
      exact (hold d hd).of_subset hsub

/-- What a definition is made into depends on the definitions only, not on their order. -/
theorem extends_of_subset {r r' : Registry σ α} (h : Made .plain ds r) (h' : Made .plain ds' r')
    (hsub : ds ⊆ ds') : r.Extends r' := by
  induction h with
  | empty => intro k s hs; cases hs
  | @snoc ds r d components h hnew hcomponents ih =>
    have hextends := ih fun x hx => hsub (List.mem_append_left [d] hx)
    intro k s hs
    rw [find?_put] at hs
    split at hs
    case isFalse => exact hextends k s hs
    case isTrue hk =>
      obtain ⟨n, hn⟩ := List.getElem?_of_mem (hsub (List.mem_append_right ds (List.mem_singleton_self d)))
      obtain ⟨components', hfind, hassembles, -⟩ := h'.exists_components hn
      obtain rfl := (hcomponents.mono hextends).unique hassembles
      rw [eq_of_beq hk, ← Option.some.inj hs]
      refine hfind.trans ?_
      cases d <;> rfl

end Made

/-! ## Following references -/

namespace Definition

def simple? : Definition σ α → Option (Label × σ)
  | simple label source => some (label, source)
  | merged _ _ => none

def mergeItem (item : String × α) : MergeItem ε α := ⟨.ok item.1, .ok item.2⟩

def merged? : Definition σ α → Option (RegistryKey × MergedEntry ε α)
  | simple _ _ => none
  | merged label items => some (label.nameKey, ⟨label.code, .ok (items.map mergeItem)⟩)

end Definition

theorem simple_mem_iff {label : Label} {source : σ} :
    .simple label source ∈ ds ↔ (label, source) ∈ ds.filterMap Definition.simple? := by
  constructor
  · exact fun h => List.mem_filterMap.mpr ⟨_, h, rfl⟩
  · intro h
    obtain ⟨d, hd, hsimple⟩ := List.mem_filterMap.mp h
    cases d with
    | simple label' source' =>
      cases hsimple
      exact hd
    | merged label' items => cases hsimple

theorem merged_of_mem {key : RegistryKey} {entry : MergedEntry ε α}
    (h : (key, entry) ∈ ds.filterMap Definition.merged?) :
    ∃ label items, .merged label items ∈ ds ∧ label.nameKey = key ∧
      entry = ⟨label.code, .ok (items.map Definition.mergeItem)⟩ := by
  obtain ⟨d, hd, hmerged⟩ := List.mem_filterMap.mp h
  cases d with
  | simple label source => cases hmerged
  | merged label items =>
    cases hmerged
    exact ⟨label, items, hd, rfl, rfl⟩

section Equations

variable {make : Nat → Label → List (S × α) → S} {entries : List (RegistryKey × MergedEntry ε α)}
  {path : List RegistryKey} {key : RegistryKey}

theorem resolve_of_trodden (h : path.contains key = true) :
    resolve make entries path key r = .error (.cycle ((path ++ [key]).map (·.2))) := by
  rw [resolve, dif_pos h]

theorem resolve_of_found (h : ¬ path.contains key = true) {s : S} (hs : r.find? key = some s) :
    resolve make entries path key r = .ok (s, r) := by
  rw [resolve, dif_neg h, hs]

theorem resolve_of_unknown (h : ¬ path.contains key = true) (hr : r.find? key = none)
    (hentry : entries.lookup key = none) :
    resolve make entries path key r =
      .error (.lookup (.unknownName (.text key.2) (.text key.1))) := by
  rw [resolve, dif_neg h, hr]
  simp only
  split
  · rfl
  · simp_all

theorem resolve_of_entry {label : Label} {items : List (MergeItem ε α)}
    (h : ¬ path.contains label.nameKey = true) (hr : r.find? label.nameKey = none)
    (hentry : entries.lookup label.nameKey = some ⟨label.code, .ok items⟩) :
    resolve make entries path label.nameKey r =
      resolveItems make entries (path ++ [label.nameKey]) label.region items r >>= fun found =>
        .ok (make found.2.size label found.1, found.2.put label (make found.2.size label found.1)) := by
  rw [resolve, dif_neg h, hr]
  simp only
  split
  · simp_all
  · rename_i entry hentry'
    obtain rfl : entry = ⟨label.code, .ok items⟩ := by simpa using hentry'.symm.trans hentry
    rfl

theorem resolveItems_cons {region : String} {name : String} {m : α} {items : List (MergeItem ε α)} :
    resolveItems make entries path region (⟨.ok name, .ok m⟩ :: items) r =
      resolve make entries path (region, name) r >>= fun found =>
        resolveItems make entries path region items found.2 >>= fun rest =>
          .ok ((found.1, m) :: rest.1, rest.2) := by
  rw [resolveItems]
  rfl

end Equations

/-- A register of some of the definitions, the simple ones among them. -/
def Begun (maker : Maker σ α S) (ds : List (Definition σ α)) (r : Register S) : Prop :=
  ∃ made, Made maker made r ∧ made ⊆ ds ∧
    ∀ label source, .simple label source ∈ ds → .simple label source ∈ made

/-- A key that is looked for on a way along references. -/
structure Due (ds : List (Definition σ α)) (path : List RegistryKey) (key : RegistryKey) :
    Prop where
  named : key ∈ ds.map Definition.key ∨ ∃ k, Refers ds k key
  leads : ∀ k ∈ path, Relation.TransGen (Refers ds) k key

/-- A register that has got more, but nothing of what is on the way. -/
structure Grown (path : List RegistryKey) (r r' : Register S) : Prop where
  grows : r.Extends r'
  same : ∀ k ∈ path, r'.find? k = r.find? k

/-- What is wrong with the definitions if an error comes of them. -/
def Defect (ds : List (Definition σ α)) : ResolveError ε → Prop
  | .cycle names => ∃ k, Relation.TransGen (Refers ds) k k ∧ names.getLast? = some k.2
  | .lookup (.unknownName (.text name) (.text region)) =>
    (∃ k, Refers ds k (region, name)) ∧ (region, name) ∉ ds.map Definition.key
  | _ => False

theorem Grown.refl (path : List RegistryKey) (r : Register S) : Grown path r r :=
  ⟨fun _ _ h => h, fun _ _ => rfl⟩

theorem Grown.trans {path : List RegistryKey} {r'' : Register S} (h : Grown path r r')
    (h' : Grown path r' r'') : Grown path r r'' :=
  ⟨h.grows.trans h'.grows, fun k hk => (h'.same k hk).trans (h.same k hk)⟩

theorem Due.step {path : List RegistryKey} {label : Label} {items : List (String × α)}
    (h : Due ds path label.nameKey) (hd : .merged label items ∈ ds) {item : String × α}
    (hitem : item ∈ items) : Due ds (path ++ [label.nameKey]) (label.region, item.1) := by
  have hrefers : Refers ds label.nameKey (label.region, item.1) :=
    ⟨_, hd, rfl, List.mem_map_of_mem (f := fun item => (label.region, item.1)) hitem⟩
  refine ⟨.inr ⟨_, hrefers⟩, fun k hk => ?_⟩
  rcases List.mem_append.mp hk with hk | hk
  · exact (h.leads k hk).tail hrefers
  · rw [List.mem_singleton.mp hk]
    exact .single hrefers

/-- A merged surrogate is put behind those it is merged of. -/
theorem Begun.put {label : Label} {items : List (String × α)} {components : List (S × α)}
    (h : Begun maker ds r) (hd : .merged label items ∈ ds) (hnew : r.find? label.nameKey = none)
    (hcomponents : Assembles r label.region items components) :
    Begun maker ds (r.put label (maker.merged r.size label components)) := by
  obtain ⟨made, hmade, hsub, hsimple⟩ := h
  refine ⟨made ++ [.merged label items],
    hmade.snoc (d := .merged label items) hnew hcomponents, ?_, ?_⟩
  · exact List.append_subset.mpr ⟨hsub, List.cons_subset.mpr ⟨hd, List.nil_subset ds⟩⟩
  · exact fun label source hs => List.mem_append_left _ (hsimple label source hs)

/-- What looking for a key comes to. -/
def Finds (ε : Type) (maker : Maker σ α S) (ds : List (Definition σ α)) (path : List RegistryKey)
    (key : RegistryKey) (r : Register S) : Prop :=
  Due ds path key → Begun maker ds r →
    Yields (fun found => Begun maker ds found.2 ∧ Grown path r found.2 ∧
        found.2.find? key = some found.1)
      (Defect ds) (resolve (ε := ε) maker.merged (ds.filterMap Definition.merged?) path key r)

/-- What looking for the components of a merged entry comes to. -/
def Collects (ε : Type) (maker : Maker σ α S) (ds : List (Definition σ α))
    (path : List RegistryKey) (region : String) (mergeItems : List (MergeItem ε α))
    (r : Register S) : Prop :=
  ∀ items : List (String × α), mergeItems = items.map Definition.mergeItem →
    (∀ item ∈ items, Due ds path (region, item.1)) → Begun maker ds r →
      Yields (fun found => Begun maker ds found.2 ∧ Grown path r found.2 ∧
          Assembles found.2 region items found.1)
        (Defect ds)
        (resolveItems maker.merged (ds.filterMap Definition.merged?) path region mergeItems r)

theorem finds_and_collects (maker : Maker σ α S) (ds : List (Definition σ α)) :
    (∀ path key r, Finds ε maker ds path key r) ∧
      ∀ path region mergeItems r, Collects ε maker ds path region mergeItems r := by
  refine resolve.mutual_induct (ds.filterMap Definition.merged?) (Finds ε maker ds)
    (Collects ε maker ds) ?trodden ?found ?unknown ?entry ?nil ?cons
  case trodden =>
    intro path key r htrodden hdue _
    rw [resolve_of_trodden htrodden]
    exact ⟨key, hdue.leads key (List.contains_iff_mem.mp htrodden), by simp⟩
  case found =>
    intro path key r htrodden s hs _ hbegun
    rw [resolve_of_found htrodden hs]
    exact ⟨hbegun, .refl path r, hs⟩
  case unknown =>
    intro path key r htrodden hr hentry hdue hbegun
    rw [resolve_of_unknown htrodden hr hentry]
    -- A simple definition would have its surrogate in the register, a merged one its entry.
    suffices hkey : key ∉ ds.map Definition.key from ⟨hdue.named.resolve_left hkey, hkey⟩
    intro hkey
    obtain ⟨d, hd, rfl⟩ := List.mem_map.mp hkey
    obtain ⟨made, hmade, -, hsimple⟩ := hbegun
    cases d with
    | simple label source =>
      refine find?_eq_none_iff.mp hr ?_
      rw [hmade.names]
      exact List.mem_map_of_mem (hsimple label source hd)
    | merged label items =>
      exact lookup_eq_none_iff_forall_ne.mp hentry _ (List.mem_filterMap.mpr ⟨_, hd, rfl⟩) rfl
  case entry =>
    intro path key r htrodden hr entry hentry ih hdue hbegun
    obtain ⟨label, items, hd, rfl, rfl⟩ := merged_of_mem (mem_of_lookup hentry)
    rw [resolve_of_entry htrodden hr hentry]
    refine (ih _ items rfl (fun item hitem => hdue.step hd hitem) hbegun).bind ?_
    rintro ⟨components, r'⟩ ⟨hbegun', hgrown, hcomponents⟩
    have hnew : r'.find? label.nameKey = none :=
      (hgrown.same _ (List.mem_append_right path (List.mem_singleton_self _))).trans hr
    refine ⟨hbegun'.put hd hnew hcomponents, ⟨hgrown.grows.trans (extends_put hnew), ?_⟩, ?_⟩
    · intro k hk
      have hne : ¬ (k == label.nameKey) = true := by
        intro hkey
        rw [← eq_of_beq hkey] at htrodden
        exact htrodden (List.contains_iff_mem.mpr hk)
      refine (find?_put _ _ _ _).trans ?_
      rw [if_neg hne]
      exact hgrown.same k (List.mem_append_left _ hk)
    · exact (find?_put _ _ _ _).trans (if_pos (beq_self_eq_true _))
  case nil =>
    intro path region r items hitems _ hbegun
    obtain rfl := List.map_eq_nil_iff.mp hitems.symm
    rw [resolveItems]
    exact ⟨hbegun, .refl path r, .nil⟩
  case cons =>
    intro path region mergeItem mergeItems r ihname ihitems items hitems hdue hbegun
    obtain ⟨item, items, rfl, rfl, rfl⟩ := List.map_eq_cons_iff.mp hitems.symm
    rw [Definition.mergeItem, resolveItems_cons]
    refine (ihname item.1 (hdue item List.mem_cons_self) hbegun).bind ?_
    rintro ⟨s, r'⟩ ⟨hbegun', hgrown, hfind⟩
    refine (ihitems r' items rfl (fun x hx => hdue x (List.mem_cons_of_mem item hx)) hbegun').bind ?_
    rintro ⟨components, r''⟩ ⟨hbegun'', hgrown', hcomponents⟩
    exact ⟨hbegun'', hgrown.trans hgrown', .cons ⟨hgrown'.grows _ _ hfind, rfl⟩ hcomponents⟩

/-! ## Registries of definitions -/

/-- Simple surrogates come first. -/
theorem made_foldl {made : List (Definition σ α)} (h : Made maker made r) (simple : List (Label × σ))
    (hnodup : (made.map Definition.key ++ simple.map (·.1.nameKey)).Nodup) :
    Made maker (made ++ simple.map fun s => .simple s.1 s.2)
      (simple.foldl (fun r s => r.put s.1 (maker.simple r.size s.1 s.2)) r) := by
  induction simple generalizing made r with
  | nil => simpa using h
  | cons s simple ih =>
    have hnew : r.find? s.1.nameKey = none := by
      rw [find?_eq_none_iff, h.names]
      intro hmem
      exact (List.nodup_append.mp hnodup).2.2 _ hmem _ List.mem_cons_self rfl
    have hsnoc : Made maker (made ++ [.simple s.1 s.2])
        (r.put s.1 (maker.simple r.size s.1 s.2)) := h.snoc (d := .simple s.1 s.2) hnew .nil
    rw [List.map_cons, List.foldl_cons, List.append_cons]
    refine ih hsnoc ?_
    simpa [Definition.key, Definition.label] using hnodup

theorem simple_keys_sublist (ds : List (Definition σ α)) :
    ((ds.filterMap Definition.simple?).map (·.1.nameKey)).Sublist (ds.map Definition.key) := by
  induction ds with
  | nil => exact .slnil
  | cons d ds ih =>
    cases d with
    | simple label source => exact ih.cons_cons label.nameKey
    | merged label items => exact ih.cons label.nameKey

theorem begun_foldl (maker : Maker σ α S) (hnodup : (ds.map Definition.key).Nodup) :
    Begun maker ds ((ds.filterMap Definition.simple?).foldl
      (fun r s => r.put s.1 (maker.simple r.size s.1 s.2)) .empty) := by
  refine ⟨_, made_foldl .empty _ (hnodup.sublist (simple_keys_sublist ds)), ?_, ?_⟩
  · intro d hd
    obtain ⟨⟨label, source⟩, hs, rfl⟩ := List.mem_map.mp hd
    exact simple_mem_iff.mpr hs
  · exact fun label source hd => List.mem_map.mpr ⟨(label, source), simple_mem_iff.mp hd, rfl⟩

/-- Entries are resolved one after the other, whichever of them were resolved on the way. -/
theorem foldlM_resolve (es : List (RegistryKey × MergedEntry ε α))
    (hes : ∀ e ∈ es, e.1 ∈ ds.map Definition.key) (hr : Begun maker ds r) :
    Yields (fun r' => Begun maker ds r' ∧ r.Extends r' ∧ ∀ e ∈ es, e.1 ∈ r'.names) (Defect ds)
      (es.foldlM (fun r e =>
        (resolve (ε := ε) maker.merged (ds.filterMap Definition.merged?) [] e.1 r).map (·.2)) r) := by
  induction es generalizing r with
  | nil => exact ⟨hr, fun _ _ h => h, by simp⟩
  | cons e es ih =>
    have hdue : Due ds [] e.1 := ⟨.inl (hes e List.mem_cons_self), by simp⟩
    rw [List.foldlM_cons]
    have hfirst : Yields (fun r' => Begun maker ds r' ∧ r.Extends r' ∧ e.1 ∈ r'.names) (Defect ds)
        ((resolve (ε := ε) maker.merged (ds.filterMap Definition.merged?) [] e.1 r).map (·.2)) := by
      refine ((finds_and_collects maker ds).1 [] e.1 r hdue hr).map ?_
      rintro ⟨s, r'⟩ ⟨hr', hgrown, hs⟩
      exact ⟨hr', hgrown.grows, mem_names_iff.mpr ⟨s, hs⟩⟩
    refine hfirst.bind ?_
    rintro r' ⟨hr', hextends, he⟩
    refine (ih (fun x hx => hes x (List.mem_cons_of_mem e hx)) hr').imp ?_
    rintro r'' ⟨hr'', hextends', hes'⟩
    refine ⟨hr'', hextends.trans hextends', List.forall_mem_cons.mpr ⟨?_, hes'⟩⟩
    obtain ⟨s, hs⟩ := mem_names_iff.mp he
    exact mem_names_iff.mpr ⟨s, hextends' _ _ hs⟩

/-- A registry made of all of some definitions, or what is wrong with them. -/
def Outcome (maker : Maker σ α S) (ds : List (Definition σ α)) :
    Except (ResolveError ε) (Register S) → Prop :=
  Yields (fun r => ∃ order, order.Perm ds ∧ Made maker order r) (Defect ds)

theorem outcome_ofEntries (maker : Maker σ α S) (hnodup : (ds.map Definition.key).Nodup) :
    Outcome (ε := ε) maker ds (ofEntries maker (ds.filterMap Definition.simple?)
      (ds.filterMap Definition.merged?)) := by
  refine (foldlM_resolve _ ?_ (begun_foldl maker hnodup)).imp ?_
  · rintro ⟨key, entry⟩ he
    obtain ⟨label, items, hd, rfl, -⟩ := merged_of_mem he
    exact List.mem_map_of_mem hd
  · rintro r ⟨⟨order, hmade, hsub, hsimple⟩, -, hmerged⟩
    refine ⟨order, (List.perm_ext_iff_of_nodup hmade.nodup.of_map hnodup.of_map).mpr
      fun d => ⟨fun hd => hsub hd, fun hd => ?_⟩, hmade⟩
    cases d with
    | simple label source => exact hsimple label source hd
    | merged label items =>
      have hname := hmerged _ (List.mem_filterMap.mpr ⟨_, hd, rfl⟩)
      rw [hmade.names] at hname
      obtain ⟨d, hd', hkey⟩ := List.mem_map.mp hname
      rwa [← List.inj_on_of_nodup_map hnodup (hsub hd') hd hkey]

theorem Defect.eq_cycle {e : ResolveError ε} (h : Defect ds e) (hknown : Known ds) :
    ¬ Acyclic ds ∧ ∃ names, e = .cycle names := by
  unfold Defect at h
  split at h
  · obtain ⟨k, hk, -⟩ := h
    exact ⟨fun hacyclic => hacyclic k hk, _, rfl⟩
  · obtain ⟨⟨_, d, hd, -, hk⟩, hunknown⟩ := h
    exact absurd (hknown d hd _ hk) hunknown
  · exact h.elim

theorem Defect.eq_unknownName {e : ResolveError ε} (h : Defect ds e) (hacyclic : Acyclic ds) :
    ∃ name region, e = .lookup (.unknownName (.text name) (.text region)) := by
  unfold Defect at h
  split at h
  · obtain ⟨k, hk, -⟩ := h
    exact absurd hk (hacyclic k)
  · exact ⟨_, _, rfl⟩
  · exact h.elim

namespace Outcome

variable {x : Except (ResolveError ε) (Register S)}

theorem ok_iff (h : Outcome maker ds x) : (∃ r, x = .ok r) ↔ Known ds ∧ Acyclic ds := by
  constructor
  · rintro ⟨r, rfl⟩
    obtain ⟨order, hperm, hmade⟩ := h
    exact ⟨(known_perm hperm).mp hmade.known, (acyclic_perm hperm).mp hmade.acyclic⟩
  · rintro ⟨hknown, hacyclic⟩
    cases x with
    | ok r => exact ⟨r, rfl⟩
    | error e => exact absurd hacyclic (Defect.eq_cycle h hknown).1

theorem eq_cycle (h : Outcome maker ds x) (hknown : Known ds) (hacyclic : ¬ Acyclic ds) :
    ∃ names, x = .error (.cycle names) := by
  cases x with
  | ok r => exact absurd (h.ok_iff.mp ⟨r, rfl⟩).2 hacyclic
  | error e =>
    obtain ⟨-, names, rfl⟩ := Defect.eq_cycle h hknown
    exact ⟨names, rfl⟩

theorem eq_unknownName (h : Outcome maker ds x) (hknown : ¬ Known ds) (hacyclic : Acyclic ds) :
    ∃ name region, x = .error (.lookup (.unknownName (.text name) (.text region))) := by
  cases x with
  | ok r => exact absurd (h.ok_iff.mp ⟨r, rfl⟩).1 hknown
  | error e =>
    obtain ⟨name, region, rfl⟩ := Defect.eq_unknownName h hacyclic
    exact ⟨name, region, rfl⟩

/-- Definitions in another order give a registry with the same surrogates under the same keys. -/
theorem of_perm {x x' : Except (ResolveError ε) (Registry σ α)} (h : Outcome .plain ds x)
    (h' : Outcome .plain ds' x') (hperm : ds'.Perm ds) {r : Registry σ α} (hr : x = .ok r) :
    ∃ r', x' = .ok r' ∧ r'.find? = r.find? := by
  have hgood := h.ok_iff.mp ⟨r, hr⟩
  rw [← known_perm hperm, ← acyclic_perm hperm] at hgood
  obtain ⟨r', rfl⟩ := h'.ok_iff.mpr hgood
  subst hr
  obtain ⟨order, horder, hmade⟩ := h
  obtain ⟨order', horder', hmade'⟩ := h'
  have hsame : order'.Perm order := (horder'.trans hperm).trans horder.symm
  refine ⟨r', rfl, funext fun k => Option.ext fun s => ⟨?_, ?_⟩⟩
  · exact hmade'.extends_of_subset hmade hsame.subset k s
  · exact hmade.extends_of_subset hmade' hsame.symm.subset k s

end Outcome

end Registry

end Gridding
