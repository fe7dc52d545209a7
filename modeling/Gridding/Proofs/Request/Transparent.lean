import Gridding.Proofs.Request.Gridder
import Gridding.Proofs.Store.Directory

/-!
# Requests with and without memory

A gridder that keeps results and stores granules answers requests in turn as it would without
either, as long as no two different requests share a key of the cache and no two different datasets
share a file of the store.
-/

namespace Gridding

namespace Surrogate

variable {σ ρ α ε S S' : Type} [CommSemiring α] (location : String)
  {allocate : Label → σ → S → Except ε (Allocation ρ α) × S}
  {allocate' : Label → σ → S' → Except ε (Allocation ρ α) × S'} {P : S → Prop}

theorem mem_leavesOfAll {components : List (Surrogate σ α × α)} {c : Surrogate σ α × α}
    (hc : c ∈ components) {l : Leaf σ α} (hl : l ∈ c.1.leaves) :
    l.scale c.2 ∈ leavesOfAll components := by
  induction components with
  | nil => cases hc
  | cons c' cs ih =>
    rw [leavesOfAll, List.mem_append]
    rcases List.mem_cons.mp hc with rfl | hc
    · exact .inl (List.mem_map_of_mem hl)
    · exact .inr (ih hc)

/-- The simple surrogate is allocated in the one way as in the other, whatever the states, and `P`
goes on to hold. -/
def SameAt (allocate : Label → σ → S → Except ε (Allocation ρ α) × S)
    (allocate' : Label → σ → S' → Except ε (Allocation ρ α) × S') (P : S → Prop) (label : Label)
    (source : σ) : Prop :=
  ∀ d, P d → ∀ d', (allocate label source d).1 = (allocate' label source d').1 ∧
    P (allocate label source d).2

theorem evaluateAll_agrees {components : List (Surrogate σ α × α)}
    (hcomponents : ∀ c ∈ components, ∀ d, P d → ∀ d',
      (c.1.evaluate allocate location d).1 = (c.1.evaluate allocate' location d').1 ∧
        P (c.1.evaluate allocate location d).2) {d : S} (hd : P d) (d' : S') :
    (evaluateAll allocate location components d).1 =
        (evaluateAll allocate' location components d').1 ∧
      P (evaluateAll allocate location components d).2 := by
  induction components generalizing d d' with
  | nil => exact ⟨rfl, hd⟩
  | cons c cs ih =>
    obtain ⟨hsame, hnext⟩ := hcomponents c List.mem_cons_self d hd d'
    have hrest : ∀ c' ∈ cs, ∀ d, P d → ∀ d', (c'.1.evaluate allocate location d).1 =
        (c'.1.evaluate allocate' location d').1 ∧ P (c'.1.evaluate allocate location d).2 :=
      fun c' hc' => hcomponents c' (List.mem_cons_of_mem c hc')
    simp only [evaluateAll]
    rcases hfirst : c.1.evaluate allocate location d with ⟨r, d₁⟩
    rcases hfirst' : c.1.evaluate allocate' location d' with ⟨r', d₁'⟩
    rw [hfirst, hfirst'] at hsame
    rw [hfirst] at hnext
    obtain rfl : r = r' := hsame
    cases r with
    | error e => exact ⟨rfl, hnext⟩
    | ok a =>
      obtain ⟨hsames, hlast⟩ := ih hrest hnext d₁'
      exact ⟨congrArg (Except.map (a :: ·)) hsames, hlast⟩

theorem evaluate_agrees (s : Surrogate σ α)
    (hleaves : ∀ l ∈ s.leaves, SameAt allocate allocate' P l.label l.source) {d : S} (hd : P d)
    (d' : S') :
    (s.evaluate allocate location d).1 = (s.evaluate allocate' location d').1 ∧
      P (s.evaluate allocate location d).2 := by
  induction s generalizing d d' with
  | simple label source =>
    rw [leaves] at hleaves
    obtain ⟨hsame, hnext⟩ := hleaves _ List.mem_cons_self d hd d'
    simp only [evaluate]
    exact ⟨congrArg _ hsame, hnext⟩
  | merged label components ih =>
    rw [leaves] at hleaves
    have hcomponents : ∀ c ∈ components, ∀ d, P d → ∀ d',
        (c.1.evaluate allocate location d).1 = (c.1.evaluate allocate' location d').1 ∧
          P (c.1.evaluate allocate location d).2 :=
      fun c hc _ hd d' => ih c hc (fun l hl => hleaves (l.scale c.2) (mem_leavesOfAll hc hl)) hd d'
    obtain ⟨hsame, hlast⟩ := evaluateAll_agrees location hcomponents hd d'
    simp only [evaluate]
    split
    · exact ⟨rfl, hd⟩
    · rcases hall : evaluateAll allocate location components d with ⟨r, d₁⟩
      rcases hall' : evaluateAll allocate' location components d' with ⟨r', d₁'⟩
      rw [hall, hall'] at hsame
      rw [hall] at hlast
      obtain rfl : r = r' := hsame
      cases r <;> exact ⟨rfl, hlast⟩

end Surrogate

/-- A request for an allocation, as it is made from outside. -/
structure Ask (σ ρ α : Type) where
  surrogate : Surrogate σ α
  shape : Option (Shape ρ)
  key : Option String

namespace Ask

variable {σ ρ α : Type}

/-- Is the surrogate asked to be allocated to the shape? -/
def Wants (asked : List (Ask σ ρ α)) (s : Surrogate σ α) (x : Shape ρ) : Prop :=
  ∃ key, ⟨s, some x, key⟩ ∈ asked

variable [One α] [Mul α]

/-- Are granules of the leaf needed for the shape? -/
def Needs (asked : List (Ask σ ρ α)) (l : Leaf σ α) (x : Shape ρ) : Prop :=
  ∃ s, Wants asked s x ∧ l ∈ s.leaves

/-- Region and code tell surrogates apart, and keys shapes. -/
structure Determined (asked : List (Ask σ ρ α)) : Prop where
  surrogate : ∀ s s' x x', Wants asked s x → Wants asked s' x' →
    s.label.region = s'.label.region → s.label.code = s'.label.code → s = s'
  leaf : ∀ l l' x x', Needs asked l x → Needs asked l' x' → l.label.region = l'.label.region →
    l.label.code = l'.label.code → l.label = l'.label ∧ l.source = l'.source
  shape : ∀ s s' x x', Wants asked s x → Wants asked s' x' → x.key = x'.key → x = x'

end Ask

namespace Gridder

open Ask (Wants Needs Determined)
open Store.Directory (Fits Plain)

variable {σ ρ α β ε φ : Type} [Field α]

/-- The same gridder without a cache and a store. -/
def bare (g : Gridder σ ρ α β ε) : Gridder σ ρ α β ε := { g with caches := false, stores := false }

/-- Requests that differ in region, code or key of the shape share no key of the cache and no file
of the store, and the store has room for their names. -/
structure Apart (g : Gridder σ ρ α β ε) (asked : List (Ask σ ρ α)) : Prop where
  cache : g.caches = true → ∀ s s' x x', Wants asked s x → Wants asked s' x' →
    g.cacheKey s x = g.cacheKey s' x' →
      s.label.region = s'.label.region ∧ s.label.code = s'.label.code ∧ x.key = x'.key
  store : g.stores = true → ∀ l l' x x', Needs asked l x → Needs asked l' x' →
    Text.slug (g.storeKey l.label x) = Text.slug (g.storeKey l'.label x') →
      l.label.region = l'.label.region ∧ l.label.code = l'.label.code ∧ x.key = x'.key
  fits : g.stores = true → ∀ l x, Needs asked l x → Fits (g.storeKey l.label x)

/-- Stored granules are read back as they were. -/
def ReadsBack (g : Gridder σ ρ α β ε) (asked : List (Ask σ ρ α)) : Prop :=
  g.stores = true → ∀ l x data, Needs asked l x → g.granules l.label l.source x = .ok data →
    g.decode (g.encode data) = .ok data

/-! ## Names that keep requests apart -/

section Names

variable {g : Gridder σ ρ α β ε} {asked : List (Ask σ ρ α)}

omit [Field α] in
/-- Texts made of parts are the same only if the parts are, if some of these have given lengths. -/
theorem eq_of_append_eq (front middle back : String) {region region' code code' key key' : String}
    (hregion : region.length = region'.length) (hcode : code.length = code'.length)
    (h : front ++ (region ++ (code ++ (middle ++ (key ++ back)))) =
      front ++ (region' ++ (code' ++ (middle ++ (key' ++ back))))) :
    region = region' ∧ code = code' ∧ key = key' := by
  have hchars := congrArg String.toList h
  simp only [String.toList_append] at hchars
  have hrest := List.append_cancel_left hchars
  obtain ⟨hr, hrest⟩ := List.append_inj hrest (by rwa [String.length_toList, String.length_toList])
  obtain ⟨hc, hrest⟩ := List.append_inj hrest (by rwa [String.length_toList, String.length_toList])
  have hk := List.append_cancel_right (List.append_cancel_left hrest)
  exact ⟨String.toList_inj.mp hr, String.toList_inj.mp hc, String.toList_inj.mp hk⟩

/-- Requests are apart if all regions have one length and all codes, and if the store names files by
keys as they are. -/
theorem apart_of_lengths (regions codes : Nat)
    (hwants : ∀ s x, Wants asked s x →
      s.label.region.length = regions ∧ s.label.code.length = codes)
    (hneeds : ∀ l x, Needs asked l x →
      l.label.region.length = regions ∧ l.label.code.length = codes)
    (hslug : ∀ l x, Needs asked l x →
      Text.slug (g.storeKey l.label x) = g.storeKey l.label x)
    (hfits : ∀ l x, Needs asked l x → Fits (g.storeKey l.label x)) : g.Apart asked where
  cache _ s s' x x' hs hs' h := by
    obtain ⟨hregion, hcode⟩ := hwants s x hs
    obtain ⟨hregion', hcode'⟩ := hwants s' x' hs'
    refine eq_of_append_eq "surrogate_" ("_" ++ (g.grid.name ++ "_")) ""
      (hregion.trans hregion'.symm) (hcode.trans hcode'.symm) ?_
    simpa only [cacheKey, String.append_assoc, String.append_empty] using h
  store _ l l' x x' hl hl' h := by
    obtain ⟨hregion, hcode⟩ := hneeds l x hl
    obtain ⟨hregion', hcode'⟩ := hneeds l' x' hl'
    rw [hslug l x hl, hslug l' x' hl'] at h
    refine eq_of_append_eq "srgdata_" ("_" ++ (g.grid.name ++ "_")) ("_" ++ g.tolerance)
      (hregion.trans hregion'.symm) (hcode.trans hcode'.symm) ?_
    simpa only [storeKey, Label.identifier, String.append_assoc] using h
  fits _ l x hl := hfits l x hl

end Names

/-! ## Granules -/

/-- What is stored for granules that are needed is what is built of them. -/
structure Stocked (g : Gridder σ ρ α β ε) (asked : List (Ask σ ρ α))
    (files : Store.Directory β) : Prop where
  plain : files.Plain
  built : ∀ l x content, Needs asked l x → files.held (g.storeKey l.label x) = some content →
    ∃ data, g.granules l.label l.source x = .ok data ∧ content = g.encode data

variable {g : Gridder σ ρ α β ε} {asked : List (Ask σ ρ α)} {l : Leaf σ α} {x : Shape ρ}
  {s : Surrogate σ α} {files : Store.Directory β} {d : Desk β}

/-- Needs that share a file are the same. -/
theorem Apart.eq_of_slug (hapart : g.Apart asked) (hdetermined : Determined asked)
    (hstores : g.stores = true) {l' : Leaf σ α} {x' : Shape ρ} (hl : Needs asked l x)
    (hl' : Needs asked l' x')
    (h : Text.slug (g.storeKey l'.label x') = Text.slug (g.storeKey l.label x)) :
    l'.label = l.label ∧ l'.source = l.source ∧ x' = x := by
  obtain ⟨hregion, hcode, hkey⟩ := hapart.store hstores l' l x' x hl' hl h
  obtain ⟨hlabel, hsource⟩ := hdetermined.leaf l' l x' x hl' hl hregion hcode
  obtain ⟨s, hwants, -⟩ := hl
  obtain ⟨s', hwants', -⟩ := hl'
  exact ⟨hlabel, hsource, hdetermined.shape s' s x' x hwants' hwants hkey⟩

/-- Requests that share a key of the cache are for the same. -/
theorem Apart.eq_of_cacheKey (hapart : g.Apart asked) (hdetermined : Determined asked)
    (hcaches : g.caches = true) {s' : Surrogate σ α} {x' : Shape ρ} (hwants : Wants asked s x)
    (hwants' : Wants asked s' x') (h : g.cacheKey s' x' = g.cacheKey s x) : s' = s ∧ x' = x := by
  obtain ⟨hregion, hcode, hkey⟩ := hapart.cache hcaches s' s x' x hwants' hwants h
  exact ⟨hdetermined.surrogate s' s x' x hwants' hwants hregion hcode,
    hdetermined.shape s' s x' x hwants' hwants hkey⟩

theorem Stocked.put (hfiles : g.Stocked asked files) (hapart : g.Apart asked)
    (hdetermined : Determined asked) (hstores : g.stores = true) (hl : Needs asked l x)
    {data : Dataset ρ α} (hdata : g.granules l.label l.source x = .ok data) :
    g.Stocked asked (files.put (g.storeKey l.label x) (g.encode data)).2 := by
  refine ⟨hfiles.plain.put _ _, fun l' x' content hl' hheld => ?_⟩
  rw [hfiles.plain.held_put (hapart.fits hstores l x hl)] at hheld
  split at hheld
  · rename_i hslug
    obtain ⟨hlabel, hsource, rfl⟩ := hapart.eq_of_slug hdetermined hstores hl hl' hslug
    rw [hlabel, hsource]
    exact ⟨data, hdata, (Option.some.inj hheld).symm⟩
  · exact hfiles.built l' x' content hl' hheld

omit [Field α] in
theorem dataset_of_stores (h : g.stores = true) {label : Label} {source : σ}
    {r : Except (SimpleError ε φ) (Dataset ρ α)} {files : Store.Directory β}
    (hload : d.files.loadOrBuild .store g.encode
      (fun content => (g.decode content).mapError .source) (g.storeKey label x)
      (fun (_ : Unit) => ((g.granules label source x).mapError .source, ())) () = (r, files, ())) :
    g.dataset x label source d = (r, { d with files }) := by
  simp only [dataset, h, if_true, hload]

section Memory

variable (hdetermined : Determined asked) (hapart : g.Apart asked) (hreads : g.ReadsBack asked)

include hdetermined hapart hreads

/-- Granules come from the store as they would be built. -/
theorem dataset_eq_granules (hl : Needs asked l x) (hfiles : g.Stocked asked d.files) :
    ∃ d', g.dataset (φ := φ) x l.label l.source d =
        ((g.granules l.label l.source x).mapError .source, d') ∧
      g.Stocked asked d'.files := by
  cases hstores : g.stores with
  | false => exact ⟨d, dataset_of_not_stores hstores _ _ _, hfiles⟩
  | true =>
    have hfits := hapart.fits hstores l x hl
    cases hheld : d.files.held (g.storeKey l.label x) with
    | some content =>
      obtain ⟨data, hdata, rfl⟩ := hfiles.built l x content hl hheld
      refine ⟨{ d with files := d.files }, dataset_of_stores hstores ?_, hfiles⟩
      rw [hfiles.plain.loadOrBuild_of_held _ _ _ _ hfits hheld, hreads hstores l x data hl hdata,
        hdata]
    | none =>
      cases hdata : g.granules l.label l.source x with
      | error e =>
        refine ⟨{ d with files := d.files }, dataset_of_stores hstores ?_, hfiles⟩
        rw [hfiles.plain.loadOrBuild_of_not_held _ _ _ _ hfits hheld, hdata]
        rfl
      | ok data =>
        have hput := hfiles.put hapart hdetermined hstores hl hdata
        rcases hstored : d.files.put (g.storeKey l.label x) (g.encode data) with ⟨u, stored⟩
        rw [hstored] at hput
        refine ⟨{ d with files := stored }, dataset_of_stores hstores ?_, hput⟩
        rw [hfiles.plain.loadOrBuild_of_not_held _ _ _ _ hfits hheld, hdata]
        simp only [Except.mapError, hstored]

variable [Region ρ α φ] [LinearOrder α] [BEq α] [Tally α]

theorem sameAt_allocateSimple (hl : Needs asked l x) :
    Surrogate.SameAt (g.allocateSimple (φ := φ) x) (g.bare.allocateSimple x)
      (fun d => g.Stocked asked d.files) l.label l.source := by
  intro d hfiles d'
  obtain ⟨d₁, hdata, hnext⟩ :=
    dataset_eq_granules (φ := φ) hdetermined hapart hreads hl hfiles
  have hbare : g.bare.dataset (φ := φ) x l.label l.source d' =
      ((g.granules l.label l.source x).mapError .source, d') := dataset_of_not_stores rfl _ _ _
  rw [allocateSimple, allocateSimple, hbare, hdata]
  cases g.granules l.label l.source x <;> exact ⟨rfl, hnext⟩

/-! ## Results -/

/-- Without a cache and a store a surrogate is computed in the same way whatever has been before. -/
theorem compute_agrees (hwants : Wants asked s x) (hfiles : g.Stocked asked d.files)
    (d' : Desk β) :
    (g.compute (φ := φ) s x d).1.map (·.allocation) =
        (g.bare.compute s x d').1.map (·.allocation) ∧
      g.Stocked asked (g.compute (φ := φ) s x d).2.files := by
  have hleaves : ∀ l ∈ s.leaves, Surrogate.SameAt (g.allocateSimple (φ := φ) x)
      (g.bare.allocateSimple x) (fun d => g.Stocked asked d.files) l.label l.source :=
    fun l hl => sameAt_allocateSimple hdetermined hapart hreads ⟨s, hwants, hl⟩
  obtain ⟨hsame, hnext⟩ := s.evaluate_agrees x.key hleaves hfiles d'
  simp only [compute, ← hsame]
  refine ⟨?_, hnext⟩
  cases (s.evaluate (g.allocateSimple x) x.key d).1 <;> rfl

omit hdetermined hapart hreads in
theorem compute_simple {label : Label} {source : σ} {a : Allocation ρ α} {d' : Desk β}
    (h : g.allocateSimple x label source d = (.ok a, d')) :
    g.compute (.simple label source) x d =
      (.ok ⟨d'.runs, a⟩, { d' with runs := d'.runs + 1 }) := by
  simp only [compute, Surrogate.evaluate, h]
  rfl

/-- What is kept for a request is what is computed for it. -/
structure Loaded (g : Gridder σ ρ α β ε) (asked : List (Ask σ ρ α))
    (cache : Cache String (Computed ρ α)) : Prop where
  idle : cache.flights = []
  room : ∀ n, cache.capacity = some n → 0 ≤ n
  computed : ∀ s x c, Wants asked s x → (g.cacheKey s x, c) ∈ cache.kept.entries →
    ∀ d, (g.bare.compute s x d).1.map (·.allocation) = .ok c.allocation

variable {cache : Cache String (Computed ρ α)} {key : Option String}

theorem Loaded.of_computed (hcache : g.Loaded asked cache) (hcaches : g.caches = true)
    (hwants : Wants asked s x) (hfiles : g.Stocked asked d.files)
    {cache' : Cache String (Computed ρ α)} (hidle : cache'.flights = [])
    (hcapacity : cache'.capacity = cache.capacity)
    (hmem : ∀ e ∈ cache'.kept.entries, e ∈ cache.kept.entries ∨
      ∃ c, (g.compute s x d).1 = .ok c ∧ e = (g.cacheKey s x, c)) : g.Loaded asked cache' := by
  refine ⟨hidle, hcapacity ▸ hcache.room, fun s' x' c hwants' hc d' => ?_⟩
  rcases hmem _ hc with hold | ⟨a, ha, heq⟩
  · exact hcache.computed s' x' c hwants' hold d'
  · obtain ⟨hkey, rfl⟩ := Prod.mk.inj heq
    obtain ⟨rfl, rfl⟩ := hapart.eq_of_cacheKey hdetermined hcaches hwants hwants' hkey
    obtain ⟨hsame, -⟩ := compute_agrees hdetermined hapart hreads hwants hfiles d'
    rw [← hsame, ha]
    rfl

/-- What is fetched is what has been kept or what is computed, which is the same. -/
theorem fetch_agrees (hcaches : g.caches = true) (hwants : Wants asked s x)
    (hcache : g.Loaded asked cache) (hfiles : g.Stocked asked d.files) (d' : Desk β) :
    ∃ r cache' d₁, g.request s (some x) key (cache, d) = (r, cache', d₁) ∧
      r.map (·.allocation) = (g.bare.compute s x d').1.map (·.allocation) ∧
      g.Loaded asked cache' ∧ g.Stocked asked d₁.files := by
  obtain ⟨hsame, hnext⟩ := compute_agrees hdetermined hapart hreads hwants hfiles d'
  let act : Cache.Action String (Computed ρ α) (Desk β) (RequestError ε φ) := fun w =>
    ((g.compute s x w.2).1, w.1, (g.compute s x w.2).2)
  have hact (c : Cache String (Computed ρ α)) :
      act (c, d) = ((g.compute s x d).1, c, (g.compute s x d).2) := rfl
  have hrequest : g.request s (some x) key (cache, d) =
      Cache.fetch .cache 0 (g.cacheKey s x) act (cache, d) := by
    rw [request, if_pos hcaches]
  have hmem (e) (he : e ∈ (Cache.fetch .cache 0 (g.cacheKey s x) act (cache, d)).2.1.kept.entries) :=
    Cache.mem_fetch hact he
  obtain ⟨cache', hidle, hcapacity, ⟨a, hkept, hfetch⟩ | hfetch⟩ := Cache.fetch_cases
    RequestError.cache (g.cacheKey s x) 0 hcache.idle hcache.room hact
  · rw [hfetch] at hmem
    have hloaded := hcache.of_computed hdetermined hapart hreads hcaches hwants hfiles hidle
      hcapacity hmem
    have hcomputed := hcache.computed s x a hwants (mem_of_lookup hkept) d'
    exact ⟨_, cache', d, hrequest.trans hfetch, hcomputed.symm, hloaded, hfiles⟩
  · rw [hfetch] at hmem
    have hloaded := hcache.of_computed hdetermined hapart hreads hcaches hwants hfiles hidle
      hcapacity hmem
    exact ⟨_, cache', _, hrequest.trans hfetch, hsame, hloaded, hnext⟩

/-- The allocations that requests are answered with, or why not, one after the other. -/
def answers (g : Gridder σ ρ α β ε) :
    List (Ask σ ρ α) → Shared ρ α β → List (Except (RequestError ε φ) (Allocation ρ α))
  | [], _ => []
  | a :: asked, w =>
    let done := g.request a.surrogate a.shape a.key w
    done.1.map (·.allocation) :: answers g asked done.2

omit hdetermined hapart hreads in
theorem request_bare (w : Shared ρ α β) : g.bare.request s (some x) key w =
    ((g.bare.compute s x w.2).1, w.1, (g.bare.compute s x w.2).2) := rfl

theorem request_agrees {a : Ask σ ρ α} (ha : a ∈ asked) (hcache : g.Loaded asked cache)
    (hfiles : g.Stocked asked d.files) (w : Shared ρ α β) :
    ∃ r cache' d₁, g.request a.surrogate a.shape a.key (cache, d) = (r, cache', d₁) ∧
      r.map (·.allocation) =
        (g.bare.request a.surrogate a.shape a.key w).1.map (·.allocation) ∧
      g.Loaded asked cache' ∧ g.Stocked asked d₁.files := by
  obtain ⟨s, shape, key⟩ := a
  cases shape with
  | none => exact ⟨_, cache, d, rfl, rfl, hcache, hfiles⟩
  | some x =>
    have hwants : Wants asked s x := ⟨key, ha⟩
    cases hcaches : g.caches with
    | true =>
      rw [request_bare]
      exact fetch_agrees hdetermined hapart hreads hcaches hwants hcache hfiles w.2
    | false =>
      obtain ⟨hsame, hnext⟩ := compute_agrees hdetermined hapart hreads hwants hfiles w.2
      refine ⟨(g.compute s x d).1, cache, (g.compute s x d).2, ?_, hsame, hcache, hnext⟩
      simp [request, hcaches]

omit hdetermined hapart hreads in
theorem loaded_empty {capacity : Option Int} (hcapacity : ∀ n, capacity = some n → 0 ≤ n) :
    g.Loaded asked (Cache.empty capacity) :=
  ⟨rfl, hcapacity, fun _ _ _ _ h => absurd h List.not_mem_nil⟩

theorem answers_agree {rest : List (Ask σ ρ α)} (hrest : ∀ a ∈ rest, a ∈ asked)
    (hcache : g.Loaded asked cache) (hfiles : g.Stocked asked d.files) (w : Shared ρ α β) :
    g.answers rest (cache, d) = g.bare.answers rest w := by
  induction rest generalizing cache d w with
  | nil => rfl
  | cons a rest ih =>
    obtain ⟨r, cache', d₁, hrequest, hsame, hcache', hfiles'⟩ :=
      request_agrees hdetermined hapart hreads (hrest a List.mem_cons_self) hcache hfiles w
    have hlater := ih (fun b hb => hrest b (List.mem_cons_of_mem a hb)) hcache' hfiles'
      (g.bare.request a.surrogate a.shape a.key w).2
    rw [answers, answers, hrequest, hsame]
    exact congrArg _ hlater

/-- Requests in turn are answered as they would be without a cache and a store. -/
theorem answers_eq_bare {capacity : Option Int} (hcapacity : ∀ n, capacity = some n → 0 ≤ n)
    (w : Shared ρ α β) :
    g.answers asked (Cache.empty capacity, ⟨.empty, 0⟩) = g.bare.answers asked w :=
  answers_agree hdetermined hapart hreads (fun _ ha => ha) (loaded_empty hcapacity)
    ⟨Store.Directory.plain_empty, fun _ _ _ _ h => by cases h⟩ w

end Memory

/-- A gridder of datasets of mosaics that are stored as they are. -/
def ofStoredMosaics : Gridder (Dataset Mosaic ℚ) Mosaic ℚ (Dataset Mosaic ℚ) Empty where
  grid := Mosaic.grid 2 1
  workers := 2
  tolerance := "0"
  granules _ data _ := .ok data
  encode data := [data]
  decode stored := .ok (stored.headD ⟨[], 2⟩)
  caches := true
  stores := true

def repeated : List (Ask (Dataset Mosaic ℚ) Mosaic ℚ) :=
  [⟨mixed, some twoSquares, none⟩, ⟨whole, some twoSquares, none⟩, ⟨mixed, some twoSquares, none⟩]

theorem wants_repeated {s : Surrogate (Dataset Mosaic ℚ) ℚ} {x : Shape Mosaic}
    (h : Wants repeated s x) : (s = mixed ∨ s = whole) ∧ x = twoSquares := by
  obtain ⟨key, h⟩ := h
  simp only [repeated, List.mem_cons, Ask.mk.injEq, List.not_mem_nil] at h
  grind

theorem needs_repeated {l : Leaf (Dataset Mosaic ℚ) ℚ} {x : Shape Mosaic}
    (h : Needs repeated l x) :
    (l.label = ⟨"USA", "100", "Whole"⟩ ∧ l.source = Mosaic.areas ∨
      l.label = ⟨"USA", "200", "Edge"⟩ ∧ l.source = Mosaic.line 0 3) ∧ x = twoSquares := by
  obtain ⟨s, hs, hl⟩ := h
  obtain ⟨hwhich, rfl⟩ := wants_repeated hs
  refine ⟨?_, rfl⟩
  rcases hwhich with rfl | rfl
  · simp only [mixed, whole, edge, Surrogate.leaves, Surrogate.leavesOfAll, Leaf.scale,
      List.map_cons, List.map_nil, List.append_nil, List.cons_append, List.nil_append,
      List.mem_cons, List.not_mem_nil, or_false] at hl
    rcases hl with rfl | rfl | rfl
    · exact .inl ⟨rfl, rfl⟩
    · exact .inr ⟨rfl, rfl⟩
    · exact .inl ⟨rfl, rfl⟩
  · obtain rfl := List.mem_singleton.mp hl
    exact .inl ⟨rfl, rfl⟩

theorem answers_eq_bare_repeated :
    ofStoredMosaics.answers repeated (Cache.empty (some 1), ⟨.empty, 0⟩) =
      ofStoredMosaics.bare.answers repeated (Cache.empty (some 1), ⟨.empty, 0⟩) := by
  have hdetermined : Determined repeated := by
    refine ⟨fun s s' x x' hs hs' _ hcode => ?_, fun l l' x x' hl hl' _ hcode => ?_,
      fun s s' x x' hs hs' _ => ?_⟩
    · rcases (wants_repeated hs).1 with rfl | rfl <;> rcases (wants_repeated hs').1 with rfl | rfl
      · rfl
      · exact absurd hcode (by decide)
      · exact absurd hcode (by decide)
      · rfl
    · obtain ⟨⟨hlabel, hsource⟩ | ⟨hlabel, hsource⟩, -⟩ := needs_repeated hl <;>
        obtain ⟨⟨hlabel', hsource'⟩ | ⟨hlabel', hsource'⟩, -⟩ := needs_repeated hl' <;>
        rw [hlabel, hlabel'] at hcode
      · exact ⟨hlabel.trans hlabel'.symm, hsource.trans hsource'.symm⟩
      · exact absurd hcode (by decide)
      · exact absurd hcode (by decide)
      · exact ⟨hlabel.trans hlabel'.symm, hsource.trans hsource'.symm⟩
    · rw [(wants_repeated hs).2, (wants_repeated hs').2]
  have hapart : ofStoredMosaics.Apart repeated := by
    refine apart_of_lengths 3 3 (fun s x hs => ?_) (fun l x hl => ?_) (fun l x hl => ?_)
      (fun l x hl => ?_)
    · rcases (wants_repeated hs).1 with rfl | rfl <;> exact ⟨rfl, rfl⟩
    · obtain ⟨⟨hlabel, -⟩ | ⟨hlabel, -⟩, -⟩ := needs_repeated hl <;> rw [hlabel] <;>
        exact ⟨rfl, rfl⟩
    · obtain ⟨⟨hlabel, -⟩ | ⟨hlabel, -⟩, rfl⟩ := needs_repeated hl <;> rw [hlabel] <;> rfl
    · obtain ⟨⟨hlabel, -⟩ | ⟨hlabel, -⟩, rfl⟩ := needs_repeated hl <;> rw [hlabel] <;> rfl
  have hreads : ofStoredMosaics.ReadsBack repeated := fun _ _ _ _ _ _ => rfl
  exact answers_eq_bare hdetermined hapart hreads (by decide) _

def areasOfUS : Surrogate (Dataset Mosaic ℚ) ℚ := .simple ⟨"US", "A100", "Areas"⟩ Mosaic.areas

/-- Its region and code make up the same text. -/
def lineOfUSA : Surrogate (Dataset Mosaic ℚ) ℚ := .simple ⟨"USA", "100", "Line"⟩ (Mosaic.line 0 3)

def clashing : List (Ask (Dataset Mosaic ℚ) Mosaic ℚ) :=
  [⟨areasOfUS, some twoSquares, none⟩, ⟨lineOfUSA, some twoSquares, none⟩]

theorem determined_clashing : Determined clashing := by
  have hwants (s : Surrogate (Dataset Mosaic ℚ) ℚ) (x : Shape Mosaic) (h : Wants clashing s x) :
      (s = areasOfUS ∨ s = lineOfUSA) ∧ x = twoSquares := by
    obtain ⟨key, h⟩ := h
    simp only [clashing, List.mem_cons, Ask.mk.injEq, List.not_mem_nil] at h
    grind
  refine ⟨fun s s' x x' hs hs' hregion _ => ?_, ?_, fun s s' x x' hs hs' _ => ?_⟩
  · rcases (hwants s x hs).1 with rfl | rfl <;> rcases (hwants s' x' hs').1 with rfl | rfl
    · rfl
    · exact absurd hregion (by decide)
    · exact absurd hregion (by decide)
    · rfl
  · rintro l l' x x' ⟨s, hs, hl⟩ ⟨s', hs', hl'⟩ hregion -
    rcases (hwants s x hs).1 with rfl | rfl <;> rcases (hwants s' x' hs').1 with rfl | rfl <;>
      obtain rfl := List.mem_singleton.mp hl <;> obtain rfl := List.mem_singleton.mp hl'
    · exact ⟨rfl, rfl⟩
    · exact absurd hregion (by decide)
    · exact absurd hregion (by decide)
    · exact ⟨rfl, rfl⟩
  · rw [(hwants s x hs).2, (hwants s' x' hs').2]

/-- The second of two surrogates that share a key is answered by the allocation of the first. -/
theorem answers_ne_bare : Determined clashing ∧ ∃ a b, a.totalWeight = 3 ∧ b.totalWeight = 1 ∧
    (ofMosaics 2 1 true).answers clashing (Cache.empty none, ⟨.empty, 0⟩) = [.ok a, .ok a] ∧
      (ofMosaics 2 1 true).bare.answers clashing (Cache.empty none, ⟨.empty, 0⟩) =
        [.ok a, .ok b] := by
  obtain ⟨a, ha, hatotal, -⟩ :=
    exists_allocateSimple_ofMosaics true Mosaic.areas (by decide) (by decide)
  obtain ⟨b, hb, hbtotal, -⟩ :=
    exists_allocateSimple_ofMosaics true (Mosaic.line 0 3) (by decide) (by decide)
  refine ⟨determined_clashing, a, b, hatotal.trans (by decide +kernel),
    hbtotal.trans (by decide +kernel), ?_, ?_⟩
  · have hcaches : (ofMosaics 2 1 true).caches = true := rfl
    have hcompute : (ofMosaics 2 1 true).compute areasOfUS twoSquares ⟨.empty, 0⟩ =
        (.ok ⟨0, a⟩, ⟨.empty, 1⟩) := compute_simple (ha _ _)
    have hfirst : (ofMosaics 2 1 true).request areasOfUS (some twoSquares) none
        (Cache.empty none, ⟨.empty, 0⟩) = (.ok ⟨0, a⟩,
          ⟨none, ⟨[((ofMosaics 2 1 true).cacheKey areasOfUS twoSquares, ⟨0, a⟩)]⟩, [], 0, 1⟩,
          ⟨.empty, 1⟩) := by
      rw [request, if_pos hcaches, Cache.fetch]
      simp [Cache.request, Cache.empty, Recent.find?, hcompute, Cache.land, Cache.settle,
        Cache.abandon, Cache.evict, Recent.set, Entries.put]
    have hsame : (ofMosaics 2 1 true).cacheKey lineOfUSA twoSquares =
        (ofMosaics 2 1 true).cacheKey areasOfUS twoSquares := rfl
    have hsecond : ((ofMosaics 2 1 true).request lineOfUSA (some twoSquares) none
        (⟨none, ⟨[((ofMosaics 2 1 true).cacheKey areasOfUS twoSquares, ⟨0, a⟩)]⟩, [], 0, 1⟩,
          ⟨.empty, 1⟩)).1 = .ok ⟨0, a⟩ := by
      rw [request, if_pos hcaches, hsame]
      exact Cache.fetch_of_kept List.lookup_cons_self
    simp only [clashing, answers, hfirst, hsecond]
    rfl
  · have hfirst : (ofMosaics 2 1 true).bare.compute areasOfUS twoSquares ⟨.empty, 0⟩ =
        (.ok ⟨0, a⟩, ⟨.empty, 1⟩) := compute_simple (ha ⟨"US", "A100", "Areas"⟩ _)
    have hsecond : (ofMosaics 2 1 true).bare.compute lineOfUSA twoSquares ⟨.empty, 1⟩ =
        (.ok ⟨1, b⟩, ⟨.empty, 2⟩) := compute_simple (hb ⟨"USA", "100", "Line"⟩ _)
    simp only [clashing, answers, request_bare, hfirst, hsecond]
    rfl

end Gridder

end Gridding
