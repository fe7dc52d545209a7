import Gridding.Proofs.Store.Directory
import Mathlib.Data.Set.Function
import Mathlib.Logic.Function.Basic

/-!
# The store as a map

Those who use a store take it for a map from keys to contents. It is one on keys of pairwise
different slugs that are short enough for names of files, and on no others.
-/

namespace Gridding.Store

/-- Puts a content, or loads what is stored under a key, where `built` is what building gives. -/
inductive Use (α β ε : Type) where
  | put (key : String) (content : List β)
  | load (key : String) (built : Except ε α)

namespace Use

variable {α β ε : Type}

def key : Use α β ε → String
  | put key _ | load key _ => key

section

variable (refuse : StoreError → ε) (encode : α → List β) (decode : List β → Except ε α)

/-- A use of a directory. -/
def act (d : Directory β) : Use α β ε → Except ε (Option α) × Directory β
  | put key content =>
    let done := d.put key content
    ((done.1.mapError refuse).map fun _ => none, done.2)
  | load key built =>
    let done := d.loadOrBuild refuse encode decode key (fun s => (built, s)) ()
    (done.1.map some, done.2.1)

/-- The same use of a map. -/
def actOnMap (m : String → Option (List β)) :
    Use α β ε → Except ε (Option α) × (String → Option (List β))
  | put key content => (.ok none, Function.update m key (some content))
  | load key built =>
    match m key, built with
    | some content, _ => ((decode content).map some, m)
    | none, .error e => (.error e, m)
    | none, .ok a => (.ok (some a), Function.update m key (some (encode a)))

end

/-- The answers to uses in turn and what they leave. -/
def inTurn {S A : Type} (f : S → Use α β ε → A × S) : S → List (Use α β ε) → List A × S
  | s, [] => ([], s)
  | s, u :: us =>
    let rest := inTurn f (f s u).2 us
    ((f s u).1 :: rest.1, rest.2)

end Use

namespace Directory

variable {α β ε : Type} (refuse : StoreError → ε) (encode : α → List β)
  (decode : List β → Except ε α)

/-- The answers of a store that is empty at first, and its directory in the end. -/
def after (uses : List (Use α β ε)) : List (Except ε (Option α)) × Directory β :=
  Use.inTurn (Use.act refuse encode decode) empty uses

/-- The answers of a map that is empty at first, and its contents in the end. -/
def mapAfter (uses : List (Use α β ε)) :
    List (Except ε (Option α)) × (String → Option (List β)) :=
  Use.inTurn (Use.actOnMap encode decode) (fun _ => none) uses

/-- On these keys the store cannot be told from a map. -/
structure IsMap (K : Set String) : Prop where
  answers : ∀ uses : List (Use α β ε), (∀ u ∈ uses, u.key ∈ K) →
    (after refuse encode decode uses).1 = (mapAfter encode decode uses).1
  contents : ∀ uses : List (Use α β ε), (∀ u ∈ uses, u.key ∈ K) → ∀ key ∈ K,
    (after refuse encode decode uses).2.get key = .ok ((mapAfter encode decode uses).2 key)
  /-- No use changes what is stored under other keys. -/
  apart : ∀ (uses : List (Use α β ε)) (u : Use α β ε), (∀ v ∈ u :: uses, v.key ∈ K) →
    ∀ key ∈ K, key ≠ u.key →
      (u.act refuse encode decode (after refuse encode decode uses).2).2.get key =
        (after refuse encode decode uses).2.get key

/-! ## The directory stands for a map -/

/-- The keys have files with what the map has for them. -/
structure Represents (K : Set String) (d : Directory β) (m : String → Option (List β)) :
    Prop where
  plain : d.Plain
  held : ∀ key ∈ K, d.held key = m key

variable {K : Set String}

theorem represents_empty : Represents K (empty : Directory β) (fun _ => none) :=
  ⟨plain_empty, fun _ _ => rfl⟩

theorem Represents.get (hfits : ∀ key ∈ K, Fits key) {d : Directory β}
    {m : String → Option (List β)} (h : Represents K d m) {key : String} (hkey : key ∈ K) :
    d.get key = .ok (m key) := by
  rw [h.plain.get_eq (hfits key hkey), h.held key hkey]

theorem Represents.put (hfits : ∀ key ∈ K, Fits key) (hinj : Set.InjOn Text.slug K)
    {d : Directory β} {m : String → Option (List β)} (h : Represents K d m) {key : String}
    (hkey : key ∈ K) (content : List β) :
    Represents K (d.put key content).2 (Function.update m key (some content)) := by
  refine ⟨h.plain.put key content, fun other hother => ?_⟩
  rw [h.plain.held_put (hfits key hkey)]
  by_cases hslug : Text.slug other = Text.slug key
  · obtain rfl : other = key := hinj hother hkey hslug
    rw [if_pos rfl, Function.update_self]
  · have hne : other ≠ key := fun heq => hslug (congrArg Text.slug heq)
    rw [if_neg hslug, Function.update_of_ne hne, h.held other hother]

theorem Represents.act (hfits : ∀ key ∈ K, Fits key) (hinj : Set.InjOn Text.slug K)
    {d : Directory β} {m : String → Option (List β)} (h : Represents K d m) {u : Use α β ε}
    (hu : u.key ∈ K) :
    (u.act refuse encode decode d).1 = (u.actOnMap encode decode m).1 ∧
      Represents K (u.act refuse encode decode d).2 (u.actOnMap encode decode m).2 := by
  have hfit := hfits u.key hu
  have hheld := h.held u.key hu
  cases u with
  | put key content =>
    rw [Use.key] at hfit hu
    have hdone : (d.put key content).1 = .ok () := by rw [h.plain.put_eq hfit]
    simp only [Use.act, Use.actOnMap, hdone]
    exact ⟨rfl, h.put hfits hinj hu content⟩
  | load key built =>
    rw [Use.key] at hheld hfit hu
    cases hm : m key with
    | some content =>
      rw [hm] at hheld
      simp only [Use.act, Use.actOnMap, hm,
        h.plain.loadOrBuild_of_held refuse encode decode _ hfit hheld, true_and]
      exact h
    | none =>
      rw [hm] at hheld
      simp only [Use.act, h.plain.loadOrBuild_of_not_held refuse encode decode _ hfit hheld]
      cases built with
      | error e =>
        simp only [Use.actOnMap, hm]
        exact ⟨rfl, h⟩
      | ok a =>
        simp only [Use.actOnMap, hm]
        exact ⟨rfl, h.put hfits hinj hu (encode a)⟩

theorem Represents.inTurn (hfits : ∀ key ∈ K, Fits key) (hinj : Set.InjOn Text.slug K)
    (uses : List (Use α β ε)) (huses : ∀ u ∈ uses, u.key ∈ K) {d : Directory β}
    {m : String → Option (List β)} (h : Represents K d m) :
    (Use.inTurn (Use.act refuse encode decode) d uses).1 =
        (Use.inTurn (Use.actOnMap encode decode) m uses).1 ∧
      Represents K (Use.inTurn (Use.act refuse encode decode) d uses).2
        (Use.inTurn (Use.actOnMap encode decode) m uses).2 := by
  induction uses generalizing d m with
  | nil => exact ⟨rfl, h⟩
  | cons u us ih =>
    have hu := huses u List.mem_cons_self
    have hus : ∀ v ∈ us, v.key ∈ K := fun v hv => huses v (List.mem_cons_of_mem u hv)
    obtain ⟨hanswer, hstep⟩ := h.act refuse encode decode hfits hinj hu
    obtain ⟨hanswers, hrest⟩ := ih hus hstep
    simp only [Use.inTurn]
    exact ⟨by rw [hanswer, hanswers], hrest⟩

theorem actOnMap_of_ne (m : String → Option (List β)) {key : String} {u : Use α β ε}
    (h : key ≠ u.key) : (u.actOnMap encode decode m).2 key = m key := by
  cases u with
  | put own content => exact Function.update_of_ne h _ _
  | load own built =>
    cases hm : m own with
    | some content => simp only [Use.actOnMap, hm]
    | none =>
      cases built with
      | error e => simp only [Use.actOnMap, hm]
      | ok a =>
        simp only [Use.actOnMap, hm]
        exact Function.update_of_ne h _ _

/-! ## When the store is a map -/

theorem isMap_of_injOn (hfits : ∀ key ∈ K, Fits key) (hinj : Set.InjOn Text.slug K) :
    IsMap refuse encode decode K := by
  have hrun (uses : List (Use α β ε)) (huses : ∀ u ∈ uses, u.key ∈ K) :=
    represents_empty.inTurn refuse encode decode hfits hinj uses huses
  refine ⟨fun uses huses => (hrun uses huses).1,
    fun uses huses key hkey => (hrun uses huses).2.get hfits hkey,
    fun uses u hall key hkey hne => ?_⟩
  have hbefore := (hrun uses fun v hv => hall v (List.mem_cons_of_mem u hv)).2
  have hafter := (hbefore.act refuse encode decode hfits hinj (hall u List.mem_cons_self)).2
  rw [after, hafter.get hfits hkey, hbefore.get hfits hkey, actOnMap_of_ne encode decode _ hne]

/-- A put that the names of files have no room for fails. -/
theorem IsMap.fits (h : IsMap refuse encode decode K) {key : String} (hkey : key ∈ K) :
    Fits key := by
  have hanswer := h.answers [.put key []] (by simpa [Use.key] using hkey)
  by_contra hlong
  simp only [after, mapAfter, Use.inTurn, Use.act, Use.actOnMap, put_of_not_fits _ hlong] at hanswer
  cases hanswer

/-- What is put under a key is read back under the other keys of its slug. -/
theorem IsMap.injOn (h : IsMap refuse encode decode K) : Set.InjOn Text.slug K := by
  intro key hkey other hother hslug
  have hread := h.contents [.put key []] (by simpa [Use.key] using hkey) other hother
  by_contra hne
  have hmap : (mapAfter encode decode [.put key []]).2 other = none := by
    simp [mapAfter, Use.inTurn, Use.actOnMap, Function.update_of_ne (Ne.symm hne)]
  have hheld : (after refuse encode decode [.put key []]).2.get other = .ok (some []) := by
    simp only [after, Use.inTurn, Use.act]
    rw [(plain_empty.put key []).get_eq (h.fits refuse encode decode hother),
      plain_empty.held_put (h.fits refuse encode decode hkey), if_pos hslug.symm]
  rw [hheld, hmap] at hread
  cases hread

theorem isMap_iff_injOn :
    IsMap refuse encode decode K ↔ (∀ key ∈ K, Fits key) ∧ Set.InjOn Text.slug K := by
  constructor
  · intro h
    exact ⟨fun key hkey => h.fits refuse encode decode hkey, h.injOn refuse encode decode⟩
  · rintro ⟨hfits, hinj⟩
    exact isMap_of_injOn refuse encode decode hfits hinj

/-- A content put under `a/b` is also that of `a b`, under which nothing was put. -/
theorem not_isMap_of_nonempty_keys :
    (after id id Except.ok ([.put "a/b" [1]] : List (Use (List Nat) Nat StoreError))).2.get "a b" =
        .ok (some [1]) ∧
      (mapAfter id Except.ok ([.put "a/b" [1]] : List (Use (List Nat) Nat StoreError))).2 "a b" =
        none ∧
      ¬ IsMap id id (Except.ok : List Nat → Except StoreError (List Nat)) {key | key ≠ ""} := by
  refine ⟨rfl, rfl, fun h => ?_⟩
  have hinj : Set.InjOn Text.slug {key | key ≠ ""} := h.injOn id id Except.ok
  have hslug : Text.slug "a/b" = Text.slug "a b" := by decide +kernel
  exact absurd (hinj (by decide : "a/b" ≠ "") (by decide : "a b" ≠ "") hslug) (by decide)

end Directory

end Gridding.Store
