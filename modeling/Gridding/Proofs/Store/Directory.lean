import Gridding.Proofs.Cache.Recent
import Gridding.Store.Granules

/-!
# What a directory holds

A directory is known by what each name stands for. Publishing under a key changes what the names of
two files stand for, that of the key and a temporary one, and no key has a temporary name.
-/

namespace Gridding.Store

/-! ## Names of files -/

theorem fileName_eq_iff {key key' : String} :
    fileName key = fileName key' ↔ Text.slug key = Text.slug key' := by
  unfold fileName
  exact String.append_left_inj ".srg"

theorem utf8ByteSize_fileName (key : String) :
    (fileName key).utf8ByteSize = (Text.slug key).utf8ByteSize + 4 := by
  rw [fileName, String.utf8ByteSize_append]
  rfl

theorem utf8ByteSize_temporaryName (key mark : String) :
    (temporaryName key mark).utf8ByteSize =
      (Text.slug key).utf8ByteSize + mark.utf8ByteSize + 4 := by
  rw [temporaryName, String.utf8ByteSize_append, String.utf8ByteSize_append]
  rfl

theorem temporaryName_ne_fileName (key mark key' : String) :
    temporaryName key mark ≠ fileName key' := by
  intro h
  have hend : (temporaryName key mark).toList.reverse.take 3 =
      (fileName key').toList.reverse.take 3 := by rw [h]
  simp [temporaryName, fileName] at hend

namespace Directory

variable {β : Type}

/-- Is the key short enough for what is written under it? -/
def Fits (key : String) : Prop := isNameTooLong (temporaryName key "00000000") = false

theorem Fits.fileName {key : String} (h : Fits key) : isNameTooLong (fileName key) = false := by
  simp only [Fits, isNameTooLong, utf8ByteSize_temporaryName] at h
  simp only [isNameTooLong, utf8ByteSize_fileName]
  grind

/-! ## Looking up names -/

theorem lookup_cons_eq_ite {γ : Type} (name other : String) (e : γ) (es : List (String × γ)) :
    ((name, e) :: es).lookup other = if other = name then some e else es.lookup other := by
  rw [List.lookup_cons]
  by_cases h : other = name
  · simp [h]
  · simp [h, beq_false_of_ne h]

theorem find?_remove (d : Directory β) (name other : String) :
    (d.remove name).find? other = if other = name then none else d.find? other := by
  unfold remove find?
  induction d.entries with
  | nil => simp
  | cons e es ih =>
    obtain ⟨first, e⟩ := e
    rw [lookup_cons_eq_ite]
    by_cases hfirst : first = name
    · -- The first entry goes, and it is one that `other` does not see unless it is `name`.
      rw [List.filter_cons_of_neg (by simpa using hfirst), ih]
      grind
    · rw [List.filter_cons_of_pos (by simpa using hfirst), lookup_cons_eq_ite, ih]
      grind

theorem find?_assign (d : Directory β) (name other : String) (e : Entry β) :
    (d.assign name e).find? other = if other = name then some e else d.find? other := by
  have hlast : (d.assign name e).find? other =
      ((d.remove name).find? other).or (if other = name then some e else none) := by
    simp only [assign, find?, List.lookup_append, lookup_cons_eq_ite, List.lookup_nil]
  rw [hlast, find?_remove]
  by_cases h : other = name <;> simp [h]

/-! ## Contents of keys -/

/-- Every name stands for a file. -/
def Plain (d : Directory β) : Prop := ∀ name, d.find? name ≠ some .folder

/-- The content of the file of a key. -/
def held (d : Directory β) (key : String) : Option (List β) :=
  match d.find? (fileName key) with
  | some (.file content) => some content
  | _ => none

theorem plain_empty : (empty : Directory β).Plain := by
  intro name h
  cases h

theorem held_empty (key : String) : (empty : Directory β).held key = none := rfl

theorem Plain.get_eq {d : Directory β} (hd : d.Plain) {key : String} (hkey : Fits key) :
    d.get key = .ok (d.held key) := by
  rw [get, read, if_neg (by rw [hkey.fileName]; decide), held]
  cases hfound : d.find? (fileName key) with
  | none => rfl
  | some e =>
    cases e with
    | file content => rfl
    | folder => exact absurd hfound (hd _)

/-! ## Putting contents -/

theorem put_of_not_fits (d : Directory β) {key : String} (hkey : ¬ Fits key) (content : List β) :
    d.put key content = (.error .nameTooLong, d) := by
  have hlong : isNameTooLong (temporaryName key "00000000") = true := by
    rwa [Fits, Bool.not_eq_false] at hkey
  simp [put, publication, publishUntil, attempt, write, hlong]

theorem Plain.put_eq {d : Directory β} (hd : d.Plain) {key : String} (hkey : Fits key)
    (content : List β) :
    d.put key content =
      (.ok (), ((((d.assign (temporaryName key "00000000") (.file [])).assign
        (temporaryName key "00000000") (.file content)).remove
          (temporaryName key "00000000")).assign (fileName key) (.file content))) := by
  have hshort := hkey.fileName
  have hne := temporaryName_ne_fileName key "00000000" key
  have hfolder := hd (fileName key)
  rw [Fits] at hkey
  cases hfound : d.find? (fileName key) with
  | none =>
    simp [put, publication, publishUntil, attempt, write, hkey, hshort, find?_assign, hne.symm,
      hfound]
  | some e =>
    cases e with
    | file old =>
      simp [put, publication, publishUntil, attempt, write, hkey, hshort, find?_assign, hne.symm,
        hfound]
    | folder => exact absurd hfound hfolder

theorem Plain.find?_put {d : Directory β} (hd : d.Plain) {key : String} (hkey : Fits key)
    (content : List β) (name : String) :
    (d.put key content).2.find? name =
      if name = fileName key then some (.file content)
      else if name = temporaryName key "00000000" then none else d.find? name := by
  rw [hd.put_eq hkey]
  simp only [find?_assign, find?_remove]
  grind

theorem Plain.put {d : Directory β} (hd : d.Plain) (key : String) (content : List β) :
    (d.put key content).2.Plain := by
  by_cases hkey : Fits key
  · intro name h
    rw [hd.find?_put hkey] at h
    split at h
    · cases h
    · split at h
      · cases h
      · exact hd name h
  · rwa [put_of_not_fits d hkey]

/-- What is put under a key is seen by all keys of its slug and by no other. -/
theorem Plain.held_put {d : Directory β} (hd : d.Plain) {key : String} (hkey : Fits key)
    (content : List β) (key' : String) :
    (d.put key content).2.held key' =
      if Text.slug key' = Text.slug key then some content else d.held key' := by
  have hne := (temporaryName_ne_fileName key "00000000" key').symm
  unfold held
  rw [hd.find?_put hkey, if_neg hne]
  by_cases h : Text.slug key' = Text.slug key
  · rw [if_pos (fileName_eq_iff.mpr h), if_pos h]
  · rw [if_neg (mt fileName_eq_iff.mp h), if_neg h]

section

variable {σ α ε : Type} (refuse : StoreError → ε) (encode : α → List β)
  (decode : List β → Except ε α) (build : σ → Except ε α × σ) {d : Directory β} {key : String}

theorem Plain.loadOrBuild_of_held (hd : d.Plain) (hkey : Fits key) {content : List β}
    (h : d.held key = some content) (s : σ) :
    d.loadOrBuild refuse encode decode key build s = (decode content, d, s) := by
  rw [loadOrBuild, hd.get_eq hkey, h]

/-- What is built is stored, and a failure to build leaves everything as it was. -/
theorem Plain.loadOrBuild_of_not_held (hd : d.Plain) (hkey : Fits key) (h : d.held key = none)
    (s : σ) :
    d.loadOrBuild refuse encode decode key build s =
      match (build s).1 with
      | .error e => (.error e, d, (build s).2)
      | .ok a => (.ok a, (d.put key (encode a)).2, (build s).2) := by
  have hput (content : List β) : d.put key content = (.ok (), (d.put key content).2) := by
    rw [hd.put_eq hkey]
  rw [loadOrBuild, hd.get_eq hkey, h]
  obtain ⟨built, s'⟩ := build s
  cases built with
  | error e => rfl
  | ok a =>
    dsimp only
    rw [hput]

end

end Directory

end Gridding.Store
