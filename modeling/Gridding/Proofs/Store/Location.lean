import Gridding.Proofs.Store.Directory
import Gridding.Proofs.Text.Slug
import Mathlib.Data.String.Basic

/-!
# Where the files of a store lie

A name without separators that is neither `.` nor `..` leads from a folder to something right in it.
The names of files of keys are such names, whatever the keys are, so a store never leaves its
folder.
-/

namespace Gridding

/-! ## Names as paths -/

section Split

open String

/-- The text is read on from `cs`, in which there was nothing to split at. -/
theorem splitOnAux_of_forall_ne (cs : List Char) {ds : List Char} (h : ∀ c ∈ ds, c ≠ '/') :
    (ofList (cs ++ ds)).splitOnAux "/" 0 ⟨utf8Len cs⟩ 0 [] = [ofList (cs ++ ds)] := by
  induction ds generalizing cs with
  | nil =>
    have hall := extract_of_valid [] cs []
    rw [splitOnAux, if_pos ((atEnd_of_valid cs []).mpr rfl)]
    simpa using hall
  | cons d ds ih =>
    obtain ⟨hd, hds⟩ := List.forall_mem_cons.mp h
    have hend : ¬ Pos.Raw.atEnd (ofList (cs ++ d :: ds)) ⟨utf8Len cs⟩ = true :=
      fun hend => List.cons_ne_nil d ds ((atEnd_of_valid cs (d :: ds)).mp hend)
    have hne : ¬ (d == Pos.Raw.get "/" 0) = true := fun heq => hd (eq_of_beq heq)
    have hnext : Pos.Raw.next (ofList (cs ++ d :: ds)) ⟨utf8Len cs⟩ = ⟨utf8Len (cs ++ [d])⟩ := by
      rw [next_of_valid, utf8Len_append, utf8Len_cons, utf8Len_nil, Nat.zero_add]
    have hrest := ih (cs ++ [d]) hds
    rw [List.append_assoc, List.singleton_append] at hrest
    rw [splitOnAux, if_neg hend, get_of_valid, List.headD_cons, if_neg hne]
    exact (congrArg (fun i => splitOnAux _ "/" 0 i 0 []) hnext).trans hrest

theorem splitOn_of_forall_ne {s : String} (h : ∀ c ∈ s.toList, c ≠ '/') :
    s.splitOn "/" = [s] := by
  have hall := splitOnAux_of_forall_ne [] h
  rw [List.nil_append, ofList_toList] at hall
  rw [splitOn, if_neg (by decide)]
  exact hall

end Split

namespace Path

/-- A name without separators is a path of one part. -/
theorem ofText_of_isPart {name : String} (h : ∀ c ∈ name.toList, c ≠ '/') (hpart : isPart name) :
    ofText name = ⟨"", [name]⟩ := by
  have hstart (rest : List Char) : ¬ '/' :: rest <+: name.toList :=
    fun hfront => h '/' (hfront.mem List.mem_cons_self) rfl
  have htwo : name.startsWith "//" = false :=
    String.startsWith_string_eq_false_iff.mpr (hstart ['/'])
  have hone : name.startsWith "/" = false := String.startsWith_string_eq_false_iff.mpr (hstart [])
  rw [ofText, splitOn_of_forall_ne h, List.filter_singleton, hpart, htwo, hone]
  rfl

theorem under_of_root {p : Path} (h : p.root = "") (folder : Path) :
    p.under folder = ⟨folder.root, folder.parts ++ p.parts⟩ := by
  rw [under, isAbsolute, h, if_neg (by decide)]

/-- The last part stays where a path is resolved, unless it is a step back. -/
theorem resolved_concat (folder : Path) {name : String} (h : name ≠ "..") :
    (⟨folder.root, folder.parts ++ [name]⟩ : Path).resolved =
      ⟨folder.resolved.root, folder.resolved.parts ++ [name]⟩ := by
  simp only [resolved, isAbsolute, List.foldl_append, List.foldl_cons, List.foldl_nil, enter,
    if_neg h, List.reverse_cons]

end Path

namespace Store

/-! ## Names of files of keys -/

theorem toList_fileName (key : String) :
    (fileName key).toList = (Text.slug key).toList ++ ['.', 's', 'r', 'g'] := by
  rw [fileName, String.toList_append]
  rfl

/-- Neither separators of any system nor ends of names stand in a slug. -/
theorem ne_separator_of_isSlugChar {c : Char} (h : Text.isSlugChar c) :
    c ≠ '/' ∧ c ≠ '\\' ∧ c ≠ '\x00' := by
  refine ⟨?_, ?_, ?_⟩
  all_goals
    rintro rfl
    exact absurd h (by decide)

theorem isSlugChar_of_mem_fileName {key : String} {c : Char} (h : c ∈ (fileName key).toList) :
    Text.isSlugChar c := by
  have hend : ['.', 's', 'r', 'g'].all Text.isSlugChar = true := rfl
  rw [toList_fileName, List.mem_append] at h
  rcases h with h | h
  · exact (Text.isSlug_slug key).isSlugChar c h
  · exact List.all_eq_true.mp hend c h

/-- A name that ends with `.srg` is too long for a name of dots. -/
theorem fileName_ne_of_length_lt {name : String} (h : name.toList.length < 4) (key : String) :
    fileName key ≠ name := by
  rintro rfl
  rw [toList_fileName, List.length_append] at h
  exact absurd h (by simp)

/-- The file of a key lies right in the folder, under a name that is a slug with an ending, that leads
nowhere else and that no file in the making has. -/
structure LiesIn (folder : Path) (key : String) : Prop where
  /-- A part is added to the folder's, and the folder's stay when the path is resolved. -/
  child : filePath folder key = ⟨folder.root, folder.parts ++ [fileName key]⟩ ∧
    (filePath folder key).resolved =
      ⟨folder.resolved.root, folder.resolved.parts ++ [fileName key]⟩
  name : fileName key = Text.slug key ++ ".srg"
  chars : ∀ c ∈ (fileName key).toList, c ≠ '/' ∧ c ≠ '\\' ∧ c ≠ '\x00'
  ne_dots : fileName key ≠ "." ∧ fileName key ≠ ".."
  ne_temporary : ∀ key' mark, fileName key ≠ temporaryName key' mark

theorem filePath_eq (folder : Path) (key : String) :
    filePath folder key = ⟨folder.root, folder.parts ++ [fileName key]⟩ := by
  have hseparator : ∀ c ∈ (fileName key).toList, c ≠ '/' := fun c hc =>
    (ne_separator_of_isSlugChar (isSlugChar_of_mem_fileName hc)).1
  have hpart : Path.isPart (fileName key) := by
    have hempty : fileName key ≠ "" := fileName_ne_of_length_lt (by decide) key
    have hdot : fileName key ≠ "." := fileName_ne_of_length_lt (by decide) key
    simp [Path.isPart, hempty, hdot]
  rw [filePath, Path.ofText_of_isPart hseparator hpart, Path.under_of_root rfl]

theorem liesIn (folder : Path) (key : String) : LiesIn folder key where
  child := by
    have hback : fileName key ≠ ".." := fileName_ne_of_length_lt (by decide) key
    exact ⟨filePath_eq folder key, by rw [filePath_eq, Path.resolved_concat folder hback]⟩
  name := rfl
  chars c hc := ne_separator_of_isSlugChar (isSlugChar_of_mem_fileName hc)
  ne_dots := ⟨fileName_ne_of_length_lt (by decide) key, fileName_ne_of_length_lt (by decide) key⟩
  ne_temporary key' mark := (temporaryName_ne_fileName key' mark key).symm

/-- Whatever the key is, its file lies in the folder of the store, and its slug is a slug that is left
as it is. -/
theorem file_contained (folder : Path) (key : String) :
    LiesIn folder key ∧ Text.IsSlug (Text.slug key) ∧ Text.slug (Text.slug key) = Text.slug key :=
  ⟨liesIn folder key, Text.isSlug_slug key, Text.slug_slug key⟩

end Store

end Gridding
