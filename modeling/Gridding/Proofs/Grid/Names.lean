import Gridding.Proofs.Fallible
import Gridding.Proofs.Grid.Description

/-!
# Names as they are looked up

What is left of a text when it is cleaned is nothing or a name, and names are left as they are. So
every grid that a description lists is found under its listed name, and under any other spelling of
it, too.
-/

namespace Gridding.Description

open Text (isBlank IsTrim)

/-! ## Squeezed texts -/

section Squeeze

variable {c : Char} {cs : List Char}

theorem mem_squeeze (h : c ∈ squeeze cs) : c = ' ' ∨ c ∈ cs ∧ isBlank c = false := by
  fun_induction squeeze cs with
  | case1 => cases h
  | case2 d =>
    obtain rfl := List.mem_singleton.mp h
    split
    case isTrue => exact .inl rfl
    case isFalse hd => exact .inr ⟨List.mem_singleton_self d, by simpa using hd⟩
  | case3 d e rest hd he ih => exact (ih h).imp_right (.imp_left (List.mem_cons_of_mem d))
  | case4 d e rest hd he ih =>
    rcases List.mem_cons.mp h with h | h
    · exact .inl h
    · exact (ih h).imp_right (.imp_left (List.mem_cons_of_mem d))
  | case5 d e rest hd ih =>
    rcases List.mem_cons.mp h with rfl | h
    · exact .inr ⟨List.mem_cons_self, by simpa using hd⟩
    · exact (ih h).imp_right (.imp_left (List.mem_cons_of_mem d))

/-- A blank that is left is a space. -/
theorem eq_space_of_mem_squeeze (h : c ∈ squeeze cs) (hc : isBlank c) : c = ' ' := by
  rcases mem_squeeze h with h | ⟨-, h⟩
  · exact h
  · rw [hc] at h
    cases h

theorem isChain_squeeze (cs : List Char) :
    (squeeze cs).IsChain fun c d => ¬ (isBlank c ∧ isBlank d) := by
  fun_induction squeeze cs with
  | case1 => exact .nil
  | case2 d => exact .singleton _
  | case3 d e rest hd he ih => exact ih
  | case4 d e rest hd he ih =>
    -- What follows the space begins with a character that is no blank.
    refine ih.cons fun f hf hblank => he ?_
    rw [squeeze_cons_of_not_blank (by simpa using he)] at hf
    cases hf
    exact hblank.2
  | case5 d e rest hd ih => exact ih.cons fun f hf hblank => hd hblank.1

end Squeeze

/-! ## Cleaned texts -/

section Cleaned

variable {c : Char} {cs : List Char}

theorem mem_of_mem_cleanChars (h : c ∈ cleanChars cs) :
    c ∈ squeeze ((trimmed (withoutComment cs)).filter fun c => !isQuoteMark c) :=
  Text.mem_of_mem_trimBoth h

/-- What is left of a text, if anything is, is a name. -/
theorem isName_of_cleanChars_ne_nil (h : cleanChars cs ≠ []) :
    IsName (String.ofList (cleanChars cs)) where
  ne := by rwa [String.toList_ofList]
  unmarked c hc := by
    rw [String.toList_ofList] at hc
    rcases mem_squeeze (mem_of_mem_cleanChars hc) with rfl | ⟨hc, -⟩
    · exact ⟨by decide, by decide⟩
    · obtain ⟨hkept, hmark⟩ := List.mem_filter.mp hc
      have hcomment : c ∈ withoutComment cs := Text.mem_of_mem_trimBoth hkept
      exact ⟨by simpa using hmark, by simpa using List.mem_takeWhile_imp hcomment⟩
  space c hc := by
    rw [String.toList_ofList] at hc
    exact eq_space_of_mem_squeeze (mem_of_mem_cleanChars hc)
  single := by
    rw [String.toList_ofList]
    exact List.IsChain.infix (isChain_squeeze _) Text.trimBoth_isInfix
  trim := by
    rw [String.toList_ofList]
    exact Text.isTrim_trimBoth

theorem cleanName_eq_self_iff {s : String} : cleanName s = s ↔ s = "" ∨ IsName s := by
  constructor
  · intro h
    by_cases hempty : cleanChars s.toList = []
    · rw [cleanName, hempty] at h
      exact .inl h.symm
    · exact .inr (h ▸ isName_of_cleanChars_ne_nil hempty)
  · rintro (rfl | h)
    · rfl
    · exact h.cleanName_eq

theorem cleanName_cleanName (s : String) : cleanName (cleanName s) = cleanName s := by
  rw [cleanName_eq_self_iff, cleanName]
  by_cases hempty : cleanChars s.toList = []
  · exact .inl (by rw [hempty])
  · exact .inr (isName_of_cleanChars_ne_nil hempty)

end Cleaned

/-! ## Listed grids -/

/-- Entries as a description lists them: under names, and none twice. -/
structure IsListing (grids : List (String × GridEntry)) : Prop where
  isName : ∀ e ∈ grids, IsName e.1
  nodup : (grids.map (·.1)).Nodup

namespace IsListing

variable {grids found : List (String × GridEntry)}

theorem nil : IsListing [] := ⟨List.forall_mem_nil _, List.nodup_nil⟩

theorem put {name : String} (h : IsListing grids) (hname : IsName name) (entry : GridEntry) :
    IsListing (Entries.put name entry grids) where
  isName e he := by
    rcases Entries.mem_put he with he | rfl
    · exact h.isName e he
    · exact hname
  nodup := Entries.nodup_keys_put h.nodup name entry

/-- The grids are read line by line, and a line that is a blank name starts no entry. -/
theorem readGrids {ls : List (List Char)} (h : IsListing found)
    (hread : readGrids ls found = .ok grids) : IsListing grids := by
  fun_induction Description.readGrids ls found with
  | case1 found =>
    cases hread
    exact h
  | case2 line found =>
    cases hread
    exact h
  | case3 name values rest found hname hparts ih => exact ih h hread
  | case4 name values rest found hname system numbers hparts ih =>
    obtain ⟨numbers, -, hread⟩ := bind_eq_ok.mp hread
    have hne : cleanChars name ≠ [] := by
      intro hempty
      simp [isTerminator, hempty] at hname
    exact ih numbers (h.put (isName_of_cleanChars_ne_nil hne) _) hread
  | case5 name values rest found hname ih => exact ih h hread

theorem read {text : String} {c : Catalog} (h : read text = .ok c) : IsListing c.grids := by
  unfold Description.read at h
  split at h
  case h_1 => cases h
  case h_2 first rest hlines =>
    dsimp only at h
    split at h
    case h_1 => cases h
    case h_2 terminator after hafter =>
      obtain ⟨systems, -, h⟩ := bind_eq_ok.mp h
      obtain ⟨grids, hgrids, h⟩ := bind_eq_ok.mp h
      split at h
      case isTrue => cases h
      case isFalse =>
        cases h
        exact nil.readGrids hgrids

end IsListing

/-! ## Lookups -/

/-- Two spellings of a name have the same answer, but for a grid that is not known, which is called
by the name that was asked for. -/
inductive SameAnswer (s t : String) :
    Except Problem (List Float × GridEntry) → Except Problem (List Float × GridEntry) → Prop
  | same (answer : Except Problem (List Float × GridEntry)) : SameAnswer s t answer answer
  | unknown (available : List String) :
    SameAnswer s t (.error (.unknownGrid s available)) (.error (.unknownGrid t available))

namespace Catalog

variable {c : Catalog}

theorem lookUp_of_mem (h : IsListing c.grids) {name : String} {entry : GridEntry}
    (hentry : (name, entry) ∈ c.grids) :
    c.lookUp name = match c.systems.lookup entry.system with
      | some numbers => .ok (numbers, entry)
      | none => .error (.unknownSystem entry.system name) := by
  simp only [lookUp, (h.isName _ hentry).cleanName_eq, lookup_of_mem_of_nodup hentry h.nodup]
  cases c.systems.lookup entry.system <;> rfl

theorem exists_entry_of_mem_gridNames (h : IsListing c.grids) {name : String}
    (hname : name ∈ c.gridNames) :
    ∃ entry, ∀ other, (name, other) ∈ c.grids ↔ other = entry := by
  obtain ⟨⟨name, entry⟩, hentry, rfl⟩ := List.mem_map.mp hname
  refine ⟨entry, fun other => ⟨fun hother => ?_, fun heq => heq ▸ hentry⟩⟩
  exact (Prod.mk.inj (List.inj_on_of_nodup_map h.nodup hother hentry rfl)).2

theorem sameAnswer_of_cleanName_eq {s t : String} (h : cleanName s = cleanName t) :
    SameAnswer s t (c.lookUp s) (c.lookUp t) := by
  rw [lookUp, lookUp, h]
  cases c.grids.lookup (cleanName t) with
  | none => exact .unknown _
  | some entry => exact .same _

end Catalog

/-- Cleaning twice is cleaning once. So each name that a description lists has one entry, which is
found under it, with the numbers of its coordinate system unless the description has no such system;
and all spellings that are cleaned to one name have the same answer. -/
theorem lookUp_modulo_cleaning :
    (∀ s, cleanName (cleanName s) = cleanName s) ∧
      ∀ text c, read text = .ok c →
        (∀ name ∈ c.gridNames, ∃ entry, (∀ other, (name, other) ∈ c.grids ↔ other = entry) ∧
          c.lookUp name = match c.systems.lookup entry.system with
            | some numbers => .ok (numbers, entry)
            | none => .error (.unknownSystem entry.system name)) ∧
        ∀ s t, cleanName s = cleanName t → SameAnswer s t (c.lookUp s) (c.lookUp t) := by
  refine ⟨cleanName_cleanName, fun text c hread => ⟨fun name hname => ?_, fun s t hclean => ?_⟩⟩
  · obtain ⟨entry, hentry⟩ := Catalog.exists_entry_of_mem_gridNames (.read hread) hname
    exact ⟨entry, hentry, Catalog.lookUp_of_mem (.read hread) ((hentry entry).mpr rfl)⟩
  · exact Catalog.sameAnswer_of_cleanName_eq hclean

/-- The grid of a description is asked for with marks, blanks and a comment. -/
theorem lookUp_unitText_respelled : ∃ c, read unitText = .ok c ∧ "G 1" ∈ c.gridNames ∧
    cleanName "\t' G \u00a0 1 ', ! one cell" = cleanName "G 1" ∧
    (∃ entry, (∀ other, ("G 1", other) ∈ c.grids ↔ other = entry) ∧
      c.lookUp "G 1" = match c.systems.lookup entry.system with
        | some numbers => .ok (numbers, entry)
        | none => .error (.unknownSystem entry.system "G 1")) ∧
    SameAnswer "\t' G \u00a0 1 ', ! one cell" "G 1"
      (c.lookUp "\t' G \u00a0 1 ', ! one cell") (c.lookUp "G 1") := by
  have htext : unitDraft.text = unitText := by decide
  have hread := (Draft.renders isNamed_unitDraft).read_eq (List.cons_ne_nil _ _)
  rw [htext] at hread
  obtain ⟨hlisted, hspelled⟩ := lookUp_modulo_cleaning.2 unitText _ hread
  have hname : "G 1" ∈ ["G 1"] := List.mem_singleton_self _
  have hclean : cleanName "\t' G \u00a0 1 ', ! one cell" = cleanName "G 1" := by decide
  exact ⟨_, hread, hname, hclean, hlisted "G 1" hname, hspelled _ _ hclean⟩

end Gridding.Description
